/-!
# Result codes

`result_t` of `include/libtransistor/types.h` is `uint32_t`; the codes are those of `err.h` that the
modelled functions return. The values of `errno` are newlib's.
-/

namespace LibTransistor

abbrev ResultT := BitVec 32

/-- `RESULT_OK`. -/
def resultOk : ResultT := 0#32

/-- What a caller takes for a failure. -/
def IsError (r : ResultT) : Prop := r ≠ resultOk

instance decidableIsError (r : ResultT) : Decidable (IsError r) :=
  inferInstanceAs (Decidable (r ≠ resultOk))

/-- `LIBTRANSISTOR_RESULT(code)`. -/
def libtransistorResult (code : Nat) : ResultT := BitVec.ofNat 32 ((code <<< 9) ||| 0xDD)

/-- `HOMEBREW_ABI_RESULT(code)`. -/
def homebrewAbiResult (code : ResultT) : ResultT := (code <<< 9) ||| 346#32

namespace Err

def unimplemented : ResultT := libtransistorResult 2
def outOfMemory : ResultT := libtransistorResult 3
def unsupportedBufferType : ResultT := libtransistorResult 1001
def tooManyBuffers : ResultT := libtransistorResult 1002
def invalidRequestType : ResultT := libtransistorResult 1003
def tooManyHandles : ResultT := libtransistorResult 1004
def invalidBufferAddress : ResultT := libtransistorResult 1005
def invalidBufferSize : ResultT := libtransistorResult 1006
def invalidProtection : ResultT := libtransistorResult 1007
def invalidIpcResponseType : ResultT := libtransistorResult 1008
def invalidIpcResponseMagic : ResultT := libtransistorResult 1009
def invalidRawDataSize : ResultT := libtransistorResult 1010
def unexpectedRawDataSize : ResultT := libtransistorResult 1011
def unexpectedPid : ResultT := libtransistorResult 1012
def unexpectedCopyHandles : ResultT := libtransistorResult 1013
def unexpectedMoveHandles : ResultT := libtransistorResult 1014
def alreadyADomain : ResultT := libtransistorResult 1015
def cantSendObjectAcrossDomains : ResultT := libtransistorResult 1016
def cantSendDomainObjectToSession : ResultT := libtransistorResult 1017
def tooManyObjects : ResultT := libtransistorResult 1018
def unexpectedObjects : ResultT := libtransistorResult 1019
def cantCloseSessionsLikeDomainObjects : ResultT := libtransistorResult 1020
def malformedCloseRequest : ResultT := libtransistorResult 1021
def invalidIpcRequestMagic : ResultT := libtransistorResult 1022
def cantSendSessionObjectFromDomain : ResultT := libtransistorResult 1023
def cantSendDomainObjectFromSession : ResultT := libtransistorResult 1024
def unexpectedBufferProtection : ResultT := libtransistorResult 1025
def refusalToConvertBorrowedObject : ResultT := libtransistorResult 1026
def smNotInitialized : ResultT := libtransistorResult 2001
def smServiceNameTooLong : ResultT := libtransistorResult 2002
def bsdErrnoSet : ResultT := libtransistorResult 3001
def bsdBufferTooSmall : ResultT := libtransistorResult 3002
def bsdInvalidMagic : ResultT := libtransistorResult 3003
def bsdUnrecognizedSocketService : ResultT := libtransistorResult 3004
def nvInitializeFailed : ResultT := libtransistorResult 4001
def nvOpenFailed : ResultT := libtransistorResult 4002
def parcelDataTooBig : ResultT := libtransistorResult 5002
def parcelDataUnderrun : ResultT := libtransistorResult 5003
def displayGraphicBufferLengthMismatch : ResultT := libtransistorResult 5005
def surfaceConnectFailed : ResultT := libtransistorResult 5006
def surfaceDequeueBufferFailed : ResultT := libtransistorResult 5007
def surfaceQueueBufferFailed : ResultT := libtransistorResult 5008
def surfaceInvalidState : ResultT := libtransistorResult 5009
def fsInternalError : ResultT := libtransistorResult 8001
def fsOutOfDirEntries : ResultT := libtransistorResult 8002
def fsNameTooLong : ResultT := libtransistorResult 8003
def fsNotADirectory : ResultT := libtransistorResult 8004
def fsNotFound : ResultT := libtransistorResult 8006
def fsPathTooDeep : ResultT := libtransistorResult 8008
def ipcserverInvalidSessionState : ResultT := libtransistorResult 10001
def ipcserverTooManySessions : ResultT := libtransistorResult 10002
def ipcserverNoSuchObject : ResultT := libtransistorResult 10003
def ipcserverObjectNotActive : ResultT := libtransistorResult 10004
def ipcserverSessionObjectWasDomain : ResultT := libtransistorResult 10005
def ipcserverCantSendRootObject : ResultT := libtransistorResult 10006

end Err

namespace Errno

def enoent : Int := 2
def eio : Int := 5
def ebadf : Int := 9
def enomem : Int := 12
def enotdir : Int := 20
def einval : Int := 22
def enosys : Int := 88

end Errno

end LibTransistor
