import LibTransistor.Ipc.Request
import Mathlib.Algebra.Group.Nat.Defs

/-!
# Responses, from the server's response to the client's format

`ipc_pack_response` and `ipc_unflatten_response` of `lib/ipc.c`, the way back of a request.

The objects of a response from a session travel as the first move handles: the client's ends of the
sessions the objects live in. Those of a response from a domain travel as domain ids; the server
puts them behind the domain header.
-/

namespace LibTransistor

open Fallible Cursor

/-- `"SFCO"` as a little-endian word. -/
def sfco : Word := 0x4F434653#32

/-- `ipc_response_t`. -/
structure IpcResponse where
  type : BitVec 32
  buffers : List IpcBuffer
  resultCode : ResultT
  rawData : List Word
  /-- In bytes. -/
  rawDataSize : Nat
  sendPid : Bool
  copyHandles : List Handle
  moveHandles : List Handle
  objects : List ObjPtr
  rawData_words : rawData.length = rawDataSize / 4

theorem noRawData_words : ([] : List Word).length = 0 / 4 := rfl

/-- `ipc_default_response`. -/
def ipcDefaultResponse : IpcResponse where
  type := 0
  buffers := []
  resultCode := resultOk
  rawData := []
  rawDataSize := 0
  sendPid := false
  copyHandles := []
  moveHandles := []
  objects := []
  rawData_words := noRawData_words

/-! ## Packing -/

section Packing

variable (w : World)

/-- The handles that stand for the objects of a response from a session. -/
def stageClientHandles : List ObjPtr → EStateM ResultT (Cursor Handle) Unit
  | [] => pure ()
  | o :: os => do
    let tobject := w.object o
    let clientHandle := (w.session tobject.owningSession).clientHandle
    failIf (tobject.isDomainObject = true) Err.cantSendDomainObjectFromSession
    failIf (clientHandle = 0#32) Err.ipcserverCantSendRootObject
    emit clientHandle
    stageClientHandles os

variable (rs : IpcResponse)

/-- The local array `move_handles`. -/
def stageResponseHandles (fromDomain : Bool) : EStateM ResultT (Cursor Handle) Unit := do
  if fromDomain then pure () else stageClientHandles w rs.objects
  emitAll rs.moveHandles

/-- The ids of the objects of a response from a domain. -/
def stageDomainIds (object : ServerObject) : List ObjPtr → EStateM ResultT (Cursor Word) Unit
  | [] => pure ()
  | o :: os => do
    let tobject := w.object o
    failIf (tobject.isDomainObject = false) Err.cantSendSessionObjectFromDomain
    failIf (tobject.owningDomain ≠ object.owningDomain) Err.cantSendObjectAcrossDomains
    emit tobject.domainId
    stageDomainIds object os

/-- The local array `buffer`, the data section. -/
def stageResponseData (object : ServerObject) (fromDomain : Bool) :
    EStateM ResultT (Cursor Word) Unit := do
  if fromDomain then
    failIf (rs.objects.length > 8) Err.tooManyObjects
    emitAll [BitVec.ofNat 32 rs.objects.length, 0#32, 0#32, 0#32]
    stageDomainIds w object rs.objects
  else pure ()
  emitAll [sfco, 0#32, rs.resultCode, 0#32]
  failIf (rs.rawDataSize > 0x200) Err.invalidRawDataSize
  emitAll rs.rawData

def IpcResponse.staging (o : ObjPtr) : Staging where
  type := rs.type
  rawDataSize := rs.rawDataSize
  moveHandles := stageResponseHandles w rs (w.object o).isDomainObject
  data := stageResponseData w rs (w.object o) (w.object o).isDomainObject
  message moveHandles dataSection := {
    messageType := rs.type.setWidth 16
    buffers := rs.buffers
    copyHandles := rs.copyHandles
    moveHandles
    sendPid := rs.sendPid
    dataSection }

/-- `ipc_pack_response`, with the contents that the local arrays start with. -/
def ipcPackResponse (handles : Mem Handle) (stack : Mem Word) (rs : IpcResponse) (o : ObjPtr) :
    Marshal Unit :=
  (rs.staging w o).pack handles stack

end Packing

/-! ## The format -/

/-- `ipc_response_fmt_t`, less the pointers. -/
structure IpcResponseFmt where
  numCopyHandles : Nat
  numMoveHandles : Nat
  numObjects : Nat
  /-- In bytes. -/
  rawDataSize : Nat
  hasPid : Bool

/-- What the pointers of an `ipc_response_fmt_t` point at. Nothing is stored through `pid`. -/
structure ResponseOut where
  copyHandles : Mem Handle
  moveHandles : Mem Handle
  objects : Mem IpcObject
  rawData : Mem Word

abbrev UnflattenResponse := EStateM ResultT ResponseOut

/-! ## Unflattening -/

/-- An object of the client's domain. -/
def domainObject (domain : BitVec 64) (id : Word) : IpcObject := ⟨id, domain, false⟩

/-- Make an object a session. The handle is the low half of the union, the rest stays. -/
def setSession (old : IpcObject) (session : Handle) : IpcObject :=
  ⟨-1#32, (old.ref >>> 32).setWidth 32 ++ session, false⟩

variable (msg : IpcMessage) (fmt : IpcResponseFmt)

/-- The checks of `ipc_unflatten_response` up to the domain header. -/
def checkResponse (fromDomain : Bool) : UnflattenResponse Unit := do
  let data := msg.words msg.dataSection
  let h := if fromDomain then 4 else 0
  failIf (msg.messageType ≠ 0#16) Err.invalidIpcResponseType
  failIf (data h ≠ sfco) Err.invalidIpcResponseMagic
  -- if this isn't ok, none of our other expectations will make sense
  failIf (data (h + 2) ≠ resultOk) (data (h + 2))
  failIf (declaredRawWords msg (if fromDomain then 4 + fmt.numObjects else 0) 0 ≠
    fmt.rawDataSize / 4) Err.unexpectedRawDataSize
  failIf (msg.hasPid ≠ fmt.hasPid) Err.unexpectedPid
  failIf (msg.numCopyHandles ≠ fmt.numCopyHandles) Err.unexpectedCopyHandles
  failIf (msg.numMoveHandles ≠
    (fmt.numMoveHandles + if fromDomain then 0 else fmt.numObjects) % 2 ^ 32)
    Err.unexpectedMoveHandles
  failIf (fromDomain ∧ (data 0).toNat ≠ fmt.numObjects) Err.unexpectedObjects

/-- What `ipc_unflatten_response` stores once all is checked. -/
def storeResponse (object : IpcObject) (out : ResponseOut) : ResponseOut :=
  let fromDomain := object.inDomain
  let data := msg.words msg.dataSection
  let rawDataWords := fmt.rawDataSize / 4
  let copyHandles := msg.words (msg.copyHandles.getD 0)
  let moveHandles := msg.words (msg.moveHandles.getD 0)
  let rawData := fun i => data ((if fromDomain then 8 else 4) + i)
  let mhi := if fromDomain then 0 else fmt.numObjects
  { objects := fun i =>
      if i < fmt.numObjects then
        if fromDomain then domainObject object.domain (data (8 + rawDataWords + i))
        else setSession (out.objects i) (moveHandles i)
      else out.objects i
    copyHandles := copyWords out.copyHandles copyHandles fmt.numCopyHandles
    moveHandles := copyWords out.moveHandles (fun i => moveHandles (mhi + i)) fmt.numMoveHandles
    rawData := copyWords out.rawData rawData rawDataWords }

def ipcUnflattenResponse (object : IpcObject) : UnflattenResponse Unit := do
  failIf (fmt.rawDataSize % 4 ≠ 0) Err.invalidRawDataSize
  checkResponse msg fmt object.inDomain
  modify (storeResponse msg fmt object)

end LibTransistor
