import LibTransistor.Lib.Memory
import LibTransistor.Results
import Mathlib.Logic.Nontrivial.Defs

/-!
# The data of the IPC layer

The types of `include/libtransistor/ipc.h`. Words and handles are `uint32_t`; an address or a
buffer size is `uint64_t`.

An array with its length (`copy_handles` with `num_copy_handles`, and so on) is a list. The one
exception is a message's raw data, whose size the code takes in bytes and checks to be a multiple
of four: there the size is kept, and the list of words has one entry per whole word of it.
-/

namespace LibTransistor

abbrev Word := BitVec 32
abbrev Handle := BitVec 32

instance nontrivialWord : Nontrivial Word := ⟨0#32, 1#32, by decide⟩

/-! ## Buffers -/

/-- `ipc_buffer_t`. -/
structure IpcBuffer where
  addr : BitVec 64
  size : BitVec 64
  type : BitVec 32
  deriving DecidableEq, Repr

def nullBuffer : IpcBuffer := ⟨0, 0, 0⟩

/-- The four descriptor families of the wire format (`w` descriptors are never written). -/
inductive Family
  | a | b | c | x
  deriving DecidableEq, Repr

/-- In or out (`ax` or `bc`). -/
def direction (type : BitVec 32) : BitVec 32 := (type &&& 0b0011#32) >>> 0

/-- `ab` or `xc`. -/
def family (type : BitVec 32) : BitVec 32 := (type &&& 0b1100#32) >>> 2

/-- The descriptor list of a buffer without flag `0x20`, if its type is supported. Client and
server both decide by the same tests. -/
def plainFamily (type : BitVec 32) : Option Family :=
  if direction type = 0b01#32 then
    if family type = 0b01#32 then some .a
    else if family type = 0b10#32 then some .x
    else none
  else if direction type = 0b10#32 then
    if family type = 0b01#32 then some .b
    else if family type = 0b10#32 then some .c
    else none
  else none

/-! ## Objects -/

/-- `ipc_object_t`. The union of a session handle and a domain pointer is the 64 bits `ref`. -/
structure IpcObject where
  objectId : BitVec 32
  ref : BitVec 64
  isBorrowed : Bool
  deriving DecidableEq, Repr

namespace IpcObject

/-- `object.object_id >= 0`: the object lives in a domain. -/
def inDomain (o : IpcObject) : Bool := decide (0 ≤ o.objectId.toInt)

/-- `object.session`, the low half of the union. -/
def session (o : IpcObject) : Handle := o.ref.setWidth 32

/-- `object.domain`, the whole union as a pointer. -/
def domain (o : IpcObject) : BitVec 64 := o.ref

end IpcObject

/-! ## Requests and responses -/

/-- `ipc_request_t`. -/
structure IpcRequest where
  type : BitVec 32
  buffers : List IpcBuffer
  requestId : Word
  rawData : List Word
  /-- In bytes. -/
  rawDataSize : Nat
  sendPid : Bool
  copyHandles : List Handle
  moveHandles : List Handle
  objects : List IpcObject
  closeObject : Bool
  rawData_words : rawData.length = rawDataSize / 4

/-- `ipc_default_request`. -/
def ipcDefaultRequest : IpcRequest where
  type := 4
  buffers := []
  requestId := 0
  rawData := []
  rawDataSize := 0
  sendPid := false
  copyHandles := []
  moveHandles := []
  objects := []
  closeObject := false
  rawData_words := rfl

/-- `ipc_pack_message_t`, what `ipc_pack_message` puts on the wire. -/
structure PackMessage where
  messageType : BitVec 16
  buffers : List IpcBuffer
  copyHandles : List Handle
  moveHandles : List Handle
  sendPid : Bool
  /-- Including the SFCI, SFCO or domain header, but not padding. -/
  dataSection : List Word

/-- `ipc_message_t`, an unpacked message. Its pointers are offsets into `buffer`, the words it was
unpacked from; `copyHandles` and `moveHandles` may be `NULL`. -/
structure IpcMessage where
  buffer : Mem Word
  messageType : BitVec 16
  /-- In words. -/
  rawDataSectionSize : Nat
  numXDescriptors : Nat
  numADescriptors : Nat
  numBDescriptors : Nat
  numWDescriptors : Nat
  cDescriptorFlags : Nat
  xDescriptors : Nat
  aDescriptors : Nat
  bDescriptors : Nat
  wDescriptors : Nat
  cDescriptors : Nat
  numCopyHandles : Nat
  numMoveHandles : Nat
  copyHandles : Option Nat
  moveHandles : Option Nat
  hasPid : Bool
  pid : BitVec 64
  dataSection : Nat

namespace IpcMessage

variable (msg : IpcMessage)

/-- The words behind one of the message's pointers. -/
def words (p : Nat) : Mem Word := fun i => msg.buffer (p + i)

theorem read_words (p a n : Nat) :
    (msg.words p).read a n = msg.buffer.read (p + a) n := msg.buffer.read_shift p a n

/-- The handles behind `copy_handles`, in order. -/
def copyHandleList : List Handle :=
  msg.buffer.read (msg.copyHandles.getD 0) msg.numCopyHandles

/-- The handles behind `move_handles`, in order. -/
def moveHandleList : List Handle :=
  msg.buffer.read (msg.moveHandles.getD 0) msg.numMoveHandles

end IpcMessage

end LibTransistor
