import LibTransistor.Ipc.Types

/-!
# Packing and unpacking a message

`ipc_pack_message` and `ipc_unpack` of `lib/ipc.c`: the wire format of requests and responses.

A message is two header words, an optional handle descriptor, the X, A and B descriptors, the data
section between paddings, the list of C descriptor lengths, and the C descriptors. The packer writes
through a head `h`; the two words it leaves for the kernel's PID, the paddings and an unused half of
the length list keep whatever the buffer held.
-/

namespace LibTransistor

open Fallible Cursor

/-- A function that writes into the marshal buffer. -/
abbrev Marshal := EStateM ResultT (Cursor Word)

/-! ## Grouping buffers by descriptor type -/

/-- The local arrays `a_descriptors`, `b_descriptors`, `c_descriptors` and `x_descriptors`. -/
abbrev Descriptors := Family → List IpcBuffer

/-- `list[(*count)++] = buf`. -/
def Descriptors.push (d : Descriptors) (l : Family) (buf : IpcBuffer) : Descriptors :=
  Function.update d l (d l ++ [buf])

/-- One round of the loop that groups buffers by descriptor type. -/
def groupBuffer (d : Descriptors) (buf : IpcBuffer) : Except ResultT Descriptors :=
  if buf.type &&& 0x20#32 = 0#32 then
    match plainFamily buf.type with
    | none => .error Err.unsupportedBufferType
    | some l =>
      if (d l).length ≥ 16 then .error Err.tooManyBuffers
      else .ok (d.push l buf)
  else if buf.type = 0x21#32 then
    if (d .a).length ≥ 16 ∨ (d .x).length ≥ 16 then .error Err.tooManyBuffers
    else .ok ((d.push .a buf).push .x nullBuffer)
  else if buf.type = 0x22#32 then
    if (d .b).length ≥ 16 ∨ (d .c).length ≥ 16 then .error Err.tooManyBuffers
    else .ok ((d.push .b buf).push .c nullBuffer)
  else .error Err.unsupportedBufferType

def groupBuffers (d : Descriptors) : List IpcBuffer → Except ResultT Descriptors
  | [] => .ok d
  | buf :: bufs =>
    match groupBuffer d buf with
    | .ok d' => groupBuffers d' bufs
    | .error e => .error e

/-! ## The fields of the wire format -/

/-- Header field 1. There are never any W descriptors. -/
def header0 (messageType : BitVec 16) (numX numA numB : Nat) : Word :=
  messageType.setWidth 32
    ||| (BitVec.ofNat 32 numX <<< 16)
    ||| (BitVec.ofNat 32 numA <<< 20)
    ||| (BitVec.ofNat 32 numB <<< 24)
    ||| (0#32 <<< 28)

def cDescriptorFlags (numC : Nat) : Nat :=
  if numC = 1 then 2 else if numC > 1 then numC + 2 else 0

/-- Header field 2, with the size still to be filled in. -/
def header1 (numC : Nat) (handleDescriptorEnabled : Bool) : Word :=
  0#32 ||| (BitVec.ofNat 32 (cDescriptorFlags numC) <<< 10)
    ||| ((if handleDescriptorEnabled then 1#32 else 0#32) <<< 31)

variable (msg : PackMessage)

def handleDescriptor : Word :=
  (if msg.sendPid then 1#32 else 0#32)
    ||| (BitVec.ofNat 32 msg.copyHandles.length <<< 1)
    ||| (BitVec.ofNat 32 msg.moveHandles.length <<< 5)

/-- The first word of an X descriptor, put together in 64 bits and cut to 32. -/
def xField (counter : Nat) (buf : IpcBuffer) : Word :=
  (BitVec.ofNat 64 counter
    ||| ((buf.addr >>> 36) &&& 0b111#64) <<< 6
    ||| ((BitVec.ofNat 64 counter >>> 9) &&& 0b111#64) <<< 9
    ||| ((buf.addr >>> 32) &&& 0b1111#64) <<< 12
    ||| buf.size <<< 16).setWidth 32

/-- The third word of an A or B descriptor. -/
def abField (buf : IpcBuffer) : Word :=
  ((buf.type >>> 6).setWidth 64
    ||| ((buf.addr >>> 36) &&& 0b111#64) <<< 2
    ||| ((buf.size >>> 32) &&& 0b1111#64) <<< 24
    ||| ((buf.addr >>> 32) &&& 0b1111#64) <<< 28).setWidth 32

/-- The second word of a C descriptor. -/
def cField (buf : IpcBuffer) : Word :=
  ((buf.addr >>> 32) ||| (buf.size.setWidth 32 <<< 16 : BitVec 32).setWidth 64).setWidth 32

/-! ## Packing -/

def PackMessage.handleDescriptorEnabled : Bool :=
  msg.copyHandles.length ≠ 0 || msg.moveHandles.length ≠ 0 || msg.sendPid

def packHandleDescriptor : Marshal Unit :=
  if msg.handleDescriptorEnabled then do
    failIf (msg.copyHandles.length ≥ 16 ∨ msg.moveHandles.length ≥ 16) Err.tooManyHandles
    emit (handleDescriptor msg)
    skip (if msg.sendPid then 2 else 0)
    emitAll msg.copyHandles
    emitAll msg.moveHandles
  else pure ()

def packXDescriptors : Nat → List IpcBuffer → Marshal Unit
  | _, [] => pure ()
  | i, buf :: bufs => do
    failIf (buf.addr >>> 39 ≠ 0#64) Err.invalidBufferAddress
    failIf (buf.size >>> 16 ≠ 0#64) Err.invalidBufferSize
    emit (xField i buf)
    emit (buf.addr.setWidth 32)
    packXDescriptors (i + 1) bufs

/-- A and B descriptors. The source walks both arrays in one loop, A first. -/
def packABDescriptors : List IpcBuffer → Marshal Unit
  | [] => pure ()
  | buf :: bufs => do
    failIf (buf.addr >>> 39 ≠ 0#64) Err.invalidBufferAddress
    failIf (buf.size >>> 35 ≠ 0#64) Err.invalidBufferSize
    emit (buf.size.setWidth 32)
    emit (buf.addr.setWidth 32)
    failIf (buf.type >>> 8 ≠ 0#32) Err.invalidProtection
    emit (abField buf)
    packABDescriptors bufs

/-- Replace one half of a little-endian word. -/
def setHalf (upper : Bool) (v : BitVec 16) (w : Word) : Word :=
  if upper then v ++ w.setWidth 16 else (w >>> 16).setWidth 16 ++ v

/-- `u16_length_list[u16_length_count++] = size` for every C descriptor without flag `0x10`. The
list starts at word `base`; the result is its length. -/
def packLengthList (base : Nat) : Nat → List IpcBuffer → Marshal Nat
  | k, [] => pure k
  | k, buf :: bufs =>
    if buf.type &&& 0x10#32 = 0#32 then do
      failIf (buf.size >>> 16 ≠ 0#64) Err.invalidBufferSize
      modifyAt (base + k / 2) (setHalf (k % 2 = 1) (buf.size.setWidth 16))
      packLengthList base (k + 1) bufs
    else packLengthList base k bufs

def packCDescriptors : List IpcBuffer → Marshal Unit
  | [] => pure ()
  | buf :: bufs => do
    failIf (buf.addr >>> 48 ≠ 0#64) Err.invalidBufferAddress
    failIf (buf.size >>> 16 ≠ 0#64) Err.invalidBufferSize
    emit (buf.addr.setWidth 32)
    emit (cField buf)
    packCDescriptors bufs

/-- Where the packer was when it wrote each section, and the descriptors it wrote there. The C
function keeps these in locals and drops them. -/
structure Written where
  descriptors : Descriptors
  xAt : Nat
  aAt : Nat
  bAt : Nat
  rawDataStart : Nat
  dataAt : Nat
  cAt : Nat

/-- `(h + 3) & ~3`. -/
def alignHead (h : Nat) : Nat := (h + 3) / 4 * 4

/-- The headers, the handle descriptor, and the X, A and B descriptors. The size in the second
header is to be filled in later. -/
def packFront (d : Descriptors) : Marshal (Nat × Nat × Nat × Nat) := do
  emit (header0 msg.messageType (d .x).length (d .a).length (d .b).length)
  let sizeFieldOffset ← head
  emit (header1 (d .c).length msg.handleDescriptorEnabled)
  packHandleDescriptor msg
  let xAt ← head
  packXDescriptors 0 (d .x)
  let aAt ← head
  packABDescriptors (d .a)
  let bAt ← head
  packABDescriptors (d .b)
  pure (sizeFieldOffset, xAt, aAt, bAt)

/-- The data section between its paddings, the length list, the size, and the C descriptors. -/
def packBack (d : Descriptors) (sizeFieldOffset : Nat) : Marshal (Nat × Nat × Nat) := do
  let rawDataStart ← head
  skip (alignHead rawDataStart - rawDataStart)
  let dataAt ← head
  emitAll msg.dataSection
  -- the padding before this section and after it add up to 0x10 bytes
  skip (4 - (dataAt - rawDataStart))
  let base ← head
  let u16LengthCount ← packLengthList base 0 (d .c)
  skip ((u16LengthCount + 1) / 2)
  let cAt ← head
  modifyAt sizeFieldOffset (· ||| BitVec.ofNat 32 (cAt - rawDataStart))
  packCDescriptors (d .c)
  pure (rawDataStart, dataAt, cAt)

def ipcPackMessage : Marshal Written := do
  let d ← runPure (groupBuffers (fun _ => []) msg.buffers)
  let (sizeFieldOffset, xAt, aAt, bAt) ← packFront msg d
  let (rawDataStart, dataAt, cAt) ← packBack msg d sizeFieldOffset
  pure ⟨d, xAt, aAt, bAt, rawDataStart, dataAt, cAt⟩

/-! ## Unpacking -/

/-- The number of C descriptors that `c_descriptor_flags` stands for; flag 1 stands for none of
the forms the library knows. -/
def numCDescriptors (flags : Nat) : Option Nat :=
  if flags = 0 then some 0
  else if flags = 1 then none
  else if flags = 2 then some 1
  else some (flags - 2)

/-- The handle descriptor and what follows it, at word `h`: the PID if there is one, the numbers
of handles, the pointers to them, and the head behind them. -/
structure HandleSection where
  hasPid : Bool
  pid : BitVec 64
  numCopyHandles : Nat
  numMoveHandles : Nat
  copyHandles : Option Nat
  moveHandles : Option Nat
  h : Nat

def unpackHandles (buffer : Mem Word) (hasHandleDescriptor : Bool) (h : Nat) : HandleSection :=
  if hasHandleDescriptor then
    let desc := buffer h
    let hasPid := desc &&& 1#32 ≠ 0#32
    let h := h + 1
    let pid := if hasPid then buffer (h + 1) ++ buffer h else 0#64
    let h := if hasPid then h + 2 else h
    let numCopy := ((desc >>> 1) &&& 0xF#32).toNat
    let numMove := ((desc >>> 5) &&& 0xF#32).toNat
    ⟨hasPid, pid, numCopy, numMove, some h, some (h + numCopy), h + numCopy + numMove⟩
  else ⟨false, 0#64, 0, 0, none, none, h⟩

/-- The message that `ipc_unpack` fills in, from the two headers and the handle section. -/
def unpackedMessage (buffer : Mem Word) (header0 header1 : Word) (hs : HandleSection) :
    IpcMessage :=
  let numX := ((header0 >>> 16) &&& 0xF#32).toNat
  let numA := ((header0 >>> 20) &&& 0xF#32).toNat
  let numB := ((header0 >>> 24) &&& 0xF#32).toNat
  let numW := ((header0 >>> 28) &&& 0xF#32).toNat
  let rawDataSectionSize := (header1 &&& 0b1111111111#32).toNat
  let before := hs.h + numX * 2 + numA * 3 + numB * 3 + numW * 3
  { buffer := buffer
    messageType := header0.setWidth 16
    rawDataSectionSize := rawDataSectionSize
    numXDescriptors := numX
    numADescriptors := numA
    numBDescriptors := numB
    numWDescriptors := numW
    cDescriptorFlags := ((header1 >>> 10) &&& 0xF#32).toNat
    xDescriptors := hs.h
    aDescriptors := hs.h + numX * 2
    bDescriptors := hs.h + numX * 2 + numA * 3
    wDescriptors := hs.h + numX * 2 + numA * 3 + numB * 3
    cDescriptors := before + rawDataSectionSize
    numCopyHandles := hs.numCopyHandles
    numMoveHandles := hs.numMoveHandles
    copyHandles := hs.copyHandles
    moveHandles := hs.moveHandles
    hasPid := hs.hasPid
    pid := hs.pid
    dataSection := alignHead before }

def ipcUnpack (buffer : Mem Word) : IpcMessage :=
  unpackedMessage buffer (buffer 0) (buffer 1) (unpackHandles buffer (buffer 1 >>> 31 ≠ 0#32) 2)

end LibTransistor
