import LibTransistor.Ipc.Server

/-!
# Requests, from the client's request to the server's format

`ipc_pack_request` and `ipc_unflatten_request` of `lib/ipc.c`.

**Packing.** The client stages the move handles and the data section in local arrays and hands them
to `ipc_pack_message`. The objects of a request to a session travel as the first move handles; those
of a request to a domain as ids behind the raw data.

**Unflattening.** The server holds an unpacked message against a format, the shape it expects, and
copies what it finds through the format's pointers (`RequestOut`), so what was written before an
error is still there after it. The descriptor arrays are locals and start with arbitrary contents.
-/

namespace LibTransistor

open Fallible Cursor

/-- `"SFCI"` as a little-endian word. -/
def sfci : Word := 0x49434653#32

/-! ## Packing -/

/-- The handles that stand for the objects of a request to a session. -/
def stageObjectHandles : List IpcObject → EStateM ResultT (Cursor Handle) Unit
  | [] => pure ()
  | tobject :: tobjects => do
    failIf (tobject.inDomain = true) Err.cantSendDomainObjectToSession
    emit tobject.session
    stageObjectHandles tobjects

variable (rq : IpcRequest)

/-- The local array `move_handles`. -/
def stageMoveHandles (toDomain : Bool) : EStateM ResultT (Cursor Handle) Unit := do
  if toDomain then pure () else stageObjectHandles rq.objects
  emitAll rq.moveHandles

/-- The ids of the objects of a request to a domain. -/
def stageObjectIds (object : IpcObject) : List IpcObject → EStateM ResultT (Cursor Word) Unit
  | [] => pure ()
  | tobject :: tobjects => do
    failIf (tobject.domain ≠ object.domain) Err.cantSendObjectAcrossDomains
    emit tobject.objectId
    stageObjectIds object tobjects

/-- The domain header, without the payload size; its last two words are not written. -/
def stageDomainHeader (object : IpcObject) : EStateM ResultT (Cursor Word) Unit := do
  failIf (rq.objects.length > 8) Err.tooManyObjects
  emit ((if rq.closeObject then 2#32 else 1#32) ||| (BitVec.ofNat 32 rq.objects.length <<< 8))
  emit object.objectId
  skip 2

/-- What a request to close an object must look like. -/
def IpcRequest.WellFormedClose : Prop :=
  rq.type = 4#32 ∧ rq.buffers = [] ∧ rq.rawDataSize = 0 ∧ rq.sendPid = false ∧
    rq.copyHandles = [] ∧ rq.moveHandles = [] ∧ rq.objects = []

instance (rq : IpcRequest) : Decidable rq.WellFormedClose := by
  unfold IpcRequest.WellFormedClose; infer_instance

/-- The header of the command and its raw data, or nothing for a request to close. -/
def stagePayload (toDomain : Bool) : EStateM ResultT (Cursor Word) Unit :=
  if rq.closeObject then do
    failIf (toDomain = false) Err.cantCloseSessionsLikeDomainObjects
    failIf (¬ rq.WellFormedClose) Err.malformedCloseRequest
  else do
    emit sfci
    emit 0#32
    emit rq.requestId
    emit 0#32
    failIf (rq.rawDataSize > 0x200) Err.invalidRawDataSize
    emitAll rq.rawData

/-- The local array `buffer`, the data section. -/
def stageRequestData (object : IpcObject) (toDomain : Bool) :
    EStateM ResultT (Cursor Word) Unit := do
  if toDomain then stageDomainHeader rq object else pure ()
  let payloadStart ← head
  stagePayload rq toDomain
  if toDomain then
    let h ← head
    modifyAt 0 (· ||| (BitVec.ofNat 32 ((h - payloadStart) * 4) <<< 16))
    stageObjectIds object rq.objects
  else pure ()

/-- What `ipc_pack_request` and `ipc_pack_response` each make a message of: the fields that both
check, what they store in `move_handles` and `buffer`, and the message with these two in it. -/
structure Staging where
  type : BitVec 32
  rawDataSize : Nat
  moveHandles : EStateM ResultT (Cursor Handle) Unit
  data : EStateM ResultT (Cursor Word) Unit
  message : List Handle → List Word → PackMessage

/-- What the two functions have in common: two checks, the two local arrays, which start with
`handles` and `stack` in them, and the message made of them. -/
def Staging.pack (g : Staging) (handles : Mem Handle) (stack : Mem Word) : Marshal Unit := do
  failIf (g.type &&& ~~~0xFFFF#32 ≠ 0#32) Err.invalidRequestType
  failIf (g.rawDataSize % 4 ≠ 0) Err.invalidRawDataSize
  let (_, moveHandles) ← withLocal ⟨handles, 0⟩ g.moveHandles
  let (_, data) ← withLocal ⟨stack, 0⟩ g.data
  let _ ← ipcPackMessage (g.message (moveHandles.buffer.read 0 moveHandles.h)
    (data.buffer.read 0 data.h))
  pure ()

def IpcRequest.staging (object : IpcObject) : Staging where
  type := rq.type
  rawDataSize := rq.rawDataSize
  moveHandles := stageMoveHandles rq object.inDomain
  data := stageRequestData rq object object.inDomain
  message moveHandles dataSection := {
    messageType := rq.type.setWidth 16
    buffers := rq.buffers
    copyHandles := rq.copyHandles
    moveHandles
    sendPid := rq.sendPid
    dataSection }

/-- `ipc_pack_request`, with the contents that the local arrays start with. -/
def ipcPackRequest (handles : Mem Handle) (stack : Mem Word) (rq : IpcRequest)
    (object : IpcObject) : Marshal Unit :=
  (rq.staging object).pack handles stack

/-! ## The format -/

/-- `ipc_request_fmt_t`, less the pointers that are written through. -/
structure IpcRequestFmt where
  /-- The `type` fields of the buffers, filled out by the caller. -/
  bufferTypes : List (BitVec 32)
  /-- In bytes. -/
  rawDataSize : Nat
  sendPid : Bool
  numCopyHandles : Nat
  numMoveHandles : Nat
  numObjects : Nat

/-- What the pointers of an `ipc_request_fmt_t` point at. -/
structure RequestOut where
  /-- `buffers[i]->addr`. -/
  addrs : Mem (BitVec 64)
  /-- `buffers[i]->size`. -/
  sizes : Mem (BitVec 64)
  rawData : Mem Word
  pid : BitVec 64
  copyHandles : Mem Handle
  moveHandles : Mem Handle
  objects : Mem ObjPtr

abbrev Unflatten := EStateM ResultT RequestOut

/-! ## Decoding descriptors -/

/-- A decoder of one descriptor: from its words and the array cell it goes to, which keeps the
fields that are not decoded. -/
abbrev Decoder := Mem Word → IpcBuffer → IpcBuffer

def decodeX : Decoder := fun ws buf =>
  let field := (ws 0).setWidth 64
  { buf with
    addr := ((field >>> 6) &&& 0b111#64) <<< 36 ||| ((field >>> 12) &&& 0b1111#64) <<< 32
      ||| (ws 1).setWidth 64
    size := (ws 0 >>> 16).setWidth 64 }

/-- `typemap[prot]`. -/
def typemap (prot : BitVec 32) : BitVec 32 :=
  if prot = 1#32 then 1#32 else if prot = 3#32 then 2#32 else 0#32

def decodeAB : Decoder := fun ws _ =>
  let field := (ws 2).setWidth 64
  { addr := (ws 1).setWidth 64 ||| ((field >>> 2) &&& 0b111#64) <<< 36
      ||| ((field >>> 28) &&& 0b1111#64) <<< 32
    size := (ws 0).setWidth 64 ||| ((field >>> 24) &&& 0b1111#64) <<< 32
    type := typemap (ws 2 &&& 0b11#32) <<< 6 }

def decodeC : Decoder := fun ws buf =>
  { buf with
    addr := (ws 0).setWidth 64 ||| (ws 1 &&& 0xFFFF#32).setWidth 64
    size := (ws 1 >>> 16).setWidth 64 }

/-- Decode `n` descriptors of `width` words each, from word `h` of `src` into the cells of `arr`
from `i` on; the result is the head behind them and the array. -/
def unpackDescriptors (width : Nat) (decode : Decoder) (src : Mem Word) :
    Nat → Nat → Nat → Mem IpcBuffer → Nat × Mem IpcBuffer
  | 0, _, h, arr => (h, arr)
  | n + 1, i, h, arr =>
    unpackDescriptors width decode src n (i + 1) (h + width)
      (Function.update arr i (decode (fun k => src (h + k)) (arr i)))

/-! ## Assigning descriptors to buffers -/

/-- The descriptors of a message: the local arrays, and how many the message came with. -/
structure DescArrays where
  descs : Family → Mem IpcBuffer
  count : Family → Nat

/-- How many descriptors of each family are used up, and the entries of the length list. -/
@[ext] structure Assigned where
  used : Family → Nat
  u16Count : Nat

def Assigned.use (s : Assigned) (l : Family) : Assigned :=
  { s with used := Function.update s.used l (s.used l + 1) }

/-- A C descriptor without flag `0x10` has an entry in the length list. -/
def Assigned.list (s : Assigned) (type : BitVec 32) : Assigned :=
  if type &&& 0x10#32 = 0#32 then { s with u16Count := s.u16Count + 1 } else s

/-- The number a plain family is checked against. For X it is the number of A descriptors. -/
def DescArrays.plainCount (u : DescArrays) : Family → Nat
  | .x => u.count .a
  | l => u.count l

/-- The descriptor that is not `NULL`, if there is one. -/
def choosePaired (d₁ d₂ : IpcBuffer) : Except ResultT IpcBuffer :=
  if d₁.addr ≠ 0#64 then
    if d₂.addr ≠ 0#64 then .error Err.unimplemented else .ok d₁
  else if d₂.addr ≠ 0#64 then .ok d₂
  else .ok nullBuffer

/-- The descriptor for the next buffer of the format. -/
def pickDescriptor (u : DescArrays) (s : Assigned) (type : BitVec 32) :
    Except ResultT (IpcBuffer × Assigned) :=
  if type &&& 0x20#32 = 0#32 then
    match plainFamily type with
    | none => .error Err.unsupportedBufferType
    | some l =>
      if s.used l ≥ u.plainCount l then .error Err.tooManyBuffers
      else .ok (u.descs l (s.used l), if l = .c then (s.use l).list type else s.use l)
  else if type = 0x21#32 then
    if s.used .a ≥ u.count .a ∨ s.used .x ≥ u.count .x then .error Err.tooManyBuffers
    else (choosePaired (u.descs .a (s.used .a)) (u.descs .x (s.used .x))).map
      (·, (s.use .a).use .x)
  else if type = 0x22#32 then
    if s.used .b ≥ u.count .b ∨ s.used .c ≥ u.count .c then .error Err.tooManyBuffers
    else (choosePaired (u.descs .b (s.used .b)) (u.descs .c (s.used .c))).map
      (·, ((s.use .b).use .c).list type)
  else .error Err.unsupportedBufferType

/-- `rq->buffers[i]->addr = addr; rq->buffers[i]->size = size`. -/
def setBuffer (i : Nat) (addr size : BitVec 64) : Unflatten Unit :=
  modify fun out => { out with
    addrs := Function.update out.addrs i addr
    sizes := Function.update out.sizes i size }

/-- The addresses and sizes of the first `n` buffers, set to zero. -/
def clearBuffers (n : Nat) : Unflatten Unit :=
  modify fun out => { out with
    addrs := out.addrs.write 0 (List.replicate n 0#64)
    sizes := out.sizes.write 0 (List.replicate n 0#64) }

def assignBuffers (u : DescArrays) : Nat → List (BitVec 32) → Assigned → Unflatten Assigned
  | _, [], s => pure s
  | i, type :: types, s => do
    let (desc, s) ← runPure (pickDescriptor u s type)
    setBuffer i desc.addr desc.size
    -- the flags of A and B descriptors
    failIf (type &&& 4#32 ≠ 0#32 ∧ type &&& 0xC0#32 ≠ desc.type &&& 0xC0#32)
      Err.unexpectedBufferProtection
    assignBuffers u (i + 1) types s

/-! ## Objects -/

/-- The first session slot of a server that is in use and has the handle. -/
def findSession (w : World) (srv : Nat) (handle : Handle) : Option SessionPtr :=
  (slots srv).find? fun p => (w.session p).state ≠ .invalid ∧ (w.session p).handle = handle

/-- `in_objects[i] = o`. -/
def setObjectOut (i : Nat) (o : ObjPtr) : Unflatten Unit :=
  modify fun out => { out with objects := Function.update out.objects i o }

/-- The object a session handle in a message stands for. -/
def objectOfHandle (w : World) (srv : Nat) (handle : Handle) : Except ResultT ObjPtr :=
  match findSession w srv handle with
  | none => .error Err.ipcserverNoSuchObject
  | some p =>
    if (w.session p).isDomain then .error Err.ipcserverSessionObjectWasDomain
    else
      match (w.session p).object with
      | none => .error Err.ipcserverNoSuchObject
      | some o => .ok o

/-- `for(i…) { in_objects[i] = resolve(words[i]) }`, stopping at the first error. -/
def receiveObjects (resolve : Word → Except ResultT ObjPtr) (words : Mem Word) :
    Nat → Nat → Unflatten Unit
  | 0, _ => pure ()
  | n + 1, i => do
    let o ← runPure (resolve (words i))
    setObjectOut i o
    receiveObjects resolve words n (i + 1)

/-! ## Unflattening -/

/-- `domain_header.num_objects`. -/
def domainNumObjects (dhead : Word) : Nat := ((dhead >>> 8) &&& 0xFF#32).toNat

/-- `domain_header.payload_size - 4`, as it is compared with a `size_t`. -/
def domainRawDataSize (dhead : Word) : Nat :=
  (((dhead >>> 16) &&& 0xFFFF#32).setWidth 64 - 4#64).toNat

variable (msg : IpcMessage)

/-- The size of the raw data by the message's own account, computed in `uint32_t`. -/
def declaredRawWords (domainWords u16Count : Nat) : Nat :=
  (BitVec.ofNat 32 msg.rawDataSectionSize - 4#32 - 4#32 - BitVec.ofNat 32 domainWords
    - BitVec.ofNat 32 ((u16Count + 1) / 2)).toNat

/-- What is compared with the format: the magic, the message's numbers, and those of the domain
header `dhead`. -/
def checkNumbers (fmt : IpcRequestFmt) (toDomain : Bool) (magic dhead : Word) : Unflatten Unit := do
  failIf (magic ≠ sfci) Err.invalidIpcRequestMagic
  failIf (msg.hasPid ≠ fmt.sendPid) Err.unexpectedPid
  failIf (msg.numCopyHandles ≠ fmt.numCopyHandles) Err.unexpectedCopyHandles
  failIf (msg.numMoveHandles ≠ fmt.numMoveHandles + if toDomain then 0 else fmt.numObjects)
    Err.unexpectedMoveHandles
  failIf (toDomain ∧ domainNumObjects dhead ≠ fmt.numObjects) Err.unexpectedObjects
  failIf (toDomain ∧ domainRawDataSize dhead ≠ fmt.rawDataSize) Err.unexpectedRawDataSize

/-- The first part of `ipc_unflatten_request`. -/
def checkRequest (fmt : IpcRequestFmt) (toDomain : Bool) : Unflatten Unit :=
  let data := msg.words msg.dataSection
  checkNumbers msg fmt toDomain (data (if toDomain then 4 else 0)) (data 0)

/-- The descriptors of a message with `numC` C descriptors, decoded into four arrays. -/
def IpcMessage.decoded (numC : Nat) (xs as bs cs : Mem IpcBuffer) : DescArrays where
  descs
    | .a => as
    | .b => bs
    | .c => cs
    | .x => xs
  count
    | .a => msg.numADescriptors
    | .b => msg.numBDescriptors
    | .c => numC
    | .x => msg.numXDescriptors

/-- The second part: decode the descriptors into the local arrays. The head behind the C
descriptors is not reset before it is used on the raw data. -/
def unpackAll (msg : IpcMessage) (arrays : Family → Mem IpcBuffer) :
    Except ResultT (Nat × DescArrays) :=
  let (_, xs) := unpackDescriptors 2 decodeX (msg.words msg.xDescriptors) msg.numXDescriptors 0 0
    (arrays .x)
  -- A and B descriptors are decoded in one loop, through the A pointer
  let (h, as) := unpackDescriptors 3 decodeAB (msg.words msg.aDescriptors) msg.numADescriptors 0 0
    (arrays .a)
  let (_, bs) := unpackDescriptors 3 decodeAB (msg.words msg.aDescriptors) msg.numBDescriptors 0 h
    (arrays .b)
  match numCDescriptors msg.cDescriptorFlags with
  | none => .error Err.unimplemented
  | some numC =>
    let (h, cs) := unpackDescriptors 2 decodeC (msg.words msg.cDescriptors) numC 0 0 (arrays .c)
    .ok (h, msg.decoded numC xs as bs cs)

/-- `dst[i] = src[i]` for `i < n`. -/
def copyWords (dst src : Mem Word) (n : Nat) : Mem Word := dst.write 0 (src.read 0 n)

/-- The last part: copy handles, objects and raw data out. Nothing is stored through `rq->pid`. -/
def copyOut (w : World) (msg : IpcMessage) (fmt : IpcRequestFmt) (object : ServerObject) (h : Nat) :
    Unflatten Unit := do
  let copyHandles := msg.words (msg.copyHandles.getD 0)
  let moveHandles := msg.words (msg.moveHandles.getD 0)
  let mhi := if object.isDomainObject then 0 else fmt.numObjects
  let rawData := msg.words (msg.dataSection + if object.isDomainObject then 8 else 4)
  let rawDataWords := fmt.rawDataSize / 4
  modify fun out => { out with
    copyHandles := copyWords out.copyHandles copyHandles fmt.numCopyHandles }
  if object.isDomainObject then pure ()
  else
    let srv := (w.session object.owningSession).owningServer
    receiveObjects (objectOfHandle w srv) moveHandles fmt.numObjects 0
  modify fun out => { out with
    moveHandles := copyWords out.moveHandles (fun i => moveHandles (mhi + i)) fmt.numMoveHandles
    rawData := copyWords out.rawData (fun i => rawData (h + i)) rawDataWords }
  if hd : object.isDomainObject = true then
    let domain := (w.session (object.owningDomain.get (object.domain_owned hd))).domain
    receiveObjects (ipcServerDomainGetObject domain)
      (fun i => msg.words msg.dataSection (h + rawDataWords + i)) fmt.numObjects 0
  else pure ()

/-- `ipc_unflatten_request`, with the contents that the local descriptor arrays start with. -/
def ipcUnflattenRequest (w : World) (arrays : Family → Mem IpcBuffer) (msg : IpcMessage)
    (fmt : IpcRequestFmt) (o : ObjPtr) : Unflatten Unit := do
  let object := w.object o
  let toDomain := object.isDomainObject
  failIf (fmt.rawDataSize % 4 ≠ 0) Err.invalidRawDataSize
  checkRequest msg fmt toDomain
  let (h, u) ← runPure (unpackAll msg arrays)
  clearBuffers fmt.bufferTypes.length
  let s ← assignBuffers u 0 fmt.bufferTypes ⟨fun _ => 0, 0⟩
  failIf (declaredRawWords msg (if toDomain then 4 + fmt.numObjects else 0) s.u16Count ≠
    fmt.rawDataSize / 4) Err.unexpectedRawDataSize
  failIf (fmt.numObjects > 8) Err.tooManyObjects
  copyOut w msg fmt object h

end LibTransistor
