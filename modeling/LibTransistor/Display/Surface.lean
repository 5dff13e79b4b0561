import LibTransistor.Display.Parcel

/-!
# Surfaces

`lib/display/surface.c` and the transactions in `lib/display/graphic_buffer_queue.c` that it makes.
A surface draws into the slots of a buffer queue on the other side of a binder: it dequeues a slot,
and queues it again when it has been drawn.

* `IgbpRequest`, `IgbpRequest.Reply` — the values in the parcels of a transaction. A reply comes as
  a flattened parcel and is read as in the source.
* `BufferQueue` — the queue as far as the surface is concerned: the slots that it has dequeued.
* `BinderEnv` — what the other side, and the driver, do at each point of time.
-/

namespace LibTransistor

open Fallible

/-! ## Transactions -/

/-- The transactions with the values that follow the interface token. -/
inductive IgbpRequest
  | requestBuffer (slot : BitVec 32)
  | dequeueBuffer (pixelFormat width height : BitVec 32) (getFrameTimestamps : Bool)
      (usage : BitVec 32)
  | queueBuffer (slot : BitVec 32)
  | connect (api : BitVec 32) (producerControlledByApp : Bool)
  | setPreallocatedBuffer (slot : BitVec 32)

/-- A graphic buffer in a reply, with the word that is in front of it. -/
structure FlatBuffer where
  nonNull : BitVec 32
  length : BitVec 32
  unknown : BitVec 32
  flat : List Byte
  nonNull_ne : nonNull ≠ 0
  length_flat : flat.length = length.toNat
  fits : flat.length ≤ 0x1F0

structure RequestReply where
  buffer : Option FlatBuffer
  status : BitVec 32

structure DequeueReply where
  slot : BitVec 32
  fence : List Byte
  status : BitVec 32
  length_fence : fence.length = 44

/-- `queue_buffer_output_t`. -/
structure QueueBufferOutput where
  width : BitVec 32
  height : BitVec 32
  transformHint : BitVec 32
  numPendingBuffers : BitVec 32
  deriving DecidableEq

structure OutputReply extends QueueBufferOutput where
  status : BitVec 32

/-- A reply that is not looked at. -/
structure PlainReply where
  data : List Byte
  fits : data.length ≤ payloadSize

/-- What the reply to a transaction holds. -/
@[reducible] def IgbpRequest.Reply : IgbpRequest → Type
  | requestBuffer _ => RequestReply
  | dequeueBuffer .. => DequeueReply
  | queueBuffer _ => OutputReply
  | connect .. => OutputReply
  | setPreallocatedBuffer _ => PlainReply

def RequestReply.bytes (x : RequestReply) : List Byte :=
  match x.buffer with
  | some b => le32 b.nonNull ++ (le32 b.length ++ (le32 b.unknown ++ (b.flat ++ le32 x.status)))
  | none => le32 0 ++ le32 x.status

def DequeueReply.bytes (x : DequeueReply) : List Byte := le32 x.slot ++ (x.fence ++ le32 x.status)

def OutputReply.bytes (x : OutputReply) : List Byte :=
  le32 x.width ++ (le32 x.height ++ (le32 x.transformHint ++
    (le32 x.numPendingBuffers ++ le32 x.status)))

/-- The data of the parcel that a reply comes in. -/
def IgbpRequest.bytes : (q : IgbpRequest) → q.Reply → List Byte
  | requestBuffer _, x => RequestReply.bytes x
  | dequeueBuffer .., x => DequeueReply.bytes x
  | queueBuffer _, x => OutputReply.bytes x
  | connect .., x => OutputReply.bytes x
  | setPreallocatedBuffer _, x => PlainReply.data x

/-- How a transaction ends. Without a reply there is an error that is not `RESULT_OK`. -/
inductive Outcome (ρ : Type)
  | transport (r : ResultT) (h : r ≠ resultOk)
  | reply (x : ρ)

/-! ## The other side -/

/-- The slots that the surface has dequeued. -/
structure BufferQueue where
  dequeued : BitVec 32 → Bool

/-- A slot is dequeued, and queued, by an answer with the status 0. -/
def BufferQueue.answer (queue : BufferQueue) : (q : IgbpRequest) → q.Reply → BufferQueue
  | .dequeueBuffer .., x =>
    if DequeueReply.status x = 0 then
      ⟨Function.update queue.dequeued (DequeueReply.slot x) true⟩
    else queue
  | .queueBuffer slot, x =>
    if OutputReply.status x = 0 then ⟨Function.update queue.dequeued slot false⟩ else queue
  | _, _ => queue

/-- What is outside of the functions. The buffer and the parcel for a reply are on the stack, and
hold anything. -/
structure BinderEnv where
  transact : Nat → (q : IgbpRequest) → Outcome q.Reply
  outBuffer : Nat → Mem Byte
  response : Nat → Parcel
  /-- The results of `svcSetMemoryAttribute` and of the driver. -/
  device : Nat → ResultT
  gpuBufferMemory : BitVec 64

/-! ## Surfaces -/

inductive SurfaceState
  | invalid | dequeued | queued
  deriving DecidableEq

/-- The fields of `surface_t` that decide what the functions do. -/
structure Surface where
  layerId : BitVec 64
  state : SurfaceState
  hasRequested : Fin 2 → Bool
  currentSlot : BitVec 32
  gpuBufferMemory : BitVec 64

structure SurfaceWorld where
  surface : Surface
  queue : BufferQueue
  clock : Nat

/-- An access outside of `has_requested` has no result, as one outside of a parcel has none. -/
abbrev SurfaceM := EStateM ParcelError SurfaceWorld

/-! ## Replies in parcels -/

/-- A reply in the buffer: the header of the parcel and its data. -/
def flattenReply (outBuffer : Mem Byte) (bytes : List Byte) : Mem Byte :=
  outBuffer.write 0 (le32 (BitVec.ofNat 32 bytes.length) ++ (le32 0x10 ++ (le32 0 ++
    (le32 (BitVec.ofNat 32 (0x10 + bytes.length)) ++ bytes))))

/-- `memcpy` from a pointer into the payload. -/
def loadPayload (ptr : SizeT) (n : Nat) : ParcelM (List Byte) := do
  failIf (payloadSize < ptr.toNat + n) .outOfBounds
  return (← get).payload.read ptr.toNat n

/-- `fence_unflatten`. -/
def fenceUnflatten : ParcelM (List Byte) := do
  let ptr ← parcelReadInplace 44#64
  loadPayload ptr 44

/-- `queue_buffer_output_unflatten`. -/
def queueBufferOutputUnflatten : ParcelM QueueBufferOutput := do
  let p ← get
  failIf (parcelReadRemaining p < 16) (.result Err.parcelDataUnderrun)
  let width ← parcelReadU32
  let height ← parcelReadU32
  let transformHint ← parcelReadU32
  let numPendingBuffers ← parcelReadU32
  return ⟨width, height, transformHint, numPendingBuffers⟩

/-- What `igbp_request_buffer` reads: the status. -/
def readRequestReply : ParcelM (BitVec 32) := do
  let nonNull ← parcelReadU32
  if nonNull ≠ 0 then do
    let length ← parcelReadU32
    failIf (length ≠ 0x16C) (.result Err.displayGraphicBufferLengthMismatch)
    let _unknown ← parcelReadU32
    let _gbFlat ← parcelReadInplace 0x16C#64
    parcelReadU32
  else parcelReadU32

/-- What `igbp_dequeue_buffer` reads: the slot, the fence and the status. -/
def readDequeueReply : ParcelM (BitVec 32 × List Byte × BitVec 32) := do
  let slot ← parcelReadU32
  let fence ← fenceUnflatten
  let status ← parcelReadU32
  return (slot, fence, status)

/-- What `igbp_queue_buffer` reads. -/
def readQueueReply : ParcelM (QueueBufferOutput × BitVec 32) := do
  let qbo ← queueBufferOutputUnflatten
  let status ← parcelReadU32
  return (qbo, status)

/-- What `igbp_connect` reads: the status only if it is there. -/
def readConnectReply : ParcelM (QueueBufferOutput × BitVec 32) := do
  let qbo ← queueBufferOutputUnflatten
  let p ← get
  failIf (parcelReadRemaining p < 4) (.result Err.parcelDataUnderrun)
  let status ← parcelReadU32
  return (qbo, status)

/-! ## The functions -/

/-- What the functions work on: a state with a surface in it, and transactions whose reply is
read. -/
structure Binder (σ : Type) where
  surface : σ → Surface
  setSurface : Surface → σ → σ
  transact : {α : Type} → IgbpRequest → ParcelM α → EStateM ParcelError σ α

/-- Where the pixels of a slot are. -/
def imageOf (x : Surface) : BitVec 64 :=
  x.gpuBufferMemory + 4 * ((x.currentSlot * 0x3C0000).setWidth 64 / 4)

/-- The index of a slot in `has_requested`. -/
def slotIndex {σ : Type} (slot : BitVec 32) : EStateM ParcelError σ (Fin 2) :=
  if h : slot.toNat < 2 then pure ⟨slot.toNat, h⟩ else throw .outOfBounds

namespace Binder

variable {σ : Type} (b : Binder σ)

/-- `igbp_request_buffer`: the status. -/
def igbpRequestBuffer (slot : BitVec 32) : EStateM ParcelError σ (BitVec 32) :=
  b.transact (.requestBuffer slot) readRequestReply

def igbpDequeueBuffer (width height pixelFormat usage : BitVec 32) (getFrameTimestamps : Bool) :
    EStateM ParcelError σ (BitVec 32 × List Byte × BitVec 32) := do
  failIf getFrameTimestamps (.result Err.unimplemented)
  b.transact (.dequeueBuffer pixelFormat width height getFrameTimestamps usage) readDequeueReply

def igbpQueueBuffer (slot : BitVec 32) : EStateM ParcelError σ (QueueBufferOutput × BitVec 32) :=
  b.transact (.queueBuffer slot) readQueueReply

def igbpConnect (api : BitVec 32) (producerControlledByApp : Bool) :
    EStateM ParcelError σ (QueueBufferOutput × BitVec 32) :=
  b.transact (.connect api producerControlledByApp) readConnectReply

def modifySurface (f : Surface → Surface) : EStateM ParcelError σ Unit :=
  modify fun s => b.setSurface (f (b.surface s)) s

/-- The part of `surface_dequeue_buffer` for a slot that is used the first time. -/
def surfaceRequestBuffer (slot : BitVec 32) : EStateM ParcelError σ Unit := do
  let i ← slotIndex slot
  let s ← get
  if (b.surface s).hasRequested i then return ()
  else do
    let _status ← b.igbpRequestBuffer slot
    b.modifySurface fun x => { x with hasRequested := Function.update x.hasRequested i true }

/-- `surface_dequeue_buffer` from the answer on. The slot has been stored in the surface when the
status is looked at. -/
def surfaceDequeued (slot status : BitVec 32) : EStateM ParcelError σ (BitVec 64) := do
  b.modifySurface fun x => { x with currentSlot := slot }
  failIf (status ≠ 0) (.result Err.surfaceDequeueBufferFailed)
  b.surfaceRequestBuffer slot
  b.modifySurface fun x => { x with state := .dequeued }
  let s ← get
  return imageOf (b.surface s)

/-- `surface_dequeue_buffer`: the image. -/
def surfaceDequeueBuffer : EStateM ParcelError σ (BitVec 64) := do
  let s ← get
  failIf ((b.surface s).state ≠ .queued) (.result Err.surfaceInvalidState)
  let reply ← b.igbpDequeueBuffer 1280 720 1 0xB00 false
  b.surfaceDequeued reply.1 reply.2.2

def surfaceQueueBuffer : EStateM ParcelError σ Unit := do
  let s ← get
  failIf ((b.surface s).state ≠ .dequeued) (.result Err.surfaceInvalidState)
  let reply ← b.igbpQueueBuffer (b.surface s).currentSlot
  failIf (reply.2 ≠ 0) (.result Err.surfaceQueueBufferFailed)
  b.modifySurface fun x => { x with state := .queued }

end Binder

/-! ## With a buffer queue on the other side -/

section Functions

variable (env : BinderEnv)

/-- `vi_transact_parcel`: the buffer with the reply. -/
def viTransactParcel (q : IgbpRequest) : SurfaceM (Mem Byte) := do
  let w ← get
  modify fun w => { w with clock := w.clock + 1 }
  match env.transact w.clock q with
  | .transport r _ => throw (.result r)
  | .reply x => do
    modify fun w => { w with queue := w.queue.answer q x }
    return flattenReply (env.outBuffer w.clock) (q.bytes x)

/-- `binder_transact_parcel`. -/
def binderTransactParcel (q : IgbpRequest) : SurfaceM Parcel := do
  let w ← get
  let outBuffer ← viTransactParcel env q
  let (_, response) ← withLocal (env.response w.clock) (parcelLoad outBuffer)
  return response

/-- A transaction whose reply is read. -/
def igbpTransact {α : Type} (q : IgbpRequest) (reader : ParcelM α) : SurfaceM α := do
  let response ← binderTransactParcel env q
  let (a, _) ← withLocal response reader
  return a

abbrev BinderEnv.binder : Binder SurfaceWorld where
  surface := SurfaceWorld.surface
  setSurface x w := { w with surface := x }
  transact := igbpTransact env

/-- A call of the kernel or of the driver. -/
def deviceCall : SurfaceM Unit := do
  let w ← get
  modify fun w => { w with clock := w.clock + 1 }
  failIf (env.device w.clock ≠ resultOk) (.result (env.device w.clock))

/-- `igbp_set_preallocated_buffer`; `graphic_buffer_flatten` asks the driver for an id and for the
buffer with it. -/
def igbpSetPreallocatedBuffer (slot : BitVec 32) : SurfaceM Unit := do
  deviceCall env
  deviceCall env
  igbpTransact env (.setPreallocatedBuffer slot) (pure ())

/-- `surface_create`. The state is invalid until the end. -/
def surfaceCreate (layerId : BitVec 64) : SurfaceM Unit := do
  env.binder.modifySurface fun x => { x with
    layerId := layerId, state := .invalid, hasRequested := fun _ => false, currentSlot := 0 }
  onFail (do
      let reply ← env.binder.igbpConnect 2 false
      failIf (reply.2 ≠ 0) (.result Err.surfaceConnectFailed)
      env.binder.modifySurface fun x => { x with gpuBufferMemory := env.gpuBufferMemory }
      deviceCall env
      deviceCall env
      igbpSetPreallocatedBuffer env 0
      igbpSetPreallocatedBuffer env 1
      env.binder.modifySurface fun x => { x with state := .queued })
    (env.binder.modifySurface fun x => { x with state := .invalid })

end Functions

end LibTransistor
