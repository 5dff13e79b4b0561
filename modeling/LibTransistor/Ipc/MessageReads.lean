import LibTransistor.Ipc.Delivery
import LibTransistor.Lib.Reading

/-!
# What the server reads of a message

`ipc_unpack`, the dispatch code of `ipc_server_session_receive` and `ipc_unflatten_request` again,
with each read of `message_buffer` made explicit.
-/

namespace LibTransistor

open Fallible Reading

variable {σ : Type}

/-! ## Unpacking and dispatching -/

variable (buffer : Mem Word)

def readPid (hasPid : Bool) (h : Nat) : Reading ResultT σ (BitVec 64) :=
  if hasPid then do
    let low ← word buffer h
    let high ← word buffer (h + 1)
    return high ++ low
  else return 0#64

def readHandles (hasHandleDescriptor : Bool) (h : Nat) : Reading ResultT σ HandleSection :=
  if hasHandleDescriptor then do
    let desc ← word buffer h
    let hasPid : Bool := desc &&& 1#32 ≠ 0#32
    let h := h + 1
    let pid ← readPid buffer hasPid h
    let h := if hasPid then h + 2 else h
    let numCopy := ((desc >>> 1) &&& 0xF#32).toNat
    let numMove := ((desc >>> 5) &&& 0xF#32).toNat
    return ⟨hasPid, pid, numCopy, numMove, some h, some (h + numCopy), h + numCopy + numMove⟩
  else return ⟨false, 0#64, 0, 0, none, none, h⟩

/-- `ipc_unpack`. -/
def readUnpack : Reading ResultT σ IpcMessage := do
  let header0 ← word buffer 0
  let header1 ← word buffer 1
  let hs ← readHandles buffer (header1 >>> 31 ≠ 0#32) 2
  return unpackedMessage buffer header0 header1 hs

theorem readHandles_run (has : Bool) (h : Nat) :
    (readHandles buffer has h : Reading ResultT σ _).run = pure (unpackHandles buffer has h) := by
  cases has with
  | false => rfl
  | true =>
    have hpid : ∀ hasPid h, (readPid buffer hasPid h : Reading ResultT σ _).run =
        pure (if hasPid then buffer (h + 1) ++ buffer h else 0#64) := by
      intro hasPid h
      cases hasPid <;> rfl
    unfold readHandles unpackHandles
    rw [if_pos rfl, if_pos rfl, run_pure_bind (run_word h), run_pure_bind (hpid _ _)]
    simp only [decide_eq_true_eq, run_pure]

/-- What is read is what `ipcUnpack` unpacks. -/
theorem readUnpack_run :
    (readUnpack buffer : Reading ResultT σ _).run = pure (ipcUnpack buffer) := by
  unfold readUnpack
  rw [run_pure_bind (run_word 0), run_pure_bind (run_word 1),
    run_pure_bind (readHandles_run buffer _ 2)]
  rfl

/-- The dispatch code of `ipc_server_session_receive`: the object, where its `raw_data` starts, and
`raw_data[2]`. -/
def readDispatch (p : SessionPtr) (sess : Session) (msg : IpcMessage) :
    Reading ResultT σ (Option (ObjPtr × Nat × Word)) :=
  if msg.messageType = 5#16 then do
    let requestId ← word msg.buffer (msg.dataSection + 2)
    return some (.hipcManager p, msg.dataSection, requestId)
  else if msg.messageType = 4#16 ∨ msg.messageType = 0#16 then
    if sess.isDomain then do
      -- `data_size`, for `raw_data_size`, which nothing uses
      let _ ← word msg.buffer msg.dataSection
      let objectId ← word msg.buffer (msg.dataSection + 1)
      match ipcServerDomainGetObject sess.domain objectId with
      | .error _ => return none
      | .ok o => do
        let requestId ← word msg.buffer (msg.dataSection + 4 + 2)
        return some (o, msg.dataSection + 4, requestId)
    else
      match sess.object with
      | none => return none
      | some o => do
        let requestId ← word msg.buffer (msg.dataSection + 2)
        return some (o, msg.dataSection, requestId)
  else return none

/-- What is dispatched is what `dispatchTarget` dispatches, with the request id. -/
theorem readDispatch_run (p : SessionPtr) (sess : Session) (msg : IpcMessage) :
    (readDispatch p sess msg : Reading ResultT σ _).run =
      pure ((dispatchTarget p sess msg).map fun (o, rawData) =>
        (o, rawData, msg.words rawData 2)) := by
  unfold readDispatch dispatchTarget
  split_ifs with h5 ht hd
  · rfl
  · rw [run_pure_bind (run_word _), run_pure_bind (run_word _)]
    show _ = pure (Option.map _ (match ipcServerDomainGetObject sess.domain
      (msg.buffer (msg.dataSection + 1)) with | .error _ => none | .ok o => some _))
    cases ipcServerDomainGetObject sess.domain (msg.buffer (msg.dataSection + 1)) <;> rfl
  · cases sess.object <;> rfl
  · rfl

/-! ## Unflattening -/

/-- The domain header's first word; the object id behind it is read as well. -/
def readDomainHeader (msg : IpcMessage) (toDomain : Bool) : Reading ResultT σ Word :=
  if toDomain then do
    let dhead ← word msg.buffer msg.dataSection
    let _ ← word msg.buffer (msg.dataSection + 1)
    return dhead
  else return 0#32

def readCheckRequest (msg : IpcMessage) (fmt : IpcRequestFmt) (toDomain : Bool) :
    Reading ResultT RequestOut Unit := do
  let dhead ← readDomainHeader msg toDomain
  let magic ← word msg.buffer (msg.dataSection + if toDomain then 4 else 0)
  lift (checkNumbers msg fmt toDomain magic dhead)

theorem readCheckRequest_run (msg : IpcMessage) (fmt : IpcRequestFmt) (toDomain : Bool) :
    (readCheckRequest msg fmt toDomain).run = checkRequest msg fmt toDomain := by
  -- without a domain header, its numbers are not looked at
  cases toDomain <;> rfl

/-- Decode `n` descriptors, reading each of them as a whole. -/
def readDescriptors (width : Nat) (decode : Decoder) (buffer : Mem Word) (src : Nat) :
    Nat → Nat → Nat → Mem IpcBuffer → Reading ResultT σ (Nat × Mem IpcBuffer)
  | 0, _, h, arr => return (h, arr)
  | n + 1, i, h, arr => do
    let ws ← words buffer (src + h) width
    readDescriptors width decode buffer src n (i + 1) (h + width)
      (Function.update arr i (decode (fun k => ws.getD k 0#32) (arr i)))

/-- A decoder looks at no more words than a descriptor has. -/
def Decoder.Reads (decode : Decoder) (width : Nat) : Prop :=
  ∀ (ws ws' : Mem Word) (buf : IpcBuffer), (∀ k < width, ws k = ws' k) → decode ws buf = decode ws' buf

theorem decodeX_reads : Decoder.Reads decodeX 2 := by
  intro ws ws' buf h
  unfold decodeX
  rw [h 0 (by decide), h 1 (by decide)]

theorem decodeAB_reads : Decoder.Reads decodeAB 3 := by
  intro ws ws' buf h
  unfold decodeAB
  rw [h 0 (by decide), h 1 (by decide), h 2 (by decide)]

theorem decodeC_reads : Decoder.Reads decodeC 2 := by
  intro ws ws' buf h
  unfold decodeC
  rw [h 0 (by decide), h 1 (by decide)]

theorem readDescriptors_run {width : Nat} {decode : Decoder} (hdecode : decode.Reads width)
    (msg : IpcMessage) (src n i h : Nat) (arr : Mem IpcBuffer) :
    (readDescriptors width decode msg.buffer src n i h arr : Reading ResultT σ _).run =
      pure (unpackDescriptors width decode (msg.words src) n i h arr) := by
  induction n generalizing i h arr with
  | zero => rfl
  | succ n ih =>
    have hwords : decode (fun k => (msg.buffer.read (src + h) width).getD k 0#32) (arr i) =
        decode (fun k => msg.words src (h + k)) (arr i) := by
      refine hdecode _ _ _ fun k hk => ?_
      rw [List.getD_eq_getElem?_getD, Mem.getElem?_read, if_pos hk, Nat.add_assoc]
      rfl
    rw [readDescriptors, run_words_bind, hwords, ih]
    rfl

def readAllDescriptors (msg : IpcMessage) (arrays : Family → Mem IpcBuffer) :
    Reading ResultT σ (Nat × DescArrays) := do
  let (_, xs) ← readDescriptors 2 decodeX msg.buffer msg.xDescriptors msg.numXDescriptors 0 0
    (arrays .x)
  let (h, as) ← readDescriptors 3 decodeAB msg.buffer msg.aDescriptors msg.numADescriptors 0 0
    (arrays .a)
  let (_, bs) ← readDescriptors 3 decodeAB msg.buffer msg.aDescriptors msg.numBDescriptors 0 h
    (arrays .b)
  match numCDescriptors msg.cDescriptorFlags with
  | none => lift (throw Err.unimplemented)
  | some numC => do
    let (h, cs) ← readDescriptors 2 decodeC msg.buffer msg.cDescriptors numC 0 0 (arrays .c)
    return (h, msg.decoded numC xs as bs cs)

theorem readAllDescriptors_run (msg : IpcMessage) (arrays : Family → Mem IpcBuffer) :
    (readAllDescriptors msg arrays : Reading ResultT σ _).run = runPure (unpackAll msg arrays) := by
  unfold readAllDescriptors unpackAll
  rw [run_pure_bind (readDescriptors_run decodeX_reads msg _ _ _ _ _),
    run_pure_bind (readDescriptors_run decodeAB_reads msg _ _ _ _ _),
    run_pure_bind (readDescriptors_run decodeAB_reads msg _ _ _ _ _)]
  cases numCDescriptors msg.cDescriptorFlags with
  | none => rfl
  | some numC =>
    rw [run_pure_bind (readDescriptors_run decodeC_reads msg _ _ _ _ _)]
    rfl

def readObjects (resolve : Word → Except ResultT ObjPtr) (buffer : Mem Word) (src : Nat) :
    Nat → Nat → Reading ResultT RequestOut Unit
  | 0, _ => return ()
  | n + 1, i => do
    let x ← word buffer (src + i)
    let o ← lift (runPure (resolve x))
    lift (setObjectOut i o)
    readObjects resolve buffer src n (i + 1)

theorem readObjects_run (resolve : Word → Except ResultT ObjPtr) (buffer : Mem Word)
    (src n i : Nat) :
    (readObjects resolve buffer src n i).run =
      receiveObjects resolve (fun k => buffer (src + k)) n i := by
  induction n generalizing i with
  | zero => rfl
  | succ n ih =>
    rw [readObjects, run_pure_bind (run_word _), receiveObjects]
    simp only [run_bind, run_lift, ih]

variable (w : World) (arrays : Family → Mem IpcBuffer) (msg : IpcMessage) (fmt : IpcRequestFmt)
  (object : ServerObject)

/-- The objects of a request to a session, from their handles. -/
def readHandleObjects : Reading ResultT RequestOut Unit :=
  if object.isDomainObject = true then pure ()
  else readObjects (objectOfHandle w (w.session object.owningSession).owningServer) msg.buffer
    (msg.moveHandles.getD 0) fmt.numObjects 0

/-- The objects of a request to a domain, from their ids at word `h` of the data section. -/
def readIdObjects (h : Nat) : Reading ResultT RequestOut Unit :=
  if hd : object.isDomainObject = true then
    let domain := (w.session (object.owningDomain.get (object.domain_owned hd))).domain
    readObjects (ipcServerDomainGetObject domain) msg.buffer (msg.dataSection + h) fmt.numObjects 0
  else pure ()

/-- The last part of `ipc_unflatten_request`. -/
def readOut (h : Nat) : Reading ResultT RequestOut Unit := do
  let mhi := if object.isDomainObject then 0 else fmt.numObjects
  let rawData := msg.dataSection + if object.isDomainObject then 8 else 4
  let rawDataWords := fmt.rawDataSize / 4
  let copied ← words msg.buffer (msg.copyHandles.getD 0) fmt.numCopyHandles
  lift (modify fun out => { out with copyHandles := out.copyHandles.write 0 copied })
  readHandleObjects w msg fmt object
  let moved ← words msg.buffer (msg.moveHandles.getD 0 + mhi) fmt.numMoveHandles
  let raw ← words msg.buffer (rawData + h) rawDataWords
  lift (modify fun out => { out with
    moveHandles := out.moveHandles.write 0 moved
    rawData := out.rawData.write 0 raw })
  readIdObjects w msg fmt object (h + rawDataWords)

theorem readOut_run (h : Nat) : (readOut w msg fmt object h).run = copyOut w msg fmt object h := by
  have hread : ∀ p k n, Mem.read (fun i => msg.words p (k + i)) 0 n = msg.buffer.read (p + k) n := by
    intro p k n
    rw [Mem.read_shift, IpcMessage.read_words, Nat.add_zero]
  unfold readOut copyOut readHandleObjects readIdObjects
  -- the objects come from handles or from ids, and the other loop is left out
  by_cases hd : object.isDomainObject = true
  · simp only [if_pos hd, dif_pos hd, run_bind, run_words, run_lift, run_pure, pure_bind,
      readObjects_run, copyWords, hread, IpcMessage.read_words, Nat.add_zero]
    simp only [IpcMessage.words, Nat.add_assoc]
  · simp only [if_neg hd, dif_neg hd, run_bind, run_words, run_lift, run_pure, pure_bind,
      readObjects_run, copyWords, hread, IpcMessage.read_words, Nat.add_zero]
    rfl

def readUnflatten (o : ObjPtr) : Reading ResultT RequestOut Unit := do
  let object := w.object o
  let toDomain := object.isDomainObject
  lift (failIf (fmt.rawDataSize % 4 ≠ 0) Err.invalidRawDataSize)
  readCheckRequest msg fmt toDomain
  let (h, u) ← readAllDescriptors msg arrays
  lift (clearBuffers fmt.bufferTypes.length)
  let s ← lift (assignBuffers u 0 fmt.bufferTypes ⟨fun _ => 0, 0⟩)
  lift (failIf (declaredRawWords msg (if toDomain then 4 + fmt.numObjects else 0) s.u16Count ≠
    fmt.rawDataSize / 4) Err.unexpectedRawDataSize)
  lift (failIf (fmt.numObjects > 8) Err.tooManyObjects)
  readOut w msg fmt object h

/-- What is unflattened is what `ipcUnflattenRequest` unflattens. -/
theorem readUnflatten_run (o : ObjPtr) :
    (readUnflatten w arrays msg fmt o).run = ipcUnflattenRequest w arrays msg fmt o := by
  unfold readUnflatten ipcUnflattenRequest
  simp only [run_bind, run_lift, readCheckRequest_run, readAllDescriptors_run, readOut_run]

end LibTransistor
