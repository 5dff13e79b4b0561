import LibTransistor.Ipc.ResponseDelivery

/-!
# How far the packer writes

`ipc_send` and the server pack into `ipc_buffer` of `struct tls`, which has `0x100` bytes, 64 words;
the pointer to the thread's context is at word 126. Every part of a message is limited by itself:
fewer than 16 handles of each kind, 16 descriptors of each family, `0x200` bytes of raw data, 8
objects of a domain. Nothing compares their sum (`messageWords`) with the buffer, so a request or
response stays inside exactly if it is at most 64 (`packing_confined_iff`).
-/

namespace LibTransistor

open Fallible Cursor List Mem

/-! ## The packer does not look at the buffer

Nor is any of its error codes `RESULT_OK`. -/

theorem groupBuffer_error {d : Descriptors} {buf : IpcBuffer} {e : ResultT}
    (h : groupBuffer d buf = .error e) : IsError e := by
  have hmany : IsError Err.tooManyBuffers := by decide
  have htype : IsError Err.unsupportedBufferType := by decide
  unfold groupBuffer at h
  split_ifs at h
  · split at h
    · cases h
      exact htype
    · split_ifs at h
      cases h
      exact hmany
  all_goals
    cases h
    assumption

theorem groupBuffers_error {bufs : List IpcBuffer} {d : Descriptors} {e : ResultT}
    (h : groupBuffers d bufs = .error e) : IsError e := by
  induction bufs generalizing d with
  | nil => cases h
  | cons buf bufs ih =>
    unfold groupBuffers at h
    cases hbuf : groupBuffer d buf with
    | ok d' =>
      rw [hbuf] at h
      exact ih h
    | error e' =>
      rw [hbuf] at h
      cases h
      exact groupBuffer_error hbuf

variable (msg : PackMessage)

theorem plain_packHandleDescriptor : Plain IsError (packHandleDescriptor msg) := by
  refine .ite ?_ (.pure ())
  refine (Plain.failIf (by decide)).bind fun _ => (Plain.emit _).bind fun _ => ?_
  exact (Plain.skip _).bind fun _ => (Plain.emitAll _).bind fun _ => Plain.emitAll _

theorem plain_packXDescriptors (i : Nat) (bufs : List IpcBuffer) :
    Plain IsError (packXDescriptors i bufs) := by
  induction bufs generalizing i with
  | nil => exact .pure ()
  | cons buf bufs ih =>
    refine (Plain.failIf (by decide)).bind fun _ => (Plain.failIf (by decide)).bind fun _ => ?_
    exact (Plain.emit _).bind fun _ => (Plain.emit _).bind fun _ => ih (i + 1)

theorem plain_packABDescriptors (bufs : List IpcBuffer) :
    Plain IsError (packABDescriptors bufs) := by
  induction bufs with
  | nil => exact .pure ()
  | cons buf bufs ih =>
    refine (Plain.failIf (by decide)).bind fun _ => (Plain.failIf (by decide)).bind fun _ => ?_
    refine (Plain.emit _).bind fun _ => (Plain.emit _).bind fun _ => ?_
    exact (Plain.failIf (by decide)).bind fun _ => (Plain.emit _).bind fun _ => ih

theorem plain_packLengthList (base k : Nat) (bufs : List IpcBuffer) :
    Plain IsError (packLengthList base k bufs) := by
  induction bufs generalizing k with
  | nil => exact .pure k
  | cons buf bufs ih =>
    refine .ite ?_ (ih k)
    refine (Plain.failIf (by decide)).bind fun _ => ?_
    exact (Plain.modifyAt _ _).bind fun _ => ih (k + 1)

theorem plain_packCDescriptors (bufs : List IpcBuffer) : Plain IsError (packCDescriptors bufs) := by
  induction bufs with
  | nil => exact .pure ()
  | cons buf bufs ih =>
    refine (Plain.failIf (by decide)).bind fun _ => (Plain.failIf (by decide)).bind fun _ => ?_
    exact (Plain.emit _).bind fun _ => (Plain.emit _).bind fun _ => ih

theorem plain_packFront (d : Descriptors) : Plain IsError (packFront msg d) := by
  refine (Plain.emit _).bind fun _ => Plain.head.bind fun _ => (Plain.emit _).bind fun _ => ?_
  refine (plain_packHandleDescriptor msg).bind fun _ => Plain.head.bind fun _ => ?_
  refine (plain_packXDescriptors _ _).bind fun _ => Plain.head.bind fun _ => ?_
  refine (plain_packABDescriptors _).bind fun _ => Plain.head.bind fun _ => ?_
  exact (plain_packABDescriptors _).bind fun _ => .pure _

theorem plain_packBack (d : Descriptors) (sizeFieldOffset : Nat) :
    Plain IsError (packBack msg d sizeFieldOffset) := by
  refine Plain.head.bind fun _ => (Plain.skip _).bind fun _ => Plain.head.bind fun _ => ?_
  refine (Plain.emitAll _).bind fun _ => (Plain.skip _).bind fun _ => ?_
  refine Plain.head.bind fun _ => (plain_packLengthList _ _ _).bind fun _ => ?_
  refine (Plain.skip _).bind fun _ => Plain.head.bind fun _ => ?_
  refine (Plain.modifyAt _ _).bind fun _ => ?_
  exact (plain_packCDescriptors _).bind fun _ => .pure _

theorem plain_ipcPackMessage : Plain IsError (ipcPackMessage msg) := by
  refine (Plain.runPure fun e => groupBuffers_error).bind fun d => ?_
  refine (plain_packFront msg d).bind fun front => ?_
  exact (plain_packBack msg d front.1).bind fun _ => .pure _

theorem blind_ipcPackRequest (handles : Mem Handle) (stack : Mem Word) (rq : IpcRequest)
    (object : IpcObject) : Blind (ipcPackRequest handles stack rq object) := by
  refine (Blind.failIf _).bind fun _ => (Blind.failIf _).bind fun _ => ?_
  refine (Blind.withLocal _ _).bind fun _ => (Blind.withLocal _ _).bind fun _ => ?_
  exact (plain_ipcPackMessage _).blind.bind fun _ => .pure ()

section Response

variable (w : World)

theorem plain_stageClientHandles (os : List ObjPtr) : Plain IsError (stageClientHandles w os) := by
  induction os with
  | nil => exact .pure ()
  | cons o os ih =>
    refine (Plain.failIf (by decide)).bind fun _ => (Plain.failIf (by decide)).bind fun _ => ?_
    exact (Plain.emit _).bind fun _ => ih

theorem plain_stageResponseHandles (rs : IpcResponse) (fromDomain : Bool) :
    Plain IsError (stageResponseHandles w rs fromDomain) := by
  cases fromDomain with
  | true => exact Plain.emitAll _
  | false => exact (plain_stageClientHandles w rs.objects).bind fun _ => Plain.emitAll _

theorem plain_stageDomainIds (object : ServerObject) (os : List ObjPtr) :
    Plain IsError (stageDomainIds w object os) := by
  induction os with
  | nil => exact .pure ()
  | cons o os ih =>
    refine (Plain.failIf (by decide)).bind fun _ => (Plain.failIf (by decide)).bind fun _ => ?_
    exact (Plain.emit _).bind fun _ => ih

theorem plain_stageResponseData (rs : IpcResponse) (object : ServerObject) (fromDomain : Bool) :
    Plain IsError (stageResponseData w rs object fromDomain) := by
  have hpayload : Plain IsError (emitAll [sfco, 0#32, rs.resultCode, 0#32] >>= fun _ =>
      failIf (rs.rawDataSize > 0x200) Err.invalidRawDataSize >>= fun _ => emitAll rs.rawData) :=
    (Plain.emitAll _).bind fun _ => (Plain.failIf (by decide)).bind fun _ => Plain.emitAll _
  cases fromDomain with
  | true =>
    refine (Plain.failIf (by decide)).bind fun _ => (Plain.emitAll _).bind fun _ => ?_
    exact (plain_stageDomainIds w object rs.objects).bind fun _ => hpayload
  | false => exact hpayload

theorem plain_ipcPackResponse (handles : Mem Handle) (stack : Mem Word) (rs : IpcResponse)
    (o : ObjPtr) : Plain IsError (ipcPackResponse w handles stack rs o) := by
  refine (Plain.failIf (by decide)).bind fun _ => (Plain.failIf (by decide)).bind fun _ => ?_
  refine (Plain.withLocal (plain_stageResponseHandles w rs _).throws).bind fun _ => ?_
  refine (Plain.withLocal (plain_stageResponseData w rs _ _).throws).bind fun _ => ?_
  exact (plain_ipcPackMessage _).bind fun _ => .pure ()

end Response

/-! ## The words of a message -/

/-- The words of a message up to the last one that is stored, from its numbers of handles, its
buffers and the size of its data section. The padding behind the data counts only if C descriptors
follow it. -/
def messageWords (numCopy numMove : Nat) (sendPid : Bool) (buffers : List IpcBuffer)
    (data : Nat) : Nat :=
  let count := fun l => (descriptorsOf buffers l).length
  let handles :=
    if numCopy = 0 ∧ numMove = 0 ∧ sendPid = false then 0
    else 1 + (if sendPid then 2 else 0) + numCopy + numMove
  let front := 2 + handles + 2 * count .x + 3 * count .a + 3 * count .b
  if count .c = 0 then alignHead front + data
  else front + 4 + data + ((listed (descriptorsOf buffers .c)).length + 1) / 2 + 2 * count .c

namespace PackMessage

variable (msg : PackMessage)

def wordsUsed : Nat :=
  messageWords msg.copyHandles.length msg.moveHandles.length msg.sendPid msg.buffers
    msg.dataSection.length

theorem handleSize_eq : msg.handleSize =
    if msg.copyHandles.length = 0 ∧ msg.moveHandles.length = 0 ∧ msg.sendPid = false then 0
    else 1 + (if msg.sendPid then 2 else 0) + msg.copyHandles.length + msg.moveHandles.length := by
  have henabled : msg.handleDescriptorEnabled = true ↔
      ¬ (msg.copyHandles.length = 0 ∧ msg.moveHandles.length = 0 ∧ msg.sendPid = false) := by
    unfold handleDescriptorEnabled
    rw [Bool.or_eq_true, Bool.or_eq_true, decide_eq_true_iff, decide_eq_true_iff, not_and_or,
      not_and_or, Bool.not_eq_false, or_assoc]
  unfold handleSize
  by_cases h : msg.handleDescriptorEnabled = true
  · rw [if_pos h, if_neg (henabled.1 h)]
  · rw [if_neg h, if_pos (not_not.1 fun hn => h (henabled.2 hn))]

theorem wordsUsed_eq : msg.wordsUsed =
    if msg.numC = 0 then msg.dataAt + msg.dataSection.length else msg.cAt + 2 * msg.numC := by
  unfold wordsUsed messageWords
  rw [← handleSize_eq]
  simp only [dataAt, cAt, rawDataStart, bAt, aAt, xAt, numX, numA, numB, numC, sectionSize,
    lengthListSize, descriptors, Nat.add_assoc]

variable (m : Mem Word)

/-- The words in front of the padding behind the data section. -/
def upToData : List Word :=
  header0 msg.messageType msg.numX msg.numA msg.numB ::
    (header1 msg.numC msg.handleDescriptorEnabled ||| BitVec.ofNat 32 msg.sectionSize) ::
      (msg.middle m ++ (m.read msg.rawDataStart (msg.dataAt - msg.rawDataStart) ++ msg.dataSection))

theorem length_upToData : (msg.upToData m).length = msg.dataAt + msg.dataSection.length := by
  have hmiddle := msg.length_middle m
  obtain ⟨hle, -⟩ := alignHead_le msg.rawDataStart
  unfold upToData
  simp only [length_cons, length_append, length_read]
  unfold dataAt
  omega

theorem layout_eq : msg.layout m = msg.upToData m ++
    (m.read (msg.dataAt + msg.dataSection.length) (4 - (msg.dataAt - msg.rawDataStart)) ++
      lengthWords m msg.lengthsAt (lengths (msg.descriptors .c)) ++ cWords (msg.descriptors .c)) := by
  simp only [layout, back, upToData, append_assoc, cons_append]

theorem length_layout : (msg.layout m).length = msg.cAt + 2 * msg.numC := by
  obtain ⟨hle, hlt⟩ := alignHead_le msg.rawDataStart
  rw [layout_eq]
  simp only [length_append, length_upToData, length_read, length_lengthWords,
    length_cWords, lengths, length_map, cAt, sectionSize, lengthListSize, numC, dataAt]
  omega

theorem write_layout_of_none (hc : msg.numC = 0) (m : Mem Word) :
    m.write 0 (msg.layout m) = m.write 0 (msg.upToData m) := by
  have hnone : msg.descriptors .c = [] := List.length_eq_zero_iff.1 hc
  have hlists : lengths [] = [] ∧ cWords [] = [] := ⟨rfl, rfl⟩
  have hpadding : ∀ n, (m.write 0 (msg.upToData m)).read (msg.dataAt + msg.dataSection.length) n =
      m.read (msg.dataAt + msg.dataSection.length) n := fun n =>
    read_write_of_ge m n (by rw [length_upToData, Nat.zero_add])
  rw [layout_eq, hnone, hlists.1, hlists.2, lengthWords, List.append_nil, List.append_nil,
    write_append, length_upToData, Nat.zero_add, ← hpadding]
  exact write_read _ _ _

theorem cWords_concat (bufs : List IpcBuffer) (buf : IpcBuffer) :
    cWords (bufs ++ [buf]) = (cWords bufs ++ [buf.addr.setWidth 32]) ++ [cField buf] := by
  simp [cWords]

/-- **The last word.** What is stored are `wordsUsed` words, up to one that does not depend on the
buffer. -/
theorem exists_last_word (hdata : msg.dataSection ≠ []) : ∃ (ws : Mem Word → List Word) (v : Word),
    ∀ m, m.write 0 (msg.layout m) = m.write 0 (ws m ++ [v]) ∧
      (ws m).length + 1 = msg.wordsUsed := by
  rw [wordsUsed_eq]
  by_cases hc : msg.numC = 0
  · -- the last word of the data section
    obtain ⟨ws, v, hlast⟩ := (eq_nil_or_concat' msg.dataSection).resolve_left hdata
    have hsplit : ∀ m, msg.upToData m = (msg.upToData m).dropLast ++ [v] := by
      intro m
      rw [upToData, hlast]
      simp only [← append_assoc, ← cons_append, dropLast_concat]
    refine ⟨fun m => (msg.upToData m).dropLast, v, fun m => ⟨?_, ?_⟩⟩
    · rw [write_layout_of_none msg hc, ← hsplit]
    · have hlen := msg.length_upToData m
      rw [hsplit, length_append] at hlen
      rw [if_pos hc]
      exact hlen
  · -- the second word of the last C descriptor
    have hne : msg.descriptors .c ≠ [] := fun h => hc (congrArg List.length h)
    obtain ⟨bufs, buf, hlast⟩ := (eq_nil_or_concat' (msg.descriptors .c)).resolve_left hne
    have hsplit : ∀ m, msg.layout m = (msg.layout m).dropLast ++ [cField buf] := by
      intro m
      rw [layout_eq, hlast, cWords_concat]
      simp only [← append_assoc, dropLast_concat]
    refine ⟨fun m => (msg.layout m).dropLast, cField buf, fun m => ⟨?_, ?_⟩⟩
    · rw [← hsplit]
    · have hlen := msg.length_layout m
      rw [hsplit, length_append] at hlen
      rw [if_neg hc]
      exact hlen

end PackMessage

/-- A packer whose last word does not depend on the buffer stays within `n` words exactly if its
message has no more. -/
theorem confined_packer_iff {x : Marshal Unit} {msg : PackMessage} (hblind : Blind x)
    (hlayout : ∀ m c, x ⟨m, 0⟩ = .ok () c → c = (⟨m, 0⟩ : Cursor Word).append (msg.layout m))
    (hdata : msg.dataSection ≠ []) {m : Mem Word} {c : Cursor Word} (hok : x ⟨m, 0⟩ = .ok () c)
    (n : Nat) : Confined n x ↔ msg.wordsUsed ≤ n := by
  obtain ⟨ws, v, hlast⟩ := msg.exists_last_word hdata
  have hx : ∀ m', (final (x ⟨m', 0⟩)).buffer = m'.write 0 (ws m' ++ [v]) := by
    intro m'
    obtain ⟨c', hrun, -⟩ := hblind.of_ok hok m'
    rw [hrun, hlayout m' c' hrun]
    exact (hlast m').1
  have hlen : ∀ m', (ws m').length = msg.wordsUsed - 1 := fun m' => by
    have hwords := (hlast m').2
    omega
  rw [confined_iff hx hlen (cons_ne_nil v [])]
  have hwords := (hlast m).2
  rw [length_singleton]
  omega

/-! ## Requests and responses -/

/-- The words of a request up to the last one that is stored. -/
def IpcRequest.wordsUsed (rq : IpcRequest) (object : IpcObject) : Nat :=
  messageWords rq.copyHandles.length
    ((if object.inDomain then 0 else rq.objects.length) + rq.moveHandles.length) rq.sendPid
    rq.buffers
    ((if object.inDomain then 4 + rq.objects.length else 0) +
      if rq.closeObject then 0 else 4 + rq.rawDataSize / 4)

variable (rs : IpcResponse)

/-- The words of a response up to the last one that is stored. -/
def IpcResponse.wordsUsed (w : World) (o : ObjPtr) : Nat :=
  messageWords rs.copyHandles.length
    ((if (w.object o).isDomainObject then 0 else rs.objects.length) + rs.moveHandles.length)
    rs.sendPid rs.buffers
    ((if (w.object o).isDomainObject then 4 + rs.objects.length else 0) + (4 + rs.rawDataSize / 4))

theorem IpcRequest.wordsUsed_message (rq : IpcRequest) (stack : Mem Word) (object : IpcObject) :
    (rq.message stack object).wordsUsed = rq.wordsUsed object := by
  have hmove : (rq.wireMoveHandles object).length =
      (if object.inDomain then 0 else rq.objects.length) + rq.moveHandles.length := by
    unfold wireMoveHandles
    split_ifs <;> simp
  have hpayload : rq.payload.length = if rq.closeObject then 0 else 4 + rq.rawDataSize / 4 := by
    unfold payload
    split_ifs
    · rfl
    · rw [length_append, rq.rawData_words]
      rfl
  have hdata : (rq.dataSection stack object).length =
      (if object.inDomain then 4 + rq.objects.length else 0) + rq.payload.length := by
    unfold dataSection
    split_ifs
    · simp only [length_cons, length_append, length_read, length_map]
      omega
    · exact (Nat.zero_add _).symm
  unfold IpcRequest.wordsUsed
  rw [← hpayload, ← hdata, ← hmove]
  rfl

theorem IpcResponse.wordsUsed_message (w : World) (o : ObjPtr) :
    (rs.message w o).wordsUsed = rs.wordsUsed w o := by
  have hmove : (rs.wireMoveHandles w o).length =
      (if (w.object o).isDomainObject then 0 else rs.objects.length) + rs.moveHandles.length := by
    unfold wireMoveHandles
    split_ifs <;> simp
  have hdata : (rs.dataSection w o).length =
      (if (w.object o).isDomainObject then 4 + rs.objects.length else 0) + rs.payload.length := by
    unfold dataSection
    split_ifs
    · simp only [length_cons, length_append, length_nil, length_map]
    · exact (Nat.zero_add _).symm
  unfold IpcResponse.wordsUsed
  rw [← rs.length_payload, ← hdata, ← hmove]
  rfl

theorem IpcRequest.Accepted.dataSection_ne_nil {rq : IpcRequest} {object : IpcObject}
    (hr : rq.Accepted object) (stack : Mem Word) : (rq.message stack object).dataSection ≠ [] := by
  cases hd : object.inDomain with
  | true =>
    simp only [message, dataSection, hd]
    exact cons_ne_nil _ _
  | false =>
    rw [hr.dataSection_session stack hd]
    exact cons_ne_nil _ _

theorem IpcResponse.dataSection_ne_nil (w : World) (o : ObjPtr) :
    (rs.message w o).dataSection ≠ [] := by
  unfold message dataSection
  split_ifs
  all_goals exact cons_ne_nil _ _

/-- **Packing and the buffer.** What is packed with `RESULT_OK` stays in the 64 words of
`ipc_buffer` exactly if its words are no more than that. -/
theorem packing_confined_iff (handles : Mem Handle) (stack : Mem Word) (rq : IpcRequest)
    (object : IpcObject) (w : World) (rs : IpcResponse) (o : ObjPtr) :
    ((∃ m c, ipcPackRequest handles stack rq object ⟨m, 0⟩ = .ok () c) →
      (Confined 64 (ipcPackRequest handles stack rq object) ↔ rq.wordsUsed object ≤ 64)) ∧
    ((∃ m c, ipcPackResponse w handles stack rs o ⟨m, 0⟩ = .ok () c) →
      (Confined 64 (ipcPackResponse w handles stack rs o) ↔ rs.wordsUsed w o ≤ 64)) := by
  constructor
  · rintro ⟨m, c, hok⟩
    obtain ⟨hr, -, -⟩ := ipcPackRequest_eq_ok hok
    rw [← rq.wordsUsed_message stack]
    refine confined_packer_iff (blind_ipcPackRequest _ _ _ _) ?_ (hr.dataSection_ne_nil stack) hok 64
    exact fun m' c' hrun => (ipcPackRequest_eq_ok hrun).2.2
  · rintro ⟨m, c, hok⟩
    rw [← rs.wordsUsed_message]
    refine confined_packer_iff (plain_ipcPackResponse _ _ _ _ _).blind ?_ (rs.dataSection_ne_nil w o)
      hok 64
    exact fun m' c' hrun => (ipcPackResponse_eq_ok hrun).2.2

/-- A request with handles, an object, a PID, raw data, an A and a C buffer. -/
def everyPart : IpcRequest :=
  { sendSession with buffers := [⟨0x7100000000, 0x100, 0x5⟩, ⟨0x3000, 0x20, 0xA⟩] }

/-- A request with as much raw data as may be sent. -/
def fullRequest : IpcRequest :=
  { ipcDefaultRequest with
    rawData := List.replicate 128 0xFFFFFFFF#32
    rawDataSize := 0x200
    rawData_words := List.length_replicate }

/-- A request with a bit of everything stays in the buffer, and so does a response with handles and
an object; one with all the raw data that may be sent does not. -/
theorem everyPart_confined :
    Confined 64 (ipcPackRequest (fun _ => 0#32) (fun _ => 0#32) everyPart ⟨-1, 0x11, false⟩) ∧
    Confined 64 (ipcPackResponse twoSessions (fun _ => 0#32) (fun _ => 0#32) replySession
      (.user 1)) ∧ ¬ Confined 64 (ipcPackRequest (fun _ => 0#32) (fun _ => 0#32) fullRequest
      ⟨-1, 0x11, false⟩) := by
  obtain ⟨_, c, hrq⟩ := succeeded_iff.1 (show succeeded (ipcPackRequest (fun _ => 0#32)
    (fun _ => 0#32) everyPart ⟨-1, 0x11, false⟩ ⟨fun _ => 0#32, 0⟩) = true by decide +kernel)
  obtain ⟨_, c', hrs⟩ := succeeded_iff.1 (show succeeded (ipcPackResponse twoSessions
    (fun _ => 0#32) (fun _ => 0#32) replySession (.user 1) ⟨fun _ => 0#32, 0⟩) = true by
      decide +kernel)
  obtain ⟨_, c'', hfull⟩ := succeeded_iff.1 (show succeeded (ipcPackRequest (fun _ => 0#32)
    (fun _ => 0#32) fullRequest ⟨-1, 0x11, false⟩ ⟨fun _ => 0#32, 0⟩) = true by decide +kernel)
  obtain ⟨hrequest, hresponse⟩ := packing_confined_iff (fun _ => 0#32) (fun _ => 0#32)
    everyPart ⟨-1, 0x11, false⟩ twoSessions replySession (.user 1)
  obtain ⟨hlong, -⟩ := packing_confined_iff (fun _ => 0#32) (fun _ => 0#32) fullRequest
    ⟨-1, 0x11, false⟩ twoSessions replySession (.user 1)
  refine ⟨(hrequest ⟨_, c, hrq⟩).2 (by decide), (hresponse ⟨_, c', hrs⟩).2 (by decide), ?_⟩
  exact fun h => absurd ((hlong ⟨_, c'', hfull⟩).1 h) (by decide)

/-- It is packed over the pointer to the thread's context. -/
theorem fullRequest_escapes : ∃ c, ipcPackRequest (fun _ => 0#32) (fun _ => 0#32) fullRequest
      ⟨-1, 0x11, false⟩ ⟨fun _ => 0#32, 0⟩ = .ok () c ∧ c.buffer 64 = 0xFFFFFFFF#32 ∧
    c.buffer (0x1f8 / 4) = 0xFFFFFFFF#32 := by
  refine exists_ok_and (by decide +kernel) fun c hok => ?_
  obtain ⟨-, -, rfl⟩ := ipcPackRequest_eq_ok hok
  exact ⟨by decide +kernel, by decide +kernel⟩

end LibTransistor
