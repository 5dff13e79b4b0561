import LibTransistor.Ipc.RequestSpec

/-!
# Delivering a request without buffers

A request crosses `ipc_pack_request` and `ipc_pack_message` on the client's side, and
`ipc_server_session_receive`, `ipc_unpack` and `ipc_unflatten_request` on the server's.

* `PlainSession` — a session as `ipc_server_create_session` sets it up.
* `session_request_delivered` — over such a session a request arrives as it was sent.
* `domain_request_refused` — in a domain no request arrives at all: the two sides disagree about
  what the payload size in the domain header counts.
-/

namespace LibTransistor

open Fallible Cursor Bits BitVec

variable {w : World} {o : ObjPtr} {p : SessionPtr} {tls : Mem Word}

variable {srv : Nat} {q : SessionPtr} {handle : Handle}

/-! ## Sessions of the receiving server -/

namespace World

/-- A session that `ipc_server_create_session` has set up for object `o`, waiting for a message. -/
structure PlainSession (w : World) (p : SessionPtr) (o : ObjPtr) : Prop where
  listening : (w.session p).state = .listening
  isDomain : (w.session p).isDomain = false
  object : (w.session p).object = some o
  owningServer : (w.session p).owningServer = p.server
  isDomainObject : (w.object o).isDomainObject = false
  owningSession : (w.object o).owningSession = p

/-- `q` is the session of server `srv` with that handle. -/
structure SessionOf (w : World) (srv : Nat) (handle : Handle) (q : SessionPtr) : Prop where
  server : q.server = srv
  live : (w.session q).state ≠ .invalid
  handle_eq : (w.session q).handle = handle
  unique : ∀ q', q'.server = srv → (w.session q').state ≠ .invalid →
    (w.session q').handle = handle → q' = q

/-- The message that `ipc_server_session_receive` unpacks. -/
def received (w : World) (p : SessionPtr) (tls : Mem Word) : IpcMessage :=
  ipcUnpack (copyMessage (w.session p).messageBuffer tls)

/-- The state in which the handler of object `o` is called. -/
def dispatching (w : World) (p : SessionPtr) (tls : Mem Word) (o : ObjPtr) : World :=
  w.setSession p { w.session p with
    state := .processing
    messageBuffer := copyMessage (w.session p).messageBuffer tls
    activeObject := some o }

end World

@[simp] theorem World.setSession_setSession (w : World) (p : SessionPtr) (s s' : Session) :
    (w.setSession p s).setSession p s' = w.setSession p s' := by
  unfold World.setSession
  simp

theorem mem_slots : q ∈ slots srv ↔ q.server = srv := by
  obtain ⟨s, i⟩ := q
  simp [slots, eq_comm]

theorem findSession_eq_some (hq : w.SessionOf srv handle q) :
    findSession w srv handle = some q := by
  unfold findSession
  cases hf : (slots srv).find? fun p => (w.session p).state ≠ .invalid ∧ (w.session p).handle = handle with
  | none =>
    have hnone := List.find?_eq_none.1 hf q (mem_slots.2 hq.server)
    exact absurd hq.handle_eq (by simpa [hq.live] using hnone)
  | some q' =>
    have hmem := mem_slots.1 (List.mem_of_find?_eq_some hf)
    have hpred := List.find?_some hf
    simp only [decide_eq_true_eq] at hpred
    rw [hq.unique q' hmem hpred.1 hpred.2]

theorem objectOfHandle_eq_ok (hq : w.SessionOf srv handle q) (hd : (w.session q).isDomain = false)
    (ho : (w.session q).object = some o) : objectOfHandle w srv handle = .ok o := by
  simp [objectOfHandle, findSession_eq_some hq, hd, ho]

section Dispatching

theorem dispatching_field {α : Type} (f : Session → α) (q : SessionPtr)
    (hf : ∀ s st mb ao, f { s with state := st, messageBuffer := mb, activeObject := ao } = f s) :
    f ((w.dispatching p tls o).session q) = f (w.session q) := by
  unfold World.dispatching
  rw [World.setSession_session]
  split_ifs with h
  · rw [h, hf]
  · rfl

theorem dispatching_live (hp : (w.session p).state ≠ .invalid) (q : SessionPtr) :
    ((w.dispatching p tls o).session q).state ≠ .invalid ↔ (w.session q).state ≠ .invalid := by
  unfold World.dispatching
  rw [World.setSession_session]
  split_ifs with h
  · simp [h, hp]
  · rfl

theorem World.SessionOf.dispatching (hq : w.SessionOf srv handle q)
    (hp : (w.session p).state ≠ .invalid) : (w.dispatching p tls o).SessionOf srv handle q := by
  have hhandle : ∀ q', ((w.dispatching p tls o).session q').handle = (w.session q').handle :=
    fun q' => dispatching_field Session.handle q' fun _ _ _ _ => rfl
  refine ⟨hq.server, (dispatching_live hp q).2 hq.live, by rw [hhandle, hq.handle_eq], ?_⟩
  intro q' hs hl hh
  exact hq.unique q' hs ((dispatching_live hp q').1 hl) (by rw [← hhandle, hh])

end Dispatching

/-- A message of type 4 on a plain session goes to the session's object. -/
theorem receive_plain {a : Nat} (cb : Callbacks) (hp : w.PlainSession p (.user a))
    (ht : (w.received p tls).messageType = 4#16) :
    ipcServerSessionReceive cb p resultOk tls w =
      (do cb.dispatch a (w.received p tls)
            ((w.received p tls).words (w.received p tls).dataSection 2)
          return resultOk : ServerM ResultT) (w.dispatching p tls (.user a)) := by
  have htarget : dispatchTarget p { w.session p with
      state := .processing, messageBuffer := copyMessage (w.session p).messageBuffer tls }
      (w.received p tls) = some (.user a, (w.received p tls).dataSection) := by
    simp [dispatchTarget, ht, hp.isDomain, hp.object]
  unfold World.received at htarget
  unfold ipcServerSessionReceive
  simp only [bind, StateT.bind, get, getThe, MonadStateOf.get, StateT.get, pure, hp.listening,
    ne_eq, not_true_eq_false, if_false, modify, modifyGet, MonadStateOf.modifyGet,
    StateT.modifyGet, htarget, World.setSession_setSession]
  rfl

/-! ## Delivery over a plain session -/

/-- What a handler finds behind its format's pointers is what the client sent, and each object is
that of the session of server `srv` with the handle sent. -/
structure IpcRequest.Delivered (rq : IpcRequest) (w : World) (srv : Nat) (out : RequestOut) :
    Prop where
  rawData : out.rawData.read 0 rq.rawData.length = rq.rawData
  copyHandles : out.copyHandles.read 0 rq.copyHandles.length = rq.copyHandles
  moveHandles : out.moveHandles.read 0 rq.moveHandles.length = rq.moveHandles
  objects : List.Forall₂
    (fun (x : IpcObject) o => ∃ q, w.SessionOf srv x.session q ∧ (w.session q).object = some o)
    rq.objects (out.objects.read 0 rq.objects.length)

theorem exists_objects (w w' : World) (srv : Nat) {xs : List IpcObject}
    (h : ∀ x ∈ xs, ∃ q o, w.SessionOf srv x.session q ∧ (w.session q).object = some o ∧
      objectOfHandle w' srv x.session = .ok o) :
    ∃ os, List.Forall₂ (fun x o => objectOfHandle w' srv x = .ok o) (xs.map (·.session)) os ∧
      List.Forall₂ (fun (x : IpcObject) o =>
        ∃ q, w.SessionOf srv x.session q ∧ (w.session q).object = some o) xs os := by
  induction xs with
  | nil => exact ⟨[], .nil, .nil⟩
  | cons x xs ih =>
    obtain ⟨os, h₁, h₂⟩ := ih fun x' hx' => h x' (List.mem_cons_of_mem x hx')
    obtain ⟨q, o, hq, ho, hfound⟩ := h x List.mem_cons_self
    exact ⟨o :: os, .cons hfound h₁, .cons ⟨q, hq, ho⟩ h₂⟩

/-- A packed message of at most 64 words survives the copy out of the thread's message buffer. -/
theorem holds_copyMessage {msg : PackMessage} {m mb : Mem Word}
    (hfit : ((⟨m, 0⟩ : Cursor Word).append (msg.layout m)).h ≤ 64)
    (htls : ∀ i < ((⟨m, 0⟩ : Cursor Word).append (msg.layout m)).h,
      tls i = ((⟨m, 0⟩ : Cursor Word).append (msg.layout m)).buffer i) :
    msg.Holds m (copyMessage mb tls) := by
  rw [append_h, Nat.zero_add] at hfit htls
  refine Eq.trans (Mem.read_congr fun i hi => ?_) (msg.holds_write m)
  rw [Nat.zero_add, copyMessage, if_pos (by omega), htls i hi]
  rfl

theorem World.PlainSession.owningServer_dispatching (hp : w.PlainSession p o) :
    ((w.dispatching p tls o).session
      ((w.dispatching p tls o).object o).owningSession).owningServer = p.server := by
  rw [dispatching_field Session.owningServer _ fun _ _ _ _ => rfl]
  show (w.session (w.object o).owningSession).owningServer = p.server
  rw [hp.owningSession, hp.owningServer]

theorem World.PlainSession.exists_objects_dispatching {xs : List IpcObject} (tls : Mem Word)
    (hp : w.PlainSession p o) (hobjs : ∀ x ∈ xs, ∃ q, w.SessionOf p.server x.session q ∧
      (w.session q).isDomain = false ∧ (w.session q).object ≠ none) :
    ∃ os, List.Forall₂ (fun x o' => objectOfHandle (w.dispatching p tls o) p.server x = .ok o')
        (xs.map (·.session)) os ∧
      List.Forall₂ (fun (x : IpcObject) o' =>
        ∃ q, w.SessionOf p.server x.session q ∧ (w.session q).object = some o') xs os := by
  have hlive : (w.session p).state ≠ .invalid := by rw [hp.listening]; decide
  apply exists_objects
  intro x hx
  obtain ⟨q, hq, hdom, hne⟩ := hobjs x hx
  obtain ⟨o', ho'⟩ := Option.ne_none_iff_exists'.1 hne
  refine ⟨q, o', hq, ho', objectOfHandle_eq_ok (hq.dispatching hlive) ?_ ?_⟩
  · rw [dispatching_field Session.isDomain _ fun _ _ _ _ => rfl, hdom]
  · rw [dispatching_field Session.object _ fun _ _ _ _ => rfl, ho']

theorem RequestUnpacked.declaredRawWords_without_buffers {rq : IpcRequest} {object : IpcObject}
    {stack m b : Mem Word} {u : IpcMessage} (hr : rq.Accepted object)
    (ha : (rq.message stack object).Accepted) (hu : RequestUnpacked rq object stack m b u)
    (hd : object.inDomain = false) (hbufs : rq.buffers = []) :
    declaredRawWords u 0 0 = rq.rawDataSize / 4 := by
  refine declaredRawWords_eq ?_ ?_
  · rw [hu.sectionSize, PackMessage.sectionSize_without_buffers _ hbufs,
      hr.dataSection_session stack hd]
    simp [rq.rawData_words]
    omega
  · rw [hu.sectionSize]
    exact PackMessage.sectionSize_lt_of_short ha (hr.length_dataSection_le stack)

/-- **Delivery over a plain session.** A request of type 4 without buffers that is packed into at
most 64 words reaches the object of the session it is sent on, with its request id, and
unflattening it against a format of its shape gives back all of it. -/
theorem session_request_delivered {w : World} {p : SessionPtr} {a : Nat} {rq : IpcRequest}
    {object : IpcObject} {handles : Mem Handle} {stack m tls : Mem Word} {c : Cursor Word}
    (hpack : ipcPackRequest handles stack rq object ⟨m, 0⟩ = .ok () c)
    (hd : object.inDomain = false) (htype : rq.type = 4#32) (hbufs : rq.buffers = [])
    (hfit : c.h ≤ 64) (hlen : rq.objects.length ≤ 8) (hp : w.PlainSession p (.user a))
    (hobjs : ∀ x ∈ rq.objects, ∃ q, w.SessionOf p.server x.session q ∧
      (w.session q).isDomain = false ∧ (w.session q).object ≠ none)
    (htls : ∀ i < c.h, tls i = c.buffer i) (cb : Callbacks) (arrays : Family → Mem IpcBuffer)
    (out : RequestOut) :
    ipcServerSessionReceive cb p resultOk tls w =
      (do cb.dispatch a (w.received p tls) rq.requestId; return resultOk : ServerM ResultT)
        (w.dispatching p tls (.user a)) ∧
    ∃ out', ipcUnflattenRequest (w.dispatching p tls (.user a)) arrays (w.received p tls) rq.fmt
        (.user a) out = .ok () out' ∧ rq.Delivered w p.server out' := by
  obtain ⟨hr, ha, rfl⟩ := ipcPackRequest_eq_ok hpack
  have hb : (rq.message stack object).Holds m (copyMessage (w.session p).messageBuffer tls) :=
    holds_copyMessage hfit htls
  have hno := descriptors_of_buffers_eq_nil (rq.message stack object) hbufs
  have hu : RequestUnpacked rq object stack m _ (w.received p tls) :=
    unpack_without_buffers hr ha hb hbufs
  obtain ⟨-, hid, hraw⟩ := hu.session_words hr hb hd
  refine ⟨?_, ?_⟩
  · rw [receive_plain cb hp, hid]
    rw [hu.messageType]
    show rq.type.setWidth 16 = 4#16
    rw [htype]
    rfl
  · obtain ⟨os, hos, hos'⟩ := hp.exists_objects_dispatching tls hobjs
    obtain ⟨U, hU⟩ := exists_unpackAll hu.numC arrays
    have hnumC : (rq.message stack object).numC = 0 := by simp [PackMessage.numC, hno]
    rw [hnumC] at hU
    have hassign : assignBuffers U 0 (rq.buffers.map (·.type)) ⟨fun _ => 0, 0⟩
        (out.cleared rq.buffers.length) = .ok ⟨fun _ => 0, 0⟩ (out.cleared 0) := by
      rw [hbufs]
      rfl
    have hsize := hu.declaredRawWords_without_buffers hr ha hd hbufs
    have hobj : ((w.dispatching p tls (.user a)).object (.user a)).isDomainObject = false :=
      hp.isDomainObject
    refine ⟨_, (hu.unflatten_session_iff hr hb hd hobj).2
      ⟨_, U, _, _, os, hU, hassign, hsize, hlen, ?_, rfl⟩, ?_⟩
    · rw [hp.owningServer_dispatching]
      exact hos
    · rw [hraw]
      refine ⟨out.rawData.read_write_self 0 _, out.copyHandles.read_write_self 0 _,
        out.moveHandles.read_write_self 0 _, ?_⟩
      rw [hos'.length_eq]
      exact (out.objects.read_write_self 0 os).symm ▸ hos'

/-- A server before its first session. -/
def noSessions : World where
  session p := { freshSession p 0 0 (.user 0) 0 (fun _ => 0) with state := .invalid, object := none }
  object _ := sessionObject ⟨0, 0⟩
  closed := []
  timestamp := 0

/-- Empty arrays behind a format's pointers. -/
def noOut : RequestOut :=
  ⟨fun _ => 0, fun _ => 0, fun _ => 0, 0, fun _ => 0, fun _ => 0, fun _ => .user 0⟩

/-- A server with two sessions, as `ipc_server_create_session` sets them up. -/
def twoSessions : World :=
  (ipcServerCreateSession 0 0x20 0x21 (.user 2)
    (ipcServerCreateSession 0 0x10 0 (.user 1) noSessions).2).2

/-- A request to the first session that sends the second as an object. -/
def sendSession : IpcRequest where
  type := 4
  buffers := []
  requestId := 17
  rawData := [1, 2, 3]
  rawDataSize := 12
  sendPid := true
  copyHandles := [7]
  moveHandles := [8, 9]
  objects := [⟨-1, 0x20, false⟩]
  closeObject := false
  rawData_words := rfl

theorem twoSessions_plain : twoSessions.PlainSession ⟨0, 0⟩ (.user 1) :=
  ⟨rfl, rfl, rfl, rfl, rfl, rfl⟩

theorem twoSessions_sessionOf : twoSessions.SessionOf 0 0x20 ⟨0, 1⟩ where
  server := rfl
  live := by decide
  handle_eq := rfl
  unique := by
    rintro ⟨_, i⟩ rfl
    revert i
    decide

theorem sendSession_delivered : ∃ c, ipcPackRequest (fun _ => 0) (fun _ => 0) sendSession
      ⟨-1, 0x10, false⟩ ⟨fun _ => 0, 0⟩ = .ok () c ∧
    ∀ cb arrays out,
      ipcServerSessionReceive cb ⟨0, 0⟩ resultOk c.buffer twoSessions =
        (do cb.dispatch 1 (twoSessions.received ⟨0, 0⟩ c.buffer) 17; return resultOk :
          ServerM ResultT) (twoSessions.dispatching ⟨0, 0⟩ c.buffer (.user 1)) ∧
      ∃ out', ipcUnflattenRequest (twoSessions.dispatching ⟨0, 0⟩ c.buffer (.user 1)) arrays
        (twoSessions.received ⟨0, 0⟩ c.buffer) sendSession.fmt (.user 1) out = .ok () out' ∧
          sendSession.Delivered twoSessions 0 out' := by
  refine exists_ok_and (by decide) fun c h cb arrays out => ?_
  have hfit : c.h ≤ 64 := by
    obtain ⟨-, -, rfl⟩ := ipcPackRequest_eq_ok h
    decide
  refine session_request_delivered h rfl rfl rfl hfit (by decide) twoSessions_plain ?_
    (fun _ _ => rfl) cb arrays out
  intro x hx
  obtain rfl : x = ⟨-1, 0x20, false⟩ := by simpa [sendSession] using hx
  exact ⟨⟨0, 1⟩, twoSessions_sessionOf, rfl, by decide⟩

/-! ## Domains -/

section Domain

variable {rq : IpcRequest} {object : IpcObject}

theorem IpcRequest.Accepted.domainHead_payload (hr : rq.Accepted object)
    (hd : object.inDomain = true) :
    ((rq.domainHead >>> 16) &&& 0xFFFF#32).toNat = rq.payload.length * 4 := by
  have hp := hr.length_payload_le
  have ho := hr.objects_le hd
  have hlow : ((if rq.closeObject then 2#32 else 1#32) |||
      (BitVec.ofNat 32 rq.objects.length <<< 8)).toNat < 2 ^ 16 := by
    refine Nat.or_lt_two_pow ?_ ?_
    · split_ifs <;> decide
    · rw [toNat_shiftLeft, toNat_ofNat]
      omega
  have hhigh : (BitVec.ofNat 32 (rq.payload.length * 4) <<< 16).toNat =
      (rq.payload.length * 4) <<< 16 := by
    rw [toNat_shiftLeft, toNat_ofNat]
    omega
  unfold domainHead
  rw [toNat_shiftRight_and _ _ 16 16 rfl, toNat_or, hhigh, field_or_at _ _ hlow,
    Nat.mod_eq_of_lt (by omega)]

/-- The server takes four bytes off the payload where the client has added sixteen. -/
theorem IpcRequest.Accepted.domainRawDataSize_ne (hr : rq.Accepted object)
    (hd : object.inDomain = true) : domainRawDataSize rq.domainHead ≠ rq.rawDataSize := by
  have hp := hr.domainHead_payload hd
  unfold domainRawDataSize
  rw [toNat_sub, toNat_setWidth, hp]
  cases hc : rq.closeObject with
  | true =>
    have hzero := (hr.close hc).2.2.2.1
    simp [payload, hc, hzero]
  | false =>
    have hraw := rq.rawData_words
    have hpl : rq.payload.length = 4 + rq.rawDataSize / 4 := by
      simp [payload, hc]
      omega
    simp
    omega

end Domain

/-- **No delivery in a domain.** Whatever a client sends to a domain object, the server refuses
it. -/
theorem domain_request_refused {w : World} {o : ObjPtr} {rq : IpcRequest} {object : IpcObject}
    {handles : Mem Handle} {stack m : Mem Word} {c : Cursor Word}
    (hpack : ipcPackRequest handles stack rq object ⟨m, 0⟩ = .ok () c)
    (hd : object.inDomain = true) (hbufs : rq.buffers = [])
    (ho : (w.object o).isDomainObject = true) (arrays : Family → Mem IpcBuffer) (out : RequestOut) :
    ¬ ∃ out', ipcUnflattenRequest w arrays (ipcUnpack c.buffer) rq.fmt o out = .ok () out' := by
  obtain ⟨hr, ha, rfl⟩ := ipcPackRequest_eq_ok hpack
  have hb := (rq.message stack object).holds_write m
  have hu : RequestUnpacked rq object stack m _ _ := unpack_without_buffers hr ha hb hbufs
  have hhead : (ipcUnpack (m.write 0 ((rq.message stack object).layout m))).words
      (ipcUnpack (m.write 0 ((rq.message stack object).layout m))).dataSection 0 =
      rq.domainHead := by
    have hdata := hb.read_data
    simp only [hu.dataSection]
    refine Mem.eq_of_getElem? hdata ?_
    simp [IpcRequest.message, IpcRequest.dataSection, hd]
  rintro ⟨out', hout⟩
  obtain ⟨-, hchecked, -⟩ := ipcUnflattenRequest_eq_ok.1 hout
  have hsize := hchecked.payload ho
  exact hr.domainRawDataSize_ne hd (by rw [← hhead]; exact hsize)

/-- A session whose domain holds two objects. -/
def domainWorld : World :=
  (ipcServerDomainAddObject ⟨0, 0⟩ (.user 3)
    (ipcServerDomainAddObject ⟨0, 0⟩ (.user 2)
      (ipcServerCreateSession 0 0x10 0 (.user 1) noSessions).2).2).2

/-- A request to the first object of the domain that sends the second. -/
def sendDomainObject : IpcRequest where
  type := 4
  buffers := []
  requestId := 17
  rawData := [5, 6]
  rawDataSize := 8
  sendPid := false
  copyHandles := []
  moveHandles := [8]
  objects := [⟨1, 0xD0, false⟩]
  closeObject := false
  rawData_words := rfl

theorem sendDomainObject_never : ∃ c, ipcPackRequest (fun _ => 0) (fun _ => 0) sendDomainObject
      ⟨0, 0xD0, false⟩ ⟨fun _ => 0, 0⟩ = .ok () c ∧
    ∀ arrays out, ¬ ∃ out', ipcUnflattenRequest domainWorld arrays (ipcUnpack c.buffer)
      sendDomainObject.fmt (.user 2) out = .ok () out' := by
  refine exists_ok_and (by decide) fun c h => ?_
  exact domain_request_refused h rfl rfl (by decide +kernel)

/-- The payload size is written as 24 bytes, and the server expects 12. -/
theorem sendDomainObject_refused : ∃ c, ipcPackRequest (fun _ => 0) (fun _ => 0) sendDomainObject
      ⟨0, 0xD0, false⟩ ⟨fun _ => 0, 0⟩ = .ok () c ∧ c.h ≤ 64 ∧
    (domainWorld.object (.user 2)).isDomainObject = true ∧
    (domainWorld.object (.user 2)).owningDomain = some ⟨0, 0⟩ ∧
    ipcServerDomainGetObject (domainWorld.session ⟨0, 0⟩).domain 1 = .ok (.user 3) ∧
    succeeded (ipcUnflattenRequest domainWorld (fun _ _ => nullBuffer) (ipcUnpack c.buffer)
      sendDomainObject.fmt (.user 2) noOut) = false := by
  refine exists_ok_and (by decide) fun c h => ?_
  obtain ⟨-, -, rfl⟩ := ipcPackRequest_eq_ok h
  exact ⟨by decide, by decide +kernel, by decide +kernel, by decide +kernel, by decide +kernel⟩

end LibTransistor
