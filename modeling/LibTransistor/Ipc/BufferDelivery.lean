import LibTransistor.Ipc.Buffers
import LibTransistor.Ipc.Delivery

/-!
# Delivering a request with buffers

Two questions about a session request that carries buffers: does the server accept it, and does
what it accepts arrive as it was sent?

* `request_accepted_iff` — it is accepted exactly when no A or B buffer uses the upper protection
  bit and no X buffer comes after as many X descriptors as there are A descriptors.
* `representable_of_accepted` — a request that is accepted had counts that fit the wire format.
* `request_intact_iff` — it arrives intact exactly when its C buffers have addresses below 32 bits,
  its C descriptors do not displace the raw data, and a PID that was sent was already there.
-/

namespace LibTransistor

open Fallible Cursor Bits List

variable {arrays : Family → Mem IpcBuffer} {out out' : RequestOut}

/-! ## Acceptance -/

/-- What the wire format can represent: at most 15 X, A and B descriptors, at most 13 C. -/
structure Representable (bufs : List IpcBuffer) : Prop where
  x : (descriptorsOf bufs .x).length ≤ 15
  a : (descriptorsOf bufs .a).length ≤ 15
  b : (descriptorsOf bufs .b).length ≤ 15
  c : (descriptorsOf bufs .c).length ≤ 13

/-- The buffers the server accepts: no A or B buffer has the upper protection bit set, and there
are always fewer X descriptors in front of an X buffer than there are A descriptors in all. -/
structure BuffersAccepted (bufs : List IpcBuffer) : Prop where
  prot : ∀ buf ∈ bufs, buf.PlainIn .a ∨ buf.PlainIn .b → buf.type &&& 0x80#32 = 0#32
  x : ∀ us buf vs, bufs = us ++ buf :: vs → buf.PlainIn .x →
    (descriptorsOf us .x).length < (descriptorsOf bufs .a).length

theorem buffersAccepted_iff {bufs : List IpcBuffer} :
    BuffersAccepted bufs ↔ Passes (descriptorsOf bufs .a).length [] bufs := by
  rw [passes_iff]
  exact ⟨fun h => ⟨h.1, h.2⟩, fun h => ⟨h.1, h.2⟩⟩

instance (bufs : List IpcBuffer) : Decidable (BuffersAccepted bufs) :=
  decidable_of_iff _ buffersAccepted_iff.symm

section Session

variable {rq : IpcRequest} {object : IpcObject} {stack m b : Mem Word} {u : IpcMessage}

theorem prot_of_accepted (ha : (rq.message stack object).Accepted) {buf : IpcBuffer}
    (hmem : buf ∈ rq.buffers) (hab : buf.PlainIn .a ∨ buf.PlainIn .b) : buf.type >>> 8 = 0#32 := by
  have hdesc : ∀ l, buf.PlainIn l → buf ∈ (rq.message stack object).descriptors l := by
    intro l hl
    refine mem_flatMap.2 ⟨buf, hmem, ?_⟩
    rw [IpcBuffer.contrib_plain hl, if_pos rfl]
    exact mem_singleton.2 rfl
  rcases hab with h | h
  · exact (ha.a buf (hdesc .a h)).2.2
  · exact (ha.b buf (hdesc .b h)).2.2

theorem RequestUnpacked.assignBuffers_iff (ha : (rq.message stack object).Accepted)
    (hb : (rq.message stack object).Holds m b) (hu : RequestUnpacked rq object stack m b u)
    {h : Nat} {U : DescArrays} {s : Assigned} (hU : unpackAll u arrays = .ok (h, U)) :
    assignBuffers U 0 (rq.buffers.map (·.type)) ⟨fun _ => 0, 0⟩ out = .ok s out' ↔
      BuffersAccepted rq.buffers ∧ s = assignedAfter rq.buffers ∧
      out' = { out with
        addrs := out.addrs.write 0 (rq.buffers.map (·.receivedAddr))
        sizes := out.sizes.write 0 (rq.buffers.map (·.receivedSize)) } := by
  have hcarries := (hu.unpackAll_carries ha hb hU).2
  have hprot : ∀ buf ∈ rq.buffers, buf.PlainIn .a ∨ buf.PlainIn .b → buf.type >>> 8 = 0#32 :=
    fun buf hmem hab => prot_of_accepted ha hmem hab
  rw [buffersAccepted_iff]
  exact assignBuffers_eq_ok (nil_append rq.buffers).symm hcarries ha.supported hprot

theorem RequestUnpacked.declaredRawWords_session (hr : rq.Accepted object)
    (ha : (rq.message stack object).Accepted) (hu : RequestUnpacked rq object stack m b u)
    (hd : object.inDomain = false) :
    declaredRawWords u 0 (assignedAfter rq.buffers).u16Count = rq.rawDataSize / 4 := by
  refine declaredRawWords_eq ?_ ?_
  · rw [hu.sectionSize, PackMessage.sectionSize, hr.dataSection_session stack hd,
      length_append, rq.rawData_words]
    show 4 + (4 + rq.rawDataSize / 4) + ((listed (descriptorsOf rq.buffers .c)).length + 1) / 2 = _
    simp only [assignedAfter]
    omega
  · rw [hu.sectionSize]
    exact PackMessage.sectionSize_lt_of_short ha (hr.length_dataSection_le stack)

theorem Representable.countsFit (h : Representable rq.buffers) :
    (rq.message stack object).CountsFit :=
  ⟨Nat.lt_succ_of_le h.x, Nat.lt_succ_of_le h.a, Nat.lt_succ_of_le h.b⟩

end Session

/-- **Acceptance.** A session request that the wire format can represent is accepted exactly when
its buffers are. -/
theorem request_accepted_iff {w : World} {o : ObjPtr} {rq : IpcRequest} {object : IpcObject}
    {handles : Mem Handle} {stack m : Mem Word} {c : Cursor Word}
    (hpack : ipcPackRequest handles stack rq object ⟨m, 0⟩ = .ok () c)
    (hd : object.inDomain = false) (hrep : Representable rq.buffers)
    (ho : (w.object o).isDomainObject = false) (hlen : rq.objects.length ≤ 8)
    (hobjs : ∀ x ∈ rq.objects, ∃ q,
      w.SessionOf (w.session (w.object o).owningSession).owningServer x.session q ∧
      (w.session q).isDomain = false ∧ (w.session q).object ≠ none)
    (arrays : Family → Mem IpcBuffer) (out : RequestOut) :
    (∃ out', ipcUnflattenRequest w arrays (ipcUnpack c.buffer) rq.fmt o out = .ok () out') ↔
      BuffersAccepted rq.buffers := by
  obtain ⟨hr, ha, rfl⟩ := ipcPackRequest_eq_ok hpack
  have hb := (rq.message stack object).holds_write m
  have hu := unpack_request hr ha hb hrep.countsFit (Nat.lt_succ_of_le hrep.c)
  constructor
  · rintro ⟨out', hout⟩
    obtain ⟨h, U, s, out₁, os, hU, hassign, -⟩ :=
      (hu.unflatten_session_iff hr hb hd ho).1 hout
    exact ((hu.assignBuffers_iff ha hb hU).1 hassign).1
  · intro hacc
    obtain ⟨U, hU⟩ := exists_unpackAll hu.numC arrays
    obtain ⟨os, hos, -⟩ := exists_objects w w _ fun x hx => by
      obtain ⟨q, hq, hdom, hne⟩ := hobjs x hx
      obtain ⟨o', ho'⟩ := Option.ne_none_iff_exists'.1 hne
      exact ⟨q, o', hq, ho', objectOfHandle_eq_ok hq hdom ho'⟩
    exact ⟨_, (hu.unflatten_session_iff hr hb hd ho).2 ⟨_, U, _, _, os, hU,
      (hu.assignBuffers_iff ha hb hU).2 ⟨hacc, rfl, rfl⟩,
      hu.declaredRawWords_session hr ha hd, hlen, hos, rfl⟩⟩

/-- One buffer of each supported kind. -/
def everyKind : IpcRequest where
  type := 4
  buffers := [⟨0x7100000000, 0x100, 0x5⟩, ⟨0x7100001000, 0x10, 0x9⟩, ⟨0x7100002000, 0x100, 0x46⟩,
    ⟨0x3000, 0x20, 0xA⟩, ⟨0x4000, 0x20, 0x1A⟩, ⟨0x5000, 0x20, 0x21⟩, ⟨0x6000, 0x20, 0x22⟩]
  requestId := 3
  rawData := [1, 2]
  rawDataSize := 8
  sendPid := false
  copyHandles := []
  moveHandles := []
  objects := []
  closeObject := false
  rawData_words := rfl

theorem everyKind_accepted : ∃ c, ipcPackRequest (fun _ => 0) (fun _ => 0) everyKind
      ⟨-1, 0x10, false⟩ ⟨fun _ => 0, 0⟩ = .ok () c ∧
    ∀ arrays out, ∃ out', ipcUnflattenRequest twoSessions arrays (ipcUnpack c.buffer) everyKind.fmt
      (.user 1) out = .ok () out' := by
  refine exists_ok_and (by decide +kernel) fun c h arrays out => ?_
  exact (request_accepted_iff h rfl ⟨by decide, by decide, by decide, by decide⟩ rfl (by decide)
    (fun x hx => absurd hx not_mem_nil) arrays out).2 (by decide)

/-- A single X buffer. -/
def oneX : IpcRequest :=
  { ipcDefaultRequest with buffers := [⟨0x1000, 0x10, 0x9⟩] }

/-- The server holds the number of X buffers against the number of A descriptors, which is zero. -/
theorem oneX_refused : Representable oneX.buffers ∧
    ∃ c, ipcPackRequest (fun _ => 0) (fun _ => 0) oneX ⟨-1, 0x10, false⟩ ⟨fun _ => 0, 0⟩ =
        .ok () c ∧
      succeeded (ipcUnflattenRequest twoSessions (fun _ _ => nullBuffer) (ipcUnpack c.buffer)
        oneX.fmt (.user 1) noOut) = false := by
  refine ⟨⟨by decide, by decide, by decide, by decide⟩, ?_⟩
  refine exists_ok_and (by decide) fun c h => ?_
  obtain ⟨-, -, rfl⟩ := ipcPackRequest_eq_ok h
  decide +kernel

/-! ## What acceptance says about the counts -/

theorem representable_of_accepted {w : World} {o : ObjPtr} {b : Mem Word} {rq : IpcRequest}
    (h : ipcUnflattenRequest w arrays (ipcUnpack b) rq.fmt o out = .ok () out') :
    Representable rq.buffers := by
  obtain ⟨-, -, _, U, _, _, hU, hassign, -⟩ := ipcUnflattenRequest_eq_ok.1 h
  obtain ⟨hx, ha, hb, hc, -⟩ := unpackAll_count hU
  have hused : ∀ l, (descriptorsOf rq.buffers l).length ≤ U.cap l := by
    intro l
    have hle := assignBuffers_used hassign l (Nat.zero_le _)
    rwa [Nat.zero_add] at hle
  have hx' : U.count .x < 16 := by rw [hx]; exact toNat_and_mask_lt _ _ 4 rfl
  have ha' : U.count .a < 16 := by rw [ha]; exact toNat_and_mask_lt _ _ 4 rfl
  have hb' : U.count .b < 16 := by rw [hb]; exact toNat_and_mask_lt _ _ 4 rfl
  have hc' := (numCDescriptors_le (toNat_and_mask_lt _ _ 4 rfl) hc).1
  have hux : _ ≤ max _ _ := hused .x
  have hua : _ ≤ U.count .a := hused .a
  have hub : _ ≤ U.count .b := hused .b
  have huc : _ ≤ U.count .c := hused .c
  exact ⟨by omega, by omega, by omega, by omega⟩

/-! ## Intact delivery -/

/-- The words of a session request's message from its raw data on. -/
def IpcRequest.rawDataOnwards (rq : IpcRequest) (stack : Mem Word) (object : IpcObject)
    (m : Mem Word) : List Word :=
  let msg := rq.message stack object
  rq.rawData ++
    (m.read (msg.dataAt + msg.dataSection.length) (4 - (msg.dataAt - msg.rawDataStart)) ++
      (lengthWords m msg.lengthsAt (lengths (msg.descriptors .c)) ++ cWords (msg.descriptors .c)))

/-- What the client sent arrives: the address and size of every buffer (a paired buffer with
address `NULL` apart), the raw data, and the PID if one was sent. -/
structure IpcRequest.Intact (rq : IpcRequest) (u : IpcMessage) (out : RequestOut) : Prop where
  buffers : ∀ i buf, rq.buffers[i]? = some buf → ¬ (buf.Paired ∧ buf.addr = 0#64) →
    out.addrs i = buf.addr ∧ out.sizes i = buf.size
  rawData : out.rawData.read 0 rq.rawData.length = rq.rawData
  pid : rq.sendPid = true → out.pid = u.pid

/-- When a request arrives intact, over a marshal buffer that held `m` and a PID variable that held
`pid`: the address of every C buffer fits 32 bits; the raw data recurs two words further on for
every C descriptor; and the PID was there already. -/
structure IpcRequest.ArrivesIntact (rq : IpcRequest) (stack : Mem Word) (object : IpcObject)
    (m : Mem Word) (pid : BitVec 64) : Prop where
  addr : ∀ buf ∈ rq.buffers, buf.PlainIn .c → buf.addr.toNat < 2 ^ 32
  rawData : ((rq.rawDataOnwards stack object m).drop
    (2 * (descriptorsOf rq.buffers .c).length)).take rq.rawData.length = rq.rawData
  pid : rq.sendPid = true → pid = m 4 ++ m 3

section Intact

variable {rq : IpcRequest} {object : IpcObject} {stack m b : Mem Word} {u : IpcMessage}

theorem RequestUnpacked.read_rawDataOnwards (hr : rq.Accepted object)
    (hb : (rq.message stack object).Holds m b) (hu : RequestUnpacked rq object stack m b u)
    (hd : object.inDomain = false) :
    u.buffer.read (u.dataSection + 4) (rq.rawDataOnwards stack object m).length =
      rq.rawDataOnwards stack object m := by
  have hdata := hr.dataSection_session stack hd
  obtain ⟨hle, -⟩ := alignHead_le (rq.message stack object).rawDataStart
  have hlen := (rq.message stack object).length_middle m
  rw [hu.buffer, hu.dataSection]
  refine hb.read_mid ((rq.message stack object).headers ++ (rq.message stack object).middle m ++
    m.read (rq.message stack object).rawDataStart ((rq.message stack object).dataAt -
      (rq.message stack object).rawDataStart) ++ [sfci, 0#32, rq.requestId, 0#32]) _ [] ?_ ?_ rfl
  · simp [PackMessage.layout, PackMessage.headers, PackMessage.back, hdata, IpcRequest.rawDataOnwards]
  · simp only [PackMessage.headers, length_append, length_cons, length_nil,
      Mem.length_read, PackMessage.dataAt]
    omega

theorem RequestUnpacked.read_rawData (hr : rq.Accepted object)
    (hb : (rq.message stack object).Holds m b) (hu : RequestUnpacked rq object stack m b u)
    (hd : object.inDomain = false) :
    u.buffer.read (u.dataSection + 4 + 2 * (rq.message stack object).numC) (rq.rawDataSize / 4) =
      ((rq.rawDataOnwards stack object m).drop (2 * (descriptorsOf rq.buffers .c).length)).take
        rq.rawData.length := by
  rw [← rq.rawData_words]
  refine Mem.read_drop (hu.read_rawDataOnwards hr hb hd) ?_
  simp only [IpcRequest.rawDataOnwards, length_append, length_cWords]
  show 2 * (descriptorsOf rq.buffers .c).length + _ ≤ _ + (_ + (_ + 2 * (descriptorsOf rq.buffers .c).length))
  omega

theorem receivedAddr_eq_iff {buf : IpcBuffer} :
    buf.receivedAddr = buf.addr ↔ (buf.PlainIn .c → buf.addr.toNat < 2 ^ 32) := by
  unfold IpcBuffer.receivedAddr
  split_ifs with hc
  · rw [wireAddrC_eq_iff]
    simp [hc]
  · simp [hc]

theorem RequestUnpacked.unflatten_session_out {w : World} {o : ObjPtr} (hr : rq.Accepted object)
    (ha : (rq.message stack object).Accepted) (hb : (rq.message stack object).Holds m b)
    (hu : RequestUnpacked rq object stack m b u) (hd : object.inDomain = false)
    (ho : (w.object o).isDomainObject = false)
    (hout : ipcUnflattenRequest w arrays u rq.fmt o out = .ok () out') :
    (∀ i buf, rq.buffers[i]? = some buf →
      out'.addrs i = buf.receivedAddr ∧ out'.sizes i = buf.receivedSize) ∧
    out'.rawData.read 0 rq.rawData.length =
      ((rq.rawDataOnwards stack object m).drop (2 * (descriptorsOf rq.buffers .c).length)).take
        rq.rawData.length ∧ out'.pid = out.pid := by
  obtain ⟨h, U, s, out₁, os, hU, hassign, -, -, -, rfl⟩ :=
    (hu.unflatten_session_iff hr hb hd ho).1 hout
  obtain ⟨-, -, rfl⟩ := (hu.assignBuffers_iff ha hb hU).1 hassign
  obtain ⟨rfl, -⟩ := hu.unpackAll_carries ha hb hU
  have hcell : ∀ (m₀ : Mem (BitVec 64)) (f : IpcBuffer → BitVec 64) (i : Nat) (buf : IpcBuffer),
      rq.buffers[i]? = some buf → m₀.write 0 (rq.buffers.map f) i = f buf := by
    intro m₀ f i buf hi
    have hget : (rq.buffers.map f)[i]? = some (f buf) := by rw [getElem?_map, hi]; rfl
    rw [← Mem.eq_of_getElem? (m₀.read_write_self 0 (rq.buffers.map f)) hget, Nat.zero_add]
  refine ⟨fun i buf hi => ⟨hcell _ _ i buf hi, hcell _ _ i buf hi⟩, ?_, rfl⟩
  rw [← hu.read_rawData hr hb hd, rq.rawData_words]
  have hself := out.rawData.read_write_self 0
    (u.buffer.read (u.dataSection + 4 + 2 * (rq.message stack object).numC) (rq.rawDataSize / 4))
  rwa [Mem.length_read] at hself

end Intact

/-- **Intact delivery.** A session request that the server accepts arrives as it was sent exactly
when no C buffer has an address past 32 bits, the words two further on for every C descriptor
happen to be the raw data again, and a PID that was sent was already where it should be put. -/
theorem request_intact_iff {w : World} {o : ObjPtr} {rq : IpcRequest} {object : IpcObject}
    {handles : Mem Handle} {stack m : Mem Word} {c : Cursor Word} {arrays : Family → Mem IpcBuffer}
    {out out' : RequestOut} (hpack : ipcPackRequest handles stack rq object ⟨m, 0⟩ = .ok () c)
    (hd : object.inDomain = false) (ho : (w.object o).isDomainObject = false)
    (hout : ipcUnflattenRequest w arrays (ipcUnpack c.buffer) rq.fmt o out = .ok () out') :
    rq.Intact (ipcUnpack c.buffer) out' ↔ rq.ArrivesIntact stack object m out.pid := by
  have hrep := representable_of_accepted hout
  obtain ⟨hr, ha, rfl⟩ := ipcPackRequest_eq_ok hpack
  have hb := (rq.message stack object).holds_write m
  have hu := unpack_request hr ha hb hrep.countsFit (Nat.lt_succ_of_le hrep.c)
  obtain ⟨hbufs, hraw, hpid⟩ := hu.unflatten_session_out hr ha hb hd ho hout
  constructor
  · intro hi
    refine ⟨fun buf hmem => receivedAddr_eq_iff.1 ?_, ?_, ?_⟩
    · by_cases hc : buf.PlainIn .c
      · obtain ⟨i, hget⟩ := mem_iff_getElem?.1 hmem
        have harrived := hi.buffers i buf hget fun hnull => hc.not_paired hnull.1
        exact (hbufs i buf hget).1.symm.trans harrived.1
      · simp [IpcBuffer.receivedAddr, hc]
    · exact hraw.symm.trans hi.rawData
    · intro hp
      exact hpid.symm.trans ((hi.pid hp).trans (hu.pid hp))
  · intro hi
    refine ⟨fun i buf hget hnull => ⟨?_, ?_⟩, hraw.trans hi.rawData, ?_⟩
    · have hmem := mem_of_getElem? hget
      exact (hbufs i buf hget).1.trans (receivedAddr_eq_iff.2 (hi.addr buf hmem))
    · rw [(hbufs i buf hget).2]
      simp [IpcBuffer.receivedSize, hnull]
    · intro hp
      exact hpid.trans ((hi.pid hp).trans (hu.pid hp).symm)

/-- A request with one A buffer. -/
def oneA : IpcRequest where
  type := 4
  buffers := [⟨0x7100000000, 0x100, 0x5⟩]
  requestId := 3
  rawData := [1, 2]
  rawDataSize := 8
  sendPid := false
  copyHandles := []
  moveHandles := []
  objects := []
  closeObject := false
  rawData_words := rfl

theorem oneA_intact : ∃ c out', ipcPackRequest (fun _ => 0) (fun _ => 0) oneA ⟨-1, 0x10, false⟩
      ⟨fun _ => 0, 0⟩ = .ok () c ∧
    ipcUnflattenRequest twoSessions (fun _ _ => nullBuffer) (ipcUnpack c.buffer) oneA.fmt (.user 1)
      noOut = .ok () out' ∧ oneA.Intact (ipcUnpack c.buffer) out' := by
  obtain ⟨_, c, h⟩ := succeeded_iff.1 (show succeeded (ipcPackRequest (fun _ => 0) (fun _ => 0)
    oneA ⟨-1, 0x10, false⟩ ⟨fun _ => 0, 0⟩) = true by decide)
  obtain ⟨_, out', hout⟩ := succeeded_iff.1 (show succeeded (ipcUnflattenRequest twoSessions
    (fun _ _ => nullBuffer) (ipcUnpack c.buffer) oneA.fmt (.user 1) noOut) = true by
      obtain ⟨-, -, rfl⟩ := ipcPackRequest_eq_ok h
      decide +kernel)
  exact ⟨c, out', h, hout, (request_intact_iff h rfl rfl hout).2 ⟨by decide, by decide, by decide⟩⟩

/-- A request with a C buffer past 32 bits, raw data and a PID. -/
def oneC : IpcRequest where
  type := 4
  buffers := [⟨0x7100000000, 0x100, 0xA⟩]
  requestId := 3
  rawData := [1, 2]
  rawDataSize := 8
  sendPid := true
  copyHandles := []
  moveHandles := []
  objects := []
  closeObject := false
  rawData_words := rfl

/-- The buffer arrives at address `0x71`, the raw data as two padding words, the PID not at all. -/
theorem oneC_not_intact : ∃ c out', ipcPackRequest (fun _ => 0) (fun _ => 0) oneC ⟨-1, 0x10, false⟩
      ⟨fun _ => 7, 0⟩ = .ok () c ∧
    ipcUnflattenRequest twoSessions (fun _ _ => nullBuffer) (ipcUnpack c.buffer) oneC.fmt (.user 1)
      noOut = .ok () out' ∧ out'.addrs 0 = 0x71 ∧ out'.rawData.read 0 2 ≠ oneC.rawData ∧
      out'.pid ≠ (ipcUnpack c.buffer).pid := by
  obtain ⟨_, c, h⟩ := succeeded_iff.1 (show succeeded (ipcPackRequest (fun _ => 0) (fun _ => 0)
    oneC ⟨-1, 0x10, false⟩ ⟨fun _ => 7, 0⟩) = true by decide)
  obtain ⟨_, out', hout⟩ := succeeded_iff.1 (show succeeded (ipcUnflattenRequest twoSessions
    (fun _ _ => nullBuffer) (ipcUnpack c.buffer) oneC.fmt (.user 1) noOut) = true by
      obtain ⟨-, -, rfl⟩ := ipcPackRequest_eq_ok h
      decide +kernel)
  refine ⟨c, out', h, hout, ?_⟩
  have hrep := representable_of_accepted hout
  obtain ⟨hr, ha, rfl⟩ := ipcPackRequest_eq_ok h
  have hb := (oneC.message (fun _ => 0) ⟨-1, 0x10, false⟩).holds_write fun _ => 7
  have hu := unpack_request hr ha hb hrep.countsFit (Nat.lt_succ_of_le hrep.c)
  obtain ⟨hbufs, hraw, hpid⟩ := hu.unflatten_session_out hr ha hb rfl rfl hout
  refine ⟨(hbufs 0 _ rfl).1.trans (by decide), ?_, ?_⟩
  · rw [show 2 = oneC.rawData.length from rfl, hraw]
    decide
  · intro heq
    exact absurd (hpid.symm.trans (heq.trans (hu.pid rfl))) (by decide)

end LibTransistor
