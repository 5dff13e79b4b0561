import LibTransistor.Ipc.MessageReads
import LibTransistor.Ipc.Buffers

/-!
# Hostile messages

A message is copied into the `0x100` bytes of `message_buffer`, and every number in it is the
client's: where the data section starts is the sum of five 4-bit counts, where the C descriptors
start is that plus a 10-bit size. Nothing compares either with the size of the buffer.

* `FitsRequest` — which messages are unflattened without a read outside, for every format.
* `FitsBuffer` — which messages are received without a read outside (`reads_within_iff`).
-/

namespace LibTransistor

open Fallible Reading Bits

variable {σ : Type} {i n u16 : Nat} {o : ObjPtr} {w : World} {arrays : Family → Mem IpcBuffer}
  {msg : IpcMessage} {fmt : IpcRequestFmt} {toDomain : Bool} {out : RequestOut} {u : DescArrays}

/-! ## The sections of a message -/

/-- Where the parts of an unpacked message are: handles and descriptors before word `before`, the
data section at the next multiple of four, and the C descriptors `rawDataSectionSize` words behind
`before`. -/
structure IpcMessage.Sections (msg : IpcMessage) (before : Nat) : Prop where
  copyHandles : msg.copyHandles.getD 0 + msg.numCopyHandles ≤ before
  moveHandles : msg.moveHandles.getD 0 + msg.numMoveHandles ≤ before
  xDescriptors : msg.xDescriptors + 2 * msg.numXDescriptors ≤ before
  abDescriptors : msg.aDescriptors + 3 * (msg.numADescriptors + msg.numBDescriptors) ≤ before
  before_le : before ≤ msg.dataSection
  lt_before : msg.dataSection < before + 4
  aligned : msg.dataSection % 4 = 0
  cDescriptors : msg.cDescriptors = before + msg.rawDataSectionSize
  size_lt : msg.rawDataSectionSize < 1024
  flags_lt : msg.cDescriptorFlags < 16

/-- Whatever the words are, `ipc_unpack` puts the sections one behind the other. -/
theorem unpack_sections (m : Mem Word) : ∃ before, (ipcUnpack m).Sections before := by
  have hhandles : ∀ has, ((unpackHandles m has 2).copyHandles.getD 0 +
      (unpackHandles m has 2).numCopyHandles ≤ (unpackHandles m has 2).h) ∧
      ((unpackHandles m has 2).moveHandles.getD 0 + (unpackHandles m has 2).numMoveHandles ≤
        (unpackHandles m has 2).h) := by
    intro has
    unfold unpackHandles
    cases has <;> simp
  obtain ⟨hcopy, hmove⟩ := hhandles (m 1 >>> 31 ≠ 0#32)
  refine ⟨(ipcUnpack m).wDescriptors + (ipcUnpack m).numWDescriptors * 3, ?_⟩
  unfold ipcUnpack unpackedMessage
  have halign := alignHead_le ((unpackHandles m (m 1 >>> 31 ≠ 0#32) 2).h +
    ((m 0 >>> 16) &&& 0xF#32).toNat * 2 + ((m 0 >>> 20) &&& 0xF#32).toNat * 3 +
    ((m 0 >>> 24) &&& 0xF#32).toNat * 3 + ((m 0 >>> 28) &&& 0xF#32).toNat * 3)
  have hsize : (m 1 &&& 0b1111111111#32).toNat < 1024 := toNat_and_mask_lt _ _ 10 rfl
  have hflags : ((m 1 >>> 10) &&& 0xF#32).toNat < 16 := toNat_and_mask_lt _ _ 4 rfl
  refine ⟨?_, ?_, ?_, ?_, halign.1, halign.2, ?_, rfl, hsize, hflags⟩
  all_goals dsimp only
  · omega
  · omega
  · omega
  · omega
  · unfold alignHead
    omega

/-! ## What the parts of `ipc_unflatten_request` read -/

/-- The word in which the magic is expected. -/
def IpcMessage.magicAt (msg : IpcMessage) (toDomain : Bool) : Nat :=
  msg.dataSection + if toDomain then 4 else 0

theorem readDomainHeader_run (msg : IpcMessage) (toDomain : Bool) :
    (readDomainHeader msg toDomain : Reading ResultT RequestOut Word).run =
      pure (if toDomain then msg.domainHeader else 0#32) := by
  cases toDomain <;> rfl

theorem readDomainHeader_within :
    Within 64 (readDomainHeader msg toDomain) out ↔ (toDomain = true → msg.dataSection + 1 < 64) := by
  cases toDomain with
  | true =>
    simp only [readDomainHeader, if_true, within_word_bind, within_pure, and_true, true_imp_iff]
    omega
  | false => exact ⟨fun _ h => absurd h Bool.false_ne_true, fun _ => within_pure _⟩

/-- The magic is the last word that is compared: what is in front of it fits too. -/
theorem readCheckRequest_within :
    Within 64 (readCheckRequest msg fmt toDomain) out ↔ msg.magicAt toDomain < 64 := by
  unfold readCheckRequest
  rw [within_pure_bind (readDomainHeader_run msg toDomain), readDomainHeader_within, within_word_bind]
  constructor
  · rintro ⟨-, hmagic, -⟩
    exact hmagic
  · intro hmagic
    refine ⟨fun hd => ?_, hmagic, within_lift _⟩
    unfold IpcMessage.magicAt at hmagic
    rw [if_pos hd] at hmagic
    omega

theorem readDescriptors_within {s : σ} {width : Nat} {decode : Decoder} {src h : Nat}
    {arr : Mem IpcBuffer} :
    Within 64 (readDescriptors width decode msg.buffer src n i h arr) s ↔
      ∀ k < width * n, src + h + k < 64 := by
  induction n generalizing i h arr with
  | zero => exact ⟨fun _ k hk => absurd hk (Nat.not_lt_zero k), fun _ => within_pure _⟩
  | succ n ih =>
    rw [readDescriptors, within_words_bind, ih, Nat.mul_succ]
    constructor
    · rintro ⟨hfirst, hrest⟩ k hk
      by_cases hwidth : k < width
      · exact hfirst k hwidth
      · have hk := hrest (k - width) (by omega)
        omega
    · intro hall
      refine ⟨fun k hk => hall k (by omega), fun k hk => ?_⟩
      have hk := hall (width + k) (by omega)
      omega

/-- All descriptors are read, before any is compared with the format. -/
theorem readAllDescriptors_within {s : σ} :
    Within 64 (readAllDescriptors msg arrays) s ↔
      (∀ k < 2 * msg.numXDescriptors, msg.xDescriptors + k < 64) ∧
      (∀ k < 3 * (msg.numADescriptors + msg.numBDescriptors), msg.aDescriptors + k < 64) ∧
      ∀ n, numCDescriptors msg.cDescriptorFlags = some n →
        ∀ k < 2 * n, msg.cDescriptors + k < 64 := by
  unfold readAllDescriptors
  rw [within_pure_bind (readDescriptors_run decodeX_reads msg _ _ _ _ _), readDescriptors_within,
    within_pure_bind (readDescriptors_run decodeAB_reads msg _ _ _ _ _), readDescriptors_within,
    within_pure_bind (readDescriptors_run decodeAB_reads msg _ _ _ _ _), readDescriptors_within,
    unpackDescriptors_fst, Nat.zero_add]
  refine and_congr_right fun _ => ?_
  -- the A and B descriptors lie next to each other
  have hab : (∀ k < 3 * (msg.numADescriptors + msg.numBDescriptors), msg.aDescriptors + k < 64) ↔
      (∀ k < 3 * msg.numADescriptors, msg.aDescriptors + k < 64) ∧
        ∀ k < 3 * msg.numBDescriptors, msg.aDescriptors + 3 * msg.numADescriptors + k < 64 := by
    constructor
    · intro h
      refine ⟨fun k hk => h k (by omega), fun k hk => ?_⟩
      have hk := h (3 * msg.numADescriptors + k) (by omega)
      omega
    · rintro ⟨ha, hb⟩ k hk
      by_cases hka : k < 3 * msg.numADescriptors
      · exact ha k hka
      · have hk := hb (k - 3 * msg.numADescriptors) (by omega)
        omega
  rw [hab, and_assoc]
  refine and_congr_right fun _ => and_congr_right fun _ => ?_
  cases numCDescriptors msg.cDescriptorFlags with
  | none => exact ⟨fun _ n hn => (by cases hn), fun _ => within_lift _⟩
  | some numC =>
    rw [within_pure_bind (readDescriptors_run decodeC_reads msg _ _ _ _ _), readDescriptors_within]
    constructor
    · rintro ⟨hc, -⟩ n hn
      cases hn
      exact hc
    · exact fun h => ⟨h numC rfl, within_pure _⟩

theorem readObjects_within {resolve : Word → Except ResultT ObjPtr} {src : Nat}
    (h : ∀ k < n, src + (i + k) < 64) : Within 64 (readObjects resolve msg.buffer src n i) out := by
  induction n generalizing i out with
  | zero => exact within_pure _
  | succ n ih =>
    rw [readObjects, within_word_bind]
    refine ⟨h 0 (by omega), within_lift_bind.2 fun o out₁ _ => within_lift_bind.2 fun _ out₂ _ => ?_⟩
    refine ih fun k hk => ?_
    have hk := h (k + 1) (by omega)
    omega

/-- The words of the raw data, read from the head `h` on. -/
def IpcMessage.rawAt (msg : IpcMessage) (toDomain : Bool) (h : Nat) : Nat :=
  msg.dataSection + (if toDomain then 8 else 4) + h

variable {object : ServerObject} {h : Nat}

theorem readOut_within (hcopy : ∀ i < fmt.numCopyHandles, msg.copyHandles.getD 0 + i < 64)
    (hmove : ∀ i < fmt.numMoveHandles + (if object.isDomainObject then 0 else fmt.numObjects),
      msg.moveHandles.getD 0 + i < 64)
    (hraw : ∀ i < fmt.rawDataSize / 4, msg.rawAt object.isDomainObject h + i < 64)
    (hids : object.isDomainObject = true →
      ∀ i < fmt.numObjects, msg.dataSection + (h + fmt.rawDataSize / 4) + i < 64) :
    Within 64 (readOut w msg fmt object h) out := by
  unfold readOut
  rw [within_words_bind]
  refine ⟨hcopy, within_lift_bind.2 fun _ out₁ _ => within_bind.2 ⟨?_, fun _ out₂ _ => ?_⟩⟩
  · unfold readHandleObjects
    split_ifs with hd
    · exact within_pure _
    · refine readObjects_within fun k hk => ?_
      rw [Nat.zero_add]
      exact hmove k (by rw [if_neg hd]; omega)
  · rw [within_words_bind]
    refine ⟨fun i hi => ?_, within_words_bind.2 ⟨hraw, within_lift_bind.2 fun _ out₃ _ => ?_⟩⟩
    · rw [Nat.add_assoc]
      exact hmove _ (by omega)
    · unfold readIdObjects
      split_ifs with hd
      · refine readObjects_within fun k hk => ?_
        rw [Nat.zero_add]
        exact hids hd k hk
      · exact within_pure _

theorem raw_within_of_readOut (hto : object.isDomainObject = toDomain)
    (hreads : Within 64 (readOut w msg fmt object h) out)
    (hobjects : toDomain = true ∨ fmt.numObjects = 0) :
    ∀ i < fmt.rawDataSize / 4, msg.rawAt toDomain h + i < 64 := by
  subst hto
  have hrun : ∀ out, (readHandleObjects w msg fmt object).run out = .ok () out := by
    intro out
    unfold readHandleObjects
    rcases hobjects with hd | hnone
    · rw [if_pos hd]
      rfl
    · rw [hnone]
      split_ifs <;> rfl
  obtain ⟨-, hreads⟩ := within_words_bind.1 hreads
  have hreads := (within_bind.1 (within_lift_bind.1 hreads () _ rfl)).2 () _ (hrun _)
  obtain ⟨-, hreads⟩ := within_words_bind.1 hreads
  exact (within_words_bind.1 hreads).1

/-! ## The whole -/

/-- What is read depends on how far the checks let a message get. -/
theorem readUnflatten_within (hto : (w.object o).isDomainObject = toDomain)
    (hsize : fmt.rawDataSize % 4 = 0) :
    Within 64 (readUnflatten w arrays msg fmt o) out ↔
      msg.magicAt toDomain < 64 ∧
        (RequestChecked msg fmt toDomain →
          Within 64 (readAllDescriptors msg arrays) out ∧
          ∀ h u s out₁, unpackAll msg arrays = .ok (h, u) →
            assignBuffers u 0 fmt.bufferTypes ⟨fun _ => 0, 0⟩ (out.cleared fmt.bufferTypes.length) =
              .ok s out₁ →
            declaredRawWords msg (if toDomain then 4 + fmt.numObjects else 0) s.u16Count =
              fmt.rawDataSize / 4 →
            fmt.numObjects ≤ 8 → Within 64 (readOut w msg fmt (w.object o) h) out₁) := by
  subst hto
  have hcheck : ∀ {s t : RequestOut},
      (readCheckRequest msg fmt (w.object o).isDomainObject).run s = .ok () t ↔
        RequestChecked msg fmt (w.object o).isDomainObject ∧ t = s := by
    intro s t
    rw [readCheckRequest_run, checkRequest_eq_ok]
  unfold readUnflatten
  rw [within_failIf_bind, within_check_bind hcheck, readCheckRequest_within]
  refine (imp_iff_right (not_not.2 hsize)).trans (and_congr_right fun _ => imp_congr_right fun _ => ?_)
  rw [within_bind, readAllDescriptors_run]
  refine and_congr_right fun _ => ?_
  constructor
  · intro hreads h u s out₁ hunpack hassign hdeclared hobjects
    have hreads := hreads (h, u) out (runPure_eq_ok.2 ⟨hunpack, rfl⟩)
    have hreads := within_lift_bind.1 (within_lift_bind.1 hreads () _ rfl) s out₁ hassign
    exact within_failIf_bind.1 (within_failIf_bind.1 hreads (not_not.2 hdeclared)) (by omega)
  · rintro hreads ⟨h, u⟩ out' hunpack
    obtain ⟨hunpacked, rfl⟩ := runPure_eq_ok.1 hunpack
    refine within_lift_bind.2 fun _ out₀ hclear => within_lift_bind.2 fun s out₁ hassign => ?_
    cases hclear
    refine within_failIf_bind.2 fun hdeclared => within_failIf_bind.2 fun hobjects => ?_
    exact hreads h u s out₁ hunpacked hassign (not_not.1 hdeclared) (by omega)

/-! ## The numbers that formats are compared with -/

theorem pick_u16Count {s s' : Assigned} {type : BitVec 32} {desc : IpcBuffer}
    (hpick : pickDescriptor u s type = .ok (desc, s')) (hle : s.u16Count ≤ s.used .c)
    (hused : s.used .c ≤ u.count .c) : s'.u16Count ≤ s'.used .c ∧ s'.used .c ≤ u.count .c := by
  unfold pickDescriptor at hpick
  split_ifs at hpick with hplain hin hfull hout hfull
  · cases hf : plainFamily type with
    | none => rw [hf] at hpick; cases hpick
    | some l =>
      simp only [hf] at hpick
      split_ifs at hpick with hcount hc
      · subst hc
        cases hpick
        simp only [DescArrays.plainCount] at hcount
        simp only [Assigned.list_u16Count, Assigned.list_used, Assigned.use_used,
          Assigned.use_u16Count]
        split_ifs <;> omega
      · cases hpick
        simp only [Assigned.use_used, Assigned.use_u16Count, if_neg (Ne.symm hc)]
        omega
  · rw [choosePaired_map hpick]
    simpa using ⟨hle, hused⟩
  · rw [choosePaired_map hpick]
    simp only [Assigned.list_u16Count, Assigned.list_used, Assigned.use_used,
      Assigned.use_u16Count, reduceCtorEq, if_false]
    split_ifs <;> omega

/-- The length list has no more entries than there are C descriptors. -/
theorem assignBuffers_u16Count {types : List (BitVec 32)} {s s' : Assigned} {out' : RequestOut}
    (hassign : assignBuffers u i types s out = .ok s' out') (hle : s.u16Count ≤ s.used .c)
    (hused : s.used .c ≤ u.count .c) : s'.u16Count ≤ u.count .c := by
  induction types generalizing i s out with
  | nil =>
    obtain ⟨rfl, -⟩ := pure_eq_ok.1 hassign
    exact hle.trans hused
  | cons type types ih =>
    rw [assignBuffers, runPure_bind_eq_ok] at hassign
    obtain ⟨⟨desc, s₁⟩, hpick, hassign⟩ := hassign
    obtain ⟨-, hassign⟩ := failIf_bind_eq_ok.1 hassign
    obtain ⟨hle₁, hused₁⟩ := pick_u16Count hpick hle hused
    exact ih hassign hle₁ hused₁

/-- As many C buffers with an entry in the length list as there are C descriptors are accepted. -/
theorem exists_assignBuffers {k : Nat} {s : Assigned} (hk : s.used .c + k ≤ u.count .c)
    (out : RequestOut) :
    ∃ s' out', assignBuffers u i (List.replicate k 0xA#32) s out = .ok s' out' ∧
      s'.u16Count = s.u16Count + k := by
  induction k generalizing i s out with
  | zero => exact ⟨s, out, rfl, rfl⟩
  | succ k ih =>
    have hpick : pickDescriptor u s 0xA#32 =
        .ok (u.descs .c (s.used .c), (s.use .c).list 0xA#32) := by
      have hfree : ¬ s.used .c ≥ u.plainCount .c := by
        show ¬ u.count .c ≤ s.used .c
        omega
      have hfamily : plainFamily 0xA#32 = some .c := by decide
      unfold pickDescriptor
      rw [if_pos (by decide), hfamily]
      dsimp only
      rw [if_neg hfree, if_pos rfl]
    have hnext : ((s.use .c).list 0xA#32).used .c + k ≤ u.count .c := by
      simp only [Assigned.list_used, Assigned.use_used, if_true]
      omega
    obtain ⟨s', out', hassign, hcount⟩ := ih hnext { out with
      addrs := Function.update out.addrs i (u.descs .c (s.used .c)).addr
      sizes := Function.update out.sizes i (u.descs .c (s.used .c)).size }
    refine ⟨s', out', ?_, ?_⟩
    · rw [List.replicate_succ, assignBuffers, runPure_bind_of_ok hpick]
      exact hassign
    · rw [hcount, Assigned.list_u16Count, Assigned.use_u16Count, if_pos (by decide)]
      omega

theorem declaredRawWords_small {k : Nat} (hn : n < 2 ^ 16) (hk : k ≤ 16) (hu16 : u16 ≤ 13)
    (hsize : msg.rawDataSectionSize < 1024) (h : declaredRawWords msg k u16 = n) :
    msg.rawDataSectionSize = 8 + k + (u16 + 1) / 2 + n := by
  unfold declaredRawWords at h
  simp only [BitVec.toNat_sub, BitVec.toNat_ofNat] at h
  omega

theorem declaredRawWords_wraps (hu16 : u16 ≤ 13)
    (hsize : msg.rawDataSectionSize < 8 + (u16 + 1) / 2) : 64 < declaredRawWords msg 0 u16 := by
  unfold declaredRawWords
  simp only [BitVec.toNat_sub, BitVec.toNat_ofNat]
  omega

/-- `domain_header.payload_size`. -/
def domainPayloadSize (dhead : Word) : Nat := ((dhead >>> 16) &&& 0xFFFF#32).toNat

theorem domainPayloadSize_lt (dhead : Word) : domainPayloadSize dhead < 2 ^ 16 :=
  toNat_and_mask_lt _ _ 16 rfl

theorem domainRawDataSize_eq (dhead : Word) :
    domainRawDataSize dhead =
      if 4 ≤ domainPayloadSize dhead then domainPayloadSize dhead - 4
      else 2 ^ 64 + domainPayloadSize dhead - 4 := by
  have hlt := domainPayloadSize_lt dhead
  unfold domainRawDataSize
  rw [BitVec.toNat_sub, BitVec.toNat_setWidth, BitVec.toNat_ofNat]
  unfold domainPayloadSize at hlt ⊢
  split_ifs <;> omega

/-! ## Which messages can be unflattened -/

namespace IpcMessage

/-- For some format, a message gets as far as its `n` C descriptors. -/
structure Passes (msg : IpcMessage) (toDomain : Bool) (n : Nat) : Prop where
  magic : msg.buffer (msg.magicAt toDomain) = sfci
  payload : toDomain = true → domainPayloadSize msg.domainHeader % 4 = 0
  numC : numCDescriptors msg.cDescriptorFlags = some n

/-- The numbers in a message keep `ipc_unflatten_request` inside the buffer. -/
structure FitsRequest (msg : IpcMessage) (toDomain : Bool) : Prop where
  magic : msg.magicAt toDomain < 64
  cDescriptors : ∀ n, msg.Passes toDomain n → 0 < n → msg.cDescriptors + 2 * n ≤ 64
  /-- In a session any size of the raw data that the message declares is the size of some format;
  the length list may take up half a word for each C descriptor. -/
  sessionRaw : toDomain = false → ∀ n, msg.Passes toDomain n →
    8 + (n + 1) / 2 ≤ msg.rawDataSectionSize ∧
      msg.rawAt toDomain (2 * n) + (msg.rawDataSectionSize - 8) ≤ 64
  /-- In a domain the size of the raw data is declared twice. -/
  domainRaw : toDomain = true → ∀ n, msg.Passes toDomain n → ∀ rawWords,
    domainPayloadSize msg.domainHeader = 4 + 4 * rawWords →
    domainNumObjects msg.domainHeader ≤ 8 →
    12 + domainNumObjects msg.domainHeader + rawWords ≤ msg.rawDataSectionSize →
    msg.rawDataSectionSize ≤
      12 + domainNumObjects msg.domainHeader + rawWords + (n + 1) / 2 →
    msg.rawAt toDomain (2 * n) + rawWords ≤ 64

end IpcMessage

variable {before k size : Nat}

theorem IpcMessage.magicAt_eq : msg.magicAt toDomain = msg.dataSection + if toDomain then 4 else 0 :=
  rfl

theorem IpcMessage.rawAt_eq (h : Nat) :
    msg.rawAt toDomain h = msg.dataSection + (if toDomain then 8 else 4) + h := rfl

theorem passes_of_checked (hsize : fmt.rawDataSize % 4 = 0)
    (hchecked : RequestChecked msg fmt toDomain)
    (hn : numCDescriptors msg.cDescriptorFlags = some n) : msg.Passes toDomain n := by
  refine ⟨hchecked.magic, fun hd => ?_, hn⟩
  have hraw := hchecked.payload hd
  rw [domainRawDataSize_eq] at hraw
  split_ifs at hraw <;> omega

theorem IpcMessage.Sections.before_lt (hs : msg.Sections before)
    (hmagic : msg.magicAt toDomain < 64) : before < 64 := by
  have hle := hs.before_le
  rw [IpcMessage.magicAt_eq] at hmagic
  omega

theorem descriptors_within {s : σ} (hs : msg.Sections before) (hmagic : msg.magicAt toDomain < 64)
    (hc : ∀ n, numCDescriptors msg.cDescriptorFlags = some n → 0 < n →
      msg.cDescriptors + 2 * n ≤ 64) : Within 64 (readAllDescriptors msg arrays) s := by
  have hbefore := hs.before_lt hmagic
  have hx := hs.xDescriptors
  have hab := hs.abDescriptors
  rw [readAllDescriptors_within]
  refine ⟨fun k hk => by omega, fun k hk => by omega, fun n hn k hk => ?_⟩
  have hc := hc n hn (by omega)
  omega

/-- The raw data that a format expects ends inside the buffer if the message fits. -/
theorem rawAt_le (hs : msg.Sections before) (hfits : msg.FitsRequest toDomain)
    (hsize : fmt.rawDataSize % 4 = 0) (hchecked : RequestChecked msg fmt toDomain)
    (hn : numCDescriptors msg.cDescriptorFlags = some n) (hu16 : u16 ≤ n)
    (hdeclared : declaredRawWords msg (if toDomain then 4 + fmt.numObjects else 0) u16 =
      fmt.rawDataSize / 4) (hobjects : fmt.numObjects ≤ 8) :
    msg.rawAt toDomain (2 * n) + fmt.rawDataSize / 4 ≤ 64 := by
  have hpasses := passes_of_checked hsize hchecked hn
  have hn13 := (numCDescriptors_le hs.flags_lt hn).1
  have hsection := hs.size_lt
  cases toDomain with
  | false =>
    obtain ⟨hge, hle⟩ := hfits.sessionRaw rfl n hpasses
    have hwords : declaredRawWords msg 0 u16 = msg.rawDataSectionSize - 8 - (u16 + 1) / 2 :=
      declaredRawWords_eq (by omega) hsection
    rw [← hdeclared, if_neg (by decide)]
    omega
  | true =>
    have hdn := hchecked.objects rfl
    have hpayload := hchecked.payload rfl
    have hlt := domainPayloadSize_lt msg.domainHeader
    have hdeclared_lt : declaredRawWords msg (4 + fmt.numObjects) u16 < 2 ^ 32 := BitVec.isLt _
    rw [if_pos rfl] at hdeclared
    rw [domainRawDataSize_eq] at hpayload
    -- a payload without a command header would be huge
    split_ifs at hpayload with hfour
    · have heq := declaredRawWords_small (by omega) (by omega) (by omega) hsection hdeclared
      exact hfits.domainRaw rfl n hpasses _ (by omega) (by omega) (by omega) (by omega)
    · omega

/-- **Messages that fit are unflattened inside the buffer**, whatever the format. -/
theorem unflatten_within (hs : msg.Sections before)
    (hfits : msg.FitsRequest (w.object o).isDomainObject) :
    Within 64 (readUnflatten w arrays msg fmt o) out := by
  by_cases hsize : fmt.rawDataSize % 4 = 0
  · rw [readUnflatten_within rfl hsize]
    refine ⟨hfits.magic, fun hchecked => ⟨?_, ?_⟩⟩
    · refine descriptors_within hs hfits.magic fun n hn hpos => ?_
      exact hfits.cDescriptors n (passes_of_checked hsize hchecked hn) hpos
    · intro h u s out₁ hunpack hassign hdeclared hobjects
      obtain ⟨-, -, -, hn, rfl⟩ := unpackAll_count hunpack
      have hu16 := assignBuffers_u16Count hassign le_rfl (Nat.zero_le _)
      have hraw := rawAt_le hs hfits hsize hchecked hn hu16 hdeclared hobjects
      have hbefore := hs.before_lt hfits.magic
      have hcopy := hs.copyHandles
      have hmove := hs.moveHandles
      rw [hchecked.copy] at hcopy
      rw [hchecked.move] at hmove
      refine readOut_within (fun i hi => by omega) (fun i hi => by omega) (fun i hi => by omega)
        fun hd i hi => ?_
      rw [IpcMessage.rawAt_eq, hd, if_pos rfl] at hraw
      omega
  · exact within_failIf_bind.2 fun h => absurd hsize h

/-- A format made for a message: `k` C buffers, and `size` bytes of raw data. -/
def probeFmt (msg : IpcMessage) (toDomain : Bool) (k size : Nat) : IpcRequestFmt where
  bufferTypes := List.replicate k 0xA#32
  rawDataSize := size
  sendPid := msg.hasPid
  numCopyHandles := msg.numCopyHandles
  numMoveHandles := msg.numMoveHandles
  numObjects := if toDomain then domainNumObjects msg.domainHeader else 0

theorem probeFmt_checked (hpasses : msg.Passes toDomain n)
    (hsize : toDomain = true → domainRawDataSize msg.domainHeader = size) :
    RequestChecked msg (probeFmt msg toDomain k size) toDomain := by
  refine ⟨hpasses.magic, rfl, rfl, ?_, fun hd => ?_, hsize⟩
  · cases toDomain <;> rfl
  · rw [hd]
    rfl

section Necessary

variable (hto : (w.object o).isDomainObject = toDomain)

include hto

/-- The format made for a message is read up to the end of its raw data. -/
theorem probeFmt_raw (hpasses : msg.Passes toDomain n)
    (hreads : Within 64 (readUnflatten w arrays msg (probeFmt msg toDomain k size) o) out)
    (hmod : size % 4 = 0) (hsize : toDomain = true → domainRawDataSize msg.domainHeader = size)
    (hk : k ≤ n) (hobjects : toDomain = true → domainNumObjects msg.domainHeader ≤ 8)
    (hdeclared : declaredRawWords msg
      (if toDomain then 4 + domainNumObjects msg.domainHeader else 0) k = size / 4) :
    ∀ i < size / 4, msg.rawAt toDomain (2 * n) + i < 64 := by
  obtain ⟨u, hunpack⟩ := exists_unpackAll hpasses.numC arrays
  obtain ⟨-, -, -, hcount, -⟩ := unpackAll_count hunpack
  cases hpasses.numC.symm.trans hcount
  obtain ⟨s, out₁, hassign, hu16⟩ := exists_assignBuffers (s := ⟨fun _ => 0, 0⟩)
    (show 0 + k ≤ u.count .c by omega) (out.cleared (List.replicate k 0xA#32).length)
  obtain ⟨-, hreads⟩ := (readUnflatten_within hto hmod).1 hreads
  obtain ⟨-, hreads⟩ := hreads (probeFmt_checked hpasses hsize)
  have hreads := hreads _ u s out₁ hunpack hassign
  rw [hu16, Nat.zero_add] at hreads
  cases toDomain with
  | true => exact raw_within_of_readOut hto (hreads hdeclared (hobjects rfl)) (.inl rfl)
  | false => exact raw_within_of_readOut hto (hreads hdeclared (Nat.zero_le 8)) (.inr rfl)

variable (hreads : ∀ fmt arrays out, Within 64 (readUnflatten w arrays msg fmt o) out)

include hreads

theorem magicAt_lt_of_within : msg.magicAt toDomain < 64 := by
  have hfmt : (probeFmt msg toDomain 0 0).rawDataSize % 4 = 0 := rfl
  exact ((readUnflatten_within hto hfmt).1 (hreads _ (fun _ _ => nullBuffer) noOut)).1

theorem cDescriptors_le_of_within (hpasses : msg.Passes toDomain n) (hpos : 0 < n) :
    msg.cDescriptors + 2 * n ≤ 64 := by
  obtain ⟨size, hmod, hsize⟩ : ∃ size, size % 4 = 0 ∧
      (toDomain = true → domainRawDataSize msg.domainHeader = size) := by
    cases toDomain with
    | true =>
      have hpayload := hpasses.payload rfl
      refine ⟨_, ?_, fun _ => rfl⟩
      rw [domainRawDataSize_eq]
      split_ifs <;> omega
    | false => exact ⟨0, rfl, nofun⟩
  have hfmt : (probeFmt msg toDomain 0 size).rawDataSize % 4 = 0 := hmod
  obtain ⟨-, hchecked⟩ := (readUnflatten_within hto hfmt).1 (hreads _ (fun _ _ => nullBuffer) noOut)
  obtain ⟨hdescriptors, -⟩ := hchecked (probeFmt_checked hpasses hsize)
  have hlast := (readAllDescriptors_within.1 hdescriptors).2.2 n hpasses.numC (2 * n - 1) (by omega)
  omega

end Necessary

section Sections

variable (hs : msg.Sections before)
  (hreads : ∀ fmt arrays out, Within 64 (readUnflatten w arrays msg fmt o) out)

include hs hreads

theorem sessionRaw_of_within (hto : (w.object o).isDomainObject = false)
    (hpasses : msg.Passes false n) : 8 + (n + 1) / 2 ≤ msg.rawDataSectionSize ∧
      msg.rawAt false (2 * n) + (msg.rawDataSectionSize - 8) ≤ 64 := by
  have hn13 := (numCDescriptors_le hs.flags_lt hpasses.numC).1
  have hsection := hs.size_lt
  have hmagic := magicAt_lt_of_within hto hreads
  have haligned := hs.aligned
  -- what the format of any size that the message can declare makes the server read
  have hraw : ∀ k ≤ n, ∀ i < declaredRawWords msg 0 k, msg.rawAt false (2 * n) + i < 64 := by
    intro k hk
    have hwords : 4 * declaredRawWords msg 0 k / 4 = declaredRawWords msg 0 k := by omega
    rw [← hwords]
    exact probeFmt_raw hto hpasses (hreads _ (fun _ _ => nullBuffer) noOut) (by omega) nofun hk
      nofun hwords.symm
  have hge : 8 + (n + 1) / 2 ≤ msg.rawDataSectionSize := by
    by_contra hlt
    have hwraps := declaredRawWords_wraps (Nat.le_of_lt_succ hn13) (not_le.1 hlt)
    have hfar := hraw n le_rfl 64 hwraps
    omega
  have hwords : declaredRawWords msg 0 0 = msg.rawDataSectionSize - 8 :=
    declaredRawWords_eq (by omega) hsection
  by_cases hempty : msg.rawDataSectionSize = 8
  · rw [IpcMessage.magicAt_eq] at hmagic
    rw [IpcMessage.rawAt_eq, if_neg (by decide)]
    omega
  · have hlast := hraw 0 (Nat.zero_le n) (msg.rawDataSectionSize - 9) (by omega)
    omega

theorem domainRaw_of_within (hto : (w.object o).isDomainObject = true) (hpasses : msg.Passes true n)
    {rawWords : Nat} (hpayload : domainPayloadSize msg.domainHeader = 4 + 4 * rawWords)
    (hobjects : domainNumObjects msg.domainHeader ≤ 8)
    (hge : 12 + domainNumObjects msg.domainHeader + rawWords ≤ msg.rawDataSectionSize)
    (hle : msg.rawDataSectionSize ≤
      12 + domainNumObjects msg.domainHeader + rawWords + (n + 1) / 2) :
    msg.rawAt true (2 * n) + rawWords ≤ 64 := by
  have hsection := hs.size_lt
  have hsize : domainRawDataSize msg.domainHeader = 4 * rawWords := by
    rw [domainRawDataSize_eq, if_pos (by omega)]
    omega
  -- as many buffers in the length list as the section is longer than the raw data
  obtain ⟨k, hk, hlist⟩ : ∃ k ≤ n, msg.rawDataSectionSize =
      8 + (4 + domainNumObjects msg.domainHeader) + (k + 1) / 2 + rawWords := by
    refine ⟨min (2 * (msg.rawDataSectionSize -
      (12 + domainNumObjects msg.domainHeader + rawWords))) n, by omega, by omega⟩
  by_cases hempty : rawWords = 0
  · have hmagic := magicAt_lt_of_within hto hreads
    have haligned := hs.aligned
    have hlt := hs.lt_before
    rw [IpcMessage.magicAt_eq, if_pos rfl] at hmagic
    rw [IpcMessage.rawAt_eq, if_pos rfl]
    by_cases hn : n = 0
    · omega
    · have hc := cDescriptors_le_of_within hto hreads hpasses (by omega)
      rw [hs.cDescriptors] at hc
      omega
  · have hraw := probeFmt_raw hto hpasses (hreads _ (fun _ _ => nullBuffer) noOut)
      (Nat.mul_mod_right 4 rawWords) (fun _ => hsize) hk (fun _ => hobjects) (by
        rw [if_pos rfl, declaredRawWords_eq hlist hsection]
        omega)
    have hlast := hraw (rawWords - 1) (by omega)
    omega

/-- **Messages that do not fit** make some format read outside the buffer. -/
theorem fitsRequest_of_within (hto : (w.object o).isDomainObject = toDomain) :
    msg.FitsRequest toDomain where
  magic := magicAt_lt_of_within hto hreads
  cDescriptors _ hpasses hpos := cDescriptors_le_of_within hto hreads hpasses hpos
  sessionRaw hd _ hpasses := by
    subst hd
    exact sessionRaw_of_within hs hreads hto hpasses
  domainRaw hd _ hpasses _ hpayload hobjects hge hle := by
    subst hd
    exact domainRaw_of_within hs hreads hto hpasses hpayload hobjects hge hle

end Sections

/-! ## Receiving -/

variable {s : σ} {p : SessionPtr} {sess : Session}

theorem readUnpack_within (m : Mem Word) : Within 64 (readUnpack m) s := by
  have hhandles : ∀ has, Within 64 (readHandles m has 2) s := by
    intro has
    unfold readHandles readPid
    cases has with
    | false => exact within_pure _
    | true =>
      refine within_word_bind.2 ⟨by decide, within_bind.2 ⟨?_, fun _ _ _ => within_pure _⟩⟩
      split_ifs
      · exact within_word_bind.2 ⟨by decide, within_word_bind.2 ⟨by decide, within_pure _⟩⟩
      · exact within_pure _
  refine within_word_bind.2 ⟨by decide, within_word_bind.2 ⟨by decide, ?_⟩⟩
  exact within_bind.2 ⟨hhandles _, fun _ _ _ => within_pure _⟩

theorem not_manager (ht : msg.messageType = 4#16 ∨ msg.messageType = 0#16) :
    msg.messageType ≠ 5#16 := by
  rcases ht with ht | ht <;> rw [ht] <;> decide

theorem readDispatch_manager (ht : msg.messageType = 5#16) :
    Within 64 (readDispatch p sess msg) s ↔ msg.dataSection + 2 < 64 := by
  unfold readDispatch
  rw [if_pos ht, within_word_bind]
  exact and_iff_left (within_pure _)

theorem readDispatch_domain (ht : msg.messageType = 4#16 ∨ msg.messageType = 0#16)
    (hd : sess.isDomain = true) :
    Within 64 (readDispatch p sess msg) s ↔ msg.dataSection + 1 < 64 ∧
      ∀ o, ipcServerDomainGetObject sess.domain (msg.words msg.dataSection 1) = .ok o →
        msg.dataSection + 6 < 64 := by
  unfold readDispatch
  rw [if_neg (not_manager ht), if_pos ht, if_pos hd, within_word_bind, within_word_bind]
  change _ ↔ _ ∧ ∀ o, ipcServerDomainGetObject sess.domain (msg.buffer (msg.dataSection + 1)) = .ok o → _
  cases ipcServerDomainGetObject sess.domain (msg.buffer (msg.dataSection + 1)) with
  | error e =>
    refine ⟨fun h => ⟨h.2.1, fun o ho => by cases ho⟩, fun h => ⟨by omega, h.1, within_pure _⟩⟩
  | ok o =>
    rw [within_word_bind]
    constructor
    · rintro ⟨-, hid, hrequest, -⟩
      exact ⟨hid, fun _ _ => hrequest⟩
    · rintro ⟨hid, hrequest⟩
      exact ⟨by omega, hid, hrequest o rfl, within_pure _⟩

theorem readDispatch_session (ht : msg.messageType = 4#16 ∨ msg.messageType = 0#16)
    (hd : sess.isDomain = false) :
    Within 64 (readDispatch p sess msg) s ↔ ∀ o, sess.object = some o → msg.dataSection + 2 < 64 := by
  unfold readDispatch
  rw [if_neg (not_manager ht), if_pos ht, if_neg (by rw [hd]; decide)]
  cases sess.object with
  | none => exact ⟨fun _ o ho => (by cases ho), fun _ => within_pure _⟩
  | some o =>
    rw [within_word_bind]
    exact ⟨fun h _ _ => h.1, fun h => ⟨h o rfl, within_pure _⟩⟩

/-! ## The result -/

namespace World

/-- When session `p` receives a message that leaves `m` in its `message_buffer`, only words of the
buffer are read: by `ipc_unpack`, by the dispatch code, and by `ipc_unflatten_request` if the
message goes to a user's object, whatever the format that its handler uses. -/
structure ReadsWithin (w : World) (p : SessionPtr) (m : Mem Word) : Prop where
  unpack : Within 64 (readUnpack m) ()
  dispatch : Within 64 (readDispatch p (w.session p) (ipcUnpack m)) ()
  request : ∀ a rawData, dispatchTarget p (w.session p) (ipcUnpack m) = some (.user a, rawData) →
    ∀ fmt arrays out, Within 64 (readUnflatten w arrays (ipcUnpack m) fmt (.user a)) out

/-- If a message goes to a user's object, it fits what its handler does with it. -/
def FitsHandler (w : World) (msg : IpcMessage) (o : ObjPtr) : Prop :=
  ∀ a, o = .user a → msg.FitsRequest (w.object o).isDomainObject

/-- The numbers in a message keep the server inside the buffer. -/
structure FitsBuffer (w : World) (p : SessionPtr) (msg : IpcMessage) : Prop where
  manager : msg.messageType = 5#16 → msg.dataSection + 2 < 64
  domain : msg.messageType = 4#16 ∨ msg.messageType = 0#16 → (w.session p).isDomain = true →
    msg.dataSection + 1 < 64 ∧
      ∀ o, ipcServerDomainGetObject (w.session p).domain (msg.words msg.dataSection 1) = .ok o →
        msg.dataSection + 6 < 64 ∧ w.FitsHandler msg o
  session : msg.messageType = 4#16 ∨ msg.messageType = 0#16 → (w.session p).isDomain = false →
    ∀ o, (w.session p).object = some o → msg.dataSection + 2 < 64 ∧ w.FitsHandler msg o

end World

theorem dispatchTarget_domain
    (ht : msg.messageType = 4#16 ∨ msg.messageType = 0#16) (hd : sess.isDomain = true) :
    (∃ rawData, dispatchTarget p sess msg = some (o, rawData)) ↔
      ipcServerDomainGetObject sess.domain (msg.words msg.dataSection 1) = .ok o := by
  unfold dispatchTarget
  rw [if_neg (not_manager ht), if_pos ht, if_pos hd]
  cases ipcServerDomainGetObject sess.domain (msg.words msg.dataSection 1) <;> simp

theorem dispatchTarget_session
    (ht : msg.messageType = 4#16 ∨ msg.messageType = 0#16) (hd : sess.isDomain = false) :
    (∃ rawData, dispatchTarget p sess msg = some (o, rawData)) ↔ sess.object = some o := by
  unfold dispatchTarget
  rw [if_neg (not_manager ht), if_pos ht, if_neg (by rw [hd]; decide)]
  cases sess.object <;> simp

section FitsBuffer

variable (hfits : w.FitsBuffer p msg)

include hfits

theorem readDispatch_within : Within 64 (readDispatch p (w.session p) msg) s := by
  by_cases h5 : msg.messageType = 5#16
  · exact (readDispatch_manager h5).2 (hfits.manager h5)
  by_cases ht : msg.messageType = 4#16 ∨ msg.messageType = 0#16
  · cases hd : (w.session p).isDomain with
    | false => exact (readDispatch_session ht hd).2 fun o ho => (hfits.session ht hd o ho).1
    | true =>
      obtain ⟨hid, hobject⟩ := hfits.domain ht hd
      exact (readDispatch_domain ht hd).2 ⟨hid, fun o ho => (hobject o ho).1⟩
  · -- messages of the other types are not looked at
    unfold readDispatch
    rw [if_neg h5, if_neg ht]
    exact within_pure _

/-- A message that is dispatched to an object fits the handler of the object. -/
theorem fitsHandler_of_target {rawData : Nat}
    (htarget : dispatchTarget p (w.session p) msg = some (o, rawData)) : w.FitsHandler msg o := by
  by_cases h5 : msg.messageType = 5#16
  · -- the manager's handler unflattens nothing
    rw [dispatchTarget, if_pos h5] at htarget
    obtain ⟨rfl, -⟩ := Prod.mk.inj (Option.some.inj htarget)
    intro a ha
    cases ha
  by_cases ht : msg.messageType = 4#16 ∨ msg.messageType = 0#16
  · cases hd : (w.session p).isDomain with
    | false => exact (hfits.session ht hd o ((dispatchTarget_session ht hd).1 ⟨_, htarget⟩)).2
    | true => exact ((hfits.domain ht hd).2 o ((dispatchTarget_domain ht hd).1 ⟨_, htarget⟩)).2
  · rw [dispatchTarget, if_neg h5, if_neg ht] at htarget
    cases htarget

end FitsBuffer

/-- **Hostile messages.** Receiving a message reads only words of `message_buffer`, for every format
that a handler may use, exactly when the numbers in the message fit. -/
theorem reads_within_iff (w : World) (p : SessionPtr) (m : Mem Word) :
    w.ReadsWithin p m ↔ w.FitsBuffer p (ipcUnpack m) := by
  obtain ⟨before, hs⟩ := unpack_sections m
  constructor
  · intro h
    have hhandler : ∀ o rawData, dispatchTarget p (w.session p) (ipcUnpack m) = some (o, rawData) →
        w.FitsHandler (ipcUnpack m) o := by
      rintro _ rawData htarget a rfl
      exact fitsRequest_of_within hs (h.request a rawData htarget) rfl
    refine ⟨fun ht => (readDispatch_manager ht).1 h.dispatch, fun ht hd => ?_, fun ht hd o ho => ?_⟩
    · obtain ⟨hid, hrequest⟩ := (readDispatch_domain ht hd).1 h.dispatch
      refine ⟨hid, fun o ho => ⟨hrequest o ho, ?_⟩⟩
      obtain ⟨rawData, htarget⟩ := (dispatchTarget_domain ht hd).2 ho
      exact hhandler o rawData htarget
    · obtain ⟨rawData, htarget⟩ := (dispatchTarget_session ht hd).2 ho
      exact ⟨(readDispatch_session ht hd).1 h.dispatch o ho, hhandler o rawData htarget⟩
  · intro h
    refine ⟨readUnpack_within m, ?_, fun a rawData htarget fmt arrays out => ?_⟩
    · exact readDispatch_within h
    · exact unflatten_within hs (fitsHandler_of_target h htarget a rfl)

/-- Four descriptor counts of 15: the data section would start at word 168. -/
def fullCounts : Mem Word := fun i => if i = 0 then 0xFFFF0004#32 else 0#32

theorem fullCounts_reads_outside :
    170 ∈ (readDispatch ⟨0, 0⟩ (twoSessions.session ⟨0, 0⟩) (ipcUnpack fullCounts)).reads () ∧
      ¬ twoSessions.ReadsWithin ⟨0, 0⟩ fullCounts := by
  have hread : 170 ∈
      (readDispatch ⟨0, 0⟩ (twoSessions.session ⟨0, 0⟩) (ipcUnpack fullCounts)).reads () := by
    decide +kernel
  exact ⟨hread, fun h => absurd (h.dispatch 170 hread) (by decide)⟩

end LibTransistor
