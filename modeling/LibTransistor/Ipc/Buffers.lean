import LibTransistor.Ipc.Descriptors

/-!
# Handing descriptors out to buffers

The server walks through the buffers of its format and takes for each the next descriptor of its
family. On the descriptors of a packed request (`DescArrays.Carries`) and with the types the client
used, every buffer gets the descriptor that was made from it, or the walk stops with an error.

* `pick_eq_ok` — one buffer.
* `assignBuffers_eq_ok` — the walk ends well exactly when the buffers pass (`Passes`), and then
  every buffer receives `receivedAddr` and `receivedSize`.
* `assignBuffers_used` — no more descriptors are handed out than there are.
-/

namespace LibTransistor

open Fallible Cursor Bits List

variable {buf : IpcBuffer} {U : DescArrays} {pre post : List IpcBuffer}

variable {l : Family} {s : Assigned}

namespace IpcBuffer

/-- A buffer without flag `0x20`, of a family. -/
def PlainIn (buf : IpcBuffer) (l : Family) : Prop :=
  buf.type &&& 0x20#32 = 0#32 ∧ plainFamily buf.type = some l

instance (buf : IpcBuffer) (l : Family) : Decidable (buf.PlainIn l) := by
  unfold PlainIn; infer_instance

/-- A buffer that travels as two descriptors, one of them null. -/
def Paired (buf : IpcBuffer) : Prop := buf.type = 0x21#32 ∨ buf.type = 0x22#32

instance (buf : IpcBuffer) : Decidable buf.Paired := by
  unfold Paired; infer_instance

theorem supported_cases (h : buf.Supported) :
    (∃ l, buf.PlainIn l) ∨ buf.type = 0x21#32 ∨ buf.type = 0x22#32 := by
  unfold Supported at h
  split_ifs at h with h20
  · obtain ⟨l, hl⟩ := Option.ne_none_iff_exists'.1 h
    exact .inl ⟨l, h20, hl⟩
  · exact .inr h

theorem contrib_plain (h : buf.PlainIn l) (l' : Family) :
    buf.contrib l' = if l' = l then [buf] else [] := by
  simp [contrib, h.1, h.2, eq_comm]

theorem length_contrib_le (buf : IpcBuffer) (l : Family) : (buf.contrib l).length ≤ 1 := by
  unfold contrib
  split_ifs
  · simp
  · simp
  · cases l <;> simp
  · cases l <;> simp
  · simp

/-- The address a format buffer receives. -/
def receivedAddr (buf : IpcBuffer) : BitVec 64 :=
  if buf.PlainIn .c then wireAddrC buf.addr else buf.addr

/-- The size a format buffer receives: a paired buffer with address `NULL` is taken for no
buffer. -/
def receivedSize (buf : IpcBuffer) : BitVec 64 :=
  if buf.Paired ∧ buf.addr = 0#64 then 0#64 else buf.size

end IpcBuffer

/-! ## One buffer -/

/-- The counters after the buffers `pre`. -/
def assignedAfter (pre : List IpcBuffer) : Assigned where
  used l := (descriptorsOf pre l).length
  u16Count := (listed (descriptorsOf pre .c)).length

theorem getElem?_descriptorsOf (pre post : List IpcBuffer) {x : IpcBuffer} (h : buf.contrib l = [x]) :
    (descriptorsOf (pre ++ buf :: post) l)[(descriptorsOf pre l).length]? = some x := by
  simp [descriptorsOf, h]

theorem descriptorsOf_snoc (pre : List IpcBuffer) (buf : IpcBuffer) (l : Family) :
    descriptorsOf (pre ++ [buf]) l = descriptorsOf pre l ++ buf.contrib l := by
  simp [descriptorsOf]

@[simp] theorem Assigned.use_used (s : Assigned) (l l' : Family) :
    (s.use l).used l' = s.used l' + if l' = l then 1 else 0 := by
  refine (Function.update_apply ..).trans ?_
  split_ifs with h
  · rw [h]
  · rfl

@[simp] theorem Assigned.use_u16Count (s : Assigned) (l : Family) :
    (s.use l).u16Count = s.u16Count := rfl

@[simp] theorem Assigned.list_used (s : Assigned) (type : BitVec 32) :
    (s.list type).used = s.used := by
  unfold Assigned.list
  split_ifs <;> rfl

@[simp] theorem Assigned.list_u16Count (s : Assigned) (type : BitVec 32) :
    (s.list type).u16Count = s.u16Count + if type &&& 0x10#32 = 0#32 then 1 else 0 := by
  unfold Assigned.list
  split_ifs <;> rfl

theorem assignedAfter_snoc_plain (h : buf.PlainIn l) (pre : List IpcBuffer) :
    assignedAfter (pre ++ [buf]) =
      if l = .c then ((assignedAfter pre).use l).list buf.type else (assignedAfter pre).use l := by
  apply Assigned.ext
  · funext l'
    have hlen : (buf.contrib l').length = if l' = l then 1 else 0 := by
      rw [IpcBuffer.contrib_plain h]
      split_ifs <;> rfl
    simp only [assignedAfter, descriptorsOf_snoc, length_append, hlen]
    by_cases hc : l = .c
    · subst hc
      simp
    · simp [hc]
  · simp only [assignedAfter, descriptorsOf_snoc, IpcBuffer.contrib_plain h, listed]
    by_cases hc : l = .c
    · subst hc
      by_cases h10 : buf.type &&& 0x10#32 = 0#32 <;> simp [h10]
    · have hc' : Family.c ≠ l := fun h => hc h.symm
      simp [hc, hc']

theorem assignedAfter_snoc_in (h : buf.type = 0x21#32) (pre : List IpcBuffer) :
    assignedAfter (pre ++ [buf]) = ((assignedAfter pre).use .a).use .x := by
  apply Assigned.ext
  · funext l'
    simp only [assignedAfter, descriptorsOf_snoc]
    cases l' <;> simp [IpcBuffer.contrib, h]
  · simp [assignedAfter, descriptorsOf_snoc, IpcBuffer.contrib, h]

theorem assignedAfter_snoc_out (h : buf.type = 0x22#32) (pre : List IpcBuffer) :
    assignedAfter (pre ++ [buf]) = (((assignedAfter pre).use .b).use .c).list buf.type := by
  apply Assigned.ext
  · funext l'
    simp only [assignedAfter, descriptorsOf_snoc]
    cases l' <;> simp [IpcBuffer.contrib, h]
  · simp [assignedAfter, descriptorsOf_snoc, IpcBuffer.contrib, h, listed, nullBuffer]

theorem pick_plain (hU : U.Carries (descriptorsOf (pre ++ buf :: post))) (h : buf.PlainIn l)
    (hx : l = .x → (descriptorsOf pre .x).length < (descriptorsOf (pre ++ buf :: post) .a).length) :
    pickDescriptor U (assignedAfter pre) buf.type =
      .ok (U.descs l (descriptorsOf pre l).length, assignedAfter (pre ++ [buf])) := by
  have hget := getElem?_descriptorsOf pre post (by rw [IpcBuffer.contrib_plain h, if_pos rfl])
  obtain ⟨hlt, -⟩ := List.getElem?_eq_some_iff.1 hget
  have hcount : ¬ (assignedAfter pre).used l ≥ U.plainCount l := by
    show ¬ (descriptorsOf pre l).length ≥ U.plainCount l
    cases l with
    | x => simpa [DescArrays.plainCount, hU.count] using hx rfl
    | a => simpa [DescArrays.plainCount, hU.count] using hlt
    | b => simpa [DescArrays.plainCount, hU.count] using hlt
    | c => simpa [DescArrays.plainCount, hU.count] using hlt
  rw [assignedAfter_snoc_plain h]
  simp only [pickDescriptor, h.1, h.2, if_neg hcount]
  rfl

theorem pick_x_error (hU : U.Carries (descriptorsOf (pre ++ buf :: post))) (h : buf.PlainIn .x)
    (hx : ¬ (descriptorsOf pre .x).length < (descriptorsOf (pre ++ buf :: post) .a).length) :
    pickDescriptor U (assignedAfter pre) buf.type = .error Err.tooManyBuffers := by
  have hcount : (assignedAfter pre).used .x ≥ U.plainCount .x := by
    simpa [assignedAfter, DescArrays.plainCount, hU.count] using hx
  simp only [pickDescriptor, h.1, h.2, if_true, if_pos hcount]

theorem choosePaired_null {d₁ d₂ : IpcBuffer} (h : d₂.addr = 0#64) :
    choosePaired d₁ d₂ = .ok (if d₁.addr = 0#64 then nullBuffer else d₁) := by
  unfold choosePaired
  by_cases h₁ : d₁.addr = 0#64 <;> simp [h, h₁]

section Paired

variable (hU : U.Carries (descriptorsOf (pre ++ buf :: post)))
include hU

theorem choosePaired_carried (l₁ l₂ : Family) (h₁ : buf.contrib l₁ = [buf])
    (h₂ : buf.contrib l₂ = [nullBuffer]) (hl : wireAddr l₁ buf.addr = buf.addr) :
    ¬ ((assignedAfter pre).used l₁ ≥ U.count l₁ ∨ (assignedAfter pre).used l₂ ≥ U.count l₂) ∧
      ∃ desc, choosePaired (U.descs l₁ ((assignedAfter pre).used l₁))
          (U.descs l₂ ((assignedAfter pre).used l₂)) = .ok desc ∧
        desc.addr = buf.addr ∧ desc.size = if buf.addr = 0#64 then 0#64 else buf.size := by
  have hget₁ := getElem?_descriptorsOf pre post h₁
  have hget₂ := getElem?_descriptorsOf pre post h₂
  obtain ⟨hlt₁, -⟩ := List.getElem?_eq_some_iff.1 hget₁
  obtain ⟨hlt₂, -⟩ := List.getElem?_eq_some_iff.1 hget₂
  have haddr₁ := (hU.addr hget₁).trans hl
  have haddr₂ : (U.descs l₂ (descriptorsOf pre l₂).length).addr = 0#64 := by
    rw [hU.addr hget₂]
    cases l₂ <;> rfl
  constructor
  · rw [hU.count, hU.count]
    simp only [assignedAfter]
    omega
  · refine ⟨_, choosePaired_null haddr₂, ?_, ?_⟩
    · show (if (U.descs l₁ (descriptorsOf pre l₁).length).addr = 0#64 then nullBuffer
        else U.descs l₁ (descriptorsOf pre l₁).length).addr = buf.addr
      rw [haddr₁]
      split_ifs with h0
      · rw [h0]; rfl
      · exact haddr₁
    · show (if (U.descs l₁ (descriptorsOf pre l₁).length).addr = 0#64 then nullBuffer
        else U.descs l₁ (descriptorsOf pre l₁).length).size = _
      rw [haddr₁]
      split_ifs with h0
      · rfl
      · exact hU.size hget₁

theorem pick_paired (h : buf.Paired) :
    ∃ desc, pickDescriptor U (assignedAfter pre) buf.type =
        .ok (desc, assignedAfter (pre ++ [buf])) ∧
      desc.addr = buf.receivedAddr ∧ desc.size = buf.receivedSize := by
  have hplain : ¬ buf.PlainIn .c := by
    rintro ⟨h20, -⟩
    rcases h with h | h <;> rw [h] at h20 <;> exact absurd h20 (by decide)
  have haddr : buf.receivedAddr = buf.addr := by simp [IpcBuffer.receivedAddr, hplain]
  have hsize : buf.receivedSize = if buf.addr = 0#64 then 0#64 else buf.size := by
    simp [IpcBuffer.receivedSize, h]
  rw [haddr, hsize]
  rcases h with h | h
  · obtain ⟨hcount, desc, hdesc, hd⟩ := choosePaired_carried hU .a .x
      (by simp [IpcBuffer.contrib, h]) (by simp [IpcBuffer.contrib, h]) rfl
    refine ⟨desc, ?_, hd⟩
    rw [assignedAfter_snoc_in h, h]
    simp only [pickDescriptor, if_neg hcount, hdesc]
    rfl
  · obtain ⟨hcount, desc, hdesc, hd⟩ := choosePaired_carried hU .b .c
      (by simp [IpcBuffer.contrib, h]) (by simp [IpcBuffer.contrib, h]) rfl
    refine ⟨desc, ?_, hd⟩
    rw [assignedAfter_snoc_out h, h]
    simp only [pickDescriptor, if_neg hcount, hdesc]
    rfl

end Paired

theorem plainFamily_nibble (type : BitVec 32) : plainFamily type = plainFamily (type &&& 0xF#32) := by
  have hdir : (type &&& 0xF#32) &&& 0b0011#32 = type &&& 0b0011#32 := BitVec.and_assoc ..
  have hfam : (type &&& 0xF#32) &&& 0b1100#32 = type &&& 0b1100#32 := BitVec.and_assoc ..
  unfold plainFamily direction family
  rw [hdir, hfam]

theorem checked_iff (h : buf.Supported) :
    buf.type &&& 4#32 ≠ 0#32 ↔ buf.PlainIn .a ∨ buf.PlainIn .b := by
  have hnibble : ∀ k < 16, plainFamily (BitVec.ofNat 32 k) ≠ none →
      (BitVec.ofNat 32 k &&& 4#32 ≠ 0#32 ↔ plainFamily (BitVec.ofNat 32 k) = some .a ∨
        plainFamily (BitVec.ofNat 32 k) = some .b) := by
    decide
  have hlt : (buf.type &&& 0xF#32).toNat < 16 := toNat_and_mask_lt _ _ 4 rfl
  have h4 : (buf.type &&& 0xF#32) &&& 4#32 = buf.type &&& 4#32 := BitVec.and_assoc ..
  rcases IpcBuffer.supported_cases h with ⟨l, hl⟩ | hl | hl
  · have hk := hnibble _ hlt
    rw [BitVec.ofNat_toNat, BitVec.setWidth_eq, ← plainFamily_nibble, h4] at hk
    rw [hk (by rw [hl.2]; simp)]
    simp [IpcBuffer.PlainIn, hl.1]
  · simp [IpcBuffer.PlainIn, hl]
  · simp [IpcBuffer.PlainIn, hl]

theorem typemap_eq_iff {type : BitVec 32} (h : type >>> 8 = 0#32) :
    type &&& 0xC0#32 = (typemap (type >>> 6) <<< 6) &&& 0xC0#32 ↔ type &&& 0x80#32 = 0#32 := by
  have hlt := toNat_lt_of_shiftRight_eq_zero h
  have hbyte : ∀ k < 256, BitVec.ofNat 32 k &&& 0xC0#32 =
      (typemap (BitVec.ofNat 32 k >>> 6) <<< 6) &&& 0xC0#32 ↔
        BitVec.ofNat 32 k &&& 0x80#32 = 0#32 := by
    decide +kernel
  have hk := hbyte type.toNat hlt
  rwa [BitVec.ofNat_toNat] at hk

theorem IpcBuffer.PlainIn.not_paired (h : buf.PlainIn l) : ¬ buf.Paired := by
  rintro (h' | h') <;> exact absurd h.1 (by rw [h']; decide)

/-- **One buffer.** Unless it is an X buffer past the number of A descriptors, a supported buffer
gets its own descriptor. -/
theorem pick_eq_ok (hU : U.Carries (descriptorsOf (pre ++ buf :: post))) (hs : buf.Supported)
    (hx : buf.PlainIn .x →
      (descriptorsOf pre .x).length < (descriptorsOf (pre ++ buf :: post) .a).length) :
    ∃ desc, pickDescriptor U (assignedAfter pre) buf.type =
        .ok (desc, assignedAfter (pre ++ [buf])) ∧
      desc.addr = buf.receivedAddr ∧ desc.size = buf.receivedSize ∧
      (buf.PlainIn .a ∨ buf.PlainIn .b → desc.type = typemap (buf.type >>> 6) <<< 6) := by
  rcases IpcBuffer.supported_cases hs with ⟨l, hl⟩ | hp
  · have hget := getElem?_descriptorsOf pre post
      (by rw [IpcBuffer.contrib_plain hl, if_pos rfl])
    have hunique : ∀ l', buf.PlainIn l' → l' = l := fun l' h' =>
      Option.some.inj (h'.2.symm.trans hl.2)
    refine ⟨_, pick_plain hU hl fun h => hx (h ▸ hl), ?_, ?_, ?_⟩
    · rw [hU.addr hget]
      unfold IpcBuffer.receivedAddr
      split_ifs with hc
      · rw [← hunique .c hc]
        rfl
      · cases l with
        | c => exact absurd hl hc
        | _ => rfl
    · rw [hU.size hget]
      simp [IpcBuffer.receivedSize, hl.not_paired]
    · intro hab
      refine hU.type ?_ hget
      rcases hab with h' | h'
      · exact .inl (hunique .a h').symm
      · exact .inr (hunique .b h').symm
  · obtain ⟨desc, hpick, haddr, hsize⟩ := pick_paired hU hp
    refine ⟨desc, hpick, haddr, hsize, ?_⟩
    rintro (h' | h')
    · exact absurd hp h'.not_paired
    · exact absurd hp h'.not_paired

/-! ## All buffers -/

/-- What the loop over the buffers `post` checks, after the buffers `pre`, in a message with `numA`
A descriptors. -/
def Passes (numA : Nat) : List IpcBuffer → List IpcBuffer → Prop
  | _, [] => True
  | pre, buf :: post =>
    (buf.PlainIn .x → (descriptorsOf pre .x).length < numA) ∧
      (buf.PlainIn .a ∨ buf.PlainIn .b → buf.type &&& 0x80#32 = 0#32) ∧
      Passes numA (pre ++ [buf]) post

instance decidablePasses (numA : Nat) : ∀ pre post, Decidable (Passes numA pre post)
  | _, [] => isTrue trivial
  | pre, buf :: post =>
    have := decidablePasses numA (pre ++ [buf]) post
    inferInstanceAs (Decidable (_ ∧ _ ∧ _))

theorem assignBuffers_eq_ok {bufs : List IpcBuffer} {out out' : RequestOut}
    (hbufs : bufs = pre ++ post) (hU : U.Carries (descriptorsOf bufs))
    (hs : ∀ buf ∈ bufs, buf.Supported)
    (hprot : ∀ buf ∈ bufs, buf.PlainIn .a ∨ buf.PlainIn .b → buf.type >>> 8 = 0#32) :
    assignBuffers U pre.length (post.map (·.type)) (assignedAfter pre) out = .ok s out' ↔
      Passes (descriptorsOf bufs .a).length pre post ∧ s = assignedAfter bufs ∧
      out' = { out with
        addrs := out.addrs.write pre.length (post.map (·.receivedAddr))
        sizes := out.sizes.write pre.length (post.map (·.receivedSize)) } := by
  induction post generalizing pre out with
  | nil =>
    subst hbufs
    simp [assignBuffers, pure_eq_ok, Passes]
  | cons buf post ih =>
    have hmem : buf ∈ bufs := by simp [hbufs]
    have hbuf := hs buf hmem
    have hrest : bufs = (pre ++ [buf]) ++ post := by simp [hbufs]
    rw [List.map_cons, assignBuffers, runPure_bind_eq_ok]
    subst hbufs
    by_cases hx : buf.PlainIn .x →
        (descriptorsOf pre .x).length < (descriptorsOf (pre ++ buf :: post) .a).length
    · obtain ⟨desc, hpick, haddr, hsize, htype⟩ := pick_eq_ok hU hbuf hx
      have hcheck : ¬ (buf.type &&& 4#32 ≠ 0#32 ∧ buf.type &&& 0xC0#32 ≠ desc.type &&& 0xC0#32) ↔
          (buf.PlainIn .a ∨ buf.PlainIn .b → buf.type &&& 0x80#32 = 0#32) := by
        rw [not_and, not_not, checked_iff hbuf]
        refine forall_congr' fun hab => ?_
        rw [htype hab]
        exact typemap_eq_iff (hprot buf hmem hab)
      have hlen : pre.length + 1 = (pre ++ [buf]).length := by simp
      have hwrite : ∀ (m : Mem (BitVec 64)) (v : BitVec 64) (vs : List (BitVec 64)),
          Mem.write (Function.update m pre.length v) (pre ++ [buf]).length vs =
            m.write pre.length (v :: vs) := by
        intro m v vs
        rw [Mem.update_eq_write, ← hlen]
        exact (Mem.write_append _ _ [v] vs).symm
      simp only [hpick, Except.ok.injEq, exists_eq_left']
      unfold setBuffer
      rw [modify_bind_run, failIf_bind_eq_ok, hcheck, hlen, ih hrest, haddr, hsize]
      simp only [hwrite]
      constructor
      · rintro ⟨hp, hpass, rfl, rfl⟩
        exact ⟨⟨hx, hp, hpass⟩, rfl, rfl⟩
      · rintro ⟨⟨-, hp, hpass⟩, rfl, rfl⟩
        exact ⟨hp, hpass, rfl, rfl⟩
    · obtain ⟨hplain, hge⟩ := Classical.not_imp.1 hx
      constructor
      · rintro ⟨_, hpick, -⟩
        rw [pick_x_error hU hplain hge] at hpick
        cases hpick
      · rintro ⟨⟨hx', -⟩, -⟩
        exact absurd hx' hx

theorem passes_iff {numA : Nat} :
    Passes numA pre post ↔
      (∀ buf ∈ post, buf.PlainIn .a ∨ buf.PlainIn .b → buf.type &&& 0x80#32 = 0#32) ∧
      ∀ us buf vs, post = us ++ buf :: vs → buf.PlainIn .x →
        (descriptorsOf (pre ++ us) .x).length < numA := by
  induction post generalizing pre with
  | nil => simp [Passes]
  | cons buf post ih =>
    rw [Passes, ih]
    constructor
    · rintro ⟨hx, hp, hp', hx'⟩
      refine ⟨?_, ?_⟩
      · intro buf' hmem
        rcases List.mem_cons.1 hmem with rfl | hmem
        · exact hp
        · exact hp' buf' hmem
      · intro us buf' vs hsplit hplain
        cases us with
        | nil =>
          obtain ⟨rfl, rfl⟩ := List.cons.inj hsplit
          rw [List.append_nil]
          exact hx hplain
        | cons u us =>
          obtain ⟨rfl, htail⟩ := List.cons.inj hsplit
          have h := hx' us buf' vs htail hplain
          rwa [List.append_assoc] at h
    · rintro ⟨hp, hx⟩
      refine ⟨?_, hp buf List.mem_cons_self, fun buf' hmem => hp buf' (List.mem_cons_of_mem _ hmem),
        ?_⟩
      · intro hplain
        have h := hx [] buf post rfl hplain
        rwa [List.append_nil] at h
      · intro us buf' vs hsplit hplain
        have h := hx (buf :: us) buf' vs (by rw [hsplit]; rfl) hplain
        rwa [List.append_assoc]

/-! ## Counting what is handed out -/

/-- The most descriptors of a family the server can use up. -/
def DescArrays.cap (U : DescArrays) : Family → Nat
  | .x => max (U.count .x) (U.count .a)
  | l => U.count l

theorem choosePaired_map {d₁ d₂ desc : IpcBuffer} {t : Assigned}
    (h : (choosePaired d₁ d₂).map (·, t) = .ok (desc, s)) : s = t := by
  cases hd : choosePaired d₁ d₂ with
  | error e =>
    rw [hd] at h
    cases h
  | ok d =>
    rw [hd] at h
    cases h
    rfl

theorem pick_used {s' : Assigned} {desc : IpcBuffer}
    (h : pickDescriptor U s buf.type = .ok (desc, s')) (l : Family) :
    s'.used l = s.used l + (buf.contrib l).length ∧ (buf.contrib l ≠ [] → s.used l < U.cap l) := by
  unfold pickDescriptor at h
  by_cases h20 : buf.type &&& 0x20#32 = 0#32
  · rw [if_pos h20] at h
    cases hf : plainFamily buf.type with
    | none => rw [hf] at h; cases h
    | some l' =>
      simp only [hf] at h
      by_cases hcount : s.used l' ≥ U.plainCount l'
      · rw [if_pos hcount] at h
        cases h
      · rw [if_neg hcount] at h
        obtain ⟨-, rfl⟩ := Prod.mk.inj (Except.ok.inj h)
        rw [IpcBuffer.contrib_plain ⟨h20, hf⟩]
        constructor
        · by_cases hc : l' = .c
          · subst hc
            by_cases hl : l = .c <;> simp [hl]
          · by_cases hl : l = l' <;> simp [hc, hl]
        · intro hne
          obtain rfl : l = l' := by
            by_contra hl
            exact hne (if_neg hl)
          cases l <;> simp only [DescArrays.plainCount, DescArrays.cap] at hcount ⊢ <;> omega
  rw [if_neg h20] at h
  by_cases h21 : buf.type = 0x21#32
  · split_ifs at h with hcount
    rw [choosePaired_map h]
    cases l <;> simp [IpcBuffer.contrib, h21, DescArrays.cap] <;> omega
  rw [if_neg h21] at h
  by_cases h22 : buf.type = 0x22#32
  · split_ifs at h with hcount
    rw [choosePaired_map h]
    cases l <;> simp [IpcBuffer.contrib, h22, DescArrays.cap] <;> omega
  · rw [if_neg h22] at h
    cases h

theorem assignBuffers_used {bufs : List IpcBuffer} {i : Nat} {s' : Assigned} {out out' : RequestOut}
    (h : assignBuffers U i (bufs.map (·.type)) s out = .ok s' out') (l : Family)
    (hle : s.used l ≤ U.cap l) : s.used l + (descriptorsOf bufs l).length ≤ U.cap l := by
  induction bufs generalizing i s out with
  | nil => simpa [descriptorsOf] using hle
  | cons buf bufs ih =>
    rw [map_cons, assignBuffers, runPure_bind_eq_ok] at h
    obtain ⟨⟨desc, s₁⟩, hpick, h⟩ := h
    obtain ⟨hused, hlt⟩ := pick_used hpick l
    obtain ⟨-, h⟩ := failIf_bind_eq_ok.1 h
    have hone := buf.length_contrib_le l
    have hle₁ : s₁.used l ≤ U.cap l := by
      by_cases hnil : buf.contrib l = []
      · rw [hused, hnil]
        exact hle
      · have := hlt hnil
        omega
    have hrec := ih h hle₁
    simp only [descriptorsOf, flatMap_cons, length_append] at hrec ⊢
    omega

end LibTransistor
