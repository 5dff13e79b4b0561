import LibTransistor.Ipc.RequestSpec
import LibTransistor.Lib.Layout

/-!
# Descriptors on the wire

The server decodes X, A and B descriptors into the buffers they were made from. A C descriptor
loses the place of its upper address bits (`wireAddrC`), so its address survives only below 32
bits; an A or B descriptor keeps its protection only through a table that two of the four values do
not survive.

* `decodeX_eq`, `decodeAB_eq`, `decodeC_eq` — one descriptor.
* `unpackAll_carries` — all of them, in the arrays of `ipc_unflatten_request`.
-/

namespace LibTransistor

open Fallible Cursor Bits BitVec Layout Mem

variable {buf : IpcBuffer} {j : Nat}

variable {i : Nat} {ws : Mem Word} {cell : IpcBuffer}

/-! ## X descriptors -/

theorem toNat_xField (hi : i < 16) (h : XOk buf) :
    (xField i buf).toNat = (i ||| field buf.addr.toNat 36 3 <<< 6
      ||| field buf.addr.toNat 32 4 <<< 12 ||| buf.size.toNat <<< 16) % 2 ^ 32 := by
  have hs := toNat_lt_of_shiftRight_eq_zero h.2
  have hsize : (buf.size <<< 16).toNat = buf.size.toNat <<< 16 :=
    toNat_shiftLeft_of_lt _ (by omega)
  have hcounter : (((BitVec.ofNat 64 i >>> 9) &&& 0b111#64) <<< 9).toNat = 0 := by
    rw [toNat_field_shiftLeft _ _ 9 3 9 rfl (by decide), toNat_ofNat,
      field_of_lt 3 (by omega), Nat.zero_shiftLeft]
  unfold xField
  rw [toNat_setWidth, toNat_or, toNat_or, toNat_or, toNat_or,
    hcounter, hsize, toNat_field_shiftLeft _ _ 36 3 6 rfl (by decide),
    toNat_field_shiftLeft _ _ 32 4 12 rfl (by decide), toNat_ofNat,
    Nat.mod_eq_of_lt (show i < 2 ^ 64 by omega), Nat.or_zero]

/-- An X descriptor is decoded into what it was packed from. -/
theorem decodeX_eq (hi : i < 16) (h : XOk buf) (h₀ : ws 0 = xField i buf)
    (h₁ : ws 1 = buf.addr.setWidth 32) :
    (decodeX ws cell).addr = buf.addr ∧ (decodeX ws cell).size = buf.size := by
  have ha := toNat_lt_of_shiftRight_eq_zero h.1
  have hs := toNat_lt_of_shiftRight_eq_zero h.2
  have hF := toNat_xField hi h
  have hbank := field_lt buf.addr.toNat 36 3
  have hpage := field_lt buf.addr.toNat 32 4
  constructor
  · apply eq_of_toNat_eq
    have h36 : field (xField i buf).toNat 6 3 = field buf.addr.toNat 36 3 := by
      rw [hF, field_mod _ (by decide), field_or_above _ _ (by decide),
        field_or_above _ _ (by decide), field_or_at _ _ (by omega), Nat.mod_eq_of_lt hbank]
    have h32 : field (xField i buf).toNat 12 4 = field buf.addr.toNat 32 4 := by
      rw [hF, field_mod _ (by decide), field_or_above _ _ (by decide),
        field_or_at _ _ (Nat.or_lt_two_pow (by omega) (by omega)), Nat.mod_eq_of_lt hpage]
    simp only [decodeX, h₀, h₁]
    rw [toNat_or, toNat_or, toNat_field_shiftLeft _ _ 6 3 36 rfl (by decide),
      toNat_field_shiftLeft _ _ 12 4 32 rfl (by decide), toNat_setWidth_of_le (by decide),
      toNat_setWidth_of_le (by decide), toNat_setWidth, h36, h32, Nat.or_assoc, Nat.or_comm,
      Nat.or_comm (_ <<< 32), low_or_field, low_or_field]
    exact Nat.mod_eq_of_lt ha
  · apply eq_of_toNat_eq
    have h16 : field (xField i buf).toNat 16 16 = buf.size.toNat := by
      rw [hF, field_mod _ (by decide), field_or_at _ _ (Nat.or_lt_two_pow
        (Nat.or_lt_two_pow (by omega) (by omega)) (by omega)), Nat.mod_eq_of_lt hs]
    simp only [decodeX, h₀]
    rw [toNat_setWidth_of_le (by decide), toNat_shiftRight _ (show 16 + 16 = 32 from rfl), h16]

/-! ## A and B descriptors -/

theorem toNat_abField (buf : IpcBuffer) :
    (abField buf).toNat = ((buf.type >>> 6).toNat ||| field buf.addr.toNat 36 3 <<< 2
      ||| field buf.size.toNat 32 4 <<< 24 ||| field buf.addr.toNat 32 4 <<< 28) % 2 ^ 32 := by
  unfold abField
  rw [toNat_setWidth, toNat_or, toNat_or, toNat_or,
    toNat_field_shiftLeft _ _ 36 3 2 rfl (by decide),
    toNat_field_shiftLeft _ _ 32 4 24 rfl (by decide),
    toNat_field_shiftLeft _ _ 32 4 28 rfl (by decide), toNat_setWidth,
    Nat.mod_eq_of_lt (Nat.lt_trans (buf.type >>> 6).isLt (by decide))]

theorem ABOk.prot_lt (h : ABOk buf) : (buf.type >>> 6).toNat < 2 ^ 2 := by
  have ht := toNat_lt_of_shiftRight_eq_zero h.2.2
  rw [toNat_ushiftRight]
  omega

/-- So is an A or B descriptor, but for its protection. -/
theorem decodeAB_eq (h : ABOk buf) (h₀ : ws 0 = buf.size.setWidth 32)
    (h₁ : ws 1 = buf.addr.setWidth 32) (h₂ : ws 2 = abField buf) :
    (decodeAB ws cell).addr = buf.addr ∧ (decodeAB ws cell).size = buf.size ∧
      (decodeAB ws cell).type = typemap (buf.type >>> 6) <<< 6 := by
  have ha := toNat_lt_of_shiftRight_eq_zero h.1
  have hs := toNat_lt_of_shiftRight_eq_zero h.2.1
  have hp := h.prot_lt
  have hF := toNat_abField buf
  have hbank := field_lt buf.addr.toNat 36 3
  have hpage := field_lt buf.addr.toNat 32 4
  have hhigh := field_lt buf.size.toNat 32 4
  refine ⟨?_, ?_, ?_⟩
  · apply eq_of_toNat_eq
    have h36 : field (abField buf).toNat 2 3 = field buf.addr.toNat 36 3 := by
      rw [hF, field_mod _ (by decide), field_or_above _ _ (by decide),
        field_or_above _ _ (by decide), field_or_at _ _ hp, Nat.mod_eq_of_lt hbank]
    have h32 : field (abField buf).toNat 28 4 = field buf.addr.toNat 32 4 := by
      rw [hF, field_mod _ (by decide), field_or_at _ _ (Nat.or_lt_two_pow
        (Nat.or_lt_two_pow (by omega) (by omega)) (by omega)), Nat.mod_eq_of_lt hpage]
    simp only [decodeAB, h₁, h₂]
    rw [toNat_or, toNat_or, toNat_field_shiftLeft _ _ 2 3 36 rfl (by decide),
      toNat_field_shiftLeft _ _ 28 4 32 rfl (by decide),
      toNat_setWidth_of_le (b := abField buf) (by decide),
      toNat_setWidth_of_le (b := buf.addr.setWidth 32) (by decide), toNat_setWidth, h36, h32,
      Nat.or_right_comm, low_or_field, low_or_field]
    exact Nat.mod_eq_of_lt ha
  · apply eq_of_toNat_eq
    have h24 : field (abField buf).toNat 24 4 = field buf.size.toNat 32 4 := by
      rw [hF, field_mod _ (by decide), field_or_above _ _ (by decide),
        field_or_at _ _ (Nat.or_lt_two_pow (by omega) (by omega)), Nat.mod_eq_of_lt hhigh]
    simp only [decodeAB, h₀, h₂]
    rw [toNat_or, toNat_field_shiftLeft _ _ 24 4 32 rfl (by decide),
      toNat_setWidth_of_le (b := abField buf) (by decide),
      toNat_setWidth_of_le (b := buf.size.setWidth 32) (by decide), toNat_setWidth, h24,
      low_or_field]
    exact Nat.mod_eq_of_lt (by omega)
  · have hprot : abField buf &&& 0b11#32 = buf.type >>> 6 := by
      apply eq_of_toNat_eq
      rw [toNat_and_mask _ _ 2 rfl, hF, field_mod _ (by decide), field_or_above _ _ (by decide),
        field_or_above _ _ (by decide), field_or_above _ _ (by decide), field_at_zero_of_lt hp]
    simp only [decodeAB, h₂, hprot]

/-! ## C descriptors -/

/-- The address the server decodes from a C descriptor: the upper half is not shifted back. -/
def wireAddrC (addr : BitVec 64) : BitVec 64 :=
  (addr.setWidth 32).setWidth 64 ||| addr >>> 32

/-- The address of a C descriptor is not. -/
theorem decodeC_eq (h : COk buf) (h₀ : ws 0 = buf.addr.setWidth 32) (h₁ : ws 1 = cField buf) :
    (decodeC ws cell).addr = wireAddrC buf.addr ∧ (decodeC ws cell).size = buf.size := by
  have ha := toNat_lt_of_shiftRight_eq_zero h.1
  have hs := toNat_lt_of_shiftRight_eq_zero h.2
  have hupper : (buf.addr >>> 32).toNat < 2 ^ 16 := by
    rw [toNat_ushiftRight]
    omega
  have hsize : ((buf.size.setWidth 32 <<< 16 : BitVec 32).setWidth 64).toNat =
      buf.size.toNat <<< 16 := by
    have hcut : (buf.size.setWidth 32).toNat = buf.size.toNat := by
      rw [toNat_setWidth, Nat.mod_eq_of_lt (by omega)]
    rw [toNat_setWidth_of_le (by decide), toNat_shiftLeft_of_lt, hcut]
    omega
  have hF : (cField buf).toNat = ((buf.addr >>> 32).toNat ||| buf.size.toNat <<< 16) % 2 ^ 32 := by
    unfold cField
    rw [toNat_setWidth, toNat_or, hsize]
  constructor
  · apply eq_of_toNat_eq
    have hlow : field (cField buf).toNat 0 16 = (buf.addr >>> 32).toNat := by
      rw [hF, field_mod _ (by decide), field_or_above _ _ (by decide), field_at_zero_of_lt hupper]
    simp only [decodeC, wireAddrC, h₀, h₁]
    rw [toNat_or, toNat_or, toNat_setWidth_of_le (b := cField buf &&& _) (by decide),
      toNat_and_mask _ _ 16 rfl, hlow]
  · apply eq_of_toNat_eq
    have h16 : field (cField buf).toNat 16 16 = buf.size.toNat := by
      rw [hF, field_mod _ (by decide), field_or_at _ _ hupper, Nat.mod_eq_of_lt hs]
    simp only [decodeC, h₁]
    rw [toNat_setWidth_of_le (by decide), toNat_shiftRight _ (show 16 + 16 = 32 from rfl), h16]

theorem wireAddrC_eq_iff {addr : BitVec 64} : wireAddrC addr = addr ↔ addr.toNat < 2 ^ 32 := by
  have hnat : (wireAddrC addr).toNat = addr.toNat % 2 ^ 32 ||| addr.toNat / 2 ^ 32 := by
    unfold wireAddrC
    rw [toNat_or, toNat_setWidth_of_le (by decide), toNat_setWidth,
      toNat_ushiftRight, Nat.shiftRight_eq_div_pow]
  constructor
  · intro heq
    rw [heq] at hnat
    rw [hnat]
    exact Nat.or_lt_two_pow (Nat.mod_lt _ (by decide)) (by omega)
  · intro hsmall
    apply eq_of_toNat_eq
    rw [hnat, Nat.mod_eq_of_lt hsmall, Nat.div_eq_of_lt hsmall, Nat.or_zero]

/-! ## The arrays -/

theorem unpackDescriptors_of_lt (width : Nat) (decode : Decoder) (src : Mem Word) (n : Nat)
    {k : Nat} (h : Nat) (arr : Mem IpcBuffer) (hk : k < i) :
    (unpackDescriptors width decode src n i h arr).2 k = arr k := by
  induction n generalizing i h arr with
  | zero => rfl
  | succ n ih =>
    rw [unpackDescriptors, ih _ _ (Nat.lt_succ_of_lt hk), Function.update_of_ne (Nat.ne_of_lt hk)]

theorem unpackDescriptors_apply (width : Nat) (decode : Decoder) (src : Mem Word) {n : Nat}
    (i h : Nat) (arr : Mem IpcBuffer) (hj : j < n) :
    (unpackDescriptors width decode src n i h arr).2 (i + j) =
      decode (fun k => src (h + width * j + k)) (arr (i + j)) := by
  induction n generalizing i h arr j with
  | zero => cases hj
  | succ n ih =>
    rw [unpackDescriptors]
    cases j with
    | zero =>
      refine (unpackDescriptors_of_lt _ _ _ _ _ _ (Nat.lt_succ_self i)).trans ?_
      exact Function.update_self ..
    | succ j =>
      rw [show i + (j + 1) = (i + 1) + j by omega, ih (i + 1) (h + width) _ (by omega),
        Function.update_of_ne (by omega), Nat.mul_succ]
      congr 1
      funext k
      congr 1
      omega

/-- The `k`-th word of the `j`-th descriptor, where the words of all are in memory. -/
theorem word_of_read {β : Type} {f : β → List Word} {xs : List β} {b : Mem Word} {a : Nat}
    (hread : b.read a (xs.flatMap f).length = xs.flatMap f) {width : Nat}
    (hf : ∀ x, (f x).length = width) {x : β} (hj : xs[j]? = some x) {k : Nat} {w : Word}
    (hk : (f x)[k]? = some w) : b (a + (width * j + k)) = w := by
  refine eq_of_getElem? hread ?_
  rw [(standsAt_flatMap hf hj).getElem? (List.getElem?_eq_some_iff.1 hk).1, hk]

/-- The address the server sees in a descriptor of a family. -/
def wireAddr : Family → BitVec 64 → BitVec 64
  | .c, addr => wireAddrC addr
  | _, addr => addr

/-- The arrays hold the descriptors `d`, as far as they survive the wire. -/
structure DescArrays.Carries (u : DescArrays) (d : Descriptors) : Prop where
  count : ∀ l, u.count l = (d l).length
  addr : ∀ {l : Family} {j : Nat} {buf : IpcBuffer}, (d l)[j]? = some buf →
    (u.descs l j).addr = wireAddr l buf.addr
  size : ∀ {l : Family} {j : Nat} {buf : IpcBuffer}, (d l)[j]? = some buf →
    (u.descs l j).size = buf.size
  type : ∀ {l : Family} {j : Nat} {buf : IpcBuffer}, l = .a ∨ l = .b → (d l)[j]? = some buf →
    (u.descs l j).type = typemap (buf.type >>> 6) <<< 6

section Arrays

variable {msg : PackMessage} {m b : Mem Word} (ha : msg.Accepted) (hb : msg.Holds m b)
  (arr : Mem IpcBuffer)
include ha hb

theorem unpackX_apply (hj : (msg.descriptors .x)[j]? = some buf) :
    let desc := (unpackDescriptors 2 decodeX (fun i => b (msg.xAt + i)) msg.numX 0 0 arr).2 j
    desc.addr = buf.addr ∧ desc.size = buf.size := by
  obtain ⟨hlt, hget⟩ := List.getElem?_eq_some_iff.1 hj
  have hnumbered : ((msg.descriptors .x).zipIdx 0)[j]? = some (buf, j) := by
    rw [List.getElem?_zipIdx, hj, Option.map_some, Nat.zero_add]
  have hread := hb.read_x
  rw [PackMessage.numX, ← length_xWords 0] at hread
  have happ := unpackDescriptors_apply 2 decodeX (fun i => b (msg.xAt + i)) 0 0 arr hlt
  rw [Nat.zero_add, Nat.zero_add] at happ
  simp only [PackMessage.numX]
  rw [happ]
  have hcount := ha.count_le .x
  refine decodeX_eq (i := j) (by omega) (ha.x buf (List.mem_of_getElem? hj)) ?_ ?_
  · exact word_of_read hread (fun _ => rfl) hnumbered rfl
  · exact word_of_read hread (fun _ => rfl) hnumbered rfl

theorem unpackAB_apply {l : List IpcBuffer} {k : Nat}
    (hk : ∀ j buf, l[j]? = some buf → (msg.descriptors .a ++ msg.descriptors .b)[k + j]? = some buf)
    (hj : l[j]? = some buf) :
    let desc := (unpackDescriptors 3 decodeAB (fun i => b (msg.aAt + i)) l.length 0 (3 * k) arr).2 j
    desc.addr = buf.addr ∧ desc.size = buf.size ∧ desc.type = typemap (buf.type >>> 6) <<< 6 := by
  obtain ⟨hlt, hget⟩ := List.getElem?_eq_some_iff.1 hj
  have hget' := hk j buf hj
  have hread := hb.read_ab
  rw [PackMessage.numA, PackMessage.numB, ← List.length_append, ← length_abWords] at hread
  have happ := unpackDescriptors_apply 3 decodeAB (fun i => b (msg.aAt + i)) 0 (3 * k) arr hlt
  rw [Nat.zero_add, ← Nat.mul_add] at happ
  rw [happ]
  have hok : ABOk buf := by
    rcases List.mem_append.1 (List.mem_of_getElem? hget') with hmem | hmem
    · exact ha.a buf hmem
    · exact ha.b buf hmem
  refine decodeAB_eq hok ?_ ?_ ?_
  · exact word_of_read hread (fun _ => rfl) hget' rfl
  · exact word_of_read hread (fun _ => rfl) hget' rfl
  · exact word_of_read hread (fun _ => rfl) hget' rfl

theorem unpackC_apply (hj : (msg.descriptors .c)[j]? = some buf) :
    let desc := (unpackDescriptors 2 decodeC (fun i => b (msg.cAt + i)) msg.numC 0 0 arr).2 j
    desc.addr = wireAddrC buf.addr ∧ desc.size = buf.size := by
  obtain ⟨hlt, hget⟩ := List.getElem?_eq_some_iff.1 hj
  have hread := hb.read_c
  rw [PackMessage.numC, ← length_cWords] at hread
  have happ := unpackDescriptors_apply 2 decodeC (fun i => b (msg.cAt + i)) 0 0 arr hlt
  rw [Nat.zero_add, Nat.zero_add] at happ
  simp only [PackMessage.numC]
  rw [happ]
  refine decodeC_eq (ha.c buf (List.mem_of_getElem? hj)) ?_ ?_
  · exact word_of_read hread (fun _ => rfl) hj rfl
  · exact word_of_read hread (fun _ => rfl) hj rfl

end Arrays

/-- **The server's arrays.** What `ipc_unflatten_request` decodes from a packed request. -/
theorem RequestUnpacked.unpackAll_carries {rq : IpcRequest} {object : IpcObject}
    {stack m b : Mem Word} {u : IpcMessage} (ha : (rq.message stack object).Accepted)
    (hb : (rq.message stack object).Holds m b) (hu : RequestUnpacked rq object stack m b u)
    {arrays : Family → Mem IpcBuffer} {h : Nat} {U : DescArrays}
    (hU : unpackAll u arrays = .ok (h, U)) :
    h = 2 * (rq.message stack object).numC ∧ U.Carries (rq.message stack object).descriptors := by
  have hwords : ∀ p, u.words p = fun i => b (p + i) := by
    intro p
    funext i
    rw [IpcMessage.words, hu.buffer]
  simp only [unpackAll, IpcMessage.decoded, hu.numC, unpackDescriptors_fst, Nat.zero_add, hu.numX,
    hu.numA, hu.numB, hwords, hu.x, hu.a, hu.cAt] at hU
  cases hU
  -- the A descriptors start at the first of the joint list, the B descriptors behind them
  have hA : ∀ j buf, ((rq.message stack object).descriptors .a)[j]? = some buf →
      ((rq.message stack object).descriptors .a ++
        (rq.message stack object).descriptors .b)[0 + j]? = some buf := by
    intro j buf hj
    obtain ⟨hlt, -⟩ := List.getElem?_eq_some_iff.1 hj
    rw [Nat.zero_add, List.getElem?_append_left hlt, hj]
  have hB : ∀ j buf, ((rq.message stack object).descriptors .b)[j]? = some buf →
      ((rq.message stack object).descriptors .a ++
        (rq.message stack object).descriptors .b)[(rq.message stack object).numA + j]? =
          some buf := by
    intro j buf hj
    rw [PackMessage.numA, List.getElem?_append_right (Nat.le_add_right _ _),
      Nat.add_sub_cancel_left, hj]
  refine ⟨rfl, ?_, ?_, ?_, ?_⟩
  · intro l
    cases l <;> rfl
  · intro l j buf hj
    cases l with
    | a => exact (unpackAB_apply ha hb (arrays .a) hA hj).1
    | b => exact (unpackAB_apply ha hb (arrays .b) hB hj).1
    | c => exact (unpackC_apply ha hb (arrays .c) hj).1
    | x => exact (unpackX_apply ha hb (arrays .x) hj).1
  · intro l j buf hj
    cases l with
    | a => exact (unpackAB_apply ha hb (arrays .a) hA hj).2.1
    | b => exact (unpackAB_apply ha hb (arrays .b) hB hj).2.1
    | c => exact (unpackC_apply ha hb (arrays .c) hj).2
    | x => exact (unpackX_apply ha hb (arrays .x) hj).2
  · intro l j buf hl hj
    rcases hl with rfl | rfl
    · exact (unpackAB_apply ha hb (arrays .a) hA hj).2.2
    · exact (unpackAB_apply ha hb (arrays .b) hB hj).2.2

end LibTransistor
