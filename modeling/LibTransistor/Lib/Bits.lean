import Mathlib.Data.Nat.Bitwise
import Mathlib.Tactic.Common

/-!
# Bit fields

`field n k w` is the `w` bits of `n` from bit `k` on. A word put together as an OR of shifted values
is read back field by field: `field_or` splits the OR, and each operand lies below the field, above
it, or is the field. Nothing is assumed about the operands fitting where they are put, so the same
rules say what a field holds when its neighbour spills into it.
-/

namespace LibTransistor.Bits

open BitVec

/-- The `w` bits of `n` from bit `k` on. -/
def field (n k w : Nat) : Nat := n / 2 ^ k % 2 ^ w

theorem field_lt (n k w : Nat) : field n k w < 2 ^ w := Nat.mod_lt _ (Nat.two_pow_pos w)

theorem field_or (a b k w : Nat) : field (a ||| b) k w = field a k w ||| field b k w := by
  unfold field
  simp only [← Nat.shiftRight_eq_div_pow]
  rw [Nat.shiftRight_or_distrib, Nat.or_mod_two_pow]

theorem field_of_lt {n k : Nat} (w : Nat) (h : n < 2 ^ k) : field n k w = 0 := by
  unfold field
  rw [Nat.div_eq_of_lt h, Nat.zero_mod]

theorem field_shiftLeft_above (n : Nat) {j k w : Nat} (h : k + w ≤ j) :
    field (n <<< j) k w = 0 := by
  obtain ⟨i, rfl⟩ := Nat.exists_eq_add_of_le h
  unfold field
  rw [Nat.shiftLeft_eq, show n * 2 ^ (k + w + i) = n * 2 ^ i * 2 ^ w * 2 ^ k by
    rw [Nat.pow_add, Nat.pow_add]; ac_rfl, Nat.mul_div_cancel _ (Nat.two_pow_pos k),
    Nat.mul_mod_left]

theorem field_shiftLeft (n : Nat) {j k : Nat} (w : Nat) (h : j ≤ k) :
    field (n <<< j) k w = field n (k - j) w := by
  obtain ⟨i, rfl⟩ := Nat.exists_eq_add_of_le h
  unfold field
  rw [Nat.shiftLeft_eq, Nat.pow_add, ← Nat.div_div_eq_div_mul,
    Nat.mul_div_cancel _ (Nat.two_pow_pos j), Nat.add_sub_cancel_left]

theorem field_at_zero (n w : Nat) : field n 0 w = n % 2 ^ w := by
  unfold field
  rw [Nat.pow_zero, Nat.div_one]

theorem field_at_zero_of_lt {n w : Nat} (h : n < 2 ^ w) : field n 0 w = n := by
  rw [field_at_zero, Nat.mod_eq_of_lt h]

theorem field_or_above (a b : Nat) {j k w : Nat} (h : k + w ≤ j) :
    field (a ||| b <<< j) k w = field a k w := by
  rw [field_or, field_shiftLeft_above b h, Nat.or_zero]

theorem field_or_at {a k : Nat} (b w : Nat) (h : a < 2 ^ k) :
    field (a ||| b <<< k) k w = b % 2 ^ w := by
  rw [field_or, field_of_lt w h, Nat.zero_or, field_shiftLeft b w (Nat.le_refl k), Nat.sub_self,
    field_at_zero]

/-- An OR of a multiple of `2 ^ k` and a number below it is their sum. -/
theorem or_eq_add {a b : Nat} (k : Nat) (ha : 2 ^ k ∣ a) (hb : b < 2 ^ k) : a ||| b = a + b := by
  obtain ⟨c, rfl⟩ := ha
  rw [Nat.mul_comm, ← Nat.shiftLeft_eq, Nat.shiftLeft_add_eq_or_of_lt hb]

theorem field_mod (n : Nat) {j k w : Nat} (h : k + w ≤ j) : field (n % 2 ^ j) k w = field n k w := by
  obtain ⟨i, rfl⟩ := Nat.exists_eq_add_of_le h
  unfold field
  rw [Nat.add_assoc, Nat.pow_add 2 k, Nat.mod_mul_right_div_self, Nat.pow_add 2 w,
    Nat.mod_mul_right_mod]

/-- A number put together from its low bits and the fields above them. -/
theorem low_or_field (n k w : Nat) : n % 2 ^ k ||| field n k w <<< k = n % 2 ^ (k + w) := by
  have hlow : n % 2 ^ k < 2 ^ k := Nat.mod_lt _ (Nat.two_pow_pos k)
  rw [Nat.or_comm, or_eq_add k ⟨field n k w, by rw [Nat.shiftLeft_eq, Nat.mul_comm]⟩ hlow]
  rw [Nat.shiftLeft_eq, field, Nat.pow_add, Nat.mod_mul, Nat.mul_comm, Nat.add_comm]

/-! ## Words -/

variable {n : Nat} (x m : BitVec n)

theorem toNat_shiftRight_and (k w : Nat) (hm : m.toNat = 2 ^ w - 1) :
    ((x >>> k) &&& m).toNat = field x.toNat k w := by
  rw [toNat_and, toNat_ushiftRight, hm, Nat.and_two_pow_sub_one_eq_mod,
    Nat.shiftRight_eq_div_pow]
  rfl

theorem toNat_and_mask (w : Nat) (hm : m.toNat = 2 ^ w - 1) :
    (x &&& m).toNat = field x.toNat 0 w := by
  rw [toNat_and, hm, Nat.and_two_pow_sub_one_eq_mod, field_at_zero]

theorem toNat_and_mask_lt (w : Nat) (hm : m.toNat = 2 ^ w - 1) : (x &&& m).toNat < 2 ^ w := by
  rw [toNat_and_mask x m w hm]
  exact field_lt _ _ _

theorem toNat_shiftLeft_of_lt (x : BitVec n) {k : Nat} (h : x.toNat <<< k < 2 ^ n) :
    (x <<< k).toNat = x.toNat <<< k := by
  rw [toNat_shiftLeft, Nat.mod_eq_of_lt h]

theorem toNat_ofNat_shiftLeft {w k : Nat} (h : n <<< k < 2 ^ w) :
    (BitVec.ofNat w n <<< k).toNat = n <<< k := by
  have hle : n ≤ n <<< k := by
    rw [Nat.shiftLeft_eq]
    exact Nat.le_mul_of_pos_right n (Nat.two_pow_pos k)
  have hn : (BitVec.ofNat w n).toNat = n := by
    rw [toNat_ofNat, Nat.mod_eq_of_lt (Nat.lt_of_le_of_lt hle h)]
  rw [toNat_shiftLeft_of_lt _ (by rwa [hn]), hn]

theorem toNat_lt_of_shiftRight_eq_zero {x : BitVec n} {k : Nat} (h : x >>> k = 0) :
    x.toNat < 2 ^ k := by
  have h' := congrArg BitVec.toNat h
  rw [toNat_ushiftRight, Nat.shiftRight_eq_div_pow] at h'
  rcases Nat.lt_or_ge x.toNat (2 ^ k) with hlt | hge
  · exact hlt
  · have hpos := Nat.div_pos hge (Nat.two_pow_pos k)
    rw [h'] at hpos
    simp at hpos

theorem toNat_shiftRight (x : BitVec n) {k w : Nat} (h : k + w = n) :
    (x >>> k).toNat = field x.toNat k w := by
  rw [toNat_ushiftRight, Nat.shiftRight_eq_div_pow]
  refine (Nat.mod_eq_of_lt ?_).symm
  refine Nat.div_lt_of_lt_mul ?_
  rw [← Nat.pow_add, h]
  exact x.isLt

theorem toNat_field_shiftLeft (k w j : Nat) (hm : m.toNat = 2 ^ w - 1)
    (h : w + j ≤ n) : (((x >>> k) &&& m) <<< j).toNat = field x.toNat k w <<< j := by
  have hx := toNat_shiftRight_and x m k w hm
  have hlt := field_lt x.toNat k w
  rw [toNat_shiftLeft_of_lt, hx]
  rw [hx, Nat.shiftLeft_eq]
  calc field x.toNat k w * 2 ^ j < 2 ^ w * 2 ^ j := Nat.mul_lt_mul_of_pos_right hlt (Nat.two_pow_pos j)
    _ = 2 ^ (w + j) := (Nat.pow_add 2 w j).symm
    _ ≤ 2 ^ n := Nat.pow_le_pow_right (by decide) h

/-! ## Halves -/

variable (w : BitVec 64)

/-- The half of a word at the lower address. -/
def low : BitVec 32 := w.extractLsb' 0 32

/-- The half of a word at the higher address. -/
def high : BitVec 32 := w.extractLsb' 32 32

/-- Store a half of a word and leave the other as it is. -/
def setLow (x : BitVec 32) : BitVec 64 := high w ++ x

@[inherit_doc setLow]
def setHigh (x : BitVec 32) : BitVec 64 := x ++ low w

variable (x : BitVec 32)

theorem high_append_low : high w ++ low w = w := by
  have hwhole : high w ++ low w = w.extractLsb' 0 64 :=
    extractLsb'_append_extractLsb'_eq_extractLsb' rfl
  rw [hwhole, extractLsb'_eq_self]

@[simp] theorem low_setLow : low (setLow w x) = x := by
  unfold low setLow
  rw [extractLsb'_append_eq_right]

@[simp] theorem low_setHigh : low (setHigh w x) = low w := by
  unfold setHigh
  unfold low
  rw [extractLsb'_append_eq_right]

@[simp] theorem high_setHigh : high (setHigh w x) = x := by
  unfold high setHigh
  rw [extractLsb'_append_eq_left]

@[simp] theorem low_signExtend : low (x.signExtend 64) = x := by
  apply eq_of_getLsbD_eq
  intro i hi
  have hi64 : i < 64 := by omega
  simp [low, hi, hi64, getElem_signExtend]

/-! ## Signed words -/

section Signed

variable {n : Nat} {y : BitVec 32}

theorem toNat_signExtend_of_lt (h : y.toNat < 2 ^ 31) : (y.signExtend 64).toNat = y.toNat := by
  have hmsb : y.msb = false := msb_eq_false_iff_two_mul_lt.2 (by omega)
  rw [signExtend_eq_setWidth_of_msb_false hmsb, toNat_setWidth,
    Nat.mod_eq_of_lt (by omega)]

theorem toInt_of_pos (h : 0 < y.toInt) : y.toInt = y.toNat ∧ y.toNat < 2 ^ 31 := by
  rw [toInt_eq_toNat_cond] at h ⊢
  split_ifs at h ⊢ <;> omega

theorem toInt_ofNat_of_lt (h : n < 2 ^ 31) : (BitVec.ofNat 32 n).toInt = n := by
  have hlt : (BitVec.ofNat 32 n).toNat = n := by
    rw [toNat_ofNat, Nat.mod_eq_of_lt (by omega)]
  rw [toInt_eq_toNat_of_lt (by omega), hlt]

end Signed

end LibTransistor.Bits
