import LibTransistor.Lib.Bits
import Mathlib.Tactic.Ring

/-!
# Depositing bits under a mask

`deposit m v` puts the bits of `v`, lowest first, to the places of a mask. A mask is the list of its
bits, lowest first, so that it is taken apart from the low end (`deposit_true`), and split where its
pattern changes (`deposit_append`).

**Counting under a mask** (`deposit_succ`). Subtracting the mask and masking the difference is one
step of a counter that lives in the places of the mask: the carry runs over the gaps.

Two values under a mask and under its complement do not meet: their sum is their OR
(`deposit_or_deposit`), it determines both (`deposit_add_inj`), and every number is such a sum
(`exists_deposit_add`).
-/

namespace LibTransistor.Deposit

open List

/-! ## Masks -/

/-- The places of a mask. -/
def places (m : List Bool) : Nat := m.count true

/-- The mask as a number. -/
def ones : List Bool → Nat
  | [] => 0
  | b :: m => Nat.bit b (ones m)

/-- The places that are not in the mask. -/
def gaps (m : List Bool) : List Bool := m.map not

/-- The bits of `v` in the places of the mask. -/
def deposit : List Bool → Nat → Nat
  | [], _ => 0
  | true :: m, v => Nat.bit (v.testBit 0) (deposit m (v / 2))
  | false :: m, v => Nat.bit false (deposit m v)

variable (m : List Bool) (v u : Nat)

theorem bit_testBit_zero (v n : Nat) : Nat.bit (v.testBit 0) n = v % 2 + 2 * n := by
  by_cases h : v % 2 = 1
  · simp [h, Nat.add_comm]
  · have h0 : v % 2 = 0 := by omega
    simp [h0]

theorem deposit_true : deposit (true :: m) v = v % 2 + 2 * deposit m (v / 2) :=
  bit_testBit_zero _ _

theorem deposit_false : deposit (false :: m) v = 2 * deposit m v := rfl

theorem places_true : places (true :: m) = places m + 1 := count_cons_self

theorem places_false : places (false :: m) = places m := count_cons_of_ne (by decide)

theorem places_append (m' : List Bool) : places (m ++ m') = places m + places m' :=
  count_append

theorem ones_add_gaps : ones m + ones (gaps m) + 1 = 2 ^ m.length := by
  induction m with
  | nil => rfl
  | cons b m ih =>
    unfold gaps at ih ⊢
    simp only [ones, map_cons]
    cases b <;> simp <;> omega

/-! ## The value -/

theorem deposit_lt : deposit m v < 2 ^ m.length := by
  induction m generalizing v with
  | nil => exact Nat.one_pos
  | cons b m ih =>
    rw [length_cons]
    cases b with
    | true =>
      have h := ih (v / 2)
      rw [deposit_true]
      omega
    | false =>
      have h := ih v
      rw [deposit_false]
      omega

theorem deposit_mod : deposit m (v % 2 ^ places m) = deposit m v := by
  induction m generalizing v with
  | nil => rfl
  | cons b m ih =>
    cases b with
    | true =>
      rw [deposit_true, deposit_true, places_true, Nat.pow_succ, Nat.mul_comm,
        Nat.mod_mul_right_div_self, ih, Nat.mod_mul_right_mod]
    | false => rw [deposit_false, deposit_false, places_false, ih]

theorem deposit_append (m' : List Bool) :
    deposit (m ++ m') v = deposit m v + 2 ^ m.length * deposit m' (v / 2 ^ places m) := by
  induction m generalizing v with
  | nil =>
    show deposit m' v = 0 + 1 * deposit m' (v / 1)
    rw [Nat.div_one, Nat.one_mul, Nat.zero_add]
  | cons b m ih =>
    rw [cons_append, length_cons, Nat.pow_succ]
    cases b with
    | true =>
      rw [deposit_true, deposit_true, ih, places_true, Nat.pow_succ', Nat.div_div_eq_div_mul]
      ring
    | false =>
      rw [deposit_false, deposit_false, ih, places_false]
      ring

theorem deposit_replicate_true (n : Nat) : deposit (List.replicate n true) v = v % 2 ^ n := by
  induction n generalizing v with
  | zero => rw [Nat.pow_zero, Nat.mod_one]; rfl
  | succ n ih => rw [replicate_succ, deposit_true, ih, Nat.pow_succ', Nat.mod_mul]

theorem deposit_inj {m : List Bool} {v u : Nat} (h : deposit m v = deposit m u) :
    v % 2 ^ places m = u % 2 ^ places m := by
  induction m generalizing v u with
  | nil => rw [show places [] = 0 from rfl, Nat.pow_zero, Nat.mod_one, Nat.mod_one]
  | cons b m ih =>
    cases b with
    | true =>
      rw [deposit_true, deposit_true] at h
      have hrest := @ih (v / 2) (u / 2) (by omega)
      rw [places_true, Nat.pow_succ', Nat.mod_mul, Nat.mod_mul]
      omega
    | false =>
      rw [deposit_false, deposit_false] at h
      exact ih (by omega)

theorem deposit_eq_zero_iff : deposit m v = 0 ↔ v % 2 ^ places m = 0 := by
  have hzero : deposit m 0 = 0 := by
    induction m with
    | nil => rfl
    | cons b m ih =>
      cases b with
      | true => rw [deposit_true]; simpa using ih
      | false => rw [deposit_false, ih]
  constructor
  · intro h
    have hmod := deposit_inj (h.trans hzero.symm)
    rwa [Nat.zero_mod] at hmod
  · intro h
    rw [← deposit_mod, h, hzero]

/-! ## A mask and its complement -/

theorem deposit_or_deposit :
    deposit m v ||| deposit (gaps m) u = deposit m v + deposit (gaps m) u := by
  induction m generalizing v u with
  | nil => exact Nat.or_self 0
  | cons b m ih =>
    unfold gaps at ih ⊢
    cases b with
    | true =>
      show Nat.bit _ _ ||| Nat.bit false _ = Nat.bit _ _ + Nat.bit false _
      rw [Nat.lor_bit, ih, Bool.or_false, bit_testBit_zero, bit_testBit_zero, Nat.bit_false]
      ring
    | false =>
      show Nat.bit false _ ||| Nat.bit _ _ = Nat.bit false _ + Nat.bit _ _
      rw [Nat.lor_bit, ih, Bool.false_or, bit_testBit_zero, bit_testBit_zero, Nat.bit_false]
      ring

/-- The sum of a deposit and of one in the gaps determines both. -/
theorem deposit_add_inj {m : List Bool} {v v' u u' : Nat}
    (h : deposit m v + deposit (gaps m) u = deposit m v' + deposit (gaps m) u') :
    deposit m v = deposit m v' ∧ deposit (gaps m) u = deposit (gaps m) u' := by
  induction m generalizing v v' u u' with
  | nil => exact ⟨rfl, rfl⟩
  | cons b m ih =>
    unfold gaps at h ih ⊢
    cases b with
    | true =>
      rw [map_cons, Bool.not_true, deposit_true, deposit_true, deposit_false,
        deposit_false] at h
      have hrest := @ih (v / 2) (v' / 2) u u' (by omega)
      rw [map_cons, Bool.not_true, deposit_true, deposit_true, deposit_false, hrest.2]
      exact ⟨by omega, rfl⟩
    | false =>
      rw [map_cons, Bool.not_false, deposit_true, deposit_true, deposit_false,
        deposit_false] at h
      have hrest := @ih v v' (u / 2) (u' / 2) (by omega)
      rw [map_cons, Bool.not_false, deposit_true, deposit_true, deposit_false,
        hrest.1]
      exact ⟨rfl, by omega⟩

/-- Every number of the mask's length is such a sum. -/
theorem exists_deposit_add {m : List Bool} {n : Nat} (hn : n < 2 ^ m.length) :
    ∃ v u, v < 2 ^ places m ∧ u < 2 ^ places (gaps m) ∧
      deposit m v + deposit (gaps m) u = n := by
  induction m generalizing n with
  | nil =>
    have hzero : n = 0 := by simpa using hn
    exact ⟨0, 0, Nat.one_pos, Nat.one_pos, hzero.symm⟩
  | cons b m ih =>
    rw [length_cons] at hn
    obtain ⟨v, u, hv, hu, hsum⟩ := @ih (n / 2) (by omega)
    unfold gaps at hu hsum ⊢
    rw [map_cons]
    -- the lowest bit of `n` belongs to one of the two
    cases b with
    | true =>
      refine ⟨n % 2 + 2 * v, u, ?_, ?_, ?_⟩
      · rw [places_true]
        omega
      · rwa [Bool.not_true]
      · rw [Bool.not_true, deposit_true, deposit_false,
          show (n % 2 + 2 * v) / 2 = v by omega]
        omega
    | false =>
      refine ⟨v, n % 2 + 2 * u, ?_, ?_, ?_⟩
      · rwa [places_false]
      · rw [Bool.not_false, places_true]
        omega
      · rw [Bool.not_false, deposit_true, deposit_false,
          show (n % 2 + 2 * u) / 2 = u by omega]
        omega

/-! ## Counting -/

theorem deposit_add_carry {c : Nat} (hc : c ≤ 1) :
    (deposit m v + ones (gaps m) + c) &&& ones m = deposit m (v + c) := by
  induction m generalizing v c with
  | nil => exact Nat.and_zero _
  | cons b m ih =>
    unfold gaps at ih ⊢
    cases b with
    | true =>
      have hsum : deposit (true :: m) v + ones ((true :: m).map not) + c =
          Nat.bit ((v + c).testBit 0)
            (deposit m (v / 2) + ones (m.map not) + (v % 2 + c) / 2) := by
        rw [bit_testBit_zero, deposit_true]
        simp only [map_cons, Bool.not_true, ones, Nat.bit_false]
        omega
      rw [hsum]
      show Nat.bit _ _ &&& Nat.bit true (ones m) = Nat.bit _ (deposit m ((v + c) / 2))
      rw [Nat.land_bit, Bool.and_true, ih (v / 2) (by omega)]
      congr 2
      omega
    | false =>
      have hsum : deposit (false :: m) v + ones ((false :: m).map not) + c =
          Nat.bit ((1 + c).testBit 0) (deposit m v + ones (m.map not) + c) := by
        rw [bit_testBit_zero, deposit_false]
        simp only [map_cons, Bool.not_false, ones, Nat.bit_true]
        omega
      rw [hsum]
      show Nat.bit _ _ &&& Nat.bit false (ones m) = Nat.bit false (deposit m (v + c))
      rw [Nat.land_bit, Bool.and_false, ih v hc]

/-! ## Masks that are words -/

section Words

variable {n : Nat}

/-- The bits of a word, lowest first. -/
def bits (w : BitVec n) : List Bool := (List.range n).map w.getLsbD

@[simp] theorem length_bits (w : BitVec n) : (bits w).length = n := by
  unfold bits
  rw [length_map, length_range]

theorem testBit_ones (i : Nat) : (ones m).testBit i = (m[i]?).getD false := by
  induction m generalizing i with
  | nil => exact Nat.zero_testBit i
  | cons b m ih =>
    cases i with
    | zero => exact Nat.testBit_bit_zero b _
    | succ i => exact (Nat.testBit_bit_succ i b _).trans (ih i)

theorem ones_bits (w : BitVec n) : ones (bits w) = w.toNat := by
  apply Nat.eq_of_testBit_eq
  intro i
  rw [testBit_ones, BitVec.testBit_toNat]
  unfold bits
  by_cases hi : i < n
  · rw [getElem?_map, getElem?_range hi]
    rfl
  · rw [getElem?_eq_none (by rw [length_map, length_range]; omega),
      BitVec.getLsbD_of_ge w i (by omega)]
    rfl

theorem deposit_succ {a mask : BitVec n} {v : Nat} (h : a.toNat = deposit (bits mask) v) :
    ((a - mask) &&& mask).toNat = deposit (bits mask) (v + 1) := by
  have hones := ones_add_gaps (bits mask)
  rw [length_bits, ones_bits] at hones
  have hsub : 2 ^ n - mask.toNat + a.toNat = a.toNat + ones (gaps (bits mask)) + 1 := by omega
  have hland := deposit_add_carry (bits mask) v (Nat.le_refl 1)
  rw [ones_bits, ← h] at hland
  calc ((a - mask) &&& mask).toNat
      = (2 ^ n - mask.toNat + a.toNat) % 2 ^ n &&& mask.toNat % 2 ^ n := by
        rw [BitVec.toNat_and, BitVec.toNat_sub, Nat.mod_eq_of_lt mask.isLt]
    _ = (a.toNat + ones (gaps (bits mask)) + 1 &&& mask.toNat) % 2 ^ n := by
        rw [hsub, Nat.and_mod_two_pow]
    _ = deposit (bits mask) (v + 1) := by
        rw [hland]
        exact Nat.mod_eq_of_lt (by simpa using deposit_lt (bits mask) (v + 1))

end Words

end LibTransistor.Deposit
