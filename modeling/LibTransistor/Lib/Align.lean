import LibTransistor.Lib.Bits

/-!
# Alignment

`alignUp n a` is the least multiple of `a` from `n` on. `alignUp_eq` tells it apart from every other
number; a word is aligned to a power of two by adding a mask and clearing it (`toNat_add_and_not`),
up to the overflow of the addition.
-/

namespace LibTransistor.Align

open BitVec

/-- The least multiple of `a` from `n` on. -/
def alignUp (n a : Nat) : Nat := (n + a - 1) / a * a

variable {a n m k : Nat}

theorem dvd_alignUp (n a : Nat) : a ∣ alignUp n a := Dvd.intro_left _ rfl

theorem le_alignUp (ha : 0 < a) (n : Nat) : n ≤ alignUp n a := by
  have hdiv := Nat.div_add_mod' (n + a - 1) a
  have hmod := Nat.mod_lt (n + a - 1) ha
  unfold alignUp
  omega

theorem alignUp_lt (ha : 0 < a) (n : Nat) : alignUp n a < n + a := by
  have hle := Nat.div_mul_le_self (n + a - 1) a
  unfold alignUp
  omega

theorem alignUp_eq (ha : 0 < a) (hdvd : a ∣ m) (hle : n ≤ m) (hlt : m < n + a) :
    alignUp n a = m := by
  obtain ⟨q, rfl⟩ := hdvd
  have hquot : (n + a - 1) / a = q := by
    rw [Nat.div_eq_iff ha, Nat.mul_comm q a]
    omega
  rw [alignUp, hquot, Nat.mul_comm]

theorem alignUp_of_dvd (ha : 0 < a) (h : a ∣ n) : alignUp n a = n :=
  alignUp_eq ha h (Nat.le_refl n) (Nat.lt_add_of_pos_right ha)

theorem alignUp_add (ha : 0 < a) (hk : a ∣ k) (n : Nat) : alignUp (k + n) a = k + alignUp n a := by
  have hle := le_alignUp ha n
  have hlt := alignUp_lt ha n
  apply alignUp_eq ha (Nat.dvd_add hk (dvd_alignUp n a))
  · omega
  · omega

/-- Rounding up as programs do it: only where it is needed, by what is missing. -/
theorem alignUp_of_and (n k : Nat) :
    (if n &&& (2 ^ k - 1) ≠ 0 then n + (2 ^ k - (n &&& (2 ^ k - 1))) else n) = alignUp n (2 ^ k) := by
  have hpos := Nat.two_pow_pos k
  have hdiv := Nat.div_add_mod n (2 ^ k)
  rw [Nat.and_two_pow_sub_one_eq_mod]
  split_ifs with h
  · have hdvd : 2 ^ k ∣ n + (2 ^ k - n % 2 ^ k) := ⟨n / 2 ^ k + 1, by rw [Nat.mul_add]; omega⟩
    exact (alignUp_eq hpos hdvd (by omega) (by omega)).symm
  · exact (alignUp_of_dvd hpos (Nat.dvd_of_mod_eq_zero (not_not.1 h))).symm

/-! ## Words -/

variable {w : Nat} {x y mask : BitVec w}

theorem toNat_and_not (hmask : mask.toNat = 2 ^ k - 1) :
    (x &&& ~~~mask).toNat = x.toNat / 2 ^ k * 2 ^ k := by
  apply Nat.eq_of_testBit_eq
  intro i
  have hm : mask.getLsbD i = decide (i < k) := by
    rw [← testBit_toNat, hmask, Nat.testBit_two_pow_sub_one]
  rw [testBit_toNat, getLsbD_and, getLsbD_not, hm, ← Nat.shiftRight_eq_div_pow,
    ← Nat.shiftLeft_eq, Nat.testBit_shiftLeft, Nat.testBit_shiftRight, testBit_toNat]
  by_cases hi : i < k
  · simp [hi]
  · have hle : k ≤ i := Nat.le_of_not_lt hi
    rw [Nat.add_sub_cancel' hle]
    by_cases hx : x.getLsbD i = true
    · simp [hle, lt_of_getLsbD hx]
    · simp [hx]

theorem div_mul_mod (n : Nat) (hk : k ≤ w) :
    n % 2 ^ w / 2 ^ k * 2 ^ k = n / 2 ^ k * 2 ^ k % 2 ^ w := by
  obtain ⟨d, rfl⟩ := Nat.exists_eq_add_of_le hk
  rw [Nat.pow_add, Nat.mod_mul_right_div_self, Nat.mul_comm (2 ^ k) (2 ^ d), Nat.mul_mod_mul_right]

theorem toNat_add_and_not (hk : k ≤ w) (hmask : mask.toNat = 2 ^ k - 1) :
    ((x + mask) &&& ~~~mask).toNat = alignUp x.toNat (2 ^ k) % 2 ^ w := by
  have hpos := Nat.two_pow_pos k
  rw [toNat_and_not hmask, toNat_add, hmask, div_mul_mod _ hk, alignUp,
    Nat.add_sub_assoc hpos]

theorem add_and_not (hk : k ≤ w) (hmask : mask.toNat = 2 ^ k - 1) (hy : 2 ^ k ∣ y.toNat) :
    y + (x &&& ~~~mask) = (y + x) &&& ~~~mask := by
  obtain ⟨q, hq⟩ := hy
  apply eq_of_toNat_eq
  rw [toNat_add, toNat_and_not hmask, toNat_and_not hmask, toNat_add,
    div_mul_mod _ hk, hq, Nat.mul_add_div (Nat.two_pow_pos k), Nat.add_mul, Nat.mul_comm (2 ^ k) q]

end LibTransistor.Align
