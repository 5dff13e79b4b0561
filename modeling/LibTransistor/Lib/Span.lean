import Mathlib.Algebra.Order.BigOperators.Group.List
import Mathlib.Algebra.Order.Group.Nat
import Mathlib.Data.BitVec
import Mathlib.Data.Set.Lattice
import Mathlib.Order.CompletePartialOrder
import Mathlib.Tactic.Common

/-!
# Ranges of machine addresses

A range is a first address and a size, both words of the same width. `span` is the set of its
addresses; a range may run over the end of the address space and go on at 0. Where it does not,
`mem_span_iff` and `disjoint_span_iff` reduce it to arithmetic.

`Consecutive base rs`: each of some ranges begins where the one before it ends, the first one at
`base`. If they are not longer than the address space altogether, they are disjoint
(`Consecutive.pairwise_disjoint`).
-/

namespace LibTransistor

open BitVec

variable {w : Nat} {base base' size size' x : BitVec w}

/-- The addresses of a range. -/
def span (base size : BitVec w) : Set (BitVec w) := {x | x - base < size}

instance : Decidable (x ∈ span base size) := inferInstanceAs (Decidable (x - base < size))

theorem mem_span_self (h : size ≠ 0) : base ∈ span base size := by
  show base - base < size
  rw [BitVec.sub_self]
  exact Nat.pos_of_ne_zero fun h0 => h (BitVec.eq_of_toNat_eq (by simpa using h0))

theorem mem_span_iff (hfits : base.toNat + size.toNat ≤ 2 ^ w) :
    x ∈ span base size ↔ base.toNat ≤ x.toNat ∧ x.toNat < base.toNat + size.toNat := by
  show x - base < size ↔ _
  rw [BitVec.lt_def]
  by_cases h : base ≤ x
  · rw [BitVec.toNat_sub_of_le h]
    rw [BitVec.le_def] at h
    omega
  · have hlt : x < base := BitVec.not_le.1 h
    rw [BitVec.toNat_sub_of_lt hlt]
    rw [BitVec.lt_def] at hlt
    omega

theorem disjoint_span_iff (hfits : base.toNat + size.toNat ≤ 2 ^ w)
    (hfits' : base'.toNat + size'.toNat ≤ 2 ^ w) :
    Disjoint (span base size) (span base' size') ↔ size.toNat = 0 ∨ size'.toNat = 0 ∨
      base.toNat + size.toNat ≤ base'.toNat ∨ base'.toNat + size'.toNat ≤ base.toNat := by
  rw [Set.disjoint_left]
  simp only [mem_span_iff hfits, mem_span_iff hfits']
  constructor
  · intro h
    -- If both have addresses, the later of the first ones is not in both.
    have hbase := h (a := base)
    have hbase' := h (a := base')
    omega
  · intro h a ha
    omega

/-! ## Consecutive ranges -/

/-- Each range begins where the one before it ends. -/
def Consecutive (base : BitVec w) : List (BitVec w × BitVec w) → Prop
  | [] => True
  | r :: rs => r.1 = base ∧ Consecutive (base + r.2) rs

/-- The sum of the sizes. -/
def sizeSum (rs : List (BitVec w × BitVec w)) : Nat := (rs.map fun r => r.2.toNat).sum

section Consecutive

variable {r : BitVec w × BitVec w} {rs pre post : List (BitVec w × BitVec w)}

theorem sizeSum_cons : sizeSum (r :: rs) = r.2.toNat + sizeSum rs := List.sum_cons

theorem sizeSum_append : sizeSum (pre ++ post) = sizeSum pre + sizeSum post := by
  unfold sizeSum
  rw [List.map_append, List.sum_append]

theorem sizeSum_le_of_sublist (h : pre.Sublist rs) : sizeSum pre ≤ sizeSum rs :=
  (h.map _).sum_le_sum fun _ _ => Nat.zero_le _

theorem Consecutive.right (h : Consecutive base (pre ++ post)) :
    Consecutive (base + BitVec.ofNat w (sizeSum pre)) post := by
  induction pre generalizing base with
  | nil =>
    have hnil : sizeSum ([] : List (BitVec w × BitVec w)) = 0 := rfl
    rw [hnil, BitVec.add_zero]
    exact h
  | cons r pre ih =>
    have htail := ih h.2
    rw [BitVec.add_assoc] at htail
    rw [sizeSum_cons, ← BitVec.ofNat_add_ofNat, BitVec.ofNat_toNat, BitVec.setWidth_eq]
    exact htail

theorem Consecutive.le_of_mem {o : BitVec w} {n : Nat}
    (h : Consecutive (o + BitVec.ofNat w n) rs) (htotal : n + sizeSum rs ≤ 2 ^ w) (hr : r ∈ rs)
    (hx : x ∈ span r.1 r.2) : n ≤ (x - o).toNat := by
  induction rs generalizing n with
  | nil => exact absurd hr List.not_mem_nil
  | cons q rs ih =>
    rw [sizeSum_cons] at htotal
    rcases List.mem_cons.1 hr with rfl | hr
    · have hlt : x - (o + BitVec.ofNat w n) < r.2 := h.1 ▸ hx
      rw [lt_def] at hlt
      have hsub : x - o = (x - (o + BitVec.ofNat w n)) + BitVec.ofNat w n := by
        rw [sub_add_eq_sub_sub, sub_add_cancel]
      rw [hsub, toNat_add, toNat_ofNat, Nat.mod_eq_of_lt (a := n) (by omega),
        Nat.mod_eq_of_lt (by omega)]
      omega
    · have htail := h.2
      have hnext : o + BitVec.ofNat w n + q.2 = o + BitVec.ofNat w (n + q.2.toNat) := by
        rw [add_assoc, ← ofNat_add_ofNat, ofNat_toNat, setWidth_eq]
      rw [hnext] at htail
      have hle := ih htail (by omega) hr
      omega

theorem Consecutive.pairwise_disjoint (h : Consecutive base rs) (htotal : sizeSum rs ≤ 2 ^ w) :
    rs.Pairwise fun r r' => Disjoint (span r.1 r.2) (span r'.1 r'.2) := by
  induction rs generalizing base with
  | nil => exact List.Pairwise.nil
  | cons r rs ih =>
    rw [sizeSum_cons] at htotal
    refine List.Pairwise.cons (fun r' hr' => ?_) (ih h.2 (by omega))
    rw [Set.disjoint_left]
    intro x hx hx'
    have hlt : x - base < r.2 := h.1 ▸ hx
    rw [lt_def] at hlt
    have htail : Consecutive (base + BitVec.ofNat w r.2.toNat) rs := by
      rw [ofNat_toNat, setWidth_eq]
      exact h.2
    have hle := htail.le_of_mem htotal hr' hx'
    omega

end Consecutive

end LibTransistor
