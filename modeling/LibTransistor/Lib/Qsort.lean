import LibTransistor.Lib.Memory
import Mathlib.Data.List.Perm.Basic

/-!
# What `qsort` promises

`qsort` calls its comparison function with the addresses of two elements, and moves elements while
it works. If the function compares elements by a total order, wherever they are (`Compares`), the
array ends up sorted; otherwise it ends up with the same elements in some order (`SortedBy`). A
function that does not look at the elements promises nothing about the order (`sortedBy_iff_perm`).
-/

namespace LibTransistor

namespace Qsort

variable {α β : Type}

/-- A comparison function: it reads memory at two addresses. -/
abbrev Comparator (β : Type) := Mem β → Nat → Nat → Int

variable (cmp : Comparator β) (encode : α → β) (m : Mem β)

/-- On the array `xs` at address 0, and on each order of it, the function compares elements as `le`
does. -/
def Compares (le : α → α → Prop) (xs : List α) : Prop :=
  ∀ ys : List α, ys.Perm xs → ∀ (i j : Nat) (hi : i < ys.length) (hj : j < ys.length),
    cmp (m.write 0 (ys.map encode)) i j ≤ 0 ↔ le ys[i] ys[j]

/-- The array `ys` is what `qsort` may leave of `xs`. -/
structure SortedBy (xs ys : List α) : Prop where
  perm : ys.Perm xs
  sorted : ∀ le : α → α → Prop, (∀ x y, le x y ∨ le y x) → (∀ x y z, le x y → le y z → le x z) →
    Compares cmp encode m le xs → ys.Pairwise le

variable {cmp encode m} {xs ys : List α}

/-- Two elements that trade places show the function the same memory. -/
theorem Compares.symm {le : α → α → Prop}
    (hblind : ∀ ys zs : List α, ys.Perm xs → zs.Perm xs → ∀ i j, i < xs.length → j < xs.length →
      cmp (m.write 0 (ys.map encode)) i j = cmp (m.write 0 (zs.map encode)) i j)
    (h : Compares cmp encode m le xs) {x y : α} {rest : List α} (hrest : (x :: y :: rest).Perm xs) :
    le x y ↔ le y x := by
  have hswap : (y :: x :: rest).Perm xs := (List.Perm.swap x y rest).trans hrest
  have hlength := hrest.length_eq
  simp only [List.length_cons] at hlength
  have hxy := h _ hrest 0 1 (by simp) (by simp)
  have hyx := h _ hswap 0 1 (by simp) (by simp)
  rw [hblind _ _ hrest hswap 0 1 (by omega) (by omega)] at hxy
  exact hxy.symm.trans hyx

/-- **A comparison function that does not look at the elements** lets `qsort` leave them in any
order. -/
theorem sortedBy_iff_perm
    (hblind : ∀ ys zs : List α, ys.Perm xs → zs.Perm xs → ∀ i j, i < xs.length → j < xs.length →
      cmp (m.write 0 (ys.map encode)) i j = cmp (m.write 0 (zs.map encode)) i j) :
    SortedBy cmp encode m xs ys ↔ ys.Perm xs := by
  refine ⟨SortedBy.perm, fun hperm => ⟨hperm, fun le htotal _ hcompares => ?_⟩⟩
  rw [List.pairwise_iff_forall_sublist]
  intro x y hsub
  -- the two elements can be brought to the front
  obtain ⟨rest, hrest⟩ := hsub.exists_perm_append
  have hxy : le x y ↔ le y x := hcompares.symm hblind (hrest.symm.trans hperm)
  rcases htotal x y with hle | hle
  · exact hle
  · exact hxy.2 hle

end Qsort

end LibTransistor
