import Mathlib.Data.Fintype.Basic
import Mathlib.Algebra.BigOperators.Group.Finset.Basic
import Mathlib.Algebra.BigOperators.Group.Finset.Piecewise

/-!
# Reference counting

What happens to reference-counted things is a log of events, newest first: a reference is taken, a
reference is given back, the thing is released. `outstanding` are the references taken and not given
back.

A log is `Disciplined` when only things that were never taken before, or that have outstanding
references, are taken, only outstanding references are given back, and a thing is released when the
last one is. Then a thing that was released has no references left
(`Disciplined.outstanding_eq_zero`) and is released only once (`Disciplined.count_released_le`).
-/

namespace LibTransistor

open List

/-! ## Logs -/

inductive RefEvent (α : Type)
  /-- A reference was taken. -/
  | taken (a : α)
  /-- A reference was given back. -/
  | given (a : α)
  /-- The thing was released. -/
  | released (a : α)
  deriving DecidableEq

namespace RefEvent

variable {α : Type} [DecidableEq α] {l : List (RefEvent α)} {a b : α}

/-- The references taken and not given back. -/
def outstanding (l : List (RefEvent α)) (a : α) : Nat :=
  l.count (.taken a) - l.count (.given a)

inductive Disciplined : List (RefEvent α) → Prop
  | nil : Disciplined []
  | create {l : List (RefEvent α)} {a : α} (h : Disciplined l) (hnew : .taken a ∉ l) :
      Disciplined (.taken a :: l)
  | take {l : List (RefEvent α)} {a : α} (h : Disciplined l) (hpos : 0 < outstanding l a) :
      Disciplined (.taken a :: l)
  | give {l : List (RefEvent α)} {a : α} (h : Disciplined l) (hpos : 0 < outstanding l a) :
      Disciplined (.given a :: l)
  | release {l : List (RefEvent α)} {a : α} (h : Disciplined l) (hone : outstanding l a = 1) :
      Disciplined (.released a :: .given a :: l)

theorem outstanding_le_length (l : List (RefEvent α)) (a : α) : outstanding l a ≤ l.length :=
  le_trans (Nat.sub_le _ _) count_le_length

@[simp] theorem outstanding_released : outstanding (.released b :: l) a = outstanding l a := by
  simp [outstanding]

theorem outstanding_given :
    outstanding (.given b :: l) a = outstanding l a - if b = a then 1 else 0 := by
  simp only [outstanding, count_cons, beq_iff_eq, given.injEq, reduceCtorEq, if_false]
  omega

/-- The references a log gives back were taken in it. -/
def Balanced (l : List (RefEvent α)) : Prop := ∀ a, l.count (.given a) ≤ l.count (.taken a)

theorem Balanced.outstanding_taken (h : Balanced l) :
    outstanding (.taken b :: l) a = outstanding l a + if b = a then 1 else 0 := by
  have hle := h a
  simp only [outstanding, count_cons, beq_iff_eq, taken.injEq, reduceCtorEq, if_false]
  omega

theorem Balanced.taken (h : Balanced l) : Balanced (.taken b :: l) := by
  intro a
  have hle := h a
  simp only [count_cons, beq_iff_eq, reduceCtorEq, if_false]
  omega

theorem Balanced.given (h : Balanced l) (hpos : 0 < outstanding l b) :
    Balanced (.given b :: l) := by
  intro a
  have hle := h a
  unfold outstanding at hpos
  simp only [count_cons, beq_iff_eq, given.injEq, reduceCtorEq, if_false]
  split_ifs with hab
  · subst hab
    omega
  · omega

theorem Balanced.released (h : Balanced l) : Balanced (.released b :: l) := by
  intro a
  have hle := h a
  simpa [count_cons] using hle

theorem outstanding_eq_zero_of_not_mem (h : .taken a ∉ l) : outstanding l a = 0 := by
  unfold outstanding
  rw [count_eq_zero_of_not_mem h, Nat.zero_sub]

theorem taken_mem_of_pos (h : 0 < outstanding l a) : .taken a ∈ l := by
  by_contra hnot
  rw [outstanding_eq_zero_of_not_mem hnot] at h
  exact Nat.lt_irrefl 0 h

namespace Disciplined

theorem balanced (h : Disciplined l) : Balanced l := by
  induction h with
  | nil => exact fun a => Nat.le_refl 0
  | create _ _ ih | take _ _ ih => exact ih.taken
  | give _ hpos ih => exact ih.given hpos
  | release _ hone ih => exact (ih.given (by omega)).released

theorem outstanding_eq_zero (h : Disciplined l) (hr : .released a ∈ l) :
    .taken a ∈ l ∧ outstanding l a = 0 := by
  induction h with
  | nil => cases hr
  | @create l b h hnew ih =>
    obtain ⟨hmem, hzero⟩ := ih (by simpa using hr)
    have hne : b ≠ a := fun hba => hnew (hba ▸ hmem)
    exact ⟨mem_cons_of_mem _ hmem, by rw [h.balanced.outstanding_taken, hzero, if_neg hne]⟩
  | @take l b h hpos ih =>
    obtain ⟨hmem, hzero⟩ := ih (by simpa using hr)
    have hne : b ≠ a := fun hba => by rw [hba, hzero] at hpos; exact Nat.lt_irrefl 0 hpos
    exact ⟨mem_cons_of_mem _ hmem, by rw [h.balanced.outstanding_taken, hzero, if_neg hne]⟩
  | @give l b h hpos ih =>
    obtain ⟨hmem, hzero⟩ := ih (by simpa using hr)
    exact ⟨mem_cons_of_mem _ hmem, by rw [outstanding_given, hzero, Nat.zero_sub]⟩
  | @release l b h hone ih =>
    rw [outstanding_released, outstanding_given]
    by_cases hba : b = a
    · subst hba
      have hmem := taken_mem_of_pos (l := l) (a := b) (by omega)
      exact ⟨mem_cons_of_mem _ (mem_cons_of_mem _ hmem), by rw [hone, if_pos rfl]⟩
    · obtain ⟨hmem, hzero⟩ := ih (by simpa [Ne.symm hba] using hr)
      exact ⟨mem_cons_of_mem _ (mem_cons_of_mem _ hmem), by rw [hzero, Nat.zero_sub]⟩

theorem count_released_le (h : Disciplined l) (a : α) : l.count (.released a) ≤ 1 := by
  induction h with
  | nil => exact Nat.zero_le 1
  | create _ _ ih | take _ _ ih | give _ _ ih => simpa [count_cons] using ih
  | @release l b h hone ih =>
    by_cases hba : b = a
    · subst hba
      have hnot : .released b ∉ l := fun hr => by
        rw [(h.outstanding_eq_zero hr).2] at hone
        cases hone
      simp [count_eq_zero_of_not_mem hnot]
    · simpa [hba] using ih

end Disciplined

end RefEvent

/-! ## Slots that hold references -/

section Holders

variable {ι α : Type} [Fintype ι] [DecidableEq ι] [DecidableEq α]

/-- The number of slots that hold `a`. -/
def holders (f : ι → Option α) (a : α) : Nat := (Finset.univ.filter fun i => f i = some a).card

theorem count_toList (o : Option α) (a : α) : o.toList.count a = if o = some a then 1 else 0 := by
  cases o with
  | none => simp
  | some b =>
    by_cases h : b = a <;> simp [h]

theorem holders_update (f : ι → Option α) (i : ι) (v : Option α) (a : α) :
    holders (Function.update f i v) a + (f i).toList.count a = holders f a + v.toList.count a := by
  unfold holders
  rw [Finset.card_filter, Finset.card_filter, ← Finset.add_sum_erase _ _ (Finset.mem_univ i),
    ← Finset.add_sum_erase _ (fun j => if f j = some a then 1 else 0) (Finset.mem_univ i)]
  have hrest : ∀ j ∈ Finset.univ.erase i,
      (if Function.update f i v j = some a then 1 else 0) = if f j = some a then 1 else 0 := by
    intro j hj
    rw [Function.update_of_ne (Finset.ne_of_mem_erase hj)]
  rw [Finset.sum_congr rfl hrest, Function.update_self, count_toList, count_toList]
  omega

omit [DecidableEq ι] in
theorem holders_pos {f : ι → Option α} {i : ι} {a : α} (h : f i = some a) : 0 < holders f a :=
  Finset.card_pos.2 ⟨i, Finset.mem_filter.2 ⟨Finset.mem_univ i, h⟩⟩

end Holders

end LibTransistor
