import LibTransistor.Lib.Align
import LibTransistor.Lib.Memory

/-!
# Files put together from padded pieces

`pad x n bs` fills `bs` up with `x` to a multiple of `n`, and `StandsAt bs off file` says that `bs`
is found in `file` from the offset `off` on. A file is put together by appending, so where a piece
stands is the sum of the lengths in front of it (`standsAt_length`, `StandsAt.prepend`), and the
length of a padded piece is known from `alignUp`.
-/

namespace LibTransistor.Layout

open Align List

variable {α : Type} {x : α} {n : Nat} {as bs file : List α} {off : Nat}

/-! ## Padding -/

/-- The list filled up with `x` to a multiple of `n`. -/
def pad (x : α) (n : Nat) (bs : List α) : List α :=
  bs ++ List.replicate (alignUp bs.length n - bs.length) x

theorem length_pad (hn : 0 < n) : (pad x n bs).length = alignUp bs.length n := by
  have hle := le_alignUp hn bs.length
  rw [pad, length_append, length_replicate]
  omega

theorem add_length_pad {base : Nat} (hn : 0 < n) (hbase : n ∣ base) :
    base + (pad x n bs).length = alignUp (base + bs.length) n := by
  rw [length_pad hn, alignUp_add hn hbase]

/-- Padding as programs do it: only where it is needed, by what is missing. -/
theorem pad_of_and (bs : List α) (k : Nat) :
    (if bs.length &&& (2 ^ k - 1) ≠ 0 then
      bs ++ List.replicate (2 ^ k - (bs.length &&& (2 ^ k - 1))) x else bs) = pad x (2 ^ k) bs := by
  have halign := alignUp_of_and bs.length k
  rw [pad, ← halign]
  split_ifs
  · rw [Nat.add_sub_cancel_left]
  · rw [Nat.sub_self, replicate_zero, append_nil]

/-! ## Offsets -/

/-- The list `bs` stands in `file` from the offset `off` on. -/
def StandsAt (bs : List α) (off : Nat) (file : List α) : Prop :=
  ∃ before after, file = before ++ bs ++ after ∧ before.length = off

theorem standsAt_self : StandsAt bs 0 bs := ⟨[], [], by simp, rfl⟩

theorem standsAt_length (as bs : List α) : StandsAt bs as.length (as ++ bs) := ⟨as, [], by simp, rfl⟩

theorem StandsAt.append (h : StandsAt bs off file) (as : List α) : StandsAt bs off (file ++ as) := by
  obtain ⟨before, after, rfl, rfl⟩ := h
  exact ⟨before, after ++ as, by simp, rfl⟩

theorem StandsAt.prepend (h : StandsAt bs off file) (as : List α) :
    StandsAt bs (as.length + off) (as ++ file) := by
  obtain ⟨before, after, rfl, rfl⟩ := h
  exact ⟨as ++ before, after, by simp, by simp⟩

theorem StandsAt.trans {bs' : List α} {off' : Nat} (h : StandsAt bs off bs')
    (h' : StandsAt bs' off' file) : StandsAt bs (off' + off) file := by
  obtain ⟨before, after, rfl, rfl⟩ := h'
  obtain ⟨before', after', rfl, rfl⟩ := h
  exact ⟨before ++ before', after' ++ after, by simp, by simp⟩

/-- The records of a list that all have the length `k`. -/
theorem standsAt_flatMap {β : Type} {f : β → List α} {k : Nat} (hf : ∀ b, (f b).length = k)
    {bs : List β} {i : Nat} {b : β} (h : bs[i]? = some b) :
    StandsAt (f b) (k * i) (bs.flatMap f) := by
  induction bs generalizing i with
  | nil => cases h
  | cons c bs ih =>
    cases i with
    | zero =>
      cases h
      exact standsAt_self.append _
    | succ i =>
      have hrest := (ih h).prepend (f c)
      rwa [hf, Nat.add_comm] at hrest

theorem StandsAt.getElem? (h : StandsAt bs off file) {i : Nat} (hi : i < bs.length) :
    file[off + i]? = bs[i]? := by
  obtain ⟨before, after, rfl, rfl⟩ := h
  rw [append_assoc, getElem?_append_right (Nat.le_add_right _ _),
    Nat.add_sub_cancel_left, getElem?_append_left hi]

theorem StandsAt.read {m : Mem α} (h : StandsAt bs off file) (hm : m.read 0 file.length = file) :
    m.read off bs.length = bs := by
  obtain ⟨before, after, rfl, rfl⟩ := h
  exact Mem.read_mid before bs after hm

end LibTransistor.Layout
