import LibTransistor.Lib.Fallible
import Mathlib.Tactic.Common

/-!
# Memory behind a pointer, and a head that moves through it

`Mem α` is what a pointer to `α` points at; `Mem.write` overlays a list at an index and `Mem.read`
takes a list out. A `Cursor` is a buffer with a head, the state of every loop of the form
`buffer[h++] = w`.

Whatever a writer does, storing words or skipping over words it leaves alone, moves the cursor by a
`Cursor.append`, and appends compose. So a writer is described by the one list of words that ends up
between its first head and its last.
-/

namespace LibTransistor

open List Function

variable {α : Type}

/-- What a pointer to `α` points at: cell `i` is `p[i]`. -/
abbrev Mem (α : Type) := Nat → α

namespace Mem

variable (m : Mem α) (a : Nat) (ws : List α)

/-- Overlay the list `ws` at index `a`. -/
def write : Mem α := fun i =>
  if a ≤ i then (ws[i - a]?).getD (m i) else m i

/-- The `n` cells from index `a` on. -/
def read (a n : Nat) : List α := (List.range n).map fun i => m (a + i)

@[simp] theorem length_read (a n : Nat) : (m.read a n).length = n := by
  simp [read]

@[simp] theorem read_zero : m.read a 0 = [] := rfl

theorem getElem?_read (a n i : Nat) :
    (m.read a n)[i]? = if i < n then some (m (a + i)) else none := by
  unfold read
  rw [getElem?_map]
  by_cases h : i < n
  · rw [getElem?_range h, if_pos h]; rfl
  · rw [getElem?_eq_none (by simpa using h), if_neg h]; rfl

theorem read_congr {m m' : Mem α} {a n : Nat} (h : ∀ i < n, m (a + i) = m' (a + i)) :
    m.read a n = m'.read a n := by
  exact map_congr_left fun i hi => h i (mem_range.1 hi)

theorem read_add (a n k : Nat) : m.read a (n + k) = m.read a n ++ m.read (a + n) k := by
  unfold read
  rw [range_add]
  simp [Nat.add_assoc]

theorem read_succ (a n : Nat) : m.read a (n + 1) = m a :: m.read (a + 1) n := by
  rw [Nat.add_comm n 1, read_add]
  rfl

theorem read_shift (k a n : Nat) : Mem.read (fun i => m (k + i)) a n = m.read (k + a) n := by
  unfold read
  simp [Nat.add_assoc]

theorem write_of_lt {a i : Nat} (h : i < a) : m.write a ws i = m i :=
  if_neg (Nat.not_le.2 h)

theorem write_of_ge {ws : List α} {a i : Nat} (h : a + ws.length ≤ i) : m.write a ws i = m i := by
  unfold write
  rw [if_pos (by omega), getElem?_eq_none (by omega)]
  rfl

theorem write_add {i : Nat} (h : i < ws.length) : m.write a ws (a + i) = ws[i] := by
  unfold write
  rw [if_pos (by omega), Nat.add_sub_cancel_left, getElem?_eq_getElem h]
  rfl

@[simp] theorem write_nil : m.write a [] = m := by
  unfold write
  simp

theorem update_eq_write (w : α) : Function.update m a w = m.write a [w] := by
  funext i
  rcases Nat.lt_trichotomy i a with hlt | rfl | hgt
  · rw [update_of_ne (Nat.ne_of_lt hlt), write_of_lt _ _ hlt]
  · rw [update_self]
    exact (m.write_add i [w] (i := 0) (by simp)).symm
  · rw [update_of_ne (Nat.ne_of_gt hgt), write_of_ge _ (by simp; omega)]

theorem write_append (ws vs : List α) :
    m.write a (ws ++ vs) = (m.write a ws).write (a + ws.length) vs := by
  funext i
  by_cases h₁ : i < a
  · rw [write_of_lt _ _ h₁, write_of_lt _ _ (by omega), write_of_lt _ _ h₁]
  obtain ⟨k, rfl⟩ := Nat.exists_eq_add_of_le (Nat.le_of_not_lt h₁)
  by_cases h₂ : k < ws.length
  · rw [write_add _ _ _ (by simp; omega), write_of_lt _ _ (by omega), write_add _ _ _ h₂,
      getElem_append_left h₂]
  obtain ⟨j, rfl⟩ := Nat.exists_eq_add_of_le (Nat.le_of_not_lt h₂)
  by_cases h₃ : j < vs.length
  · rw [write_add _ _ _ (by simpa using h₃), ← Nat.add_assoc, write_add _ _ _ h₃]
    simp
  · rw [write_of_ge _ (by simp; omega), write_of_ge _ (by omega), write_of_ge _ (by omega)]

theorem write_read (a n : Nat) : m.write a (m.read a n) = m := by
  funext i
  unfold write
  split_ifs with h
  · rw [getElem?_read]
    split_ifs
    · rw [Nat.add_sub_cancel' h]; rfl
    · rfl
  · rfl

theorem read_write_of_ge {ws : List α} {a b : Nat} (n : Nat)
    (h : a + ws.length ≤ b) : (m.write a ws).read b n = m.read b n :=
  read_congr fun i _ => write_of_ge m (by omega)

theorem read_write_of_le {a b n : Nat} (h : b + n ≤ a) : (m.write a ws).read b n = m.read b n :=
  read_congr fun i hi => write_of_lt m ws (by omega)

theorem read_write_singleton (w : α) (n : Nat) :
    (m.write a [w]).read a (n + 1) = w :: m.read (a + 1) n := by
  rw [read_succ, read_write_of_ge m n (Nat.le_refl (a + 1))]
  exact congrArg (· :: m.read (a + 1) n) (m.write_add a [w] Nat.zero_lt_one)

theorem read_write_self : (m.write a ws).read a ws.length = ws := by
  refine ext_getElem (by simp) fun i h₁ h₂ => ?_
  simp [read, write_add m a ws h₂]

theorem read_write_behind {k n : Nat} {ws : List α} (h : n = k + ws.length) :
    (m.write k ws).read 0 n = m.read 0 k ++ ws := by
  rw [h, read_add, read_write_of_le m ws (by omega), Nat.zero_add, read_write_self]

/-- **Reading a section back.** In a memory that starts with a list, the part after `us` is found at
`us.length`. -/
theorem read_mid {m : Mem α} (us ws vs : List α)
    (h : m.read 0 (us ++ ws ++ vs).length = us ++ ws ++ vs) : m.read us.length ws.length = ws := by
  rw [length_append, length_append, read_add, read_add, Nat.zero_add] at h
  have hpre := (append_inj h (by simp)).1
  exact (append_inj hpre (by simp)).2

theorem eq_of_getElem? {m : Mem α} {a : Nat} {ws : List α} (h : m.read a ws.length = ws) {i : Nat}
    {w : α} (hi : ws[i]? = some w) : m (a + i) = w := by
  obtain ⟨hlt, -⟩ := List.getElem?_eq_some_iff.1 hi
  rw [← h, getElem?_read, if_pos hlt, Option.some.injEq] at hi
  exact hi

theorem read_eq_append {m : Mem α} {a : Nat} {us vs : List α}
    (h : m.read a (us ++ vs).length = us ++ vs) :
    m.read a us.length = us ∧ m.read (a + us.length) vs.length = vs := by
  rw [length_append, read_add] at h
  exact append_inj h (by simp)

theorem read_drop {m : Mem α} {a k n : Nat} {ws : List α} (h : m.read a ws.length = ws)
    (hk : k + n ≤ ws.length) : m.read (a + k) n = (ws.drop k).take n := by
  obtain ⟨t, ht⟩ := Nat.exists_eq_add_of_le hk
  rw [ht, read_add, read_add] at h
  rw [← h, append_assoc, drop_left' (by simp), take_left' (by simp)]

/-- Store the cells of a list, in the order of the list. -/
def scatter (ws : List (Nat × α)) : Mem α :=
  ws.foldl (fun m w => Function.update m w.1 w.2) m

theorem scatter_cons (w : Nat × α) (ws : List (Nat × α)) :
    m.scatter (w :: ws) = scatter (Function.update m w.1 w.2) ws := rfl

theorem scatter_append (ws vs : List (Nat × α)) :
    m.scatter (ws ++ vs) = (m.scatter ws).scatter vs := foldl_append

theorem scatter_of_not_mem {m : Mem α} {ws : List (Nat × α)} {k : Nat} (h : ∀ w ∈ ws, w.1 ≠ k) :
    m.scatter ws k = m k := by
  induction ws generalizing m with
  | nil => rfl
  | cons w ws ih =>
    rw [scatter_cons, ih fun v hv => h v (mem_cons_of_mem w hv)]
    exact update_of_ne (h w mem_cons_self).symm _ _

/-- A cell that is stored, and never with another content, has that content in the end. -/
theorem scatter_of_mem {m : Mem α} {ws : List (Nat × α)} {w : Nat × α} (hw : w ∈ ws)
    (h : ∀ v ∈ ws, v.1 = w.1 → v.2 = w.2) : m.scatter ws w.1 = w.2 := by
  induction ws generalizing m w with
  | nil => nomatch hw
  | cons v ws ih =>
    rw [scatter_cons]
    by_cases hlater : ∃ u ∈ ws, u.1 = w.1
    · obtain ⟨u, hu, heq⟩ := hlater
      have hcontent : u.2 = w.2 := h u (mem_cons_of_mem v hu) heq
      rw [← heq, ← hcontent]
      exact ih hu fun t ht htu =>
        (h t (mem_cons_of_mem v ht) (htu.trans heq)).trans hcontent.symm
    · have hnever : ∀ u ∈ ws, u.1 ≠ w.1 := fun u hu heq => hlater ⟨u, hu, heq⟩
      have hwv : w = v := (mem_cons.1 hw).resolve_right fun hmem => hnever w hmem rfl
      rw [scatter_of_not_mem hnever, hwv]
      exact update_self _ _ _

end Mem

/-! ## Cursors -/

/-- A buffer and a head. -/
structure Cursor (α : Type) where
  buffer : Mem α
  h : Nat

namespace Cursor

variable (c : Cursor α) (ws : List α)

/-- Store `ws` at the head and move past them. -/
def append : Cursor α :=
  ⟨c.buffer.write c.h ws, c.h + ws.length⟩

@[simp] theorem append_h : (c.append ws).h = c.h + ws.length := rfl

@[simp] theorem append_nil : c.append [] = c := by
  unfold append
  simp

@[simp] theorem append_append (ws vs : List α) : (c.append ws).append vs = c.append (ws ++ vs) := by
  unfold append
  rw [Mem.write_append, length_append, Nat.add_assoc]

theorem read_append {b : Nat} (n : Nat)
    (hb : c.h + ws.length ≤ b) : (c.append ws).buffer.read b n = c.buffer.read b n :=
  c.buffer.read_write_of_ge n hb

theorem read_append_self (m : Mem α) (ws : List α) :
    ((⟨m, 0⟩ : Cursor α).append ws).buffer.read 0 ((⟨m, 0⟩ : Cursor α).append ws).h = ws := by
  rw [append_h, Nat.zero_add]
  exact m.read_write_self 0 ws

variable {ε : Type}

/-- `buffer[h++] = w`. -/
def emit (w : α) : EStateM ε (Cursor α) Unit := fun c => .ok () (c.append [w])

/-- `for(i = 0; i < n; i++) { buffer[h++] = ws[i]; }`. -/
def emitAll : List α → EStateM ε (Cursor α) Unit
  | [] => pure ()
  | w :: ws => do emit w; emitAll ws

/-- `h+= n`: the words skipped keep what they held. -/
def skip (n : Nat) : EStateM ε (Cursor α) Unit := fun c => .ok () { c with h := c.h + n }

/-- The head, read into a local variable. -/
def head : EStateM ε (Cursor α) Nat := fun c => .ok c.h c

/-- `buffer[i] = f(buffer[i])`. -/
def modifyAt (i : Nat) (f : α → α) : EStateM ε (Cursor α) Unit := fun c =>
  .ok () { c with buffer := Function.update c.buffer i (f (c.buffer i)) }

theorem emit_run (w : α) (c : Cursor α) :
    (emit w : EStateM ε (Cursor α) Unit) c = .ok () (c.append [w]) := rfl

theorem head_run : (head : EStateM ε (Cursor α) Nat) c = .ok c.h c := rfl

theorem emitAll_run (c : Cursor α) :
    (emitAll ws : EStateM ε (Cursor α) Unit) c = .ok () (c.append ws) := by
  induction ws generalizing c with
  | nil => rw [append_nil]; rfl
  | cons w ws ih =>
    show ((emit w >>= fun _ => emitAll ws) : EStateM ε (Cursor α) Unit) c = _
    rw [Fallible.bind_of_ok (emit_run w c), ih, append_append]
    rfl

/-- Skipping is appending the words that are already there. -/
theorem skip_run (n : Nat) (c : Cursor α) :
    (skip n : EStateM ε (Cursor α) Unit) c = .ok () (c.append (c.buffer.read c.h n)) := by
  unfold skip append
  rw [Mem.write_read, Mem.length_read]

theorem emitAll_append (ws vs : List α) :
    (emitAll vs : EStateM ε (Cursor α) Unit) (c.append ws) = .ok () (c.append (ws ++ vs)) := by
  rw [emitAll_run, append_append]

theorem skip_append (n : Nat) :
    (skip n : EStateM ε (Cursor α) Unit) (c.append ws) =
      .ok () (c.append (ws ++ c.buffer.read (c.h + ws.length) n)) := by
  rw [skip_run, append_append, append_h, read_append _ _ _ (Nat.le_refl _)]

/-- A change to a cell that an append has written is a change to the list appended. -/
theorem modifyAt_run (us : List α) (w : α) (vs : List α) (f : α → α) (c : Cursor α) :
    (modifyAt (c.h + us.length) f : EStateM ε (Cursor α) Unit) (c.append (us ++ w :: vs)) =
      .ok () (c.append (us ++ f w :: vs)) := by
  have hw : (c.append (us ++ w :: vs)).buffer (c.h + us.length) = w := by
    show c.buffer.write c.h (us ++ w :: vs) (c.h + us.length) = w
    rw [Mem.write_add _ _ _ (by simp)]
    simp
  unfold modifyAt
  rw [hw]
  congr 1
  show (⟨Function.update (c.buffer.write c.h (us ++ w :: vs)) (c.h + us.length) (f w),
    c.h + (us ++ w :: vs).length⟩ : Cursor α) =
      ⟨c.buffer.write c.h (us ++ f w :: vs), c.h + (us ++ f w :: vs).length⟩
  congr 1
  · funext i
    rw [update_apply]
    split_ifs with hi
    · subst hi
      rw [Mem.write_add _ _ _ (by simp)]
      simp
    · by_cases hlt : i < c.h
      · rw [Mem.write_of_lt _ _ hlt, Mem.write_of_lt _ _ hlt]
      obtain ⟨k, rfl⟩ := Nat.exists_eq_add_of_le (Nat.le_of_not_lt hlt)
      unfold Mem.write
      rw [if_pos (by omega), if_pos (by omega), Nat.add_sub_cancel_left]
      have hcell : (us ++ w :: vs)[k]? = (us ++ f w :: vs)[k]? := by
        rcases Nat.lt_or_ge k us.length with hk' | hk'
        · rw [getElem?_append_left hk', getElem?_append_left hk']
        · rw [getElem?_append_right hk', getElem?_append_right hk']
          obtain ⟨j, hj⟩ : ∃ j, k - us.length = j + 1 := ⟨k - us.length - 1, by omega⟩
          simp [hj]
      rw [hcell]
  · simp

end Cursor

end LibTransistor
