import Mathlib.Data.List.FinRange
import Mathlib.Logic.Function.Basic

/-!
# Caches whose slots are replaced in turn

A cache has `n` slots, each with a key and an entry. A key is searched from the first slot on; a key
that is not found gets the slot whose turn it is. What goes into the entry is up to the caller, also
what it is before anything has been stored there.
-/

namespace LibTransistor

/-- `n` slots, and the one to be replaced next. -/
structure SlotCache (κ ν : Type) (n : Nat) where
  next : Fin n
  keys : Fin n → κ
  entries : Fin n → ν

namespace SlotCache

variable {κ ν : Type} {n : Nat}

/-- The slot whose turn it is gets the key. -/
def add (c : SlotCache κ ν n) (k : κ) : SlotCache κ ν n where
  next := ⟨(c.next.val + 1) % n, Nat.mod_lt _ c.next.pos⟩
  keys := Function.update c.keys c.next k
  entries := c.entries

def store (c : SlotCache κ ν n) (i : Fin n) (v : ν) : SlotCache κ ν n :=
  { c with entries := Function.update c.entries i v }

variable {c : SlotCache κ ν n} {k : κ} {i j : Fin n}

@[simp] theorem keys_store (v : ν) : (c.store i v).keys = c.keys := rfl

@[simp] theorem entries_store_self (v : ν) : (c.store i v).entries i = v := by
  simp [store]

theorem entries_store_of_ne (v : ν) (h : j ≠ i) : (c.store i v).entries j = c.entries j := by
  simp [store, h]

theorem store_entries (c : SlotCache κ ν n) (i : Fin n) : c.store i (c.entries i) = c := by
  simp [store]

@[simp] theorem keys_add_next : (c.add k).keys c.next = k := by
  simp [add]

theorem keys_add_of_ne (h : j ≠ c.next) : (c.add k).keys j = c.keys j := by
  simp [add, h]

/-! ## Search -/

variable [DecidableEq κ]

/-- The first slot with a key. -/
def find (c : SlotCache κ ν n) (k : κ) : Option (Fin n) :=
  (List.finRange n).find? fun i => c.keys i = k

theorem keys_of_find (h : c.find k = some i) : c.keys i = k := by
  simpa using List.find?_some h

theorem find_eq_none : c.find k = none ↔ ∀ i, c.keys i ≠ k := by
  simp [find]

theorem find_add (h : c.find k = none) : (c.add k).find k = some c.next := by
  have hnot := find_eq_none.1 h
  rcases hfind : (c.add k).find k with _ | j
  · exact absurd keys_add_next (find_eq_none.1 hfind c.next)
  · have hj := keys_of_find hfind
    by_cases hne : j = c.next
    · rw [hne]
    · rw [keys_add_of_ne hne] at hj
      exact absurd hj (hnot j)

/-- With one slot, a key is found if and only if it is the key of the slot. -/
theorem find_one {c : SlotCache κ ν 1} : c.find k = some 0 ↔ c.keys 0 = k := by
  refine ⟨keys_of_find, fun h => ?_⟩
  rcases hfind : c.find k with _ | j
  · exact absurd h (find_eq_none.1 hfind 0)
  · rw [Subsingleton.elim j 0]

end SlotCache

end LibTransistor
