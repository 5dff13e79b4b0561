import LibTransistor.Lib.Fallible
import Mathlib.Tactic.Common

/-!
# Writing through a pointer that moves

What a pointer may reach is the list of cells from it on. A function that writes there and moves the
pointer is built from `store`, which overwrites the first cells or faults if there are not enough,
and `advance n`, which runs the rest of the function `n` cells further on. The cells behind the
pointer stay as they are, also when the function fails.
-/

namespace LibTransistor.Region

open Fallible List

variable {ε α β : Type} {fault : ε}

/-- Overwrite the cells at the pointer. -/
def store (fault : ε) (xs : List α) : EStateM ε (List α) Unit := fun r =>
  if xs.length ≤ r.length then .ok () (xs ++ r.drop xs.length) else .error fault r

/-- Go on with the pointer moved by `n`. -/
def advance (n : Nat) (x : EStateM ε (List α) β) : EStateM ε (List α) β := fun r =>
  match x (r.drop n) with
  | .ok b r' => .ok b (r.take n ++ r')
  | .error e r' => .error e (r.take n ++ r')

theorem store_eq_ok {xs r r' : List α} :
    store fault xs r = .ok () r' ↔ xs.length ≤ r.length ∧ r' = xs ++ r.drop xs.length := by
  unfold store
  by_cases h : xs.length ≤ r.length
  · simp [h, eq_comm]
  · simp [h]

theorem advance_eq_ok {n : Nat} {x : EStateM ε (List α) β} {r r' : List α} {b : β} :
    advance n x r = .ok b r' ↔ ∃ t, x (r.drop n) = .ok b t ∧ r' = r.take n ++ t := by
  unfold advance
  cases h : x (r.drop n) with
  | ok c t => simp [eq_comm]
  | error e t => simp

theorem outcome_store_bind {xs : List α} {f : Unit → EStateM ε (List α) β} (r : List α) :
    outcome ((store fault xs >>= f) r) =
      if xs.length ≤ r.length then outcome (f () (xs ++ r.drop xs.length)) else .error fault := by
  by_cases h : xs.length ≤ r.length
  · rw [bind_of_ok (store_eq_ok.2 ⟨h, rfl⟩), if_pos h]
  · have hstore : store fault xs r = .error fault r := if_neg h
    rw [bind_of_error hstore, if_neg h]
    rfl

theorem outcome_advance (n : Nat) (x : EStateM ε (List α) β) (r : List α) :
    outcome (advance n x r) = outcome (x (r.drop n)) := by
  unfold advance
  cases x (r.drop n) <;> rfl

/-- A store behind a check that there is room for it. -/
theorem outcome_checked_store {c : Prop} [Decidable c] {e : ε} {xs : List α} {n : Nat}
    (hn : xs.length = n) {x : EStateM ε (List α) β} (r : List α) (h : ¬ c → n ≤ r.length) :
    outcome ((failIf c e >>= fun _ => store fault xs >>= fun _ => advance n x) r) =
      if c then .error e else outcome (x (r.drop n)) := by
  rw [outcome_failIf_bind]
  by_cases hc : c
  · rw [if_pos hc, if_pos hc]
  · rw [if_neg hc, if_neg hc, outcome_store_bind, if_pos (hn ▸ h hc), outcome_advance,
      drop_left' hn, hn]

/-! ## What a function writes -/

/-- When `x` succeeds, it has put `xs` at the pointer and left the rest alone. -/
def Writes (x : EStateM ε (List α) Unit) (xs : List α) : Prop :=
  ∀ r r', x r = .ok () r' → xs.length ≤ r.length ∧ r' = xs ++ r.drop xs.length

variable {x : EStateM ε (List α) Unit} {xs ys : List α}

theorem writes_store (fault : ε) (xs : List α) : Writes (store fault xs) xs := fun _ _ h =>
  store_eq_ok.1 h

theorem Writes.guarded {c : Prop} [Decidable c] {e : ε} (hx : Writes x xs) :
    Writes (failIf c e >>= fun _ => x) xs := fun r r' h => hx r r' (failIf_bind_eq_ok.1 h).2

/-- Storing, and writing more behind what was stored. -/
theorem Writes.behind (hx : Writes x ys) {n : Nat} (hn : n = xs.length) :
    Writes (store fault xs >>= fun _ => advance n x) (xs ++ ys) := by
  intro r r' h
  obtain ⟨_, u, hstore, hadv⟩ := bind_eq_ok.1 h
  obtain ⟨hlen, rfl⟩ := store_eq_ok.1 hstore
  obtain ⟨t, ht, rfl⟩ := advance_eq_ok.1 hadv
  rw [hn, drop_left] at ht
  obtain ⟨hlen', rfl⟩ := hx _ _ ht
  rw [length_drop] at hlen'
  refine ⟨by rw [length_append]; omega, ?_⟩
  rw [hn, take_left, drop_drop, length_append, append_assoc]

theorem Writes.over (hx : Writes x ys) (hle : xs.length ≤ ys.length) :
    Writes (store fault xs >>= fun _ => advance 0 x) ys := by
  intro r r' h
  obtain ⟨_, u, hstore, hadv⟩ := bind_eq_ok.1 h
  obtain ⟨hlen, rfl⟩ := store_eq_ok.1 hstore
  obtain ⟨t, ht, rfl⟩ := advance_eq_ok.1 hadv
  obtain ⟨hlen', rfl⟩ := hx _ _ ht
  rw [drop_zero, length_append, length_drop] at hlen'
  refine ⟨by omega, ?_⟩
  rw [drop_zero, drop_append, drop_drop,
    drop_eq_nil_of_le hle, nil_append]
  congr 2
  omega

end LibTransistor.Region
