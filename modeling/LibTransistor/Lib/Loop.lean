import LibTransistor.Lib.Memory

/-!
# Loops, and the buffers that they fill

`whileLoop` is `while(c) body` for a bounded number of rounds; a loop that is still running after
that fails with a code of its own. `whileLoop_rounds` is the rule for a loop whose number of rounds
is known.

`emitWithin` is `buffer[h++] = w` for a buffer of so many cells. What a loop stores in this way is
one list (`emitAllWithin_run`), and it faults exactly if the list does not fit.
-/

namespace LibTransistor

open List

namespace Fallible

variable {ε σ : Type} {running : ε} {c : σ → Prop} [DecidablePred c] {body : EStateM ε σ Unit}
  {s t : σ} {n : Nat}

/-- `while(c) body`, given up after some rounds. -/
def whileLoop (running : ε) (c : σ → Prop) [DecidablePred c] (body : EStateM ε σ Unit) :
    Nat → EStateM ε σ Unit
  | 0 => throw running
  | n + 1 => do
    if c (← get) then do
      body
      whileLoop running c body n
    else pure ()

theorem whileLoop_of_not (h : ¬ c s) : whileLoop running c body (n + 1) s = .ok () s := by
  rw [whileLoop, get_bind_run, if_neg h]
  rfl

theorem whileLoop_of_ok (h : c s) (hbody : body s = .ok () t) :
    whileLoop running c body (n + 1) s = whileLoop running c body n t := by
  rw [whileLoop, get_bind_run, if_pos h, bind_of_ok hbody]

/-- **The while rule.** A loop that ends keeps what its body keeps, and its condition is false. -/
theorem whileLoop_exit {P : σ → Prop} (hbody : Keeps P body)
    (hrun : whileLoop running c body n s = .ok () t) (h : P s) : P t ∧ ¬ c t := by
  induction n generalizing s with
  | zero => cases hrun
  | succ n ih =>
    rw [whileLoop, get_bind_run] at hrun
    split_ifs at hrun with hc
    · obtain ⟨_, u, hu, hrun⟩ := bind_eq_ok.1 hrun
      exact ih hrun (hbody.of_ok h hu)
    · obtain ⟨-, rfl⟩ := pure_eq_ok.1 hrun
      exact ⟨h, hc⟩

/-- **Round by round.** A loop of `n` rounds, with what holds after each. -/
theorem whileLoop_rounds (I : Nat → σ → Prop) {fuel : Nat} (hfuel : n < fuel)
    (hc : ∀ k s, I k s → (c s ↔ k < n))
    (hbody : ∀ k s, k < n → I k s → ∃ t, body s = .ok () t ∧ I (k + 1) t) (h : I 0 s) :
    ∃ t, whileLoop running c body fuel s = .ok () t ∧ I n t := by
  induction n generalizing I fuel s with
  | zero =>
    obtain ⟨fuel, rfl⟩ := Nat.exists_eq_add_of_lt hfuel
    exact ⟨s, whileLoop_of_not fun hs => Nat.lt_irrefl 0 ((hc 0 s h).1 hs), h⟩
  | succ n ih =>
    obtain ⟨fuel, rfl⟩ := Nat.exists_eq_add_of_lt hfuel
    obtain ⟨t, hrun, ht⟩ := hbody 0 s n.succ_pos h
    rw [whileLoop_of_ok ((hc 0 s h).2 n.succ_pos) hrun]
    refine ih (fun k => I (k + 1)) (by omega) (fun k u hu => ?_) (fun k u hk => ?_) ht
    · rw [hc (k + 1) u hu, Nat.succ_lt_succ_iff]
    · exact hbody (k + 1) u (Nat.succ_lt_succ hk)

end Fallible

namespace Cursor

variable {ε α : Type} {cap : Nat} {fault : ε}

/-- `buffer[h++] = w` in a buffer of `cap` cells. -/
def emitWithin (cap : Nat) (fault : ε) (w : α) : EStateM ε (Cursor α) Unit := fun c =>
  if c.h < cap then .ok () (c.append [w]) else .error fault c

/-- Several of these. -/
def emitAllWithin (cap : Nat) (fault : ε) : List α → EStateM ε (Cursor α) Unit
  | [] => pure ()
  | w :: ws => do
    emitWithin cap fault w
    emitAllWithin cap fault ws

variable {c : Cursor α}

theorem emitWithin_run {w : α} (h : c.h < cap) :
    emitWithin cap fault w c = .ok () (c.append [w]) := if_pos h

theorem emitWithin_full {w : α} (h : cap ≤ c.h) :
    emitWithin cap fault w c = .error fault c := if_neg (Nat.not_lt.2 h)

theorem emitAllWithin_run {ws : List α} (h : c.h + ws.length ≤ cap) :
    emitAllWithin cap fault ws c = .ok () (c.append ws) := by
  induction ws generalizing c with
  | nil =>
    rw [append_nil]
    rfl
  | cons w ws ih =>
    rw [length_cons] at h
    rw [emitAllWithin, Fallible.bind_of_ok (emitWithin_run (by omega)),
      ih (by rw [append_h, length_singleton]; omega), append_append]
    rfl

theorem emitAllWithin_singleton (w : α) : emitAllWithin cap fault [w] = emitWithin cap fault w :=
  bind_pure_unit

theorem emitAllWithin_append (ws vs : List α) :
    emitAllWithin cap fault (ws ++ vs) =
      emitAllWithin cap fault ws >>= fun _ => emitAllWithin cap fault vs := by
  induction ws with
  | nil => rfl
  | cons w ws ih =>
    rw [cons_append, emitAllWithin, ih, emitAllWithin, bind_assoc]

theorem emitAllWithin_full {ws : List α} (hc : c.h ≤ cap)
    (h : cap < c.h + ws.length) : ∃ c', emitAllWithin cap fault ws c = .error fault c' := by
  induction ws generalizing c with
  | nil =>
    rw [length_nil] at h
    omega
  | cons w ws ih =>
    rw [length_cons] at h
    rw [emitAllWithin]
    by_cases hroom : c.h < cap
    · rw [Fallible.bind_of_ok (emitWithin_run hroom)]
      exact ih hroom (by rw [append_h, length_singleton]; omega)
    · exact ⟨c, Fallible.bind_of_error (emitWithin_full (Nat.not_lt.1 hroom))⟩

end Cursor

end LibTransistor
