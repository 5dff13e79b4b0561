import LibTransistor.Lib.Memory
import Mathlib.Data.List.Basic
import Mathlib.Data.List.TakeWhile
import Mathlib.Logic.Nontrivial.Basic

/-!
# Which cells a writer reaches

A writer is a fallible program on a `Cursor`. That it does not store to a cell is said without a
trace of its stores: the cell ends as it began, whatever it held (`Confined`).

* `confined_iff` — a writer that ends with words of its own is confined to the first `n` cells
  exactly if their end is not behind `n`.
* `StoresWhile` — a loop that stores until it refuses an element, and what it leaves on either way
  out.
* `Blind` — the course of a writer, its outcome and its head, does not depend on the buffer, so one
  run that ends well says that all of them do. `Plain` also says what its error codes are.
-/

namespace LibTransistor.Cursor

open Fallible List

variable {ε α β γ δ : Type}
variable {x : EStateM ε (Cursor α) β}
variable {n : Nat} {xs : List δ} {c : Prop}

/-! ## Stores -/

/-- No run stores to a cell at or behind `n`. -/
def Confined (n : Nat) (x : EStateM ε (Cursor α) β) : Prop :=
  ∀ m i, n ≤ i → (final (x ⟨m, 0⟩)).buffer i = m i

theorem confined_of_le {ws : Mem α → List α}
    (hx : ∀ m, (final (x ⟨m, 0⟩)).buffer = m.write 0 (ws m)) (hlen : ∀ m, (ws m).length ≤ n) :
    Confined n x := by
  intro m i hi
  have hle := hlen m
  rw [hx]
  exact Mem.write_of_ge m (by omega)

/-- **The last store decides.** Behind the first `k` words come `ws`, over any buffer. -/
theorem confined_iff [Nontrivial α] {k : Nat} {pre : Mem α → List α} {ws : List α}
    (hx : ∀ m, (final (x ⟨m, 0⟩)).buffer = m.write 0 (pre m ++ ws)) (hlen : ∀ m, (pre m).length = k)
    (hws : ws ≠ []) : Confined n x ↔ k + ws.length ≤ n := by
  constructor
  · intro h
    by_contra hn
    obtain ⟨vs, v, rfl⟩ := (eq_nil_or_concat' ws).resolve_left hws
    rw [length_append, length_singleton] at hn
    -- over a buffer that does not hold `v`, the last store shows
    obtain ⟨v', hne⟩ := exists_ne v
    have hcell := h (fun _ => v') (k + vs.length) (by omega)
    have hlast : Mem.write (fun _ => v') 0 (pre (fun _ => v') ++ (vs ++ [v])) (0 + (k + vs.length)) =
        v := by
      rw [Mem.write_add _ _ _ (by simp [hlen])]
      simp [← hlen fun _ => v']
    rw [hx, ← Nat.zero_add (k + vs.length), hlast] at hcell
    exact hne hcell.symm
  · intro hk
    refine confined_of_le hx fun m => ?_
    rw [length_append, hlen]
    exact hk

theorem confined_iff_of_le [Nontrivial α] {k : Nat} {pre : Mem α → List α} {ws : List α}
    (hx : ∀ m, (final (x ⟨m, 0⟩)).buffer = m.write 0 (pre m ++ ws)) (hlen : ∀ m, (pre m).length = k)
    (hk : k ≤ n) : Confined n x ↔ k + ws.length ≤ n := by
  by_cases hws : ws = []
  · subst hws
    refine iff_of_true (confined_of_le hx fun m => ?_) hk
    rw [List.append_nil, hlen]
    exact hk
  · exact confined_iff hx hlen hws

/-! ## Loops that store -/

/-- A loop that stores one word for each element, and gives up at the first one it refuses. -/
structure StoresWhile (good : δ → Bool) (word : δ → α)
    (loop : List δ → EStateM ε (Cursor α) Unit) : Prop where
  nil : ∀ c, loop [] c = .ok () c
  cons : ∀ x xs c, good x = true → loop (x :: xs) c = loop xs (c.append [word x])
  stop : ∀ x xs c, good x = false → ∃ e, loop (x :: xs) c = .error e c

namespace StoresWhile

variable {good : δ → Bool} {word : δ → α} {loop : List δ → EStateM ε (Cursor α) Unit}

/-- Two checks of the element, and the store. -/
theorem of_failIf {p q : δ → Prop} [DecidablePred p] [DecidablePred q] {e e' : ε}
    (hgood : ∀ x, good x = true ↔ ¬ p x ∧ ¬ q x) (hnil : loop [] = pure ())
    (hcons : ∀ x xs, loop (x :: xs) = failIf (p x) e >>= fun _ => failIf (q x) e' >>= fun _ =>
      emit (word x) >>= fun _ => loop xs) : StoresWhile good word loop where
  nil c := by rw [hnil]; rfl
  cons x xs c h := by
    obtain ⟨hp, hq⟩ := (hgood x).1 h
    rw [hcons, failIf_bind_of_not hp, failIf_bind_of_not hq, bind_of_ok (emit_run _ _)]
  stop x xs c h := by
    rw [hcons]
    by_cases hp : p x
    · exact ⟨e, failIf_bind_of hp⟩
    · have hq : q x := by
        by_contra hq
        rw [(hgood x).2 ⟨hp, hq⟩] at h
        cases h
      exact ⟨e', by rw [failIf_bind_of_not hp, failIf_bind_of hq]⟩

variable (h : StoresWhile good word loop)
include h

theorem of_all (hall : xs.all good = true) (c : Cursor α) :
    loop xs c = .ok () (c.append (xs.map word)) := by
  induction xs generalizing c with
  | nil => rw [h.nil, map_nil, append_nil]
  | cons x xs ih =>
    rw [all_cons, Bool.and_eq_true] at hall
    rw [h.cons x xs c hall.1, ih hall.2, append_append]
    rfl

theorem of_not_all (hall : ¬ xs.all good = true) (c : Cursor α) :
    ∃ e, loop xs c = .error e (c.append ((xs.takeWhile good).map word)) := by
  induction xs generalizing c with
  | nil => exact absurd rfl hall
  | cons x xs ih =>
    by_cases hx : good x = true
    · rw [all_cons, hx] at hall
      obtain ⟨e, he⟩ := ih hall (c.append [word x])
      refine ⟨e, ?_⟩
      rw [h.cons x xs c hx, he, append_append, takeWhile_cons_of_pos hx]
      rfl
    · obtain ⟨e, he⟩ := h.stop x xs c (Bool.eq_false_iff.2 hx)
      refine ⟨e, ?_⟩
      rw [he, takeWhile_cons_of_neg hx, map_nil, append_nil]

theorem eq_of_ok {c c' : Cursor α} (hrun : loop xs c = .ok () c') :
    xs.all good = true ∧ c' = c.append (xs.map word) := by
  by_cases hall : xs.all good = true
  · rw [h.of_all hall] at hrun
    cases hrun
    exact ⟨hall, rfl⟩
  · obtain ⟨e, he⟩ := h.of_not_all hall c
    rw [he] at hrun
    cases hrun

/-- The same for a loop that is left out under a condition, with some words behind it. -/
theorem eq_of_ok_unless {skip : Bool} {ys : List α} {c c' : Cursor α}
    (hrun : (if skip then emitAll ys else loop xs >>= fun _ => emitAll ys) c = .ok () c') :
    c' = c.append ((if skip then [] else xs.map word) ++ ys) := by
  cases skip with
  | true =>
    cases (emitAll_run ys c).symm.trans hrun
    rfl
  | false =>
    obtain ⟨_, _, hloop, hrun⟩ := bind_eq_ok.1 hrun
    obtain ⟨-, rfl⟩ := h.eq_of_ok hloop
    rw [emitAll_append] at hrun
    cases hrun
    rfl

theorem final_eq (xs : List δ) (c : Cursor α) :
    final (loop xs c) = c.append ((xs.takeWhile good).map word) := by
  by_cases hall : xs.all good = true
  · rw [h.of_all hall, takeWhile_eq_self_iff.2 (all_eq_true.1 hall)]
    rfl
  · obtain ⟨e, he⟩ := h.of_not_all hall c
    rw [he]
    rfl

theorem final_emitAll (xs : List δ) (ys : List α) (c : Cursor α) :
    final ((loop xs >>= fun _ => emitAll ys) c) = c.append
      (if xs.all good then xs.map word ++ ys else (xs.takeWhile good).map word) := by
  by_cases hall : xs.all good = true
  · rw [if_pos hall, bind_of_ok (h.of_all hall c), emitAll_append]
    rfl
  · obtain ⟨e, he⟩ := h.of_not_all hall c
    rw [if_neg hall, bind_of_error he]
    rfl

end StoresWhile

/-! ## The course of a writer -/

/-- The outcome of a run and the head it ended at. -/
def course : EStateM.Result ε (Cursor α) β → Except ε β × Nat
  | .ok b c => (.ok b, c.h)
  | .error e c => (.error e, c.h)

/-- The course of a writer does not depend on what the buffer holds. -/
def Blind (x : EStateM ε (Cursor α) β) : Prop :=
  ∀ m m' h, course (x ⟨m, h⟩) = course (x ⟨m', h⟩)

namespace Blind

variable {f : β → EStateM ε (Cursor α) γ}

theorem of_ok (hx : Blind x) {m : Mem α} {h : Nat} {b : β} {c : Cursor α}
    (hok : x ⟨m, h⟩ = .ok b c) (m' : Mem α) : ∃ c', x ⟨m', h⟩ = .ok b c' ∧ c'.h = c.h := by
  have hcourse := hx m m' h
  rw [hok] at hcourse
  cases hrun : x ⟨m', h⟩ with
  | ok b' c' =>
    rw [hrun] at hcourse
    obtain ⟨hb, hh⟩ := Prod.mk.inj hcourse
    cases hb
    exact ⟨c', rfl, hh.symm⟩
  | error e c' =>
    rw [hrun] at hcourse
    cases (Prod.mk.inj hcourse).1

protected theorem pure (b : β) : Blind (pure b : EStateM ε (Cursor α) β) := fun _ _ _ => rfl

protected theorem failIf [Decidable c] (e : ε) :
    Blind (failIf c e : EStateM ε (Cursor α) Unit) := by
  intro m m' h
  by_cases hc : c
  · rw [failIf_of hc, failIf_of hc]
    rfl
  · rw [failIf_of_not hc, failIf_of_not hc]
    rfl

protected theorem withLocal {τ : Type} (init : τ) (y : EStateM ε τ β) :
    Blind (withLocal init y : EStateM ε (Cursor α) (β × τ)) := by
  intro m m' h
  unfold withLocal
  cases y init <;> rfl

protected theorem bind (hx : Blind x) (hf : ∀ b, Blind (f b)) : Blind (x >>= f) := by
  intro m m' h
  have hcourse := hx m m' h
  cases hrun : x ⟨m, h⟩ with
  | ok b c =>
    obtain ⟨c', hrun', hh⟩ := hx.of_ok hrun m'
    rw [bind_of_ok hrun, bind_of_ok hrun']
    have hc : c' = ⟨c'.buffer, c.h⟩ := by rw [← hh]
    rw [hc]
    exact hf b c.buffer c'.buffer c.h
  | error e c =>
    cases hrun' : x ⟨m', h⟩ with
    | ok b c' =>
      rw [hrun, hrun'] at hcourse
      cases (Prod.mk.inj hcourse).1
    | error e' c' =>
      rw [hrun, hrun'] at hcourse
      obtain ⟨he, hh⟩ := Prod.mk.inj hcourse
      cases he
      rw [bind_of_error hrun, bind_of_error hrun']
      exact Prod.ext rfl hh

end Blind

/-- A blind writer, with error codes of which `P` holds. -/
structure Plain (P : ε → Prop) (x : EStateM ε (Cursor α) β) : Prop where
  blind : Blind x
  throws : Throws P x

namespace Plain

variable {P : ε → Prop}

theorem of_total (hx : Blind x) (h : ∀ c, ∃ b c', x c = .ok b c') : Plain P x :=
  ⟨hx, .of_total h⟩

protected theorem pure (b : β) : Plain P (pure b : EStateM ε (Cursor α) β) :=
  ⟨.pure b, .pure b⟩

protected theorem emit (w : α) : Plain P (emit w : EStateM ε (Cursor α) Unit) :=
  .of_total (fun _ _ _ => rfl) fun _ => ⟨_, _, rfl⟩

protected theorem skip (n : Nat) : Plain P (skip n : EStateM ε (Cursor α) Unit) :=
  .of_total (fun _ _ _ => rfl) fun _ => ⟨_, _, rfl⟩

protected theorem head : Plain P (head : EStateM ε (Cursor α) Nat) :=
  .of_total (fun _ _ _ => rfl) fun _ => ⟨_, _, rfl⟩

protected theorem modifyAt (i : Nat) (g : α → α) :
    Plain P (modifyAt i g : EStateM ε (Cursor α) Unit) :=
  .of_total (fun _ _ _ => rfl) fun _ => ⟨_, _, rfl⟩

protected theorem emitAll (ws : List α) : Plain P (emitAll ws : EStateM ε (Cursor α) Unit) := by
  refine .of_total (fun m m' h => ?_) fun c => ⟨_, _, emitAll_run ws c⟩
  rw [emitAll_run, emitAll_run]
  rfl

protected theorem failIf [Decidable c] {e : ε} (he : P e) :
    Plain P (failIf c e : EStateM ε (Cursor α) Unit) := ⟨.failIf e, .failIf fun _ => he⟩

protected theorem runPure {y : Except ε β} (h : ∀ e, y = .error e → P e) :
    Plain P (runPure y : EStateM ε (Cursor α) β) :=
  ⟨fun _ _ _ => by cases y <;> rfl, .runPure h⟩

protected theorem withLocal {τ : Type} {init : τ} {y : EStateM ε τ β} (hy : Throws P y) :
    Plain P (withLocal init y : EStateM ε (Cursor α) (β × τ)) := ⟨.withLocal init y, hy.withLocal⟩

protected theorem bind {f : β → EStateM ε (Cursor α) γ} (hx : Plain P x) (hf : ∀ b, Plain P (f b)) :
    Plain P (x >>= f) := ⟨hx.blind.bind fun b => (hf b).blind, hx.throws.bind fun b => (hf b).throws⟩

protected theorem ite [Decidable c] {y : EStateM ε (Cursor α) β} (hx : Plain P x) (hy : Plain P y) :
    Plain P (if c then x else y) := by
  split
  · exact hx
  · exact hy

end Plain

end LibTransistor.Cursor
