/-!
# Runs of a transition system

A `System` is a type of states, the initial ones, and the steps between states, each with a label
that says what is done. `Reachable` are the states that runs lead to, and `restrict` keeps only the
runs whose steps all satisfy a condition.

`Reachable.invariant`: what holds at the start and is kept by each step holds in every state of
every run. Where steps compute, `reachable_after` makes runs out of lists of steps, and
`throughout_iff_allowed` turns an exact condition on one step into one on runs.
-/

namespace LibTransistor

/-- States with labelled steps. -/
structure System (σ α : Type) where
  init : σ → Prop
  step : σ → α → σ → Prop

namespace System

variable {σ α : Type} {S : System σ α}
variable {s : σ} {P : σ → Prop} {as : List α}

/-- The states that a run leads to. -/
inductive Reachable (S : System σ α) : σ → Prop
  | init {s : σ} (h : S.init s) : Reachable S s
  | step {s s' : σ} (a : α) (hs : Reachable S s) (h : S.step s a s') : Reachable S s'

/-- The runs whose steps all satisfy `ok`. -/
def restrict (S : System σ α) (ok : σ → α → σ → Prop) : System σ α where
  init := S.init
  step s a s' := S.step s a s' ∧ ok s a s'

theorem Reachable.invariant (hinit : ∀ s, S.init s → P s)
    (hstep : ∀ s a s', P s → S.step s a s' → P s') (hs : S.Reachable s) : P s := by
  induction hs with
  | init h => exact hinit _ h
  | step a _ h ih => exact hstep _ a _ ih h

/-! ## Systems that compute -/

section Exec

variable {exec : α → σ → σ} {ok : σ → α → Prop}

/-- The state after some steps of a system whose steps compute. -/
def after (exec : α → σ → σ) (s : σ) (as : List α) : σ := as.foldl (fun s a => exec a s) s

/-- Every one of some steps is allowed when it is taken. -/
def Allowed (exec : α → σ → σ) (ok : σ → α → Prop) (s : σ) : List α → Prop
  | [] => True
  | a :: as => ok s a ∧ Allowed exec ok (exec a s) as

instance Allowed.decidable [∀ s a, Decidable (ok s a)] (s : σ) :
    (as : List α) → Decidable (Allowed exec ok s as)
  | [] => inferInstanceAs (Decidable True)
  | a :: as =>
    haveI := Allowed.decidable (exec a s) as
    inferInstanceAs (Decidable (_ ∧ _))

theorem Allowed.of_forall (h : ∀ s a, ok s a) (s : σ) (as : List α) : Allowed exec ok s as := by
  induction as generalizing s with
  | nil => trivial
  | cons a as ih => exact ⟨h s a, ih (exec a s)⟩

theorem reachable_after (hstep : ∀ s a, ok s a → S.step s a (exec a s)) (hs : S.Reachable s)
    (has : Allowed exec ok s as) : S.Reachable (after exec s as) := by
  induction as generalizing s with
  | nil => exact hs
  | cons a as ih => exact ih (hs.step a (hstep s a has.1)) has.2

/-- What holds in every state of a run. -/
def Throughout (exec : α → σ → σ) (P : σ → Prop) (s : σ) (as : List α) : Prop :=
  ∀ bs, bs <+: as → P (after exec s bs)

theorem throughout_cons {a : α} :
    Throughout exec P s (a :: as) ↔ P s ∧ Throughout exec P (exec a s) as := by
  constructor
  · intro h
    exact ⟨h [] List.nil_prefix, fun bs hbs => h (a :: bs) (List.cons_prefix_cons.2 ⟨rfl, hbs⟩)⟩
  · rintro ⟨hs, h⟩ bs hbs
    rcases List.prefix_cons_iff.1 hbs with rfl | ⟨cs, rfl, hcs⟩
    · exact hs
    · exact h cs hcs

/-- **Exact conditions on steps.** If, in the states that legal steps lead to, `P` survives a step
exactly if the step is `ok`, then it holds throughout a legal run exactly if all steps are. -/
theorem throughout_iff_allowed {I : σ → Prop} {legal : σ → α → Prop}
    (hinv : ∀ s a, I s → legal s a → I (exec a s))
    (hstep : ∀ s a, I s → P s → legal s a → (P (exec a s) ↔ ok s a)) (hI : I s) (hP : P s)
    (hlegal : Allowed exec legal s as) : Throughout exec P s as ↔ Allowed exec ok s as := by
  induction as generalizing s with
  | nil =>
    refine iff_of_true (fun bs hbs => ?_) trivial
    rw [List.prefix_nil.1 hbs]
    exact hP
  | cons a as ih =>
    have ha := hstep s a hI hP hlegal.1
    rw [throughout_cons, and_iff_right hP]
    constructor
    · intro h
      have hnext : P (exec a s) := h [] List.nil_prefix
      exact ⟨ha.1 hnext, (ih (hinv s a hI hlegal.1) hnext hlegal.2).1 h⟩
    · intro h
      exact (ih (hinv s a hI hlegal.1) (ha.2 h.1) hlegal.2).2 h.2

end Exec

end System

end LibTransistor
