import Mathlib.Data.List.Basic

/-!
# Turns

One of several clients is served at a time, and some are ready to be served. A history lists turns,
newest first. `Fair` says that no client is served twice while another waits that was ready all
along; it is kept up turn by turn with `Waiting`, and `Fair.served_between` says what it means for
two turns of a history.
-/

namespace LibTransistor

/-- The clients that are ready, and the one that is served. -/
structure Turn (ι : Type) where
  ready : List ι
  served : Option ι
  deriving DecidableEq

namespace Turn

variable {ι : Type} {a b : ι} {l l₁ l₂ l₃ : List (Turn ι)}

/-- `b` has been ready since a turn of `a`, and has not been served since. -/
def Waiting (a b : ι) : List (Turn ι) → Prop
  | [] => False
  | t :: l => b ∈ t.ready ∧ t.served ≠ some b ∧ (t.served = some a ∨ Waiting a b l)

/-- No turn goes to a client that another one waits behind. -/
def Fair : List (Turn ι) → Prop
  | [] => True
  | t :: l => (∀ a b, t.served = some a → b ∈ t.ready → ¬ Waiting a b l) ∧ Fair l

theorem Waiting.of_append {i : Turn ι} (hi : i.served = some a) (hready : b ∈ i.ready) (hne : b ≠ a)
    (h : ∀ t ∈ l₂, b ∈ t.ready ∧ t.served ≠ some b) : Waiting a b (l₂ ++ i :: l₁) := by
  induction l₂ with
  | nil =>
    refine ⟨hready, ?_, .inl hi⟩
    rw [hi]
    exact fun heq => hne (Option.some.inj heq).symm
  | cons t l₂ ih =>
    obtain ⟨hb, hserved⟩ := h t List.mem_cons_self
    exact ⟨hb, hserved, .inr (ih fun t ht => h t (List.mem_cons_of_mem _ ht))⟩

theorem Fair.of_append (h : Fair (l₁ ++ l₂)) : Fair l₂ := by
  induction l₁ with
  | nil => exact h
  | cons t l₁ ih => exact ih h.2

/-- **Between two turns of a client**, every other client is served that is ready all along. -/
theorem Fair.served_between {i j : Turn ι} (h : Fair (l₃ ++ j :: (l₂ ++ i :: l₁)))
    (hi : i.served = some a) (hj : j.served = some a) (hne : b ≠ a) (hbi : b ∈ i.ready)
    (hbj : b ∈ j.ready) (hb : ∀ t ∈ l₂, b ∈ t.ready) : ∃ t ∈ l₂, t.served = some b := by
  by_contra hnone
  refine h.of_append.1 a b hj hbj (.of_append hi hbi hne fun t ht => ⟨hb t ht, fun hserved => ?_⟩)
  exact hnone ⟨t, ht, hserved⟩

end Turn

end LibTransistor
