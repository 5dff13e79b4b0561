import LibTransistor.Lib.Runs
import Mathlib.Logic.Relation

/-!
# Programs on a state, and the runs they make

A program on a state that cannot fail is a `StateM`. It `Follows` a transition system when each of
its executions, seen from the outside, is some run of the system: the system may take several steps
for one operation, and keep more in its states than the program sees. The rules go along the
structure of a program, so a program made of operations that follow a system follows it.
-/

namespace LibTransistor

namespace Stateful

variable {τ β γ : Type}

theorem bind_run (m : StateM τ β) (f : β → StateM τ γ) (t : τ) :
    (m >>= f) t = f (m t).1 (m t).2 := rfl

theorem get_bind_run (f : τ → StateM τ γ) (t : τ) : ((get : StateM τ τ) >>= f) t = f t t := rfl

theorem modify_bind_run (g : τ → τ) (f : Unit → StateM τ γ) (t : τ) :
    ((modify g : StateM τ Unit) >>= f) t = f () (g t) := rfl

theorem discard_snd (m : StateM τ β) (t : τ) : ((discard m : StateM τ Unit) t).2 = (m t).2 := rfl

end Stateful

namespace System

variable {σ α τ β γ : Type} {S : System σ α} {view : σ → τ} {m : StateM τ β}

/-- The states that steps lead to from a given one. -/
def Steps (S : System σ α) : σ → σ → Prop := Relation.ReflTransGen fun s s' => ∃ a, S.step s a s'

/-- Whatever `m` does to the part `view` of the state is done by steps of the system. -/
def Follows (S : System σ α) (view : σ → τ) (m : StateM τ β) : Prop :=
  ∀ s, ∃ s', S.Steps s s' ∧ view s' = (m (view s)).2

namespace Follows

theorem of_step (h : ∀ s, ∃ a s', S.step s a s' ∧ view s' = (m (view s)).2) : Follows S view m := by
  intro s
  obtain ⟨a, s', hstep, hview⟩ := h s
  exact ⟨s', .single ⟨a, hstep⟩, hview⟩

theorem pure (b : β) : Follows S view (Pure.pure b : StateM τ β) := fun s => ⟨s, .refl, rfl⟩

theorem bind {f : β → StateM τ γ} (hm : Follows S view m) (hf : ∀ b, Follows S view (f b)) :
    Follows S view (m >>= f) := by
  intro s
  obtain ⟨s₁, h₁, hview₁⟩ := hm s
  obtain ⟨s₂, h₂, hview₂⟩ := hf (m (view s)).1 s₁
  refine ⟨s₂, h₁.trans h₂, ?_⟩
  rw [hview₂, hview₁]
  rfl

theorem get_bind {f : τ → StateM τ γ} (hf : ∀ t, Follows S view (f t)) :
    Follows S view (get >>= f) := fun s => hf (view s) s

end Follows

end System

end LibTransistor
