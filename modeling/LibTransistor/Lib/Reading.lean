import LibTransistor.Lib.Memory

/-!
# Which addresses a program reads

A `Reading` is a fallible program that reads a memory word by word: `run` is what it computes, an
`EStateM`, and `reads` are the addresses that it reads on the way, in order, up to where it fails.

`Within n x s` says that `x`, started in `s`, reads only addresses below `n`. The rules go along the
structure of a program; by `within_bind`, what comes after a step that fails reads nothing.
-/

namespace LibTransistor

/-- A program that may fail and that reads a memory. -/
def Reading (ε σ α : Type) := σ → EStateM.Result ε σ α × List Nat

namespace Reading

variable {ε σ α β : Type}

/-- What the program computes. -/
def run (x : Reading ε σ α) : EStateM ε σ α := fun s => (x s).1

/-- The addresses that the program reads. -/
def reads (x : Reading ε σ α) (s : σ) : List Nat := (x s).2

/-- The rest of a program, after a first part. -/
def next (f : α → Reading ε σ β) : EStateM.Result ε σ α → EStateM.Result ε σ β × List Nat
  | .ok a s => f a s
  | .error e s => (.error e s, [])

instance instMonad : Monad (Reading ε σ) where
  pure a s := (.ok a s, [])
  bind x f s := ((next f (x s).1).1, (x s).2 ++ (next f (x s).1).2)

/-- A part that reads nothing. -/
def lift (x : EStateM ε σ α) : Reading ε σ α := fun s => (x s, [])

/-- Read one address. -/
def word (m : Mem α) (i : Nat) : Reading ε σ α := fun s => (.ok (m i) s, [i])

/-- Read `n` addresses from `a` on. -/
def words (m : Mem α) : Nat → Nat → Reading ε σ (List α)
  | _, 0 => pure []
  | a, n + 1 => do
    let x ← word m a
    let xs ← words m (a + 1) n
    return x :: xs

/-! ## What is computed -/

section Run

variable {x : Reading ε σ α} {f : α → Reading ε σ β} {m : Mem α} {s : σ}

@[simp] theorem run_pure (a : α) : (pure a : Reading ε σ α).run = pure a := rfl

@[simp] theorem run_bind : (x >>= f).run = x.run >>= fun a => (f a).run := by
  funext s
  show (next f (x s).1).1 = EStateM.bind x.run (fun a => (f a).run) s
  unfold EStateM.bind run
  cases (x s).1 <;> rfl

@[simp] theorem run_lift (y : EStateM ε σ α) : (lift y).run = y := rfl

@[simp] theorem run_word (i : Nat) : (word m i : Reading ε σ α).run = pure (m i) := rfl

theorem run_words (a n : Nat) : (words m a n : Reading ε σ (List α)).run = pure (m.read a n) := by
  induction n generalizing a with
  | zero => rfl
  | succ n ih =>
    rw [Mem.read_succ]
    funext s
    show ((words m (a + 1) n : Reading ε σ (List α)) >>= fun xs => pure (m a :: xs)).run s = _
    rw [run_bind, ih]
    rfl

theorem run_pure_bind {a : α} (hx : x.run = pure a) (f : α → Reading ε σ β) :
    (x >>= f).run = (f a).run := by
  rw [run_bind, hx]
  rfl

theorem run_words_bind (a n : Nat) (g : List α → Reading ε σ β) :
    (words m a n >>= g).run = (g (m.read a n)).run := run_pure_bind (run_words a n) g

end Run

/-! ## What is read -/

/-- All addresses read are below `n`. -/
def Within (n : Nat) (x : Reading ε σ α) (s : σ) : Prop := ∀ i ∈ x.reads s, i < n

section Within

variable {n : Nat} {x : Reading ε σ α} {f : α → Reading ε σ β} {m : Mem α} {s : σ}

theorem within_pure (a : α) : Within n (pure a : Reading ε σ α) s := fun _ hi => nomatch hi

theorem within_lift (y : EStateM ε σ α) : Within n (lift y) s := fun _ hi => nomatch hi

theorem within_word {i : Nat} : Within n (word m i : Reading ε σ α) s ↔ i < n := by
  unfold Within reads word
  simp

/-- **Sequencing.** The second part reads if the first one ends well. -/
theorem within_bind : Within n (x >>= f) s ↔
    Within n x s ∧ ∀ a s', x.run s = .ok a s' → Within n (f a) s' := by
  have hreads : (x >>= f).reads s = x.reads s ++ (next f (x.run s)).2 := rfl
  unfold Within
  rw [hreads, List.forall_mem_append]
  refine and_congr_right fun _ => ?_
  cases x.run s with
  | ok a s' =>
    constructor
    · intro h a' s'' heq
      cases heq
      exact h
    · exact fun h => h a s' rfl
  | error e s' => exact ⟨fun _ a s'' heq => (nomatch heq), fun _ i hi => (nomatch hi)⟩

theorem within_lift_bind {y : EStateM ε σ α} :
    Within n (lift y >>= f) s ↔ ∀ a s', y s = .ok a s' → Within n (f a) s' := by
  rw [within_bind]
  exact and_iff_right (within_lift y)

theorem within_check_bind {x : Reading ε σ Unit} {f : Unit → Reading ε σ β} {P : Prop}
    (hx : ∀ {s t}, x.run s = .ok () t ↔ P ∧ t = s) :
    Within n (x >>= f) s ↔ Within n x s ∧ (P → Within n (f ()) s) := by
  rw [within_bind]
  refine and_congr_right fun _ => ⟨fun h hP => h () s (hx.2 ⟨hP, rfl⟩), fun h a s' heq => ?_⟩
  obtain ⟨hP, rfl⟩ := hx.1 heq
  exact h hP

theorem within_failIf_bind {c : Prop} [Decidable c] {e : ε} {f : Unit → Reading ε σ β} :
    Within n (lift (Fallible.failIf c e) >>= f) s ↔ (¬ c → Within n (f ()) s) := by
  have hguard : ∀ {s t : σ}, (lift (Fallible.failIf c e)).run s = .ok () t ↔ ¬ c ∧ t = s :=
    Fallible.failIf_eq_ok
  rw [within_check_bind hguard]
  exact and_iff_right (within_lift _)

theorem within_pure_bind {a : α} (hx : x.run = pure a) :
    Within n (x >>= f) s ↔ Within n x s ∧ Within n (f a) s := by
  rw [within_bind, hx]
  refine and_congr_right fun _ => ⟨fun h => h _ _ rfl, fun h a' s' heq => ?_⟩
  cases heq
  exact h

theorem within_word_bind {i : Nat} {g : α → Reading ε σ β} :
    Within n (word m i >>= g) s ↔ i < n ∧ Within n (g (m i)) s := by
  rw [within_pure_bind (run_word i), within_word]

theorem within_words {a k : Nat} :
    Within n (words m a k : Reading ε σ (List α)) s ↔ ∀ i < k, a + i < n := by
  induction k generalizing a with
  | zero => exact ⟨fun _ i hi => absurd hi (Nat.not_lt_zero i), fun _ => within_pure _⟩
  | succ k ih =>
    rw [words, within_word_bind, within_bind, ih]
    constructor
    · rintro ⟨hfirst, hrest, -⟩ i hi
      cases i with
      | zero => exact hfirst
      | succ i =>
        have hi := hrest i (by omega)
        omega
    · intro h
      refine ⟨h 0 (by omega), fun i hi => ?_, fun xs s' _ => within_pure _⟩
      have hi := h (i + 1) (by omega)
      omega

theorem within_words_bind {a k : Nat} {g : List α → Reading ε σ β} :
    Within n (words m a k >>= g) s ↔ (∀ i < k, a + i < n) ∧ Within n (g (m.read a k)) s := by
  rw [within_pure_bind (run_words a k), within_words]

end Within

end Reading

end LibTransistor
