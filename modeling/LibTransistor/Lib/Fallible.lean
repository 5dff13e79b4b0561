/-!
# Functions that return a result code

A C function that reports failure through its return value and works on memory is an `EStateM`: the
state after a failure is the one in which the function gave up. These are the rules to take such a
function apart.

* `bind_eq_ok` — a sequence succeeds exactly when both halves do, through some middle state.
* `check_bind_eq_ok` — what only checks something is passed exactly when that holds;
  `failIf_bind_eq_ok` is the case of a guard `if(c) return e;`.
* `Leaves` — what a function leaves alone, also when it fails, part by part.
* `Ends` — how a function ends, with one condition for success and one for failure. `onFail` is the
  way of C to clean up, a jump to a label behind the return.
* `Keeps` — an invariant of everything that a function is made of.
* `Throws` — what all error codes of a function have in common.

`withLocal` runs a function on a local variable of its own, next to the state of its caller, and
`zoom` on a part of that state. `Tracks` compares a function with one that carries more state along.
-/

namespace LibTransistor.Fallible

variable {ε σ τ α β : Type}
variable {s : σ} {f : α → EStateM ε σ β} {e : ε} {γ : Type}
variable {a : α} {b : β} {r : EStateM.Result ε σ α} {g : σ → σ} {init : τ}

/-! ## Sequencing -/

variable {x : EStateM ε σ α} {t : σ}

theorem bind_eq_ok : (x >>= f) s = .ok b t ↔ ∃ a u, x s = .ok a u ∧ f a u = .ok b t := by
  show EStateM.bind x f s = .ok b t ↔ _
  unfold EStateM.bind
  cases h : x s with
  | ok a u =>
    constructor
    · intro hf
      exact ⟨a, u, rfl, hf⟩
    · rintro ⟨a', u', hx, hf⟩
      cases hx
      exact hf
  | error e u => simp

theorem bind_of_ok {u : σ} (h : x s = .ok a u) : (x >>= f) s = f a u := by
  show EStateM.bind x f s = _
  unfold EStateM.bind
  rw [h]

theorem bind_of_error {u : σ} (h : x s = .error e u) : (x >>= f) s = .error e u := by
  show EStateM.bind x f s = _
  unfold EStateM.bind
  rw [h]

theorem unit_bind_eq_ok {x : EStateM ε σ Unit} {f : Unit → EStateM ε σ β} :
    (x >>= f) s = .ok b t ↔ ∃ u, x s = .ok () u ∧ f () u = .ok b t := by
  rw [bind_eq_ok]
  exact ⟨fun ⟨_, u, h⟩ => ⟨u, h⟩, fun ⟨u, h⟩ => ⟨(), u, h⟩⟩

theorem modify_bind_run {f : Unit → EStateM ε σ β} :
    ((modify g : EStateM ε σ Unit) >>= f) s = f () (g s) := rfl

theorem get_bind_run {f : σ → EStateM ε σ β} : ((get : EStateM ε σ σ) >>= f) s = f s s := rfl

theorem discard_eq_bind : discard x = x >>= fun _ => pure () := by
  funext s
  show EStateM.map _ x s = EStateM.bind x _ s
  cases x s <;> rfl

theorem pure_eq_ok {b : α} : (pure a : EStateM ε σ α) s = .ok b t ↔ b = a ∧ t = s := by
  show EStateM.Result.ok a s = .ok b t ↔ _
  simp [eq_comm]

/-! ## Guards -/

/-- The guard `if(c) return e;`. -/
def failIf (c : Prop) [Decidable c] (e : ε) : EStateM ε σ Unit :=
  if c then throw e else pure ()

variable {c : Prop} [Decidable c]

theorem failIf_of_not (h : ¬ c) (s : σ) : (failIf c e : EStateM ε σ Unit) s = .ok () s := by
  unfold failIf
  rw [if_neg h]
  rfl

theorem failIf_of (h : c) (s : σ) : (failIf c e : EStateM ε σ Unit) s = .error e s := by
  unfold failIf
  rw [if_pos h]
  rfl

theorem failIf_bind_of_not {f : Unit → EStateM ε σ β} (h : ¬ c) : (failIf c e >>= f) s = f () s :=
  bind_of_ok (failIf_of_not h s)

theorem failIf_bind_of {f : Unit → EStateM ε σ β} (h : c) : (failIf c e >>= f) s = .error e s :=
  bind_of_error (failIf_of h s)

theorem failIf_eq_ok : (failIf c e : EStateM ε σ Unit) s = .ok () t ↔ ¬ c ∧ t = s := by
  by_cases h : c
  · rw [failIf_of h]
    simp [h]
  · rw [failIf_of_not h]
    simp [h, eq_comm]

/-- A function that only checks something, in front of another. -/
theorem check_bind_eq_ok {x : EStateM ε σ Unit} {P : Prop}
    (hx : ∀ {s t}, x s = .ok () t ↔ P ∧ t = s) {f : Unit → EStateM ε σ β} :
    (x >>= f) s = .ok b t ↔ P ∧ f () s = .ok b t := by
  rw [unit_bind_eq_ok]
  constructor
  · rintro ⟨u, hx', hf⟩
    obtain ⟨hp, rfl⟩ := hx.1 hx'
    exact ⟨hp, hf⟩
  · rintro ⟨hp, hf⟩
    exact ⟨s, hx.2 ⟨hp, rfl⟩, hf⟩

theorem failIf_bind_eq_ok {f : Unit → EStateM ε σ β} :
    (failIf c e >>= f) s = .ok b t ↔ ¬ c ∧ f () s = .ok b t := check_bind_eq_ok failIf_eq_ok

/-! ## Outcomes -/

/-- Whether a run ended in success. -/
def succeeded : EStateM.Result ε σ α → Bool
  | .ok _ _ => true
  | .error _ _ => false

theorem succeeded_iff : succeeded r = true ↔ ∃ a s, r = .ok a s := by
  cases r <;> simp [succeeded]

theorem exists_ok_and {r : EStateM.Result ε σ Unit} {P : σ → Prop} (hr : succeeded r = true)
    (h : ∀ t, r = .ok () t → P t) : ∃ t, r = .ok () t ∧ P t := by
  obtain ⟨_, t, ht⟩ := succeeded_iff.1 hr
  exact ⟨t, ht, h t ht⟩

/-! ## What is left alone -/

/-- The state in which a run ended. -/
def final : EStateM.Result ε σ α → σ
  | .ok _ s => s
  | .error _ s => s

section Leaves

variable {view : σ → γ} {x : EStateM ε σ α}

/-- However `x` ends, what `view` shows of the state is as before. -/
def Leaves (view : σ → γ) (x : EStateM ε σ α) : Prop := ∀ s, view (final (x s)) = view s

theorem Leaves.pure (a : α) : Leaves view (pure a : EStateM ε σ α) := fun _ => rfl

theorem Leaves.throw (e : ε) : Leaves view (throw e : EStateM ε σ α) := fun _ => rfl

theorem Leaves.modify (h : ∀ s, view (g s) = view s) :
    Leaves view (modify g : EStateM ε σ Unit) := h

theorem Leaves.bind (hx : Leaves view x) (hf : ∀ a, Leaves view (f a)) : Leaves view (x >>= f) := by
  intro s
  have hs := hx s
  cases hrun : x s with
  | ok a u =>
    rw [hrun] at hs
    rw [bind_of_ok hrun]
    exact (hf a u).trans hs
  | error e u =>
    rw [hrun] at hs
    rw [bind_of_error hrun]
    exact hs

theorem Leaves.failIf (e : ε) : Leaves view (failIf c e : EStateM ε σ Unit) := by
  intro s
  by_cases h : c
  · rw [failIf_of h]
    rfl
  · rw [failIf_of_not h]
    rfl

theorem Leaves.get_bind {f : σ → EStateM ε σ β} (hf : ∀ s, Leaves view (f s)) :
    Leaves view (get >>= f) := fun s => hf s s

theorem Leaves.ite {y : EStateM ε σ α} (hx : Leaves view x)
    (hy : Leaves view y) : Leaves view (if c then x else y) := by
  split
  · exact hx
  · exact hy

end Leaves

/-! ## Cleaning up -/

/-- On a failure run `cleanup` and fail all the same: a `goto` to the label in front of it. -/
def onFail (x : EStateM ε σ α) (cleanup : EStateM ε σ Unit) : EStateM ε σ α := fun s =>
  match x s with
  | .ok a t => .ok a t
  | .error e t => .error e (final (cleanup t))

/-! ## How a run ends -/

/-- The result of a run, without the state. -/
def outcome : EStateM.Result ε σ α → Except ε α
  | .ok a _ => .ok a
  | .error e _ => .error e

theorem outcome_failIf_bind {f : Unit → EStateM ε σ α} (s : σ) :
    outcome ((failIf c e >>= f) s) = if c then .error e else outcome (f () s) := by
  by_cases h : c
  · rw [failIf_bind_of h, if_pos h]
    rfl
  · rw [failIf_bind_of_not h, if_neg h]

/-- The run succeeds with `Q` or fails with `E`. -/
def Ends (r : EStateM.Result ε σ α) (Q : α → σ → Prop) (E : ε → σ → Prop) : Prop :=
  match r with
  | .ok a s => Q a s
  | .error e s => E e s

namespace Ends

variable {Q Q' : α → σ → Prop} {E E' : ε → σ → Prop}

theorem imp (h : Ends r Q E) (hQ : ∀ a t, Q a t → Q' a t) (hE : ∀ e t, E e t → E' e t) :
    Ends r Q' E' := by
  cases r with
  | ok a t => exact hQ a t h
  | error e t => exact hE e t h

theorem last {P : σ → Prop} (h : Ends r (fun _ t => P t) (fun _ t => P t)) : P (final r) := by
  cases r with
  | ok a t => exact h
  | error e t => exact h

theorem bind {x : EStateM ε σ β} {f : β → EStateM ε σ α} {P : β → σ → Prop} (h : Ends (x s) P E)
    (hf : ∀ b t, P b t → Ends (f b t) Q E) : Ends ((x >>= f) s) Q E := by
  cases hrun : x s with
  | ok b t =>
    rw [hrun] at h
    rw [bind_of_ok hrun]
    exact hf b t h
  | error e t =>
    rw [hrun] at h
    rw [bind_of_error hrun]
    exact h

theorem onFail {cleanup : EStateM ε σ Unit} {F : ε → σ → Prop} (h : Ends (x s) Q F)
    (hcleanup : ∀ e t, F e t → E e (final (cleanup t))) : Ends (onFail x cleanup s) Q E := by
  unfold Fallible.onFail
  cases hrun : x s with
  | ok a t =>
    rw [hrun] at h
    exact h
  | error e t =>
    rw [hrun] at h
    exact hcleanup e t h

/-- A guard in front of the rest. -/
theorem failIf_bind {f : Unit → EStateM ε σ α} (hc : c → E e s)
    (hf : ¬ c → Ends (f () s) Q E) : Ends ((failIf c e >>= f) s) Q E := by
  by_cases h : c
  · rw [failIf_bind_of h]
    exact hc h
  · rw [failIf_bind_of_not h]
    exact hf h

end Ends

/-! ## Invariants -/

/-- However `x` ends, it keeps `P`. -/
def Keeps (P : σ → Prop) (x : EStateM ε σ α) : Prop := ∀ s, P s → P (final (x s))

namespace Keeps

variable {P : σ → Prop} {x : EStateM ε σ α}

theorem ends_iff : Ends r (fun _ t => P t) (fun _ t => P t) ↔ P (final r) := by
  cases r <;> exact Iff.rfl

theorem of_ends (h : ∀ s, P s → Ends (x s) (fun _ t => P t) (fun _ t => P t)) : Keeps P x :=
  fun s hs => ends_iff.1 (h s hs)

theorem ends (h : Keeps P x) (hs : P s) : Ends (x s) (fun _ t => P t) (fun _ t => P t) :=
  ends_iff.2 (h s hs)

theorem of_ok (h : Keeps P x) (hs : P s) (hrun : x s = .ok a t) : P t := by
  have hend := h s hs
  rw [hrun] at hend
  exact hend

theorem pure (a : α) : Keeps P (pure a : EStateM ε σ α) := fun _ hs => hs

theorem modify (h : ∀ s, P s → P (g s)) : Keeps P (modify g : EStateM ε σ Unit) := h

theorem bind (hx : Keeps P x) (hf : ∀ a, Keeps P (f a)) :
    Keeps P (x >>= f) := .of_ends fun _ hs => (hx.ends hs).bind fun a _ ht => (hf a).ends ht

theorem failIf (e : ε) : Keeps P (failIf c e : EStateM ε σ Unit) := by
  intro s hs
  by_cases h : c
  · rw [failIf_of h]
    exact hs
  · rw [failIf_of_not h]
    exact hs

theorem get_bind {f : σ → EStateM ε σ β} (hf : ∀ s, Keeps P (f s)) : Keeps P (get >>= f) :=
  fun s => hf s s

theorem ite {y : EStateM ε σ α} (hx : Keeps P x) (hy : Keeps P y) :
    Keeps P (if c then x else y) := by
  split
  · exact hx
  · exact hy

theorem onFail {cleanup : EStateM ε σ Unit} (hx : Keeps P x) (hcleanup : Keeps P cleanup) :
    Keeps P (onFail x cleanup) :=
  .of_ends fun _ hs => (hx.ends hs).onFail fun _ t ht => hcleanup t ht

theorem bind_congr {g : α → EStateM ε σ β} (hx : Keeps P x) (hfg : ∀ a t, P t → f a t = g a t)
    (hs : P s) : (x >>= f) s = (x >>= g) s := by
  have hend := hx s hs
  cases hrun : x s with
  | ok a t =>
    rw [hrun] at hend
    rw [bind_of_ok hrun, bind_of_ok hrun]
    exact hfg a t hend
  | error e t => rw [bind_of_error hrun, bind_of_error hrun]

theorem of_leaves {view : σ → γ} (hx : Leaves view x) (hP : ∀ s t, view t = view s → P s → P t) :
    Keeps P x := fun s => hP s _ (hx s)

end Keeps

/-! ## Local variables -/

/-- A computation that touches no memory. -/
def runPure : Except ε α → EStateM ε σ α
  | .ok a => pure a
  | .error e => throw e

theorem Leaves.runPure {view : σ → γ} (x : Except ε α) :
    Leaves view (runPure x : EStateM ε σ α) := by
  cases x with
  | ok a => exact .pure a
  | error e => exact .throw e

theorem runPure_eq_ok {x : Except ε α} :
    (runPure x : EStateM ε σ α) s = .ok a t ↔ x = .ok a ∧ t = s := by
  cases x with
  | ok b =>
    show (pure b : EStateM ε σ α) s = .ok a t ↔ _
    rw [pure_eq_ok, Except.ok.injEq, eq_comm]
  | error e =>
    constructor
    · intro h
      cases h
    · exact fun h => nomatch h.1

theorem runPure_bind_eq_ok {x : Except ε α} :
    (runPure x >>= f) s = .ok b t ↔ ∃ a, x = .ok a ∧ f a s = .ok b t := by
  rw [bind_eq_ok]
  constructor
  · rintro ⟨a, u, hx, hf⟩
    obtain ⟨hx', rfl⟩ := runPure_eq_ok.1 hx
    exact ⟨a, hx', hf⟩
  · rintro ⟨a, hx, hf⟩
    exact ⟨a, s, runPure_eq_ok.2 ⟨hx, rfl⟩, hf⟩

theorem runPure_bind_of_ok {x : Except ε α} (h : x = .ok a) : (runPure x >>= f) s = f a s := by
  subst h
  rfl

/-- Run `x` on a local variable that starts as `init`, and give its final value back. -/
def withLocal (init : τ) (x : EStateM ε τ α) : EStateM ε σ (α × τ) := fun s =>
  match x init with
  | .ok a t => .ok (a, t) s
  | .error e _ => .error e s

theorem withLocal_eq_ok {x : EStateM ε τ α} {s' : σ} {r : α × τ} :
    (withLocal init x : EStateM ε σ (α × τ)) s = .ok r s' ↔ x init = .ok r.1 r.2 ∧ s' = s := by
  unfold withLocal
  cases h : x init with
  | ok a t => simp [eq_comm, Prod.ext_iff]
  | error e t => simp

theorem withLocal_of_error {t : τ} {x : EStateM ε τ α} (h : x init = .error e t) (s : σ) :
    (withLocal init x : EStateM ε σ (α × τ)) s = .error e s := by
  unfold withLocal
  rw [h]

/-! ## Parts of the state -/

section Zoom

variable {part : σ → τ} {put : τ → σ → σ} {x : EStateM ε τ α} {t : τ}

/-- Run `x` on a part of the state. -/
def zoom (part : σ → τ) (put : τ → σ → σ) (x : EStateM ε τ α) : EStateM ε σ α := fun s =>
  match x (part s) with
  | .ok a t => .ok a (put t s)
  | .error e t => .error e (put t s)

theorem zoom_of_ok (h : x (part s) = .ok a t) : zoom part put x s = .ok a (put t s) := by
  unfold zoom
  rw [h]

theorem zoom_of_error (h : x (part s) = .error e t) : zoom part put x s = .error e (put t s) := by
  unfold zoom
  rw [h]

theorem zoom_eq_ok {s' : σ} :
    zoom part put x s = .ok a s' ↔ ∃ t, x (part s) = .ok a t ∧ s' = put t s := by
  unfold zoom
  cases x (part s) with
  | ok b t =>
    constructor
    · intro h
      cases h
      exact ⟨t, rfl, rfl⟩
    · intro ⟨u, hx, hs⟩
      cases hx
      rw [hs]
  | error e t => simp

theorem zoom_bind {f : α → EStateM ε τ β} (hpart : ∀ t s, part (put t s) = t)
    (hput : ∀ t t' s, put t' (put t s) = put t' s) :
    zoom part put (x >>= f) = zoom part put x >>= fun a => zoom part put (f a) := by
  funext s
  cases hrun : x (part s) with
  | ok a t =>
    rw [bind_of_ok (zoom_of_ok hrun)]
    unfold zoom
    rw [bind_of_ok hrun, hpart]
    cases f a t with
    | ok b u => exact congrArg _ (hput t u s).symm
    | error e u => exact congrArg _ (hput t u s).symm
  | error e t => rw [bind_of_error (zoom_of_error hrun), zoom_of_error (bind_of_error hrun)]

theorem Ends.zoom {Q : α → τ → Prop} {E : ε → τ → Prop} (h : Ends (x (part s)) Q E) :
    Ends (zoom part put x s) (fun a s' => ∃ t, Q a t ∧ s' = put t s)
      (fun e s' => ∃ t, E e t ∧ s' = put t s) := by
  cases hrun : x (part s) with
  | ok a t =>
    rw [hrun] at h
    rw [zoom_of_ok hrun]
    exact ⟨t, h, rfl⟩
  | error e t =>
    rw [hrun] at h
    rw [zoom_of_error hrun]
    exact ⟨t, h, rfl⟩

theorem Leaves.zoom {view : σ → γ} (hput : ∀ t s, view (put t s) = view s) :
    Leaves view (zoom part put x) := by
  intro s
  cases hrun : x (part s) with
  | ok a t =>
    rw [zoom_of_ok hrun]
    exact hput t s
  | error e t =>
    rw [zoom_of_error hrun]
    exact hput t s

end Zoom

/-! ## The same run on more state -/

/-- What `x` does to a view of its state, and how it ends, is what `y` does on that view alone. -/
def Tracks (view : σ → τ) (x : EStateM ε σ α) (y : EStateM ε τ α) : Prop := ∀ s,
  Ends (x s) (fun a s' => y (view s) = .ok a (view s')) (fun e s' => y (view s) = .error e (view s'))

namespace Tracks

variable {view : σ → τ} {x : EStateM ε σ α} {y : EStateM ε τ α}

theorem failIf (e : ε) : Tracks view (failIf c e) (failIf c e) := by
  intro s
  by_cases h : c
  · rw [failIf_of h, failIf_of h]
    exact rfl
  · rw [failIf_of_not h, failIf_of_not h]
    exact rfl

theorem zoom {put : τ → σ → σ} (hput : ∀ t s, view (put t s) = t) :
    Tracks view (zoom view put y) y := by
  intro s
  cases hrun : y (view s) with
  | ok a t =>
    rw [zoom_of_ok hrun]
    exact congrArg _ (hput t s).symm
  | error e t =>
    rw [zoom_of_error hrun]
    exact congrArg _ (hput t s).symm

theorem bind {g : α → EStateM ε τ β} (hx : Tracks view x y) (hf : ∀ a, Tracks view (f a) (g a)) :
    Tracks view (x >>= f) (y >>= g) := by
  intro s
  have hs := hx s
  cases hrun : x s with
  | ok a t =>
    rw [hrun] at hs
    rw [bind_of_ok hrun, bind_of_ok hs]
    exact hf a t
  | error e t =>
    rw [hrun] at hs
    rw [bind_of_error hrun, bind_of_error hs]
    exact rfl

end Tracks

/-! ## Error codes -/

/-- Every error of `x` is one of `P`. -/
def Throws (P : ε → Prop) (x : EStateM ε σ α) : Prop :=
  ∀ s, Ends (x s) (fun _ _ => True) (fun e _ => P e)

namespace Throws

variable {P : ε → Prop} {x : EStateM ε σ α}

theorem of_error (h : Throws P x) (hrun : x s = .error e t) : P e := by
  have hs := h s
  rw [hrun] at hs
  exact hs

theorem of_total (h : ∀ s, ∃ a t, x s = .ok a t) : Throws P x := by
  intro s
  obtain ⟨a, t, hrun⟩ := h s
  rw [hrun]
  trivial

theorem pure (a : α) : Throws P (pure a : EStateM ε σ α) := fun _ => trivial

theorem bind (hx : Throws P x) (hf : ∀ a, Throws P (f a)) :
    Throws P (x >>= f) := fun s => (hx s).bind fun a t _ => hf a t

theorem failIf (h : c → P e) : Throws P (failIf c e : EStateM ε σ Unit) := by
  intro s
  by_cases hc : c
  · rw [failIf_of hc]
    exact h hc
  · rw [failIf_of_not hc]
    trivial

theorem runPure {y : Except ε α} (h : ∀ e, y = .error e → P e) :
    Throws P (runPure y : EStateM ε σ α) := by
  cases y with
  | ok a => exact .pure a
  | error e => exact fun _ => h e rfl

theorem withLocal {y : EStateM ε τ α} (hy : Throws P y) :
    Throws P (withLocal init y : EStateM ε σ (α × τ)) := by
  intro s
  have hinit := hy init
  unfold Fallible.withLocal
  cases hrun : y init with
  | ok a t => trivial
  | error e t =>
    rw [hrun] at hinit
    exact hinit

end Throws

end LibTransistor.Fallible
