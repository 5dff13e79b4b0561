import Mathlib.Tactic.Common

/-!
# Scanning what has come so far

A `Scanner` reads tokens from the front of a list that may be continued later. It finds a value,
finds that there is none, or comes to the end of the list without being able to tell (`Scan.short`).
A scanner that is made of the parts below says the same about every continuation of a list as it
said about the list, if it said anything (`Stable`).
-/

namespace LibTransistor

open List

/-- What a scanner says: nothing yet, no, or a value and the tokens behind it. -/
inductive Scan (τ α : Type)
  | short
  | mismatch
  | found (a : α) (rest : List τ)
  deriving DecidableEq

def Scanner (τ α : Type) := List τ → Scan τ α

variable {τ α β : Type}

/-- Go on behind a value. -/
def Scan.andThen (f : α → Scanner τ β) : Scan τ α → Scan τ β
  | short => short
  | mismatch => mismatch
  | found a rest => f a rest

namespace Scanner

instance instMonad : Monad (Scanner τ) where
  pure a := fun l => .found a l
  bind x f := fun l => (x l).andThen f

/-- The tokens are not what was looked for. -/
def fail : Scanner τ α := fun _ => .mismatch

/-- One token. -/
def next : Scanner τ τ
  | [] => .short
  | b :: bs => .found b bs

/-- The tokens up to the first that is not `p`, which has to be there. -/
def span (p : τ → Bool) : Scanner τ (List τ)
  | [] => .short
  | b :: bs => if p b then (span p bs).andThen fun bs' rest => .found (b :: bs') rest
    else .found [] (b :: bs)

/-- Just these tokens. -/
def literal [DecidableEq τ] : List τ → Scanner τ Unit
  | [] => pure ()
  | p :: ps => do
    let b ← next
    if b = p then literal ps else fail

/-- A token that stands there or does not. -/
def optional [DecidableEq τ] (p : τ) : Scanner τ Bool
  | [] => .short
  | b :: bs => if b = p then .found true bs else .found false (b :: bs)

/-- The value, or that there is none. Nothing is taken in that case. -/
def attempt (x : Scanner τ α) : Scanner τ (Option α) := fun l =>
  match x l with
  | .short => .short
  | .mismatch => .found none l
  | .found a rest => .found (some a) rest

/-- The tokens up to `p`, and `p` itself. -/
def upTo [DecidableEq τ] (p : τ) : Scanner τ (List τ) := do
  let l ← span fun b => b ≠ p
  let _ ← next
  return l

section Bind

variable {x : Scanner τ α} {f : α → Scanner τ β} {l : List τ}

theorem bind_of_found {a : α} {rest : List τ} (h : x l = .found a rest) :
    (x >>= f) l = f a rest := congrArg (Scan.andThen f) h

theorem bind_of_mismatch (h : x l = .mismatch) : (x >>= f) l = .mismatch :=
  congrArg (Scan.andThen f) h

theorem bind_of_short (h : x l = .short) : (x >>= f) l = .short := congrArg (Scan.andThen f) h

end Bind

end Scanner

/-! ## Stable scanners -/

/-- What a scanner has decided stays decided. -/
structure Stable (x : Scanner τ α) : Prop where
  mismatch : ∀ {l}, x l = .mismatch → ∀ l', x (l ++ l') = .mismatch
  found : ∀ {l a rest}, x l = .found a rest → ∀ l', x (l ++ l') = .found a (rest ++ l')

namespace Stable

open Scanner

variable {x : Scanner τ α}

theorem pure (a : α) : Stable (pure a : Scanner τ α) where
  mismatch h := nomatch h
  found h _ := by
    cases h
    rfl

theorem fail : Stable (Scanner.fail : Scanner τ α) where
  mismatch _ _ := rfl
  found h := nomatch h

theorem bind {f : α → Scanner τ β} (hx : Stable x) (hf : ∀ a, Stable (f a)) : Stable (x >>= f) := by
  constructor
  · intro l h l'
    cases hscan : x l with
    | short => exact nomatch (bind_of_short hscan).symm.trans h
    | mismatch => exact bind_of_mismatch (hx.mismatch hscan l')
    | found a rest =>
      rw [bind_of_found hscan] at h
      exact (bind_of_found (hx.found hscan l')).trans ((hf a).mismatch h l')
  · intro l b rest h l'
    cases hscan : x l with
    | short => exact nomatch (bind_of_short hscan).symm.trans h
    | mismatch => exact nomatch (bind_of_mismatch hscan).symm.trans h
    | found a rest =>
      rw [bind_of_found hscan] at h
      exact (bind_of_found (hx.found hscan l')).trans ((hf a).found h l')

theorem next : Stable (Scanner.next : Scanner τ τ) := by
  constructor
  · intro l h
    cases l <;> nomatch h
  · intro l a rest h l'
    cases l with
    | nil => nomatch h
    | cons b bs =>
      cases h
      rfl

theorem ite {c : Prop} [Decidable c] {y : Scanner τ α} (hx : Stable x) (hy : Stable y) :
    Stable (if c then x else y) := by
  split
  · exact hx
  · exact hy

theorem attempt (hx : Stable x) : Stable x.attempt := by
  constructor
  · intro l h
    unfold Scanner.attempt at h
    cases hscan : x l <;> rw [hscan] at h <;> nomatch h
  · intro l a rest h l'
    unfold Scanner.attempt at h ⊢
    cases hscan : x l with
    | short =>
      rw [hscan] at h
      nomatch h
    | mismatch =>
      rw [hscan] at h
      cases h
      rw [hx.mismatch hscan l']
    | found b rest' =>
      rw [hscan] at h
      cases h
      rw [hx.found hscan l']

end Stable

/-! ## Up to a token -/

theorem Scanner.span_cases (p : τ → Bool) (l : List τ) :
    (∃ as b bs, span p l = .found as (b :: bs) ∧ l = as ++ b :: bs ∧ (∀ a ∈ as, p a) ∧ ¬ p b) ∨
      (span p l = .short ∧ ∀ a ∈ l, p a) := by
  induction l with
  | nil => exact .inr ⟨rfl, forall_mem_nil _⟩
  | cons b bs ih =>
    rw [span]
    by_cases hb : p b = true
    · rw [if_pos hb]
      rcases ih with ⟨as, c, cs, hspan, rfl, has, hc⟩ | ⟨hspan, hall⟩
      · rw [hspan]
        exact .inl ⟨b :: as, c, cs, rfl, rfl, forall_mem_cons.2 ⟨hb, has⟩, hc⟩
      · rw [hspan]
        exact .inr ⟨rfl, forall_mem_cons.2 ⟨hb, hall⟩⟩
    · rw [if_neg hb]
      exact .inl ⟨[], b, bs, rfl, rfl, forall_mem_nil _, hb⟩

theorem Scanner.span_append {p : τ → Bool} {as bs : List τ} {b : τ} (has : ∀ a ∈ as, p a)
    (hb : ¬ p b) : span p (as ++ b :: bs) = .found as (b :: bs) := by
  induction as with
  | nil => exact if_neg hb
  | cons a as ih =>
    obtain ⟨ha, has⟩ := forall_mem_cons.1 has
    rw [cons_append, span, if_pos ha, ih has]
    rfl

theorem Stable.span (p : τ → Bool) : Stable (Scanner.span p) := by
  constructor
  · intro l h
    rcases Scanner.span_cases p l with ⟨as, b, bs, hspan, -⟩ | ⟨hspan, -⟩ <;>
      exact nomatch hspan.symm.trans h
  · intro l as rest h l'
    rcases Scanner.span_cases p l with ⟨as', b, bs, hspan, rfl, has, hb⟩ | ⟨hspan, -⟩
    · cases hspan.symm.trans h
      rw [append_assoc]
      exact Scanner.span_append has hb
    · exact nomatch hspan.symm.trans h

section Tokens

variable [DecidableEq τ]

theorem Stable.literal (ps : List τ) : Stable (Scanner.literal ps) := by
  induction ps with
  | nil => exact .pure ()
  | cons p ps ih => exact .bind .next fun b => .ite ih .fail

theorem Stable.optional (p : τ) : Stable (Scanner.optional p) := by
  constructor
  · intro l h
    cases l with
    | nil => nomatch h
    | cons b bs =>
      rw [Scanner.optional] at h
      split_ifs at h
  · intro l a rest h l'
    cases l with
    | nil => nomatch h
    | cons b bs =>
      rw [Scanner.optional] at h
      rw [cons_append, Scanner.optional]
      split_ifs at h ⊢ <;> cases h <;> rfl

theorem Stable.upTo (p : τ) : Stable (Scanner.upTo p) :=
  .bind (.span _) fun _ => .bind .next fun _ => .pure _

theorem Scanner.upTo_cases (p : τ) (l : List τ) :
    (∃ as bs, upTo p l = .found as bs ∧ l = as ++ p :: bs ∧ p ∉ as) ∨
      (upTo p l = .short ∧ p ∉ l) := by
  rcases span_cases (fun b => b ≠ p) l with ⟨as, b, bs, hspan, rfl, has, hb⟩ | ⟨hspan, hall⟩
  · have hbp : b = p := by simpa using hb
    subst hbp
    refine .inl ⟨as, bs, (bind_of_found hspan).trans rfl, rfl, fun hmem => ?_⟩
    simpa using has b hmem
  · refine .inr ⟨bind_of_short hspan, fun hmem => ?_⟩
    simpa using hall p hmem

end Tokens

end LibTransistor
