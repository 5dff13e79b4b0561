import Mathlib.Data.List.Perm.Basic
import Mathlib.Data.List.Nodup
import Mathlib.Data.List.Count

/-!
# Ledgers of owned things

What happens to things that have one owner is a ledger of events, newest first: a thing is acquired,
used, disposed of. `held` are the things acquired and not disposed of since, and a ledger is
`Proper` when only things that are not held are acquired and only things that are held are used or
disposed of.

* `Owns l xs` — `l` is proper and the things held are those of the list `xs`, with a rule for each
  kind of event, and `Owns.disposeAll` for a loop that disposes of several things.
* `Keeps l f` — the same for a program that keeps its things at places, `f x` being the thing at
  `x`: each thing held is at exactly one place.
* `Tally l xs` — for the events of one call, in which things may also be used that were acquired
  before it.
* `OwnsSince base l xs` — `Owns` for what happened since the ledger was `base`: things held then are
  left alone, and the things of `xs` came on top.
-/

namespace LibTransistor

open List Function

/-- What happens to a thing that has an owner. -/
inductive Event (α : Type)
  | acquired (a : α)
  | used (a : α)
  | disposed (a : α)
  deriving DecidableEq

namespace Ledger

variable {α : Type} [DecidableEq α] {l : List (Event α)} {xs ys : List α} {a : α}
variable {as : List α}

/-- The things acquired and not disposed of since. -/
def held : List (Event α) → List α
  | [] => []
  | .acquired a :: l => a :: held l
  | .used _ :: l => held l
  | .disposed a :: l => (held l).erase a

/-- Nothing is acquired that is held, and only what is held is used or disposed of. -/
def Proper : List (Event α) → Prop
  | [] => True
  | .acquired a :: l => a ∉ held l ∧ Proper l
  | .used a :: l => a ∈ held l ∧ Proper l
  | .disposed a :: l => a ∈ held l ∧ Proper l

instance Proper.decidable : (l : List (Event α)) → Decidable (Proper l)
  | [] => inferInstanceAs (Decidable True)
  | .acquired a :: l =>
    haveI := Proper.decidable l
    inferInstanceAs (Decidable (a ∉ held l ∧ Proper l))
  | .used a :: l =>
    haveI := Proper.decidable l
    inferInstanceAs (Decidable (a ∈ held l ∧ Proper l))
  | .disposed a :: l =>
    haveI := Proper.decidable l
    inferInstanceAs (Decidable (a ∈ held l ∧ Proper l))

/-! ## What a proper ledger rules out -/

theorem Proper.nodup (h : Proper l) : (held l).Nodup := by
  induction l with
  | nil => exact nodup_nil
  | cons e l ih =>
    cases e with
    | acquired a => exact nodup_cons.2 ⟨h.1, ih h.2⟩
    | used a => exact ih h.2
    | disposed a => exact (ih h.2).erase a

theorem Proper.of_append {l₁ l₂ : List (Event α)} (h : Proper (l₁ ++ l₂)) : Proper l₂ := by
  induction l₁ with
  | nil => exact h
  | cons e l₁ ih => cases e <;> exact ih h.2

/-- Every acquisition is made up for by a disposal, or the thing is still held. -/
theorem Proper.count_acquired (h : Proper l) (a : α) :
    l.count (.acquired a) = l.count (.disposed a) + (held l).count a := by
  induction l with
  | nil => rfl
  | cons e l ih =>
    have ih := ih (by cases e <;> exact h.2)
    cases e with
    | acquired b => simp only [held, count_cons, beq_iff_eq, Event.acquired.injEq,
        reduceCtorEq, if_false]; omega
    | used b => simpa [held] using ih
    | disposed b =>
      have hpos : 0 < (held l).count b := count_pos_iff.2 h.1
      simp only [held, count_cons, count_erase, beq_iff_eq, Event.disposed.injEq,
        reduceCtorEq, if_false]
      by_cases hba : b = a
      · subst hba
        simp only [if_true]
        omega
      · simp only [hba, if_false]
        omega

theorem Proper.count_eq (h : Proper l) (ha : a ∉ held l) :
    l.count (.acquired a) = l.count (.disposed a) := by
  rw [h.count_acquired a, count_eq_zero.2 ha, Nat.add_zero]

theorem Proper.count_disposed_le (h : Proper l) (ha : l.count (.acquired a) ≤ 1) :
    l.count (.disposed a) ≤ 1 := by
  have hcount := h.count_acquired a
  omega

theorem Proper.not_mem_held (h : Proper l) (ha : l.count (.acquired a) ≤ 1)
    (hd : .disposed a ∈ l) : a ∉ held l := by
  have hcount := h.count_acquired a
  have hpos : 0 < l.count (.disposed a) := count_pos_iff.2 hd
  intro hheld
  have hheld : 0 < (held l).count a := count_pos_iff.2 hheld
  omega

/-- **Nothing is used after it was disposed of**, if things are acquired at most once. -/
theorem Proper.not_disposed_of_used {l₁ l₂ : List (Event α)} (h : Proper (l₁ ++ .used a :: l₂))
    (ha : l₂.count (.acquired a) ≤ 1) : .disposed a ∉ l₂ := fun hd =>
  h.of_append.2.not_mem_held ha hd h.of_append.1

theorem mem_held_of_disposed (h : a ∈ held ((as.map Event.disposed).reverse ++ l)) :
    a ∈ held l := by
  induction as generalizing l with
  | nil => exact h
  | cons b as ih =>
    rw [map_cons, reverse_cons, append_assoc] at h
    exact mem_of_mem_erase (ih h)

theorem Proper.acquired_mem (h : Proper l) (ha : .disposed a ∈ l) : .acquired a ∈ l := by
  have hcount := h.count_acquired a
  have hpos : 0 < l.count (.disposed a) := count_pos_iff.2 ha
  exact count_pos_iff.1 (by omega)

theorem Proper.held_append (h : Proper l) (base : List (Event α)) :
    held (l ++ base) = held l ++ held base := by
  induction l with
  | nil => rfl
  | cons e l ih =>
    cases e with
    | acquired a => exact congrArg (List.cons a) (ih h.2)
    | used a => exact ih h.2
    | disposed a =>
      show (held (l ++ base)).erase a = _
      rw [ih h.2, erase_append_left _ h.1]
      rfl

theorem Proper.append {base : List (Event α)} (h : Proper l) (hbase : Proper base)
    (hfresh : ∀ a ∈ held base, .acquired a ∉ l) : Proper (l ++ base) := by
  induction l with
  | nil => exact hbase
  | cons e l ih =>
    have hproper : Proper l := by cases e <;> exact h.2
    have ih := ih hproper fun a ha hmem => hfresh a ha (mem_cons_of_mem _ hmem)
    have hmem (a : α) : a ∈ held (l ++ base) ↔ a ∈ held l ∨ a ∈ held base := by
      rw [hproper.held_append, mem_append]
    cases e with
    | acquired a =>
      refine ⟨fun hheld => ?_, ih⟩
      rcases (hmem a).1 hheld with hheld | hheld
      · exact h.1 hheld
      · exact hfresh a hheld mem_cons_self
    | used a => exact ⟨(hmem a).2 (.inl h.1), ih⟩
    | disposed a => exact ⟨(hmem a).2 (.inl h.1), ih⟩

/-! ## Following a program through its ledger -/

/-- The ledger is proper and what is held are the things of `xs`. -/
structure Owns (l : List (Event α)) (xs : List α) : Prop where
  proper : Proper l
  held : (held l).Perm xs

namespace Owns

theorem nil : Owns ([] : List (Event α)) [] := ⟨trivial, .nil⟩

section Holder

variable (h : Owns l xs)
include h

theorem nodup : xs.Nodup := h.held.nodup_iff.1 h.proper.nodup

theorem mem_iff : a ∈ Ledger.held l ↔ a ∈ xs := h.held.mem_iff

theorem acquired_mem (ha : a ∈ xs) : .acquired a ∈ l := by
  have hpos := count_pos_iff.2 (h.mem_iff.2 ha)
  have hcount := h.proper.count_acquired a
  exact count_pos_iff.1 (by omega)

theorem perm (hp : xs.Perm ys) : Owns l ys := ⟨h.proper, h.held.trans hp⟩

theorem acquire (ha : a ∉ xs) : Owns (.acquired a :: l) (a :: xs) :=
  ⟨⟨fun hheld => ha (h.mem_iff.1 hheld), h.proper⟩, h.held.cons a⟩

theorem use (ha : a ∈ xs) : Owns (.used a :: l) xs :=
  ⟨⟨h.mem_iff.2 ha, h.proper⟩, h.held⟩

theorem dispose (hp : xs.Perm (a :: ys)) : Owns (.disposed a :: l) ys := by
  refine ⟨⟨h.mem_iff.2 (hp.mem_iff.2 mem_cons_self), h.proper⟩, ?_⟩
  have herase := (h.held.trans hp).erase a
  rwa [erase_cons_head] at herase

theorem acquireAll (has : (as ++ xs).Nodup) :
    Owns ((as.map Event.acquired).reverse ++ l) (as ++ xs) := by
  induction as generalizing l xs with
  | nil => exact h
  | cons a as ih =>
    have hnodup : (as ++ a :: xs).Nodup := (perm_middle.nodup_iff).2 has
    have ha : a ∉ xs := fun hmem =>
      (nodup_cons.1 has).1 (mem_append_right as hmem)
    rw [map_cons, reverse_cons, append_assoc]
    exact (ih (h.acquire ha) hnodup).perm perm_middle

theorem disposeAll (hp : xs.Perm (as ++ ys)) : Owns ((as.map Event.disposed).reverse ++ l) ys := by
  induction as generalizing l xs with
  | nil => exact h.perm hp
  | cons a as ih =>
    rw [map_cons, reverse_cons, append_assoc]
    exact ih (h.dispose hp) (.refl _)

theorem append {base : List (Event α)} (hbase : Owns base ys)
    (hfresh : ∀ a ∈ Ledger.held base, .acquired a ∉ l) : Owns (l ++ base) (xs ++ ys) := by
  refine ⟨h.proper.append hbase.proper hfresh, ?_⟩
  rw [h.proper.held_append]
  exact h.held.append hbase.held

end Holder

end Owns

/-! ## Things at places -/

/-- The ledger is proper and what is held are the things at the places, each at one place. -/
structure Keeps {π : Type} (l : List (Event α)) (f : π → Option α) : Prop where
  proper : Proper l
  mem_held : ∀ a, a ∈ held l ↔ ∃ x, f x = some a
  injective : ∀ x y a, f x = some a → f y = some a → x = y

namespace Keeps

variable {π : Type} {f g : π → Option α} {x : π}

theorem nil (hf : ∀ x, f x = none) : Keeps [] f := by
  refine ⟨trivial, fun a => ⟨fun h => (nomatch h), ?_⟩, fun x y a hx _ => ?_⟩
  · rintro ⟨x, hx⟩
    rw [hf x] at hx
    cases hx
  · rw [hf x] at hx
    cases hx

theorem congr (h : Keeps l f) (hfg : ∀ x, g x = f x) : Keeps l g := by
  obtain rfl : g = f := funext hfg
  exact h

theorem use (h : Keeps l f) (hx : f x = some a) : Keeps (.used a :: l) f :=
  ⟨⟨(h.mem_held a).2 ⟨x, hx⟩, h.proper⟩, h.mem_held, h.injective⟩

theorem useAll (h : Keeps l f) (has : ∀ a ∈ as, ∃ x, f x = some a) :
    Keeps ((as.map Event.used).reverse ++ l) f := by
  induction as generalizing l with
  | nil => exact h
  | cons a as ih =>
    obtain ⟨x, hx⟩ := has a mem_cons_self
    rw [map_cons, reverse_cons, append_assoc]
    exact ih (h.use hx) fun b hb => has b (mem_cons_of_mem _ hb)

theorem passAll (h : Keeps l f) (hnodup : as.Nodup) (has : ∀ a ∈ as, a ∉ held l) :
    Keeps ((as.map Event.disposed).reverse ++ ((as.map Event.acquired).reverse ++ l)) f := by
  have howns : Owns l (held l) := ⟨h.proper, .refl _⟩
  have hall : (as ++ held l).Nodup :=
    nodup_append.2 ⟨hnodup, h.proper.nodup, fun a ha b hb hab => has a ha (hab ▸ hb)⟩
  have hpassed := (howns.acquireAll hall).disposeAll (.refl _)
  exact ⟨hpassed.proper, fun a => hpassed.mem_iff.trans (h.mem_held a), h.injective⟩

variable [DecidableEq π]

theorem acquire (h : Keeps l f) (hx : f x = none) (ha : a ∉ held l) :
    Keeps (.acquired a :: l) (Function.update f x (some a)) := by
  have hfree : ∀ y, f y ≠ some a := fun y hy => ha ((h.mem_held a).2 ⟨y, hy⟩)
  refine ⟨⟨ha, h.proper⟩, fun b => ?_, fun y z b hy hz => ?_⟩
  · show b ∈ a :: held l ↔ _
    rw [mem_cons, h.mem_held]
    constructor
    · rintro (rfl | ⟨y, hy⟩)
      · exact ⟨x, update_self ..⟩
      · refine ⟨y, ?_⟩
        have hyx : y ≠ x := by
          rintro rfl
          rw [hx] at hy
          cases hy
        rw [update_of_ne hyx, hy]
    · rintro ⟨y, hy⟩
      by_cases hyx : y = x
      · subst hyx
        rw [update_self] at hy
        exact .inl (Option.some.inj hy).symm
      · rw [update_of_ne hyx] at hy
        exact .inr ⟨y, hy⟩
  · by_cases hyx : y = x
    · by_cases hzx : z = x
      · rw [hyx, hzx]
      · rw [hyx, update_self] at hy
        rw [update_of_ne hzx] at hz
        exact absurd (hz.trans hy.symm) (hfree z)
    · rw [update_of_ne hyx] at hy
      by_cases hzx : z = x
      · rw [hzx, update_self] at hz
        exact absurd (hy.trans hz.symm) (hfree y)
      · rw [update_of_ne hzx] at hz
        exact h.injective y z b hy hz

theorem dispose (h : Keeps l f) (hx : f x = some a) :
    Keeps (.disposed a :: l) (Function.update f x none) := by
  refine ⟨⟨(h.mem_held a).2 ⟨x, hx⟩, h.proper⟩, fun b => ?_, fun y z b hy hz => ?_⟩
  · show b ∈ (held l).erase a ↔ _
    rw [h.proper.nodup.mem_erase_iff, h.mem_held]
    constructor
    · rintro ⟨hne, y, hy⟩
      refine ⟨y, ?_⟩
      have hyx : y ≠ x := by
        rintro rfl
        exact hne (Option.some.inj (hy.symm.trans hx))
      rw [update_of_ne hyx, hy]
    · rintro ⟨y, hy⟩
      by_cases hyx : y = x
      · rw [hyx, update_self] at hy
        cases hy
      · rw [update_of_ne hyx] at hy
        refine ⟨?_, y, hy⟩
        rintro rfl
        exact hyx (h.injective y x b hy hx)
  · by_cases hyx : y = x
    · rw [hyx, update_self] at hy
      cases hy
    · by_cases hzx : z = x
      · rw [hzx, update_self] at hz
        cases hz
      · rw [update_of_ne hyx] at hy
        rw [update_of_ne hzx] at hz
        exact h.injective y z b hy hz

theorem clear {xs : List π} (h : Keeps l f) (hxs : xs.Nodup) :
    Keeps (((xs.filterMap f).map Event.disposed).reverse ++ l)
      (fun y => if y ∈ xs then none else f y) := by
  induction xs generalizing l f with
  | nil => exact h.congr fun y => if_neg (not_mem_nil)
  | cons x xs ih =>
    obtain ⟨hx, hnodup⟩ := nodup_cons.1 hxs
    cases hfx : f x with
    | none =>
      rw [filterMap_cons_none hfx]
      refine (ih h hnodup).congr fun y => ?_
      by_cases hyx : y = x
      · subst hyx
        rw [if_pos mem_cons_self, if_neg hx, hfx]
      · simp only [mem_cons, hyx, false_or]
    | some a =>
      have hrest : xs.filterMap (Function.update f x none) = xs.filterMap f := by
        refine filterMap_congr fun y hy => ?_
        exact update_of_ne (by rintro rfl; exact hx hy) _ _
      have hcleared := ih (h.dispose hfx) hnodup
      rw [hrest] at hcleared
      rw [filterMap_cons_some hfx, map_cons, reverse_cons, append_assoc]
      refine hcleared.congr fun y => ?_
      by_cases hyx : y = x
      · subst hyx
        rw [if_pos mem_cons_self, if_neg hx, update_self]
      · simp only [mem_cons, hyx, false_or, update_of_ne hyx]

end Keeps

/-! ## Parts of a ledger -/

/-- What is acquired in `l`, each thing once, was disposed of as often, or is one of `xs`. -/
structure Tally (l : List (Event α)) (xs : List α) : Prop where
  balance : ∀ a, l.count (.acquired a) = l.count (.disposed a) + xs.count a
  once : ∀ a, l.count (.acquired a) ≤ 1

namespace Tally

theorem nil : Tally ([] : List (Event α)) [] := ⟨fun _ => rfl, fun _ => Nat.zero_le _⟩

theorem use (h : Tally l xs) (a : α) : Tally (.used a :: l) xs :=
  ⟨fun b => by simpa using h.balance b, fun b => by simpa using h.once b⟩

theorem acquire (h : Tally l xs) (ha : .acquired a ∉ l) : Tally (.acquired a :: l) (xs ++ [a]) := by
  refine ⟨fun b => ?_, fun b => ?_⟩
  · have hbalance := h.balance b
    simp only [count_cons, count_append, count_nil, beq_iff_eq,
      Event.acquired.injEq, reduceCtorEq, if_false]
    omega
  · have honce := h.once b
    rw [count_cons]
    by_cases hab : a = b
    · subst hab
      rw [count_eq_zero_of_not_mem ha]
      simp
    · simpa [hab] using honce

theorem disposeAll (h : Tally l xs) (hp : xs.Perm (as ++ ys)) :
    Tally ((as.map Event.disposed).reverse ++ l) ys := by
  have hacquired : ∀ b, ((as.map Event.disposed).reverse).count (.acquired b) = 0 := fun b =>
    count_eq_zero_of_not_mem (by simp)
  have hdisposed : ∀ b, ((as.map Event.disposed).reverse).count (.disposed b) = as.count b := by
    intro b
    rw [count_reverse]
    exact count_map_of_injective _ _ (fun _ _ => Event.disposed.inj) _
  refine ⟨fun b => ?_, fun b => ?_⟩
  · have hbalance := h.balance b
    have hcount := hp.count_eq b
    rw [count_append] at hcount
    rw [count_append, count_append, hacquired, hdisposed]
    omega
  · rw [count_append, hacquired, Nat.zero_add]
    exact h.once b

/-- When nothing is left, everything acquired was disposed of once. -/
theorem disposed_once (h : Tally l []) (ha : .acquired a ∈ l) : l.count (.disposed a) = 1 := by
  have hbalance := h.balance a
  have honce := h.once a
  have hpos := count_pos_iff.2 ha
  rw [count_nil] at hbalance
  omega

/-- What is left was acquired and not disposed of. -/
theorem not_disposed (h : Tally l xs) (ha : a ∈ xs) :
    .acquired a ∈ l ∧ l.count (.disposed a) = 0 := by
  have hbalance := h.balance a
  have honce := h.once a
  have hpos := count_pos_iff.2 ha
  exact ⟨count_pos_iff.1 (by omega), by omega⟩

end Tally

/-- What happened since the ledger was `base` is proper by itself, acquires nothing that was held
then, and leaves the things of `xs` to be disposed of. -/
def OwnsSince (base l : List (Event α)) (xs : List α) : Prop :=
  ∃ new, l = new ++ base ∧ Owns new xs ∧ ∀ a ∈ held base, .acquired a ∉ new

namespace OwnsSince

variable {base : List (Event α)}

theorem refl (l : List (Event α)) : OwnsSince l l [] := by
  refine ⟨[], rfl, .nil, ?_⟩
  intro a _
  exact not_mem_nil

theorem perm (h : OwnsSince base l xs) (hp : xs.Perm ys) : OwnsSince base l ys := by
  obtain ⟨new, hl, howns, hbase⟩ := h
  exact ⟨new, hl, howns.perm hp, hbase⟩

theorem acquire (h : OwnsSince base l xs) (ha : a ∉ held l) :
    OwnsSince base (.acquired a :: l) (a :: xs) := by
  obtain ⟨new, rfl, howns, hbase⟩ := h
  rw [howns.proper.held_append, mem_append, not_or] at ha
  refine ⟨.acquired a :: new, rfl, howns.acquire fun hmem => ha.1 (howns.mem_iff.2 hmem), ?_⟩
  intro b hb
  rw [mem_cons, Event.acquired.injEq, not_or]
  exact ⟨fun hba => ha.2 (hba ▸ hb), hbase b hb⟩

theorem disposeAll (h : OwnsSince base l xs) (hp : xs.Perm (as ++ ys)) :
    OwnsSince base ((as.map Event.disposed).reverse ++ l) ys := by
  obtain ⟨new, rfl, howns, hbase⟩ := h
  refine ⟨(as.map Event.disposed).reverse ++ new, (append_assoc ..).symm,
    howns.disposeAll hp, ?_⟩
  intro b hb
  simpa using hbase b hb

theorem owns (h : OwnsSince base l xs) (hbase : Owns base ys) : Owns l (xs ++ ys) := by
  obtain ⟨new, rfl, howns, hfresh⟩ := h
  exact howns.append hbase hfresh

end OwnsSince

end Ledger

end LibTransistor
