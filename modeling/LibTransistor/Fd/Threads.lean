import LibTransistor.Fd.Table
import Mathlib.Tactic.Common

/-!
# Threads that share the table

The operations of `Fd.Table` again, one atomic access to shared memory at a time, so that any number
of threads may be anywhere in them at once. A thread is `Outside` the locked part of an operation,
or `Inside` it with a slot whose lock it has taken.

`holding` records that a thread is between the return of `lock_fd` and the store of 0 to the lock.
That is not the same as being inside: `fd_close` on an empty slot returns without the store.

* `exclusive_step` — a step keeps mutual exclusion, unless it is a compare-exchange that succeeds on
  a lock that is taken (`Steals`): the failed attempt before it has stored the lock's value into
  `expected`.
* `lock_exclusive` — so mutual exclusion holds in every run without such a step.
-/

namespace LibTransistor

open Function

/-! ## Where a thread is -/

/-- Who has called `lock_fd`. -/
inductive Locker
  /-- `fd_file_get`, called from outside or by `dup2` for a slot. -/
  | fileGet (dupTo : Option Slot)
  | close
  /-- `dup2` with the file it has got. -/
  | dup2 (f : FilePtr)

/-- Places where the thread is not between the two ends of a locked part. -/
inductive Outside
  /-- In none of the functions. -/
  | returned
  /-- At the compare-exchange of `lock_fd`. -/
  | locking (i : Slot) (expected : Int) (k : Locker)
  /-- At `atomic_fetch_sub` of `fd_file_put`. -/
  | putting (p : FilePtr)
  | releasing (p : FilePtr)
  | freeing (p : FilePtr)
  /-- At the compare-exchange of `fd_create_file`. -/
  | probing (fd : Nat) (expected : Option FilePtr) (f : FilePtr)

/-- Places between the two ends. -/
inductive Inside
  /-- `fd_file_get` reads the slot. -/
  | load (dupTo : Option Slot)
  /-- `fd_file_get` counts the reference. -/
  | count (p : FilePtr) (dupTo : Option Slot)
  /-- `fd_close` takes the file out. -/
  | takeOut
  /-- `dup2` puts its file in. -/
  | putIn (f : FilePtr)
  /-- The store of 0, and what comes after it. -/
  | unlock (next : Outside)

inductive Pc
  | outside (o : Outside)
  | inside (i : Slot) (k : Inside)

/-! ## Steps of one thread -/

def Locker.start : Locker → Inside
  | .fileGet dupTo => .load dupTo
  | .close => .takeOut
  | .dup2 f => .putIn f

/-- A call, up to its first access to shared memory. -/
def FdOp.start : FdOp → Outside
  -- without operations or without memory; the other case allocates first
  | .createFile _ _ _ => .returned
  | .fileGet fd =>
    match slotOf fd with
    | none => .returned
    | some i => .locking i 0 (.fileGet none)
  | .filePut none => .returned
  | .filePut (some p) => .putting p
  | .close fd =>
    match slotOf fd with
    | none => .returned
    | some i => .locking i 0 .close
  | .dup2 oldfd newfd =>
    match slotOf oldfd, slotOf newfd with
    | some i, some j => if oldfd = newfd then .returned else .locking i 0 (.fileGet (some j))
    | _, _ => .returned

/-- A step from outside; a thread that has returned makes the call `op`. -/
def Outside.step (s : FdState) (op : FdOp) : Outside → FdState × Pc
  | .returned =>
    match op with
    | .createFile fops data (some a) =>
      if fops = 0#64 then (s, .outside .returned)
      else (s.allocate a fops data, .outside (.probing 10 none (s.newFile a)))
    | op => (s, .outside op.start)
  | .locking i expected k =>
    if (s.fds i).lock = expected then (s.setLock i 1, .inside i k.start)
    else (s, .outside (.locking i (s.fds i).lock k))
  | .putting p =>
    (s.giveRef p, .outside (if (s.mem p.addr).refcount = 1#32 then .releasing p else .returned))
  | .releasing p => (s.callRelease p, .outside (.freeing p))
  | .freeing p => (s.free p, .outside .returned)
  | .probing fd expected f =>
    if h : fd < 1024 then
      if samePtr (s.fds ⟨fd, h⟩).file expected then (s.setFile ⟨fd, h⟩ (some f), .outside .returned)
      else (s, .outside (.probing (fd + 1) (s.fds ⟨fd, h⟩).file f))
    else (({ s with log := .given f :: s.log } : FdState).free f, .outside .returned)

/-- What follows `fd_file_get`: `dup2` locks its second slot. -/
def afterGet (p : FilePtr) : Option Slot → Outside
  | none => .returned
  | some j => .locking j 0 (.dup2 p)

/-- A step from inside slot `i`. -/
def Inside.step (s : FdState) (i : Slot) : Inside → FdState × Pc
  | .load dupTo =>
    match (s.fds i).file with
    | none => (s, .inside i (.unlock .returned))
    | some p => (s, .inside i (.count p dupTo))
  | .count p dupTo => (s.takeRef p, .inside i (.unlock (afterGet p dupTo)))
  | .takeOut =>
    match (s.fds i).file with
    -- `return -EBADF` leaves the lock as it is
    | none => (s.setFile i none, .outside .returned)
    | some p => (s.setFile i none, .inside i (.unlock (.putting p)))
  | .putIn f =>
    match (s.fds i).file with
    | none => (s.setFile i (some f), .inside i (.unlock .returned))
    | some old => (s.setFile i (some f), .inside i (.unlock (.putting old)))
  | .unlock next => (s.setLock i 0, .outside next)

/-! ## Any number of threads -/

structure Threads (T : Type) where
  table : FdState
  pc : T → Pc
  /-- `lock_fd` on the slot has returned to the thread, and it has not stored 0 since. -/
  holding : T → Slot → Bool

namespace Threads

variable {T : Type} [DecidableEq T]

def setHolding (c : Threads T) (t : T) (i : Slot) (b : Bool) : T → Slot → Bool :=
  Function.update c.holding t (Function.update (c.holding t) i b)

/-- A thread that comes inside has got the lock. -/
def enter (c : Threads T) (t : T) : Pc → T → Slot → Bool
  | .outside _ => c.holding
  | .inside i _ => c.setHolding t i true

/-- A thread that stores 0 has given it up. -/
def leave (c : Threads T) (t : T) (i : Slot) : Inside → T → Slot → Bool
  | .unlock _ => c.setHolding t i false
  | .load _ | .count _ _ | .takeOut | .putIn _ => c.holding

/-- One step of thread `t`, which calls `op` if it is in none of the functions. -/
def step (c : Threads T) (t : T) (op : FdOp) : Threads T :=
  match c.pc t with
  | .outside o =>
    { table := (o.step c.table op).1
      pc := Function.update c.pc t (o.step c.table op).2
      holding := c.enter t (o.step c.table op).2 }
  | .inside i k =>
    { table := (k.step c.table i).1
      pc := Function.update c.pc t (k.step c.table i).2
      holding := c.leave t i k }

structure Initial (c : Threads T) : Prop where
  unlocked : ∀ i, (c.table.fds i).lock = 0
  returned : ∀ t, c.pc t = .outside .returned
  holding : ∀ t i, c.holding t i = false

/-- Any interleaving of any calls. -/
def system (T : Type) [DecidableEq T] : System (Threads T) (T × FdOp) where
  init := Initial
  step c a c' := c' = c.step a.1 a.2

/-- At most one thread is between the return of `lock_fd` on a slot and the store of 0. -/
def MutualExclusion (c : Threads T) : Prop :=
  ∀ i t t', c.holding t i = true → c.holding t' i = true → t = t'

/-- The next step of the thread is a compare-exchange of `lock_fd` that succeeds though the lock is
not 0. -/
def Steals (c : Threads T) (t : T) : Prop :=
  match c.pc t with
  | .outside (.locking i expected _) => (c.table.fds i).lock = expected ∧ expected ≠ 0
  | _ => False

instance (c : Threads T) (t : T) : Decidable (c.Steals t) := by
  unfold Steals
  split <;> infer_instance

/-! ## What a step does to the locks -/

end Threads

/-- Two tables with the same locks. -/
def SameLocks (s s' : FdState) : Prop := ∀ i, (s'.fds i).lock = (s.fds i).lock

theorem sameLocks_setFile (s : FdState) (i : Slot) (file : Option FilePtr) :
    SameLocks s (s.setFile i file) := by
  intro j
  rw [FdState.setFile_fds]
  split_ifs with h
  · rw [h]
  · rfl

/-- From outside, a thread stays outside and leaves the locks alone, or it gets the lock that it
compared equal. -/
theorem Outside.step_cases (s : FdState) (op : FdOp) (o : Outside) :
    (∃ o', (o.step s op).2 = .outside o' ∧ SameLocks s (o.step s op).1) ∨
    ∃ i k, o = .locking i (s.fds i).lock k ∧ o.step s op = (s.setLock i 1, .inside i k.start) := by
  cases o with
  | returned =>
    left
    cases op with
    | createFile fops data block =>
      cases block with
      | none => exact ⟨_, rfl, fun _ => rfl⟩
      | some a =>
        simp only [step]
        split_ifs
        · exact ⟨_, rfl, fun _ => rfl⟩
        · exact ⟨_, rfl, fun _ => rfl⟩
    | fileGet _ | filePut _ | close _ | dup2 _ _ => exact ⟨_, rfl, fun _ => rfl⟩
  | locking i expected k =>
    by_cases h : (s.fds i).lock = expected
    · right
      subst h
      exact ⟨i, k, rfl, if_pos rfl⟩
    · left
      simp only [step, if_neg h]
      exact ⟨_, rfl, fun _ => rfl⟩
  | putting p | releasing p | freeing p => exact .inl ⟨_, rfl, fun _ => rfl⟩
  | probing fd expected f =>
    left
    simp only [step]
    split_ifs
    · exact ⟨_, rfl, sameLocks_setFile _ _ _⟩
    · exact ⟨_, rfl, fun _ => rfl⟩
    · exact ⟨_, rfl, fun _ => rfl⟩

/-- From inside, a thread stores 0 to the lock and leaves, or leaves the locks alone and does not
go to another slot. -/
theorem Inside.step_cases (s : FdState) (i : Slot) (k : Inside) :
    (∃ next, k = .unlock next) ∨ (∀ next, k ≠ .unlock next) ∧ SameLocks s (k.step s i).1 ∧
      ∀ j k', (k.step s i).2 = .inside j k' → j = i := by
  cases k with
  | unlock next => exact .inl ⟨next, rfl⟩
  | load dupTo =>
    refine .inr ⟨by rintro _ ⟨⟩, ?_⟩
    simp only [step]
    split
    · exact ⟨fun _ => rfl, by rintro j k' ⟨⟩; rfl⟩
    · exact ⟨fun _ => rfl, by rintro j k' ⟨⟩; rfl⟩
  | count p dupTo =>
    exact .inr ⟨by rintro _ ⟨⟩, fun _ => rfl, by rintro j k' ⟨⟩; rfl⟩
  | takeOut =>
    refine .inr ⟨by rintro _ ⟨⟩, ?_⟩
    simp only [step]
    split
    · exact ⟨sameLocks_setFile _ _ _, by rintro j k' ⟨⟩⟩
    · exact ⟨sameLocks_setFile _ _ _, by rintro j k' ⟨⟩; rfl⟩
  | putIn f =>
    refine .inr ⟨by rintro _ ⟨⟩, ?_⟩
    simp only [step]
    split
    · exact ⟨sameLocks_setFile _ _ _, by rintro j k' ⟨⟩; rfl⟩
    · exact ⟨sameLocks_setFile _ _ _, by rintro j k' ⟨⟩; rfl⟩

namespace Threads

variable {T : Type} [DecidableEq T]

theorem setHolding_apply (c : Threads T) (t u : T) (i j : Slot) (b : Bool) :
    c.setHolding t i b u j = if u = t ∧ j = i then b else c.holding u j := by
  unfold setHolding
  rw [update_apply]
  by_cases hu : u = t
  · subst hu
    rw [if_pos rfl, update_apply]
    simp
  · simp [hu]

theorem leave_of_ne (c : Threads T) (t : T) (i : Slot) {k : Inside}
    (h : ∀ next, k ≠ .unlock next) : c.leave t i k = c.holding := by
  cases k with
  | unlock next => exact absurd rfl (h next)
  | load _ | count _ _ | takeOut | putIn _ => rfl

/-- The invariant: a lock that is held is 1 and has one holder, and who is inside holds it. -/
structure Exclusive (c : Threads T) : Prop where
  locked : ∀ t i, c.holding t i = true → (c.table.fds i).lock = 1
  unique : c.MutualExclusion
  inside : ∀ t i k, c.pc t = .inside i k → c.holding t i = true

variable {c : Threads T}

/-- What a thread may do without anything happening to the locks: everything but go inside. -/
theorem Exclusive.quiet (h : c.Exclusive) {s : FdState} {t : T} {pc : Pc}
    (hs : SameLocks c.table s) (hpc : ∀ i k, pc = .inside i k → c.holding t i = true) :
    Exclusive ⟨s, Function.update c.pc t pc, c.holding⟩ := by
  refine ⟨fun u i hu => (hs i).trans (h.locked u i hu), h.unique, fun u i k hu => ?_⟩
  simp only [update_apply] at hu
  split_ifs at hu with hut
  · rw [hut]
    exact hpc i k hu
  · exact h.inside u i k hu

theorem Exclusive.acquire (h : c.Exclusive) {t : T} {i : Slot} (k : Inside)
    (hfree : (c.table.fds i).lock = 0) :
    Exclusive ⟨c.table.setLock i 1, Function.update c.pc t (.inside i k), c.setHolding t i true⟩ := by
  have hnone : ∀ u, c.holding u i ≠ true := by
    intro u hu
    have := h.locked u i hu
    rw [hfree] at this
    exact absurd this (by decide)
  refine ⟨fun u j hu => ?_, fun j u u' hu hu' => ?_, fun u j k' hu => ?_⟩
  · simp only [setHolding_apply] at hu
    rw [FdState.setLock_fds]
    split_ifs with hj
    · rfl
    · exact h.locked u j (by simpa [hj] using hu)
  · simp only [setHolding_apply] at hu hu'
    by_cases hj : j = i
    · subst hj
      have hut : u = t := by
        by_contra hne
        exact hnone u (by simpa [hne] using hu)
      have hut' : u' = t := by
        by_contra hne
        exact hnone u' (by simpa [hne] using hu')
      rw [hut, hut']
    · exact h.unique j u u' (by simpa [hj] using hu) (by simpa [hj] using hu')
  · simp only [setHolding_apply]
    simp only [update_apply] at hu
    split_ifs at hu with hut
    · cases hu
      simp [hut]
    · split_ifs
      · rfl
      · exact h.inside u j k' hu

theorem Exclusive.release (h : c.Exclusive) {t : T} {i : Slot} (next : Outside)
    (hold : c.holding t i = true) :
    Exclusive ⟨c.table.setLock i 0, Function.update c.pc t (.outside next),
      c.setHolding t i false⟩ := by
  have hothers : ∀ u j, c.setHolding t i false u j = true → j ≠ i ∧ c.holding u j = true := by
    intro u j hu
    rw [setHolding_apply] at hu
    split_ifs at hu with hut
    refine ⟨fun hj => hut ⟨?_, hj⟩, hu⟩
    rw [hj] at hu
    exact h.unique i u t hu hold
  refine ⟨fun u j hu => ?_, fun j u u' hu hu' => ?_, fun u j k hu => ?_⟩
  · obtain ⟨hj, hu⟩ := hothers u j hu
    rw [FdState.setLock_fds, if_neg hj]
    exact h.locked u j hu
  · exact h.unique j u u' (hothers u j hu).2 (hothers u' j hu').2
  · simp only [update_apply] at hu
    split_ifs at hu with hut
    simp only [setHolding_apply, hut]
    exact h.inside u j k hu

theorem exclusive_step (h : c.Exclusive) {t : T} (hsteal : ¬ c.Steals t)
    (op : FdOp) : (c.step t op).Exclusive := by
  unfold step
  split
  · rename_i o ho
    rcases o.step_cases c.table op with ⟨o', hpc, hlocks⟩ | ⟨i, k, rfl, hres⟩
    · simp only [hpc]
      exact h.quiet hlocks fun i k hk => by cases hk
    · have hfree : (c.table.fds i).lock = 0 := by
        by_contra hne
        refine hsteal ?_
        unfold Steals
        rw [ho]
        exact ⟨rfl, hne⟩
      simp only [hres]
      exact h.acquire k.start hfree
  · rename_i i k hk
    have hold := h.inside t i k hk
    rcases k.step_cases c.table i with ⟨next, rfl⟩ | ⟨hne, hlocks, hstay⟩
    · exact h.release next hold
    · rw [leave_of_ne c t i hne]
      refine h.quiet hlocks fun j k' hk' => ?_
      rw [hstay j k' hk']
      exact hold

/-- **Mutual exclusion.** In every run in which no step steals a lock, at most one thread is
between the return of `lock_fd` on a slot and its store of 0 to the slot's lock. -/
theorem lock_exclusive {c : Threads T}
    (hc : ((system T).restrict fun c a _ => ¬ c.Steals a.1).Reachable c) : c.MutualExclusion := by
  have hinv : c.Exclusive := by
    refine hc.invariant ?_ ?_
    · intro c h
      refine ⟨fun t i ht => ?_, fun i t t' ht => ?_, fun t i k ht => ?_⟩
      · rw [h.holding t i] at ht
        cases ht
      · rw [h.holding t i] at ht
        cases ht
      · rw [h.returned t] at ht
        cases ht
    · rintro c ⟨t, op⟩ _ h ⟨rfl, hsteal⟩
      exact exclusive_step h hsteal op
  exact hinv.unique

/-- Two threads and an empty table. -/
def twoThreads : Threads Bool where
  table := FdWorld.empty.table
  pc _ := .outside .returned
  holding _ _ := false

theorem twoThreads_initial : twoThreads.Initial := ⟨fun _ => rfl, fun _ => rfl, fun _ _ => rfl⟩

/-- One thread has locked slot 3, and an attempt of the other has failed. -/
def oneInside : Threads Bool :=
  (((twoThreads.step false (.fileGet 3)).step false (.fileGet 3)).step true (.fileGet 3)).step true
    (.fileGet 3)

theorem oneInside_exclusive :
    ((system Bool).restrict fun c a _ => ¬ c.Steals a.1).Reachable oneInside ∧
      oneInside.holding false 3 = true ∧ oneInside.MutualExclusion := by
  have hreach : ((system Bool).restrict fun c a _ => ¬ c.Steals a.1).Reachable oneInside := by
    have h₀ := System.Reachable.init (S := (system Bool).restrict fun c a _ => ¬ c.Steals a.1)
      twoThreads_initial
    have h₁ := h₀.step (false, .fileGet 3) ⟨rfl, by decide⟩
    have h₂ := h₁.step (false, .fileGet 3) ⟨rfl, by decide⟩
    have h₃ := h₂.step (true, .fileGet 3) ⟨rfl, by decide⟩
    exact h₃.step (true, .fileGet 3) ⟨rfl, by decide⟩
  exact ⟨hreach, by decide, lock_exclusive hreach⟩

/-- The second attempt succeeds. -/
theorem bothInside_reachable :
    (system Bool).Reachable (oneInside.step true (.fileGet 3)) ∧
      (oneInside.step true (.fileGet 3)).pc false = .inside 3 (.load none) ∧
      (oneInside.step true (.fileGet 3)).pc true = .inside 3 (.load none) ∧
      ¬ (oneInside.step true (.fileGet 3)).MutualExclusion := by
  have hreach : (system Bool).Reachable (oneInside.step true (.fileGet 3)) := by
    have h₀ := System.Reachable.init (S := system Bool) twoThreads_initial
    have h₁ := h₀.step (false, .fileGet 3) rfl
    have h₂ := h₁.step (false, .fileGet 3) rfl
    have h₃ := h₂.step (true, .fileGet 3) rfl
    have h₄ := h₃.step (true, .fileGet 3) rfl
    exact h₄.step (true, .fileGet 3) rfl
  refine ⟨hreach, rfl, rfl, fun h => ?_⟩
  exact absurd (h 3 false true (by decide) (by decide)) (by decide)

end Threads

end LibTransistor
