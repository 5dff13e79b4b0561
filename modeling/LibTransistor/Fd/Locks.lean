import LibTransistor.Fd.Operations

/-!
# Locks are given back

An operation of `Fd.Table` stores 0 to every lock that it has taken, on all of its paths but one:
`fd_close` of an empty slot returns between the two stores (`unlocked_iff`).
-/

namespace LibTransistor

/-- The locks of the slots. -/
def FdState.locks (s : FdState) : Slot → Int := fun i => (s.fds i).lock

/-- No slot is locked. -/
def FdState.Unlocked (s : FdState) : Prop := ∀ i, (s.fds i).lock = 0

/-- The operation closes a slot that is empty. -/
def FdOp.ClosesEmpty (s : FdState) : FdOp → Prop
  | .close fd => ∃ i, slotOf fd = some i ∧ s.files i = none
  | _ => False

/-! ## The steps -/

namespace FdState

variable {s : FdState} {i : Slot}

@[simp] theorem locks_setLock (s : FdState) (i : Slot) (lock : Int) :
    (s.setLock i lock).locks = Function.update s.locks i lock := by
  funext j
  unfold locks
  rw [setLock_fds, Function.update_apply]
  split_ifs <;> rfl

@[simp] theorem locks_setFile (s : FdState) (i : Slot) (file : Option FilePtr) :
    (s.setFile i file).locks = s.locks := by
  funext j
  unfold locks
  rw [setFile_fds]
  split_ifs with h
  · rw [h]
  · rfl

@[simp] theorem locks_takeRef (s : FdState) (p : FilePtr) : (s.takeRef p).locks = s.locks := rfl

@[simp] theorem locks_allocate (s : FdState) (a ops data : Addr) :
    (s.allocate a ops data).locks = s.locks := rfl

@[simp] theorem locks_discard (s : FdState) (p : FilePtr) : (s.discard p).locks = s.locks := rfl

@[simp] theorem locks_put (s : FdState) (p : FilePtr) : (s.put p).locks = s.locks := by
  unfold put
  split_ifs <;> rfl

theorem unlocked_iff_locks : s.Unlocked ↔ s.locks = fun _ => 0 := funext_iff.symm

theorem Unlocked.update (h : s.Unlocked) (i : Slot) (lock : Int) :
    Function.update (Function.update s.locks i lock) i 0 = s.locks := by
  rw [Function.update_idem, ← h i]
  exact Function.update_eq_self i s.locks

theorem Unlocked.of_locks {s' : FdState} (h : s.Unlocked) (hlocks : s'.locks = s.locks) :
    s'.Unlocked := fun i => (congrFun hlocks i).trans (h i)

end FdState

/-! ## The operations -/

section Operations

variable {s : FdState}

theorem unlocked_fileGet (h : s.Unlocked) (fd : Int) : (fdFileGet fd s).2.Unlocked := by
  cases hs : slotOf fd with
  | none =>
    rw [fdFileGet_invalid hs]
    exact h
  | some i =>
    refine h.of_locks ?_
    cases hf : s.files i with
    | none => simp only [fdFileGet_empty hs hf, FdState.locks_setLock, h.update]
    | some p =>
      simp only [fdFileGet_some hs hf, FdState.locks_setLock, FdState.locks_takeRef, h.update]

theorem unlocked_replace (h : s.Unlocked) (j : Slot) (f : FilePtr) : (s.replace j f).Unlocked := by
  refine h.of_locks ?_
  unfold FdState.replace
  cases s.files j with
  | none => simp only [FdState.locks_setLock, FdState.locks_setFile, h.update]
  | some old =>
    simp only [FdState.locks_put, FdState.locks_setLock, FdState.locks_setFile, h.update]

theorem unlocked_dup2 (h : s.Unlocked) (oldfd newfd : Int) : (dup2 oldfd newfd s).2.Unlocked := by
  cases ho : slotOf oldfd with
  | none =>
    rw [dup2_invalid (.inl ho)]
    exact h
  | some i =>
    cases hn : slotOf newfd with
    | none =>
      rw [dup2_invalid (.inr hn)]
      exact h
    | some j =>
      by_cases heq : oldfd = newfd
      · subst heq
        rw [dup2_same ho]
        exact h
      · have hget := unlocked_fileGet h oldfd
        cases hrun : fdFileGet oldfd s with
        | mk f s' =>
          rw [hrun] at hget
          cases f with
          | none =>
            rw [dup2_none ho hn heq hrun]
            exact hget
          | some p =>
            rw [dup2_some ho hn heq hrun]
            exact unlocked_replace hget j p

theorem unlocked_createFile (h : s.Unlocked) (fops data : Addr) (block : Option Addr) :
    (fdCreateFile fops data block s).2.Unlocked := by
  by_cases hops : fops = 0#64
  · rw [fdCreateFile_einval hops]
    exact h
  · cases block with
    | none =>
      rw [fdCreateFile_enomem hops]
      exact h
    | some a =>
      refine h.of_locks ?_
      rw [fdCreateFile_run data a s hops]
      split_ifs
      · simp only [FdState.locks_setFile, FdState.locks_allocate]
      · simp only [FdState.locks_discard, FdState.locks_allocate]

theorem unlocked_close_iff (h : s.Unlocked) (fd : Int) :
    (fdClose fd s).2.Unlocked ↔ ¬ ∃ i, slotOf fd = some i ∧ s.files i = none := by
  cases hs : slotOf fd with
  | none =>
    rw [fdClose_invalid hs]
    simp [h]
  | some i =>
    cases hf : s.files i with
    | none =>
      refine iff_of_false (fun hun => ?_) (not_not.2 ⟨i, rfl, hf⟩)
      rw [fdClose_empty hs hf] at hun
      have hlock := congrFun (FdState.unlocked_iff_locks.1 hun) i
      simp at hlock
    | some p =>
      refine iff_of_true (h.of_locks ?_) ?_
      · simp only [fdClose_some hs hf, FdState.locks_put, FdState.locks_setLock,
          FdState.locks_setFile, h.update]
      · rintro ⟨j, hj, hnone⟩
        cases hj
        rw [hf] at hnone
        cases hnone

theorem FdState.Unlocked.effect (h : s.Unlocked) {op : FdOp} (hop : ¬ op.ClosesEmpty s) :
    (op.effect s).Unlocked := by
  cases op with
  | createFile fops data block => exact unlocked_createFile h fops data block
  | fileGet fd => exact unlocked_fileGet h fd
  | filePut file =>
    cases file with
    | none => exact h
    | some p =>
      show (fdFilePut (some p) s).2.Unlocked
      rw [fdFilePut_run]
      exact h.of_locks (s.locks_put p)
  | close fd => exact (unlocked_close_iff h fd).2 hop
  | dup2 oldfd newfd => exact unlocked_dup2 h oldfd newfd

end Operations

/-! ## Results -/

/-- **One operation.** Where no slot was locked none is locked after it, unless the operation is
`fd_close` of an empty slot. -/
theorem unlocked_iff (s : FdState) (h : s.Unlocked) (op : FdOp) :
    (op.effect s).Unlocked ↔ ¬ op.ClosesEmpty s := by
  refine ⟨fun hun hempty => ?_, h.effect⟩
  cases op with
  | close fd => exact (unlocked_close_iff h fd).1 hun hempty
  | _ => exact hempty

theorem empty_dup2_unlocked :
    FdWorld.empty.table.Unlocked ∧
      ((FdOp.dup2 3 4).effect FdWorld.empty.table).Unlocked :=
  ⟨fun _ => rfl, (unlocked_iff _ (fun _ => rfl) (.dup2 3 4)).2 id⟩

/-- `fd_close(3)` on the empty table leaves slot 3 locked. -/
theorem empty_close_locked : FdWorld.empty.table.Unlocked ∧
    (((FdOp.close 3).effect FdWorld.empty.table).fds 3).lock = 1 ∧
    ¬ ((FdOp.close 3).effect FdWorld.empty.table).Unlocked := by
  have hlock : (((FdOp.close 3).effect FdWorld.empty.table).fds 3).lock = 1 := by
    show ((fdClose 3 FdWorld.empty.table).2.locks) 3 = 1
    rw [fdClose_empty rfl rfl]
    simp
  refine ⟨fun _ => rfl, hlock, fun hun => ?_⟩
  rw [hun 3] at hlock
  cases hlock

end LibTransistor
