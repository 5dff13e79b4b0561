import LibTransistor.Fs.InodeBalance

/-!
# A new root

`trn_fs_set_root` releases the old root and starts over with a current directory of one entry. The
directories below the old root that earlier calls of `trn_fs_chdir` have left in `cwd` are not
released.

`OwnedInDirs` is an account of inodes without an assumption about `malloc`: a walk without memory
may have lost inodes, and the books have them next to those of the current directory.
`setRoot_rerooted_iff` says when a new root leaves nothing behind.
-/

namespace LibTransistor

open Fallible Ledger List

variable {δ : Type} {env : FsEnv δ}

/-! ## Accounts with losses -/

/-- The inodes `ids` are owned, maybe next to others, and the only root there was is the present
one. -/
structure FsState.OwnedInDirs (s : FsState δ) (ids : List InodeId) : Prop where
  books : ∃ lost, s.Books (ids ++ lost)
  root : ∀ n, .acquired (.root n) ∈ s.ledger → ∃ r, s.root = some r ∧ r.id = .root n

theorem ownedInDirs_account :
    Account env (FsState.OwnedInDirs : FsState δ → List InodeId → Prop) where
  congr h hroot hclock hledger := by
    obtain ⟨⟨lost, hbooks⟩, honly⟩ := h
    refine ⟨⟨lost, hledger ▸ hbooks.owns, fun id hid => ?_, hledger ▸ hbooks.once, fun n hn => ?_⟩,
      fun n hn => ?_⟩
    · rw [hclock]
      exact hbooks.past id (hledger ▸ hid)
    · exact hbooks.roots n (hledger ▸ hn)
    · rw [hroot]
      exact honly n (hledger ▸ hn)
  perm h hp := by
    obtain ⟨lost, hbooks⟩ := h.books
    exact ⟨⟨lost, hbooks.perm (hp.append_right lost)⟩, h.root⟩
  later h := by
    obtain ⟨lost, hbooks⟩ := h.books
    exact ⟨⟨lost, hbooks.later⟩, h.root⟩
  use h hid := by
    obtain ⟨lost, hbooks⟩ := h.books
    refine ⟨⟨lost, hbooks.use (mem_append_left _ hid)⟩, fun n hn => h.root n ?_⟩
    simpa using hn
  acquire h := by
    obtain ⟨lost, hbooks⟩ := h.books
    refine ⟨⟨lost, hbooks.acquire⟩, fun n hn => h.root n ?_⟩
    simpa using hn
  release ids' h hp hfound := by
    obtain ⟨lost, hbooks⟩ := h.books
    refine ⟨⟨lost, hbooks.release ids' ?_ hfound⟩, fun n hn => h.root n ?_⟩
    · rw [← append_assoc]
      exact hp.append_right lost
    · simpa [FsState.released] using hn
  lose _ _ h := by
    obtain ⟨lost, hbooks⟩ := h.books
    exact ⟨⟨_ :: lost, hbooks.perm perm_middle.symm⟩, h.root⟩

section Reachable

variable {oldRoot : δ} {s : FsState δ} {dirs : List (Traversal δ)}

theorem ownedInDirs_reachable (hs : (fsSystem env oldRoot).Reachable s) :
    ∃ dirs, s.AccountedBy FsState.OwnedInDirs dirs [] := by
  refine hs.invariant (P := fun s => ∃ dirs, s.AccountedBy FsState.OwnedInDirs dirs []) ?_ ?_
  · intro s hinit
    obtain ⟨dirs, h⟩ := accounted_init hinit
    cases hinit
    refine ⟨dirs, h.cwd, ⟨[], by simpa using h.books⟩, fun n hn => ?_⟩
    have hzero : n = 0 := by simpa [FsState.initial] using hn
    subst hzero
    exact ⟨_, rfl, rfl⟩
  · intro s call s' h hstep
    obtain ⟨dirs, h⟩ := h
    rw [show s' = call.exec env s from hstep]
    exact (call.settles ownedInDirs_account h).exec

theorem FsState.AccountedBy.held_of_mem (h : s.AccountedBy FsState.OwnedInDirs dirs [])
    {e : Traversal δ} (he : e ∈ dirs) :
    e.inode.id ∈ held s.ledger ∧ s.ledger.count (.disposed e.inode.id) = 0 := by
  obtain ⟨lost, hbooks⟩ := h.account.books
  have hmem : e.inode.id ∈ held s.ledger := by
    refine hbooks.owns.mem_iff.2 (mem_append_left _ (mem_append_left _ ?_))
    exact mem_map_of_mem he
  have hcount := hbooks.owns.proper.count_acquired e.inode.id
  have honce := hbooks.once e.inode.id
  have hpos := count_pos_iff.2 hmem
  exact ⟨hmem, by omega⟩

theorem FsState.AccountedBy.root_eq (h : s.AccountedBy FsState.OwnedInDirs dirs []) :
    ∃ top below old, dirs = top :: below ∧ s.root = some old ∧ old.id = top.inode.id ∧
      top.inode.id.isFound = false := by
  obtain ⟨top, below, rfl⟩ := length_pos_iff_exists_cons.1 h.cwd.pos
  have hnot := h.cwd.root top rfl
  obtain ⟨hheld, -⟩ := h.held_of_mem mem_cons_self
  obtain ⟨lost, hbooks⟩ := h.account.books
  cases hid : top.inode.id with
  | found n =>
    rw [hid] at hnot
    cases hnot
  | root n =>
    rw [hid] at hheld
    have hacquired := hbooks.owns.acquired_mem (hbooks.owns.mem_iff.1 hheld)
    obtain ⟨old, hroot, hold⟩ := h.account.root n hacquired
    exact ⟨top, below, old, rfl, hroot, by rw [hold, hid], hid ▸ hnot⟩

end Reachable

/-! ## The new root -/

/-- What becomes of the old current directory, that of `s`, in the state `s'` with a new root. -/
structure FsState.Rerooted (newRoot : δ) (s s' : FsState δ) : Prop where
  /-- Each inode of `cwd[0..cwd_recursion]` has been released once. -/
  released : ∀ (i : Fin 256) (e : Traversal δ), (i.val : Int) ≤ s.cwdRecursion → s.cwd i = some e →
    s'.ledger.count (.disposed e.inode.id) = 1
  /-- The current directory is the new root, with an empty name. -/
  single : ∃ inode, inode.data = newRoot ∧ s'.root = some inode ∧ s'.cwdRecursion = 0 ∧
    s'.cwd 0 = some ⟨inode, []⟩
  /-- What lookups have found and is not released is in the current directory. -/
  reachable : ∀ id, id.isFound → id ∈ held s'.ledger →
    ∃ (i : Fin 256) (e : Traversal δ), (i.val : Int) ≤ s'.cwdRecursion ∧ s'.cwd i = some e ∧
      e.inode.id = id

/-- The state after `trn_fs_set_root`. -/
def FsState.withRoot (s : FsState δ) (newRoot : δ) : FsState δ where
  root := some ⟨newRoot, .root s.clock⟩
  cwd := Function.update s.cwd 0 (some ⟨⟨newRoot, .root s.clock⟩, []⟩)
  cwdRecursion := 0
  clock := s.clock + 1
  ledger := .acquired (.root s.clock) :: (s.root.toList.map fun old => .disposed old.id) ++ s.ledger

theorem setRoot_run (newRoot : δ) (s : FsState δ) :
    trnFsSetRoot newRoot s = .ok () (s.withRoot newRoot) := by
  unfold trnFsSetRoot FsState.withRoot
  rw [get_bind_run]
  cases s.root with
  | none => rfl
  | some old => rfl

section WithRoot

variable {newRoot : δ} {s : FsState δ} {old : Inode δ} {id : InodeId}

theorem FsState.ledger_withRoot (hroot : s.root = some old) :
    (s.withRoot newRoot).ledger = .acquired (.root s.clock) :: .disposed old.id :: s.ledger := by
  simp [withRoot, hroot]

theorem FsState.cwd_withRoot : (s.withRoot newRoot).cwd 0 = some ⟨⟨newRoot, .root s.clock⟩, []⟩ :=
  Function.update_self (0 : Fin 256) _ s.cwd

theorem FsState.count_withRoot (hroot : s.root = some old) :
    (s.withRoot newRoot).ledger.count (.disposed id) =
      s.ledger.count (.disposed id) + if old.id = id then 1 else 0 := by
  simp [ledger_withRoot hroot, count_cons]

theorem FsState.mem_held_withRoot (hroot : s.root = some old) (hold : old.id.isFound = false)
    (hid : id.isFound) : id ∈ held (s.withRoot newRoot).ledger ↔ id ∈ held s.ledger := by
  have hne : id ≠ old.id := by
    rintro rfl
    rw [hold] at hid
    cases hid
  have hnew : id ≠ .root s.clock := by
    rintro rfl
    cases hid
  rw [ledger_withRoot hroot]
  show id ∈ .root s.clock :: (held s.ledger).erase old.id ↔ _
  rw [mem_cons, mem_erase_of_ne hne, or_iff_right hnew]

end WithRoot

section Rerooted

variable {newRoot : δ} {s : FsState δ} {dirs : List (Traversal δ)}

theorem FsState.Rerooted.recursion_eq (h : s.AccountedBy FsState.OwnedInDirs dirs [])
    (hre : s.Rerooted newRoot (s.withRoot newRoot)) : s.cwdRecursion = 0 := by
  obtain ⟨top, below, old, rfl, hroot, hold, hnot⟩ := h.root_eq
  cases below with
  | nil => exact h.cwd.recursion
  | cons e rest =>
    have hfound : e.inode.id.isFound := h.cwd.found _ (by simp [inodes])
    have hentry : s.cwd ⟨1, by decide⟩ = some e := h.cwd.holds.entry ⟨1, by decide⟩ (by simp)
    have hle : ((1 : Nat) : Int) ≤ s.cwdRecursion := by
      rw [h.cwd.recursion, length_cons, length_cons]
      omega
    have hne : old.id ≠ e.inode.id := by
      intro heq
      rw [← heq, hold, hnot] at hfound
      cases hfound
    have honce := hre.released ⟨1, by decide⟩ e hle hentry
    rw [FsState.count_withRoot hroot, (h.held_of_mem (by simp)).2, if_neg hne] at honce
    cases honce

theorem FsState.AccountedBy.rerooted (h : s.AccountedBy FsState.OwnedInDirs dirs [])
    (hrec : s.cwdRecursion = 0) (hnone : ∀ id ∈ held s.ledger, id.isFound = false) :
    s.Rerooted newRoot (s.withRoot newRoot) := by
  obtain ⟨top, below, old, rfl, hroot, hold, hnot⟩ := h.root_eq
  refine ⟨fun i e hi he => ?_, ⟨_, rfl, rfl, rfl, FsState.cwd_withRoot⟩, fun id hfound hid => ?_⟩
  · rw [hrec] at hi
    have hzero : i = 0 := Fin.ext (by simpa using hi)
    subst hzero
    rw [h.cwd.holds.entry 0 (by simp)] at he
    cases he
    rw [FsState.count_withRoot hroot, (h.held_of_mem (by simp)).2, if_pos hold]
  · rw [FsState.mem_held_withRoot hroot (hold ▸ hnot) hfound] at hid
    rw [hnone id hid] at hfound
    cases hfound

end Rerooted

/-- **A new root.** It releases the old current directory and leaves nothing behind if and only if
the current directory is the root itself and no walk without memory has lost an inode before. -/
theorem setRoot_rerooted_iff (env : FsEnv δ) (oldRoot newRoot : δ) (s : FsState δ)
    (hs : (fsSystem env oldRoot).Reachable s) :
    (∃ s', trnFsSetRoot newRoot s = .ok () s' ∧ s.Rerooted newRoot s') ↔
      s.cwdRecursion = 0 ∧ ∀ id ∈ held s.ledger, id.isFound = false := by
  obtain ⟨dirs, h⟩ := ownedInDirs_reachable hs
  constructor
  · intro hre
    obtain ⟨s', hrun, hre⟩ := hre
    rw [setRoot_run] at hrun
    cases hrun
    refine ⟨hre.recursion_eq h, fun id hid => ?_⟩
    obtain ⟨top, below, old, rfl, hroot, hold, hnot⟩ := h.root_eq
    by_contra hfound
    rw [Bool.not_eq_false] at hfound
    have hheld : id ∈ held (s.withRoot newRoot).ledger :=
      (FsState.mem_held_withRoot hroot (hold ▸ hnot) hfound).2 hid
    -- the only entry of the new directory is no inode of a lookup
    obtain ⟨i, e, hi, he, rfl⟩ := hre.reachable id hfound hheld
    have hzero : i = 0 := Fin.ext (by simpa [FsState.withRoot] using hi)
    subst hzero
    cases he
    cases hfound
  · intro hcond
    exact ⟨_, setRoot_run newRoot s, h.rerooted hcond.1 hcond.2⟩

/-- The state after `chdir("/a/../b")` and `chdir("/")`. -/
def thereAndBack : FsState Nat :=
  (PathCall.chdir rootPath).exec fourLevels
    ((PathCall.chdir upAndDown).exec fourLevels fourLevelsRoot)

theorem thereAndBack_rerooted :
    ∃ s', trnFsSetRoot 7 thereAndBack = .ok () s' ∧ thereAndBack.Rerooted 7 s' := by
  have hs : (fsSystem fourLevels 0).Reachable thereAndBack :=
    .step (.chdir rootPath) (.step (.chdir upAndDown) (.init rfl) rfl) rfl
  exact (setRoot_rerooted_iff fourLevels 0 7 thereAndBack hs).2 ⟨by decide +kernel, by decide +kernel⟩

/-- After `chdir("/a/../b")` the inode of `b` is left behind. -/
theorem upAndDown_not_rerooted : ∃ s, (fsSystem fourLevels 0).Reachable s ∧
    ¬ ∃ s', trnFsSetRoot 7 s = .ok () s' ∧ s.Rerooted 7 s' := by
  have hs : (fsSystem fourLevels 0).Reachable
      ((PathCall.chdir upAndDown).exec fourLevels fourLevelsRoot) :=
    .step (.chdir upAndDown) (.init rfl) rfl
  refine ⟨_, hs, ?_⟩
  rintro ⟨s', hrun, hre⟩
  obtain ⟨dirs, h⟩ := ownedInDirs_reachable hs
  rw [setRoot_run] at hrun
  cases hrun
  have hrec := hre.recursion_eq h
  revert hrec
  decide +kernel

end LibTransistor
