import LibTransistor.Fs.Realpath
import LibTransistor.Fs.Reroot

/-!
# The path layer from program start on

`setup_fs` sets a root unless the image cannot be opened. This file is about all runs from program
start, in which calls on paths may come before a root is set (`path_calls_safe_iff`).

* `FsState.Rooted` — with a root, the current directory is a list of entries, and every call ends
  with a result or an error code (`PathCall.settles`).
* `FsState.Rootless` — without one, no entry was ever written and `cwd_recursion` is -1 or, after
  `trn_fs_chdir("/")`, 0. A walk along a name then looks at an entry that is not there. (That
  `trn_fs_realpath("")` writes its terminator in front of the caller's buffer then is not modelled.)
-/

namespace LibTransistor

open Fallible

variable {δ : Type} {env : FsEnv δ}

/-! ## Runs -/

/-- A call of the path layer. -/
inductive FsCall (δ : Type)
  | setRoot (newRoot : δ)
  | path (call : PathCall)

def FsCall.run (env : FsEnv δ) : FsCall δ → FsM δ Unit
  | .setRoot newRoot => trnFsSetRoot newRoot
  | .path call => call.run env

/-- Any sequence of calls from program start. There is no state after a fault. -/
def bootSystem (env : FsEnv δ) : System (FsState δ) (FsCall δ) where
  init s := s = FsState.initial
  step s call s' := call.run env s = .ok () s' ∨ ∃ r, call.run env s = .error (.result r) s'

/-- A call stays inside of the arrays and uses only inodes that were set up. -/
structure PathCall.Safe (env : FsEnv δ) (call : PathCall) (s : FsState δ) : Prop where
  /-- The entries copied to `traverse` fit there. -/
  fits : s.cwdRecursion < 256
  /-- So do those copied back to `cwd`. -/
  fits_after : (final (call.run env s)).cwdRecursion < 256
  no_fault : ∀ e s', call.run env s = .error e s' → e.isFault = false

/-! ## With a root -/

/-- A root is set, and `cwd` has the entries of the current directory. -/
def FsState.Rooted (s : FsState δ) : Prop :=
  ∃ dirs, s.AccountedBy (fun s _ => s.root ≠ none) dirs []

theorem rooted_account : Account env fun (s : FsState δ) _ => s.root ≠ none where
  congr h hroot _ _ := hroot ▸ h
  perm h _ := h
  later h := h
  use h _ := h
  acquire h := h
  release _ h _ _ := h
  lose _ _ h := h

section Rooted

variable {s : FsState δ}

theorem FsState.Rooted.fits (h : s.Rooted) : s.cwdRecursion < 256 := by
  obtain ⟨dirs, h⟩ := h
  have hle := h.cwd.holds.length_le
  rw [h.cwd.recursion]
  omega

theorem FsState.Rooted.final (h : s.Rooted) (call : PathCall) : (final (call.run env s)).Rooted := by
  obtain ⟨dirs, h⟩ := h
  exact (call.settles rooted_account h).exec

theorem FsState.Rooted.safe (h : s.Rooted) (call : PathCall) : call.Safe env s := by
  refine ⟨h.fits, (h.final call).fits, fun e s' hrun => ?_⟩
  obtain ⟨dirs, h⟩ := h
  exact (call.settles rooted_account h).not_fault hrun

theorem FsState.withRoot_rooted (s : FsState δ) (newRoot : δ) : (s.withRoot newRoot).Rooted := by
  refine ⟨[⟨⟨newRoot, .root s.clock⟩, []⟩], ⟨⟨by simp, fun i hi => ?_⟩, rfl, Nat.zero_lt_one, ?_, ?_⟩,
    Option.some_ne_none _⟩
  · have hzero : i = 0 := Fin.ext (Nat.lt_one_iff.1 hi)
    subst hzero
    exact FsState.cwd_withRoot
  · intro e he
    cases he
    rfl
  · intro id hid
    cases hid

end Rooted

/-! ## Without a root -/

/-- No root was ever set. -/
structure FsState.Rootless (s : FsState δ) : Prop where
  root : s.root = none
  cwd : s.cwd = fun _ => none
  recursion : s.cwdRecursion = -1 ∨ s.cwdRecursion = 0

section Rootless

variable {s : FsState δ} {t : Walk δ}

theorem get_empty {a : Stack δ} (ha : a = fun _ => none) (i : Int) :
    ∃ e, a.get i = .error e ∧ e.isFault = true := by
  subst ha
  unfold Stack.get
  split_ifs
  · exact ⟨_, rfl, rfl⟩
  · exact ⟨_, rfl, rfl⟩

theorem visit_empty (segment : List Byte) (htraverse : t.traverse = fun _ => none)
    (hrec : t.recursion ≤ 0) (s : FsState δ) :
    visit env segment t s = .ok (t, resultOk) s ∨
      ∃ e, visit env segment t s = .error e s ∧ e.isFault = true := by
  unfold visit
  by_cases hup : segment = [dot, dot]
  · have hgoUp : goUp t s = .ok t s := by
      unfold goUp
      rw [if_neg (by omega)]
      rfl
    rw [if_pos hup, bind_of_ok hgoUp]
    exact .inl rfl
  · by_cases hdot : segment = [dot]
    · rw [if_neg hup, if_pos hdot]
      exact .inl rfl
    · obtain ⟨e, hget, hfault⟩ := get_empty htraverse t.recursion
      rw [if_neg hup, if_neg hdot]
      unfold goDown
      rw [if_neg (by omega), hget]
      exact .inr ⟨e, rfl, hfault⟩

theorem follow_empty (env : FsEnv δ) (path : List (List Byte))
    (htraverse : t.traverse = fun _ => none) (hrec : t.recursion ≤ 0) (s : FsState δ) :
    follow env path t s = .ok (t, resultOk) s ∨
      ∃ e, follow env path t s = .error e s ∧ e.isFault = true := by
  induction path with
  | nil => exact .inl rfl
  | cons segment rest ih =>
    rcases visit_empty segment htraverse hrec s with hvisit | ⟨e, hvisit, hfault⟩
    · rw [follow, bind_of_ok hvisit]
      exact ih
    · exact .inr ⟨e, bind_of_error hvisit, hfault⟩

/-- A walk without a root ends where it starts, or looks at an entry. -/
theorem traverse_rootless (h : s.Rootless) (path : CString) :
    (∃ t, trnFsTraverse env path s = .ok t s ∧ t.traverse = (fun _ => none) ∧
      t.borrowed = t.recursion ∧ (t.recursion = 0 ∨ t.recursion = s.cwdRecursion)) ∨
      ∃ e, trnFsTraverse env path s = .error e s ∧ e.isFault = true := by
  have hcopy : Stack.copy (fun _ => none) s.cwd s.cwdRecursion = fun _ => none := by
    funext i
    simp [Stack.copy, h.cwd]
  have hle : s.cwdRecursion ≤ 0 := by
    rcases h.recursion with hrec | hrec <;> omega
  obtain ⟨start, hstart⟩ : ∃ start : Walk δ, start =
      if path.bytes.head? = some slash then ⟨fun _ => none, 0, 0⟩
      else ⟨fun _ => none, s.cwdRecursion, s.cwdRecursion⟩ := ⟨_, rfl⟩
  have hparts : start.traverse = (fun _ => none) ∧ start.borrowed = start.recursion ∧
      (start.recursion = 0 ∨ start.recursion = s.cwdRecursion) := by
    rw [hstart]
    split_ifs
    · exact ⟨rfl, rfl, .inl rfl⟩
    · exact ⟨rfl, rfl, .inr rfl⟩
  obtain ⟨htraverse, hborrowed, hrec⟩ := hparts
  unfold trnFsTraverse
  rw [get_bind_run, hcopy]
  rw [← hstart]
  rcases follow_empty env (segments path.bytes) htraverse (by omega) s with
    hfollow | ⟨e, hfollow, hfault⟩
  · rw [bind_of_ok ((walk_eq_follow _ _ _).trans hfollow)]
    exact .inl ⟨start, rfl, htraverse, hborrowed, hrec⟩
  · exact .inr ⟨e, bind_of_error ((walk_eq_follow _ _ _).trans hfollow), hfault⟩

theorem chdir_rootless (h : s.Rootless) (path : CString) :
    (∃ s', trnFsChdir env path s = .ok () s' ∧ s'.Rootless) ∨
      ∃ e, trnFsChdir env path s = .error e s ∧ e.isFault = true := by
  unfold trnFsChdir
  rcases traverse_rootless h path with ⟨t, hrun, htraverse, hborrowed, hrec⟩ | ⟨e, hrun, hfault⟩
  · have hnone : (s.cwdRecursion - t.borrowed).toNat = 0 := by
      rcases h.recursion with hcwd | hcwd <;> omega
    have hcopy : Stack.copy s.cwd t.traverse t.recursion = fun _ => none := by
      funext i
      simp [Stack.copy, h.cwd, htraverse]
    have hreleased : releaseAbove s.cwd t.borrowed s.cwdRecursion s = .ok () s := by
      unfold releaseAbove
      rw [hnone]
      rfl
    rw [bind_of_ok hrun, get_bind_run, bind_of_ok hreleased]
    refine .inl ⟨_, rfl, h.root, hcopy, ?_⟩
    rcases hrec with hrec | hrec
    · exact .inr hrec
    · rw [hrec]
      exact h.recursion
  · exact .inr ⟨e, bind_of_error hrun, hfault⟩

theorem open_rootless (env : FsEnv δ) (h : s.Rootless) (path : CString) (flags : Int) :
    ∃ e, trnFsOpen env path flags s = .error e s ∧ e.isFault = true := by
  unfold trnFsOpen
  rcases traverse_rootless h path with ⟨t, hrun, htraverse, -⟩ | ⟨e, hrun, hfault⟩
  · obtain ⟨e, hget, hfault⟩ := get_empty htraverse t.recursion
    rw [bind_of_ok hrun, hget]
    exact ⟨e, rfl, hfault⟩
  · exact ⟨e, bind_of_error hrun, hfault⟩

theorem Rootless.of_leaves {α : Type} {x : FsM δ α} (hx : Leaves FsState.places x)
    (h : s.Rootless) : (final (x s)).Rootless := by
  have hview := hx s
  have hroot : (final (x s)).root = s.root := congrArg Prod.fst hview
  have hcwd : (final (x s)).cwd = s.cwd := congrArg (·.2.1) hview
  have hrec : (final (x s)).cwdRecursion = s.cwdRecursion := congrArg (·.2.2) hview
  exact ⟨hroot ▸ h.root, hcwd ▸ h.cwd, hrec ▸ h.recursion⟩

theorem PathCall.final_rootless (h : s.Rootless) (call : PathCall) :
    (final (call.run env s)).Rootless := by
  have hdrop : ∀ {α : Type} {x : FsM δ α}, Leaves FsState.places x →
      (final ((x >>= fun _ => pure ()) s)).Rootless := fun hx =>
    Rootless.of_leaves (hx.bind fun _ => .pure _) h
  cases call with
  | realpath path given => exact hdrop (leaves_realpath path given)
  | «open» path flags => exact hdrop (leaves_open path flags)
  | opendir path => exact hdrop (leaves_opendir path)
  | chdir path =>
    show (final (trnFsChdir env path s)).Rootless
    rcases chdir_rootless h path with ⟨s', hrun, hs'⟩ | ⟨e, hrun, -⟩
    · rw [hrun]
      exact hs'
    · rw [hrun]
      exact h

end Rootless

/-! ## Every state -/

section Boot

variable {s s' : FsState δ}

theorem rooted_or_rootless (hs : (bootSystem env).Reachable s) : s.Rooted ∨ s.Rootless := by
  refine hs.invariant (P := fun s => s.Rooted ∨ s.Rootless) ?_ ?_
  · intro s hinit
    rw [show s = FsState.initial from hinit]
    exact .inr ⟨rfl, rfl, .inl rfl⟩
  · intro s call s' h hstep
    cases call with
    | setRoot newRoot =>
      have hrun := setRoot_run newRoot s
      rcases hstep with hok | ⟨r, herr⟩
      · rw [show trnFsSetRoot newRoot s = .ok () s' from hok] at hrun
        cases hrun
        exact .inl (s.withRoot_rooted newRoot)
      · rw [show trnFsSetRoot newRoot s = .error (.result r) s' from herr] at hrun
        cases hrun
    | path call =>
      have hfinal : final (call.run env s) = s' := by
        rcases hstep with hok | ⟨r, herr⟩
        · rw [show call.run env s = .ok () s' from hok]
          rfl
        · rw [show call.run env s = .error (.result r) s' from herr]
          rfl
      rw [← hfinal]
      rcases h with h | h
      · exact .inl (h.final call)
      · exact .inr (call.final_rootless h)

/-- **The path layer from program start on.** In every state of every run, all calls on paths are
safe if and only if a root has been set. -/
theorem path_calls_safe_iff (env : FsEnv δ) (s : FsState δ) (hs : (bootSystem env).Reachable s) :
    (∀ call : PathCall, call.Safe env s) ↔ s.root ≠ none := by
  rcases rooted_or_rootless hs with h | h
  · obtain ⟨dirs, hdirs⟩ := h
    exact ⟨fun _ => hdirs.account, fun _ call => FsState.Rooted.safe ⟨dirs, hdirs⟩ call⟩
  · refine ⟨fun hsafe => ?_, fun hroot => absurd h.root hroot⟩
    obtain ⟨e, hrun, hfault⟩ := open_rootless env h ⟨[], by decide⟩ 0
    have hno := (hsafe (.open ⟨[], by decide⟩ 0)).no_fault e s (bind_of_error hrun)
    rw [hfault] at hno
    cases hno

end Boot

theorem fourLevelsRoot_safe :
    (bootSystem fourLevels).Reachable fourLevelsRoot ∧
      ∀ call : PathCall, call.Safe fourLevels fourLevelsRoot := by
  have hs : (bootSystem fourLevels).Reachable fourLevelsRoot :=
    .step (.setRoot 0) (.init rfl) (.inl rfl)
  exact ⟨hs, (path_calls_safe_iff fourLevels fourLevelsRoot hs).2 (Option.some_ne_none _)⟩

/-- At program start `trn_fs_open("")` goes to `traverse[-1]`. -/
theorem initial_not_safe : ∃ s, (bootSystem fourLevels).Reachable s ∧
    PathCall.run fourLevels (.open ⟨[], by decide⟩ 0) s = .error (.outOfBounds (-1)) s ∧
    ¬ PathCall.Safe fourLevels (.open ⟨[], by decide⟩ 0) s := by
  have hwalk : trnFsTraverse fourLevels ⟨[], by decide⟩ FsState.initial =
      .ok ⟨Stack.copy (fun _ => none) (fun _ => none) (-1), -1, -1⟩ FsState.initial := by
    unfold trnFsTraverse
    rw [get_bind_run]
    rw [walk]
    rfl
  have hopen : trnFsOpen fourLevels ⟨[], by decide⟩ 0 FsState.initial =
      .error (.outOfBounds (-1)) FsState.initial := by
    unfold trnFsOpen
    rw [bind_of_ok hwalk]
    rfl
  have hrun : PathCall.run fourLevels (.open ⟨[], by decide⟩ 0) FsState.initial =
      .error (.outOfBounds (-1)) FsState.initial := bind_of_error hopen
  refine ⟨FsState.initial, .init rfl, hrun, fun hsafe => ?_⟩
  have hno := hsafe.no_fault _ _ hrun
  cases hno

end LibTransistor
