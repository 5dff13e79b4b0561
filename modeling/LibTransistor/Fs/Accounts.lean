import LibTransistor.Fs.Walk

/-!
# Accounts of inodes

The path layer owns the inodes of the current directory and, during a walk, those above
`borrowed_recursion`. This file follows the ownership through every operation, for any `Account P`:
the rules that a statement `P s ids` about a state and the inodes `ids` owned there has to obey.

* `Visited.accounted`, `Followed.accounted`, `traverse_spec` — during a segment, the loop and the
  whole walk, the entries of `cwd` and the walk's own are owned.
* `PathCall.settles` — after each call only the entries of `cwd` are owned.
-/

namespace LibTransistor

open Fallible Ledger List

variable {δ : Type} {env : FsEnv δ}
variable {top : Traversal δ} {r : ResultT}

/-! ## Accounts -/

/-- A statement about the inodes that the path layer owns, and how it follows what happens to
them. -/
structure Account (env : FsEnv δ) (P : FsState δ → List InodeId → Prop) : Prop where
  /-- The current directory is not part of it. -/
  congr {s s' : FsState δ} {ids : List InodeId} (h : P s ids) (hroot : s'.root = s.root)
    (hclock : s'.clock = s.clock) (hledger : s'.ledger = s.ledger) : P s' ids
  perm {s : FsState δ} {ids rest : List InodeId} (h : P s ids) (hp : ids.Perm rest) : P s rest
  later {s : FsState δ} {ids : List InodeId} (h : P s ids) : P { s with clock := s.clock + 1 } ids
  use {s : FsState δ} {ids : List InodeId} {id : InodeId} (h : P s ids) (hid : id ∈ ids) :
    P { s with ledger := .used id :: s.ledger } ids
  /-- `lookup` hands an inode over. -/
  acquire {s : FsState δ} {ids : List InodeId} (h : P s ids) :
    P { s with
        clock := s.clock + 1
        ledger := .acquired (.found s.clock) :: s.ledger } (.found s.clock :: ids)
  /-- Inodes that `lookup` found are released. -/
  release {s : FsState δ} {ids rest : List InodeId} (ids' : List InodeId) (h : P s ids)
    (hp : ids.Perm (ids' ++ rest)) (hfound : ∀ id ∈ ids', id.isFound) : P (s.released ids') rest
  /-- A walk that finds no memory for a name forgets the inode that it has found. -/
  lose {s : FsState δ} {ids : List InodeId} {id : InodeId} {time : Nat}
    (hmalloc : env.malloc time = false) (hfound : id.isFound) (h : P s (id :: ids)) : P s ids

namespace FsState

/-- `cwd[0..cwd_recursion]` are the entries of `dirs`: a root, and directories found from it. -/
structure Cwd (s : FsState δ) (dirs : List (Traversal δ)) : Prop where
  holds : s.cwd.Holds dirs
  recursion : s.cwdRecursion = dirs.length - 1
  pos : 0 < dirs.length
  root : ∀ e ∈ dirs.head?, e.inode.id.isFound = false
  found : ∀ id ∈ inodes dirs.tail, id.isFound

theorem Cwd.of_eq {s s' : FsState δ} {dirs : List (Traversal δ)} (h : s.Cwd dirs)
    (hcwd : s'.cwd = s.cwd) (hrec : s'.cwdRecursion = s.cwdRecursion) : s'.Cwd dirs :=
  ⟨hcwd ▸ h.holds, hrec ▸ h.recursion, h.pos, h.root, h.found⟩

/-- The current directory is `dirs`, and the account is about its inodes and those of `own`. -/
structure AccountedBy (P : FsState δ → List InodeId → Prop) (s : FsState δ)
    (dirs own : List (Traversal δ)) : Prop where
  cwd : s.Cwd dirs
  account : P s (inodes dirs ++ inodes own)

end FsState

variable {P : FsState δ → List InodeId → Prop} {s : FsState δ} {dirs own : List (Traversal δ)}
  {k : Nat} {α : Type}

theorem FsState.Cwd.inDirs (h : s.Cwd dirs) : s.InDirs dirs := ⟨h.holds, h.recursion, h.pos⟩

/-- The inodes of `cwd` and of the walk's own entries are owned, and the latter were found. -/
structure Point.AccountedBy (P : FsState δ → List InodeId → Prop) (dirs : List (Traversal δ))
    (x : Point δ) : Prop where
  state : x.state.AccountedBy P dirs x.own
  found : ∀ id ∈ inodes x.own, id.isFound

/-- A call ends with a result or an error code, and in an accounted state. -/
def Settles (P : FsState δ → List InodeId → Prop) (x : FsM δ α) (s : FsState δ) : Prop :=
  ∃ dirs s', s'.AccountedBy P dirs [] ∧ ((∃ a, x s = .ok a s') ∨ ∃ r, x s = .error (.result r) s')

theorem mem_inodes {e : Traversal δ} (he : e ∈ dirs ++ own) :
    e.inode.id ∈ inodes dirs ++ inodes own := by
  rw [← inodes_append]
  exact mem_map_of_mem he

theorem mem_of_top (h : (dirs.take k ++ own).getLast? = some top) : top ∈ dirs ++ own := by
  rcases mem_append.1 (mem_of_getLast? h) with hmem | hmem
  · exact mem_append_left _ (mem_of_mem_take hmem)
  · exact mem_append_right _ hmem

section Accounts

/-! ## Operations of inodes -/

variable (hP : Account env P)
include hP

theorem malloc_spec (h : s.AccountedBy P dirs own) :
    ∃ s', malloc env s = .ok (env.malloc s.clock) s' ∧ s'.AccountedBy P dirs own :=
  ⟨_, rfl, h.cwd.of_eq rfl rfl, hP.later h.account⟩

theorem openAsFile_spec (h : s.AccountedBy P dirs own) (he : e ∈ dirs ++ own) (flags : Int) :
    ∃ r s', openAsFile env e.inode flags s = .ok r s' ∧ s'.AccountedBy P dirs own :=
  ⟨_, _, rfl, h.cwd.of_eq rfl rfl, hP.later (hP.use h.account (mem_inodes he))⟩

theorem openAsDir_spec (h : s.AccountedBy P dirs own) (he : e ∈ dirs ++ own) :
    ∃ r s', openAsDir env e.inode s = .ok r s' ∧ s'.AccountedBy P dirs own :=
  ⟨_, _, rfl, h.cwd.of_eq rfl rfl, hP.later (hP.use h.account (mem_inodes he))⟩

/-! ## The walk -/

theorem FsState.AccountedBy.missed (h : s.AccountedBy P dirs own) (htop : top ∈ dirs ++ own)
    (hr : r ≠ resultOk) : (s.looked top.inode r).AccountedBy P dirs own := by
  refine ⟨h.cwd.of_eq rfl rfl, ?_⟩
  unfold looked
  rw [if_neg hr]
  exact hP.later (hP.later (hP.use h.account (mem_inodes htop)))

theorem FsState.AccountedBy.found (h : s.AccountedBy P dirs own)
    (htop : top ∈ dirs ++ own) (data : δ) (name : List Byte) :
    (s.looked top.inode resultOk).AccountedBy P dirs (own ++ [⟨⟨data, .found s.clock⟩, name⟩]) := by
  refine ⟨h.cwd.of_eq rfl rfl, ?_⟩
  rw [inodes_append, ← append_assoc]
  have haccount := hP.later (hP.acquire (hP.use h.account (mem_inodes htop)))
  exact hP.perm haccount (perm_append_singleton _ _).symm

theorem FsState.AccountedBy.noMemory {time : Nat}
    (hmalloc : env.malloc time = false) (h : s.AccountedBy P dirs own) (htop : top ∈ dirs ++ own)
    (r : ResultT) : (s.looked top.inode r).AccountedBy P dirs own := by
  by_cases hr : r = resultOk
  · subst hr
    have hfound := h.found hP htop top.inode.data top.name
    have hnew : (InodeId.found s.clock).isFound := rfl
    refine ⟨hfound.cwd, hP.lose hmalloc hnew (hP.perm hfound.account ?_)⟩
    rw [inodes_append, ← append_assoc]
    exact perm_append_singleton _ _
  · exact h.missed hP htop hr

theorem Visited.accounted {segment : List Byte} {x y : Point δ}
    (h : Visited env dirs segment x r y) (hx : x.AccountedBy P dirs) : y.AccountedBy P dirs := by
  cases h with
  | stay => exact hx
  | root => exact hx
  | unborrow => exact ⟨hx.state, hx.found⟩
  | tooDeep => exact hx
  | pop =>
    obtain ⟨hstate, hfound⟩ := hx
    simp only [inodes_append] at hfound
    refine ⟨⟨hstate.cwd.of_eq rfl rfl, ?_⟩, fun id hid => hfound id (mem_append_left _ hid)⟩
    refine hP.release _ hstate.account ?_ fun id hid => hfound id (mem_append_right _ hid)
    rw [inodes_append, ← append_assoc]
    exact perm_append_comm
  | noMemory _ _ htop _ hm =>
    exact ⟨hx.state.noMemory hP hm (mem_of_top htop) _, hx.found⟩
  | missing _ _ htop _ hr => exact ⟨hx.state.missed hP (mem_of_top htop) hr, hx.found⟩
  | found _ _ htop =>
    refine ⟨hx.state.found hP (mem_of_top htop) _ _, fun id hid => ?_⟩
    rw [inodes_append] at hid
    rcases mem_append.1 hid with hmem | hmem
    · exact hx.found id hmem
    · rw [mem_singleton.1 hmem]
      rfl

theorem Followed.accounted {path : List (List Byte)} {x y : Point δ}
    (h : Followed env dirs path x r y) (hx : x.AccountedBy P dirs) : y.AccountedBy P dirs := by
  induction h with
  | done => exact hx
  | fails h => exact h.accounted hP hx
  | next h _ ih => exact ih (h.accounted hP hx)

theorem FsState.AccountedBy.giveBack (hs : s.AccountedBy P dirs own)
    (hfound : ∀ id ∈ inodes own, id.isFound) : (s.released (inodes own)).AccountedBy P dirs [] := by
  refine ⟨hs.cwd.of_eq rfl rfl, hP.release (inodes own) hs.account ?_ hfound⟩
  rw [show inodes ([] : List (Traversal δ)) = [] from rfl, append_nil]
  exact perm_append_comm

/-- The walk along a path either fails, and owns nothing any more, or hands its entries over. -/
theorem traverse_spec (path : CString) (hs : s.AccountedBy P dirs []) :
    (∃ r s', trnFsTraverse env path s = .error (.result r) s' ∧ s'.AccountedBy P dirs []) ∨
    ∃ t s' k own, trnFsTraverse env path s = .ok t s' ∧ t.Holds dirs k own ∧
      s'.AccountedBy P dirs own := by
  obtain ⟨t, r, y, ht, hfollowed, hrun⟩ := traverse_run env hs.cwd.inDirs path
  have hy : y.AccountedBy P dirs :=
    hfollowed.accounted hP ⟨hs, fun id hid => absurd hid not_mem_nil⟩
  by_cases hr : r = resultOk
  · rw [if_pos hr] at hrun
    exact .inr ⟨t, y.state, y.kept, y.own, hrun, ht, hy.state⟩
  · rw [if_neg hr] at hrun
    exact .inl ⟨r, _, hrun, hy.state.giveBack hP hy.found⟩

/-! ## The calls -/

theorem settles_traverse (path : CString) (hs : s.AccountedBy P dirs []) {f : Walk δ → FsM δ α}
    (hf : ∀ t s k own, t.Holds dirs k own → s.AccountedBy P dirs own → Settles P (f t) s) :
    Settles P (trnFsTraverse env path >>= f) s := by
  rcases traverse_spec hP path hs with ⟨r, s', hrun, hs'⟩ | ⟨t, s', k, own, hrun, ht, hs'⟩
  · exact ⟨dirs, s', hs', .inr ⟨r, bind_of_error hrun⟩⟩
  · unfold Settles
    rw [bind_of_ok hrun]
    exact hf t s' k own ht hs'

theorem settles_giveBack {t : Walk δ} (ht : t.Holds dirs k own) (hs : s.AccountedBy P dirs own)
    (r : ResultT) (a : α) :
    Settles P (do
      releaseAbove t.traverse t.borrowed t.recursion
      if r ≠ resultOk then throw (.result r)
      return a : FsM δ α) s := by
  refine ⟨dirs, _, hs.giveBack hP ht.found, ?_⟩
  rw [bind_of_ok (ht.releaseAbove s)]
  by_cases hr : r = resultOk
  · rw [if_neg (by simpa using hr)]
    exact .inl ⟨a, rfl⟩
  · rw [if_pos hr]
    exact .inr ⟨r, rfl⟩

theorem open_settles (path : CString) (flags : Int)
    (hs : s.AccountedBy P dirs []) : Settles P (trnFsOpen env path flags) s := by
  refine settles_traverse hP path hs fun t s k own ht hs => ?_
  obtain ⟨trv, hget, htop⟩ := ht.top
  obtain ⟨⟨r, fd⟩, s', hopen, hs'⟩ := openAsFile_spec hP hs (mem_of_top htop) flags
  unfold Settles
  rw [runPure_bind_of_ok hget, bind_of_ok hopen]
  exact settles_giveBack hP ht hs' r fd

theorem opendir_settles (path : CString)
    (hs : s.AccountedBy P dirs []) : Settles P (trnFsOpendir env path) s := by
  refine settles_traverse hP path hs fun t s k own ht hs => ?_
  obtain ⟨trv, hget, htop⟩ := ht.top
  obtain ⟨⟨r, dir⟩, s', hopen, hs'⟩ := openAsDir_spec hP hs (mem_of_top htop)
  unfold Settles
  rw [runPure_bind_of_ok hget, bind_of_ok hopen]
  exact settles_giveBack hP ht hs' r dir

theorem pathBuffer_spec (hs : s.AccountedBy P dirs own) (pathSize : Nat) (given : Bool) :
    ∃ r s', pathBuffer env pathSize given s = .ok r s' ∧ s'.AccountedBy P dirs own := by
  unfold pathBuffer
  by_cases hsize : pathSize > 256
  · rw [if_pos hsize]
    exact ⟨_, _, rfl, hs⟩
  · rw [if_neg hsize]
    by_cases hgiven : given = true
    · rw [if_pos hgiven]
      exact ⟨_, _, rfl, hs⟩
    · obtain ⟨s', hm, hs'⟩ := malloc_spec hP hs
      rw [if_neg hgiven, bind_of_ok hm]
      exact ⟨_, s', rfl, hs'⟩

theorem realpath_settles (path : CString) (given : Bool)
    (hs : s.AccountedBy P dirs []) : Settles P (trnFsRealpath env path given) s := by
  refine settles_traverse hP path hs fun t s k own ht hs => ?_
  obtain ⟨r, s', hbuffer, hs'⟩ := pathBuffer_spec hP hs _ given
  unfold Settles
  rw [runPure_bind_of_ok ht.names]
  rw [bind_of_ok hbuffer]
  exact settles_giveBack hP ht hs' r _

/-- `trn_fs_chdir` gives up the entries of `cwd` that the walk has left, and takes over the walk's
own. -/
theorem chdir_settles (path : CString)
    (hs : s.AccountedBy P dirs []) : Settles P (trnFsChdir env path) s := by
  refine settles_traverse hP path hs fun t s k own ht hs => ?_
  have hpos := ht.pos
  have hlen : (dirs.take k).length = k := by rw [length_take, Nat.min_eq_left ht.le]
  have hmoved := FsState.movedTo_inDirs ht s (dirs.drop k)
  have htail : ∀ id ∈ inodes (dirs.drop k), id.isFound := fun id hid => by
    refine hs.cwd.found id ?_
    rw [← drop_one]
    exact (drop_sublist_drop_left dirs hpos).map _ |>.subset hid
  have haccount : P (s.released (inodes (dirs.drop k))) (inodes (dirs.take k ++ own)) := by
    refine hP.release (inodes (dirs.drop k)) hs.account ?_ htail
    rw [inodes_append, ← append_assoc]
    refine List.Perm.append_right _ ?_
    rw [← inodes_append]
    exact ((take_append_drop k dirs).symm ▸ perm_append_comm).map _
  have htake : 0 < (dirs.take k).length := by omega
  have hroot : ∀ e ∈ (dirs.take k ++ own).head?, e.inode.id.isFound = false := by
    intro e he
    rw [head?_append_of_ne_nil _ (ne_nil_of_length_pos htake), head?_take,
      if_neg (by omega)] at he
    exact hs.cwd.root e he
  have hcwd : ∀ id ∈ inodes (dirs.take k ++ own).tail, id.isFound := by
    intro id hid
    rw [tail_append_of_ne_nil (ne_nil_of_length_pos htake), inodes_append] at hid
    rcases mem_append.1 hid with hmem | hmem
    · refine hs.cwd.found id ?_
      rw [← drop_one, drop_take, drop_one] at hmem
      exact ((take_sublist _ _).map _).subset hmem
    · exact ht.found id hmem
  refine ⟨dirs.take k ++ own, s.movedTo t (dirs.drop k),
    ⟨⟨hmoved.holds, hmoved.recursion, hmoved.pos, hroot, hcwd⟩, ?_⟩,
    .inl ⟨(), chdir_rest_run ht hs.cwd.inDirs⟩⟩
  rw [show inodes ([] : List (Traversal δ)) = [] from rfl, append_nil]
  exact hP.congr haccount rfl rfl rfl

/-- **One call.** It ends with a result or an error code, and owns what it leaves in `cwd`. -/
theorem PathCall.settles (call : PathCall) (hs : s.AccountedBy P dirs []) :
    Settles P (call.run env) s := by
  have hdrop : ∀ {β : Type} {x : FsM δ β}, Settles P x s → Settles P (x >>= fun _ => pure ()) s := by
    rintro β x ⟨dirs', s', hs', ⟨a, hok⟩ | ⟨r, herr⟩⟩
    · exact ⟨dirs', s', hs', .inl ⟨(), by rw [bind_of_ok hok]; rfl⟩⟩
    · exact ⟨dirs', s', hs', .inr ⟨r, bind_of_error herr⟩⟩
  cases call with
  | realpath path given => exact hdrop (realpath_settles hP path given hs)
  | «open» path flags => exact hdrop (open_settles hP path flags hs)
  | opendir path => exact hdrop (opendir_settles hP path hs)
  | chdir path => exact chdir_settles hP path hs

end Accounts

theorem Settles.exec {call : PathCall} (h : Settles P (call.run env) s) :
    ∃ dirs, (call.exec env s).AccountedBy P dirs [] := by
  obtain ⟨dirs, s', hs', hrun⟩ := h
  unfold PathCall.exec
  rcases hrun with ⟨a, hok⟩ | ⟨r, herr⟩
  · rw [hok]
    exact ⟨dirs, hs'⟩
  · rw [herr]
    exact ⟨dirs, hs'⟩

theorem Settles.not_fault {x : FsM δ α} {e : FsError} {s' : FsState δ} (h : Settles P x s)
    (hrun : x s = .error e s') : e.isFault = false := by
  obtain ⟨_, _, _, ⟨a, hok⟩ | ⟨r, herr⟩⟩ := h
  · rw [hok] at hrun
    cases hrun
  · rw [herr] at hrun
    cases hrun
    rfl

end LibTransistor
