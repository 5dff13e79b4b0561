import LibTransistor.Fs.Accounts

/-!
# No inode is lost

What the ledger says is owned, `Books`, is an account of inodes as long as `malloc` succeeds:
`books_account`. So after each call of a run the inodes that are owned are those of the current
directory, and `inode_balance` reads the rest off the books.
-/

namespace LibTransistor

open Fallible Ledger List

variable {δ : Type} {env : FsEnv δ}

/-! ## Accounts -/

namespace FsState

/-- The inodes `ids` are owned. Each was acquired once, and no root was given up. -/
structure Books (s : FsState δ) (ids : List InodeId) : Prop where
  owns : Owns s.ledger ids
  past : ∀ id, .acquired id ∈ s.ledger → id.time < s.clock
  once : ∀ id, s.ledger.count (.acquired id) ≤ 1
  roots : ∀ n, .acquired (.root n) ∈ s.ledger → .root n ∈ ids

namespace Books

variable {s : FsState δ} {ids rest : List InodeId} {id : InodeId}

theorem not_mem_now (h : s.Books ids) : .acquired (.found s.clock) ∉ s.ledger := fun hmem =>
  Nat.lt_irrefl _ (h.past _ hmem)

theorem perm (h : s.Books ids) (hp : ids.Perm rest) : s.Books rest :=
  ⟨h.owns.perm hp, h.past, h.once, fun n hn => hp.mem_iff.1 (h.roots n hn)⟩

theorem later (h : s.Books ids) : ({ s with clock := s.clock + 1 } : FsState δ).Books ids :=
  ⟨h.owns, fun id hid => Nat.lt_succ_of_lt (h.past id hid), h.once, h.roots⟩

theorem use (h : s.Books ids) (hid : id ∈ ids) :
    ({ s with ledger := .used id :: s.ledger } : FsState δ).Books ids where
  owns := h.owns.use hid
  past id hid := h.past id (by simpa using hid)
  once id := by simpa using h.once id
  roots n hn := h.roots n (by simpa using hn)

theorem acquire (h : s.Books ids) :
    ({ s with
      clock := s.clock + 1
      ledger := .acquired (.found s.clock) :: s.ledger } : FsState δ).Books
        (.found s.clock :: ids) where
  owns := h.owns.acquire fun hmem => by
    have hcount := h.owns.proper.count_acquired (.found s.clock)
    have hheld := count_pos_iff.2 (h.owns.mem_iff.2 hmem)
    rw [count_eq_zero_of_not_mem h.not_mem_now] at hcount
    omega
  past id hid := by
    rcases mem_cons.1 hid with heq | hmem
    · cases heq
      exact Nat.lt_succ_self _
    · exact Nat.lt_succ_of_lt (h.past id hmem)
  once id := by
    rw [count_cons]
    by_cases hid : Event.acquired (.found s.clock) = .acquired id
    · rw [← hid, count_eq_zero_of_not_mem h.not_mem_now]
      simp
    · rw [if_neg (by simpa using hid)]
      exact h.once id
  roots n hn := mem_cons_of_mem _ (h.roots n (by simpa using hn))

theorem release (ids' : List InodeId) (h : s.Books ids) (hp : ids.Perm (ids' ++ rest))
    (hfound : ∀ id ∈ ids', id.isFound) : (s.released ids').Books rest := by
  have hacq : ∀ id, .acquired id ∈ (s.released ids').ledger ↔ .acquired id ∈ s.ledger := by
    simp [released]
  refine ⟨h.owns.disposeAll hp, fun id hid => h.past id ((hacq id).1 hid), fun id => ?_,
    fun n hn => ?_⟩
  · have hzero : ((ids'.map Event.disposed).reverse).count (.acquired id) = 0 :=
      count_eq_zero_of_not_mem (by simp)
    show ((ids'.map Event.disposed).reverse ++ s.ledger).count (.acquired id) ≤ 1
    rw [count_append, hzero, Nat.zero_add]
    exact h.once id
  · rcases mem_append.1 (hp.mem_iff.1 (h.roots n ((hacq _).1 hn))) with hmem | hmem
    · cases hfound _ hmem
    · exact hmem

end Books

/-- The current directory is `dirs`, and its inodes and those of `own` are owned. -/
structure Accounted (s : FsState δ) (dirs own : List (Traversal δ)) : Prop where
  cwd : s.Cwd dirs
  books : s.Books (inodes dirs ++ inodes own)

end FsState

theorem books_account (hmalloc : ∀ time, env.malloc time = true) :
    Account env (FsState.Books : FsState δ → List InodeId → Prop) where
  congr h _ hclock hledger := by
    refine ⟨hledger ▸ h.owns, fun id hid => ?_, hledger ▸ h.once, fun n hn => ?_⟩
    · rw [hclock]
      exact h.past id (hledger ▸ hid)
    · exact h.roots n (hledger ▸ hn)
  perm h hp := h.perm hp
  later h := h.later
  use h hid := h.use hid
  acquire h := h.acquire
  release ids' h hp hfound := h.release ids' hp hfound
  lose hfalse := by
    rw [hmalloc] at hfalse
    cases hfalse

/-! ## Runs -/

section Runs

variable {newRoot : δ} {s : FsState δ}

theorem accounted_init (h : (fsSystem env newRoot).init s) : ∃ dirs, s.Accounted dirs [] := by
  cases h
  have howns : Owns [.acquired (InodeId.root 0)] [InodeId.root 0] := Owns.nil.acquire (by simp)
  refine ⟨[⟨⟨newRoot, .root 0⟩, []⟩], ⟨⟨⟨by simp, fun i hi => ?_⟩, rfl, Nat.zero_lt_one, ?_, ?_⟩,
    ⟨howns, fun id hid => ?_, fun id => ?_, fun n hn => ?_⟩⟩⟩
  · have hzero : i = 0 := Fin.ext (Nat.lt_one_iff.1 hi)
    subst hzero
    rfl
  · rintro e ⟨⟩
    rfl
  · exact fun id hid => nomatch hid
  · have hid : id = .root 0 := by simpa [FsState.initial] using hid
    subst hid
    exact Nat.zero_lt_one
  · exact count_le_length
  · exact mem_singleton.2 (by simpa [FsState.initial] using hn)

theorem accounted_reachable (hmalloc : ∀ time, env.malloc time = true)
    (hs : (fsSystem env newRoot).Reachable s) : ∃ dirs, s.Accounted dirs [] := by
  refine hs.invariant (P := fun s => ∃ dirs, s.Accounted dirs []) (fun _ => accounted_init)
    fun s call s' ⟨dirs, h⟩ hstep => ?_
  obtain ⟨dirs', h'⟩ := (call.settles (books_account hmalloc) ⟨h.cwd, h.books⟩).exec
  rw [show s' = call.exec env s from hstep]
  exact ⟨dirs', h'.cwd, h'.account⟩

/-- What the ledger of inodes says after a call. -/
structure FsState.InodeBalance (s : FsState δ) : Prop where
  /-- The inodes that lookups have found and that are not released are those of
  `cwd[1..cwd_recursion]`. -/
  outstanding : ∀ id, id.isFound → (id ∈ held s.ledger ↔
    ∃ (i : Fin 256) (e : Traversal δ), 1 ≤ i.val ∧ i.val ≤ s.cwdRecursion ∧ s.cwd i = some e ∧
      e.inode.id = id)
  /-- Only what is held is used or released. -/
  proper : Proper s.ledger
  released_once : ∀ id, s.ledger.count (.disposed id) ≤ 1
  not_used_after_release : ∀ later earlier id,
    s.ledger = later ++ .used id :: earlier → .disposed id ∉ earlier
  root_kept : ∀ n, .disposed (.root n) ∉ s.ledger

theorem FsState.Accounted.mem_held_iff {dirs : List (Traversal δ)} (h : s.Accounted dirs [])
    {id : InodeId} (hid : id.isFound) : id ∈ held s.ledger ↔
      ∃ (i : Fin 256) (e : Traversal δ), 1 ≤ i.val ∧ i.val ≤ s.cwdRecursion ∧ s.cwd i = some e ∧
        e.inode.id = id := by
  rw [h.books.owns.mem_iff, show inodes ([] : List (Traversal δ)) = [] from rfl, append_nil]
  constructor
  · intro hmem
    obtain ⟨e, he, rfl⟩ := mem_map.1 hmem
    obtain ⟨i, hi, rfl⟩ := getElem_of_mem he
    have hle := h.cwd.holds.length_le
    -- the first entry is the root
    have hpos : i ≠ 0 := by
      rintro rfl
      rw [h.cwd.root _ (by rw [head?_eq_getElem?, getElem?_eq_getElem hi]; rfl)] at hid
      cases hid
    refine ⟨⟨i, by omega⟩, dirs[i], Nat.one_le_iff_ne_zero.2 hpos, ?_, ?_, rfl⟩
    · rw [h.cwd.recursion]
      show (i : Int) ≤ _
      omega
    · rw [h.cwd.holds.entry ⟨i, by omega⟩ hi]
      exact getElem?_eq_getElem hi
  · rintro ⟨i, e, -, hle, he, rfl⟩
    rw [h.cwd.recursion] at hle
    rw [h.cwd.holds.entry i (by omega)] at he
    exact mem_map_of_mem (mem_of_getElem? he)

theorem FsState.Accounted.balance {dirs : List (Traversal δ)} (h : s.Accounted dirs []) :
    s.InodeBalance where
  outstanding _ hid := h.mem_held_iff hid
  proper := h.books.owns.proper
  released_once id := h.books.owns.proper.count_disposed_le (h.books.once id)
  not_used_after_release later earlier id heq := by
    have hproper := h.books.owns.proper
    have honce := h.books.once id
    rw [heq] at hproper honce
    refine hproper.not_disposed_of_used (Nat.le_trans ?_ honce)
    exact ((sublist_cons_self _ _).trans (sublist_append_right _ _)).count_le _
  root_kept n hn := by
    have hproper := h.books.owns.proper
    refine hproper.not_mem_held (h.books.once _) hn (h.books.owns.mem_iff.2 (h.books.roots n ?_))
    have hcount := hproper.count_acquired (.root n)
    have hpos := count_pos_iff.2 hn
    exact count_pos_iff.1 (by omega)

/-- **Inode balance.** Whatever paths are walked and whatever the filesystem answers, after each
call the path layer holds exactly the inodes of the current directory, has released each other inode
once and used none after that, and has not released the root; and no call goes outside of an array
or calls an operation of an entry that was never written. -/
theorem inode_balance (hmalloc : ∀ time, env.malloc time = true)
    (hs : (fsSystem env newRoot).Reachable s) :
    s.InodeBalance ∧ ∀ (call : PathCall) e s', call.run env s = .error e s' → e.isFault = false := by
  obtain ⟨dirs, h⟩ := accounted_reachable hmalloc hs
  refine ⟨h.balance, fun call e s' hrun => ?_⟩
  exact (call.settles (books_account hmalloc) ⟨h.cwd, h.books⟩).not_fault hrun

/-- A change of directory, and a path from there whose last lookup fails. -/
def fourLevelsRun : FsState Nat :=
  (PathCall.realpath tooDeep false).exec fourLevels
    ((PathCall.chdir upAndDown).exec fourLevels fourLevelsRoot)

theorem fourLevels_balance :
    fourLevelsRun.InodeBalance ∧ held fourLevelsRun.ledger = [.found 3, .root 0] := by
  have hchdir : (fsSystem fourLevels 0).Reachable _ :=
    .step (.chdir upAndDown) (.init rfl) rfl
  have hrun : (fsSystem fourLevels 0).Reachable fourLevelsRun :=
    .step (.realpath tooDeep false) hchdir rfl
  exact ⟨(inode_balance (fun _ => rfl) hrun).1, by decide +kernel⟩

end Runs

end LibTransistor
