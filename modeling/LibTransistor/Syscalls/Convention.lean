import LibTransistor.Fd.Alloc
import LibTransistor.Syscalls.Files

/-!
# How the entry points fail

A POSIX call succeeds with a value that is not negative, or returns -1 and stores a positive value
to `errno`; a descriptor without a file is refused with `EBADF`. `SysCall.Sound` says for which of
what can happen below them the entry points of `Syscalls.Files` do so (`conforms_iff`).
-/

namespace LibTransistor

open Stateful

variable {i : Slot} {p : FilePtr}

variable {oldfd newfd v : Int}

variable {σ : Type}

/-! ## The convention -/

/-- A value that is not negative, or -1 and a positive `errno`. -/
def Conventional (r : Return) (errno : Option Int) : Prop :=
  (∃ v, r = .value v ∧ 0 ≤ v) ∨ r = .value (-1) ∧ ∃ e, errno = some e ∧ 0 < e

/-- No file is behind the descriptor: it is out of range, or its slot is empty. -/
def FdState.NoFile (s : FdState) (fd : Int) : Prop := ∀ i, slotOf fd = some i → s.files i = none

/-- The files and the references to them are the same. -/
structure FdState.SameFiles (s s' : FdState) : Prop where
  files : s'.files = s.files
  mem : s'.mem = s.mem
  live : s'.live = s.live
  log : s'.log = s.log

/-- A call from `s` to `s'` returns -1 with `EBADF` and has touched no file. -/
structure Refused (r : Return) (s s' : SysState σ) : Prop where
  value : r = .value (-1)
  errno : s'.errno = some Errno.ebadf
  table : s.table.SameFiles s'.table
  objects : s'.objects = s.objects
  called : s'.called = s.called

/-- The call has a descriptor, and there is no file behind it. -/
def SysCall.NoFile (table : FdState) : SysCall → Prop
  | .open _ _ | .socketFromBsd _ _ _ => False
  | .close fd | .lseek fd _ _ | .read fd _ _ | .write fd _ _ | .connect fd _ _ => table.NoFile fd
  | .dup2 oldfd _ => table.NoFile oldfd

/-- The call keeps to the convention. -/
structure SysCall.Conforms (env : SysEnv σ) (table : FdState) (objects : σ) (call : SysCall) :
    Prop where
  conventional : Conventional (call.run env (.start table objects)).1
    (call.run env (.start table objects)).2.errno
  refused : call.NoFile table → Refused (call.run env (.start table objects)).1
    (.start table objects) (call.run env (.start table objects)).2

/-! ## When it is kept -/

/-- What a file operation returns is a count, or becomes a positive `int`. -/
def Reportable (res : BitVec 64) : Prop := 0 ≤ res.toInt ∨ 0 < ((-res).setWidth 32).toInt

/-- If there is a file and the operation is not `NULL`, its result can be reported. -/
def OpReports (table : FdState) (objects : σ) (fd : Int)
    (op : Addr → Addr → Option (StateM σ (BitVec 64))) : Prop :=
  ∀ i p x, slotOf fd = some i → table.files i = some p →
    op (table.mem p.addr).ops (table.mem p.addr).data = some x → Reportable (x objects).1

/-- The compare-exchange of `fd_create_file` succeeds somewhere: slot 10 is empty, or two
neighbouring slots behind it are alike. -/
def FdState.HasPlace (s : FdState) : Prop :=
  (∃ i : Slot, i.val = 10 ∧ (s.fds i).file = none) ∨
    ∃ i j : Slot, 10 ≤ i.val ∧ j.val = i.val + 1 ∧ samePtr (s.fds j).file (s.fds i).file = true

/-- There is a file whose `data` can be read, and if it is a socket, a failure of `bsd_connect` has
left a positive `bsd_errno`. -/
def Connects (env : SysEnv σ) (table : FdState) (objects : σ) (fd : Int) (address : Addr)
    (addressLen : BitVec 32) : Prop :=
  ∃ i p bsdFd, slotOf fd = some i ∧ table.files i = some p ∧
    env.loadInt objects (table.mem p.addr).data = some bsdFd ∧
    ((table.mem p.addr).ops = env.socketFops →
      (env.bsdConnect bsdFd address addressLen objects).1.1.toInt < 0 →
        0 < (env.bsdConnect bsdFd address addressLen objects).1.2.toInt)

/-- `trn_fs_open` has opened a descriptor that is not negative, or has failed with an error that has
a `return` of its own. -/
def Opens (r : ResultT) (fd : BitVec 32) : Prop :=
  if r = resultOk then 0 ≤ fd.toInt else r ≠ Err.fsNotADirectory ∧ r ≠ Err.fsNotFound

/-- What the convention depends on. -/
def SysCall.Sound (env : SysEnv σ) (table : FdState) (objects : σ) : SysCall → Prop
  | .open name flags =>
    Opens (env.trnFsOpen name flags (table, objects)).1.1
      (env.trnFsOpen name flags (table, objects)).1.2
  | .close _ => True
  | .lseek fd pos whence =>
    OpReports table objects fd fun ops data => (env.llseek ops).map fun op => op data pos whence
  | .read fd ptr len =>
    OpReports table objects fd fun ops data => (env.read ops).map fun op => op data ptr len
  | .write fd ptr len =>
    OpReports table objects fd fun ops data => (env.write ops).map fun op => op data ptr len
  | .dup2 oldfd newfd => ¬ (oldfd = newfd ∧ slotOf oldfd ≠ none ∧ table.NoFile oldfd)
  | .connect fd address addressLen => Connects env table objects fd address addressLen
  | .socketFromBsd _ memory block => memory = none ∨ block ≠ none ∧ table.HasPlace

/-! ## The table -/

section Table

variable {table : FdState} {fd : Int}

theorem FdState.noFile_or (table : FdState) (fd : Int) :
    table.NoFile fd ∨ ∃ i p, slotOf fd = some i ∧ table.files i = some p := by
  cases hs : slotOf fd with
  | none =>
    refine .inl fun i hi => ?_
    rw [hs] at hi
    cases hi
  | some i =>
    cases hf : table.files i with
    | none =>
      refine .inl fun j hj => ?_
      rw [hs] at hj
      cases hj
      exact hf
    | some p => exact .inr ⟨i, p, rfl, hf⟩

theorem FdState.not_noFile (hs : slotOf fd = some i) (hf : table.files i = some p) :
    ¬ table.NoFile fd := by
  intro h
  rw [h i hs] at hf
  cases hf

theorem fdFileGet_noFile (h : table.NoFile fd) :
    ∃ table', fdFileGet fd table = (none, table') ∧ table.SameFiles table' := by
  cases hs : slotOf fd with
  | none => exact ⟨table, fdFileGet_invalid hs table, rfl, rfl, rfl, rfl⟩
  | some i => exact ⟨_, fdFileGet_empty hs (h i hs), by simp, rfl, rfl, rfl⟩

theorem fdFileGet_file (hs : slotOf fd = some i) (hf : table.files i = some p) :
    ∃ table', fdFileGet fd table = (some p, table') ∧ table'.files = table.files ∧
      (table'.mem p.addr).ops = (table.mem p.addr).ops ∧
      (table'.mem p.addr).data = (table.mem p.addr).data := by
  refine ⟨_, fdFileGet_some hs hf, ?_, ?_, ?_⟩
  · rw [FdState.files_setLock]
    exact FdState.files_setLock table i 1
  · simp [FdState.setLock, FdState.takeRef]
  · simp [FdState.setLock, FdState.takeRef]

theorem fdClose_noFile (h : table.NoFile fd) :
    ∃ table', fdClose fd table = (-Errno.ebadf, table') ∧ table.SameFiles table' := by
  cases hs : slotOf fd with
  | none => exact ⟨table, fdClose_invalid hs table, rfl, rfl, rfl, rfl⟩
  | some i =>
    refine ⟨_, fdClose_empty hs (h i hs), ?_, rfl, rfl, rfl⟩
    rw [FdState.files_setFile, FdState.files_setLock, ← h i hs, Function.update_eq_self]

theorem probe_lt_iff (table : FdState) : probe table.fds 10 none < 1024 ↔ table.HasPlace := by
  by_cases h10 : (table.fds 10).file = none
  · rw [probe_of_free h10]
    exact iff_of_true (by decide) (.inl ⟨10, rfl, h10⟩)
  · rw [probe_of_occupied h10]
    constructor
    · intro hlt
      obtain ⟨k, hk, hj, hsame⟩ := samePtr_of_probe (i := 10) (j := ⟨_, hlt⟩) rfl
      exact .inr ⟨k, _, hk, hj, hsame⟩
    · rintro (⟨i, hi, hnone⟩ | ⟨i, j, hi, hj, hsame⟩)
      · have hten : i = 10 := Fin.ext hi
        exact absurd (hten ▸ hnone) h10
      · exact probe_of_same (i := 10) hi hj hsame

end Table

/-! ## One entry point at a time -/

section Calls

variable {env : SysEnv σ} {table : FdState} {objects : σ} {fd : Int}

/-- What a call leaves keeps to the convention. -/
abbrev Reports (x : Return × SysState σ) : Prop := Conventional x.1 x.2.errno

/-- Where there is a file, or no descriptor, only the outcome counts. -/
theorem conforms_iff_reports {call : SysCall} (h : ¬ call.NoFile table) :
    call.Conforms env table objects ↔ Reports (call.run env (.start table objects)) :=
  ⟨fun hc => hc.conventional, fun hc => ⟨hc, fun hno => absurd hno h⟩⟩

theorem conventional_failWith (e : Int) (s : SysState σ) : Reports (failWith e s) ↔ 0 < e := by
  constructor
  · rintro (⟨v, hv, hle⟩ | ⟨-, e', he, hpos⟩)
    · cases hv
      cases hle
    · cases he
      exact hpos
  · intro hpos
    exact .inr ⟨rfl, e, rfl, hpos⟩

theorem conventional_value (h : 0 ≤ v) (errno : Option Int) :
    Conventional (.value v) errno := .inl ⟨v, rfl, h⟩

section ThroughFile

variable {op : Addr → Addr → Option (StateM σ (BitVec 64))}

theorem throughFile_noFile (h : table.NoFile fd) :
    Refused (throughFile fd op (.start table objects)).1 (.start table objects)
      (throughFile fd op (.start table objects)).2 := by
  obtain ⟨table', hget, hsame⟩ := fdFileGet_noFile h
  have hrun : throughFile fd op (.start table objects) =
      failWith Errno.ebadf ⟨table', objects, none, []⟩ := by
    unfold throughFile
    rw [bind_run]
    simp only [onTable, SysState.start, hget]
  rw [hrun]
  exact ⟨rfl, rfl, hsame, rfl, rfl⟩

/-- What an operation of a file returns, or what is returned in its place. -/
def opResult (objects : σ) : Option (StateM σ (BitVec 64)) → BitVec 64
  | none => BitVec.ofInt 64 (-Errno.enosys)
  | some x => (x objects).1

theorem callOp_run (f : FilePtr) (o : Option (StateM σ (BitVec 64))) (s : SysState σ) :
    ∃ s', callOp f o s = (opResult s.objects o, s') ∧ s'.errno = s.errno := by
  cases o with
  | none => exact ⟨s, rfl, rfl⟩
  | some x => exact ⟨{ s with called := f :: s.called, objects := (x s.objects).2 }, rfl, rfl⟩

/-- What the file operation returns, and not what it did, decides how the call ends. -/
theorem throughFile_file (hs : slotOf fd = some i) (hf : table.files i = some p) {res : BitVec 64}
    (hres : opResult objects (op (table.mem p.addr).ops (table.mem p.addr).data) = res) :
    ∃ s, s.errno = none ∧ throughFile fd op (.start table objects) =
      if res.toInt < 0 then failWith ((-res).setWidth 32).toInt s else (.value res.toInt, s) := by
  obtain ⟨table', hget, -, hops, hdata⟩ := fdFileGet_file hs hf
  obtain ⟨s, hcall, herrno⟩ := callOp_run p (op (table.mem p.addr).ops (table.mem p.addr).data)
    ⟨table', objects, none, []⟩
  rw [hres] at hcall
  refine ⟨{ s with table := (fdFilePut (some p) s.table).2 }, herrno, ?_⟩
  unfold throughFile
  rw [bind_run]
  simp only [onTable, SysState.start, hget]
  rw [get_bind_run, hops, hdata, bind_run, hcall]
  split_ifs <;> rfl

theorem opReports_iff (hs : slotOf fd = some i) (hf : table.files i = some p) :
    OpReports table objects fd op ↔
      Reportable (opResult objects (op (table.mem p.addr).ops (table.mem p.addr).data)) := by
  constructor
  · intro h
    cases hop : op (table.mem p.addr).ops (table.mem p.addr).data with
    | none =>
      have henosys : Reportable (BitVec.ofInt 64 (-Errno.enosys)) := .inr (by decide)
      exact henosys
    | some x => exact h i p x hs hf hop
  · intro h i' p' x hs' hf' hop
    rw [hs] at hs'
    cases hs'
    rw [hf] at hf'
    cases hf'
    rw [hop] at h
    exact h

theorem throughFile_conventional_iff :
    Reports (throughFile fd op (.start table objects)) ↔ OpReports table objects fd op := by
  rcases table.noFile_or fd with h | ⟨i, p, hs, hf⟩
  · refine iff_of_true (.inr ⟨(throughFile_noFile h).value, _, (throughFile_noFile h).errno,
      by decide⟩) ?_
    intro i p x hs hf
    exact absurd h (FdState.not_noFile hs hf)
  · rw [opReports_iff hs hf]
    generalize hres : opResult objects (op (table.mem p.addr).ops (table.mem p.addr).data) = res
    obtain ⟨s, hnone, hrun⟩ := throughFile_file hs hf hres
    rw [hrun]
    unfold Reportable
    split_ifs with hneg
    · rw [conventional_failWith, or_iff_right (by omega)]
    · exact iff_of_true (conventional_value (by omega) _) (.inl (by omega))

theorem throughFile_conforms_iff :
    (Reports (throughFile fd op (.start table objects)) ∧
      (table.NoFile fd → Refused (throughFile fd op (.start table objects)).1
        (.start table objects) (throughFile fd op (.start table objects)).2)) ↔
      OpReports table objects fd op := by
  rw [throughFile_conventional_iff]
  exact and_iff_left throughFile_noFile

end ThroughFile

theorem closeR_conforms : SysCall.Conforms env table objects (.close fd) := by
  have hrun : (SysCall.close fd).run env (.start table objects) =
      (if (fdClose fd table).1 < 0 then failWith (-(fdClose fd table).1) else pure (.value 0))
        ⟨(fdClose fd table).2, objects, none, []⟩ := rfl
  constructor
  · rw [hrun]
    split_ifs with hneg
    · exact (conventional_failWith _ _).2 (by omega)
    · exact conventional_value (Int.le_refl 0) _
  · intro h
    obtain ⟨table', hclose, hsame⟩ := fdClose_noFile h
    rw [hrun, hclose]
    exact ⟨rfl, rfl, hsame, rfl, rfl⟩

theorem not_conventional {r : Return} (h : ∀ v, r ≠ .value v) (errno : Option Int) :
    ¬ Conventional r errno := by
  rintro (⟨v, hv, -⟩ | ⟨hv, -⟩)
  · exact h v hv
  · exact h _ hv

theorem conventional_value_none : Conventional (.value v) none ↔ 0 ≤ v := by
  constructor
  · rintro (⟨w, hw, hle⟩ | ⟨-, e, he, -⟩)
    · cases hw
      exact hle
    · cases he
  · intro h
    exact conventional_value h none

theorem openSwitch_conventional_iff (r : ResultT) (fd : BitVec 32) {s : SysState σ}
    (hs : s.errno = none) : Reports (openSwitch r fd s) ↔ Opens r fd := by
  unfold openSwitch Opens
  split_ifs with hok hdir hfound
  · show Conventional (.value fd.toInt) s.errno ↔ _
    rw [hs]
    exact conventional_value_none
  · exact iff_of_false (not_conventional (by nofun) _) fun h => h.1 hdir
  · exact iff_of_false (not_conventional (by nofun) _) fun h => h.2 hfound
  · rw [conventional_failWith]
    exact iff_of_true (by decide) ⟨hdir, hfound⟩

theorem openR_conforms_iff {name : CString} {flags : BitVec 32} :
    SysCall.Conforms env table objects (.open name flags) ↔
      SysCall.Sound env table objects (.open name flags) :=
  (conforms_iff_reports id).trans (openSwitch_conventional_iff _ _ rfl)

theorem dup2R_of_error {e : Int} {table' : FdState}
    (h : dup2 oldfd newfd table = (.error e, table')) :
    (SysCall.dup2 oldfd newfd).run env (.start table objects) =
      failWith e ⟨table', objects, none, []⟩ := by
  show dup2R oldfd newfd _ = _
  unfold dup2R
  rw [bind_run]
  simp only [onTable, SysState.start, h]

theorem dup2R_of_ok {table' : FdState} (h : dup2 oldfd newfd table = (.ok v, table')) :
    (SysCall.dup2 oldfd newfd).run env (.start table objects) =
      (.value v, ⟨table', objects, none, []⟩) := by
  show dup2R oldfd newfd _ = _
  unfold dup2R
  rw [bind_run]
  simp only [onTable, SysState.start, h]
  rfl

/-- `dup2` of a descriptor without a file is refused, unless it is a descriptor to itself. -/
theorem dup2_noFile (h : table.NoFile oldfd) (hne : ¬ (oldfd = newfd ∧ slotOf oldfd ≠ none)) :
    ∃ table', dup2 oldfd newfd table = (.error Errno.ebadf, table') ∧ table.SameFiles table' := by
  cases ho : slotOf oldfd with
  | none => exact ⟨table, dup2_invalid (.inl ho) table, rfl, rfl, rfl, rfl⟩
  | some i =>
    cases hn : slotOf newfd with
    | none => exact ⟨table, dup2_invalid (.inr hn) table, rfl, rfl, rfl, rfl⟩
    | some j =>
      have hne' : oldfd ≠ newfd := by
        intro heq
        exact hne ⟨heq, by rw [ho]; exact Option.some_ne_none i⟩
      obtain ⟨table', hget, hsame⟩ := fdFileGet_noFile h
      exact ⟨table', dup2_none ho hn hne' hget, hsame⟩

theorem slotOf_nonneg (h : slotOf fd = some i) : 0 ≤ fd := by
  unfold slotOf at h
  split_ifs at h with hfd
  exact hfd.1

/-- Past the two range checks, `dup2` of a file succeeds. -/
theorem dup2_file (hs : slotOf oldfd = some i) (hf : table.files i = some p) (newfd : Int) :
    (∃ table', dup2 oldfd newfd table = (.error Errno.ebadf, table')) ∨
      ∃ table', dup2 oldfd newfd table = (.ok newfd, table') ∧ 0 ≤ newfd := by
  cases hn : slotOf newfd with
  | none => exact .inl ⟨table, dup2_invalid (.inr hn) table⟩
  | some j =>
    by_cases heq : oldfd = newfd
    · subst heq
      exact .inr ⟨table, dup2_same hs table, slotOf_nonneg hs⟩
    · exact .inr ⟨_, dup2_some hs hn heq (fdFileGet_some hs hf), slotOf_nonneg hn⟩

theorem dup2R_conforms_iff :
    SysCall.Conforms env table objects (.dup2 oldfd newfd) ↔
      SysCall.Sound env table objects (.dup2 oldfd newfd) := by
  constructor
  · intro h hself
    obtain ⟨rfl, hvalid, hno⟩ := hself
    obtain ⟨i, hi⟩ := Option.ne_none_iff_exists'.1 hvalid
    have hvalue := (h.refused hno).value
    rw [dup2R_of_ok (dup2_same hi table)] at hvalue
    have hnonneg := slotOf_nonneg hi
    cases hvalue
    cases hnonneg
  · intro hnot
    rcases table.noFile_or oldfd with hno | ⟨i, p, hs, hf⟩
    · obtain ⟨table', hdup, hsame⟩ :=
        dup2_noFile hno fun h => hnot ⟨h.1, h.2, hno⟩
      refine ⟨?_, fun _ => ?_⟩
      · rw [dup2R_of_error hdup]
        exact (conventional_failWith _ _).2 (by decide)
      · rw [dup2R_of_error hdup]
        exact ⟨rfl, rfl, hsame, rfl, rfl⟩
    · refine ⟨?_, fun hno => absurd hno (FdState.not_noFile hs hf)⟩
      rcases dup2_file hs hf newfd with ⟨table', hdup⟩ | ⟨table', hdup, hnonneg⟩
      · rw [dup2R_of_error hdup]
        exact (conventional_failWith _ _).2 (by decide)
      · rw [dup2R_of_ok hdup]
        exact conventional_value hnonneg _

theorem connect_noFile (env : SysEnv σ) (h : table.NoFile fd) (address : Addr)
    (addressLen : BitVec 32) : (connect env fd address addressLen (.start table objects)).1 = .crash := by
  obtain ⟨table', hget, -⟩ := fdFileGet_noFile h
  unfold connect
  rw [bind_run]
  simp only [onTable, SysState.start, hget]
  rfl

theorem connect_file (env : SysEnv σ) (objects : σ) (hs : slotOf fd = some i)
    (hf : table.files i = some p) (address : Addr) (addressLen : BitVec 32) :
    ∃ table', connect env fd address addressLen (.start table objects) =
      match env.loadInt objects (table.mem p.addr).data with
      | none => (.crash, ⟨table', objects, none, []⟩)
      | some bsdFd => connectSocket env (table.mem p.addr).ops bsdFd address addressLen
          ⟨(fdFilePut (some p) table').2, objects, none, []⟩ := by
  obtain ⟨table', hget, -, hops, hdata⟩ := fdFileGet_file hs hf
  refine ⟨table', ?_⟩
  unfold connect
  rw [bind_run]
  simp only [onTable, SysState.start, hget]
  rw [get_bind_run, hdata, hops]
  cases env.loadInt objects (table.mem p.addr).data <;> rfl

theorem connectSocket_conventional_iff (ops : Addr) (bsdFd : BitVec 32) (address : Addr)
    (addressLen : BitVec 32) (s : SysState σ) :
    Reports (connectSocket env ops bsdFd address addressLen s) ↔
      (ops = env.socketFops → (env.bsdConnect bsdFd address addressLen s.objects).1.1.toInt < 0 →
        0 < (env.bsdConnect bsdFd address addressLen s.objects).1.2.toInt) := by
  unfold connectSocket
  by_cases hops : ops = env.socketFops
  · rw [if_neg (not_not.2 hops), bind_run]
    split_ifs with hneg
    · rw [conventional_failWith]
      exact ⟨fun h _ _ => h, fun h => h hops hneg⟩
    · exact iff_of_true (conventional_value (Int.le_refl 0) _) fun _ h => absurd h hneg
  · rw [if_pos hops, conventional_failWith]
    exact iff_of_true (by decide) fun h => absurd h hops

theorem connect_conforms_iff {address : Addr} {addressLen : BitVec 32} :
    SysCall.Conforms env table objects (.connect fd address addressLen) ↔
      SysCall.Sound env table objects (.connect fd address addressLen) := by
  show _ ↔ Connects env table objects fd address addressLen
  rcases table.noFile_or fd with hno | ⟨i, p, hs, hf⟩
  · refine iff_of_false (fun h => ?_) ?_
    · have hconv := h.conventional
      rw [show ((SysCall.connect fd address addressLen).run env (.start table objects)).1 = .crash
        from connect_noFile env hno address addressLen] at hconv
      exact not_conventional (by nofun) _ hconv
    · rintro ⟨i, p, -, hs, hf, -⟩
      exact FdState.not_noFile hs hf hno
  · obtain ⟨table', hrun⟩ := connect_file env objects hs hf address addressLen
    have hconforms : SysCall.Conforms env table objects (.connect fd address addressLen) ↔
        Reports (connect env fd address addressLen (.start table objects)) :=
      conforms_iff_reports (FdState.not_noFile hs hf)
    have hconnects : Connects env table objects fd address addressLen ↔
        ∃ bsdFd, env.loadInt objects (table.mem p.addr).data = some bsdFd ∧
          ((table.mem p.addr).ops = env.socketFops →
            (env.bsdConnect bsdFd address addressLen objects).1.1.toInt < 0 →
              0 < (env.bsdConnect bsdFd address addressLen objects).1.2.toInt) := by
      constructor
      · rintro ⟨i', p', bsdFd, hs', hf', h⟩
        rw [hs] at hs'
        cases hs'
        rw [hf] at hf'
        cases hf'
        exact ⟨bsdFd, h⟩
      · rintro ⟨bsdFd, h⟩
        exact ⟨i, p, bsdFd, hs, hf, h⟩
    rw [hconforms, hrun, hconnects]
    cases env.loadInt objects (table.mem p.addr).data with
    | none => exact iff_of_false (not_conventional (by nofun) _) (by simp)
    | some bsdFd =>
      simp only [Option.some.injEq, exists_eq_left']
      exact connectSocket_conventional_iff _ _ _ _ _

theorem socketFromBsd_conforms_iff {bsdFd : BitVec 32} {memory block : Option Addr} :
    SysCall.Conforms env table objects (.socketFromBsd bsdFd memory block) ↔
      SysCall.Sound env table objects (.socketFromBsd bsdFd memory block) := by
  have hconforms : SysCall.Conforms env table objects (.socketFromBsd bsdFd memory block) ↔
      Reports (socketFromBsd env bsdFd memory block (.start table objects)) :=
    conforms_iff_reports id
  rw [hconforms]
  cases memory with
  | none => exact iff_of_true (.inr ⟨rfl, _, rfl, by decide⟩) (.inl rfl)
  | some a =>
    have hrun : socketFromBsd env bsdFd (some a) block (.start table objects) =
        (if (fdCreateFile env.socketFops a block table).1 < 0
          then failWith (fdCreateFile env.socketFops a block table).1
          else pure (.value (fdCreateFile env.socketFops a block table).1))
        ⟨(fdCreateFile env.socketFops a block table).2, (env.storeInt a bsdFd objects).2, none, []⟩ :=
      rfl
    have hsound : SysCall.Sound env table objects (.socketFromBsd bsdFd (some a) block) ↔
        ¬ (fdCreateFile env.socketFops a block table).1 < 0 := by
      show some a = none ∨ block ≠ none ∧ table.HasPlace ↔ _
      rw [← probe_lt_iff]
      cases block with
      | none => simp [fdCreateFile_enomem env.socketFops_ne, Errno.enomem]
      | some b =>
        rw [fdCreateFile_run a b table env.socketFops_ne]
        split_ifs with hlt
        · simp [hlt]
        · simp [hlt, Errno.enosys]
    rw [hrun, hsound]
    split_ifs with hneg
    · rw [conventional_failWith]
      exact iff_of_false (by omega) (not_not.2 hneg)
    · exact iff_of_true (conventional_value (by omega) _) hneg

end Calls

/-- **How the entry points fail.** For every table, all arguments and whatever happens below, a call
keeps to the convention if and only if it is one of those in `SysCall.Sound`. -/
theorem conforms_iff (env : SysEnv σ) (table : FdState) (objects : σ) (call : SysCall) :
    call.Conforms env table objects ↔ call.Sound env table objects := by
  cases call with
  | «open» name flags => exact openR_conforms_iff
  | close fd => exact iff_of_true closeR_conforms trivial
  | lseek fd pos whence =>
    rw [SysCall.Sound, ← throughFile_conforms_iff]
    exact ⟨fun h => ⟨h.conventional, h.refused⟩, fun h => ⟨h.1, h.2⟩⟩
  | read fd ptr len =>
    rw [SysCall.Sound, ← throughFile_conforms_iff]
    exact ⟨fun h => ⟨h.conventional, h.refused⟩, fun h => ⟨h.1, h.2⟩⟩
  | write fd ptr len =>
    rw [SysCall.Sound, ← throughFile_conforms_iff]
    exact ⟨fun h => ⟨h.conventional, h.refused⟩, fun h => ⟨h.1, h.2⟩⟩
  | dup2 oldfd newfd => exact dup2R_conforms_iff
  | connect fd address addressLen => exact connect_conforms_iff
  | socketFromBsd bsdFd memory block => exact socketFromBsd_conforms_iff

/-- No files, and no names that are found. -/
def bareEnv : SysEnv Unit where
  llseek _ := none
  read _ := none
  write _ := none
  trnFsOpen _ _ := pure (Err.fsNotFound, 0#32)
  loadInt _ _ := none
  storeInt _ _ := pure ()
  bsdConnect _ _ _ := pure (0#32, 0#32)
  socketFops := 0x1000#64
  socketFops_ne := by decide

/-- With the empty table `_open_r("a")` ends without a `return` and with -2 in `errno`, `dup2(3, 3)`
returns 3, `connect(3)` follows a null pointer, and `socket_from_bsd(5)` leaves -12 in `errno` when
there is no memory for the file. -/
theorem bare_calls_fail :
    ((SysCall.open ⟨[0x61#8], by decide⟩ 0).run bareEnv (.start FdWorld.empty.table ())).1 = .undefined ∧
    ((SysCall.dup2 3 3).run bareEnv (.start FdWorld.empty.table ())).1 = .value 3 ∧
    ((SysCall.connect 3 0 0).run bareEnv (.start FdWorld.empty.table ())).1 = .crash ∧
    ((SysCall.socketFromBsd 5 (some 0x2000) none).run bareEnv
      (.start FdWorld.empty.table ())).2.errno = some (-12) ∧
    ∀ call ∈ [SysCall.open ⟨[0x61#8], by decide⟩ 0, .dup2 3 3, .connect 3 0 0,
      .socketFromBsd 5 (some 0x2000) none], ¬ call.Conforms bareEnv FdWorld.empty.table () := by
  have hempty : FdWorld.empty.table.NoFile 3 := fun _ _ => rfl
  refine ⟨rfl, ?_, connect_noFile bareEnv hempty 0 0, rfl, ?_⟩
  · rw [dup2R_of_ok (dup2_same rfl _)]
  · simp only [List.forall_mem_cons, openR_conforms_iff, dup2R_conforms_iff, connect_conforms_iff,
      socketFromBsd_conforms_iff]
    refine ⟨?_, ?_, ?_, ?_, fun _ h => absurd h List.not_mem_nil⟩
    · show ¬ Opens Err.fsNotFound 0#32
      unfold Opens
      decide
    · exact not_not.2 ⟨rfl, by decide, hempty⟩
    · rintro ⟨i, p, -, hs, hf, -⟩
      exact FdState.not_noFile hs hf hempty
    · rintro (h | h)
      · cases h
      · exact h.1 rfl

end LibTransistor
