import LibTransistor.Fd.Table
import LibTransistor.Lib.Stateful
import Mathlib.Tactic.Common

/-!
# What the operations do

Each operation of `Fd.Table` as one change of the state, path by path. Nothing after this file looks
into the operations again.

An operation takes the lock of each slot it works on and stores 0 to it afterwards, with one
exception: `fdClose_empty`.
-/

namespace LibTransistor

open Stateful

variable {oldfd newfd : Int} {fops : Addr}

/-- The files in the slots. -/
def FdState.files (s : FdState) : Slot → Option FilePtr := fun i => (s.fds i).file

namespace FdState

variable (s : FdState)

@[simp] theorem files_setLock (i : Slot) (lock : Int) : (s.setLock i lock).files = s.files := by
  funext j
  unfold files
  rw [setLock_fds]
  split_ifs with h
  · rw [h]
  · rfl

theorem file_setLock (i : Slot) (lock : Int) :
    ((s.setLock i lock).fds i).file = s.files i := congrFun (s.files_setLock i lock) i

@[simp] theorem files_setFile (i : Slot) (file : Option FilePtr) :
    (s.setFile i file).files = Function.update s.files i file := by
  funext j
  unfold files
  rw [setFile_fds, Function.update_apply]
  split_ifs <;> rfl

/-- The state after `fd_file_put(p)`. -/
def put (p : FilePtr) : FdState :=
  if (s.mem p.addr).refcount = 1#32 then ((s.giveRef p).callRelease p).free p else s.giveRef p

end FdState

theorem lockLoop_eq (lock expected : Int) : lockLoop lock expected = 1 := by
  unfold lockLoop
  split_ifs
  · rfl
  · unfold lockLoop
    rw [if_pos rfl]

section Operations

variable {fd : Int} {i : Slot} {s : FdState} {p : FilePtr}

theorem lockFd_bind_run {β : Type} (i : Slot) (f : Unit → FdM β) (s : FdState) :
    (lockFd i >>= f) s = f () (s.setLock i 1) := by
  unfold lockFd
  rw [modify_bind_run, lockLoop_eq]

theorem fdFilePut_run (p : FilePtr) (s : FdState) : fdFilePut (some p) s = ((), s.put p) := by
  unfold FdState.put
  split_ifs with h
  · show (if (s.mem p.addr).refcount = 1#32 then _ else _ : FdM Unit) (s.giveRef p) = _
    rw [if_pos h]
    rfl
  · show (if (s.mem p.addr).refcount = 1#32 then _ else _ : FdM Unit) (s.giveRef p) = _
    rw [if_neg h]
    rfl

theorem fdFileGet_invalid (h : slotOf fd = none) (s : FdState) : fdFileGet fd s = (none, s) := by
  unfold fdFileGet
  rw [h]
  rfl

theorem fdFileGet_empty (h : slotOf fd = some i) (hf : s.files i = none) :
    fdFileGet fd s = (none, (s.setLock i 1).setLock i 0) := by
  unfold fdFileGet
  rw [h]
  dsimp only
  rw [lockFd_bind_run, get_bind_run, FdState.file_setLock, hf]
  rfl

theorem fdFileGet_some (h : slotOf fd = some i) (hf : s.files i = some p) :
    fdFileGet fd s = (some p, ((s.setLock i 1).takeRef p).setLock i 0) := by
  unfold fdFileGet
  rw [h]
  dsimp only
  rw [lockFd_bind_run, get_bind_run, FdState.file_setLock, hf]
  rfl

theorem fdClose_invalid (h : slotOf fd = none) (s : FdState) :
    fdClose fd s = (-Errno.ebadf, s) := by
  unfold fdClose
  rw [h]
  rfl

theorem fdClose_empty (h : slotOf fd = some i) (hf : s.files i = none) :
    fdClose fd s = (-Errno.ebadf, (s.setLock i 1).setFile i none) := by
  unfold fdClose
  rw [h]
  dsimp only
  rw [lockFd_bind_run, get_bind_run, FdState.file_setLock, hf]
  rfl

theorem fdClose_some (h : slotOf fd = some i) (hf : s.files i = some p) :
    fdClose fd s = (0, (((s.setLock i 1).setFile i none).setLock i 0).put p) := by
  unfold fdClose
  rw [h]
  dsimp only
  rw [lockFd_bind_run, get_bind_run, modify_bind_run, FdState.file_setLock, hf]
  dsimp only
  rw [modify_bind_run, bind_run, fdFilePut_run]
  rfl

/-- The state after `dup2` has put file `f` into slot `j`. -/
def FdState.replace (s : FdState) (j : Slot) (f : FilePtr) : FdState :=
  match s.files j with
  | none => ((s.setLock j 1).setFile j (some f)).setLock j 0
  | some old => (((s.setLock j 1).setFile j (some f)).setLock j 0).put old

theorem dup2_invalid (h : slotOf oldfd = none ∨ slotOf newfd = none) (s : FdState) :
    dup2 oldfd newfd s = (.error Errno.ebadf, s) := by
  unfold dup2
  rcases h with h | h
  · rw [h]
    rfl
  · rw [h]
    cases slotOf oldfd <;> rfl

theorem dup2_same (h : slotOf oldfd = some i) (s : FdState) :
    dup2 oldfd oldfd s = (.ok oldfd, s) := by
  unfold dup2
  simp only [h]
  rfl

theorem dup2_none {j : Slot} {s' : FdState} (ho : slotOf oldfd = some i)
    (hn : slotOf newfd = some j) (hne : oldfd ≠ newfd) (hget : fdFileGet oldfd s = (none, s')) :
    dup2 oldfd newfd s = (.error Errno.ebadf, s') := by
  unfold dup2
  rw [ho, hn]
  dsimp only
  rw [if_neg hne, bind_run, hget]
  rfl

theorem dup2_some {j : Slot} {s' : FdState} (ho : slotOf oldfd = some i)
    (hn : slotOf newfd = some j) (hne : oldfd ≠ newfd) (hget : fdFileGet oldfd s = (some p, s')) :
    dup2 oldfd newfd s = (.ok newfd, s'.replace j p) := by
  unfold dup2 FdState.replace
  rw [ho, hn]
  dsimp only
  rw [if_neg hne, bind_run, hget]
  dsimp only
  rw [lockFd_bind_run, get_bind_run, modify_bind_run, modify_bind_run, FdState.file_setLock]
  cases s'.files j with
  | none => rfl
  | some old =>
    rw [if_pos (Option.some_ne_none old), bind_run, fdFilePut_run]
    rfl

/-- The state after a file that could not be put into the table was thrown away. -/
def FdState.discard (s : FdState) (p : FilePtr) : FdState :=
  ({ s with log := .given p :: s.log } : FdState).free p

theorem fdCreateFile_einval (hops : fops = 0#64) (data : Addr) (block : Option Addr) (s : FdState) :
    fdCreateFile fops data block s = (-Errno.einval, s) := by
  unfold fdCreateFile
  rw [if_pos hops]
  rfl

theorem fdCreateFile_enomem (hops : fops ≠ 0#64) (data : Addr) (s : FdState) :
    fdCreateFile fops data none s = (-Errno.enomem, s) := by
  unfold fdCreateFile
  rw [if_neg hops]
  rfl

theorem fdCreateFile_run (data a : Addr) (s : FdState) (hops : fops ≠ 0#64) :
    fdCreateFile fops data (some a) s =
      if h : probe s.fds 10 none < 1024 then
        (((probe s.fds 10 none : Nat) : Int),
          (s.allocate a fops data).setFile ⟨probe s.fds 10 none, h⟩ (some (s.newFile a)))
      else (-Errno.enosys, (s.allocate a fops data).discard (s.newFile a)) := by
  have hfds : (s.allocate a fops data).fds = s.fds := rfl
  unfold fdCreateFile
  rw [if_neg hops]
  dsimp only
  rw [get_bind_run, modify_bind_run, get_bind_run, hfds]
  split <;> rfl

end Operations

end LibTransistor
