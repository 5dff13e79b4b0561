import LibTransistor.Lib.RefCount
import LibTransistor.Lib.Runs
import LibTransistor.Results

/-!
# The table of file descriptors

`lib/syscalls/fd.c`: the table `fds`, the files it points at and their reference counts, and the
five operations on them, each run from its call to its return with nothing in between.

**Pointers** (`FilePtr`). A block that `free` has given back may be handed out again by `malloc`, so
a pointer also carries the serial number of the allocation it comes from. No operation looks at it:
the machine compares addresses.

**The log**. References taken and given back and the calls of `ops->release` are logged, newest
first. No operation reads the log.
-/

namespace LibTransistor

abbrev Addr := BitVec 64

/-- An index below `FD_MAX`. -/
abbrev Slot := Fin 1024

/-- A pointer to a `struct file` that is not `NULL`. -/
structure FilePtr where
  addr : Addr
  /-- Which of the allocations the pointer comes from. -/
  serial : Nat
  deriving DecidableEq, Repr

/-- `struct fd`. -/
structure Fd where
  lock : Int
  file : Option FilePtr
  deriving DecidableEq

/-- `struct file`. -/
structure File where
  refcount : BitVec 32
  ops : Addr
  data : Addr

structure FdState where
  fds : Slot → Fd
  mem : Addr → File
  /-- The serial number of the allocation at an address that is not free. -/
  live : Addr → Option Nat
  /-- The number of allocations so far. -/
  serials : Nat
  log : List (RefEvent FilePtr)

/-! ## Steps on the shared state -/

namespace FdState

variable (s : FdState)

def setLock (i : Slot) (lock : Int) : FdState :=
  { s with fds := Function.update s.fds i { s.fds i with lock := lock } }

def setFile (i : Slot) (file : Option FilePtr) : FdState :=
  { s with fds := Function.update s.fds i { s.fds i with file := file } }

theorem setLock_fds (i j : Slot) (lock : Int) :
    (s.setLock i lock).fds j = if j = i then { s.fds i with lock := lock } else s.fds j :=
  Function.update_apply ..

theorem setFile_fds (i j : Slot) (file : Option FilePtr) :
    (s.setFile i file).fds j = if j = i then { s.fds i with file := file } else s.fds j :=
  Function.update_apply ..

variable (p : FilePtr)

/-- `f->refcount++`. -/
def takeRef : FdState :=
  { s with
    mem := Function.update s.mem p.addr
      { s.mem p.addr with refcount := (s.mem p.addr).refcount + 1#32 }
    log := .taken p :: s.log }

/-- `atomic_fetch_sub(&file->refcount, 1)`. -/
def giveRef : FdState :=
  { s with
    mem := Function.update s.mem p.addr
      { s.mem p.addr with refcount := (s.mem p.addr).refcount - 1#32 }
    log := .given p :: s.log }

/-- `file->ops->release(file)`. -/
def callRelease : FdState := { s with log := .released p :: s.log }

def free : FdState :=
  { s with live := Function.update s.live p.addr none }

/-- The file that the next allocation makes, if it is at address `a`. -/
def newFile (a : Addr) : FilePtr := ⟨a, s.serials⟩

/-- `malloc` gives block `a`, and the file in it is set up with one reference. -/
def allocate (a ops data : Addr) : FdState :=
  { s with
    mem := Function.update s.mem a ⟨1#32, ops, data⟩
    live := Function.update s.live a (some s.serials)
    serials := s.serials + 1
    log := .taken (s.newFile a) :: s.log }

end FdState

/-! ## The operations -/

abbrev FdM := StateM FdState

/-- `IS_VALID`, and the slot. -/
def slotOf (fd : Int) : Option Slot :=
  if h : 0 ≤ fd ∧ fd < 1024 then some ⟨fd.toNat, by omega⟩ else none

/-- The loop of `lock_fd` with nobody else around: it ends with the second attempt, since the first
has stored the lock's value into `expected`. -/
def lockLoop (lock expected : Int) : Int :=
  if lock = expected then 1 else lockLoop lock lock
termination_by if lock = expected then 0 else 1
decreasing_by simp_all

def lockFd (i : Slot) : FdM Unit := modify fun s => s.setLock i (lockLoop (s.fds i).lock 0)

/-- Whether two pointers compare equal. -/
def samePtr (p q : Option FilePtr) : Bool := p.map FilePtr.addr == q.map FilePtr.addr

/-- The loop of `fd_create_file`: the first slot from `fd` on whose compare-exchange succeeds, or
1024. The slot that was probed last is what the next one is compared with. -/
def probe (fds : Slot → Fd) (fd : Nat) (expected : Option FilePtr) : Nat :=
  if h : fd < 1024 then
    if samePtr (fds ⟨fd, h⟩).file expected then fd else probe fds (fd + 1) (fds ⟨fd, h⟩).file
  else fd

/-- `fd_create_file`; `block` is what `malloc` returns. -/
def fdCreateFile (fops data : Addr) (block : Option Addr) : FdM Int := do
  if fops = 0#64 then return -Errno.einval
  match block with
  | none => return -Errno.enomem
  | some a =>
    let f := (← get).newFile a
    modify (·.allocate a fops data)
    let fd := probe (← get).fds 10 none
    if h : fd < 1024 then
      modify (·.setFile ⟨fd, h⟩ (some f))
      return fd
    else
      -- the file was never in the table, and `release` is not called
      modify fun s => { s with log := .given f :: s.log }
      modify (·.free f)
      return -Errno.enosys

def fdFileGet (fd : Int) : FdM (Option FilePtr) := do
  match slotOf fd with
  | none => return none
  | some i =>
    lockFd i
    let f := ((← get).fds i).file
    match f with
    | none => pure ()
    | some p => modify (·.takeRef p)
    modify (·.setLock i 0)
    return f

def fdFilePut : Option FilePtr → FdM Unit
  | none => pure ()
  | some p => do
    let refcount := ((← get).mem p.addr).refcount
    modify (·.giveRef p)
    if refcount = 1#32 then
      modify (·.callRelease p)
      modify (·.free p)

def fdClose (fd : Int) : FdM Int := do
  match slotOf fd with
  | none => return -Errno.ebadf
  | some i =>
    lockFd i
    let file := ((← get).fds i).file
    modify (·.setFile i none)
    match file with
    | none => return -Errno.ebadf
    | some p =>
      modify (·.setLock i 0)
      fdFilePut (some p)
      return 0

/-- `dup2`; an error is what `errno` is set to when `-1` is returned. -/
def dup2 (oldfd newfd : Int) : FdM (Except Int Int) := do
  match slotOf oldfd, slotOf newfd with
  | some _, some j =>
    if oldfd = newfd then return .ok newfd
    match ← fdFileGet oldfd with
    | none => return .error Errno.ebadf
    | some f =>
      lockFd j
      let old := ((← get).fds j).file
      modify (·.setFile j (some f))
      modify (·.setLock j 0)
      if old ≠ none then fdFilePut old
      return .ok newfd
  | _, _ => return .error Errno.ebadf

/-! ## Runs -/

/-- The table and its callers. -/
structure FdWorld where
  table : FdState
  /-- The references that `fd_file_get` has handed out and that were not put since. -/
  held : List FilePtr

inductive FdOp
  /-- `block` is what `malloc` returns. -/
  | createFile (fops data : Addr) (block : Option Addr)
  | fileGet (fd : Int)
  | filePut (file : Option FilePtr)
  | close (fd : Int)
  | dup2 (oldfd newfd : Int)

namespace FdOp

/-- What an operation does to the table. -/
def effect : FdOp → FdState → FdState
  | .createFile fops data block, s => (fdCreateFile fops data block s).2
  | .fileGet fd, s => (fdFileGet fd s).2
  | .filePut file, s => (fdFilePut file s).2
  | .close fd, s => (fdClose fd s).2
  | .dup2 oldfd newfd, s => (LibTransistor.dup2 oldfd newfd s).2

/-- The references with the callers, after an operation on table `s`. -/
def handOver (s : FdState) (held : List FilePtr) : FdOp → List FilePtr
  | .fileGet fd => (fdFileGet fd s).1.toList ++ held
  | .filePut (some p) => held.erase p
  | _ => held

def exec (op : FdOp) (w : FdWorld) : FdWorld :=
  ⟨op.effect w.table, op.handOver w.table w.held⟩

/-- `malloc` hands out free blocks only, and only references that were got are put. -/
def Allowed : FdOp → FdWorld → Prop
  | .createFile _ _ (some a), w => w.table.live a = none
  | .filePut (some p), w => p ∈ w.held
  | _, _ => True

end FdOp

/-- `static struct fd fds[FD_MAX] = {0}`, before any file. -/
structure FdWorld.Initial (w : FdWorld) : Prop where
  fds : ∀ i, w.table.fds i = ⟨0, none⟩
  live : ∀ a, w.table.live a = none
  log : w.table.log = []
  held : w.held = []

/-- A table at the start, over memory that holds zeros. -/
def FdWorld.empty : FdWorld where
  table := ⟨fun _ => ⟨0, none⟩, fun _ => ⟨0, 0, 0⟩, fun _ => none, 0, []⟩
  held := []

theorem FdWorld.initial_empty : FdWorld.empty.Initial := ⟨fun _ => rfl, fun _ => rfl, rfl, rfl⟩

/-- Any sequence of operations. -/
def fdSystem : System FdWorld FdOp where
  init := FdWorld.Initial
  step w op w' := op.Allowed w ∧ w' = op.exec w

end LibTransistor
