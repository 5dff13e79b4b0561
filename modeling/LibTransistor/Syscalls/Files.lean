import LibTransistor.Fd.Table
import LibTransistor.Lib.Bytes

/-!
# The entry points that take file descriptors

`_open_r`, `_close_r`, `_lseek_r`, `_read_r` and `_write_r` of `lib/syscalls/syscalls.c`, and
`connect` and `socket_from_bsd` of `lib/syscalls/socket.c`, over the table of file descriptors. The
`file_operations` of a file, `trn_fs_open` and `bsd_connect` are parameters (`SysEnv`): they work on
objects of any type `σ`, and may return anything.

A call returns a value, or ends without a `return`, or follows a null pointer (`Return`). Two things
are kept: the value that the call stores to `errno`, if any, and the files whose operations it
calls.
-/

namespace LibTransistor

/-! ## The environment -/

/-- The operations on files and sockets. Operations of a file get its `data` first. -/
structure SysEnv (σ : Type) where
  /-- `ops->llseek` of the table at an address, unless it is `NULL`. -/
  llseek : Addr → Option (Addr → BitVec 64 → BitVec 32 → StateM σ (BitVec 64))
  read : Addr → Option (Addr → Addr → BitVec 64 → StateM σ (BitVec 64))
  write : Addr → Option (Addr → Addr → BitVec 64 → StateM σ (BitVec 64))
  /-- `trn_fs_open(&fd, name, flags)`, with what is in `fd` after it. -/
  trnFsOpen : CString → BitVec 32 → StateM (FdState × σ) (ResultT × BitVec 32)
  /-- The `int` at an address that can be read. -/
  loadInt : σ → Addr → Option (BitVec 32)
  storeInt : Addr → BitVec 32 → StateM σ Unit
  /-- `bsd_connect`, with the value of `bsd_errno` after it. -/
  bsdConnect : BitVec 32 → Addr → BitVec 32 → StateM σ (BitVec 32 × BitVec 32)
  /-- `&socket_fops`. -/
  socketFops : Addr
  socketFops_ne : socketFops ≠ 0#64

structure SysState (σ : Type) where
  table : FdState
  objects : σ
  /-- What the call has stored to `errno`. -/
  errno : Option Int
  /-- The files whose operations the call has called. -/
  called : List FilePtr

/-- A call starts. -/
def SysState.start {σ : Type} (table : FdState) (objects : σ) : SysState σ :=
  ⟨table, objects, none, []⟩

/-- How a call ends. -/
inductive Return
  | value (v : Int)
  /-- The end of the function without a `return`. -/
  | undefined
  /-- An access through a null pointer. -/
  | crash
  deriving DecidableEq

abbrev SysM (σ : Type) := StateM (SysState σ)

variable {σ α : Type}

def onTable (x : FdM α) : SysM σ α := fun s => ((x s.table).1, { s with table := (x s.table).2 })

def onObjects (x : StateM σ α) : SysM σ α := fun s =>
  ((x s.objects).1, { s with objects := (x s.objects).2 })

def onBoth (x : StateM (FdState × σ) α) : SysM σ α := fun s =>
  ((x (s.table, s.objects)).1,
    { s with table := (x (s.table, s.objects)).2.1, objects := (x (s.table, s.objects)).2.2 })

/-- `errno = e; return -1;` -/
def failWith (e : Int) : SysM σ Return := do
  modify fun s => { s with errno := some e }
  return .value (-1)

/-! ## Calls on files -/

/-- An operation of the file behind `f`, or `-ENOSYS` if it is `NULL`. -/
def callOp (f : FilePtr) : Option (StateM σ (BitVec 64)) → SysM σ (BitVec 64)
  | none => pure (BitVec.ofInt 64 (-Errno.enosys))
  | some x => do
    modify fun s => { s with called := f :: s.called }
    onObjects x

/-- What `_lseek_r`, `_read_r` and `_write_r` have in common: `op` is the operation to call, given
the file's `ops` and `data`. `_errno` is an `int`. -/
def throughFile (fd : Int) (op : Addr → Addr → Option (StateM σ (BitVec 64))) : SysM σ Return := do
  match ← onTable (fdFileGet fd) with
  | none => failWith Errno.ebadf
  | some f => do
    let s ← get
    let res ← callOp f (op (s.table.mem f.addr).ops (s.table.mem f.addr).data)
    onTable (fdFilePut (some f))
    if res.toInt < 0 then failWith ((-res).setWidth 32).toInt
    else return .value res.toInt

variable (env : SysEnv σ) (fd : Int)

def lseekR (pos : BitVec 64) (whence : BitVec 32) : SysM σ Return :=
  throughFile fd fun ops data => (env.llseek ops).map fun op => op data pos whence

def readR (ptr : Addr) (len : BitVec 64) : SysM σ Return :=
  throughFile fd fun ops data => (env.read ops).map fun op => op data ptr len

def writeR (ptr : Addr) (len : BitVec 64) : SysM σ Return :=
  throughFile fd fun ops data => (env.write ops).map fun op => op data ptr len

def closeR : SysM σ Return := do
  let res ← onTable (fdClose fd)
  if res < 0 then failWith (-res)
  else return .value 0

/-- `dup2`, which stores to `errno` itself. -/
def dup2R (oldfd newfd : Int) : SysM σ Return := do
  match ← onTable (dup2 oldfd newfd) with
  | .error e => failWith e
  | .ok fd => return .value fd

/-- The `switch` of `_open_r`. The first two errors leave it and reach the end of the function. -/
def openSwitch (r : ResultT) (fd : BitVec 32) : SysM σ Return :=
  if r = resultOk then pure (.value fd.toInt)
  else if r = Err.fsNotADirectory then do
    let _ ← failWith (-Errno.enotdir)
    return .undefined
  else if r = Err.fsNotFound then do
    let _ ← failWith (-Errno.enoent)
    return .undefined
  else failWith Errno.enosys

def openR (name : CString) (flags : BitVec 32) : SysM σ Return := do
  let res ← onBoth (env.trnFsOpen name flags)
  openSwitch res.1 res.2

/-! ## Sockets -/

/-- `socket_from_bsd`; `memory` and `block` are what `malloc` returns here and in
`fd_create_file`. -/
def socketFromBsd (env : SysEnv σ) (bsdFd : BitVec 32) (memory block : Option Addr) :
    SysM σ Return := do
  match memory with
  | none => failWith Errno.enomem
  | some a => do
    onObjects (env.storeInt a bsdFd)
    let fd ← onTable (fdCreateFile env.socketFops a block)
    if fd < 0 then failWith fd
    else return .value fd

/-- What `connect` does after it has given the file back. -/
def connectSocket (ops : Addr) (bsdFd : BitVec 32) (address : Addr)
    (addressLen : BitVec 32) : SysM σ Return :=
  if ops ≠ env.socketFops then failWith Errno.enosys
  else do
    let res ← onObjects (env.bsdConnect bsdFd address addressLen)
    if res.1.toInt < 0 then failWith res.2.toInt
    else return .value 0

/-- `connect`. The file is used before it is known to be there. -/
def connect (env : SysEnv σ) (socket : Int) (address : Addr) (addressLen : BitVec 32) :
    SysM σ Return := do
  match ← onTable (fdFileGet socket) with
  | none => return .crash
  | some f => do
    let s ← get
    match env.loadInt s.objects (s.table.mem f.addr).data with
    | none => return .crash
    | some bsdFd => do
      -- both branches on `f->ops` begin with this
      onTable (fdFilePut (some f))
      connectSocket env (s.table.mem f.addr).ops bsdFd address addressLen

/-! ## All of them -/

/-- A call of an entry point. -/
inductive SysCall
  | open (name : CString) (flags : BitVec 32)
  | close (fd : Int)
  | lseek (fd : Int) (pos : BitVec 64) (whence : BitVec 32)
  | read (fd : Int) (ptr : Addr) (len : BitVec 64)
  | write (fd : Int) (ptr : Addr) (len : BitVec 64)
  | dup2 (oldfd newfd : Int)
  | connect (socket : Int) (address : Addr) (addressLen : BitVec 32)
  | socketFromBsd (bsdFd : BitVec 32) (memory block : Option Addr)

def SysCall.run (env : SysEnv σ) : SysCall → SysM σ Return
  | .open name flags => openR env name flags
  | .close fd => closeR fd
  | .lseek fd pos whence => lseekR env fd pos whence
  | .read fd ptr len => readR env fd ptr len
  | .write fd ptr len => writeR env fd ptr len
  | .dup2 oldfd newfd => dup2R oldfd newfd
  | .connect socket address addressLen => LibTransistor.connect env socket address addressLen
  | .socketFromBsd bsdFd memory block => LibTransistor.socketFromBsd env bsdFd memory block

end LibTransistor
