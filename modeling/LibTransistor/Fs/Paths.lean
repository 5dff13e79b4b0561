import LibTransistor.Lib.Bytes
import LibTransistor.Lib.Ledger
import LibTransistor.Lib.Runs
import LibTransistor.Results
import Mathlib.Algebra.Ring.Nat

/-!
# The path layer

The functions of `lib/fs/fs.c`: the root, the current directory, and the walk along a path.

**Inodes.** A filesystem is code behind `trn_inode_ops_t`, so `FsEnv` has what its operations and
`malloc` do, call by call (`clock` counts the calls). An inode is the filesystem's `data` for it and
the acquisition it came from, a call of `trn_fs_set_root` or of `lookup`; what is acquired, used and
released goes to a ledger.

**Arrays.** `cwd` and `traverse` have 256 entries, some of which were never written. Going outside
of them, or calling an operation of an entry that was never written, is a `fault`.
-/

namespace LibTransistor

open Fallible

/-! ## Inodes and the filesystem behind them -/

/-- The acquisition that an inode came from, numbered by the clock. -/
inductive InodeId
  /-- Handed to `trn_fs_set_root`. -/
  | root (time : Nat)
  /-- Returned by `lookup`. -/
  | found (time : Nat)
  deriving DecidableEq, Repr

/-- `trn_inode_t`. -/
structure Inode (δ : Type) where
  data : δ
  id : InodeId

/-- `trn_traverse_t`. -/
structure Traversal (δ : Type) where
  inode : Inode δ
  name : List Byte

/-- The operations of the inodes, and `malloc`. The first argument is the time of the call; a result
comes with what is written to the `out` parameter, which counts only if the result is
`RESULT_OK`. -/
structure FsEnv (δ : Type) where
  lookup : Nat → δ → List Byte → ResultT × δ
  openAsFile : Nat → δ → Int → ResultT × Int
  openAsDir : Nat → δ → ResultT × Nat
  /-- Whether the allocation succeeds. -/
  malloc : Nat → Bool

/-! ## State -/

/-- `trn_traverse_t[MAX_RECURSION]`; `none` is an entry that was never written. -/
abbrev Stack (δ : Type) := Fin 256 → Option (Traversal δ)

instance neZeroEntries : NeZero 256 := ⟨by decide⟩

structure FsState (δ : Type) where
  root : Option (Inode δ)
  cwd : Stack δ
  cwdRecursion : Int
  /-- The calls of the environment so far. -/
  clock : Nat
  ledger : List (Event InodeId)

variable {δ : Type}

/-- The state at program start. -/
def FsState.initial : FsState δ := ⟨none, fun _ => none, -1, 0, []⟩

/-- How a function of the path layer fails to produce its result. -/
inductive FsError
  | result (r : ResultT)
  | outOfBounds (index : Int)
  | uninitialised
  deriving DecidableEq

/-- Undefined behaviour, as opposed to an error code. -/
def FsError.isFault : FsError → Bool
  | .result _ => false
  | _ => true

abbrev FsM (δ : Type) := EStateM FsError (FsState δ)

/-- The entry at index `i`. -/
def Stack.get (a : Stack δ) (i : Int) : Except FsError (Traversal δ) :=
  if h : 0 ≤ i ∧ i < 256 then
    match a ⟨i.toNat, by omega⟩ with
    | some e => .ok e
    | none => .error .uninitialised
  else .error (.outOfBounds i)

def Stack.set (a : Stack δ) (i : Int) (e : Traversal δ) : Except FsError (Stack δ) :=
  if h : 0 ≤ i ∧ i < 256 then .ok (Function.update a ⟨i.toNat, by omega⟩ (some e))
  else .error (.outOfBounds i)

/-- `memcpy(dst, src, (recursion + 1) * sizeof(*dst))`. -/
def Stack.copy (dst src : Stack δ) (recursion : Int) : Stack δ := fun i =>
  if (i : Int) ≤ recursion then src i else dst i

/-! ## Operations of inodes -/

def record (e : Event InodeId) : FsM δ Unit := modify fun s => { s with ledger := e :: s.ledger }

/-- The time of this call. -/
def tick : FsM δ Nat := do
  let s ← get
  set { s with clock := s.clock + 1 }
  return s.clock

/-- `inode.ops->release(inode.data)`; the result is ignored everywhere. -/
def release (inode : Inode δ) : FsM δ Unit := record (.disposed inode.id)

variable (env : FsEnv δ)

/-- `inode.ops->lookup(inode.data, &out, ...)`; a successful lookup hands an inode over. -/
def lookup (inode : Inode δ) (name : List Byte) : FsM δ (ResultT × Inode δ) := do
  record (.used inode.id)
  let time ← tick
  let (r, data) := env.lookup time inode.data name
  if r = resultOk then record (.acquired (.found time))
  return (r, ⟨data, .found time⟩)

def openAsFile (inode : Inode δ) (flags : Int) : FsM δ (ResultT × Int) := do
  record (.used inode.id)
  let time ← tick
  return env.openAsFile time inode.data flags

def openAsDir (inode : Inode δ) : FsM δ (ResultT × Nat) := do
  record (.used inode.id)
  let time ← tick
  return env.openAsDir time inode.data

def malloc : FsM δ Bool := do
  let time ← tick
  return env.malloc time

/-- `for(int i = from; i < from + n; i++) a[i].inode.ops->release(a[i].inode.data);` -/
def releaseFrom (a : Stack δ) (start : Int) : Nat → FsM δ Unit
  | 0 => pure ()
  | n + 1 => do
    let e ← runPure (a.get start)
    release e.inode
    releaseFrom a (start + 1) n

/-- The loop over the entries after `borrowed`, up to `recursion`. -/
def releaseAbove (a : Stack δ) (borrowed recursion : Int) : FsM δ Unit :=
  releaseFrom a (borrowed + 1) (recursion - borrowed).toNat

/-! ## The root -/

def trnFsSetRoot (newRoot : δ) : FsM δ Unit := do
  match (← get).root with
  | some old => release old
  | none => pure ()
  let time ← tick
  let inode : Inode δ := ⟨newRoot, .root time⟩
  record (.acquired inode.id)
  modify fun s => { s with
    root := some inode
    cwd := Function.update s.cwd 0 (some ⟨inode, []⟩)
    cwdRecursion := 0 }

/-! ## Walking along a path -/

def slash : Byte := 0x2f#8
def dot : Byte := 0x2e#8

/-- The locals of `trn_fs_traverse`. -/
structure Walk (δ : Type) where
  traverse : Stack δ
  /-- `traverse[i <= borrowed]` belong to `cwd`. -/
  borrowed : Int
  recursion : Int

/-- The segment `..`; the root is its own parent. -/
def goUp (t : Walk δ) : FsM δ (Walk δ) := do
  if t.recursion > 0 then
    if t.recursion > t.borrowed then
      let trv ← runPure (t.traverse.get t.recursion)
      release trv.inode
      return { t with recursion := t.recursion - 1 }
    else
      return { t with borrowed := t.borrowed - 1, recursion := t.recursion - 1 }
  else return t

/-- A segment that names an entry. The result is the value of `r` with which the source goes on, or
goes to `fail`. -/
def goDown (segment : List Byte) (t : Walk δ) : FsM δ (Walk δ × ResultT) := do
  if t.recursion + 1 ≥ 256 then return (t, Err.fsPathTooDeep)
  else
    let trv ← runPure (t.traverse.get t.recursion)
    let (r, inode) ← lookup env trv.inode segment
    -- what is written above `traverse_recursion` on the way to `fail` is never read
    let allocated ← malloc env
    if !allocated then return (t, Err.outOfMemory)
    else if r ≠ resultOk then return (t, r)
    else
      let traverse ← runPure (t.traverse.set (t.recursion + 1) ⟨inode, segment⟩)
      return ({ t with traverse := traverse, recursion := t.recursion + 1 }, resultOk)

/-- What one segment of the path does. -/
def visit (segment : List Byte) (t : Walk δ) : FsM δ (Walk δ × ResultT) :=
  if segment = [dot, dot] then do return (← goUp t, resultOk)
  else if segment = [dot] then pure (t, resultOk)
  else goDown env segment t

/-- The `while` loop of `trn_fs_traverse`, from `segment` on. -/
def walk (env : FsEnv δ) (segment : List Byte) (t : Walk δ) : FsM δ (Walk δ × ResultT) :=
  if segment = [] then pure (t, resultOk)
  else
    let trimmed := segment.dropWhile (· = slash)
    let name := trimmed.takeWhile (· ≠ slash)
    if name = [] then pure (t, resultOk)
    else do
      let (t, r) ← visit env name t
      if r ≠ resultOk then pure (t, r)
      else walk env (trimmed.drop name.length) t
termination_by segment.length
decreasing_by
  have hlen : trimmed.length ≤ segment.length := (List.dropWhile_sublist _).length_le
  have hpos : 0 < name.length := List.length_pos_of_ne_nil ‹¬name = []›
  have hle : name.length ≤ trimmed.length := (List.takeWhile_sublist _).length_le
  show (trimmed.drop name.length).length < segment.length
  rw [List.length_drop]
  omega

variable (path : CString)

def trnFsTraverse : FsM δ (Walk δ) := do
  let s ← get
  let traverse : Stack δ := Stack.copy (fun _ => none) s.cwd s.cwdRecursion
  let start : Walk δ :=
    if path.bytes.head? = some slash then ⟨traverse, 0, 0⟩
    else ⟨traverse, s.cwdRecursion, s.cwdRecursion⟩
  let (t, r) ← walk env path.bytes start
  if r ≠ resultOk then
    releaseAbove t.traverse t.borrowed t.recursion
    throw (.result r)
  return t

/-! ## The operations on paths -/

/-- The names of `traverse[from]`, ..., `n` of them. -/
def namesFrom (a : Stack δ) (start : Int) : Nat → Except FsError (List (List Byte))
  | 0 => .ok []
  | n + 1 => do
    let e ← a.get start
    let rest ← namesFrom a (start + 1) n
    return e.name :: rest

/-- Where `trn_fs_realpath` writes: `given` says whether `*resolved_path` is a buffer of the
caller. -/
def pathBuffer (pathSize : Nat) (given : Bool) : FsM δ ResultT :=
  if pathSize > 256 then pure Err.fsNameTooLong
  else if given then pure resultOk
  else do
    let allocated ← malloc env
    return if allocated then resultOk else Err.outOfMemory

/-- `trn_fs_realpath`; the result is the string that is written. -/
def trnFsRealpath (given : Bool) : FsM δ (List Byte) := do
  let t ← trnFsTraverse env path
  let names ← runPure (namesFrom t.traverse 0 (t.recursion + 1).toNat)
  let pathSize := (names.map fun name => name.length + 1).sum
  let r ← pathBuffer env pathSize given
  releaseAbove t.traverse t.borrowed t.recursion
  if r ≠ resultOk then throw (.result r)
  -- each name is followed by a slash, and the last slash becomes the terminator
  return (names.flatMap fun name => name ++ [slash]).dropLast

def trnFsOpen (flags : Int) : FsM δ Int := do
  let t ← trnFsTraverse env path
  let trv ← runPure (t.traverse.get t.recursion)
  let (r, fd) ← openAsFile env trv.inode flags
  releaseAbove t.traverse t.borrowed t.recursion
  if r ≠ resultOk then throw (.result r)
  return fd

def trnFsOpendir : FsM δ Nat := do
  let t ← trnFsTraverse env path
  let trv ← runPure (t.traverse.get t.recursion)
  let (r, dir) ← openAsDir env trv.inode
  releaseAbove t.traverse t.borrowed t.recursion
  if r ≠ resultOk then throw (.result r)
  return dir

/-- `trn_fs_chdir`. On success it ends without a `return`, so its result is undefined there. -/
def trnFsChdir : FsM δ Unit := do
  let t ← trnFsTraverse env path
  let s ← get
  releaseAbove s.cwd t.borrowed s.cwdRecursion
  modify fun s => { s with
    cwd := Stack.copy s.cwd t.traverse t.recursion
    cwdRecursion := t.recursion }

/-! ## Calls -/

/-- A call of one of the operations on paths. -/
inductive PathCall
  | realpath (path : CString) (given : Bool)
  | open (path : CString) (flags : Int)
  | opendir (path : CString)
  | chdir (path : CString)

/-- Run a call and drop what it returns. -/
def PathCall.run (env : FsEnv δ) : PathCall → FsM δ Unit
  | .realpath path given => do let _ ← trnFsRealpath env path given
  | .open path flags => do let _ ← trnFsOpen env path flags
  | .opendir path => do let _ ← trnFsOpendir env path
  | .chdir path => trnFsChdir env path

/-- The state after a call, however it ended. -/
def PathCall.exec (call : PathCall) (s : FsState δ) : FsState δ :=
  final (call.run env s)

/-- Any sequence of calls after `trn_fs_set_root(newRoot)` at program start. -/
def fsSystem (newRoot : δ) : System (FsState δ) PathCall where
  init s := trnFsSetRoot newRoot FsState.initial = .ok () s
  step s call s' := s' = call.exec env s

end LibTransistor
