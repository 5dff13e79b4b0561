import LibTransistor.Lib.Bytes
import LibTransistor.Lib.Runs
import LibTransistor.Results

/-!
# Directories of a SquashFS image

The functions of `lib/fs/squashfs.c` that find inodes: `trn_sqfs_lookup` by name, and
`trn_sqfs_dir_next`, one call after the other, in a listing that `trn_sqfs_open_as_dir` has opened.
squashfuse below them is `Squashfuse`, for any representation of its filesystem, inodes and
directory cursors. Under `Directory` the listing gives the entries one by one, and a lookup finds
exactly those.

`malloc` does not clear memory, so an allocation is what the memory held before. That matters
because `trn_sqfs_dir_next` writes the inode there and not the filesystem it belongs to.
-/

namespace LibTransistor.Squashfs

open Fallible

/-! ## squashfuse -/

/-- `sqfs_err` other than `SQFS_OK`. -/
inductive SqfsErr
  | err
  | badFormat
  | badVersion
  | badComp
  | unsup
  deriving DecidableEq, Repr

/-- `sqfs_dir_entry`. -/
structure DirEntry where
  name : List Byte
  inode : BitVec 64
  deriving DecidableEq

/-- What `sqfs_dir_next` returns, with the cursor after it. -/
inductive Next (D : Type)
  | entry (e : DirEntry) (dir : D)
  | finished (dir : D)
  | failed (e : SqfsErr) (dir : D)

/-- `trn_sqfs_inode_t`. -/
structure TrnSqfsInode (φ ι : Type) where
  fs : φ
  inode : ι

/-- squashfuse and `malloc`: `φ` are the filesystems, `ι` the inodes and `D` the directory cursors.
Reading an inode may fail at one time and not at another. -/
structure Squashfuse (φ ι D : Type) where
  /-- `S_ISDIR(inode->base.mode)`. -/
  isDir : ι → Bool
  dirOpen : φ → ι → Except SqfsErr D
  dirNext : φ → D → Next D
  /-- The entry, if it was found. -/
  dirLookup : φ → ι → List Byte → Except SqfsErr (Option DirEntry)
  inodeGet : Nat → φ → BitVec 64 → Except SqfsErr ι
  /-- `malloc(sizeof(trn_sqfs_inode_t))`: what the memory holds, if there is some. -/
  mallocInode : Nat → Option (TrnSqfsInode φ ι)
  /-- Whether `malloc(sizeof(trn_sqfs_dir_t))` succeeds. -/
  mallocDir : Nat → Bool

/-! ## The filesystem -/

/-- The tables of operations that an inode can have. -/
inductive InodeOps
  | trnSqfsInodeOps
  deriving DecidableEq

/-- `trn_inode_t`. -/
structure TrnInode (φ ι : Type) where
  data : TrnSqfsInode φ ι
  ops : InodeOps

/-- `trn_dirent_t`; `name` are the bytes written to the array. -/
structure TrnDirent (φ ι : Type) where
  inode : TrnInode φ ι
  name : List Byte
  nameSize : Nat

/-- `trn_sqfs_dir_t`. -/
structure TrnSqfsDir (φ D : Type) where
  fs : φ
  dir : D

variable {φ ι D : Type}

/-- What `trn_sqfs_dir_next` makes of the entry that squashfuse has read. -/
def direntOf (sq : Squashfuse φ ι D) (time : Nat) (fs : φ) (dentry : DirEntry) :
    Except ResultT (TrnDirent φ ι) :=
  match sq.mallocInode time with
  | none => .error Err.outOfMemory
  | some outData =>
    match sq.inodeGet time fs dentry.inode with
    | .error _ => .error Err.fsInternalError
    | .ok inode =>
      if dentry.name.length ≥ 256 - 1 then .error Err.fsNameTooLong
      else
        -- `out_data->fs` is what it was
        .ok { inode := ⟨{ outData with inode := inode }, .trnSqfsInodeOps⟩
              name := dentry.name ++ [0#8]
              nameSize := dentry.name.length }

def trnSqfsDirNext (sq : Squashfuse φ ι D) (time : Nat) :
    EStateM ResultT (TrnSqfsDir φ D) (TrnDirent φ ι) := do
  let dir ← get
  match sq.dirNext dir.fs dir.dir with
  | .failed _ d => do
    set { dir with dir := d }
    throw Err.fsInternalError
  | .finished d => do
    set { dir with dir := d }
    throw Err.fsOutOfDirEntries
  | .entry dentry d => do
    set { dir with dir := d }
    runPure (direntOf sq time dir.fs dentry)

variable (sq : Squashfuse φ ι D)

def trnSqfsLookup (time : Nat) (inode : TrnSqfsInode φ ι)
    (name : List Byte) : Except ResultT (TrnInode φ ι) :=
  if !sq.isDir inode.inode then .error Err.fsNotADirectory
  else
    match sq.dirLookup inode.fs inode.inode name with
    | .error _ => .error Err.fsInternalError
    | .ok none => .error Err.fsNotFound
    | .ok (some entry) =>
      match sq.mallocInode time with
      | none => .error Err.outOfMemory
      | some _ =>
        match sq.inodeGet time inode.fs entry.inode with
        | .error _ => .error Err.fsInternalError
        | .ok found => .ok ⟨⟨inode.fs, found⟩, .trnSqfsInodeOps⟩

def trnSqfsOpenAsDir (time : Nat) (inode : TrnSqfsInode φ ι) : Except ResultT (TrnSqfsDir φ D) :=
  if !sq.isDir inode.inode then .error Err.fsNotADirectory
  else if !sq.mallocDir time then .error Err.outOfMemory
  else
    match sq.dirOpen inode.fs inode.inode with
    | .error _ => .error Err.fsInternalError
    | .ok dir => .ok ⟨inode.fs, dir⟩

/-! ## What a directory has -/

/-- `sqfs_dir_next` gives the entries, one at each call, and then ends. -/
def Enumerates (sq : Squashfuse φ ι D) (fs : φ) : List DirEntry → D → Prop
  | [], d => ∃ d', sq.dirNext fs d = .finished d'
  | e :: entries, d => ∃ d', sq.dirNext fs d = .entry e d' ∧ Enumerates sq fs entries d'

/-- A directory with these entries, for squashfuse. -/
structure Directory (sq : Squashfuse φ ι D) (fs : φ) (inode : ι) (entries : List DirEntry) :
    Prop where
  isDir : sq.isDir inode = true
  listed : ∀ d, sq.dirOpen fs inode = .ok d → Enumerates sq fs entries d
  found : ∀ name, sq.dirLookup fs inode name = .ok (entries.find? (·.name = name))
  distinct : (entries.map (·.name)).Nodup

/-- A call of `trn_sqfs_dir_next` and a lookup of the name agree about an entry. -/
def Agrees (e : DirEntry) (listed : EStateM.Result ResultT (TrnSqfsDir φ D) (TrnDirent φ ι))
    (looked : Except ResultT (TrnInode φ ι)) : Prop :=
  ∃ dirent dir out, listed = .ok dirent dir ∧ looked = .ok out ∧
    dirent.name = e.name ++ [0#8] ∧ dirent.nameSize = e.name.length ∧
    dirent.inode.ops = out.ops ∧ dirent.inode.data.inode = out.data.inode ∧
    dirent.inode.data.fs = out.data.fs

/-- The listing after calls of `trn_sqfs_dir_next` at these times, however they ended. -/
def listingAfter (dir : TrnSqfsDir φ D) (times : List Nat) : TrnSqfsDir φ D :=
  System.after (fun time dir => final (trnSqfsDirNext sq time dir)) dir times

/-! ## One call -/

section Calls

variable {sq : Squashfuse φ ι D} {time : Nat} {e : DirEntry} {entries : List DirEntry}

section Next

variable {dir : TrnSqfsDir φ D} {d : D} {dirent : TrnDirent φ ι}

theorem direntOf_eq_ok {fs : φ} : direntOf sq time fs e = .ok dirent ↔
    ∃ old inode, sq.mallocInode time = some old ∧ sq.inodeGet time fs e.inode = .ok inode ∧
      e.name.length < 255 ∧
      dirent = ⟨⟨⟨old.fs, inode⟩, .trnSqfsInodeOps⟩, e.name ++ [0#8], e.name.length⟩ := by
  unfold direntOf
  cases sq.mallocInode time with
  | none => simp
  | some old =>
    cases sq.inodeGet time fs e.inode with
    | error _ => simp
    | ok inode =>
      split_ifs with hlong
      · simp
        omega
      · simp [eq_comm]
        omega

theorem dirNext_run (hnext : sq.dirNext dir.fs dir.dir = .entry e d) :
    trnSqfsDirNext sq time dir = runPure (direntOf sq time dir.fs e) ⟨dir.fs, d⟩ := by
  unfold trnSqfsDirNext
  rw [get_bind_run, hnext]
  rfl

theorem final_dirNext (hnext : sq.dirNext dir.fs dir.dir = .entry e d) :
    final (trnSqfsDirNext sq time dir) = ⟨dir.fs, d⟩ := by
  rw [dirNext_run hnext]
  cases direntOf sq time dir.fs e <;> rfl

theorem listingAfter_enumerates (times : List Nat) (hle : times.length ≤ entries.length)
    (h : Enumerates sq dir.fs entries dir.dir) :
    (listingAfter sq dir times).fs = dir.fs ∧
      Enumerates sq dir.fs (entries.drop times.length) (listingAfter sq dir times).dir := by
  induction times generalizing dir entries with
  | nil => exact ⟨rfl, h⟩
  | cons time times ih =>
    cases entries with
    | nil => cases hle
    | cons e entries =>
      obtain ⟨d, hnext, hrest⟩ := h
      have hstep : listingAfter sq dir (time :: times) = listingAfter sq ⟨dir.fs, d⟩ times := by
        show listingAfter sq (final (trnSqfsDirNext sq time dir)) times = _
        rw [final_dirNext hnext]
      rw [hstep]
      exact ih (Nat.le_of_succ_le_succ hle) hrest

end Next

section Lookup

variable {inode : TrnSqfsInode φ ι} {out : TrnInode φ ι}

theorem find?_name (hdistinct : (entries.map (·.name)).Nodup) (he : e ∈ entries) :
    entries.find? (·.name = e.name) = some e := by
  induction entries with
  | nil => cases he
  | cons f entries ih =>
    rw [List.map_cons, List.nodup_cons] at hdistinct
    rcases List.mem_cons.1 he with rfl | hmem
    · simp
    · have hne : f.name ≠ e.name := by
        intro heq
        exact hdistinct.1 (heq ▸ List.mem_map_of_mem hmem)
      rw [List.find?_cons_of_neg (by simpa using hne)]
      exact ih hdistinct.2 hmem

theorem lookup_eq_ok (hdir : Directory sq inode.fs inode.inode entries) (he : e ∈ entries) :
    trnSqfsLookup sq time inode e.name = .ok out ↔
      (sq.mallocInode time).isSome ∧ ∃ found, sq.inodeGet time inode.fs e.inode = .ok found ∧
        out = ⟨⟨inode.fs, found⟩, .trnSqfsInodeOps⟩ := by
  unfold trnSqfsLookup
  rw [hdir.isDir, hdir.found, find?_name hdir.distinct he]
  cases sq.mallocInode time with
  | none => simp
  | some old =>
    cases hget : sq.inodeGet time inode.fs e.inode with
    | error _ => simp [hget]
    | ok found => simp [hget, eq_comm]

end Lookup

theorem openAsDir_eq_ok {inode : TrnSqfsInode φ ι} {dir : TrnSqfsDir φ D}
    (hopen : trnSqfsOpenAsDir sq time inode = .ok dir) :
    dir.fs = inode.fs ∧ sq.dirOpen inode.fs inode.inode = .ok dir.dir := by
  unfold trnSqfsOpenAsDir at hopen
  split_ifs at hopen
  cases hd : sq.dirOpen inode.fs inode.inode with
  | error _ =>
    rw [hd] at hopen
    cases hopen
  | ok d =>
    rw [hd] at hopen
    cases hopen
    exact ⟨rfl, rfl⟩

end Calls

/-! ## Listing and lookup -/

/-- **Listing and lookup.** Whatever call of a listing comes to an entry, and whatever happened in
the calls before, it agrees with a lookup of the name if and only if the name has fewer than 255
bytes, both find memory and the inode, and the memory of the first held the filesystem already. -/
theorem dirNext_agrees_iff (sq : Squashfuse φ ι D) (inode : TrnSqfsInode φ ι)
    (entries : List DirEntry) (hdir : Directory sq inode.fs inode.inode entries) (opened : Nat)
    (dir : TrnSqfsDir φ D) (hopen : trnSqfsOpenAsDir sq opened inode = .ok dir) (times : List Nat)
    (e : DirEntry) (he : entries[times.length]? = some e) (time time' : Nat) :
    Agrees e (trnSqfsDirNext sq time (listingAfter sq dir times))
        (trnSqfsLookup sq time' inode e.name) ↔
      e.name.length < 255 ∧
      (∃ old, sq.mallocInode time = some old ∧ old.fs = inode.fs) ∧
      (sq.mallocInode time').isSome ∧
      ∃ found, sq.inodeGet time inode.fs e.inode = .ok found ∧
        sq.inodeGet time' inode.fs e.inode = .ok found := by
  obtain ⟨hfs, hd⟩ := openAsDir_eq_ok hopen
  obtain ⟨hlt, hget⟩ := List.getElem?_eq_some_iff.1 he
  have hlisted := hdir.listed _ hd
  rw [← hfs] at hlisted
  obtain ⟨hfs', hlisted⟩ := listingAfter_enumerates times (Nat.le_of_lt hlt) hlisted
  rw [List.drop_eq_getElem_cons hlt, hget, ← hfs'] at hlisted
  obtain ⟨d, hnext, -⟩ := hlisted
  have hlookup : ∀ out, trnSqfsLookup sq time' inode e.name = .ok out ↔ _ := fun out =>
    lookup_eq_ok hdir (List.mem_of_getElem? he)
  rw [dirNext_run hnext, hfs', hfs]
  unfold Agrees
  simp only [runPure_eq_ok, direntOf_eq_ok, hlookup]
  constructor
  · rintro ⟨dirent, dir', out, ⟨⟨old, i, hold, hi, hlen, rfl⟩, -⟩, ⟨hmalloc, j, hj, rfl⟩, hsame⟩
    obtain ⟨-, -, -, hij, hof⟩ := hsame
    subst hij
    exact ⟨hlen, ⟨old, hold, hof⟩, hmalloc, i, hi, hj⟩
  · rintro ⟨hlen, ⟨old, hold, hof⟩, hmalloc, i, hi, hj⟩
    refine ⟨_, _, _, ⟨⟨old, i, hold, hi, hlen, rfl⟩, rfl⟩, ⟨hmalloc, i, hj, rfl⟩, ?_⟩
    exact ⟨rfl, rfl, trivial, rfl, hof⟩

/-- A directory with the entries `a` and `b`. -/
def smallEntries : List DirEntry := [⟨[0x61#8], 96#64⟩, ⟨[0x62#8], 128#64⟩]

/-- An image with one directory, and memory that holds the pointer `memory` when it is allocated. -/
def smallImage (memory : Nat) : Squashfuse Nat Nat (List DirEntry) where
  isDir inode := inode == 0
  dirOpen _ _ := .ok smallEntries
  dirNext _
    | [] => .finished []
    | e :: entries => .entry e entries
  dirLookup _ _ name := .ok (smallEntries.find? (·.name = name))
  inodeGet _ _ id := .ok id.toNat
  mallocInode _ := some ⟨memory, 0⟩
  mallocDir _ := true

theorem smallImage_directory (memory fs : Nat) :
    Directory (smallImage memory) fs 0 smallEntries where
  isDir := rfl
  listed d hd := by
    cases hd
    exact ⟨_, rfl, _, rfl, _, rfl⟩
  found _ := rfl
  distinct := by decide

theorem smallImage_agrees :
    Agrees ⟨[0x62#8], 128#64⟩
      (trnSqfsDirNext (smallImage 0x1000) 2 (listingAfter (smallImage 0x1000) ⟨0x1000, smallEntries⟩ [1]))
      (trnSqfsLookup (smallImage 0x1000) 3 ⟨0x1000, 0⟩ [0x62#8]) :=
  (dirNext_agrees_iff (smallImage 0x1000) ⟨0x1000, 0⟩ smallEntries (smallImage_directory _ _) 0
    ⟨0x1000, smallEntries⟩ rfl [1] ⟨[0x62#8], 128#64⟩ rfl 2 3).2
    ⟨by decide, ⟨_, rfl, rfl⟩, rfl, 128, rfl, rfl⟩

/-- In cleared memory the listed inode `a` has no filesystem. -/
theorem smallImage_disagrees :
    ∃ dirent dir out,
      trnSqfsDirNext (smallImage 0) 1 ⟨0x1000, smallEntries⟩ = .ok dirent dir ∧
      trnSqfsLookup (smallImage 0) 2 ⟨0x1000, 0⟩ [0x61#8] = .ok out ∧
      dirent.inode.data.fs = 0 ∧ out.data.fs = 0x1000 ∧
      ¬ Agrees ⟨[0x61#8], 96#64⟩ (trnSqfsDirNext (smallImage 0) 1 ⟨0x1000, smallEntries⟩)
        (trnSqfsLookup (smallImage 0) 2 ⟨0x1000, 0⟩ [0x61#8]) := by
  refine ⟨_, _, _, rfl, rfl, rfl, rfl, ?_⟩
  rintro ⟨dirent, dir, out, hlisted, hlooked, -, -, -, -, hfs⟩
  cases hlisted
  cases hlooked
  cases hfs

end LibTransistor.Squashfs
