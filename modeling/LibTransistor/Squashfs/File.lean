import LibTransistor.Fs.Blobfd
import LibTransistor.Lib.SlotCache
import LibTransistor.Squashfs.Directory

/-!
# Regular files of a SquashFS image

`sqfs_read_range` and `sqfs_write_range` of `lib/squashfs/file.c`, with the caches of blocks below
them (`lib/squashfs/cache.c` and `sqfs_data_cache` of `lib/squashfs/fs.c`), and the operations on
files of `lib/fs/squashfs.c` above them.

**The image.** It has one block of data at a position (`Image.content`). A file has a list of
blocks, given by their headers, and maybe a fragment: the end of the file in a block that files
share. A block with a header of size 0 is a hole. `RegFile` is a file whose blocks have the sizes
that the format asks for.

**Reading a block** can fail each time, for lack of memory or otherwise. A call reads a block no
more than once, so `Avail` says for each position whether it can be read in this call. A slot of a
cache has got the new position by then, and keeps it with a null pointer for a block, which the next
block for this slot makes `sqfs_cache_add` dispose of: a crash. Reads of metadata (the block list
and the fragment table) succeed.

The two range functions are one text up to the direction of `memcpy`: `rangeLoop`, for any `move`.
-/

namespace LibTransistor.Squashfs

open Fallible

/-! ## The image -/

/-- `sqfs_block`. -/
structure Block where
  size : Nat
  data : Mem Byte

/-- What of an image the functions use. -/
structure Image where
  /-- `sb.block_size`. -/
  blockSize : Nat
  blockSize_pos : 0 < blockSize
  blockSize_lt : blockSize < 2 ^ 32
  /-- The block at a position, after decompression. -/
  content : Nat → Block

/-- An image whose blocks have four times the letter a. -/
def fourLetters : Image where
  blockSize := 4
  blockSize_pos := by decide
  blockSize_lt := by decide
  content _ := ⟨4, fun _ => 0x61#8⟩

/-- The fragment of a file: where its block is, and where in the block it begins. -/
structure Fragment where
  startBlock : Nat
  off : Nat

/-- What `sqfs_inode` says of a regular file. -/
structure RegInode where
  fileSize : Nat
  startBlock : Nat
  /-- The block list. -/
  header : Nat → BitVec 32
  frag : Option Fragment

/-- `sqfs_data_header`: the size on disk. -/
def headerSize (hdr : BitVec 32) : Nat := (hdr &&& ~~~(1#32 <<< 24)).toNat

/-- `sqfs_divceil`. -/
def divceil (total group : Nat) : Nat :=
  if total % group ≠ 0 then total / group + 1 else total / group

namespace RegInode

/-- `sqfs_blocklist_count`. -/
def count (inode : RegInode) (blockSize : Nat) : Nat :=
  if inode.frag.isNone then divceil inode.fileSize blockSize else inode.fileSize / blockSize

/-- The number of bytes in a block: all, but in the last block. -/
def blockLen (inode : RegInode) (blockSize i : Nat) : Nat :=
  min (inode.fileSize - i * blockSize) blockSize

/-- Where a block is: behind those in front of it. -/
def blockPos (inode : RegInode) : Nat → Nat
  | 0 => inode.startBlock
  | i + 1 => inode.blockPos i + headerSize (inode.header i)

end RegInode

/-- A regular file. Its blocks are full, up to the last one, and its fragment is in a block. -/
structure RegFile (img : Image) extends RegInode where
  fileSize_lt : fileSize < 2 ^ 63
  size_content : ∀ i < toRegInode.count img.blockSize, headerSize (header i) ≠ 0 →
    (img.content (toRegInode.blockPos i)).size = toRegInode.blockLen img.blockSize i
  frag_nonempty : frag.isSome → 0 < fileSize % img.blockSize
  frag_le : ∀ f, frag = some f →
    f.off + fileSize % img.blockSize ≤ (img.content f.startBlock).size

/-! ## The caches -/

/-- A cache of blocks. The key of a slot is a position, or 0 before it is used; its block may be
`NULL`. -/
abbrev BlockCache := SlotCache Nat (Option Block)

abbrev dataCachedBlks : Nat := 1

abbrev fragCachedBlks : Nat := 3

/-- The caches of blocks with data. -/
structure Caches where
  data : BlockCache dataCachedBlks
  frag : BlockCache fragCachedBlks

/-- `sqfs_block_cache_init`, for both caches. -/
def Caches.initial : Caches where
  data := ⟨⟨0, by decide⟩, fun _ => 0, fun _ => none⟩
  frag := ⟨⟨0, by decide⟩, fun _ => 0, fun _ => none⟩

/-- Which blocks can be read during a call. -/
structure Avail where
  data : Nat → Bool
  frag : Bool

/-- How a range function gives up. -/
inductive Failure
  | sqfs (e : SqfsErr)
  /-- A null pointer is followed, or `memcpy` leaves a block. -/
  | crash

/-- In the next slot there is a null pointer. `sqfs_cache_add` disposes of the block of a slot that
was used before. -/
def NextIsNull {n : Nat} (cache : BlockCache n) : Prop :=
  cache.keys cache.next ≠ 0 ∧ (cache.entries cache.next).isNone = true

instance {n : Nat} (cache : BlockCache n) : Decidable (NextIsNull cache) :=
  inferInstanceAs (Decidable (_ ∧ _))

/-- `sqfs_data_cache`. The slot with the block. -/
def sqfsDataCache {n : Nat} (img : Image) (avail : Bool) (pos : Nat) :
    EStateM Failure (BlockCache n) (Fin n) := do
  let cache ← get
  match cache.find pos with
  | some i => return i
  | none =>
    failIf (NextIsNull cache) Failure.crash
    if avail then
      set ((cache.add pos).store cache.next (some (img.content pos)))
      return cache.next
    else
      set ((cache.add pos).store cache.next none)
      throw (.sqfs .err)

/-- Work on the data cache. -/
def onData {α : Type} : EStateM Failure (BlockCache dataCachedBlks) α → EStateM Failure Caches α :=
  zoom Caches.data fun c s => { s with data := c }

/-- Work on the fragment cache. -/
def onFrag {α : Type} : EStateM Failure (BlockCache fragCachedBlks) α → EStateM Failure Caches α :=
  zoom Caches.frag fun c s => { s with frag := c }

/-! ## Ranges -/

/-- What is done with some bytes of a block, or of a hole, and the buffer: the block after it, and
the buffer. `done` is how far `buf` has been advanced. -/
abbrev Move (β : Type) := (block : Option Block) → (off count done : Nat) → β → Option Block × β

/-- `memcpy` between the block of a slot and the buffer. There may be no block. -/
def copy {β : Type} {n : Nat} (move : Move β) (i : Fin n) (off count done : Nat) (buf : β) :
    EStateM Failure (BlockCache n) β := do
  let cache ← get
  match cache.entries i with
  | none => return (move none off count done buf).2
  | some b => do
    failIf (b.size < off + count) Failure.crash
    set (cache.store i (move (some b) off count done buf).1)
    return (move (some b) off count done buf).2

/-- `block->size`. -/
def sizeOf {n : Nat} (i : Fin n) : EStateM Failure (BlockCache n) Nat := do
  let cache ← get
  match cache.entries i with
  | none => throw .crash
  | some b => return b.size

/-- `sqfs_blocklist`, of which `remain` is an argument of the loop. -/
structure Blocklist where
  /-- How many headers have been read. -/
  cur : Nat
  started : Bool
  pos : Nat
  block : Nat
  inputSize : Nat

/-- `sqfs_blocklist_init`. -/
def RegInode.blocklist (inode : RegInode) : Blocklist := ⟨0, false, 0, inode.startBlock, 0⟩

/-- `sqfs_blocklist_next`. -/
def Blocklist.next (bl : Blocklist) (inode : RegInode) (blockSize : Nat) : Blocklist where
  cur := bl.cur + 1
  started := true
  pos := if bl.started then bl.pos + blockSize else bl.pos
  block := bl.block + bl.inputSize
  inputSize := headerSize (inode.header bl.cur)

/-- `take`, from a difference of unsigned numbers. -/
def takeOf (dataSize readOff size : Nat) : Nat :=
  min (BitVec.ofNat 64 dataSize - BitVec.ofNat 64 readOff).toNat size

section Range

variable {img : Image} {β : Type}

/-- The loop of a range function, with `remain` blocks to go. It returns what is left of the size,
and the buffer. -/
def rangeLoop (avail : Avail) (file : RegFile img) (move : Move β) (start : BitVec 64) :
    (remain : Nat) → Blocklist → (readOff size done : Nat) → β → EStateM Failure Caches (Nat × β)
  | _, _, _, 0, _, buf => return (0, buf)
  | 0, _, readOff, size + 1, done, buf =>
    match file.frag with
    | none => return (size + 1, buf)
    | some frag => do
      let i ← onFrag (sqfsDataCache img avail.frag frag.startBlock)
      let take := takeOf (file.fileSize % img.blockSize) readOff (size + 1)
      let buf ← onFrag (copy move i (frag.off + readOff) take done buf)
      return (size + 1 - take, buf)
  | remain + 1, bl, readOff, size + 1, done, buf =>
    let bl := bl.next file.toRegInode img.blockSize
    if bl.pos + img.blockSize ≤ start.toNat then
      rangeLoop avail file move start remain bl readOff (size + 1) done buf
    else if bl.inputSize = 0 then
      let dataSize := min (file.fileSize - bl.pos) img.blockSize
      let take := takeOf dataSize readOff (size + 1)
      rangeLoop avail file move start remain bl 0 (size + 1 - take) (done + take)
        (move none readOff take done buf).2
    else do
      let i ← onData (sqfsDataCache img (avail.data bl.block) bl.block)
      let dataSize ← onData (sizeOf i)
      let take := takeOf dataSize readOff (size + 1)
      let buf ← onData (copy move i readOff take done buf)
      rangeLoop avail file move start remain bl 0 (size + 1 - take) (done + take) buf

/-- `sqfs_blockidx_blocklist`, as far as it is about how many blocks there are to go. -/
def RegFile.remainAt (file : RegFile img) (start : BitVec 64) : Nat :=
  let block := (BitVec.ofInt 64 (start.toInt.tdiv img.blockSize)).toNat
  if file.count img.blockSize < block then 0 else file.count img.blockSize

/-- A range function. It returns the number of bytes, and the buffer. -/
def sqfsRange (avail : Avail) (file : RegFile img) (move : Move β) (start size : BitVec 64) (buf : β) :
    EStateM Failure Caches (Nat × β) := do
  failIf (size.toInt < 0 ∨ (file.fileSize : Int) < start.toInt) (Failure.sqfs .err)
  if start.toInt = file.fileSize then
    return (0, buf)
  else do
    let r ← rangeLoop avail file move start (file.remainAt start) file.toRegInode.blocklist
      (start.toNat % img.blockSize) size.toNat 0 buf
    failIf (size.toNat - r.1 = 0) (Failure.sqfs .err)
    return (size.toNat - r.1, r.2)

/-- `memcpy(buf, block->data + off, count)` or `memset(buf, 0, count)`. -/
def readMove : Move (List Byte) := fun block off count _ buf =>
  (block, buf ++ match block with
    | some b => b.data.read off count
    | none => List.replicate count 0#8)

/-- `memcpy(block->data + off, buf, count)`, or nothing. -/
def writeMove (bytes : List Byte) : Move Unit := fun block off count done _ =>
  (block.map fun b => { b with data := b.data.write off ((bytes.drop done).take count) }, ())

def sqfsReadRange (avail : Avail) (file : RegFile img) (start size : BitVec 64) :
    EStateM Failure Caches (Nat × List Byte) :=
  sqfsRange avail file readMove start size []

def sqfsWriteRange (avail : Avail) (file : RegFile img) (start size : BitVec 64)
    (bytes : List Byte) : EStateM Failure Caches (Nat × Unit) :=
  sqfsRange avail file (writeMove bytes) start size ()

end Range

/-! ## Operations on files -/

/-- An open file, with the caches of its filesystem. -/
structure FileState where
  head : BitVec 64
  caches : Caches

section Operations

variable {img : Image}

/-- `trn_sqfs_file_llseek`. -/
def trnSqfsFileLlseek (file : RegFile img) (offset : BitVec 64) (whence : BitVec 32) :
    StateM FileState (BitVec 64) := do
  let s ← get
  match seekTo (BitVec.ofNat 64 file.fileSize) s.head offset whence with
  | some head => do
    set { s with head := head }
    return head
  | none => return BitVec.ofInt 64 (-Errno.einval)

/-- What an operation makes of the result of a range function: the value it returns, and the buffer.
There is no result after a crash. -/
def finish {β : Type} (x : EStateM Failure Caches (Nat × β)) (s : FileState) :
    Option ((BitVec 64 × Option β) × FileState) :=
  match x s.caches with
  | .ok (osize, buf) caches =>
    some ((BitVec.ofNat 64 osize, some buf), ⟨s.head + BitVec.ofNat 64 osize, caches⟩)
  | .error (.sqfs _) caches => some ((BitVec.ofInt 64 (-Errno.eio), none), ⟨s.head, caches⟩)
  | .error .crash _ => none

/-- `trn_sqfs_file_read`. -/
def trnSqfsFileRead (avail : Avail) (file : RegFile img) (size : BitVec 64) (s : FileState) :
    Option ((BitVec 64 × Option (List Byte)) × FileState) :=
  finish (sqfsReadRange avail file s.head size) s

/-- `trn_sqfs_file_write`. -/
def trnSqfsFileWrite (avail : Avail) (file : RegFile img) (buf : Blob) (s : FileState) :
    Option (BitVec 64 × FileState) :=
  (finish (sqfsWriteRange avail file s.head buf.size buf.bytes) s).map fun r => (r.1.1, r.2)

end Operations

end LibTransistor.Squashfs
