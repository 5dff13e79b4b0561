import LibTransistor.Lib.Bytes
import LibTransistor.Lib.Stateful
import Mathlib.Algebra.Ring.Nat

/-!
# Files over a region of memory

`lib/fs/blobfd.c`: a blob with a head that seeks set and reads advance. The head is an `off_t` and
the sizes are `size_t`, so the check of `blobfd_read` compares unsigned numbers that may have
wrapped. It keeps the copy inside of the blob for heads that are there already, unless the requested
size reaches around to them again: `read_inside_iff`.
-/

namespace LibTransistor

open Stateful List

/-- A region of memory. No object has 2^63 bytes or more. -/
structure Blob where
  bytes : List Byte
  length_lt : bytes.length < 2 ^ 63

namespace Blob

def size (b : Blob) : BitVec 64 := BitVec.ofNat 64 b.bytes.length

/-- The byte at an index, which is unknown outside of the blob. -/
def byteAt (b : Blob) (i : Int) : Option Byte := if 0 ≤ i then b.bytes[i.toNat]? else none

theorem toNat_size (b : Blob) : b.size.toNat = b.bytes.length := by
  have hlt := b.length_lt
  exact Nat.mod_eq_of_lt (by omega)

end Blob

/-- `blob_file`. -/
structure BlobFile where
  blob : Blob
  head : BitVec 64

/-- `blobfd_create`. -/
def blobfdCreate (blob : Blob) : BlobFile := ⟨blob, 0#64⟩

/-- Where `SEEK_SET`, `SEEK_CUR` and `SEEK_END` lead to. -/
def seekTo (size head offset : BitVec 64) (whence : BitVec 32) : Option (BitVec 64) :=
  if whence = 0#32 then some offset
  else if whence = 1#32 then some (head + offset)
  else if whence = 2#32 then some (size + offset)
  else none

/-- `blobfd_llseek`, apart from `errno = EINVAL`, which its only caller overwrites. -/
def blobfdLlseek (offset : BitVec 64) (whence : BitVec 32) : StateM BlobFile (BitVec 64) := do
  let file ← get
  match seekTo file.blob.size file.head offset whence with
  | some head => do
    set { file with head := head }
    return head
  | none => return -1#64

/-- What `memcpy` copies: so many bytes from an index of the blob on. -/
structure Copy where
  start : Int
  count : Nat

def Copy.bytesOf (c : Copy) (b : Blob) : List (Option Byte) :=
  (List.range c.count).map fun k : Nat => b.byteAt (c.start + k)

/-- The number of bytes that `blobfd_read` copies. -/
def BlobFile.clamped (file : BlobFile) (size : BitVec 64) : BitVec 64 :=
  if file.head + size > file.blob.size then file.blob.size - file.head else size

def blobfdRead (size : BitVec 64) : StateM BlobFile (BitVec 64 × Copy) := do
  let file ← get
  let sz := file.clamped size
  set { file with head := file.head + sz }
  return (sz, ⟨file.head.toInt, sz.toNat⟩)

/-! ## Runs -/

inductive BlobCall
  | llseek (offset : BitVec 64) (whence : BitVec 32)
  | read (size : BitVec 64)

def BlobCall.exec (call : BlobCall) (file : BlobFile) : BlobFile :=
  match call with
  | .llseek offset whence => (blobfdLlseek offset whence file).2
  | .read size => (blobfdRead size file).2

/-- A new file after any sequence of seeks and reads. -/
def blobAfter (blob : Blob) (calls : List BlobCall) : BlobFile :=
  System.after BlobCall.exec (blobfdCreate blob) calls

/-! ## Reads inside of the blob -/

/-- A read copies bytes of the blob only, no more than requested and all that there are, and moves
the head by as much. -/
structure BlobFile.ReadsInside (file : BlobFile) (size : BitVec 64) : Prop where
  inside : ∀ k, k < (blobfdRead size file).1.2.count →
    0 ≤ (blobfdRead size file).1.2.start + k ∧
      (blobfdRead size file).1.2.start + k < file.blob.bytes.length
  returned : (blobfdRead size file).1.1.toInt = (blobfdRead size file).1.2.count
  at_most : (blobfdRead size file).1.2.count ≤ size.toNat
  all : 0 ≤ file.head.toInt → file.head.toInt ≤ file.blob.bytes.length →
    (blobfdRead size file).1.2.count = min size.toNat (file.blob.bytes.length - file.head.toNat) ∧
    (blobfdRead size file).1.2.bytesOf file.blob =
      ((file.blob.bytes.drop file.head.toNat).take (blobfdRead size file).1.2.count).map some
  advances : (blobfdRead size file).2.head.toInt =
    file.head.toInt + (blobfdRead size file).1.2.count

/-- The head is in the blob or at its end, and the requested size does not reach around to it or to
what is in front of it. -/
structure BlobFile.InRange (file : BlobFile) (size : BitVec 64) : Prop where
  nonneg : 0 ≤ file.head.toInt
  le : file.head.toInt ≤ file.blob.bytes.length
  no_wrap : file.head.toNat + size.toNat < 2 ^ 64 ∨
    file.blob.bytes.length + 2 ^ 64 < file.head.toNat + size.toNat

namespace BlobFile

variable {file : BlobFile} {size : BitVec 64}

theorem toNat_head (h : 0 ≤ file.head.toInt) : (file.head.toNat : Int) = file.head.toInt := by
  have := BitVec.toInt_eq_toNat_cond file.head
  split_ifs at this <;> omega

theorem toNat_clamped (h : file.InRange size) :
    (file.clamped size).toNat = min size.toNat (file.blob.bytes.length - file.head.toNat) := by
  have hhead := toNat_head h.nonneg
  have hle := h.le
  have hwrap := h.no_wrap
  have hsize := file.blob.toNat_size
  unfold clamped
  split_ifs with hgt
  · rw [gt_iff_lt, BitVec.lt_def, BitVec.toNat_add] at hgt
    rw [BitVec.toNat_sub]
    omega
  · rw [gt_iff_lt, BitVec.lt_def, BitVec.toNat_add] at hgt
    omega

theorem clamped_pos (h : file.blob.bytes.length < file.head.toNat) (size : BitVec 64) :
    0 < (file.clamped size).toNat := by
  have hsize := file.blob.toNat_size
  unfold clamped
  split_ifs with hgt
  · rw [BitVec.toNat_sub]
    omega
  · rw [gt_iff_lt, BitVec.lt_def, BitVec.toNat_add] at hgt
    omega

theorem clamped_of_wrap (hge : 2 ^ 64 ≤ file.head.toNat + size.toNat)
    (hle : file.head.toNat + size.toNat ≤ file.blob.bytes.length + 2 ^ 64) :
    file.clamped size = size := by
  have hsize := file.blob.toNat_size
  unfold clamped
  rw [if_neg]
  rw [gt_iff_lt, BitVec.lt_def, BitVec.toNat_add]
  omega

theorem byteAt_of_nonneg (b : Blob) {i : Int} {n : Nat} (h : i = n) : b.byteAt i = b.bytes[n]? := by
  subst h
  unfold Blob.byteAt
  rw [if_pos (Int.natCast_nonneg n), Int.toNat_natCast]

theorem InRange.readsInside (h : file.InRange size) : file.ReadsInside size := by
  have hcount := toNat_clamped h
  have hhead := toNat_head h.nonneg
  have hle := h.le
  have hlt := file.blob.length_lt
  have hadd : (file.head + file.clamped size).toNat = file.head.toNat + (file.clamped size).toNat := by
    rw [BitVec.toNat_add]
    omega
  refine ⟨?_, ?_, ?_, fun _ _ => ⟨hcount, ?_⟩, ?_⟩
  · intro k hk
    have hk : k < (file.clamped size).toNat := hk
    show 0 ≤ file.head.toInt + k ∧ file.head.toInt + k < file.blob.bytes.length
    omega
  · show (file.clamped size).toInt = (file.clamped size).toNat
    rw [BitVec.toInt_eq_toNat_cond]
    split_ifs <;> omega
  · show (file.clamped size).toNat ≤ size.toNat
    omega
  · show (List.range (file.clamped size).toNat).map _ = ((file.blob.bytes.drop _).take
      (file.clamped size).toNat).map some
    refine ext_getElem? fun k => ?_
    by_cases hk : k < (file.clamped size).toNat
    · have hin : file.head.toNat + k < file.blob.bytes.length := by omega
      rw [getElem?_map, getElem?_range hk, getElem?_map, getElem?_take_of_lt hk,
        getElem?_drop, getElem?_eq_getElem hin]
      show some (file.blob.byteAt (file.head.toInt + k)) = some (some file.blob.bytes[file.head.toNat + k])
      rw [byteAt_of_nonneg (n := file.head.toNat + k) _ (by omega), getElem?_eq_getElem hin]
    · rw [getElem?_eq_none (by simpa using hk), getElem?_eq_none]
      simp only [length_map, length_take]
      omega
  · show (file.head + file.clamped size).toInt = file.head.toInt + (file.clamped size).toNat
    rw [BitVec.toInt_eq_toNat_cond]
    split_ifs <;> omega

theorem InRange.of_inside (hin : ∀ k, k < (file.clamped size).toNat →
    0 ≤ file.head.toInt + k ∧ file.head.toInt + k < file.blob.bytes.length) : file.InRange size := by
  have hlt := file.blob.length_lt
  have hcond := BitVec.toInt_eq_toNat_cond file.head
  -- the first byte copied would not be in the blob
  have hle : file.head.toNat ≤ file.blob.bytes.length := by
    by_contra hgt
    have hfirst := hin 0 (clamped_pos (by omega) size)
    split_ifs at hcond <;> omega
  refine ⟨by omega, by omega, ?_⟩
  by_contra hwrap
  -- nor the byte at the end of the blob
  have hlast := hin (file.blob.bytes.length - file.head.toNat) (by
    rw [clamped_of_wrap (by omega) (by omega)]
    omega)
  omega

end BlobFile

/-- **Blob reads.** After any seeks and reads, a read copies only bytes of the blob, and all that is
asked for and there, if and only if the head and the size are in range. -/
theorem read_inside_iff (blob : Blob) (calls : List BlobCall) (size : BitVec 64) :
    (blobAfter blob calls).ReadsInside size ↔ (blobAfter blob calls).InRange size :=
  ⟨fun h => .of_inside h.inside, fun h => h.readsInside⟩

/-- A blob of three bytes. -/
def threeBytes : Blob := ⟨[0x61#8, 0x62#8, 0x63#8], by decide⟩

/-- A seek to 5, behind the end of three bytes: a read of one byte copies 2^64 - 2 bytes from index
5 on. -/
theorem threeBytes_overrun :
    (blobfdRead 1#64 (blobAfter threeBytes [.llseek 5#64 0#32])).1.2.start = 5 ∧
      (blobfdRead 1#64 (blobAfter threeBytes [.llseek 5#64 0#32])).1.2.count = 2 ^ 64 - 2 ∧
      ¬ (blobAfter threeBytes [.llseek 5#64 0#32]).ReadsInside 1#64 := by
  refine ⟨by decide, by decide, fun h => ?_⟩
  have hle := (BlobFile.InRange.of_inside h.inside).le
  revert hle
  decide

end LibTransistor
