import LibTransistor.Squashfs.Ranges
import LibTransistor.Syscalls.Convention

/-!
# Seeks that fail

`_lseek_r` decides that a seek has failed when the operation of the file returns a negative value.
By then `blobfd_llseek` or `trn_sqfs_file_llseek` has stored that value as the new head. So a seek
that fails leaves the head where it was unless it leads in front of the file (`lseek_keeps_iff`); as
long as no seek does, heads are not negative, whatever is read and written (`head_nonneg`).

`sqfs_pread` of `lib/squashfs/nonstd-pread.c` is made of three seeks and a read. After one with a
negative offset the head is negative, and every later one fails with its first seek:
`pread_works_iff`.
-/

namespace LibTransistor

open Stateful Squashfs List

/-! ## Open files -/

/-- A file that is open: a blob, or a file of an image. -/
inductive OpenFile (img : Image)
  | blob (file : BlobFile)
  | sqfs (file : RegFile img) (s : FileState)

namespace OpenFile

variable {img : Image}

def head : OpenFile img → BitVec 64
  | .blob file => file.head
  | .sqfs _ s => s.head

def size : OpenFile img → BitVec 64
  | .blob file => file.blob.size
  | .sqfs file _ => BitVec.ofNat 64 file.fileSize

def withHead : OpenFile img → BitVec 64 → OpenFile img
  | .blob file, h => .blob { file with head := h }
  | .sqfs file s, h => .sqfs file { s with head := h }

/-- `ops->llseek`. -/
def llseek (offset : BitVec 64) (whence : BitVec 32) : StateM (OpenFile img) (BitVec 64)
  | .blob file => ((blobfdLlseek offset whence file).1, .blob (blobfdLlseek offset whence file).2)
  | .sqfs file s =>
    ((trnSqfsFileLlseek file offset whence s).1, .sqfs file (trnSqfsFileLlseek file offset whence s).2)

/-- A seek leads to a head that is not negative, or to where the head is. -/
def SeekOk (f : OpenFile img) (offset : BitVec 64) (whence : BitVec 32) : Prop :=
  ∀ h, seekTo f.size f.head offset whence = some h → 0 ≤ h.toInt ∨ h = f.head

variable {f : OpenFile img} {offset : BitVec 64} {whence : BitVec 32}

@[simp] theorem head_withHead (f : OpenFile img) (h : BitVec 64) : (f.withHead h).head = h := by
  cases f <;> rfl

theorem llseek_some {h : BitVec 64} (hseek : seekTo f.size f.head offset whence = some h) :
    llseek offset whence f = (h, f.withHead h) := by
  cases f with
  | blob file =>
    have hrun : blobfdLlseek offset whence file = (h, { file with head := h }) := by
      unfold blobfdLlseek
      rw [get_bind_run, show seekTo file.blob.size file.head offset whence = some h from hseek]
      rfl
    simp only [llseek, hrun, withHead]
  | sqfs file s =>
    have hrun : trnSqfsFileLlseek file offset whence s = (h, { s with head := h }) := by
      unfold trnSqfsFileLlseek
      rw [get_bind_run, show seekTo (BitVec.ofNat 64 file.fileSize) s.head offset whence = some h
        from hseek]
      rfl
    simp only [llseek, hrun, withHead]

theorem llseek_none (hseek : seekTo f.size f.head offset whence = none) :
    (llseek offset whence f).1.toInt < 0 ∧ (llseek offset whence f).2 = f := by
  cases f with
  | blob file =>
    have hrun : blobfdLlseek offset whence file = (-1#64, file) := by
      unfold blobfdLlseek
      rw [get_bind_run, show seekTo file.blob.size file.head offset whence = none from hseek]
      rfl
    simp only [llseek, hrun]
    decide
  | sqfs file s =>
    have hrun : trnSqfsFileLlseek file offset whence s = (BitVec.ofInt 64 (-Errno.einval), s) := by
      unfold trnSqfsFileLlseek
      rw [get_bind_run, show seekTo (BitVec.ofNat 64 file.fileSize) s.head offset whence = none
        from hseek]
      rfl
    simp only [llseek, hrun]
    decide

end OpenFile

/-! ## Calls through a descriptor -/

section Through

variable {σ : Type}

/-- What `_lseek_r` and `_read_r` return for the result of an operation. -/
def reported (res : BitVec 64) : Return := if res.toInt < 0 then .value (-1) else .value res.toInt

theorem reported_eq_neg {res : BitVec 64} : reported res = .value (-1) ↔ res.toInt < 0 := by
  unfold reported
  split_ifs with h
  · exact iff_of_true rfl h
  · refine iff_of_false (fun heq => ?_) h
    injection heq with heq
    omega

/-- The file behind a descriptor has these operations. -/
structure FileAt (env : SysEnv σ) (table : FdState) (fd : Int)
    (llseek : BitVec 64 → BitVec 32 → StateM σ (BitVec 64)) (read : BitVec 64 → StateM σ (BitVec 64)) :
    Prop where
  file : ∃ i p, slotOf fd = some i ∧ table.files i = some p ∧
    env.llseek (table.mem p.addr).ops = some (fun _ => llseek) ∧
    env.read (table.mem p.addr).ops = some (fun _ _ => read)

variable {env : SysEnv σ} {fd : Int} {llseek : BitVec 64 → BitVec 32 → StateM σ (BitVec 64)}
  {read : BitVec 64 → StateM σ (BitVec 64)} {s : SysState σ}

theorem files_put (table : FdState) (p : FilePtr) : (table.put p).files = table.files := by
  unfold FdState.put
  split_ifs <;> rfl

theorem ops_put (table : FdState) (p : FilePtr) :
    ((table.put p).mem p.addr).ops = (table.mem p.addr).ops := by
  unfold FdState.put
  split_ifs <;> simp [FdState.giveRef, FdState.callRelease, FdState.free]

/-- A call through a descriptor is one of the operation, and the file stays behind the
descriptor. -/
theorem FileAt.throughFile_run (h : FileAt env s.table fd llseek read)
    (op : Addr → Addr → Option (StateM σ (BitVec 64))) {x : StateM σ (BitVec 64)}
    (hop : ∀ ops data, env.llseek ops = some (fun _ => llseek) →
      env.read ops = some (fun _ _ => read) → op ops data = some x) :
    ∃ s', throughFile fd op s = (reported (x s.objects).1, s') ∧ s'.objects = (x s.objects).2 ∧
      FileAt env s'.table fd llseek read := by
  obtain ⟨i, p, hs, hf, hseek, hread⟩ := h.file
  obtain ⟨table, hget, hfiles, hops, hdata⟩ := fdFileGet_file hs hf
  have hrun : throughFile fd op s =
      (if (x s.objects).1.toInt < 0 then failWith ((-(x s.objects).1).setWidth 32).toInt
        else pure (.value (x s.objects).1.toInt))
      ⟨table.put p, (x s.objects).2, s.errno, p :: s.called⟩ := by
    unfold throughFile
    rw [bind_run]
    simp only [onTable, hget]
    rw [get_bind_run, hops, hdata, hop _ _ hseek hread, bind_run, bind_run]
    have hcall : callOp p (some x) ⟨table, s.objects, s.errno, s.called⟩ =
        ((x s.objects).1, ⟨table, (x s.objects).2, s.errno, p :: s.called⟩) := rfl
    have hput : onTable (fdFilePut (some p)) ⟨table, (x s.objects).2, s.errno, p :: s.called⟩ =
        ((), ⟨table.put p, (x s.objects).2, s.errno, p :: s.called⟩) := by
      unfold onTable
      rw [fdFilePut_run]
    rw [hcall, hput]
  rw [← hops, ← ops_put] at hseek hread
  rw [← hfiles, ← files_put table p] at hf
  rw [hrun]
  unfold reported
  split_ifs
  · exact ⟨_, rfl, rfl, i, p, hs, hf, hseek, hread⟩
  · exact ⟨_, rfl, rfl, i, p, hs, hf, hseek, hread⟩

theorem FileAt.lseek_run (h : FileAt env s.table fd llseek read) (offset : BitVec 64)
    (whence : BitVec 32) : ∃ s', lseekR env fd offset whence s =
      (reported (llseek offset whence s.objects).1, s') ∧
      s'.objects = (llseek offset whence s.objects).2 ∧ FileAt env s'.table fd llseek read := by
  unfold lseekR
  refine h.throughFile_run _ ?_
  intro ops data hseek _
  rw [hseek]
  rfl

theorem FileAt.read_run (h : FileAt env s.table fd llseek read) (ptr : Addr) (size : BitVec 64) :
    ∃ s', readR env fd ptr size s = (reported (read size s.objects).1, s') ∧
      s'.objects = (read size s.objects).2 ∧ FileAt env s'.table fd llseek read := by
  unfold readR
  refine h.throughFile_run _ ?_
  intro ops data _ hread
  rw [hread]
  rfl

end Through

/-! ## One seek -/

section Seek

variable {img : Image} {env : SysEnv (OpenFile img)} {table : FdState} {fd : Int}
  {read : BitVec 64 → StateM (OpenFile img) (BitVec 64)}

/-- If `_lseek_r` returns -1, the head is where it was. -/
def LseekKeeps (env : SysEnv (OpenFile img)) (table : FdState) (fd : Int) (f : OpenFile img)
    (offset : BitVec 64) (whence : BitVec 32) : Prop :=
  (lseekR env fd offset whence (.start table f)).1 = .value (-1) →
    (lseekR env fd offset whence (.start table f)).2.objects.head = f.head

theorem lseek_keeps_iff (h : FileAt env table fd OpenFile.llseek read) (f : OpenFile img)
    (offset : BitVec 64) (whence : BitVec 32) :
    LseekKeeps env table fd f offset whence ↔ f.SeekOk offset whence := by
  obtain ⟨s', hrun, hobjects, -⟩ := FileAt.lseek_run (s := .start table f) h offset whence
  unfold LseekKeeps OpenFile.SeekOk
  rw [hrun, reported_eq_neg, hobjects]
  show ((f.llseek offset whence).1.toInt < 0 → (f.llseek offset whence).2.head = _) ↔ _
  cases hseek : seekTo f.size f.head offset whence with
  | none =>
    obtain ⟨-, hsame⟩ := OpenFile.llseek_none hseek
    rw [hsame]
    exact iff_of_true (fun _ => rfl) fun _ h => nomatch h
  | some h =>
    rw [OpenFile.llseek_some hseek]
    simp only [OpenFile.head_withHead, Option.some.injEq, forall_eq']
    rw [or_iff_not_imp_left, Int.not_le]

end Seek

/-! ## Files -/

section Files

variable {img : Image}

/-- What is done with an open file. `other` is a call on another file of its image. -/
inductive OpenCall (img : Image)
  | lseek (offset : BitVec 64) (whence : BitVec 32)
  | read (avail : Avail) (size : BitVec 64)
  | write (avail : Avail) (buf : Blob)
  | other (call : FileCall img)

/-- The file after a call, unless it crashes. A blob is not written to. -/
def OpenFile.exec : OpenFile img → OpenCall img → Option (OpenFile img)
  | f, .lseek offset whence => some (llseek offset whence f).2
  | .blob file, .read _ size => some (.blob (blobfdRead size file).2)
  | .blob file, .write _ _ => some (.blob file)
  | .blob file, .other _ => some (.blob file)
  | .sqfs file s, .read avail size =>
    (trnSqfsFileRead avail file size s).map fun r => .sqfs file r.2
  | .sqfs file s, .write avail buf =>
    (trnSqfsFileWrite avail file buf s).map fun r => .sqfs file r.2
  | .sqfs file s, .other call => (call.run s.caches).map fun c => .sqfs file { s with caches := c }

/-- A file that was just opened. -/
def OpenFile.Fresh : OpenFile img → Prop
  | .blob file => ∃ blob, file = blobfdCreate blob
  | .sqfs _ s => s.head = 0#64 ∧ (sqfsSystem img).Reachable s.caches

def openSystem (img : Image) : System (OpenFile img) (OpenCall img) where
  init := OpenFile.Fresh
  step f call f' := f.exec call = some f'

/-- The call is no seek in front of the file. -/
def OpenCall.Ok (f : OpenFile img) : OpenCall img → Prop
  | .lseek offset whence => f.SeekOk offset whence
  | _ => True

/-- The head is not negative, and the caches are in order. -/
structure OpenFile.Sound (f : OpenFile img) : Prop where
  nonneg : 0 ≤ f.head.toInt
  sized : ∀ file s, f = .sqfs file s → s.caches.Sized img

theorem toInt_nonneg_of_lt {h : BitVec 64} (hlt : h.toNat < 2 ^ 63) : 0 ≤ h.toInt := by
  have := BitVec.toInt_eq_toNat_cond h
  omega

theorem blobfdRead_nonneg (size : BitVec 64) (file : BlobFile) :
    0 ≤ (blobfdRead size file).2.head.toInt := by
  have hsize := file.blob.toNat_size
  have hlt := file.blob.length_lt
  show 0 ≤ (file.head + file.clamped size).toInt
  refine toInt_nonneg_of_lt ?_
  unfold BlobFile.clamped
  split_ifs with hgt
  · rw [BitVec.add_comm, BitVec.sub_add_cancel]
    omega
  · rw [gt_iff_lt, BitVec.lt_def] at hgt
    omega

/-- A range that is read or written leaves the head in the file, and the caches in order. -/
theorem finish_sound {β : Type} {move : Move β} {avail : Avail} {file : RegFile img} {s : FileState}
    {size : BitVec 64} {buf : β} {r : (BitVec 64 × Option β) × FileState} (hmove : KeepsSize move)
    (h : (OpenFile.sqfs file s).Sound)
    (hr : finish (sqfsRange avail file move s.head size buf) s = some r) :
    (OpenFile.sqfs file r.2).Sound := by
  have hs := h.sized file s rfl
  refine ⟨?_, fun _ _ heq => ?_⟩
  · show 0 ≤ r.2.head.toInt
    unfold finish at hr
    split at hr
    · next n b c hx =>
      have hend : s.head.toNat + n ≤ _ := sqfsRange_end hmove hs h.nonneg hx
      have hlt := file.fileSize_lt
      cases hr
      refine toInt_nonneg_of_lt ?_
      rw [BitVec.toNat_add, BitVec.toNat_ofNat]
      omega
    · cases hr
      exact h.nonneg
    · cases hr
  · cases heq
    rw [finish_caches hr]
    exact keeps_sqfsRange hmove buf _ hs

namespace OpenFile.Sound

variable {f f' : OpenFile img}

theorem of_fresh (h : f.Fresh) : f.Sound := by
  cases f with
  | blob file =>
    obtain ⟨blob, rfl⟩ := h
    exact ⟨Int.le_refl 0, fun _ _ h => nomatch h⟩
  | sqfs file s =>
    refine ⟨?_, fun _ _ heq => ?_⟩
    · show 0 ≤ s.head.toInt
      rw [h.1]
      exact Int.le_refl 0
    · cases heq
      exact sized_of_reachable h.2

theorem llseek (h : f.Sound) {offset : BitVec 64} {whence : BitVec 32}
    (hok : f.SeekOk offset whence) : (OpenFile.llseek offset whence f).2.Sound := by
  cases hseek : seekTo f.size f.head offset whence with
  | none =>
    rw [(OpenFile.llseek_none hseek).2]
    exact h
  | some head =>
    rw [OpenFile.llseek_some hseek]
    refine ⟨?_, fun file s heq => ?_⟩
    · rw [head_withHead]
      rcases hok head hseek with hpos | hsame
      · exact hpos
      · exact hsame ▸ h.nonneg
    · cases f with
      | blob file => cases heq
      | sqfs file s =>
        cases heq
        exact h.sized file s rfl

/-- A call that is no seek in front of the file keeps it sound. -/
theorem exec (h : f.Sound) {call : OpenCall img} (hok : call.Ok f) (hexec : f.exec call = some f') :
    f'.Sound := by
  cases call with
  | lseek offset whence =>
    cases hexec
    exact h.llseek hok
  | read avail size =>
    cases f with
    | blob file =>
      cases hexec
      exact ⟨blobfdRead_nonneg size file, fun _ _ h => nomatch h⟩
    | sqfs file s =>
      obtain ⟨r, hr, rfl⟩ := Option.map_eq_some_iff.1 hexec
      exact finish_sound readMove_keepsSize h hr
  | write avail buf =>
    cases f with
    | blob file =>
      cases hexec
      exact h
    | sqfs file s =>
      obtain ⟨r, hr, rfl⟩ := Option.map_eq_some_iff.1 hexec
      obtain ⟨r', hr', rfl⟩ := Option.map_eq_some_iff.1 hr
      exact finish_sound (writeMove_keepsSize _) h hr'
  | other call =>
    cases f with
    | blob file =>
      cases hexec
      exact h
    | sqfs file s =>
      obtain ⟨c, hc, rfl⟩ := Option.map_eq_some_iff.1 hexec
      refine ⟨h.nonneg, fun _ _ heq => ?_⟩
      cases heq
      exact call.keeps_sized (h.sized file s rfl) hc

end OpenFile.Sound

/-- **Heads are not negative** in a run without seeks in front of the file. -/
theorem head_nonneg {f : OpenFile img}
    (hf : ((openSystem img).restrict fun f call _ => call.Ok f).Reachable f) : 0 ≤ f.head.toInt := by
  refine (hf.invariant (fun f => OpenFile.Sound.of_fresh) ?_).nonneg
  intro f call f' h hstep
  exact h.exec hstep.2 hstep.1

end Files

/-! ## The image -/

/-- The blob that the image is in, and what has been copied from it, newest first. -/
structure ImageFd where
  file : BlobFile
  copies : List Copy

def imageLlseek (offset : BitVec 64) (whence : BitVec 32) : StateM ImageFd (BitVec 64) := fun o =>
  ((blobfdLlseek offset whence o.file).1, { o with file := (blobfdLlseek offset whence o.file).2 })

def imageRead (size : BitVec 64) : StateM ImageFd (BitVec 64) := fun o =>
  ((blobfdRead size o.file).1.1, ⟨(blobfdRead size o.file).2, (blobfdRead size o.file).1.2 :: o.copies⟩)

/-- A result as an `off_t`. -/
def Return.off : Return → BitVec 64
  | .value v => BitVec.ofInt 64 v
  | _ => 0#64

def sqfsPread {σ : Type} (env : SysEnv σ) (fd : Int) (buf : Addr) (count off : BitVec 64) :
    SysM σ Return := do
  let curPos ← lseekR env fd 0#64 1#32
  if curPos = .value (-1) then return .value (-1)
  let set ← lseekR env fd off 0#32
  if set = .value (-1) then return .value (-1)
  let numRead ← readR env fd buf count
  let reset ← lseekR env fd curPos.off 0#32
  if reset = .value (-1) then return .value (-1)
  return numRead

/-- The arguments of a call. -/
structure Pread where
  buf : Addr
  count : BitVec 64
  off : BitVec 64

def Pread.exec {σ : Type} (env : SysEnv σ) (fd : Int) (p : Pread) (s : SysState σ) : SysState σ :=
  (sqfsPread env fd p.buf p.count p.off s).2

/-- What a call does to the image, without descriptors. -/
def ImageFd.pread (o : ImageFd) (p : Pread) : Return × ImageFd :=
  let there : BlobFile := { o.file with head := p.off }
  if o.file.head.toInt < 0 then (.value (-1), o)
  else if p.off.toInt < 0 then (.value (-1), { o with file := there })
  else (reported (there.clamped p.count),
    { o with copies := ⟨p.off.toInt, (there.clamped p.count).toNat⟩ :: o.copies })

section Pread

variable {env : SysEnv ImageFd} {fd : Int} {s : SysState ImageFd}

theorem imageLlseek_cur (o : ImageFd) : imageLlseek 0#64 1#32 o = (o.file.head, o) := by
  have hrun : blobfdLlseek 0#64 1#32 o.file =
      (o.file.head + 0#64, { o.file with head := o.file.head + 0#64 }) := rfl
  unfold imageLlseek
  rw [hrun, BitVec.add_zero]

theorem imageLlseek_set (off : BitVec 64) (o : ImageFd) :
    imageLlseek off 0#32 o = (off, { o with file := { o.file with head := off } }) := rfl

theorem off_reported {h : BitVec 64} (hnonneg : ¬ h.toInt < 0) : (reported h).off = h := by
  unfold reported
  rw [if_neg hnonneg]
  exact BitVec.ofInt_toInt

/-- **One call**: three seeks and a read. -/
theorem sqfsPread_run (h : FileAt env s.table fd imageLlseek imageRead) (p : Pread) :
    ∃ s', sqfsPread env fd p.buf p.count p.off s = ((s.objects.pread p).1, s') ∧
      s'.objects = (s.objects.pread p).2 ∧ FileAt env s'.table fd imageLlseek imageRead := by
  obtain ⟨s₁, hcur, ho₁, h₁⟩ := h.lseek_run 0#64 1#32
  rw [imageLlseek_cur] at hcur ho₁
  obtain ⟨s₂, hset, ho₂, h₂⟩ := h₁.lseek_run p.off 0#32
  rw [ho₁, imageLlseek_set] at hset ho₂
  unfold sqfsPread ImageFd.pread
  rw [bind_run, hcur]
  by_cases hneg : s.objects.file.head.toInt < 0
  · rw [if_pos (reported_eq_neg.2 hneg), if_pos hneg]
    exact ⟨s₁, rfl, ho₁, h₁⟩
  rw [if_neg fun heq => hneg (reported_eq_neg.1 heq), if_neg hneg, bind_run, hset, off_reported hneg]
  by_cases hoff : p.off.toInt < 0
  · rw [if_pos (reported_eq_neg.2 hoff), if_pos hoff]
    exact ⟨s₂, rfl, ho₂, h₂⟩
  obtain ⟨s₃, hread, ho₃, h₃⟩ := h₂.read_run p.buf p.count
  obtain ⟨s₄, hreset, ho₄, h₄⟩ := h₃.lseek_run s.objects.file.head 0#32
  rw [imageLlseek_set] at hreset ho₄
  rw [if_neg fun heq => hoff (reported_eq_neg.1 heq), if_neg hoff, bind_run, hread, bind_run, hreset]
  rw [if_neg fun heq => hneg (reported_eq_neg.1 heq)]
  rw [ho₂] at ho₃ ⊢
  rw [ho₃] at ho₄
  exact ⟨s₄, rfl, ho₄, h₄⟩

/-! ## Later calls -/

/-- All that is copied is in the blob. -/
def Copy.Inside (c : Copy) (blob : Blob) : Prop :=
  ∀ k, k < c.count → 0 ≤ c.start + k ∧ c.start + k < blob.bytes.length

/-- How many of the bytes that are asked for there are. -/
def Pread.available (blob : Blob) (p : Pread) : Nat :=
  min p.count.toNat (blob.bytes.length - p.off.toNat)

/-- A call that works: nothing has been copied from outside of the image before, and it returns how
many bytes there are, has copied these, and leaves the head where it was. -/
structure PreadWorks (env : SysEnv ImageFd) (fd : Int) (s : SysState ImageFd) (p : Pread) : Prop where
  alive : ∀ c ∈ s.objects.copies, c.Inside s.objects.file.blob
  returned : (sqfsPread env fd p.buf p.count p.off s).1 =
    .value (p.available s.objects.file.blob)
  copied : ∃ c, (sqfsPread env fd p.buf p.count p.off s).2.objects.copies = c :: s.objects.copies ∧
    c.bytesOf s.objects.file.blob = ((s.objects.file.blob.bytes.drop p.off.toNat).take
      (p.available s.objects.file.blob)).map some
  restored : (sqfsPread env fd p.buf p.count p.off s).2.objects.file.head = s.objects.file.head

/-- The bytes of a call are in the image, or there are none left, and the end of what is asked for
does not wrap around into it. -/
def Pread.InRange (blob : Blob) (p : Pread) : Prop := (BlobFile.mk blob p.off).InRange p.count

/-- Nothing has been copied from outside of the image, and the head is not negative. -/
structure ImageFd.Intact (o : ImageFd) : Prop where
  alive : ∀ c ∈ o.copies, c.Inside o.file.blob
  nonneg : 0 ≤ o.file.head.toInt

namespace ImageFd

variable {o : ImageFd} {p : Pread}

theorem blob_pread (o : ImageFd) (p : Pread) : (o.pread p).2.file.blob = o.file.blob := by
  unfold pread
  split_ifs <;> rfl

theorem pread_of_nonneg (hhead : 0 ≤ o.file.head.toInt) (hoff : 0 ≤ p.off.toInt) :
    o.pread p = (reported ((BlobFile.mk o.file.blob p.off).clamped p.count),
      { o with copies := ⟨p.off.toInt, ((BlobFile.mk o.file.blob p.off).clamped p.count).toNat⟩ ::
        o.copies }) := by
  unfold pread
  rw [if_neg (Int.not_lt.2 hhead), if_neg (Int.not_lt.2 hoff)]

/-- **One call** keeps the image intact if and only if it is in range. -/
theorem intact_pread_iff : (o.pread p).2.Intact ↔ o.Intact ∧ p.InRange o.file.blob := by
  by_cases hhead : o.file.head.toInt < 0
  · have hrun : o.pread p = (.value (-1), o) := if_pos hhead
    rw [hrun]
    exact iff_of_false (fun h => absurd h.nonneg (Int.not_le.2 hhead))
      fun h => absurd h.1.nonneg (Int.not_le.2 hhead)
  by_cases hoff : p.off.toInt < 0
  · have hrun : o.pread p = (.value (-1), { o with file := { o.file with head := p.off } }) :=
      (if_neg hhead).trans (if_pos hoff)
    rw [hrun]
    exact iff_of_false (fun h => absurd h.nonneg (Int.not_le.2 hoff))
      fun h => absurd h.2.nonneg (Int.not_le.2 hoff)
  rw [pread_of_nonneg (Int.not_lt.1 hhead) (Int.not_lt.1 hoff)]
  constructor
  · intro h
    obtain ⟨hinside, halive⟩ := forall_mem_cons.1 h.alive
    exact ⟨⟨halive, h.nonneg⟩, .of_inside hinside⟩
  · intro ⟨h, hrange⟩
    exact ⟨forall_mem_cons.2 ⟨hrange.readsInside.inside, h.alive⟩, h.nonneg⟩

end ImageFd

/-- After some calls the image is intact exactly if it was and they were all in range. -/
theorem intact_after_iff (h : FileAt env s.table fd imageLlseek imageRead) (ps : List Pread) :
    FileAt env (System.after (Pread.exec env fd) s ps).table fd imageLlseek imageRead ∧
    (System.after (Pread.exec env fd) s ps).objects.file.blob = s.objects.file.blob ∧
    ((System.after (Pread.exec env fd) s ps).objects.Intact ↔
      s.objects.Intact ∧ ∀ p ∈ ps, p.InRange s.objects.file.blob) := by
  induction ps generalizing s with
  | nil => exact ⟨h, rfl, by simp [System.after]⟩
  | cons p ps ih =>
    obtain ⟨s', hrun, hobjects, h'⟩ := sqfsPread_run h p
    have hexec : p.exec env fd s = s' := by
      unfold Pread.exec
      rw [hrun]
    obtain ⟨hafter, hblob, hiff⟩ := ih h'
    have hsame : s'.objects.file.blob = s.objects.file.blob := by
      rw [hobjects, ImageFd.blob_pread]
    rw [show System.after (Pread.exec env fd) s (p :: ps) =
      System.after (Pread.exec env fd) (p.exec env fd s) ps from rfl, hexec]
    refine ⟨hafter, hblob.trans hsame, ?_⟩
    rw [hiff, hsame, hobjects, ImageFd.intact_pread_iff, forall_mem_cons, and_assoc]

/-- A call from an offset of the image works if and only if the image is intact and the size does
not wrap around. -/
theorem pread_works_iff (h : FileAt env s.table fd imageLlseek imageRead) (p : Pread)
    (hoff : 0 ≤ p.off.toInt) (hle : p.off.toInt ≤ s.objects.file.blob.bytes.length) :
    PreadWorks env fd s p ↔ s.objects.Intact ∧ p.InRange s.objects.file.blob := by
  obtain ⟨s', hrun, hobjects, -⟩ := sqfsPread_run h p
  constructor
  · intro hworks
    have hhead : 0 ≤ s.objects.file.head.toInt := by
      by_contra hneg
      have hreturned := hworks.returned
      rw [hrun, show s.objects.pread p = (.value (-1), s.objects) from if_pos (Int.not_le.1 hneg)]
        at hreturned
      injection hreturned with hreturned
      omega
    refine ⟨⟨hworks.alive, hhead⟩, hoff, hle, ?_⟩
    by_contra hwrap
    -- all that is asked for would be copied, and that is more than there is
    have hreturned := hworks.returned
    have hlt := s.objects.file.blob.length_lt
    have hcount := BitVec.toInt_eq_toNat_cond p.count
    rw [hrun, ImageFd.pread_of_nonneg hhead hoff, BlobFile.clamped_of_wrap
      (by omega) (by omega)] at hreturned
    unfold reported Pread.available at hreturned
    dsimp only at hreturned hwrap
    split_ifs at hreturned <;> injection hreturned with hreturned <;> omega
  · intro ⟨hintact, hrange⟩
    have hreads := hrange.readsInside
    obtain ⟨hcount, hbytes⟩ := hreads.all hoff hle
    have hreturned := hreads.returned
    rw [hcount] at hbytes hreturned
    refine ⟨hintact.alive, ?_, ⟨_, ?_, hbytes⟩, ?_⟩
    · have hint : ((BlobFile.mk s.objects.file.blob p.off).clamped p.count).toInt =
          p.available s.objects.file.blob := hreturned
      rw [hrun, ImageFd.pread_of_nonneg hintact.nonneg hoff]
      unfold reported
      rw [if_neg (by omega), hint]
    · rw [hrun, hobjects, ImageFd.pread_of_nonneg hintact.nonneg hoff]
      rfl
    · rw [hrun, hobjects, ImageFd.pread_of_nonneg hintact.nonneg hoff]

end Pread

/-! ## Results -/

/-- **Seeks that fail.** A seek that returns -1 leaves the head alone if and only if it does not
lead in front of the file, or to where the head is already; in a run whose seeks all do, no head is
negative; and after any calls of `sqfs_pread` one from an offset of the image works if and only if
the head was not negative at first and all of them were in range. -/
theorem failed_seeks (img : Image) :
    (∀ (env : SysEnv (OpenFile img)) table fd read, FileAt env table fd OpenFile.llseek read →
      ∀ f offset whence, LseekKeeps env table fd f offset whence ↔ f.SeekOk offset whence) ∧
    (∀ f : OpenFile img, ((openSystem img).restrict fun f call _ => call.Ok f).Reachable f →
      0 ≤ f.head.toInt) ∧ (∀ env table fd, FileAt env table fd imageLlseek imageRead →
      ∀ (blob : Blob) (head : BitVec 64) (ps : List Pread) (p : Pread),
        0 ≤ p.off.toInt → p.off.toInt ≤ blob.bytes.length →
        (PreadWorks env fd (System.after (Pread.exec env fd) (.start table ⟨⟨blob, head⟩, []⟩) ps) p ↔
          0 ≤ head.toInt ∧ ∀ p' ∈ p :: ps, p'.InRange blob)) := by
  refine ⟨fun env table fd read h => lseek_keeps_iff h, fun f => head_nonneg, ?_⟩
  intro env table fd h blob head ps p hoff hle
  obtain ⟨hafter, hblob, hiff⟩ := intact_after_iff (s := .start table ⟨⟨blob, head⟩, []⟩) h ps
  have hstart : (ImageFd.mk ⟨blob, head⟩ []).Intact ↔ 0 ≤ head.toInt :=
    ⟨fun h => h.nonneg, fun h => ⟨fun c hc => absurd hc not_mem_nil, h⟩⟩
  rw [pread_works_iff hafter p hoff (by rw [hblob]; exact hle), hiff, hblob, forall_mem_cons]
  show (ImageFd.Intact ⟨⟨blob, head⟩, []⟩ ∧ _) ∧ _ ↔ _
  rw [hstart, and_assoc]
  exact and_congr_right fun _ => and_comm

/-- The operations of a file, and nothing else. -/
def fileEnv {σ : Type} (llseek : BitVec 64 → BitVec 32 → StateM σ (BitVec 64))
    (read : BitVec 64 → StateM σ (BitVec 64)) : SysEnv σ where
  llseek _ := some fun _ => llseek
  read _ := some fun _ _ => read
  write _ := none
  trnFsOpen _ _ := pure (Err.fsNotFound, 0#32)
  loadInt _ _ := none
  storeInt _ _ := pure ()
  bsdConnect _ _ _ := pure (0#32, 0#32)
  socketFops := bareEnv.socketFops
  socketFops_ne := bareEnv.socketFops_ne

/-- A table with a file at descriptor 3. -/
def oneFile : FdState :=
  { FdWorld.empty.table with
    fds := fun i => ⟨0, if i.val = 3 then some ⟨0x2000#64, 0⟩ else none⟩ }

theorem fileEnv_fileAt {σ : Type} (llseek : BitVec 64 → BitVec 32 → StateM σ (BitVec 64))
    (read : BitVec 64 → StateM σ (BitVec 64)) : FileAt (fileEnv llseek read) oneFile 3 llseek read :=
  ⟨3, ⟨0x2000#64, 0⟩, rfl, rfl, rfl, rfl⟩

/-- Three bytes that were just opened. -/
def threeBytesOpen : OpenFile fourLetters := .blob (blobfdCreate threeBytes)

theorem threeBytes_seeks :
    LseekKeeps (fileEnv OpenFile.llseek fun _ => pure 0#64) oneFile 3 threeBytesOpen 2#64 0#32 ∧
    0 ≤ threeBytesOpen.head.toInt ∧ PreadWorks (fileEnv imageLlseek imageRead) 3
      (System.after (Pread.exec (fileEnv imageLlseek imageRead) 3)
        (.start oneFile ⟨blobfdCreate threeBytes, []⟩) [⟨0x3000#64, 4#64, 1#64⟩])
      ⟨0x3000#64, 1#64, 2#64⟩ := by
  obtain ⟨hseek, hheads, hpread⟩ := failed_seeks fourLetters
  refine ⟨?_, hheads _ (.init ⟨threeBytes, rfl⟩), ?_⟩
  · refine (hseek _ _ _ _ (fileEnv_fileAt _ _) threeBytesOpen 2#64 0#32).2 fun h hto => .inl ?_
    cases hto
    decide
  · refine (hpread _ _ _ (fileEnv_fileAt _ _) threeBytes 0#64 _ _ (by decide) (by decide)).2
      ⟨by decide, forall_mem_cons.2 ⟨?_, forall_mem_singleton.2 ?_⟩⟩
    · exact ⟨by decide, by decide, .inl (by decide)⟩
    · exact ⟨by decide, by decide, .inl (by decide)⟩

/-- A seek to -5 fails and leaves the head there, and after a `sqfs_pread` from -5 one from 0
fails. -/
theorem threeBytes_poisoned :
    (lseekR (fileEnv OpenFile.llseek fun _ => pure 0#64) 3 (-5#64) 0#32
      (.start oneFile threeBytesOpen)).1 = .value (-1) ∧
    (lseekR (fileEnv OpenFile.llseek fun _ => pure 0#64) 3 (-5#64) 0#32
      (.start oneFile threeBytesOpen)).2.objects.head = -5#64 ∧
    (sqfsPread (fileEnv imageLlseek imageRead) 3 0x3000#64 1#64 0#64
      (System.after (Pread.exec (fileEnv imageLlseek imageRead) 3)
        (.start oneFile ⟨blobfdCreate threeBytes, []⟩) [⟨0x3000#64, 1#64, -5#64⟩])).1 =
          .value (-1) := ⟨rfl, rfl, rfl⟩

end LibTransistor
