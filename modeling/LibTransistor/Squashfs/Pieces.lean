import LibTransistor.Squashfs.File

/-!
# A range in pieces

A range of a file is cut at the ends of its blocks. `RegFile.pieces` are the pieces, in the order in
which the loop of `sqfs_read_range` and `sqfs_write_range` comes to them, and `rangeLoop_eq` says
that the loop does one after the other: as long as every cached block has the size of the one in the
image (`Caches.Sized`), no size depends on what is cached.
-/

namespace LibTransistor.Squashfs

open Fallible

variable {α : Type} {b : Block}
variable {x : EStateM Failure (BlockCache dataCachedBlks) α}

/-! ## Sizes -/

variable {img : Image} {β : Type} {n : Nat}

/-- A cached block is as large as the one in the image. -/
def BlockCacheSized (img : Image) (c : BlockCache n) : Prop :=
  ∀ i b, c.entries i = some b → b.size = (img.content (c.keys i)).size

structure Caches.Sized (img : Image) (s : Caches) : Prop where
  data : BlockCacheSized img s.data
  frag : BlockCacheSized img s.frag

/-- Blocks keep their size. -/
def KeepsSize (move : Move β) : Prop := ∀ b off count done buf,
  ∃ data, (move (some b) off count done buf).1 = some ⟨b.size, data⟩

theorem readMove_keepsSize : KeepsSize readMove := fun b _ _ _ _ => ⟨b.data, rfl⟩

theorem writeMove_keepsSize (bytes : List Byte) : KeepsSize (writeMove bytes) := fun _ _ _ _ _ =>
  ⟨_, rfl⟩

namespace BlockCacheSized

variable {c : BlockCache n} {i : Fin n}

theorem store_some (h : BlockCacheSized img c) (hb : b.size = (img.content (c.keys i)).size) :
    BlockCacheSized img (c.store i (some b)) := by
  intro j b' hb'
  by_cases hj : j = i
  · subst hj
    rw [SlotCache.entries_store_self] at hb'
    cases hb'
    exact hb
  · rw [SlotCache.entries_store_of_ne _ hj] at hb'
    exact h j b' hb'

theorem add_store (h : BlockCacheSized img c) {pos : Nat} {block : Option Block}
    (hblock : ∀ b, block = some b → b.size = (img.content pos).size) :
    BlockCacheSized img ((c.add pos).store c.next block) := by
  intro j b hb
  by_cases hj : j = c.next
  · subst hj
    rw [SlotCache.entries_store_self] at hb
    rw [SlotCache.keys_store, SlotCache.keys_add_next]
    exact hblock b hb
  · rw [SlotCache.entries_store_of_ne _ hj] at hb
    rw [SlotCache.keys_store, SlotCache.keys_add_of_ne hj]
    exact h j b hb

end BlockCacheSized

/-! ## The caches -/

section Cache

variable {c : BlockCache n} {i : Fin n} {pos : Nat}

theorem dataCache_hit (avail : Bool) (h : c.find pos = some i) :
    sqfsDataCache img avail pos c = .ok i c := by
  unfold sqfsDataCache
  rw [get_bind_run, h]
  rfl

theorem dataCache_miss (h : c.find pos = none) (hnext : ¬ NextIsNull c) :
    sqfsDataCache img true pos c =
      .ok c.next ((c.add pos).store c.next (some (img.content pos))) := by
  unfold sqfsDataCache
  rw [get_bind_run, h]
  exact failIf_bind_of_not hnext

theorem dataCache_fails (h : c.find pos = none) (hnext : ¬ NextIsNull c) :
    sqfsDataCache img false pos c = .error (.sqfs .err) ((c.add pos).store c.next none) := by
  unfold sqfsDataCache
  rw [get_bind_run, h]
  exact failIf_bind_of_not hnext

theorem dataCache_crash (avail : Bool) (h : c.find pos = none) (hnext : NextIsNull c) :
    sqfsDataCache img avail pos c = .error .crash c := by
  unfold sqfsDataCache
  rw [get_bind_run, h]
  exact failIf_bind_of hnext

theorem dataCache_ends (h : BlockCacheSized img c) (avail : Bool) (pos : Nat) :
    Ends (sqfsDataCache img avail pos c) (fun i c' => BlockCacheSized img c' ∧ c'.keys i = pos)
      (fun _ c' => BlockCacheSized img c') := by
  cases hfind : c.find pos with
  | some i =>
    rw [dataCache_hit avail hfind]
    exact ⟨h, SlotCache.keys_of_find hfind⟩
  | none =>
    by_cases hnext : NextIsNull c
    · rw [dataCache_crash avail hfind hnext]
      exact h
    cases avail with
    | true =>
      rw [dataCache_miss hfind hnext]
      refine ⟨h.add_store fun b hb => ?_, SlotCache.keys_add_next⟩
      cases hb
      rfl
    | false =>
      rw [dataCache_fails hfind hnext]
      exact h.add_store fun b hb => nomatch hb

theorem sizeOf_some (h : c.entries i = some b) : sizeOf i c = .ok b.size c := by
  unfold sizeOf
  rw [get_bind_run, h]
  rfl

theorem sizeOf_none (h : c.entries i = none) : sizeOf i c = .error .crash c := by
  unfold sizeOf
  rw [get_bind_run, h]
  rfl

variable {move : Move β} {off count done : Nat} {buf : β}

theorem copy_none (h : c.entries i = none) :
    copy move i off count done buf c = .ok (move none off count done buf).2 c := by
  unfold copy
  rw [get_bind_run, h]
  rfl

theorem copy_some (h : c.entries i = some b) (hle : off + count ≤ b.size) :
    copy move i off count done buf c =
      .ok (move (some b) off count done buf).2
        (c.store i (move (some b) off count done buf).1) := by
  unfold copy
  rw [get_bind_run, h]
  dsimp only
  rw [failIf_bind_of_not (Nat.not_lt.2 hle)]
  rfl

theorem copy_crash (h : c.entries i = some b) (hlt : b.size < off + count) :
    copy move i off count done buf c = .error .crash c := by
  unfold copy
  rw [get_bind_run, h]
  exact failIf_bind_of hlt

theorem copy_ends (h : BlockCacheSized img c) (hmove : KeepsSize move) :
    Ends (copy move i off count done buf c) (fun _ c' => BlockCacheSized img c')
      (fun _ c' => BlockCacheSized img c') := by
  cases hb : c.entries i with
  | none =>
    rw [copy_none hb]
    exact h
  | some b =>
    by_cases hle : off + count ≤ b.size
    · obtain ⟨data, hdata⟩ := hmove b off count done buf
      rw [copy_some hb hle, hdata]
      exact h.store_some (h i b hb)
    · rw [copy_crash hb (Nat.not_le.1 hle)]
      exact h

end Cache

/-! ## Pieces -/

/-- Where bytes of a file are: in a hole, in the block at a position, or in the fragment that is in
the block at a position. -/
inductive Source
  | hole
  | data (pos : Nat)
  | frag (pos : Nat)
  deriving DecidableEq

/-- Part of a range: `count` bytes that are at `off` in a block, behind `done` bytes of the
range. -/
structure Piece where
  source : Source
  off : Nat
  count : Nat
  done : Nat

/-- The position of a block that is not shared. -/
def Source.pos? : Source → Option Nat
  | .data pos => some pos
  | _ => none

theorem Source.eq_data_of_pos? {src : Source} {pos : Nat} (h : src.pos? = some pos) :
    src = .data pos := by
  cases src <;> cases h
  rfl

/-- The blocks in the order of the pieces. -/
def dataPos (ps : List Piece) : List Nat := ps.filterMap fun p => p.source.pos?

/-- The number of bytes in some pieces. -/
def total (ps : List Piece) : Nat := (ps.map Piece.count).sum

@[simp] theorem total_nil : total [] = 0 := rfl

@[simp] theorem total_cons (p : Piece) (ps : List Piece) : total (p :: ps) = p.count + total ps := by
  simp [total]

namespace RegFile

variable (file : RegFile img)

/-- Where the bytes of a block are. -/
def sourceOf (i : Nat) : Source :=
  if headerSize (file.header i) = 0 then .hole else .data (file.blockPos i)

/-- The pieces of a range, with `remain` blocks to go from block `i` on. -/
def pieces (start : BitVec 64) : (remain i readOff size done : Nat) → List Piece
  | _, _, _, 0, _ => []
  | 0, _, readOff, size + 1, done =>
    match file.frag with
    | none => []
    | some frag => [⟨.frag frag.startBlock, frag.off + readOff,
        takeOf (file.fileSize % img.blockSize) readOff (size + 1), done⟩]
  | remain + 1, i, readOff, size + 1, done =>
    if i * img.blockSize + img.blockSize ≤ start.toNat then
      pieces start remain (i + 1) readOff (size + 1) done
    else
      let take := takeOf (file.blockLen img.blockSize i) readOff (size + 1)
      ⟨file.sourceOf i, readOff, take, done⟩ ::
        pieces start remain (i + 1) 0 (size + 1 - take) (done + take)

end RegFile

/-- One piece. -/
def runPiece (img : Image) (avail : Avail) (move : Move β) (p : Piece) (buf : β) :
    EStateM Failure Caches β :=
  match p.source with
  | .hole => return (move none p.off p.count p.done buf).2
  | .data pos => do
    let i ← onData (sqfsDataCache img (avail.data pos) pos)
    let _ ← onData (sizeOf i)
    onData (copy move i p.off p.count p.done buf)
  | .frag pos => do
    let i ← onFrag (sqfsDataCache img avail.frag pos)
    onFrag (copy move i p.off p.count p.done buf)

/-- One piece after the other. -/
def runPieces (img : Image) (avail : Avail) (move : Move β) :
    List Piece → β → EStateM Failure Caches β
  | [], buf => pure buf
  | p :: ps, buf => do
    let buf ← runPiece img avail move p buf
    runPieces img avail move ps buf

/-! ## The loop -/

section Loop

variable {avail : Avail} {move : Move β} {s : Caches}

theorem onData_of_ok {a : α} {c : BlockCache dataCachedBlks} (h : x s.data = .ok a c) :
    onData x s = .ok a { s with data := c } := zoom_of_ok h

theorem onData_of_error {e : Failure} {c : BlockCache dataCachedBlks} (h : x s.data = .error e c) :
    onData x s = .error e { s with data := c } := zoom_of_error h

theorem onFrag_of_ok {x : EStateM Failure (BlockCache fragCachedBlks) α} {a : α}
    {c : BlockCache fragCachedBlks} (h : x s.frag = .ok a c) :
    onFrag x s = .ok a { s with frag := c } := zoom_of_ok h

theorem Caches.Sized.onData (h : s.Sized img)
    (hx : Ends (x s.data) (fun _ c => BlockCacheSized img c) (fun _ c => BlockCacheSized img c)) :
    (final (onData x s)).Sized img := by
  refine Keeps.ends_iff.1 ((Ends.zoom hx).imp ?_ ?_)
  · rintro a t ⟨c, hc, rfl⟩
    exact ⟨hc, h.frag⟩
  · rintro e t ⟨c, hc, rfl⟩
    exact ⟨hc, h.frag⟩

theorem Caches.Sized.onFrag (h : s.Sized img) {x : EStateM Failure (BlockCache fragCachedBlks) α}
    (hx : Ends (x s.frag) (fun _ c => BlockCacheSized img c) (fun _ c => BlockCacheSized img c)) :
    (final (onFrag x s)).Sized img := by
  refine Keeps.ends_iff.1 ((Ends.zoom hx).imp ?_ ?_)
  · rintro a t ⟨c, hc, rfl⟩
    exact ⟨h.data, hc⟩
  · rintro e t ⟨c, hc, rfl⟩
    exact ⟨h.data, hc⟩

theorem keeps_dataCache (avail : Bool) (pos : Nat) :
    Keeps (Caches.Sized img) (onData (sqfsDataCache img avail pos)) := fun _ h =>
  h.onData ((dataCache_ends h.data avail pos).imp (fun _ _ hc => hc.1) fun _ _ hc => hc)

theorem keeps_fragCache (avail : Bool) (pos : Nat) :
    Keeps (Caches.Sized img) (onFrag (sqfsDataCache img avail pos)) := fun _ h =>
  h.onFrag ((dataCache_ends h.frag avail pos).imp (fun _ _ hc => hc.1) fun _ _ hc => hc)

theorem keeps_runPiece (hmove : KeepsSize move) (p : Piece) (buf : β) :
    Keeps (Caches.Sized img) (runPiece img avail move p buf) := by
  unfold runPiece
  cases p.source with
  | hole => exact .pure _
  | data pos =>
    refine .bind (keeps_dataCache _ pos) fun i => .bind (fun s h => h.onData ?_) fun _ s h =>
      h.onData (copy_ends h.data hmove)
    cases hb : s.data.entries i with
    | none =>
      rw [sizeOf_none hb]
      exact h.data
    | some b =>
      rw [sizeOf_some hb]
      exact h.data
  | frag pos =>
    exact .bind (keeps_fragCache _ pos) fun i s h => h.onFrag (copy_ends h.frag hmove)

theorem keeps_runPieces (hmove : KeepsSize move) (ps : List Piece) (buf : β) :
    Keeps (Caches.Sized img) (runPieces img avail move ps buf) := by
  induction ps generalizing buf with
  | nil => exact .pure buf
  | cons p ps ih => exact .bind (keeps_runPiece hmove p buf) ih

/-- The block list has got to block `i`. -/
structure Blocklist.At (bl : Blocklist) (file : RegFile img) (i : Nat) : Prop where
  cur : bl.cur = i
  pos : (if bl.started then bl.pos + img.blockSize else bl.pos) = i * img.blockSize
  block : bl.block + bl.inputSize = file.blockPos i

theorem Blocklist.at_init (file : RegFile img) : file.toRegInode.blocklist.At file 0 :=
  ⟨rfl, by simp [RegInode.blocklist], rfl⟩

theorem Blocklist.At.next {bl : Blocklist} {file : RegFile img} {i : Nat} (h : bl.At file i) :
    (bl.next file.toRegInode img.blockSize).At file (i + 1) := by
  refine ⟨congrArg (· + 1) h.cur, ?_, ?_⟩
  · simp [Blocklist.next, h.pos, Nat.succ_mul]
  · simp [Blocklist.next, h.cur, h.block, RegInode.blockPos]

theorem runPiece_data {file : RegFile img} {i : Nat} (hi : i < file.count img.blockSize)
    (hdata : headerSize (file.header i) ≠ 0) (hs : s.Sized img)
    (f : Nat → Fin dataCachedBlks → EStateM Failure Caches α) :
    (do
      let slot ← onData (sqfsDataCache img (avail.data (file.blockPos i)) (file.blockPos i))
      let dataSize ← onData (sizeOf slot)
      f dataSize slot : EStateM Failure Caches α) s =
    (do
      let slot ← onData (sqfsDataCache img (avail.data (file.blockPos i)) (file.blockPos i))
      let _ ← onData (sizeOf slot)
      f (file.blockLen img.blockSize i) slot : EStateM Failure Caches α) s := by
  have hends := dataCache_ends hs.data (avail.data (file.blockPos i)) (file.blockPos i)
  cases hrun : sqfsDataCache img (avail.data (file.blockPos i)) (file.blockPos i) s.data with
  | error e c => rw [bind_of_error (onData_of_error hrun), bind_of_error (onData_of_error hrun)]
  | ok slot c =>
    rw [hrun] at hends
    rw [bind_of_ok (onData_of_ok hrun), bind_of_ok (onData_of_ok hrun)]
    cases hb : c.entries slot with
    | none => rw [bind_of_error (onData_of_error (sizeOf_none hb)),
        bind_of_error (onData_of_error (sizeOf_none hb))]
    | some b =>
      have hsize : b.size = file.blockLen img.blockSize i := by
        rw [hends.1 slot b hb, hends.2, file.size_content i hi hdata]
      rw [bind_of_ok (onData_of_ok (sizeOf_some hb)), bind_of_ok (onData_of_ok (sizeOf_some hb)), hsize]

theorem rangeLoop_eq (hmove : KeepsSize move) (file : RegFile img) (start : BitVec 64)
    {remain i : Nat} (hcount : i + remain ≤ file.count img.blockSize) {bl : Blocklist}
    (hbl : bl.At file i) (readOff size done : Nat) (buf : β) (hs : s.Sized img) :
    rangeLoop avail file move start remain bl readOff size done buf s =
      (runPieces img avail move (file.pieces start remain i readOff size done) buf >>= fun buf =>
        pure (size - total (file.pieces start remain i readOff size done), buf)) s := by
  induction remain generalizing i bl readOff size done buf s with
  | zero =>
    cases size with
    | zero => rfl
    | succ size =>
      rw [rangeLoop, RegFile.pieces]
      cases file.frag with
      | none => rfl
      | some frag =>
        dsimp only [runPieces, runPiece]
        simp only [bind_assoc, total_cons, total_nil, Nat.add_zero, pure_bind]
  | succ remain ih =>
    cases size with
    | zero => rfl
    | succ size =>
      have hpos : (bl.next file.toRegInode img.blockSize).pos = i * img.blockSize := hbl.pos
      have hsize : (bl.next file.toRegInode img.blockSize).inputSize = headerSize (file.header i) := by
        rw [← hbl.cur]
        rfl
      have hblock : (bl.next file.toRegInode img.blockSize).block = file.blockPos i := hbl.block
      rw [rangeLoop, RegFile.pieces]
      rw [hpos, hsize, hblock, show min (file.fileSize - i * img.blockSize) img.blockSize =
        file.blockLen img.blockSize i from rfl]
      split_ifs with hskip hhole
      · exact ih (by omega) hbl.next readOff (size + 1) done buf hs
      all_goals
        rw [runPieces, bind_assoc, total_cons, ← Nat.sub_sub]
        have hkeeps : Keeps (Caches.Sized img) (runPiece img avail move
          ⟨file.sourceOf i, readOff, takeOf (file.blockLen img.blockSize i) readOff (size + 1), done⟩
          buf) := keeps_runPiece hmove _ _
        rw [← hkeeps.bind_congr (f := fun buf => rangeLoop avail file move start remain _ 0 _ _ buf)
          (fun buf t ht => ih (by omega) hbl.next 0 _ _ buf ht) hs]
      · rw [runPiece, show file.sourceOf i = .hole from if_pos hhole]
        rw [pure_bind]
      · rw [runPiece_data (by omega) hhole hs, runPiece,
          show file.sourceOf i = .data (file.blockPos i) from if_neg hhole]
        simp only [bind_assoc]

end Loop

end LibTransistor.Squashfs
