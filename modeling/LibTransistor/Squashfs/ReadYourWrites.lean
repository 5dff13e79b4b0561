import LibTransistor.Squashfs.CachedPieces

/-!
# Reading back what was written

`sqfs_write_range` writes to cached blocks only, and nothing ever goes to the image. So what is
written can be read back as long as it is in a cache (`write_read_back_iff`).

* The fragment stays in its cache, unless the cache has a null pointer for its block.
* Other blocks share a cache with one slot. If the range is in one of them, it is there. If it is in
  two or more, each one replaces the one before it, in the write and in the read, and what is read
  comes from the image.
* Holes have no block, and are read as zeros.
-/

namespace LibTransistor.Squashfs

open Fallible List

variable {img : Image}

/-! ## Reading back -/

/-- What is written to `n` bytes from `start` on can be read back, if `s` are the caches before the
write, and `avail` says which blocks can be read again after it. -/
structure Survives (file : RegFile img) (start : BitVec 64) (n : Nat) (bytes : List Byte)
    (avail : Avail) (s : Caches) : Prop where
  /-- Only zeros are written to holes. -/
  holes : ∀ k < n, file.sourceAt start k = .hole → bytes[k]? = some 0#8
  /-- So are they to a fragment whose block could not be read before. -/
  frag : ∀ k < n, ∀ pos, file.sourceAt start k = .frag pos → s.FragLost pos → bytes[k]? = some 0#8
  /-- To a block that is not the only one, what is already there is written, and it can be read
  again. -/
  blocks : ∀ k < n, ∀ pos, file.sourceAt start k = .data pos →
    (∃ k' < n, ∃ pos', file.sourceAt start k' = .data pos' ∧ pos' ≠ pos) →
    bytes[k]? = some (file.diskByte start k) ∧ avail.data pos = true

section ReadBack

variable {file : RegFile img} {start : BitVec 64} {i : Nat} {ps : List Piece} {bytes : List Byte}
  {avail : Avail} {s s' : Caches} {p : Piece} {pos : Nat}

theorem exists_of_mem_dataPos (h : pos ∈ dataPos ps) : ∃ p ∈ ps, p.source = .data pos := by
  obtain ⟨p, hp, hpos⟩ := mem_filterMap.1 h
  exact ⟨p, hp, Source.eq_data_of_pos? hpos⟩

theorem survives_iff (hcut : file.Cut start i 0 ps) (hcount : ∀ p ∈ ps, 0 < p.count) :
    Survives file start (total ps) bytes avail s ↔
      (∀ p ∈ ps, p.source = .hole → ∀ j < p.count, bytes[p.done + j]? = some 0#8) ∧
      (∀ p ∈ ps, ∀ pos, p.source = .frag pos → s.FragLost pos →
        ∀ j < p.count, bytes[p.done + j]? = some 0#8) ∧
      (∀ p ∈ ps, ∀ pos, p.source = .data pos → (∃ pos' ∈ dataPos ps, pos' ≠ pos) →
        (∀ j < p.count, bytes[p.done + j]? = some ((img.content pos).data (p.off + j))) ∧
          avail.data pos = true) := by
  have hlt : ∀ p ∈ ps, ∀ j < p.count, p.done + j < total ps := fun p hp j hj => by
    have := hcut.done_le hp
    omega
  constructor
  · intro h
    refine ⟨fun p hp hsource j hj => ?_, fun p hp pos hsource hlost j hj => ?_,
      fun p hp pos hsource hother => ?_⟩
    · exact h.holes _ (hlt p hp j hj) ((hcut.source_eq hp hj).trans hsource)
    · exact h.frag _ (hlt p hp j hj) pos ((hcut.source_eq hp hj).trans hsource) hlost
    · obtain ⟨pos', hpos', hne⟩ := hother
      obtain ⟨p', hp', hsource'⟩ := exists_of_mem_dataPos hpos'
      have hblocks := fun j hj => h.blocks (p.done + j) (hlt p hp j hj) pos
        ((hcut.source_eq hp hj).trans hsource)
        ⟨p'.done + 0, hlt p' hp' 0 (hcount p' hp'), pos',
          (hcut.source_eq hp' (hcount p' hp')).trans hsource', hne⟩
      refine ⟨fun j hj => ?_, (hblocks 0 (hcount p hp)).2⟩
      rw [(hblocks j hj).1, hcut.diskByte_eq hp hj hsource]
  · intro ⟨hholes, hfrag, hblocks⟩
    have hmem : ∀ k < total ps, ∃ p ∈ ps, ∃ j < p.count, k = p.done + j := fun k hk =>
      hcut.exists_mem (Nat.zero_le k) (by omega)
    refine ⟨fun k hk hsource => ?_, fun k hk pos hsource hlost => ?_,
      fun k hk pos hsource hother => ?_⟩
    all_goals
      obtain ⟨p, hp, j, hj, rfl⟩ := hmem k hk
      rw [hcut.source_eq hp hj] at hsource
    · exact hholes p hp hsource j hj
    · exact hfrag p hp pos hsource hlost j hj
    · obtain ⟨k', hk', pos', hsource', hne⟩ := hother
      obtain ⟨p', hp', j', hj', rfl⟩ := hmem k' hk'
      rw [hcut.source_eq hp' hj'] at hsource'
      obtain ⟨hbytes, havail⟩ := hblocks p hp pos hsource ⟨pos', mem_dataPos hp' hsource', hne⟩
      rw [hcut.diskByte_eq hp hj hsource]
      exact ⟨hbytes j hj, havail⟩

/-- The blocks that are read after a write: those of the fragment cache, and others. -/
def blocksAfter (s : Caches) (g : Nat → Option Block) : Source → Option Block
  | .hole => none
  | .data pos => g pos
  | .frag pos => (s.frag.find pos).bind s.frag.entries

theorem blocksAfter_frag {g : Nat → Option Block} {j : Fin fragCachedBlks}
    (h : s.frag.find pos = some j) : blocksAfter s g (.frag pos) = s.frag.entries j := by
  simp [blocksAfter, h]

namespace Written

variable {g : Nat → Option Block}

theorem inCache (h : Written img bytes s s' ps) (hp : p ∈ ps) (hnone : p.source.pos? = .none) :
    p.InCache (blocksAfter s' g) s' := by
  unfold Piece.InCache
  cases hsource : p.source with
  | data pos =>
    rw [hsource] at hnone
    cases hnone
  | hole => exact ⟨fun _ hb => (nomatch hb), rfl⟩
  | frag pos =>
    obtain ⟨j, hfind, hwritten⟩ := h.frag p hp pos hsource
    refine ⟨fun b hb => ?_, j, hfind, (blocksAfter_frag hfind).symm⟩
    rw [blocksAfter_frag hfind] at hb
    rcases hwritten with ⟨-, hentry⟩ | ⟨-, b', hentry, hholds⟩
    · rw [hentry] at hb
      cases hb
    · rw [hentry] at hb
      cases hb
      exact hholds.fits

theorem hole_iff (hsource : p.source = .hole) (hlen : p.done + p.count ≤ bytes.length) :
    p.bytes (blocksAfter s' g) = p.slice bytes ↔
      ∀ j < p.count, bytes[p.done + j]? = some 0#8 := by
  rw [Piece.bytes_eq_slice_iff hlen]
  unfold Piece.byte
  rw [hsource]
  rfl

theorem frag_iff (h : Written img bytes s s' ps) (hp : p ∈ ps) (hsource : p.source = .frag pos)
    (hlen : p.done + p.count ≤ bytes.length) :
    p.bytes (blocksAfter s' g) = p.slice bytes ↔
      (s.FragLost pos → ∀ j < p.count, bytes[p.done + j]? = some 0#8) := by
  obtain ⟨j, hfind, hwritten⟩ := h.frag p hp pos hsource
  have hblock : blocksAfter s' g p.source = s'.frag.entries j := by
    rw [hsource, blocksAfter_frag hfind]
  rcases hwritten with ⟨hlost, hentry⟩ | ⟨hlost, b, hentry, hholds⟩
  · rw [Piece.bytes_eq_slice_iff hlen]
    unfold Piece.byte
    rw [hblock, hentry]
    exact ⟨fun h _ => h, fun h => h hlost⟩
  · refine iff_of_true ?_ fun h => absurd h hlost
    rw [← hholds.read]
    unfold Piece.bytes Piece.byte
    rw [hblock, hentry]
    rfl

theorem data_iff (hsource : p.source = .data pos) (hg : g pos = some (img.content pos))
    (hlen : p.done + p.count ≤ bytes.length) :
    p.bytes (blocksAfter s' g) = p.slice bytes ↔
      ∀ j < p.count, bytes[p.done + j]? = some ((img.content pos).data (p.off + j)) := by
  rw [Piece.bytes_eq_slice_iff hlen]
  unfold Piece.byte
  rw [hsource, show blocksAfter s' g (.data pos) = some (img.content pos) from hg]

theorem bytes_iff (h : Written img bytes s s' ps) (hlen : ∀ p ∈ ps, p.done + p.count ≤ bytes.length) :
    (∀ p ∈ ps, p.bytes (blocksAfter s' g) = p.slice bytes) ↔
      (∀ p ∈ ps, p.source = .hole → ∀ j < p.count, bytes[p.done + j]? = some 0#8) ∧
      (∀ p ∈ ps, ∀ pos, p.source = .frag pos → s.FragLost pos →
        ∀ j < p.count, bytes[p.done + j]? = some 0#8) ∧
      (∀ p ∈ ps, ∀ pos, p.source = .data pos → p.bytes (blocksAfter s' g) = p.slice bytes) := by
  constructor
  · intro hall
    exact ⟨fun p hp hsource => (hole_iff hsource (hlen p hp)).1 (hall p hp),
      fun p hp pos hsource => (h.frag_iff hp hsource (hlen p hp)).1 (hall p hp),
      fun p hp _ _ => hall p hp⟩
  · intro ⟨hholes, hfrag, hdata⟩ p hp
    cases hsource : p.source with
    | hole => exact (hole_iff hsource (hlen p hp)).2 (hholes p hp hsource)
    | frag pos => exact (h.frag_iff hp hsource (hlen p hp)).2 (hfrag p hp pos hsource)
    | data pos => exact hdata p hp pos hsource

end Written

/-- Of ever higher positions there is no more than one, or the last one is not the first. -/
theorem single_or_chain {qs : List Nat} (h : qs.Pairwise (· < ·)) :
    (∀ q ∈ qs, qs = [q]) ∨ (∀ q ∈ qs, ∃ q' ∈ qs, q' ≠ q) ∧
      ∃ last, qs.getLast? = some last ∧ (last :: qs).IsChain (· ≠ ·) := by
  rcases qs with _ | ⟨q₁, _ | ⟨q₂, rest⟩⟩
  · exact .inl fun q hq => absurd hq not_mem_nil
  · exact .inl fun q hq => by rw [mem_singleton.1 hq]
  · have hfirst := (pairwise_cons.1 h).1
    refine .inr ⟨fun q hq => ?_, (q₂ :: rest).getLast (cons_ne_nil _ _), ?_, ?_⟩
    · by_cases heq : q = q₁
      · exact ⟨q₂, by simp, heq ▸ Nat.ne_of_gt (hfirst q₂ mem_cons_self)⟩
      · exact ⟨q₁, by simp, fun h => heq h.symm⟩
    · rw [getLast?_cons_cons, getLast?_eq_some_getLast]
    · have hlast := hfirst _ (getLast_mem (cons_ne_nil q₂ rest))
      exact .cons_cons (Nat.ne_of_gt hlast) (h.isChain.imp fun _ _ => Nat.ne_of_lt)

section Single

variable (h : Written img bytes s s' ps) (hone : ∀ pos ∈ dataPos ps, dataPos ps = [pos])
include h hone

/-- Through the only block of a range it is read as it was written. -/
theorem Written.holds_single (hp : p ∈ ps) (hsource : p.source = .data pos) :
    s'.data.keys 0 = pos ∧ ∃ b, s'.data.entries 0 = some b ∧ b.Holds p bytes := by
  have hps := hone pos (mem_dataPos hp hsource)
  obtain ⟨b, hb, hholds⟩ := h.single pos hps
  exact ⟨(h.last pos (by rw [hps]; rfl)).1, b, hb, hholds p hp hsource⟩

theorem Written.readAll_single (buf : List Byte) : runPieces img avail readMove ps buf s' =
      .ok (buf ++ ps.flatMap (Piece.bytes (blocksAfter s' fun _ => s'.data.entries 0))) s' := by
  refine readAll_inCache (fun p hp => ?_) buf
  cases hpos : p.source.pos? with
  | none => exact h.inCache hp hpos
  | some pos =>
    have hsource := Source.eq_data_of_pos? hpos
    obtain ⟨hkey, b, hb, hholds⟩ := h.holds_single hone hp hsource
    unfold Piece.InCache
    rw [hsource]
    refine ⟨fun b' hb' => ?_, ne_of_eq_of_ne hb (Option.some_ne_none b), hkey, rfl⟩
    cases hb.symm.trans hb'
    exact hholds.fits

theorem Written.data_single (hp : p ∈ ps) (hsource : p.source = .data pos) :
    p.bytes (blocksAfter s' fun _ => s'.data.entries 0) = p.slice bytes := by
  obtain ⟨-, b, hb, hholds⟩ := h.holds_single hone hp hsource
  rw [← hholds.read]
  unfold Piece.bytes Piece.byte
  rw [hsource, show blocksAfter s' (fun _ => s'.data.entries 0) (.data pos) = some b from hb]
  rfl

end Single

theorem readAll_iff (hcut : file.Cut start i 0 ps) (hcount : ∀ p ∈ ps, 0 < p.count)
    (hlen : total ps ≤ bytes.length) (h : Written img bytes s s' ps) :
    (∃ s'', runPieces img avail readMove ps [] s' = .ok (bytes.take (total ps)) s'') ↔
      Survives file start (total ps) bytes avail s := by
  have hlens : ∀ p ∈ ps, p.done + p.count ≤ bytes.length := fun p hp => by
    have := hcut.done_le hp
    omega
  have hall : ∀ f : Source → Option Block, ps.flatMap (Piece.bytes f) = bytes.take (total ps) ↔
      ∀ p ∈ ps, p.bytes f = p.slice bytes := fun f => hcut.flatMap_eq_iff (by omega) f
  rw [survives_iff hcut hcount]
  rcases single_or_chain hcut.dataPos_increasing.1 with hone | ⟨hother, last, hlast, hchain⟩
  · have hread : (∃ s'', runPieces img avail readMove ps [] s' = .ok (bytes.take (total ps)) s'') ↔
        ps.flatMap (Piece.bytes (blocksAfter s' fun _ => s'.data.entries 0)) =
          bytes.take (total ps) := by
      rw [h.readAll_single hone, nil_append]
      exact ⟨fun ⟨_, heq⟩ => (EStateM.Result.ok.inj heq).1, fun heq => ⟨s', by rw [heq]⟩⟩
    rw [hread, hall, h.bytes_iff hlens]
    refine and_congr_right fun _ => and_congr_right fun _ => ?_
    refine iff_of_true (fun p hp pos => h.data_single hone hp) fun p hp pos hsource hother => ?_
    -- there is no other block
    obtain ⟨pos', hpos', hne⟩ := hother
    rw [hone pos (mem_dataPos hp hsource)] at hpos'
    exact absurd (mem_singleton.1 hpos') hne
  · obtain ⟨hkey, hblock⟩ := h.last last hlast
    rw [← hkey] at hchain
    obtain ⟨hok, herror⟩ := readAll_miss hchain hblock (fun _ => rfl) h.fits (fun p hp => h.inCache hp) []
    have hread : (∃ s'', runPieces img avail readMove ps [] s' = .ok (bytes.take (total ps)) s'') ↔
        (∀ pos ∈ dataPos ps, avail.data pos = true) ∧
          ps.flatMap (Piece.bytes (blocksAfter s' fun pos => some (img.content pos))) =
            bytes.take (total ps) := by
      by_cases havail : ∀ pos ∈ dataPos ps, avail.data pos = true
      · obtain ⟨t, hrun⟩ := hok havail
        rw [hrun, and_iff_right havail, nil_append]
        exact ⟨fun ⟨_, heq⟩ => (EStateM.Result.ok.inj heq).1, fun heq => ⟨t, by rw [heq]⟩⟩
      · obtain ⟨t, hrun⟩ := herror (by simpa using havail)
        rw [hrun]
        exact iff_of_false (fun ⟨_, heq⟩ => nomatch heq) fun h => havail h.1
    rw [hread, hall, h.bytes_iff hlens]
    constructor
    · intro ⟨havail, hholes, hfrag, hdata⟩
      refine ⟨hholes, hfrag, fun p hp pos hsource _ => ⟨?_, havail pos (mem_dataPos hp hsource)⟩⟩
      exact (Written.data_iff hsource rfl (hlens p hp)).1 (hdata p hp pos hsource)
    · intro ⟨hholes, hfrag, hblocks⟩
      refine ⟨fun pos hpos => ?_, hholes, hfrag, fun p hp pos hsource => ?_⟩
      · obtain ⟨p, hp, hsource⟩ := exists_of_mem_dataPos hpos
        exact (hblocks p hp pos hsource (hother pos hpos)).2
      · exact (Written.data_iff hsource rfl (hlens p hp)).2
          (hblocks p hp pos hsource (hother pos (mem_dataPos hp hsource))).1

end ReadBack

/-! ## Writes and reads of files -/

section Files

variable {file : RegFile img} {avail : Avail} {s : Caches} {start : BitVec 64}

theorem writeRange_eq_ok {bytes : List Byte} {size : BitVec 64} (hs : s.Sized img) {n : Nat}
    {s' : Caches} (h : sqfsWriteRange avail file start size bytes s = .ok (n, ()) s') (hn : 0 < n) :
    start.toInt < file.fileSize ∧ n = total (file.rangePieces start size.toNat) ∧
      runPieces img avail (writeMove bytes) (file.rangePieces start size.toNat) () s = .ok () s' := by
  have hvalid : 0 ≤ size.toInt ∧ start.toInt < file.fileSize := by
    obtain ⟨hcheck, h⟩ := failIf_bind_eq_ok.1 h
    split_ifs at h with hend
    · cases h
      omega
    · omega
  rw [sqfsWriteRange, sqfsRange_eq (writeMove_keepsSize bytes) hs hvalid.1 hvalid.2] at h
  obtain ⟨u, hrun, h⟩ := unit_bind_eq_ok.1 h
  obtain ⟨-, h⟩ := failIf_bind_eq_ok.1 h
  cases h
  exact ⟨hvalid.2, rfl, hrun⟩

theorem readRange_eq_ok {size : BitVec 64} (hs : s.Sized img) (hsize : 0 < size.toInt)
    (hstart : start.toInt < file.fileSize)
    (htotal : total (file.rangePieces start size.toNat) = size.toNat) (bytes : List Byte)
    (n : Nat) (s' : Caches) :
    sqfsReadRange avail file start size s = .ok (n, bytes) s' ↔ n = size.toNat ∧
      runPieces img avail readMove (file.rangePieces start size.toNat) [] s = .ok bytes s' := by
  have hpos : 0 < size.toNat := by
    have := BitVec.toInt_eq_toNat_cond size
    omega
  rw [sqfsReadRange, sqfsRange_eq readMove_keepsSize hs (Int.le_of_lt hsize) hstart, htotal]
  rw [bind_eq_ok]
  constructor
  · intro ⟨buf, u, hrun, h⟩
    obtain ⟨-, h⟩ := failIf_bind_eq_ok.1 h
    cases h
    exact ⟨rfl, hrun⟩
  · intro ⟨hn, hrun⟩
    exact ⟨bytes, s', hrun, failIf_bind_eq_ok.2 ⟨Nat.ne_of_gt hpos, by rw [hn]; rfl⟩⟩

/-- Seek back, and read. -/
def readBack (avail : Avail) (file : RegFile img) (start size : BitVec 64) (s : FileState) :
    Option ((BitVec 64 × Option (List Byte)) × FileState) :=
  trnSqfsFileRead avail file size (trnSqfsFileLlseek file start 0#32 s).2

theorem readBack_iff {n : BitVec 64} (hs : s.Sized img) (hn : 0 < n.toInt)
    (hstart : start.toInt < file.fileSize)
    (htotal : total (file.rangePieces start n.toNat) = n.toNat) (head : BitVec 64)
    (bytes : List Byte) :
    (∃ s', readBack avail file start n ⟨head, s⟩ = some ((n, some bytes), s')) ↔
      ∃ s', runPieces img avail readMove (file.rangePieces start n.toNat) [] s = .ok bytes s' := by
  have hback : readBack avail file start n ⟨head, s⟩ =
      finish (sqfsReadRange avail file start n) ⟨start, s⟩ := rfl
  rw [hback]
  simp only [finish_some, readRange_eq_ok hs hn hstart htotal]
  constructor
  · intro ⟨_, _, s', h, _⟩
    exact ⟨s', h.2⟩
  · intro ⟨s', h⟩
    exact ⟨_, _, s', ⟨rfl, h⟩, by simp, rfl⟩

end Files

/-- **Reading back what was written.** In every state, after a write of `n` bytes, these are read
back if and only if they survive. -/
theorem write_read_back_iff (img : Image) (file : RegFile img) (s : FileState)
    (hs : (sqfsSystem img).Reachable s.caches) (buf : Blob) (avail avail' : Avail) (n : BitVec 64)
    (s' : FileState) (hwrite : trnSqfsFileWrite avail file buf s = some (n, s'))
    (hn : 0 < n.toInt) :
    (∃ s'', readBack avail' file s.head n s' = some ((n, some (buf.bytes.take n.toNat)), s'')) ↔
      Survives file s.head n.toNat buf.bytes avail' s.caches := by
  have hsized := sized_of_reachable hs
  obtain ⟨⟨⟨n, done⟩, t⟩, hfinish, heq⟩ := Option.map_eq_some_iff.1 hwrite
  cases heq
  obtain ⟨⟨⟩, rfl⟩ := isSome_of_pos hfinish hn
  obtain ⟨osize, c, hrange, hosize, rfl⟩ := finish_some.1 hfinish
  have hpos : 0 < osize := by
    rcases Nat.eq_zero_or_pos osize with rfl | hpos
    · rw [← hosize] at hn
      cases hn
    · exact hpos
  obtain ⟨hstart, htotal, hrun⟩ := writeRange_eq_ok hsized hrange hpos
  have hle : total (file.rangePieces s.head buf.size.toNat) ≤ buf.size.toNat :=
    RegFile.total_pieces_le _ _ _ _ _ _
  have hlen := buf.length_lt
  rw [buf.toNat_size] at hle hrun htotal
  have hnat : n.toNat = osize := by
    rw [← hosize, BitVec.toNat_ofNat]
    omega
  obtain ⟨i, hcut⟩ := RegFile.exists_cut hstart buf.bytes.length
  have hcount : ∀ p ∈ file.rangePieces s.head buf.bytes.length, 0 < p.count := fun p =>
    hcut.count_pos (.inr (htotal ▸ hpos))
  have hpieces : file.rangePieces s.head n.toNat = file.rangePieces s.head buf.bytes.length := by
    rw [hnat, htotal]
    exact RegFile.pieces_total _ _ _ _ _ hcount
  have hwritten := hcut.written hsized (by omega) hrun
  have hsized' : c.Sized img := (keeps_sqfsRange (writeMove_keepsSize _) ()).of_ok hsized hrange
  rw [← hpieces] at hcut hcount hwritten hle htotal
  have hall : total (file.rangePieces s.head n.toNat) = n.toNat := by rw [← htotal, hnat]
  rw [readBack_iff hsized' hn hstart hall]
  have hiff : (∃ c', runPieces img avail' readMove _ [] c = _) ↔ _ :=
    readAll_iff hcut hcount hle hwritten
  rw [hall] at hiff
  exact hiff

/-- A file of two blocks. -/
def twoBlocks : RegFile fourLetters where
  fileSize := 8
  startBlock := 96
  header _ := 4#32
  frag := none
  fileSize_lt := by decide
  size_content := by decide
  frag_nonempty h := by cases h
  frag_le f h := by cases h

/-- All blocks can be read. -/
def allAvail : Avail := ⟨fun _ => true, true⟩

/-- Three times the letter b. -/
def threeLetters : Blob := ⟨List.replicate 3 0x62#8, by decide⟩

theorem twoBlocks_first_read_back : ∃ s' s'',
    trnSqfsFileWrite allAvail twoBlocks threeLetters ⟨1#64, Caches.initial⟩ = some (3#64, s') ∧
    readBack allAvail twoBlocks 1#64 3#64 s' =
      some ((3#64, some (threeLetters.bytes.take 3)), s'') := by
  have hwrite : trnSqfsFileWrite allAvail twoBlocks threeLetters ⟨1#64, Caches.initial⟩ =
    some (3#64, _) := rfl
  have hfirst : ∀ k < 3, twoBlocks.sourceAt 1#64 k = .data 96 := by decide
  have hsurvives : Survives twoBlocks 1#64 3 threeLetters.bytes allAvail Caches.initial := by
    refine ⟨fun k hk h => ?_, fun k hk pos h => ?_, fun k hk pos h hother => ?_⟩
    · cases (hfirst k hk).symm.trans h
    · cases (hfirst k hk).symm.trans h
    · obtain ⟨k', hk', pos', h', hne⟩ := hother
      cases (hfirst k hk).symm.trans h
      cases (hfirst k' hk').symm.trans h'
      exact absurd rfl hne
  obtain ⟨s'', hread⟩ := (write_read_back_iff fourLetters twoBlocks ⟨1#64, Caches.initial⟩ (.init rfl)
    threeLetters allAvail allAvail 3#64 _ hwrite (by decide)).2 hsurvives
  exact ⟨_, s'', hwrite, hread⟩

/-- Of three letters behind the third byte, one goes to the first block and two go to the second,
and none of them is read back. -/
theorem twoBlocks_not_read_back : ∃ s' s'',
    trnSqfsFileWrite allAvail twoBlocks threeLetters ⟨3#64, Caches.initial⟩ = some (3#64, s') ∧
    readBack allAvail twoBlocks 3#64 3#64 s' =
      some ((3#64, some [0x61#8, 0x61#8, 0x61#8]), s'') ∧
    threeLetters.bytes.take 3 ≠ [0x61#8, 0x61#8, 0x61#8] := ⟨_, _, rfl, rfl, by decide⟩

end LibTransistor.Squashfs
