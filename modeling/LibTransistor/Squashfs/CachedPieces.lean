import LibTransistor.Squashfs.Ranges

/-!
# What reads and writes leave in the caches

**Writes.** A write leaves its last block in the data cache, which has one slot, and the block of
the fragment in the fragment cache: `RegFile.Cut.written`.

**Reads.** What is cached is read without a change to the caches (`readAll_inCache`). Blocks that
replace each other in the slot all come from the image (`readAll_miss`), and one that cannot be read
again ends the read.
-/

namespace LibTransistor.Squashfs

open Fallible List

variable {ps : List Piece}

variable {img : Image}

/-! ## What a piece is read as -/

/-- A byte of a piece, if `f` are the blocks. -/
def Piece.byte (f : Source → Option Block) (p : Piece) (j : Nat) : Byte :=
  match f p.source with
  | some b => b.data (p.off + j)
  | none => 0#8

variable (f : Source → Option Block)

def Piece.bytes (p : Piece) : List Byte :=
  (List.range p.count).map (p.byte f)

/-- The bytes of a buffer that belong to a piece. -/
def Piece.slice (bytes : List Byte) (p : Piece) : List Byte := (bytes.drop p.done).take p.count

theorem Piece.readMove_eq (p : Piece) (buf : List Byte) :
    readMove (f p.source) p.off p.count p.done buf = (f p.source, buf ++ p.bytes f) := by
  unfold readMove Piece.bytes Piece.byte
  cases f p.source with
  | none => simp
  | some b => rfl

variable {bytes : List Byte}

theorem Piece.length_slice {p : Piece} (h : p.done + p.count ≤ bytes.length) :
    (p.slice bytes).length = p.count := by
  simp only [slice, length_take, length_drop]
  omega

theorem Piece.getElem?_bytes (p : Piece) {j : Nat} (hj : j < p.count) :
    (p.bytes f)[j]? = some (p.byte f j) := by
  simp [bytes, hj]

theorem Piece.getElem?_slice (bytes : List Byte) (p : Piece) {j : Nat} (hj : j < p.count) :
    (p.slice bytes)[j]? = bytes[p.done + j]? := by
  simp [slice, hj]

theorem Piece.bytes_eq_slice_iff {p : Piece} {f : Source → Option Block}
    (h : p.done + p.count ≤ bytes.length) :
    p.bytes f = p.slice bytes ↔ ∀ j < p.count, bytes[p.done + j]? = some (p.byte f j) := by
  constructor
  · intro heq j hj
    rw [← p.getElem?_slice bytes hj, ← heq, p.getElem?_bytes f hj]
  · intro hall
    refine ext_getElem? fun j => ?_
    rcases Nat.lt_or_ge j p.count with hj | hj
    · rw [p.getElem?_bytes f hj, p.getElem?_slice bytes hj, hall j hj]
    · rw [getElem?_eq_none (by simpa [Piece.bytes] using hj),
        getElem?_eq_none (by rw [length_slice h]; exact hj)]

/-- Pieces one after the other make up a part of the buffer if each of them does. -/
theorem RegFile.Cut.flatMap_eq_iff {file : RegFile img} {start : BitVec 64} {i done : Nat}
    (h : Cut file start i done ps) (hlen : done + total ps ≤ bytes.length)
    (f : Source → Option Block) :
    ps.flatMap (Piece.bytes f) = (bytes.drop done).take (total ps) ↔
      ∀ p ∈ ps, p.bytes f = p.slice bytes := by
  induction h with
  | nil => simp
  | @block i readOff take done ps _ _ _ _ _ _ ih =>
    rw [total_cons] at hlen
    dsimp only at hlen
    rw [flatMap_cons, total_cons, forall_mem_cons, take_add, drop_drop,
      ← ih (by omega)]
    have hhead : (Piece.bytes f ⟨file.sourceOf i, readOff, take, done⟩).length =
        ((bytes.drop done).take take).length := by
      simp only [Piece.bytes, length_map, length_range, length_take, length_drop]
      omega
    constructor
    · intro heq
      exact append_inj heq hhead
    · intro heq
      rw [heq.2]
      exact congrArg (· ++ _) heq.1
  | frag => simp [Piece.slice]

/-! ## Writes -/

/-- The fragment cache has a null pointer for the block at a position. -/
def Caches.FragLost (s : Caches) (pos : Nat) : Prop :=
  ∃ i, s.frag.find pos = some i ∧ s.frag.entries i = none

/-- What a piece was written as: its block is there, and has the bytes. -/
structure Block.Holds (b : Block) (p : Piece) (bytes : List Byte) : Prop where
  fits : p.off + p.count ≤ b.size
  read : b.data.read p.off p.count = p.slice bytes

section Write

variable {avail : Avail} {bytes : List Byte} {n : Nat} {s s' : Caches} {p : Piece} {pos : Nat}

theorem find_of_dataCache {a : Bool} {c c' : BlockCache n} {i : Fin n}
    (h : sqfsDataCache img a pos c = .ok i c') : c'.find pos = some i ∧
      (c' = c ∨ c.find pos = none ∧ c'.entries i = some (img.content pos)) := by
  cases hfind : c.find pos with
  | some j =>
    rw [dataCache_hit a hfind] at h
    cases h
    exact ⟨hfind, .inl rfl⟩
  | none =>
    by_cases hnext : NextIsNull c
    · rw [dataCache_crash a hfind hnext] at h
      cases h
    cases a with
    | true =>
      rw [dataCache_miss hfind hnext] at h
      cases h
      exact ⟨SlotCache.find_add hfind, .inr ⟨rfl, SlotCache.entries_store_self _⟩⟩
    | false =>
      rw [dataCache_fails hfind hnext] at h
      cases h

theorem copy_write_eq_ok {c c' : BlockCache n} {i : Fin n} (hlen : p.done + p.count ≤ bytes.length)
    (h : copy (writeMove bytes) i p.off p.count p.done () c = .ok () c') :
    c'.keys = c.keys ∧ (c.entries i = none ∧ c' = c ∨
      c.entries i ≠ none ∧ ∃ b, c'.entries i = some b ∧ b.Holds p bytes) := by
  cases hb : c.entries i with
  | none =>
    rw [copy_none hb] at h
    cases h
    exact ⟨rfl, .inl ⟨rfl, rfl⟩⟩
  | some b =>
    by_cases hle : p.off + p.count ≤ b.size
    · rw [copy_some hb hle] at h
      cases h
      refine ⟨rfl, .inr ⟨Option.some_ne_none b, _, SlotCache.entries_store_self _, hle, ?_⟩⟩
      have hread := b.data.read_write_self p.off (p.slice bytes)
      rw [Piece.length_slice hlen] at hread
      exact hread
    · rw [copy_crash hb (Nat.not_le.1 hle)] at h
      cases h

/-- A piece of a block: the block is in the cache, with the bytes. -/
theorem write_data (hsource : p.source = .data pos) (hlen : p.done + p.count ≤ bytes.length)
    (h : runPiece img avail (writeMove bytes) p () s = .ok () s') :
    s'.frag = s.frag ∧ s'.data.keys 0 = pos ∧ ∃ b, s'.data.entries 0 = some b ∧ b.Holds p bytes := by
  unfold runPiece at h
  rw [hsource] at h
  obtain ⟨i, u, hcache, h⟩ := bind_eq_ok.1 h
  obtain ⟨size, v, hsize, hcopy⟩ := bind_eq_ok.1 h
  obtain ⟨c, hget, rfl⟩ := zoom_eq_ok.1 hcache
  obtain ⟨c', hof, rfl⟩ := zoom_eq_ok.1 hsize
  obtain ⟨c'', hput, rfl⟩ := zoom_eq_ok.1 hcopy
  have hi : i = 0 := Subsingleton.elim i 0
  subst hi
  have hkey := SlotCache.keys_of_find (find_of_dataCache hget).1
  cases hb : c.entries 0 with
  | none =>
    rw [sizeOf_none hb] at hof
    cases hof
  | some b =>
    rw [sizeOf_some hb] at hof
    cases hof
    obtain ⟨hkeys, hnone | hsome⟩ := copy_write_eq_ok hlen hput
    · rw [hb] at hnone
      cases hnone.1
    · exact ⟨rfl, (congrFun hkeys 0).trans hkey, hsome.2⟩

/-- A piece of the fragment: so is its block, unless there is none. -/
theorem write_frag (hsource : p.source = .frag pos) (hlen : p.done + p.count ≤ bytes.length)
    (h : runPiece img avail (writeMove bytes) p () s = .ok () s') :
    s'.data = s.data ∧ ∃ i, s'.frag.find pos = some i ∧
      (s.FragLost pos ∧ s'.frag.entries i = none ∨
        ¬ s.FragLost pos ∧ ∃ b, s'.frag.entries i = some b ∧ b.Holds p bytes) := by
  unfold runPiece at h
  rw [hsource] at h
  obtain ⟨i, u, hcache, hcopy⟩ := bind_eq_ok.1 h
  obtain ⟨c, hget, rfl⟩ := zoom_eq_ok.1 hcache
  obtain ⟨c', hput, rfl⟩ := zoom_eq_ok.1 hcopy
  obtain ⟨hfind, hold⟩ := find_of_dataCache hget
  obtain ⟨hkeys, hcopied⟩ := copy_write_eq_ok hlen hput
  have hlost : s.FragLost pos ↔ c.entries i = none := by
    rcases hold with rfl | ⟨hmiss, hentry⟩
    · exact ⟨fun ⟨j, hj, hnone⟩ => Option.some.inj (hj.symm.trans hfind) ▸ hnone,
        fun hnone => ⟨i, hfind, hnone⟩⟩
    · rw [hentry]
      exact iff_of_false (fun ⟨j, hj, _⟩ => nomatch hmiss.symm.trans hj) (Option.some_ne_none _)
  refine ⟨rfl, i, ?_, ?_⟩
  · have hsame : c'.find pos = c.find pos := by
      unfold SlotCache.find
      rw [hkeys]
    exact hsame.trans hfind
  · rw [hlost]
    rcases hcopied with ⟨hnone, rfl⟩ | ⟨hne, hb⟩
    · exact .inl ⟨hnone, hnone⟩
    · exact .inr ⟨hne, hb⟩

/-- What a write over some pieces leaves in the caches. -/
structure Written (img : Image) (bytes : List Byte) (s s' : Caches) (ps : List Piece) : Prop where
  none : dataPos ps = [] → s'.data = s.data
  last : ∀ pos, (dataPos ps).getLast? = some pos →
    s'.data.keys 0 = pos ∧ s'.data.entries 0 ≠ Option.none
  single : ∀ pos, dataPos ps = [pos] → ∃ b, s'.data.entries 0 = some b ∧
    ∀ p ∈ ps, p.source = .data pos → b.Holds p bytes
  frag : ∀ p ∈ ps, ∀ pos, p.source = .frag pos → ∃ i, s'.frag.find pos = some i ∧
      (s.FragLost pos ∧ s'.frag.entries i = Option.none ∨
        ¬ s.FragLost pos ∧ ∃ b, s'.frag.entries i = some b ∧ b.Holds p bytes)
  fits : ∀ p ∈ ps, ∀ pos, p.source = .data pos → p.off + p.count ≤ (img.content pos).size

theorem mem_dataPos (hp : p ∈ ps) (hsource : p.source = .data pos) : pos ∈ dataPos ps :=
  mem_filterMap.2 ⟨p, hp, by rw [hsource]; rfl⟩

namespace Written

variable {u : Caches}

theorem nil : Written img bytes s s [] where
  none _ := rfl
  last _ h := nomatch h
  single _ h := nomatch h
  frag _ h := absurd h not_mem_nil
  fits _ h := absurd h not_mem_nil

theorem cons_hole (hsource : p.source = .hole) (h : Written img bytes s s' ps) :
    Written img bytes s s' (p :: ps) := by
  have hpos : dataPos (p :: ps) = dataPos ps :=
    filterMap_cons_none (by rw [hsource]; rfl)
  refine ⟨hpos ▸ h.none, hpos ▸ h.last, fun pos hone => ?_, ?_, ?_⟩
  · obtain ⟨b, hb, hholds⟩ := h.single pos (hpos ▸ hone)
    refine ⟨b, hb, forall_mem_cons.2 ⟨fun hdata => ?_, hholds⟩⟩
    cases hsource.symm.trans hdata
  · exact forall_mem_cons.2 ⟨fun pos hfrag => (nomatch hsource.symm.trans hfrag), h.frag⟩
  · exact forall_mem_cons.2 ⟨fun pos hdata => (nomatch hsource.symm.trans hdata), h.fits⟩

theorem cons_data (hsource : p.source = .data pos) (hfrag : u.frag = s.frag)
    (hkey : u.data.keys 0 = pos) {b : Block} (hb : u.data.entries 0 = some b)
    (hholds : b.Holds p bytes) (hsize : b.size = (img.content pos).size)
    (h : Written img bytes u s' ps) : Written img bytes s s' (p :: ps) := by
  have hpos : dataPos (p :: ps) = pos :: dataPos ps :=
    filterMap_cons_some (by rw [hsource]; rfl)
  refine ⟨fun hnil => ?_, fun pos' hlast => ?_, fun pos' hone => ?_, ?_, ?_⟩
  · rw [hpos] at hnil
    cases hnil
  · rw [hpos] at hlast
    cases hps : dataPos ps with
    | nil =>
      rw [hps, getLast?_singleton] at hlast
      cases hlast
      rw [h.none hps, hkey, hb]
      exact ⟨rfl, Option.some_ne_none b⟩
    | cons q qs =>
      refine h.last pos' ?_
      rw [hps] at hlast ⊢
      rw [← hlast, getLast?_cons_cons]
  · rw [hpos] at hone
    obtain ⟨rfl, hnil⟩ := List.cons.inj hone
    refine ⟨b, by rw [h.none hnil, hb], forall_mem_cons.2 ⟨fun _ => hholds, ?_⟩⟩
    intro p' hp' hdata
    have hmem := mem_dataPos hp' hdata
    rw [hnil] at hmem
    exact absurd hmem not_mem_nil
  · refine forall_mem_cons.2 ⟨fun pos hfrag => (nomatch hsource.symm.trans hfrag), ?_⟩
    have hlost : ∀ pos, u.FragLost pos ↔ s.FragLost pos := fun pos => by
      unfold Caches.FragLost
      rw [hfrag]
    simpa only [hlost] using h.frag
  · refine forall_mem_cons.2 ⟨fun pos' hdata => ?_, h.fits⟩
    cases hsource.symm.trans hdata
    exact hsize ▸ hholds.fits

end Written

theorem RegFile.Cut.written {file : RegFile img} {start : BitVec 64} {i done : Nat}
    (h : Cut file start i done ps) (hs : s.Sized img) (hlen : done + total ps ≤ bytes.length)
    (hrun : runPieces img avail (writeMove bytes) ps () s = .ok () s') :
    Written img bytes s s' ps := by
  induction h generalizing s with
  | nil =>
    cases hrun
    exact .nil
  | @block i readOff take done ps _ _ _ _ _ _ ih =>
    obtain ⟨u, hp, hrest⟩ := unit_bind_eq_ok.1 hrun
    rw [total_cons] at hlen
    dsimp only at hlen
    have hu : u.Sized img := (keeps_runPiece (writeMove_keepsSize bytes) _ ()).of_ok hs hp
    have hw := ih hu (by omega) hrest
    cases hsource : file.sourceOf i with
    | hole =>
      rw [hsource] at hp
      cases hp
      exact hw.cons_hole rfl
    | data pos =>
      obtain ⟨hfrag, hkey, b, hb, hholds⟩ := write_data hsource (by dsimp only; omega) hp
      have hsize := hu.data 0 b hb
      rw [hkey] at hsize
      exact hw.cons_data rfl hfrag hkey hb ⟨hholds.fits, hholds.read⟩ hsize
    | frag pos =>
      unfold RegFile.sourceOf at hsource
      split_ifs at hsource
  | @frag i off take done frag hfrag =>
    obtain ⟨u, hp, hrest⟩ := unit_bind_eq_ok.1 hrun
    cases hrest
    rw [total_cons, total_nil] at hlen
    obtain ⟨hdata, hw⟩ := write_frag rfl (by omega) hp
    refine ⟨fun _ => hdata, fun _ h => (nomatch h), fun _ h => (nomatch h), ?_, ?_⟩
    all_goals
      intro p hmem pos hsource
      rw [mem_singleton] at hmem
      subst hmem
      cases hsource
    exact hw

end Write

/-! ## Reads -/

section Read

variable {avail : Avail} {s : Caches} {p : Piece} {pos : Nat} {f : Source → Option Block}

/-- The block of a piece is in its cache, and `f` says what it is. -/
def Piece.InCache (f : Source → Option Block) (s : Caches) (p : Piece) : Prop :=
  (∀ b, f p.source = some b → p.off + p.count ≤ b.size) ∧
  match p.source with
  | .hole => f .hole = none
  | .data pos => f (.data pos) ≠ none ∧ s.data.keys 0 = pos ∧ s.data.entries 0 = f (.data pos)
  | .frag pos => ∃ i, s.frag.find pos = some i ∧ s.frag.entries i = f (.frag pos)

theorem copy_read {n : Nat} {c : BlockCache n} {i : Fin n} (hentry : c.entries i = f p.source)
    (hfits : ∀ b, f p.source = some b → p.off + p.count ≤ b.size) (buf : List Byte) :
    copy readMove i p.off p.count p.done buf c = .ok (buf ++ p.bytes f) c := by
  have hmove := p.readMove_eq f buf
  cases hb : f p.source with
  | none =>
    rw [hb] at hmove hentry
    rw [copy_none hentry, hmove]
  | some b =>
    rw [hb] at hmove hentry
    rw [copy_some hentry (hfits b hb), hmove, ← hentry, SlotCache.store_entries]

theorem read_inCache (h : p.InCache f s) (buf : List Byte) :
    runPiece img avail readMove p buf s = .ok (buf ++ p.bytes f) s := by
  obtain ⟨hfits, hcached⟩ := h
  unfold runPiece
  cases hsource : p.source with
  | hole =>
    rw [hsource] at hcached
    have hmove := p.readMove_eq f buf
    rw [hsource, hcached] at hmove
    rw [hmove]
    rfl
  | data pos =>
    rw [hsource] at hcached
    obtain ⟨hsome, hkey, hentry⟩ := hcached
    obtain ⟨b, hb⟩ := Option.ne_none_iff_exists'.1 hsome
    have hget : onData (sqfsDataCache img (avail.data pos) pos) s = .ok 0 s :=
      onData_of_ok (dataCache_hit _ (SlotCache.find_one.2 hkey))
    have hsize : onData (sizeOf 0) s = .ok b.size s := onData_of_ok (sizeOf_some (hentry.trans hb))
    dsimp only
    rw [bind_of_ok hget, bind_of_ok hsize]
    exact onData_of_ok (copy_read (by rw [hsource, hentry]) hfits buf)
  | frag pos =>
    rw [hsource] at hcached
    obtain ⟨i, hfind, hentry⟩ := hcached
    have hget : onFrag (sqfsDataCache img avail.frag pos) s = .ok i s :=
      onFrag_of_ok (dataCache_hit _ hfind)
    dsimp only
    rw [bind_of_ok hget]
    exact onFrag_of_ok (copy_read (by rw [hsource, hentry]) hfits buf)

theorem readAll_inCache (h : ∀ p ∈ ps, p.InCache f s) (buf : List Byte) :
    runPieces img avail readMove ps buf s = .ok (buf ++ ps.flatMap (Piece.bytes f)) s := by
  induction ps generalizing buf with
  | nil =>
    rw [flatMap_nil, append_nil]
    rfl
  | cons p ps ih =>
    obtain ⟨hp, hps⟩ := forall_mem_cons.1 h
    rw [runPieces, bind_of_ok (read_inCache hp buf), ih hps, flatMap_cons, append_assoc]

theorem not_nextIsNull {c : BlockCache dataCachedBlks} (h : c.entries 0 ≠ none) :
    ¬ NextIsNull c := by
  rintro ⟨-, hnone⟩
  rw [Subsingleton.elim c.next 0] at hnone
  exact h (Option.isNone_iff_eq_none.1 hnone)

/-- A block that is not cached comes from the image, and is cached then. -/
theorem read_miss (hsource : p.source = .data pos) (hkey : s.data.keys 0 ≠ pos)
    (hblock : s.data.entries 0 ≠ none) (havail : avail.data pos = true)
    (hfits : p.off + p.count ≤ (img.content pos).size) (hf : f (.data pos) = some (img.content pos))
    (buf : List Byte) :
    ∃ s', runPiece img avail readMove p buf s = .ok (buf ++ p.bytes f) s' ∧
      s'.data.keys 0 = pos ∧ s'.data.entries 0 ≠ none ∧ s'.frag = s.frag := by
  have hfind : s.data.find pos = none := SlotCache.find_eq_none.2 fun i => by
    rw [Subsingleton.elim i 0]
    exact hkey
  have hnext : s.data.next = 0 := Subsingleton.elim _ _
  have hmiss : sqfsDataCache img (avail.data pos) pos s.data = _ :=
    havail ▸ dataCache_miss hfind (not_nextIsNull hblock)
  rw [hnext] at hmiss
  refine ⟨{ s with data := (s.data.add pos).store 0 (some (img.content pos)) }, ?_, ?_, ?_, rfl⟩
  · unfold runPiece
    rw [hsource]
    dsimp only
    rw [bind_of_ok (onData_of_ok hmiss)]
    refine onData_of_ok (copy_read ?_ ?_ buf)
    · rw [hsource, hf]
      exact SlotCache.entries_store_self _
    · intro b hb
      rw [hsource, hf] at hb
      cases hb
      exact hfits
  · rw [← hnext]
    exact SlotCache.keys_add_next
  · exact ne_of_eq_of_ne (SlotCache.entries_store_self _) (Option.some_ne_none _)

theorem read_fails (hsource : p.source = .data pos) (hkey : s.data.keys 0 ≠ pos)
    (hblock : s.data.entries 0 ≠ none) (havail : avail.data pos = false) (buf : List Byte) :
    ∃ s', runPiece img avail readMove p buf s = .error (.sqfs .err) s' := by
  have hfind : s.data.find pos = none := SlotCache.find_eq_none.2 fun i => by
    rw [Subsingleton.elim i 0]
    exact hkey
  have hfails : sqfsDataCache img (avail.data pos) pos s.data = _ :=
    havail ▸ dataCache_fails hfind (not_nextIsNull hblock)
  unfold runPiece
  rw [hsource]
  exact ⟨_, bind_of_error (onData_of_error hfails)⟩

/-- Where there is no block in the data cache, that cache does not matter. -/
theorem Piece.InCache.of_pos? {s' : Caches} (h : p.InCache f s) (hnone : p.source.pos? = none)
    (hfrag : s'.frag = s.frag) : p.InCache f s' := by
  obtain ⟨hfits, hcached⟩ := h
  refine ⟨hfits, ?_⟩
  cases hsource : p.source with
  | data pos =>
    rw [hsource] at hnone
    cases hnone
  | hole =>
    rw [hsource] at hcached
    exact hcached
  | frag pos =>
    rw [hsource] at hcached
    rw [hfrag]
    exact hcached

/-- Blocks that replace each other in the cache all come from the image. -/
theorem readAll_miss (hchain : (s.data.keys 0 :: dataPos ps).IsChain (· ≠ ·))
    (hblock : s.data.entries 0 ≠ none) (hf : ∀ pos, f (.data pos) = some (img.content pos))
    (hfits : ∀ p ∈ ps, ∀ pos, p.source = .data pos → p.off + p.count ≤ (img.content pos).size)
    (hcached : ∀ p ∈ ps, p.source.pos? = none → p.InCache f s) (buf : List Byte) :
    ((∀ pos ∈ dataPos ps, avail.data pos = true) →
      ∃ s', runPieces img avail readMove ps buf s = .ok (buf ++ ps.flatMap (Piece.bytes f)) s') ∧
    ((∃ pos ∈ dataPos ps, avail.data pos = false) →
      ∃ s', runPieces img avail readMove ps buf s = .error (.sqfs .err) s') := by
  induction ps generalizing s buf with
  | nil =>
    refine ⟨fun _ => ⟨s, ?_⟩, fun h => ?_⟩
    · rw [flatMap_nil, append_nil]
      rfl
    · obtain ⟨pos, hpos, -⟩ := h
      exact absurd hpos not_mem_nil
  | cons p ps ih =>
    obtain ⟨hfits, hrest⟩ := forall_mem_cons.1 hfits
    obtain ⟨hhead, htail⟩ := forall_mem_cons.1 hcached
    rw [flatMap_cons, ← append_assoc]
    cases hpos : p.source.pos? with
    | none =>
      have hdata : dataPos (p :: ps) = dataPos ps := filterMap_cons_none hpos
      rw [hdata] at hchain ⊢
      rw [runPieces, bind_of_ok (read_inCache (hhead hpos) buf)]
      exact ih hchain hblock hrest htail _
    | some pos =>
      have hdata : dataPos (p :: ps) = pos :: dataPos ps := filterMap_cons_some hpos
      have hsource : p.source = .data pos := Source.eq_data_of_pos? hpos
      rw [hdata] at hchain ⊢
      obtain ⟨hkey, hchain⟩ := isChain_cons_cons.1 hchain
      rw [runPieces]
      cases havail : avail.data pos with
      | false =>
        obtain ⟨s', hfails⟩ := read_fails hsource hkey hblock havail buf
        refine ⟨fun hall => ?_, fun _ => ⟨s', bind_of_error hfails⟩⟩
        rw [hall pos mem_cons_self] at havail
        cases havail
      | true =>
        obtain ⟨s', hrun, hkey', hblock', hfrag⟩ :=
          read_miss hsource hkey hblock havail (hfits pos hsource) (hf pos) buf
        have ih' := ih (by rw [hkey']; exact hchain) hblock' hrest
          (fun p hp hnone => (htail p hp hnone).of_pos? hnone hfrag) (buf ++ p.bytes f)
        rw [bind_of_ok hrun]
        refine ⟨fun hall => ih'.1 fun pos hmem => hall pos (mem_cons_of_mem _ hmem), ?_⟩
        intro hsome
        obtain ⟨pos', hmem, hfalse⟩ := hsome
        refine ih'.2 ⟨pos', (mem_cons.1 hmem).resolve_left ?_, hfalse⟩
        intro heq
        rw [heq, havail] at hfalse
        cases hfalse

end Read

end LibTransistor.Squashfs
