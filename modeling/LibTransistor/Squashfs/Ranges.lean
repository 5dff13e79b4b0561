import LibTransistor.Squashfs.Pieces

/-!
# The bytes of a range

`RegFile.sourceAt` says of a byte, without a loop, whether it is in a hole, in a block of its own or
in the fragment. `RegFile.Cut` are pieces that follow each other from a block on, and `exists_cut`
says that those of a range do: they cover the range (`Cut.exists_mem`), each byte of a piece is
where the piece is (`Cut.source_eq`), and no block comes twice (`Cut.dataPos_increasing`). An offset
in front of the file is not refused, and leads to the fragment.

The calls on all files of an image share its caches (`sqfsSystem`), and keep the sizes of what is in
them.
-/

namespace LibTransistor.Squashfs

open Fallible List BitVec

variable {i : Nat} {β : Type}

variable {remain readOff pos j : Nat}

variable {img : Image}

/-! ## Where bytes are -/

theorem takeOf_of_le {dataSize : Nat} (hle : readOff ≤ dataSize) (hlt : dataSize < 2 ^ 64)
    (size : Nat) : takeOf dataSize readOff size = min (dataSize - readOff) size := by
  unfold takeOf
  rw [toNat_sub, toNat_ofNat, toNat_ofNat]
  omega

theorem takeOf_add (dataSize readOff size : Nat) {rest : Nat}
    (h : takeOf dataSize readOff size = size → rest = 0) :
    takeOf dataSize readOff (takeOf dataSize readOff size + rest) = takeOf dataSize readOff size := by
  unfold takeOf at h ⊢
  omega

namespace RegFile

variable (file : RegFile img)

/-- Where the byte is that is `k` bytes behind `start`. In front of the file there is only the
fragment. -/
def sourceAt (start : BitVec 64) (k : Nat) : Source :=
  if start.toInt < 0 ∨ file.count img.blockSize ≤ (start.toNat + k) / img.blockSize then
    match file.frag with
    | some frag => .frag frag.startBlock
    | none => .hole
  else file.sourceOf ((start.toNat + k) / img.blockSize)

/-- The byte of a block in the image that is `k` bytes behind `start`. -/
def diskByte (start : BitVec 64) (k : Nat) : Byte :=
  (img.content (file.blockPos ((start.toNat + k) / img.blockSize))).data
    ((start.toNat + k) % img.blockSize)

variable {file} {start : BitVec 64}

/-- Pieces that follow each other, from a block on. -/
inductive Cut (file : RegFile img) (start : BitVec 64) : (i done : Nat) → List Piece → Prop
  | nil (i done : Nat) : Cut file start i done []
  | block {i readOff take done : Nat} {ps : List Piece} (hstart : 0 ≤ start.toInt)
      (hi : i < file.count img.blockSize) (hpos : start.toNat + done = i * img.blockSize + readOff)
      (htake : 0 < take) (hle : readOff + take ≤ file.blockLen img.blockSize i)
      (hps : Cut file start (i + 1) (done + take) ps) :
      Cut file start i done (⟨file.sourceOf i, readOff, take, done⟩ :: ps)
  | frag {i off take done : Nat} {frag : Fragment} (hfrag : file.frag = some frag)
      (htake : 0 < take ∨ done = 0)
      (hpos : start.toInt < 0 ∨ file.count img.blockSize * img.blockSize ≤ start.toNat + done ∧
        start.toNat + done + take ≤ file.fileSize) :
      Cut file start i done [⟨.frag frag.startBlock, off, take, done⟩]

theorem mul_lt_of_lt_count (h : i < file.count img.blockSize) :
    i * img.blockSize < file.fileSize := by
  have hdiv := Nat.div_add_mod' file.fileSize img.blockSize
  have hpos := img.blockSize_pos
  unfold RegInode.count divceil at h
  by_cases hlt : i < file.fileSize / img.blockSize
  · have hmul := Nat.mul_le_mul_right img.blockSize (Nat.succ_le_of_lt hlt)
    rw [Nat.succ_mul] at hmul
    omega
  · -- only a last block that is not full is left
    split_ifs at h with hnone hmod
    · have hmul := Nat.mul_le_mul_right img.blockSize (Nat.le_of_lt_succ h)
      omega
    · exact absurd h hlt
    · exact absurd h hlt

theorem count_mul_add (h : file.frag.isSome) :
    file.count img.blockSize * img.blockSize + file.fileSize % img.blockSize = file.fileSize := by
  unfold RegInode.count
  rw [if_neg (by simpa [Option.isSome_iff_ne_none] using h)]
  exact Nat.div_add_mod' file.fileSize img.blockSize

theorem blockLen_lt (i : Nat) : file.blockLen img.blockSize i < 2 ^ 64 := by
  have hlt := img.blockSize_lt
  unfold RegInode.blockLen
  omega

theorem pieces_zero (start : BitVec 64) (remain i readOff done : Nat) :
    file.pieces start remain i readOff 0 done = [] := by
  cases remain <;> rfl

theorem pieces_succ (start : BitVec 64) (remain i readOff done : Nat) {size : Nat} (h : 0 < size) :
    file.pieces start (remain + 1) i readOff size done =
      if i * img.blockSize + img.blockSize ≤ start.toNat then
        file.pieces start remain (i + 1) readOff size done
      else
        ⟨file.sourceOf i, readOff, takeOf (file.blockLen img.blockSize i) readOff size, done⟩ ::
          file.pieces start remain (i + 1) 0
            (size - takeOf (file.blockLen img.blockSize i) readOff size)
            (done + takeOf (file.blockLen img.blockSize i) readOff size) := by
  obtain ⟨m, rfl⟩ := Nat.exists_eq_add_one_of_ne_zero (Nat.ne_of_gt h)
  rw [pieces]

theorem pieces_of_le (start : BitVec 64) (hcount : i + remain = file.count img.blockSize)
    (hle : file.fileSize ≤ i * img.blockSize) (readOff size done : Nat) :
    file.pieces start remain i readOff size done = [] := by
  have hremain : remain = 0 := by
    by_contra hne
    have hlt : i * img.blockSize < file.fileSize := mul_lt_of_lt_count (by omega)
    omega
  subst hremain
  cases size with
  | zero => rfl
  | succ size =>
    rw [pieces]
    cases hfrag : file.frag with
    | none => rfl
    | some frag =>
      have hsome : file.frag.isSome := by rw [hfrag]; rfl
      have htail := count_mul_add hsome
      have hnonempty := file.frag_nonempty hsome
      rw [← hcount, Nat.add_zero] at htail
      omega

theorem cut_pieces (hstart : 0 ≤ start.toInt) {done : Nat} (size : Nat)
    (hcount : i + remain = file.count img.blockSize)
    (hpos : start.toNat + done = i * img.blockSize + readOff) (hoff : readOff < img.blockSize)
    (hlt : readOff = 0 ∨ i * img.blockSize + readOff < file.fileSize) :
    Cut file start i done (file.pieces start remain i readOff size done) := by
  induction remain generalizing i readOff done size with
  | zero =>
    cases size with
    | zero => exact .nil i done
    | succ size =>
      rw [pieces]
      cases hfrag : file.frag with
      | none => exact .nil i done
      | some frag =>
        have hsome : file.frag.isSome := by rw [hfrag]; rfl
        have htail := count_mul_add hsome
        have hnonempty := file.frag_nonempty hsome
        have hle := Nat.mod_lt file.fileSize img.blockSize_pos
        have hbs := img.blockSize_lt
        rw [Nat.add_zero] at hcount
        rw [← hcount] at htail
        rw [takeOf_of_le (by omega) (by omega)]
        refine .frag hfrag (.inl (by omega)) (.inr ⟨?_, by omega⟩)
        rw [← hcount]
        omega
  | succ remain ih =>
    cases size with
    | zero => exact .nil i done
    | succ size =>
      have hi : i < file.count img.blockSize := by omega
      have hmul := mul_lt_of_lt_count hi
      have hlen : readOff < file.blockLen img.blockSize i := by
        unfold RegInode.blockLen
        omega
      rw [pieces, if_neg (by omega)]
      rw [takeOf_of_le (Nat.le_of_lt hlen) (blockLen_lt i)]
      refine .block hstart hi hpos (by omega) (by omega) ?_
      rcases Nat.lt_or_ge (file.blockLen img.blockSize i - readOff) (size + 1) with hmore | hdone
      · by_cases hfull : (i + 1) * img.blockSize ≤ file.fileSize
        · rw [Nat.succ_mul] at hfull
          have hlen' : file.blockLen img.blockSize i = img.blockSize := by
            unfold RegInode.blockLen
            omega
          refine ih _ (by omega) ?_ img.blockSize_pos (.inl rfl)
          rw [Nat.succ_mul]
          omega
        · -- this was the last block
          rw [pieces_of_le start (by omega) (Nat.le_of_not_le hfull)]
          exact .nil _ _
      · rw [Nat.min_eq_right hdone, Nat.sub_self, pieces_zero]
        exact .nil _ _

theorem total_pieces_le (start : BitVec 64) (remain i readOff size done : Nat) :
    total (file.pieces start remain i readOff size done) ≤ size := by
  induction remain generalizing i readOff size done with
  | zero =>
    cases size with
    | zero => exact Nat.le_refl 0
    | succ size =>
      rw [pieces]
      cases file.frag with
      | none => exact Nat.zero_le _
      | some frag =>
        exact Nat.min_le_right _ _
  | succ remain ih =>
    cases size with
    | zero => exact Nat.le_refl 0
    | succ size =>
      rw [pieces]
      split_ifs with hskip
      · exact ih (i + 1) readOff (size + 1) done
      · have hle : takeOf (file.blockLen img.blockSize i) readOff (size + 1) ≤ size + 1 :=
          Nat.min_le_right _ _
        have hrest := ih (i + 1) 0
          (size + 1 - takeOf (file.blockLen img.blockSize i) readOff (size + 1))
          (done + takeOf (file.blockLen img.blockSize i) readOff (size + 1))
        rw [total_cons]
        dsimp only
        omega

theorem pieces_total (remain i readOff size done : Nat)
    (hpos : ∀ p ∈ file.pieces start remain i readOff size done, 0 < p.count) :
    file.pieces start remain i readOff (total (file.pieces start remain i readOff size done)) done =
      file.pieces start remain i readOff size done := by
  induction remain generalizing i readOff size done with
  | zero =>
    cases size with
    | zero => rfl
    | succ size =>
      rw [pieces] at hpos ⊢
      cases hfrag : file.frag with
      | none => rfl
      | some frag =>
        rw [hfrag] at hpos
        have htake := takeOf_add (file.fileSize % img.blockSize) readOff (size + 1) fun _ => rfl
        obtain ⟨m, hm⟩ := Nat.exists_eq_succ_of_ne_zero
          (Nat.ne_of_gt (hpos _ (mem_singleton.2 rfl)))
        dsimp only at hm ⊢
        rw [hm] at htake
        rw [total_cons, total_nil, hm, pieces, hfrag]
        rw [htake]
  | succ remain ih =>
    cases size with
    | zero => rfl
    | succ size =>
      rw [pieces] at hpos ⊢
      split_ifs at hpos ⊢ with hskip
      · rcases hps : file.pieces start remain (i + 1) readOff (size + 1) done with _ | ⟨p, ps⟩
        · exact pieces_zero _ _ _ _ _
        · rw [pieces_succ, if_pos hskip, ← hps]
          · exact ih _ _ _ _ hpos
          · have hp := hpos p (hps ▸ mem_cons_self)
            rw [total_cons]
            omega
      · obtain ⟨hhead, hrest⟩ := forall_mem_cons.1 hpos
        have ih' := ih _ _ _ _ hrest
        generalize hT : total (file.pieces start remain (i + 1) 0
          (size + 1 - takeOf (file.blockLen img.blockSize i) readOff (size + 1))
          (done + takeOf (file.blockLen img.blockSize i) readOff (size + 1))) = T at ih'
        have htake : takeOf (file.blockLen img.blockSize i) readOff
            (takeOf (file.blockLen img.blockSize i) readOff (size + 1) + T) =
              takeOf (file.blockLen img.blockSize i) readOff (size + 1) := by
          refine takeOf_add _ _ _ fun hall => ?_
          rw [← hT, hall, Nat.sub_self, pieces_zero, total_nil]
        rw [total_cons, hT, pieces_succ _ _ _ _ _ (Nat.add_pos_left hhead T), if_neg hskip]
        rw [htake, Nat.add_sub_cancel_left, ih']

/-- The pieces of a range. -/
def rangePieces (file : RegFile img) (start : BitVec 64) (size : Nat) : List Piece :=
  file.pieces start (file.remainAt start) 0 (start.toNat % img.blockSize) size 0

theorem count_le (file : RegFile img) : file.count img.blockSize ≤ file.fileSize := by
  rcases Nat.eq_zero_or_pos (file.count img.blockSize) with hzero | hpos
  · omega
  · have hlt : (file.count img.blockSize - 1) * img.blockSize < file.fileSize :=
      mul_lt_of_lt_count (by omega)
    have hle := Nat.le_mul_of_pos_right (file.count img.blockSize - 1) img.blockSize_pos
    omega

theorem div_le_count (h : pos < file.fileSize) :
    pos / img.blockSize ≤ file.count img.blockSize := by
  have hdiv : pos / img.blockSize ≤ file.fileSize / img.blockSize :=
    Nat.div_le_div_right (Nat.le_of_lt h)
  unfold RegInode.count divceil
  split_ifs <;> omega

theorem exists_cut_of_nonneg (hstart : 0 ≤ start.toInt) (hlt : start.toNat < file.fileSize)
    (size : Nat) (hcount : i + remain = file.count img.blockSize)
    (hi : i ≤ start.toNat / img.blockSize) :
    ∃ i', Cut file start i' 0
      (file.pieces start remain i (start.toNat % img.blockSize) size 0) := by
  have hdiv := Nat.div_add_mod' start.toNat img.blockSize
  induction remain generalizing i with
  | zero =>
    have hle := div_le_count hlt
    have heq : i = start.toNat / img.blockSize := by omega
    subst heq
    exact ⟨_, cut_pieces hstart size hcount hdiv.symm (Nat.mod_lt _ img.blockSize_pos)
      (.inr (by omega))⟩
  | succ remain ih =>
    by_cases heq : i = start.toNat / img.blockSize
    · subst heq
      exact ⟨_, cut_pieces hstart size hcount hdiv.symm (Nat.mod_lt _ img.blockSize_pos)
        (.inr (by omega))⟩
    · rcases Nat.eq_zero_or_pos size with hzero | hpos
      · rw [hzero]
        exact ⟨i, .nil _ _⟩
      · have hmul := Nat.mul_le_mul_right img.blockSize (Nat.succ_le_of_lt (Nat.lt_of_le_of_ne hi heq))
        rw [Nat.succ_mul] at hmul
        rw [pieces_succ _ _ _ _ _ hpos, if_pos (by omega)]
        exact ih (by omega) (by omega)

theorem cut_of_neg (hstart : start.toInt < 0)
    (hremain : remain = 0 ∨ 2 ^ 64 - img.blockSize < start.toNat)
    (hcount : i + remain ≤ file.count img.blockSize) (readOff size : Nat) :
    Cut file start 0 0 (file.pieces start remain i readOff size 0) := by
  rcases Nat.eq_zero_or_pos size with hzero | hpos
  · rw [hzero, pieces_zero]
    exact .nil _ _
  · induction remain generalizing i with
    | zero =>
      obtain ⟨m, rfl⟩ := Nat.exists_eq_add_one_of_ne_zero (Nat.ne_of_gt hpos)
      rw [pieces]
      cases hfrag : file.frag with
      | none => exact .nil _ _
      | some frag => exact .frag hfrag (.inr rfl) (.inl hstart)
    | succ remain ih =>
      have hmul : i * img.blockSize < file.fileSize := mul_lt_of_lt_count (by omega)
      have hF := file.fileSize_lt
      have hbs := img.blockSize_lt
      rcases hremain with hzero | hnear
      · cases hzero
      · rw [pieces_succ _ _ _ _ _ hpos, if_pos (by omega)]
        exact ih (.inr hnear) (by omega)

theorem remainAt_of_nonneg (hstart : 0 ≤ start.toInt) (hlt : start.toNat < file.fileSize) :
    file.remainAt start = file.count img.blockSize := by
  have hle := div_le_count hlt
  have hself := Nat.div_le_self start.toNat img.blockSize
  have hint : start.toInt = (start.toNat : Int) := by
    have := toInt_eq_toNat_cond start
    omega
  unfold remainAt
  rw [hint, Int.tdiv_eq_ediv_of_nonneg (Int.natCast_nonneg _), ← Int.natCast_ediv, ofInt_natCast,
    toNat_ofNat, Nat.mod_eq_of_lt (by omega), if_neg (by omega)]

theorem remainAt_of_neg (hstart : start.toInt < 0) :
    file.remainAt start = 0 ∨
      file.remainAt start = file.count img.blockSize ∧ 2 ^ 64 - img.blockSize < start.toNat := by
  have hcond := toInt_eq_toNat_cond start
  obtain ⟨m, hm⟩ : ∃ m : Nat, start.toInt = -(m : Int) := ⟨(-start.toInt).toNat, by omega⟩
  have hquot : start.toInt.tdiv img.blockSize = -((m / img.blockSize : Nat) : Int) := by
    rw [hm, Int.neg_tdiv, Int.tdiv_eq_ediv_of_nonneg (Int.natCast_nonneg m), ← Int.natCast_ediv]
  unfold remainAt
  rw [hquot]
  rcases Nat.lt_or_ge m img.blockSize with hsmall | hlarge
  · rw [Nat.div_eq_of_lt hsmall]
    exact .inr ⟨rfl, by omega⟩
  · have hpos := Nat.div_pos hlarge img.blockSize_pos
    have hself := Nat.div_le_self m img.blockSize
    have hcount := file.count_le
    have hF := file.fileSize_lt
    have hblock : (BitVec.ofInt 64 (-((m / img.blockSize : Nat) : Int))).toNat =
        2 ^ 64 - m / img.blockSize := by
      rw [toNat_ofInt]
      omega
    rw [if_pos (by omega)]
    exact .inl rfl

theorem exists_cut (hlt : start.toInt < file.fileSize) (size : Nat) :
    ∃ i, Cut file start i 0 (file.rangePieces start size) := by
  unfold rangePieces
  by_cases hstart : 0 ≤ start.toInt
  · have hnat : start.toNat < file.fileSize := by
      have := toInt_eq_toNat_cond start
      omega
    rw [remainAt_of_nonneg hstart hnat]
    exact exists_cut_of_nonneg hstart hnat size (Nat.zero_add _) (Nat.zero_le _)
  · have hneg := Int.not_le.1 hstart
    rcases remainAt_of_neg hneg with hzero | ⟨hcount, hnear⟩
    · rw [hzero]
      exact ⟨0, cut_of_neg hneg (.inl rfl) (Nat.zero_le _) _ size⟩
    · rw [hcount]
      exact ⟨0, cut_of_neg hneg (.inr hnear) (Nat.le_of_eq (Nat.zero_add _)) _ size⟩

theorem div_mod_at {done bs : Nat} (hpos : start.toNat + done = i * bs + readOff)
    (hlt : readOff + j < bs) :
    (start.toNat + (done + j)) / bs = i ∧ (start.toNat + (done + j)) % bs = readOff + j := by
  refine (Nat.div_mod_unique (Nat.zero_lt_of_lt hlt)).2 ⟨?_, hlt⟩
  rw [Nat.mul_comm]
  omega

theorem blockPos_of_sourceOf (h : file.sourceOf i = .data pos) : file.blockPos i = pos := by
  unfold sourceOf at h
  split_ifs at h
  cases h
  rfl

namespace Cut

variable {done k : Nat} {ps : List Piece} {p : Piece}

section Cut

variable (h : Cut file start i done ps)
include h

theorem done_le (hp : p ∈ ps) : done ≤ p.done ∧ p.done + p.count ≤ done + total ps := by
  induction h with
  | nil => cases hp
  | block _ _ _ _ _ _ ih =>
    rw [total_cons]
    rcases mem_cons.1 hp with rfl | hmem
    · exact ⟨Nat.le_refl _, by dsimp only; omega⟩
    · have := ih hmem
      dsimp only
      omega
  | frag =>
    rw [mem_singleton] at hp
    subst hp
    exact ⟨Nat.le_refl _, by simp⟩

theorem exists_mem (hle : done ≤ k) (hlt : k < done + total ps) :
    ∃ p ∈ ps, ∃ j < p.count, k = p.done + j := by
  induction h with
  | nil =>
    rw [total_nil] at hlt
    omega
  | @block i readOff take done ps _ _ _ _ _ _ ih =>
    rw [total_cons] at hlt
    dsimp only at hlt
    by_cases hhere : k < done + take
    · exact ⟨_, mem_cons_self, k - done, by dsimp only; omega, by dsimp only; omega⟩
    · obtain ⟨p, hp, hj⟩ := ih (by omega) (by omega)
      exact ⟨p, mem_cons_of_mem _ hp, hj⟩
  | @frag i off take done frag =>
    rw [total_cons, total_nil] at hlt
    exact ⟨_, mem_cons_self, k - done, by omega, by dsimp only; omega⟩

theorem count_pos (hsome : 0 < done ∨ 0 < total ps) (hp : p ∈ ps) : 0 < p.count := by
  induction h with
  | nil => cases hp
  | block _ _ _ htake _ _ ih =>
    rcases mem_cons.1 hp with rfl | hmem
    · exact htake
    · exact ih (.inl (by omega)) hmem
  | frag hfrag htake hpos =>
    rw [mem_singleton] at hp
    subst hp
    rw [total_cons, total_nil] at hsome
    dsimp only at hsome ⊢
    omega

theorem source_eq (hp : p ∈ ps) (hj : j < p.count) :
    file.sourceAt start (p.done + j) = p.source := by
  induction h with
  | nil => cases hp
  | block hstart hi hpos htake hle _ ih =>
    rcases mem_cons.1 hp with rfl | hmem
    · have hbs := Nat.le_trans hle (Nat.min_le_right _ _)
      have hdiv := (div_mod_at hpos (j := j) (by dsimp only at hj; omega)).1
      unfold sourceAt
      rw [hdiv, if_neg]
      rintro (hneg | hge)
      · omega
      · omega
    · exact ih hmem
  | frag hfrag _ hpos =>
    rw [mem_singleton] at hp
    subst hp
    unfold sourceAt
    rw [if_pos, hfrag]
    refine hpos.imp_right fun hle => (Nat.le_div_iff_mul_le img.blockSize_pos).2 ?_
    dsimp only
    omega

theorem diskByte_eq (hp : p ∈ ps) (hj : j < p.count) (hdata : p.source = .data pos) :
    file.diskByte start (p.done + j) = (img.content pos).data (p.off + j) := by
  induction h with
  | nil => cases hp
  | block hstart hi hpos htake hle _ ih =>
    rcases mem_cons.1 hp with rfl | hmem
    · have hbs := Nat.le_trans hle (Nat.min_le_right _ _)
      obtain ⟨hdiv, hmod⟩ := div_mod_at hpos (j := j) (by dsimp only at hj; omega)
      unfold diskByte
      rw [hdiv, hmod, blockPos_of_sourceOf hdata]
    · exact ih hmem
  | frag hfrag _ hpos =>
    rw [mem_singleton] at hp
    subst hp
    cases hdata

theorem end_le (hstart : 0 ≤ start.toInt) :
    total ps = 0 ∨ start.toNat + done + total ps ≤ file.fileSize := by
  induction h with
  | nil => exact .inl total_nil
  | @block i readOff take done ps _ hi hpos _ hle _ ih =>
    have hlen : file.blockLen img.blockSize i ≤ file.fileSize - i * img.blockSize :=
      Nat.min_le_left _ _
    rw [total_cons]
    dsimp only
    omega
  | frag _ _ hpos =>
    rw [total_cons, total_nil]
    dsimp only
    omega

theorem dataPos_increasing :
    (dataPos ps).Pairwise (· < ·) ∧ ∀ pos ∈ dataPos ps, file.blockPos i ≤ pos := by
  induction h with
  | nil => exact ⟨.nil, fun _ hpos => absurd hpos not_mem_nil⟩
  | @block i readOff take done ps _ _ _ _ _ _ ih =>
    have hle : file.blockPos i ≤ file.blockPos (i + 1) := Nat.le_add_right _ _
    by_cases hhole : headerSize (file.header i) = 0
    · rw [dataPos, filterMap_cons_none (by simp [sourceOf, hhole, Source.pos?])]
      exact ⟨ih.1, fun pos hpos => Nat.le_trans hle (ih.2 pos hpos)⟩
    · rw [dataPos, filterMap_cons_some
        (b := file.blockPos i) (by simp [sourceOf, hhole, Source.pos?])]
      have hlt : file.blockPos i < file.blockPos (i + 1) :=
        Nat.lt_add_of_pos_right (Nat.pos_of_ne_zero hhole)
      refine ⟨pairwise_cons.2 ⟨fun pos hpos => ?_, ih.1⟩, forall_mem_cons.2
        ⟨Nat.le_refl _, fun pos hpos => Nat.le_trans hle (ih.2 pos hpos)⟩⟩
      exact Nat.lt_of_lt_of_le hlt (ih.2 pos hpos)
  | frag => exact ⟨.nil, fun _ hpos => absurd hpos not_mem_nil⟩

end Cut

end Cut

end RegFile

/-! ## Range functions -/

section Range

variable {file : RegFile img} {avail : Avail} {move : Move β} {s : Caches} {start size : BitVec 64}

theorem RegFile.remainAt_le (file : RegFile img) (start : BitVec 64) :
    file.remainAt start ≤ file.count img.blockSize := by
  unfold RegFile.remainAt
  dsimp only
  split_ifs <;> omega

/-- A range function does the pieces of the range, and fails if there is nothing in them. -/
theorem sqfsRange_eq (hmove : KeepsSize move) (hs : s.Sized img) (hsize : 0 ≤ size.toInt)
    (hstart : start.toInt < file.fileSize) (buf : β) :
    sqfsRange avail file move start size buf s =
      (do
        let buf ← runPieces img avail move (file.rangePieces start size.toNat) buf
        failIf (total (file.rangePieces start size.toNat) = 0) (Failure.sqfs .err)
        return (total (file.rangePieces start size.toNat), buf) :
          EStateM Failure Caches (Nat × β)) s := by
  have hle : total (file.rangePieces start size.toNat) ≤ size.toNat :=
    RegFile.total_pieces_le _ _ _ _ _ _
  have hrun : rangeLoop avail file move start (file.remainAt start) file.toRegInode.blocklist
      (start.toNat % img.blockSize) size.toNat 0 buf s = _ :=
    rangeLoop_eq hmove file start (Nat.zero_add _ ▸ file.remainAt_le start)
      (Blocklist.at_init file) _ _ _ buf hs
  unfold sqfsRange
  rw [failIf_bind_of_not (by omega), if_neg (by omega)]
  cases hps : runPieces img avail move (file.rangePieces start size.toNat) buf s with
  | ok buf' t =>
    rw [bind_of_ok hps, bind_of_ok (hrun.trans (bind_of_ok hps))]
    rw [show file.pieces start (file.remainAt start) 0 (start.toNat % img.blockSize) size.toNat 0 =
      file.rangePieces start size.toNat from rfl, Nat.sub_sub_self hle]
  | error e t => rw [bind_of_error hps, bind_of_error (hrun.trans (bind_of_error hps))]

theorem keeps_sqfsRange (hmove : KeepsSize move) (buf : β) :
    Keeps (Caches.Sized img) (sqfsRange avail file move start size buf) := by
  intro s hs
  by_cases hvalid : 0 ≤ size.toInt ∧ start.toInt < file.fileSize
  · rw [sqfsRange_eq hmove hs hvalid.1 hvalid.2]
    exact Keeps.bind (keeps_runPieces hmove _ _)
      (fun _ => .bind (.failIf _) fun _ => .pure _) s hs
  · unfold sqfsRange
    by_cases hfail : size.toInt < 0 ∨ (file.fileSize : Int) < start.toInt
    · rw [failIf_bind_of hfail]
      exact hs
    · rw [failIf_bind_of_not hfail, if_pos (by omega)]
      exact hs

theorem sqfsRange_end (hmove : KeepsSize move) (hs : s.Sized img) (hstart : 0 ≤ start.toInt)
    {buf b : β} {n : Nat} {s' : Caches}
    (h : sqfsRange avail file move start size buf s = .ok (n, b) s') :
    start.toNat + n ≤ file.fileSize := by
  have hnat : start.toInt = start.toNat := by
    have := toInt_eq_toNat_cond start
    omega
  by_cases hvalid : 0 ≤ size.toInt ∧ start.toInt < file.fileSize
  · rw [sqfsRange_eq hmove hs hvalid.1 hvalid.2] at h
    obtain ⟨_, _, _, h⟩ := bind_eq_ok.1 h
    obtain ⟨-, h⟩ := failIf_bind_eq_ok.1 h
    cases h
    obtain ⟨i, hcut⟩ := RegFile.exists_cut hvalid.2 size.toNat
    have hend := hcut.end_le hstart
    omega
  · obtain ⟨hcheck, h⟩ := failIf_bind_eq_ok.1 h
    rw [if_pos (by omega)] at h
    cases h
    omega

end Range

/-! ## Runs -/

inductive FileOp
  | read (size : BitVec 64)
  | write (buf : Blob)

/-- An operation on some file, at some offset. -/
structure FileCall (img : Image) where
  file : RegFile img
  avail : Avail
  head : BitVec 64
  op : FileOp

/-- The caches after it, unless it crashes. -/
def FileCall.run (call : FileCall img) (s : Caches) : Option Caches :=
  match call.op with
  | .read size => (trnSqfsFileRead call.avail call.file size ⟨call.head, s⟩).map fun r => r.2.caches
  | .write buf => (trnSqfsFileWrite call.avail call.file buf ⟨call.head, s⟩).map fun r => r.2.caches

/-- The filesystem of an image. -/
def sqfsSystem (img : Image) : System Caches (FileCall img) where
  init s := s = Caches.initial
  step s call s' := call.run s = some s'

variable {x : EStateM Failure Caches (Nat × β)}

theorem finish_caches {s : FileState} {r : (BitVec 64 × Option β) × FileState}
    (h : finish x s = some r) : r.2.caches = final (x s.caches) := by
  unfold finish at h
  split at h
  · next hx =>
    cases h
    rw [hx]
    rfl
  · next hx =>
    cases h
    rw [hx]
    rfl
  · cases h

theorem finish_some {s s' : FileState} {n : BitVec 64} {b : β} :
    finish x s = some ((n, some b), s') ↔ ∃ osize c, x s.caches = .ok (osize, b) c ∧
      BitVec.ofNat 64 osize = n ∧ s' = ⟨s.head + n, c⟩ := by
  unfold finish
  split
  · next osize b' c hx =>
    rw [hx]
    constructor
    · intro h
      cases h
      exact ⟨osize, c, rfl, rfl, rfl⟩
    · intro ⟨_, _, heq, hn, hs⟩
      cases heq
      rw [hs, ← hn]
  · next hx =>
    rw [hx]
    exact iff_of_false (fun h => nomatch h) fun ⟨_, _, h, _⟩ => nomatch h
  · next hx =>
    rw [hx]
    exact iff_of_false (fun h => nomatch h) fun ⟨_, _, h, _⟩ => nomatch h

theorem isSome_of_pos {s : FileState} {r : (BitVec 64 × Option β) × FileState}
    (h : finish x s = some r) (hpos : 0 < r.1.1.toInt) : ∃ b, r.1.2 = some b := by
  unfold finish at h
  split at h
  · cases h
    exact ⟨_, rfl⟩
  · cases h
    have hneg : (BitVec.ofInt 64 (-Errno.eio)).toInt ≤ 0 := by decide
    exact absurd hpos (Int.not_lt.2 hneg)
  · cases h

theorem Caches.sized_initial : Caches.initial.Sized img :=
  ⟨fun _ _ h => (Option.some_ne_none _ h.symm).elim, fun _ _ h => (Option.some_ne_none _ h.symm).elim⟩

theorem FileCall.keeps_sized {call : FileCall img} {s s' : Caches} (hs : s.Sized img)
    (h : call.run s = some s') : s'.Sized img := by
  unfold run at h
  split at h
  · obtain ⟨r, hr, rfl⟩ := Option.map_eq_some_iff.1 h
    rw [finish_caches hr]
    exact keeps_sqfsRange readMove_keepsSize [] s hs
  · obtain ⟨r, hr, rfl⟩ := Option.map_eq_some_iff.1 h
    obtain ⟨r', hr', rfl⟩ := Option.map_eq_some_iff.1 hr
    rw [finish_caches hr']
    exact keeps_sqfsRange (writeMove_keepsSize _) () s hs

theorem sized_of_reachable {s : Caches} (hs : (sqfsSystem img).Reachable s) : s.Sized img := by
  refine hs.invariant ?_ fun s call s' h hstep => call.keeps_sized h hstep
  intro s hinit
  rw [show s = Caches.initial from hinit]
  exact Caches.sized_initial

end LibTransistor.Squashfs
