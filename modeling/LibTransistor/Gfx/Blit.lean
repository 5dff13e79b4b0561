import LibTransistor.Lib.Deposit
import LibTransistor.Lib.Memory

/-!
# The swizzling blit

`lib/gfx/blit.c`. A framebuffer is made of tiles of 128 rows, and inside of a tile the bits of a
pixel's column and of its row are mixed: `swizzle_x` and `swizzle_y` deposit them in the index. The
loops of `gfx_slow_swizzling_blit` compute no index; they count under the two masks, and add the
swizzled width when the row counter wraps into the next row of tiles.

The counters are the deposits of the column and of the row at every round (`blitLine_run`,
`blitLines_run`), so the blit stores each pixel at its index and leaves the rest alone
(`blit_places_pixels`).
-/

namespace LibTransistor

open Deposit List BitVec

abbrev Pixel := BitVec 32

/-! ## `blit.c` -/

/-- One round of `pdep`: what has been deposited, and what remains of the value. -/
def pdepRound (mask : BitVec 32) (s : BitVec 32 × BitVec 32) (shift : Nat) :
    BitVec 32 × BitVec 32 :=
  let bit := 1#32 <<< shift
  if mask &&& bit ≠ 0 then
    (if s.2 &&& 1 ≠ 0 then s.1 ||| bit else s.1, s.2 >>> 1)
  else s

def pdep (mask value : BitVec 32) : BitVec 32 :=
  ((List.range 32).foldl (pdepRound mask) (0, value)).1

variable (v : BitVec 32)

def swizzleX : BitVec 32 := pdep (~~~0x7B4#32) v

def swizzleY : BitVec 32 := pdep 0x7B4#32 v

/-- What the loops change. -/
structure BlitState where
  buffer : Mem Pixel
  /-- How many pixels of the image `src` has passed. -/
  src : Nat
  offsX0 : BitVec 32
  offsY : BitVec 32

/-- The inner loop with `n` rounds to go, `destLine` and `offs_x`. The sum of the two offsets is an
index and does not wrap. -/
def blitLine (image : Mem Pixel) (xMask : BitVec 32) (destLine : Nat) :
    Nat → BitVec 32 → Nat × Mem Pixel → Nat × Mem Pixel
  | 0, _, s => s
  | n + 1, offsX, s =>
    blitLine image xMask destLine n ((offsX - xMask) &&& xMask)
      (s.1 + 1, Function.update s.2 (destLine + offsX.toNat) (image s.1))

/-- One round of the outer loop, for a line of `width` pixels. -/
def blitRound (image : Mem Pixel) (xMask yMask incrY : BitVec 32) (width : Nat) (s : BlitState) :
    BlitState :=
  let line := blitLine image xMask s.offsY.toNat width s.offsX0 (s.src, s.buffer)
  let offsY := (s.offsY - yMask) &&& yMask
  { buffer := line.2
    src := line.1
    offsX0 := if offsY = 0 then s.offsX0 + incrY else s.offsX0
    offsY := offsY }

/-- The outer loop with `n` rounds to go. -/
def blitLines (image : Mem Pixel) (xMask yMask incrY : BitVec 32) (width : Nat) :
    Nat → BlitState → BlitState
  | 0, s => s
  | n + 1, s =>
    blitLines image xMask yMask incrY width n (blitRound image xMask yMask incrY width s)

/-- The framebuffer after the blit. The loops compare unsigned words, so each makes as many rounds
as its end is above its start. -/
def gfxSlowSwizzlingBlit (buffer image : Mem Pixel) (w h tx ty : BitVec 32) : Mem Pixel :=
  let x1 := tx + w
  let y1 := ty + h
  let incrY := swizzleX (128 * 10)
  (blitLines image (swizzleX (~~~0)) (swizzleY (~~~0)) incrY (x1.toNat - tx.toNat)
    (y1.toNat - ty.toNat)
    { buffer := buffer
      src := 0
      offsX0 := swizzleX tx + incrY * (ty / 128)
      offsY := swizzleY ty }).buffer

/-! ## `pdep` deposits -/

theorem and_shiftLeft_ne_zero_iff (mask : BitVec 32) {k : Nat} (hk : k < 32) :
    mask &&& 1#32 <<< k ≠ 0 ↔ mask.getLsbD k = true := by
  rw [← twoPow_eq, and_twoPow]
  split_ifs with h
  · refine iff_of_true (fun hzero => ?_) h
    have hbit := congrArg (BitVec.getLsbD · k) hzero
    simp [hk] at hbit
  · exact iff_of_false (not_not_intro rfl) h

theorem and_one_ne_zero_iff : v &&& 1 ≠ 0 ↔ v.toNat % 2 = 1 := by
  rw [ne_eq, ← toNat_inj]
  show ¬ v.toNat &&& 1 = 0 ↔ _
  rw [Nat.and_one_is_mod]
  omega

theorem pdepRound_run {mask : BitVec 32} {m : List Bool} {s : BitVec 32 × BitVec 32} {v k : Nat}
    (hk : k < 32) (hlength : m.length = k) (hout : s.1.toNat = deposit m v)
    (hvalue : s.2.toNat = v / 2 ^ places m) :
    (pdepRound mask s k).1.toNat = deposit (m ++ [mask.getLsbD k]) v ∧
      (pdepRound mask s k).2.toNat = v / 2 ^ places (m ++ [mask.getLsbD k]) := by
  have hlt : s.1.toNat < 2 ^ k := by
    rw [hout, ← hlength]
    exact deposit_lt m v
  have hbit := and_shiftLeft_ne_zero_iff mask hk
  rw [deposit_append, places_append, Nat.pow_add, ← Nat.div_div_eq_div_mul, hlength, ← hout,
    ← hvalue]
  unfold pdepRound
  cases hplace : mask.getLsbD k with
  | false =>
    rw [if_neg fun h => Bool.noConfusion (hplace.symm.trans (hbit.1 h))]
    exact ⟨rfl, (Nat.div_one _).symm⟩
  | true =>
    rw [if_pos (hbit.2 hplace), deposit_true]
    refine ⟨?_, by rfl⟩
    show (if s.2 &&& 1 ≠ 0 then s.1 ||| 1#32 <<< k else s.1).toNat
      = s.1.toNat + 2 ^ k * (s.2.toNat % 2 + 0)
    have hodd := and_one_ne_zero_iff s.2
    by_cases hone : s.2.toNat % 2 = 1
    · have hshift : (1#32 <<< k).toNat = 2 ^ k := by
        rw [← twoPow_eq, toNat_twoPow_of_lt hk]
      rw [if_pos (hodd.2 hone), hone, toNat_or, hshift, Nat.or_comm,
        Bits.or_eq_add k (Nat.dvd_refl _) hlt]
      omega
    · rw [if_neg (mt hodd.1 hone), show s.2.toNat % 2 = 0 by omega]
      rfl

theorem toNat_pdep (mask value : BitVec 32) :
    (pdep mask value).toNat = deposit (bits mask) value.toNat := by
  have hrun : ∀ k ≤ 32,
      ((List.range k).foldl (pdepRound mask) (0, value)).1.toNat
        = deposit ((List.range k).map mask.getLsbD) value.toNat ∧
      ((List.range k).foldl (pdepRound mask) (0, value)).2.toNat
        = value.toNat / 2 ^ places ((List.range k).map mask.getLsbD) := by
    intro k
    induction k with
    | zero => exact fun _ => ⟨rfl, (Nat.div_one _).symm⟩
    | succ k ih =>
      intro hk
      obtain ⟨hout, hvalue⟩ := ih (by omega)
      rw [range_succ, foldl_append, map_append]
      exact pdepRound_run (by omega) (by simp) hout hvalue
  exact (hrun 32 (Nat.le_refl _)).1

/-! ## The two masks -/

/-- The places of a column in an index, and those of a row. -/
def xPlaces : List Bool := bits (~~~0x7B4#32)

def yPlaces : List Bool := bits 0x7B4#32

theorem toNat_swizzleX : (swizzleX v).toNat = deposit xPlaces v.toNat :=
  toNat_pdep _ v

theorem toNat_swizzleY : (swizzleY v).toNat = deposit yPlaces v.toNat :=
  toNat_pdep _ v

theorem swizzleX_ones : swizzleX (~~~0) = ~~~0x7B4#32 := by decide

theorem yPlaces_eq : yPlaces = gaps xPlaces := by decide

theorem places_xPlaces : places xPlaces = 25 := by decide

theorem places_yPlaces : places yPlaces = 7 := by decide

/-- The four lowest bits of a column are mixed with those of the row, the others follow. -/
def lowColumn : List Bool :=
  [true, true, false, true, false, false, true, false, false, false, false]

theorem deposit_xPlaces (v : Nat) :
    deposit xPlaces v = deposit lowColumn v + 2 ^ 11 * (v / 16 % 2 ^ 21) := by
  have hsplit : xPlaces = lowColumn ++ List.replicate 21 true := by decide
  rw [hsplit, deposit_append, deposit_replicate_true]
  rfl

theorem deposit_xPlaces_add {x k : Nat} (h : x + 1280 * k < 2 ^ 25) :
    deposit xPlaces (x + 1280 * k) = deposit xPlaces x + 80 * 2 ^ 11 * k := by
  have hlow : deposit lowColumn (x + 1280 * k) = deposit lowColumn x := by
    rw [← deposit_mod lowColumn (x + 1280 * k), ← deposit_mod lowColumn x]
    congr 1
    show (x + 1280 * k) % 16 = x % 16
    omega
  rw [deposit_xPlaces, deposit_xPlaces, Nat.mod_eq_of_lt (by omega)]
  omega

theorem swizzleX_width : swizzleX (128 * 10) = BitVec.ofNat 32 (80 * 2 ^ 11) := by decide

/-! ## Where the pixels belong -/

/-- The index of a pixel in the framebuffer. -/
def pixelIndex (x y : Nat) : Nat :=
  (pdep (~~~0x7B4#32) (BitVec.ofNat 32 (x + 1280 * (y / 128))) |||
    pdep 0x7B4#32 (BitVec.ofNat 32 (y % 128))).toNat

theorem pixelIndex_eq {x y : Nat} (h : x + 1280 * (y / 128) < 2 ^ 25) :
    pixelIndex x y = deposit yPlaces (y % 128) + deposit xPlaces (x + 1280 * (y / 128)) := by
  unfold pixelIndex
  rw [toNat_or, toNat_pdep, toNat_pdep, toNat_ofNat, toNat_ofNat,
    Nat.mod_eq_of_lt (by omega), Nat.mod_eq_of_lt (by omega)]
  show deposit xPlaces _ ||| deposit yPlaces _ = _
  rw [yPlaces_eq, deposit_or_deposit, Nat.add_comm]

theorem pixelIndex_inj {x y x' y' : Nat} (hx : x < 1280) (hy : 1280 * (y / 128 + 1) ≤ 2 ^ 25)
    (hx' : x' < 1280) (hy' : 1280 * (y' / 128 + 1) ≤ 2 ^ 25)
    (h : pixelIndex x y = pixelIndex x' y') : x = x' ∧ y = y' := by
  rw [pixelIndex_eq (by omega), pixelIndex_eq (by omega), yPlaces_eq, Nat.add_comm,
    Nat.add_comm (deposit (gaps xPlaces) _)] at h
  obtain ⟨hcolumn, hrow⟩ := deposit_add_inj h
  rw [← yPlaces_eq] at hrow
  have hcolumn := deposit_inj hcolumn
  have hrow := deposit_inj hrow
  rw [places_xPlaces, Nat.mod_eq_of_lt (by omega), Nat.mod_eq_of_lt (by omega)] at hcolumn
  rw [places_yPlaces] at hrow
  omega

/-! ## The loops -/

section Loops

variable (image : Mem Pixel)

/-- What a line of `n` pixels stores, from the index `destLine` and the column `x` on. -/
def linePixels (destLine x src n : Nat) : List (Nat × Pixel) :=
  (List.range n).map fun i => (destLine + deposit xPlaces (x + i), image (src + i))

theorem linePixels_succ (destLine x src n : Nat) :
    linePixels image destLine x src (n + 1) =
      (destLine + deposit xPlaces x, image src) ::
        linePixels image destLine (x + 1) (src + 1) n := by
  unfold linePixels
  rw [range_succ_eq_map, map_cons, map_map]
  congr 1
  refine map_congr_left fun i _ => ?_
  rw [Nat.add_assoc, Nat.add_assoc, Nat.add_comm 1 i]
  rfl

theorem blitLine_run {x : Nat} {offsX : BitVec 32} (destLine n src : Nat) (buffer : Mem Pixel)
    (h : offsX.toNat = deposit xPlaces x) :
    blitLine image (~~~0x7B4#32) destLine n offsX (src, buffer) =
      (src + n, buffer.scatter (linePixels image destLine x src n)) := by
  induction n generalizing x offsX src buffer with
  | zero => rfl
  | succ n ih =>
    rw [linePixels_succ, ← h, blitLine, ih _ _ (deposit_succ h)]
    congr 1
    omega

/-- The counters of a line. -/
structure BlitState.At (s : BlitState) (x y : Nat) : Prop where
  offsX0 : s.offsX0.toNat = deposit xPlaces (x + 1280 * (y / 128))
  offsY : s.offsY.toNat = deposit yPlaces (y % 128)

/-- One round of the outer loop, as the masks are. -/
abbrev blitNext (width : Nat) (s : BlitState) : BlitState :=
  blitRound image (~~~0x7B4#32) 0x7B4#32 (BitVec.ofNat 32 (80 * 2 ^ 11)) width s

/-- The row counter wraps at the end of a tile, and then the column counter moves to the next row of
tiles. -/
theorem BlitState.At.next {s : BlitState} {x y : Nat} (h : s.At x y) (width : Nat) (hx : x ≤ 1280)
    (hy : y < 768) : (blitNext image width s).At x (y + 1) := by
  have hrow : (blitNext image width s).offsY.toNat = deposit yPlaces ((y + 1) % 128) := by
    refine (deposit_succ h.offsY).trans ?_
    show deposit yPlaces (y % 128 + 1) = _
    rw [← deposit_mod, places_yPlaces]
    congr 1
    omega
  have hwrap : (blitNext image width s).offsY = 0 ↔ (y + 1) % 128 = 0 := by
    rw [← toNat_inj, hrow]
    show deposit yPlaces ((y + 1) % 128) = 0 ↔ _
    rw [deposit_eq_zero_iff, places_yPlaces]
    omega
  refine ⟨?_, hrow⟩
  show (if (blitNext image width s).offsY = 0 then s.offsX0 + BitVec.ofNat 32 (80 * 2 ^ 11)
    else s.offsX0).toNat = _
  by_cases hlast : (y + 1) % 128 = 0
  · have hadd := deposit_xPlaces_add (x := x) (k := y / 128) (by omega)
    have hadd' := deposit_xPlaces_add (x := x) (k := y / 128 + 1) (by omega)
    have hlt := deposit_lt xPlaces (x + 1280 * (y / 128 + 1))
    rw [show xPlaces.length = 32 from length_bits _] at hlt
    rw [if_pos (hwrap.2 hlast), toNat_add, h.offsX0,
      show (y + 1) / 128 = y / 128 + 1 by omega,
      show (BitVec.ofNat 32 (80 * 2 ^ 11)).toNat = 80 * 2 ^ 11 from rfl]
    omega
  · rw [if_neg (mt hwrap.1 hlast), h.offsX0, show (y + 1) / 128 = y / 128 by omega]

/-- What the outer loop stores in `n` lines. -/
def rectPixels (x y src width n : Nat) : List (Nat × Pixel) :=
  (List.range n).flatMap fun j => linePixels image (deposit yPlaces ((y + j) % 128))
    (x + 1280 * ((y + j) / 128)) (src + j * width) width

theorem rectPixels_succ (x y src width n : Nat) :
    rectPixels image x y src width (n + 1) =
      linePixels image (deposit yPlaces (y % 128)) (x + 1280 * (y / 128)) src width ++
        rectPixels image x (y + 1) (src + width) width n := by
  have hshift : ∀ j, y + 1 + j = y + (j + 1) ∧ src + width + j * width = src + (j + 1) * width :=
    fun j => ⟨by omega, by rw [Nat.add_mul]; omega⟩
  unfold rectPixels
  rw [range_succ_eq_map, flatMap_cons, flatMap_map, Nat.zero_mul]
  simp only [hshift]
  rfl

theorem blitLines_run {s : BlitState} {x y : Nat} (width n : Nat) (h : s.At x y) (hx : x ≤ 1280)
    (hy : y + n ≤ 768) :
    (blitLines image (~~~0x7B4#32) 0x7B4#32 (BitVec.ofNat 32 (80 * 2 ^ 11)) width n s).buffer =
      s.buffer.scatter (rectPixels image x y s.src width n) := by
  induction n generalizing s y with
  | zero => rfl
  | succ n ih =>
    have hline := blitLine_run image s.offsY.toNat width s.src s.buffer h.offsX0
    rw [blitLines, ih (h.next image width hx (by omega)) (by omega), rectPixels_succ,
      Mem.scatter_append, ← h.offsY]
    show (blitLine image _ _ width s.offsX0 (s.src, s.buffer)).2.scatter (rectPixels image x (y + 1)
      (blitLine image _ _ width s.offsX0 (s.src, s.buffer)).1 width n) = _
    rw [hline]

end Loops

/-! ## The blit -/

/-- The rectangle lies in the framebuffer. -/
structure InFramebuffer (w h tx ty : BitVec 32) : Prop where
  tx_nonneg : 0 ≤ tx.toInt
  w_nonneg : 0 ≤ w.toInt
  right : tx.toInt + w.toInt ≤ 1280
  ty_nonneg : 0 ≤ ty.toInt
  h_nonneg : 0 ≤ h.toInt
  bottom : ty.toInt + h.toInt ≤ 768

theorem toInt_eq_toNat {v : BitVec 32} (h : 0 ≤ v.toInt) : v.toInt = v.toNat := by
  rw [toInt_eq_toNat_cond] at h ⊢
  split_ifs at h ⊢ <;> omega

section Blit

variable {w h tx ty : BitVec 32}

theorem InFramebuffer.right_toNat (hin : InFramebuffer w h tx ty) : tx.toNat + w.toNat ≤ 1280 := by
  have hright := hin.right
  rw [toInt_eq_toNat hin.tx_nonneg, toInt_eq_toNat hin.w_nonneg] at hright
  omega

theorem InFramebuffer.bottom_toNat (hin : InFramebuffer w h tx ty) : ty.toNat + h.toNat ≤ 768 := by
  have hbottom := hin.bottom
  rw [toInt_eq_toNat hin.ty_nonneg, toInt_eq_toNat hin.h_nonneg] at hbottom
  omega

theorem gfxSlowSwizzlingBlit_eq (buffer image : Mem Pixel) (hin : InFramebuffer w h tx ty) :
    gfxSlowSwizzlingBlit buffer image w h tx ty =
      buffer.scatter (rectPixels image tx.toNat ty.toNat 0 w.toNat h.toNat) := by
  have hright := hin.right_toNat
  have hbottom := hin.bottom_toNat
  have hwidth : (tx + w).toNat - tx.toNat = w.toNat := by
    rw [toNat_add, Nat.mod_eq_of_lt (by omega)]
    omega
  have hheight : (ty + h).toNat - ty.toNat = h.toNat := by
    rw [toNat_add]
    omega
  unfold gfxSlowSwizzlingBlit
  simp only [swizzleX_ones, swizzleX_width, hwidth, hheight]
  refine blitLines_run image w.toNat h.toNat ⟨?_, ?_⟩ (by omega) hbottom
  · have hadd := deposit_xPlaces_add (x := tx.toNat) (k := ty.toNat / 128) (by omega)
    have hlt := deposit_lt xPlaces (tx.toNat + 1280 * (ty.toNat / 128))
    rw [show xPlaces.length = 32 from length_bits _] at hlt
    rw [toNat_add, toNat_mul, toNat_udiv, toNat_swizzleX,
      show (BitVec.ofNat 32 (80 * 2 ^ 11)).toNat = 80 * 2 ^ 11 from rfl,
      show (128 : BitVec 32).toNat = 128 from rfl]
    omega
  · rw [toNat_swizzleY, ← deposit_mod]
    rfl

theorem mem_rectPixels {image : Mem Pixel} {x y width n : Nat} (hx : x + width ≤ 1280)
    (hy : y + n ≤ 768) {p : Nat × Pixel} :
    p ∈ rectPixels image x y 0 width n ↔ ∃ i j, i < width ∧ j < n ∧
      p = (pixelIndex (x + i) (y + j), image (j * width + i)) := by
  have hindex : ∀ i j, i < width → j < n →
      deposit yPlaces ((y + j) % 128) + deposit xPlaces (x + 1280 * ((y + j) / 128) + i)
        = pixelIndex (x + i) (y + j) := by
    intro i j hi hj
    rw [pixelIndex_eq (by omega), Nat.add_right_comm]
  unfold rectPixels linePixels
  simp only [mem_flatMap, mem_map, mem_range, Nat.zero_add]
  constructor
  · rintro ⟨j, hj, i, hi, rfl⟩
    exact ⟨i, j, hi, hj, by rw [hindex i j hi hj]⟩
  · rintro ⟨i, j, hi, hj, rfl⟩
    exact ⟨j, hj, i, hi, by rw [hindex i j hi hj]⟩

end Blit

/-- **Every pixel is where it belongs.** The blit of a rectangle that lies in the framebuffer stores
each pixel of the image at its index, and changes nothing else. -/
theorem blit_places_pixels (buffer image : Mem Pixel) (w h tx ty : BitVec 32)
    (hin : InFramebuffer w h tx ty) :
    (∀ i j, i < w.toNat → j < h.toNat →
      gfxSlowSwizzlingBlit buffer image w h tx ty (pixelIndex (tx.toNat + i) (ty.toNat + j))
        = image (j * w.toNat + i)) ∧
    ∀ k, (∀ i j, i < w.toNat → j < h.toNat → pixelIndex (tx.toNat + i) (ty.toNat + j) ≠ k) →
      gfxSlowSwizzlingBlit buffer image w h tx ty k = buffer k := by
  have hright := hin.right_toNat
  have hbottom := hin.bottom_toNat
  have hmem := @mem_rectPixels image tx.toNat ty.toNat w.toNat h.toNat hright hbottom
  rw [gfxSlowSwizzlingBlit_eq buffer image hin]
  constructor
  · intro i j hi hj
    refine Mem.scatter_of_mem (hmem.2 ⟨i, j, hi, hj, rfl⟩) fun v hv heq => ?_
    obtain ⟨i', j', hi', hj', rfl⟩ := hmem.1 hv
    obtain ⟨hcolumn, hrow⟩ :=
      pixelIndex_inj (by omega) (by omega) (by omega) (by omega) heq
    rw [show i' = i by omega, show j' = j by omega]
  · intro k hk
    refine Mem.scatter_of_not_mem fun v hv => ?_
    obtain ⟨i, j, hi, hj, rfl⟩ := hmem.1 hv
    exact hk i j hi hj

/-- The last pixel of a rectangle in the corner, across the border between two rows of tiles. -/
theorem borderRect_pixels : InFramebuffer 3 2 1277 127 ∧
    gfxSlowSwizzlingBlit (fun _ => 0) (fun i => BitVec.ofNat 32 i) 3 2 1277 127
      (pixelIndex 1279 128) = 5 := by
  have hin : InFramebuffer 3 2 1277 127 := by constructor <;> decide
  exact ⟨hin, (blit_places_pixels (fun _ => 0) (fun i => BitVec.ofNat 32 i) 3 2 1277 127 hin).1 2 1
    (by decide) (by decide)⟩

end LibTransistor
