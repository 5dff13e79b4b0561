import LibTransistor.Gfx.Blit
import Mathlib.Data.Set.Function

/-!
# The swizzle fills the framebuffer

The index of a pixel is a place inside of a piece of 16 columns and 128 rows, and the number of that
piece counted through all rows of tiles (`pixelIndex_eq_add`): the width of 1280 is a multiple of
16, so the pieces of a row of tiles are followed by those of the next. Hence the swizzle is a
bijection onto the indices (`swizzle_bijOn`).
-/

namespace LibTransistor

open Deposit

/-- The pixels of `k` rows of tiles. -/
def tileRows (k : Nat) : Set (Nat × Nat) := {p | p.1 < 1280 ∧ p.2 < 128 * k}

/-- The place in a piece of 16 columns and 128 rows. -/
def placeInPiece (v u : Nat) : Nat := deposit lowColumn v + deposit (gaps lowColumn) u

theorem placeInPiece_lt (v u : Nat) : placeInPiece v u < 2 ^ 11 := by
  unfold placeInPiece
  rw [← deposit_or_deposit]
  exact Nat.or_lt_two_pow (deposit_lt lowColumn v) (deposit_lt (gaps lowColumn) u)

theorem deposit_yPlaces (u : Nat) : deposit yPlaces u = deposit (gaps lowColumn) u := by
  have hsplit : yPlaces = gaps lowColumn ++ List.replicate 21 false := by decide
  have hnone : ∀ v, deposit (List.replicate 21 false) v = 0 := fun v =>
    (deposit_eq_zero_iff _ v).2 (Nat.mod_one v)
  rw [hsplit, deposit_append, hnone, Nat.mul_zero, Nat.add_zero]

theorem pixelIndex_eq_add {x y : Nat} (h : x + 1280 * (y / 128) < 2 ^ 25) :
    pixelIndex x y = placeInPiece (x + 1280 * (y / 128)) (y % 128) +
      2 ^ 11 * ((x + 1280 * (y / 128)) / 16) := by
  unfold placeInPiece
  rw [pixelIndex_eq h, deposit_yPlaces, deposit_xPlaces]
  omega

section Rows

variable {k x y : Nat}

theorem pixelIndex_lt (hk : 163840 * k < 2 ^ 32) (hx : x < 1280) (hy : y < 128 * k) :
    pixelIndex x y < 163840 * k := by
  have hplace := placeInPiece_lt (x + 1280 * (y / 128)) (y % 128)
  rw [pixelIndex_eq_add (by omega)]
  omega

theorem exists_pixelIndex_eq (hk : 163840 * k < 2 ^ 32) {n : Nat} (hn : n < 163840 * k) :
    ∃ x y, x < 1280 ∧ y < 128 * k ∧ pixelIndex x y = n := by
  have hlow : n % 2 ^ 11 < 2 ^ lowColumn.length := Nat.mod_lt n (by decide)
  obtain ⟨v, u, hv, hu, hplace⟩ := exists_deposit_add hlow
  have hv : v < 16 := hv
  have hu : u < 128 := hu
  -- the columns are counted through the rows of tiles, 16 in a piece
  have hcolumn : (v + 16 * (n / 2 ^ 11)) % 1280 +
      1280 * ((u + 128 * ((v + 16 * (n / 2 ^ 11)) / 1280)) / 128) = v + 16 * (n / 2 ^ 11) := by omega
  have hrow : (u + 128 * ((v + 16 * (n / 2 ^ 11)) / 1280)) % 128 = u := by omega
  refine ⟨(v + 16 * (n / 2 ^ 11)) % 1280, u + 128 * ((v + 16 * (n / 2 ^ 11)) / 1280),
    Nat.mod_lt _ (by decide), by omega, ?_⟩
  have hsame : placeInPiece (v + 16 * (n / 2 ^ 11)) u = n % 2 ^ 11 := by
    rw [← hplace]
    unfold placeInPiece
    rw [← deposit_mod lowColumn (v + 16 * (n / 2 ^ 11)), ← deposit_mod lowColumn v]
    congr 2
    show (v + 16 * (n / 2 ^ 11)) % 16 = v % 16
    omega
  rw [pixelIndex_eq_add (by omega), hcolumn, hrow]
  omega

theorem bijOn_tileRows (hk : 163840 * k < 2 ^ 32) :
    Set.BijOn (fun p => pixelIndex p.1 p.2) (tileRows k) (Set.Iio (163840 * k)) := by
  refine ⟨?_, ?_, ?_⟩
  · intro p hp
    exact pixelIndex_lt hk hp.1 hp.2
  · intro p hp q hq h
    obtain ⟨hx, hy⟩ := hp
    obtain ⟨hx', hy'⟩ := hq
    obtain ⟨hcolumn, hrow⟩ := pixelIndex_inj hx (by omega) hx' (by omega) h
    exact Prod.ext hcolumn hrow
  · intro n hn
    obtain ⟨x, y, hx, hy, rfl⟩ := exists_pixelIndex_eq hk hn
    exact ⟨(x, y), ⟨hx, hy⟩, rfl⟩

end Rows

/-- **The swizzle is a bijection** of the pixels of `k` rows of tiles onto the indices below their
number, and so of the 1280 × 768 pixels onto the words of one buffer. -/
theorem swizzle_bijOn :
    (∀ k, 163840 * k < 2 ^ 32 →
      Set.BijOn (fun p => pixelIndex p.1 p.2) (tileRows k) (Set.Iio (163840 * k))) ∧
    Set.BijOn (fun p : Nat × Nat => pixelIndex p.1 p.2) {p | p.1 < 1280 ∧ p.2 < 768}
      (Set.Iio (0x3c0000 / 4)) :=
  ⟨fun k hk => bijOn_tileRows hk, bijOn_tileRows (k := 6) (by decide)⟩

end LibTransistor
