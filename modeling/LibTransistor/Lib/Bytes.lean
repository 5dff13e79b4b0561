import LibTransistor.Lib.Memory
import Mathlib.Data.List.TakeWhile
import Mathlib.Data.Nat.Bitwise

/-!
# Bytes, words and strings

A word as bytes in either order, and strings that end at a zero byte.

* `be32`, `le32` — the bytes of a word, and `ofBytes` for the way back (`ofBytes_be32`).
* `CString` — the bytes of a C string in front of the zero, so none of them is zero.
* `stringAt` — the C string that a block of memory starts with.
-/

namespace LibTransistor

open List BitVec

abbrev Byte := BitVec 8

/-! ## Words -/

variable (w : BitVec 32)

/-- The bytes of a word, most significant first. -/
def be32 : List Byte :=
  [w.extractLsb' 24 8, w.extractLsb' 16 8, w.extractLsb' 8 8, w.extractLsb' 0 8]

/-- The bytes of a word, least significant first. -/
def le32 : List Byte :=
  [w.extractLsb' 0 8, w.extractLsb' 8 8, w.extractLsb' 16 8, w.extractLsb' 24 8]

variable (b₃ b₂ b₁ b₀ : Byte)

/-- The word with these bytes, given most significant first. -/
def ofBytes : BitVec 32 := b₃ ++ b₂ ++ b₁ ++ b₀

@[simp] theorem length_be32 : (be32 w).length = 4 := rfl

@[simp] theorem length_le32 : (le32 w).length = 4 := rfl

theorem toNat_ofBytes : (ofBytes b₃ b₂ b₁ b₀).toNat =
    ((b₃.toNat * 2 ^ 8 + b₂.toNat) * 2 ^ 8 + b₁.toNat) * 2 ^ 8 + b₀.toNat := by
  have hor : ∀ n (b : Byte), n <<< 8 ||| b.toNat = n * 2 ^ 8 + b.toNat := fun n b => by
    rw [← Nat.shiftLeft_add_eq_or_of_lt b.isLt, Nat.shiftLeft_eq]
  unfold ofBytes
  rw [toNat_append, toNat_append, toNat_append, hor, hor, hor]

theorem ofBytes_be32 :
    ofBytes (w.extractLsb' 24 8) (w.extractLsb' 16 8) (w.extractLsb' 8 8) (w.extractLsb' 0 8) = w := by
  apply eq_of_toNat_eq
  rw [toNat_ofBytes]
  simp only [extractLsb'_toNat]
  omega

theorem be32_injective {w w' : BitVec 32} (h : be32 w = be32 w') : w = w' := by
  simp only [be32, List.cons.injEq, and_true] at h
  rw [← ofBytes_be32 w, ← ofBytes_be32 w', h.1, h.2.1, h.2.2.1, h.2.2.2]

theorem be32_ofBytes : be32 (ofBytes b₃ b₂ b₁ b₀) = [b₃, b₂, b₁, b₀] := by
  have hbyte : ∀ k (b : Byte), (∀ i, i < 8 → (ofBytes b₃ b₂ b₁ b₀).getLsbD (k + i) = b.getLsbD i) →
      (ofBytes b₃ b₂ b₁ b₀).extractLsb' k 8 = b := by
    intro k b h
    ext i hi
    rw [getElem_extractLsb', h i hi, getLsbD_eq_getElem hi]
  unfold be32
  rw [hbyte 24 b₃, hbyte 16 b₂, hbyte 8 b₁, hbyte 0 b₀] <;>
  · intro i hi
    simp only [ofBytes, getLsbD_append]
    grind

theorem exists_take_eq_be32 {bs : List Byte} (h : 4 ≤ bs.length) : ∃ w, bs.take 4 = be32 w := by
  match bs, h with
  | b₃ :: b₂ :: b₁ :: b₀ :: _, _ => exact ⟨_, (be32_ofBytes b₃ b₂ b₁ b₀).symm⟩

/-- The word that starts at byte `i`, least significant byte first. -/
def wordAt (m : Mem Byte) (i : Nat) : BitVec 32 := ofBytes (m (i + 3)) (m (i + 2)) (m (i + 1)) (m i)

theorem wordAt_congr {m m' : Mem Byte} {i : Nat} (h : ∀ j < 4, m (i + j) = m' (i + j)) :
    wordAt m i = wordAt m' i := by
  unfold wordAt
  rw [h 3 (by decide), h 2 (by decide), h 1 (by decide)]
  exact congrArg _ (h 0 (by decide))

theorem wordAt_eq {m : Mem Byte} {i : Nat} {w : BitVec 32} (h : m.read i 4 = le32 w) :
    wordAt m i = w := by
  have hcells : [m i, m (i + 1), m (i + 2), m (i + 3)] = le32 w := h
  simp only [le32, List.cons.injEq, and_true] at hcells
  unfold wordAt
  rw [hcells.1, hcells.2.1, hcells.2.2.1, hcells.2.2.2, ofBytes_be32]

/-! ## Strings -/

/-- The bytes of a text. -/
def ascii (s : List Char) : List Byte := s.map fun c => BitVec.ofNat 8 c.toNat

def newline : Byte := 0x0A

/-- A C string. -/
structure CString where
  bytes : List Byte
  no_nul : 0#8 ∉ bytes
  deriving DecidableEq

/-- The C string at the start of a block of memory, if it ends inside the block. -/
def stringAt (block : List Byte) : Option (List Byte) :=
  if 0#8 ∈ block then some (block.takeWhile (· ≠ 0#8)) else none

variable {s rest block : List Byte}

theorem stringAt_append_nul (hs : 0#8 ∉ s) (rest : List Byte) :
    stringAt (s ++ 0#8 :: rest) = some s := by
  unfold stringAt
  rw [takeWhile_append_of_pos]
  · simp
  · intro b hb
    simpa using fun h : b = 0#8 => hs (h ▸ hb)

theorem not_mem_stringAt (h : stringAt block = some s) : 0#8 ∉ s := by
  unfold stringAt at h
  split at h
  · cases h
    intro hmem
    simpa using mem_takeWhile_imp hmem
  · cases h

theorem length_stringAt_lt (h : stringAt block = some s) : s.length < block.length := by
  unfold stringAt at h
  split at h
  · next hmem =>
      cases h
      have hsplit := congrArg List.length
        (takeWhile_append_dropWhile (p := fun b : Byte => b ≠ 0#8) (l := block))
      have hrest : block.dropWhile (fun b : Byte => b ≠ 0#8) ≠ [] := by
        intro hnil
        exact absurd (dropWhile_eq_nil_iff.1 hnil 0#8 hmem) (by decide)
      have hpos := length_pos_iff.2 hrest
      rw [length_append] at hsplit
      omega
  · cases h

/-- A string is at least as long as the non-zero bytes that it starts with. -/
theorem le_length_stringAt (h : stringAt (s ++ rest) = some block) (hs : 0#8 ∉ s) :
    s.length ≤ block.length := by
  unfold stringAt at h
  split at h
  · cases h
    rw [takeWhile_append_of_pos (fun b hb => by simpa using fun h : b = 0#8 => hs (h ▸ hb)),
      length_append]
    exact Nat.le_add_right _ _
  · cases h

end LibTransistor
