import LibTransistor.Lib.Bits
import LibTransistor.Lib.Bytes
import LibTransistor.Lib.Span

/-!
# A 64-bit address space

Each address holds a byte, and addresses wrap. Words are put together least significant byte first
(`load32`, `load64`) and overwritten (`store64`). What a load or a store touches is a `span`:
`load64_congr` and its like say that a load sees only that, `store64_of_notMem` that a store leaves
the rest as it is.
-/

namespace LibTransistor

/-- The bytes of a word, least significant first. -/
def le64 (w : BitVec 64) : List Byte := le32 (Bits.low w) ++ le32 (Bits.high w)

/-- What each address holds. -/
abbrev AddressSpace := BitVec 64 → Byte

namespace AddressSpace

variable (m : AddressSpace) {m' : AddressSpace} {a k n size x : BitVec 64} (v : BitVec 64)

def load32 (a : BitVec 64) : BitVec 32 := ofBytes (m (a + 3)) (m (a + 2)) (m (a + 1)) (m a)

def load64 (a : BitVec 64) : BitVec 64 :=
  ofBytes (m (a + 7)) (m (a + 6)) (m (a + 5)) (m (a + 4)) ++
    ofBytes (m (a + 3)) (m (a + 2)) (m (a + 1)) (m a)

def store64 (a v : BitVec 64) : AddressSpace := fun x => ((le64 v)[(x - a).toNat]?).getD (m x)

/-- Consecutive words from an address on, and zeros everywhere else. -/
def ofWords (a : BitVec 64) (ws : List (BitVec 64)) : AddressSpace := fun x =>
  ((ws.flatMap le64)[(x - a).toNat]?).getD 0

theorem add_mem_span (h : k < size) : a + k ∈ span a size := by
  show a + k - a < size
  rw [add_sub_cancel_left]
  exact h

theorem span_add_subset (h : k.toNat + n.toNat ≤ size.toNat) : span (a + k) n ⊆ span a size := by
  intro x hx
  have hlt : x - (a + k) < n := hx
  show x - a < size
  have hsub : x - a = x - (a + k) + k := by rw [sub_add_eq_sub_sub, sub_add_cancel]
  rw [BitVec.lt_def] at hlt ⊢
  rw [hsub, BitVec.toNat_add]
  omega

variable {m}

theorem load32_congr (h : ∀ x ∈ span a 4, m x = m' x) : m.load32 a = m'.load32 a := by
  have hbyte (k : BitVec 64) (hk : k < 4) : m (a + k) = m' (a + k) := h _ (add_mem_span hk)
  have hfirst := h a (mem_span_self (by decide))
  unfold load32
  rw [hfirst, hbyte 1 (by decide), hbyte 2 (by decide), hbyte 3 (by decide)]

theorem load64_congr (h : ∀ x ∈ span a 8, m x = m' x) : m.load64 a = m'.load64 a := by
  have hbyte (k : BitVec 64) (hk : k < 8) : m (a + k) = m' (a + k) := h _ (add_mem_span hk)
  have hfirst := h a (mem_span_self (by decide))
  unfold load64
  rw [hfirst, hbyte 1 (by decide), hbyte 2 (by decide), hbyte 3 (by decide), hbyte 4 (by decide),
    hbyte 5 (by decide), hbyte 6 (by decide), hbyte 7 (by decide)]

variable (m)

theorem store64_of_notMem (h : x ∉ span a 8) : m.store64 a v x = m x := by
  have hle : ¬ (x - a).toNat < 8 := h
  unfold store64
  rw [List.getElem?_eq_none (Nat.not_lt.1 hle)]
  rfl

theorem store64_add (k : BitVec 64) {b : Byte} (h : (le64 v)[k.toNat]? = some b) :
    m.store64 a v (a + k) = b := by
  unfold store64
  rw [add_sub_cancel_left, h]
  rfl

theorem load64_store64 : (m.store64 a v).load64 a = v := by
  have hfirst : m.store64 a v a = (Bits.low v).extractLsb' 0 8 := by
    have h := m.store64_add v 0 (a := a) rfl
    rwa [add_zero] at h
  unfold load64
  rw [hfirst, m.store64_add v 1 rfl, m.store64_add v 2 rfl, m.store64_add v 3 rfl,
    m.store64_add v 4 rfl, m.store64_add v 5 rfl, m.store64_add v 6 rfl, m.store64_add v 7 rfl,
    ofBytes_be32, ofBytes_be32]
  exact Bits.high_append_low v

end AddressSpace

end LibTransistor
