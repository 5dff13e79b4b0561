import LibTransistor.Loader.NroRuns

/-!
# The hash of a program

`projects/ace_loader/sha256.c`, with which `nro_load` makes the hash for the NRR. `sha256_update`
collects bytes in `data`, and runs `sha256_transform` whenever there are 64 of them; `sha256_final`
pads what is left.

`IsDigest` says what SHA-256 makes of a whole message, padded and cut into blocks, with the same
transform. The functions compute this however the message is cut into pieces (`sha256_streams`): at
each moment it is the blocks that were transformed and the bytes in front of `datalen` (`Absorbed`).
So the NRR has the digest of the program (`nrr_digest`).
-/

namespace LibTransistor

open List

/-! ## The transform -/

/-- `k`. -/
def sha256K : List (BitVec 32) :=
  [0x428a2f98, 0x71374491, 0xb5c0fbcf, 0xe9b5dba5, 0x3956c25b, 0x59f111f1, 0x923f82a4, 0xab1c5ed5,
  0xd807aa98, 0x12835b01, 0x243185be, 0x550c7dc3, 0x72be5d74, 0x80deb1fe, 0x9bdc06a7, 0xc19bf174,
  0xe49b69c1, 0xefbe4786, 0x0fc19dc6, 0x240ca1cc, 0x2de92c6f, 0x4a7484aa, 0x5cb0a9dc, 0x76f988da,
  0x983e5152, 0xa831c66d, 0xb00327c8, 0xbf597fc7, 0xc6e00bf3, 0xd5a79147, 0x06ca6351, 0x14292967,
  0x27b70a85, 0x2e1b2138, 0x4d2c6dfc, 0x53380d13, 0x650a7354, 0x766a0abb, 0x81c2c92e, 0x92722c85,
  0xa2bfe8a1, 0xa81a664b, 0xc24b8b70, 0xc76c51a3, 0xd192e819, 0xd6990624, 0xf40e3585, 0x106aa070,
  0x19a4c116, 0x1e376c08, 0x2748774c, 0x34b0bcb5, 0x391c0cb3, 0x4ed8aa4a, 0x5b9cca4f, 0x682e6ff3,
  0x748f82ee, 0x78a5636f, 0x84c87814, 0x8cc70208, 0x90befffa, 0xa4506ceb, 0xbef9a3f7, 0xc67178f2]

structure Sha256State where
  (a b c d e f g h : BitVec 32)

section Macros

variable (x y z : BitVec 32)

def rotRight (n : Nat) : BitVec 32 := x >>> n ||| x <<< (32 - n)
def ch : BitVec 32 := (x &&& y) ^^^ (~~~x &&& z)
def maj : BitVec 32 := (x &&& y) ^^^ (x &&& z) ^^^ (y &&& z)
def ep0 : BitVec 32 := rotRight x 2 ^^^ rotRight x 13 ^^^ rotRight x 22
def ep1 : BitVec 32 := rotRight x 6 ^^^ rotRight x 11 ^^^ rotRight x 25
def sig0 : BitVec 32 := rotRight x 7 ^^^ rotRight x 18 ^^^ x >>> 3
def sig1 : BitVec 32 := rotRight x 17 ^^^ rotRight x 19 ^^^ x >>> 10

end Macros

/-- The words of a block, most significant byte first. -/
def blockWords : List Byte → List (BitVec 32)
  | b₃ :: b₂ :: b₁ :: b₀ :: bs => ofBytes b₃ b₂ b₁ b₀ :: blockWords bs
  | _ => []

/-- One more word of `m`. -/
def extendSchedule (m : List (BitVec 32)) : List (BitVec 32) :=
  let i := m.length
  m ++ [sig1 (m.getD (i - 2) 0) + m.getD (i - 7) 0 + sig0 (m.getD (i - 15) 0) + m.getD (i - 16) 0]

variable (s : Sha256State)

/-- A round, with `k[i]` and `m[i]`. -/
def sha256Round (km : BitVec 32 × BitVec 32) : Sha256State :=
  let t1 := s.h + ep1 s.e + ch s.e s.f s.g + km.1 + km.2
  let t2 := ep0 s.a + maj s.a s.b s.c
  ⟨t1 + t2, s.a, s.b, s.c, s.d + t1, s.e, s.f, s.g⟩

def sha256Transform (data : List Byte) : Sha256State :=
  let r := (sha256K.zip (extendSchedule^[48] (blockWords data))).foldl sha256Round s
  ⟨s.a + r.a, s.b + r.b, s.c + r.c, s.d + r.d, s.e + r.e, s.f + r.f, s.g + r.g, s.h + r.h⟩

/-! ## The context -/

structure Sha256Ctx where
  data : Mem Byte
  datalen : Fin 64
  bitlen : BitVec 64
  state : Sha256State

def sha256Iv : Sha256State :=
  ⟨0x6a09e667, 0xbb67ae85, 0x3c6ef372, 0xa54ff53a, 0x510e527f, 0x9b05688c, 0x1f83d9ab, 0x5be0cd19⟩

/-- `sha256_init` leaves `data` as it is. -/
def sha256Init (data : Mem Byte) : Sha256Ctx := ⟨data, 0, 0, sha256Iv⟩

variable (c : Sha256Ctx)

/-- A round of the loop of `sha256_update`. -/
def sha256Byte (b : Byte) : Sha256Ctx :=
  let data := c.data.write c.datalen [b]
  if h : c.datalen.val + 1 < 64 then { c with data, datalen := ⟨c.datalen + 1, h⟩ }
  else ⟨data, 0, c.bitlen + 512, sha256Transform c.state (data.read 0 64)⟩

/-- `sha256_update`. The counter of its loop has 32 bits, so it does not come to the end of more. -/
def sha256Update (data : List Byte) : Option Sha256Ctx :=
  if data.length < 2 ^ 32 then some (data.foldl sha256Byte c) else none

/-- The number of bits, most significant byte first. -/
def be64 (w : BitVec 64) : List Byte := be32 (w.extractLsb' 32 32) ++ be32 (w.extractLsb' 0 32)

def Sha256State.bytes : List Byte :=
  [s.a, s.b, s.c, s.d, s.e, s.f, s.g, s.h].flatMap be32

/-- `sha256_final`. -/
def sha256Final : List Byte :=
  let i := c.datalen.val
  let padded : Mem Byte × Sha256State :=
    if i < 56 then (c.data.write i (0x80 :: replicate (55 - i) 0), c.state)
    else
      let data := c.data.write i (0x80 :: replicate (63 - i) 0)
      (data.write 0 (replicate 56 0), sha256Transform c.state (data.read 0 64))
  let bitlen := c.bitlen + BitVec.ofNat 64 (i * 8)
  (sha256Transform padded.2 ((padded.1.write 56 (be64 bitlen)).read 0 64)).bytes

/-! ## The hash of a message -/

/-- The message, a bit that is one, as many zeros as it takes, and the number of bits. -/
def sha256Pad (msg : List Byte) : List Byte :=
  msg ++ 0x80 :: replicate ((119 - msg.length % 64) % 64) 0 ++
    be64 (BitVec.ofNat 64 (8 * msg.length))

/-- The blocks of the padded message transform the state one after the other. -/
def IsDigest (msg digest : List Byte) : Prop :=
  ∃ blocks : List (List Byte), blocks.flatten = sha256Pad msg ∧ (∀ b ∈ blocks, b.length = 64) ∧
    digest = (blocks.foldl sha256Transform sha256Iv).bytes

/-- What the context has of a message. -/
def Sha256Ctx.Absorbed (msg : List Byte) : Prop :=
  ∃ blocks : List (List Byte), msg = blocks.flatten ++ c.data.read 0 c.datalen ∧
    msg.length = 64 * blocks.length + c.datalen ∧ (∀ b ∈ blocks, b.length = 64) ∧
    c.state = blocks.foldl sha256Transform sha256Iv ∧
    c.bitlen = BitVec.ofNat 64 (512 * blocks.length)

namespace Sha256Ctx.Absorbed

variable {c : Sha256Ctx} {msg : List Byte} (h : c.Absorbed msg)

include h

theorem byte (b : Byte) : (sha256Byte c b).Absorbed (msg ++ [b]) := by
  obtain ⟨blocks, hmsg, hlength, hblocks, hstate, hbits⟩ := h
  have hread : (c.data.write c.datalen [b]).read 0 (c.datalen + 1) =
      c.data.read 0 c.datalen ++ [b] := c.data.read_write_behind rfl
  unfold sha256Byte
  dsimp only
  split_ifs with hlt
  · refine ⟨blocks, ?_, by simp [hlength, add_assoc], hblocks, hstate, hbits⟩
    rw [hmsg, append_assoc, ← hread]
  · have hlast : c.datalen.val + 1 = 64 := by omega
    rw [hlast] at hread
    refine ⟨blocks ++ [c.data.read 0 c.datalen ++ [b]], by simp [hmsg], ?_, ?_, ?_, ?_⟩
    · simp [hlength]
      omega
    · simpa [or_imp, forall_and, hlast] using hblocks
    · rw [foldl_append, ← hstate, hread]
      rfl
    · simp [hbits, BitVec.ofNat_add, mul_add]

theorem update (data : List Byte) : (data.foldl sha256Byte c).Absorbed (msg ++ data) := by
  induction data generalizing c msg with
  | nil => simpa using h
  | cons b data ih => simpa using ih (h.byte b)

theorem pieces {pieces : List (List Byte)} (hsize : ∀ piece ∈ pieces, piece.length < 2 ^ 32) :
    ∃ c', pieces.foldlM sha256Update c = some c' ∧ c'.Absorbed (msg ++ pieces.flatten) := by
  induction pieces generalizing c msg with
  | nil => exact ⟨c, rfl, by simpa using h⟩
  | cons piece pieces ih =>
    rw [foldlM_cons, sha256Update, if_pos (hsize piece mem_cons_self), flatten_cons, ← append_assoc]
    exact ih (h.update piece) fun q hq => hsize q (mem_cons_of_mem _ hq)

/-- **Padding.** What `sha256_final` transforms are the last blocks of the padded message: one if
there is room for the number of bits behind the message, and two otherwise. -/
theorem final : IsDigest msg (sha256Final c) := by
  obtain ⟨blocks, hmsg, hlength, hblocks, hstate, hbits⟩ := h
  have hlt := c.datalen.isLt
  have hbitlen : c.bitlen + BitVec.ofNat 64 (c.datalen * 8) = BitVec.ofNat 64 (8 * msg.length) := by
    rw [hbits, hlength, ← BitVec.ofNat_add]
    congr 1
    omega
  unfold sha256Final
  dsimp only
  rw [hbitlen]
  split_ifs with hroom
  · have hzeros : (119 - msg.length % 64) % 64 = 55 - c.datalen := by omega
    refine ⟨blocks ++ [_], ?_, ?_, by rw [foldl_append, ← hstate]; rfl⟩
    · dsimp only
      rw [Mem.read_write_behind (n := 64) (k := 56) _ rfl, Mem.read_write_behind _ (by simp; omega),
        sha256Pad, hzeros]
      nth_rewrite 2 [hmsg]
      simp
    · simpa [or_imp, forall_and] using hblocks
  · have hzeros : (119 - msg.length % 64) % 64 = 63 - c.datalen + 56 := by omega
    refine ⟨blocks ++ [_, _], ?_, ?_, by rw [foldl_append, ← hstate]; rfl⟩
    · dsimp only
      rw [Mem.read_write_behind (n := 64) (k := 56) _ rfl,
        Mem.read_write_behind (n := 56) (k := 0) _ (by simp),
        Mem.read_write_behind _ (by simp; omega), sha256Pad, hzeros,
        ← replicate_append_replicate]
      nth_rewrite 2 [hmsg]
      simp
    · simpa [or_imp, forall_and] using hblocks

end Sha256Ctx.Absorbed

theorem absorbed_init (data : Mem Byte) : (sha256Init data).Absorbed [] :=
  ⟨[], rfl, rfl, by simp, rfl, rfl⟩

/-- **Hashing in pieces.** However a message is cut into pieces of less than 4 GiB, and whatever was
in `data` before, `sha256_init`, a `sha256_update` for each piece and `sha256_final` give the digest
of the whole message. -/
theorem sha256_streams (data : Mem Byte) {pieces : List (List Byte)}
    (h : ∀ piece ∈ pieces, piece.length < 2 ^ 32) :
    ∃ c, pieces.foldlM sha256Update (sha256Init data) = some c ∧
      IsDigest pieces.flatten (sha256Final c) := by
  obtain ⟨c, hfold, hc⟩ := (absorbed_init data).pieces h
  exact ⟨c, hfold, hc.final⟩

/-- The digest of `abc` is the one that is known of SHA-256. -/
theorem sha256_streams_abc : ∃ c,
    [[0x61#8], [0x62#8, 0x63#8]].foldlM sha256Update (sha256Init fun _ => 0) = some c ∧
      IsDigest [0x61#8, 0x62#8, 0x63#8] (sha256Final c) ∧
      sha256Final c = [0xba7816bf, 0x8f01cfea, 0x414140de, 0x5dae2223, 0xb00361a3, 0x96177a9c,
        0xb410ff61, 0xf20015ad].flatMap be32 := by
  obtain ⟨c, hfold, hdigest⟩ := sha256_streams (fun _ => 0)
    (show ∀ piece ∈ [[0x61#8], [0x62#8, 0x63#8]], piece.length < 2 ^ 32 by decide)
  have hbytes : [[0x61#8], [0x62#8, 0x63#8]].foldlM sha256Update (sha256Init fun _ => 0) =
      some ([0x61#8, 0x62#8, 0x63#8].foldl sha256Byte (sha256Init fun _ => 0)) := rfl
  refine ⟨c, hfold, hdigest, ?_⟩
  cases hbytes.symm.trans hfold
  decide +kernel

/-! ## The hash in the NRR -/

/-- What `nro_load` takes for the hash of a program, with `stack` in the `data` of its context. -/
def sha256 (stack : Mem Byte) (program : List Byte) (i : Fin 32) : Byte :=
  ((sha256Update (sha256Init stack) program).elim [] sha256Final).getD i 0

theorem isDigest_stored (stack m : Mem Byte) {a n p : Nat} (hn : n < 2 ^ 32) (h : a + n ≤ p) :
    IsDigest ((m.write p (ofFn (sha256 stack (m.read a n)))).read a n)
      ((m.write p (ofFn (sha256 stack (m.read a n)))).read p 32) := by
  have heq : ofFn (sha256 stack (m.read a n)) =
      sha256Final ((m.read a n).foldl sha256Byte (sha256Init stack)) := by
    unfold sha256 sha256Update
    rw [if_pos (by simpa using hn)]
    rfl
  have hself := m.read_write_self p (ofFn (sha256 stack (m.read a n)))
  rw [length_ofFn] at hself
  rw [hself, m.read_write_of_le _ h, heq]
  exact ((absorbed_init stack).update _).final

/-- **The hash that is registered.** If there is room for what the header asks for, then the page
that `nro_load` hands to `ro_load_nrr` has the digest of the program that is in memory by then. -/
theorem nrr_digest (a : NroAnswers) (stack : Mem Byte) {s : NroState} {loadBase : BitVec 64}
    {inSize : BitVec 32} {h : NroHeader} (hv : h.Valid inSize)
    (hneeds : (h.needs : Int) ≤ s.heap.left loadBase) :
    ∃ t, nroPrepare { a with sha256 := sha256 stack } loadBase h s = .ok () t ∧
      IsDigest (t.mem.read loadBase.toNat h.nroSize.toNat)
        (t.mem.read (h.nrr loadBase + 0x350).toNat 32) := by
  have hsize := hv.bounds.2
  have hbehind : loadBase.toNat + h.nroSize.toNat ≤ (h.nrr loadBase + 0x350).toNat := by
    have hfits := s.heap.fits
    unfold HeapBlock.left NroHeader.needs at hneeds
    unfold NroHeader.nrr
    simp only [BitVec.toNat_add, hv.toNat_signExtend, BitVec.toNat_setWidth,
      show (0x350 : BitVec 64).toNat = 0x350 from rfl]
    omega
  unfold nroPrepare
  simp only [storeBytes_bind_run]
  generalize h.nrr loadBase + 0x350 = p at *
  generalize NroState.mk _ _ _ _ _ _ _ _ = s'
  exact ⟨_, rfl, isDigest_stored stack s'.mem (by omega) hbehind⟩

theorem storedNro_digest : ∃ t,
    nroPrepare { (executing resultOk).answers with sha256 := sha256 fun _ => 0 } 0x10000000
      ⟨0x1000, 0x2000, nroMagic⟩ (storedNro 0x2000) = .ok () t ∧
    IsDigest (t.mem.read 0x10000000 0x1000) (t.mem.read 0x10003350 32) := by
  have hvalid : NroHeader.Valid ⟨0x1000, 0x2000, nroMagic⟩ 0x1000 :=
    ⟨by decide, rfl, rfl, by decide⟩
  exact nrr_digest _ _ hvalid (by decide)

end LibTransistor
