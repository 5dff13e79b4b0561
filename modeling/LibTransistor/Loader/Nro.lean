import LibTransistor.Lib.Bytes
import LibTransistor.Results
import Mathlib.Tactic.Push

/-!
# Loading and running an NRO

`nro_load`, `nro_start`, `nro_unload` and `nro_execute` in `projects/ace_loader/nro.c`. A program
has been stored in the heap. The loader puts a page with its hash (the NRR) behind it, has the two
registered by the `ro` service, runs the program and has it unloaded again. What the service and the
kernel answer is given with each call, as `NroAnswers`.

The sizes of the program, of its `bss` and of the page are added in 32 bits and compared with what
is left of the heap in 64, so the check is exact up to a wrap (`nro_sizes_sound_iff`).
-/

namespace LibTransistor

open Fallible

/-! ## `nro.c` -/

def nrrSize : BitVec 32 := 0x1000

def nroMagic : BitVec 32 := 0x304f524e

/-- `heap_base` and `heap_size`: a part of the address space. -/
structure HeapBlock where
  base : BitVec 64
  size : BitVec 64
  fits : base.toNat + size.toNat ≤ 2 ^ 64

/-- What the loader does to memory, and its calls to the `ro` service with what they return. -/
inductive NroEvent
  | stored (addr : BitVec 64) (size : Nat)
  | hashed (addr : BitVec 64) (size : Nat)
  | loadNrr (nrr : BitVec 64) (size : Nat) (r : ResultT)
  | loadNro (nroBase loadBase nroSize bss bssSize : BitVec 64) (r : ResultT)
  | unloadNrr (nrr : BitVec 64) (r : ResultT)
  | unloadNro (nroBase loadBase : BitVec 64) (r : ResultT)
  deriving DecidableEq

structure NroState where
  mem : Mem Byte
  heap : HeapBlock
  loadCount : Int
  unloadFail : Int
  loadedCount : Int
  nroBase : BitVec 64
  nroLoadBase : BitVec 64
  /-- What has been done, the latest last. -/
  events : List NroEvent

/-- What the functions that are called return. -/
structure NroAnswers where
  sha256 : List Byte → Fin 32 → Byte
  loadNrr : ResultT
  loadNro : ResultT
  /-- The base address that `ro_load_nro` stores if it succeeds. -/
  nroBase : BitVec 64
  unloadNrr : ResultT
  makeBlock : BitVec 32
  /-- The return value of the program, and the memory it leaves. -/
  entry : BitVec 64
  memory : Mem Byte
  destroyBlock : BitVec 32
  unloadNro : ResultT
  /-- The block that `mem_get_heap` finds, if it does. -/
  getHeap : Option HeapBlock

/-- Why a function does not come to its end. -/
inductive NroStop
  | result (r : ResultT)
  /-- `exit_loader` does not return. -/
  | exited
  deriving DecidableEq

abbrev NroM := EStateM NroStop NroState

/-- Something has been done. -/
def recordNro (e : NroEvent) : NroM Unit := modify fun s => { s with events := s.events ++ [e] }

/-- `if(r) return r;`. -/
def checkResult (r : ResultT) : NroM Unit := failIf (r ≠ resultOk) (.result r)

def storeBytes (addr : BitVec 64) (bytes : List Byte) : NroM Unit := do
  modify fun s => { s with mem := s.mem.write addr.toNat bytes }
  recordNro (.stored addr bytes.length)

variable (a : NroAnswers)

/-- `sha256_init`, `sha256_update` and the value that `sha256_final` stores. -/
def hashBytes (addr : BitVec 64) (size : Nat) : NroM (List Byte) := do
  let s ← get
  recordNro (.hashed addr size)
  return List.ofFn (a.sha256 (s.mem.read addr.toNat size))

/-- The words of the header that are looked at. -/
structure NroHeader where
  nroSize : BitVec 32
  bssSize : BitVec 32
  nroId : BitVec 32
  deriving DecidableEq

def nroHeaderAt (mem : Mem Byte) (loadBase : BitVec 64) : NroHeader where
  nroSize := wordAt mem (loadBase + 0x18).toNat
  bssSize := wordAt mem (loadBase + 0x38).toNat
  nroId := wordAt mem (loadBase + 0x10).toNat

def NroState.header (s : NroState) (loadBase : BitVec 64) : NroHeader := nroHeaderAt s.mem loadBase

/-- `nrru32`, behind the program and its `bss`. -/
def NroHeader.nrr (h : NroHeader) (loadBase : BitVec 64) : BitVec 64 :=
  loadBase + h.nroSize.signExtend 64 + h.bssSize.setWidth 64

variable (loadBase : BitVec 64)

/-- `nro_load` up to its two checks. -/
def nroCheck (inSize : BitVec 32) : NroM NroHeader := do
  let s ← get
  let freeSize := s.heap.size - (loadBase - s.heap.base)
  let h := s.header loadBase
  failIf (inSize.slt 0x1000 ∨ h.nroId ≠ nroMagic ∨ h.nroSize ≠ inSize ∨
    h.nroSize &&& 0xFFF ≠ 0) (.result 1)
  failIf ((h.nroSize + h.bssSize + nrrSize).setWidth 64 > freeSize) (.result 2)
  return h

/-- Its preparation of the NRR. -/
def nroPrepare (h : NroHeader) : NroM Unit := do
  let nrru32 := h.nrr loadBase
  storeBytes nrru32 (le32 0x3052524E)
  storeBytes (nrru32 + 0x338) (le32 nrrSize)
  storeBytes (nrru32 + 0x340) (le32 0x350)
  storeBytes (nrru32 + 0x344) (le32 0x1)
  let digest ← hashBytes a loadBase h.nroSize.toNat
  storeBytes (nrru32 + 0x350) digest

/-- Its calls to the `ro` service. -/
def nroRegister (h : NroHeader) : NroM Unit := do
  let nrru32 := h.nrr loadBase
  let bss := loadBase + h.nroSize.signExtend 64
  recordNro (.loadNrr nrru32 nrrSize.toNat a.loadNrr)
  checkResult a.loadNrr
  storeBytes bss (List.replicate h.bssSize.toNat 0)
  recordNro (.loadNro a.nroBase loadBase (h.nroSize.signExtend 64) bss (h.bssSize.setWidth 64)
    a.loadNro)
  checkResult a.loadNro
  modify fun s => { s with
    nroBase := a.nroBase
    loadCount := s.loadCount + 1
    loadedCount := s.loadedCount + 1
    nroLoadBase := loadBase }
  recordNro (.unloadNrr nrru32 a.unloadNrr)
  checkResult a.unloadNrr

def nroLoad (inSize : BitVec 32) : NroM Unit := do
  let h ← nroCheck loadBase inSize
  nroPrepare a loadBase h
  nroRegister a loadBase h

/-- The configuration that is written for the program is left out here. -/
def nroStart : NroM (BitVec 64) :=
  if a.makeBlock ≠ 0 then return -1
  else do
    modify fun s => { s with mem := a.memory }
    failIf (a.destroyBlock ≠ 0) .exited
    return a.entry

/-- `mem_get_heap`; the loader cannot go on without a heap. -/
def rescanHeap : Option HeapBlock → NroM Unit
  | none => throw .exited
  | some heap => modify fun s => { s with heap := heap }

def nroUnload : NroM ResultT := do
  let s ← get
  recordNro (.unloadNro s.nroBase s.nroLoadBase a.unloadNro)
  modify fun s =>
    if a.unloadNro ≠ resultOk then { s with unloadFail := s.unloadFail + 1 }
    else { s with loadedCount := s.loadedCount - 1 }
  rescanHeap a.getHeap
  return a.unloadNro

/-- What follows a successful load. -/
def nroRun : NroM (BitVec 64) := do
  let ret ← nroStart a
  let _ ← nroUnload a
  return ret

def nroExecute (a : NroAnswers) (loadBase : BitVec 64) (inSize : BitVec 32) :
    NroM (BitVec 64) := fun s =>
  match nroLoad a loadBase inSize s with
  | .ok () t => nroRun a t
  | .error (.result r) t => .ok (r.setWidth 64) t
  | .error .exited t => .error .exited t

/-! ## The checks -/

/-- The first check of `nro_load` is passed. -/
structure NroHeader.Valid (h : NroHeader) (inSize : BitVec 32) : Prop where
  size : inSize.slt 0x1000 = false
  magic : h.nroId = nroMagic
  same : h.nroSize = inSize
  aligned : h.nroSize &&& 0xFFF = 0

/-- What the program, its `bss` and the NRR take. -/
def NroHeader.needs (h : NroHeader) : Nat := h.nroSize.toNat + h.bssSize.toNat + 0x1000

namespace HeapBlock

variable (b : HeapBlock) (addr : BitVec 64)

/-- What is left of the heap from an address on. -/
def left : Int := b.size.toNat - ((addr.toNat : Int) - b.base.toNat)

/-- The address is one of the heap, or its end. -/
def Reaches : Prop :=
  b.base.toNat ≤ addr.toNat ∧ addr.toNat ≤ b.base.toNat + b.size.toNat

/-- `n` bytes from an address on are in the heap. -/
def Contains (n : Nat) : Prop :=
  b.base.toNat ≤ addr.toNat ∧ addr.toNat + n ≤ b.base.toNat + b.size.toNat

theorem toNat_free : ((b.size - (addr - b.base)).toNat : Int) = b.left addr % 2 ^ 64 := by
  unfold left
  rw [BitVec.toNat_sub, BitVec.toNat_sub]
  omega

end HeapBlock

section Check

variable {s t : NroState} {loadBase : BitVec 64} {inSize : BitVec 32} {h : NroHeader}

theorem NroHeader.Valid.bounds (hv : h.Valid inSize) :
    0x1000 ≤ h.nroSize.toNat ∧ h.nroSize.toNat < 2 ^ 31 := by
  have hsize := hv.size
  rw [← hv.same, BitVec.slt_eq_decide, decide_eq_false_iff_not, BitVec.toInt_eq_toNat_cond,
    show (0x1000 : BitVec 32).toInt = 0x1000 from rfl] at hsize
  split_ifs at hsize <;> omega

theorem NroHeader.Valid.toNat_signExtend (hv : h.Valid inSize) :
    (h.nroSize.signExtend 64).toNat = h.nroSize.toNat := by
  have hlt := hv.bounds.2
  have hmsb : h.nroSize.msb = false := BitVec.msb_eq_false_iff_two_mul_lt.2 (by omega)
  rw [BitVec.signExtend_eq_setWidth_of_msb_false hmsb, BitVec.toNat_setWidth,
    Nat.mod_eq_of_lt (by omega)]

theorem NroHeader.toNat_sum (h : NroHeader) :
    ((h.nroSize + h.bssSize + nrrSize).setWidth 64).toNat = h.needs % 2 ^ 32 := by
  rw [BitVec.toNat_setWidth, BitVec.toNat_add, BitVec.toNat_add,
    show nrrSize.toNat = 0x1000 from rfl]
  unfold needs
  omega

/-- The checks are passed: the header is valid and the sum, in 32 bits, is at most what is left, in
64. -/
def NroState.Accepts (s : NroState) (loadBase : BitVec 64) (inSize : BitVec 32) : Prop :=
  (s.header loadBase).Valid inSize ∧
    (((s.header loadBase).needs % 2 ^ 32 : Nat) : Int) ≤ s.heap.left loadBase % 2 ^ 64

theorem nroCheck_eq_ok : nroCheck loadBase inSize s = .ok h t ↔
    s.Accepts loadBase inSize ∧ h = s.header loadBase ∧ t = s := by
  have hvalid : ¬ (inSize.slt 0x1000 ∨ (s.header loadBase).nroId ≠ nroMagic ∨
      (s.header loadBase).nroSize ≠ inSize ∨ (s.header loadBase).nroSize &&& 0xFFF ≠ 0) ↔
      (s.header loadBase).Valid inSize := by
    push Not
    rw [ne_eq, Bool.not_eq_true]
    exact ⟨fun ⟨h₁, h₂, h₃, h₄⟩ => ⟨h₁, h₂, h₃, h₄⟩, fun h => ⟨h.1, h.2, h.3, h.4⟩⟩
  have hfree : ¬ (((s.header loadBase).nroSize + (s.header loadBase).bssSize + nrrSize).setWidth 64 >
      s.heap.size - (loadBase - s.heap.base)) ↔
      (((s.header loadBase).needs % 2 ^ 32 : Nat) : Int) ≤ s.heap.left loadBase % 2 ^ 64 := by
    rw [← HeapBlock.toNat_free, gt_iff_lt, BitVec.lt_def, NroHeader.toNat_sum]
    omega
  unfold nroCheck NroState.Accepts
  rw [get_bind_run, failIf_bind_eq_ok, failIf_bind_eq_ok, hvalid, hfree, pure_eq_ok, and_assoc]

/-- **What the check is for.** What is needed is at most what is left, so that the NRR, the `bss` and
the program are in the heap. -/
def NroSizesSound (s : NroState) (loadBase : BitVec 64) (inSize : BitVec 32) : Prop :=
  ∀ h t, nroCheck loadBase inSize s = .ok h t →
    (h.needs : Int) ≤ s.heap.left loadBase ∧
    s.heap.Contains (h.nrr loadBase) 0x1000 ∧
    s.heap.Contains (loadBase + h.nroSize.signExtend 64) h.bssSize.toNat ∧
    s.heap.Contains loadBase h.nroSize.toNat

theorem NroHeader.Valid.contains_iff (hv : h.Valid inSize) (b : HeapBlock) :
    ((h.needs : Int) ≤ b.left loadBase ∧ b.Contains (h.nrr loadBase) 0x1000 ∧
      b.Contains (loadBase + h.nroSize.signExtend 64) h.bssSize.toNat ∧
      b.Contains loadBase h.nroSize.toNat) ↔
    b.base.toNat ≤ loadBase.toNat ∧ (h.needs : Int) ≤ b.left loadBase := by
  constructor
  · rintro ⟨hneeds, -, -, himage⟩
    exact ⟨himage.1, hneeds⟩
  · rintro ⟨hbase, hneeds⟩
    refine ⟨hneeds, ?_⟩
    have hfits := b.fits
    unfold HeapBlock.left needs at hneeds
    have hbss : (loadBase + h.nroSize.signExtend 64).toNat = loadBase.toNat + h.nroSize.toNat := by
      rw [BitVec.toNat_add, hv.toNat_signExtend, Nat.mod_eq_of_lt (by omega)]
    have hnrr : (h.nrr loadBase).toNat =
        loadBase.toNat + h.nroSize.toNat + h.bssSize.toNat := by
      unfold nrr
      rw [BitVec.toNat_add, hbss, BitVec.toNat_setWidth, Nat.mod_eq_of_lt
        (by omega), Nat.mod_eq_of_lt (by omega)]
    unfold HeapBlock.Contains
    omega

/-- The condition on the sizes. Where the program lies in the heap the sum must not wrap in such a way
that it is accepted although there is too little left; elsewhere it has to be refused. -/
def NroHeader.Checked (h : NroHeader) (b : HeapBlock) (loadBase : BitVec 64) : Prop :=
  (b.Reaches loadBase → h.needs < 2 ^ 32 ∨ b.left loadBase + 2 ^ 32 < h.needs ∨
    h.needs ≤ b.left loadBase) ∧
  (¬ b.Reaches loadBase → b.left loadBase % 2 ^ 64 < (h.needs % 2 ^ 32 : Nat))

theorem NroHeader.Valid.checked_iff (hv : h.Valid inSize) (b : HeapBlock) :
    ((((h.needs % 2 ^ 32 : Nat) : Int) ≤ b.left loadBase % 2 ^ 64 →
      b.base.toNat ≤ loadBase.toNat ∧ (h.needs : Int) ≤ b.left loadBase) ↔
      h.Checked b loadBase) := by
  have hbounds := hv.bounds
  have hneeds : h.needs < 2 ^ 33 := by
    unfold needs
    omega
  by_cases hreach : b.Reaches loadBase
  · have hleft : b.left loadBase % 2 ^ 64 = b.left loadBase := by
      unfold HeapBlock.Reaches at hreach
      unfold HeapBlock.left
      omega
    unfold Checked
    rw [and_iff_left (fun h => absurd hreach h), forall_prop_of_true hreach]
    have hbase := hreach.1
    omega
  · have hout : ¬ (b.base.toNat ≤ loadBase.toNat ∧ (h.needs : Int) ≤ b.left loadBase) := by
      rintro ⟨hbase, hle⟩
      refine hreach ⟨hbase, ?_⟩
      unfold HeapBlock.left at hle
      omega
    unfold Checked
    rw [and_iff_right (fun h => absurd h hreach), forall_prop_of_true hreach]
    refine ⟨fun hp => ?_, fun hlt hle => ?_⟩
    · exact Int.not_le.1 fun hle => hout (hp hle)
    · omega

end Check

/-- **The size check is exact up to a wrap.** For every state of the memory, every heap, every load
address and every size the check is sound exactly if the header is refused at once, or the sum of the
sizes does not wrap to one that is accepted. -/
theorem nro_sizes_sound_iff (s : NroState) (loadBase : BitVec 64) (inSize : BitVec 32) :
    NroSizesSound s loadBase inSize ↔
      ((s.header loadBase).Valid inSize → (s.header loadBase).Checked s.heap loadBase) := by
  constructor
  · intro hsound hv
    refine (hv.checked_iff s.heap).1 fun hle => ?_
    exact (hv.contains_iff s.heap).1 (hsound _ s (nroCheck_eq_ok.2 ⟨⟨hv, hle⟩, rfl, rfl⟩))
  · intro hchecked h t hrun
    obtain ⟨⟨hv, hle⟩, rfl, -⟩ := nroCheck_eq_ok.1 hrun
    exact (hv.contains_iff s.heap).2 ((hv.checked_iff s.heap).2 (hchecked hv) hle)

/-- A heap of 2 MiB. -/
def smallHeap : HeapBlock := ⟨0x10000000, 0x200000, by decide⟩

/-- A program with `bssSize` bytes of `bss` at the start of it, and nothing loaded yet. -/
def storedNro (bssSize : BitVec 32) : NroState where
  mem := ((Mem.write (fun _ => 0) 0x10000010 (le32 nroMagic)).write 0x10000018
    (le32 0x1000)).write 0x10000038 (le32 bssSize)
  heap := smallHeap
  loadCount := 0
  unloadFail := 0
  loadedCount := 0
  nroBase := 0
  nroLoadBase := 0
  events := []

theorem smallBss_sound : NroSizesSound (storedNro 0x2000) 0x10000000 0x1000 := by
  refine (nro_sizes_sound_iff _ _ _).2 fun _ => ⟨fun _ => .inl (by decide), fun h => ?_⟩
  exact absurd (by unfold HeapBlock.Reaches; decide) h

/-- With `bss` of almost 4 GiB the sum is 0x1000 in 32 bits. -/
theorem hugeBss_unsound : ¬ NroSizesSound (storedNro 0xFFFFF000) 0x10000000 0x1000 := by
  intro hsound
  have hheader : (storedNro 0xFFFFF000).header 0x10000000 = ⟨0x1000, 0xFFFFF000, nroMagic⟩ := by
    decide
  have hpassed : nroCheck 0x10000000 0x1000 (storedNro 0xFFFFF000) =
      .ok ⟨0x1000, 0xFFFFF000, nroMagic⟩ (storedNro 0xFFFFF000) := by
    refine nroCheck_eq_ok.2 ⟨⟨?_, ?_⟩, hheader.symm, rfl⟩
    · constructor <;> decide
    · decide
  exact absurd (hsound _ _ hpassed).1 (by decide)

end LibTransistor
