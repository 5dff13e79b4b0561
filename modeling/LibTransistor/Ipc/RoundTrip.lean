import LibTransistor.Ipc.Layout
import LibTransistor.Lib.Bits
import Mathlib.Tactic.IntervalCases

/-!
# Unpacking what was packed

`ipc_unpack` reads the counts out of four-bit fields and walks the buffer by them. The packer lets
up to 16 descriptors of a kind through, and its size field spills into its neighbours when the data
section is long, so the two agree only on messages that fit the wire format (`FitsWire`,
`recovered_iff_fitsWire`).
-/

namespace LibTransistor

open Fallible Cursor Bits List

/-! ## The header fields -/

theorem toNat_header0 (t : BitVec 16) {nx na nb : Nat} (hx : nx ≤ 16) (ha : na ≤ 16)
    (hb : nb ≤ 16) :
    (header0 t nx na nb).toNat = t.toNat ||| nx <<< 16 ||| na <<< 20 ||| nb <<< 24 := by
  unfold header0
  simp only [BitVec.toNat_or, BitVec.toNat_setWidth_of_le (show 16 ≤ 32 by decide),
    toNat_ofNat_shiftLeft (w := 32) (n := nx) (k := 16) (by omega),
    toNat_ofNat_shiftLeft (w := 32) (n := na) (k := 20) (by omega),
    toNat_ofNat_shiftLeft (w := 32) (n := nb) (k := 24) (by omega)]
  simp

section Header0

variable (t : BitVec 16) {nx na nb : Nat} (hx : nx ≤ 16) (ha : na ≤ 16) (hb : nb ≤ 16)
include hx ha hb

theorem header0_type : (header0 t nx na nb).setWidth 16 = t := by
  apply BitVec.eq_of_toNat_eq
  rw [BitVec.toNat_setWidth, toNat_header0 t hx ha hb, ← field_at_zero,
    field_or_above _ _ (by decide), field_or_above _ _ (by decide), field_or_above _ _ (by decide),
    field_at_zero_of_lt t.isLt]

theorem header0_numX : ((header0 t nx na nb >>> 16) &&& 0xF#32).toNat = nx % 16 := by
  rw [toNat_shiftRight_and _ _ 16 4 rfl, toNat_header0 t hx ha hb, field_or_above _ _ (by decide),
    field_or_above _ _ (by decide), field_or_at _ _ t.isLt]
  rfl

theorem header0_numA (hx' : nx < 16) :
    ((header0 t nx na nb >>> 20) &&& 0xF#32).toNat = na % 16 := by
  rw [toNat_shiftRight_and _ _ 20 4 rfl, toNat_header0 t hx ha hb, field_or_above _ _ (by decide),
    field_or_at _ _ (Nat.or_lt_two_pow (by omega) (by omega))]
  rfl

theorem header0_numB (ha' : na < 16) :
    ((header0 t nx na nb >>> 24) &&& 0xF#32).toNat = nb % 16 := by
  rw [toNat_shiftRight_and _ _ 24 4 rfl, toNat_header0 t hx ha hb, field_or_at _ _
    (Nat.or_lt_two_pow (Nat.or_lt_two_pow (by omega) (by omega)) (by omega))]
  rfl

theorem header0_numW (hb' : nb < 16) : ((header0 t nx na nb >>> 28) &&& 0xF#32).toNat = 0 := by
  rw [toNat_shiftRight_and _ _ 28 4 rfl, toNat_header0 t hx ha hb, field_of_lt]
  exact Nat.or_lt_two_pow (Nat.or_lt_two_pow (Nat.or_lt_two_pow (by omega) (by omega)) (by omega))
    (by omega)

end Header0

theorem cDescriptorFlags_lt {nc : Nat} (hc : nc ≤ 16) : cDescriptorFlags nc < 32 := by
  unfold cDescriptorFlags
  split_ifs <;> omega

section Header1

variable {nc size : Nat} (en : Bool) (hc : nc ≤ 16) (hs : size < 2 ^ 31)
include hc hs

theorem toNat_header1 :
    (header1 nc en ||| BitVec.ofNat 32 size).toNat =
      cDescriptorFlags nc <<< 10 ||| en.toNat <<< 31 ||| size := by
  have hf := cDescriptorFlags_lt hc
  have hen : ((if en then 1#32 else 0#32) <<< 31).toNat = en.toNat <<< 31 := by
    cases en <;> rfl
  unfold header1
  rw [BitVec.zero_or, BitVec.toNat_or, BitVec.toNat_or, toNat_ofNat_shiftLeft (by omega), hen,
    BitVec.toNat_ofNat, Nat.mod_eq_of_lt (by omega)]

theorem header1_size :
    ((header1 nc en ||| BitVec.ofNat 32 size) &&& 0b1111111111#32).toNat = size % 1024 := by
  rw [toNat_and_mask _ _ 10 rfl, toNat_header1 en hc hs, field_or, field_or,
    field_shiftLeft_above _ (by decide), field_shiftLeft_above _ (by decide), field_at_zero]
  simp

theorem header1_flags :
    (((header1 nc en ||| BitVec.ofNat 32 size) >>> 10) &&& 0xF#32).toNat =
      cDescriptorFlags nc % 16 ||| field size 10 4 := by
  rw [toNat_shiftRight_and _ _ 10 4 rfl, toNat_header1 en hc hs, field_or, field_or,
    field_shiftLeft _ _ (by decide), field_shiftLeft_above _ (by decide), field_at_zero]
  simp

theorem header1_hasHandles :
    ((header1 nc en ||| BitVec.ofNat 32 size) >>> 31 ≠ 0#32) ↔ en = true := by
  have hf := cDescriptorFlags_lt hc
  have key : ((header1 nc en ||| BitVec.ofNat 32 size) >>> 31).toNat = en.toNat := by
    rw [BitVec.toNat_ushiftRight, toNat_header1 en hc hs, Nat.shiftRight_or_distrib,
      Nat.shiftRight_or_distrib, Nat.shiftRight_eq_div_pow size, Nat.div_eq_of_lt hs,
      Nat.shiftRight_eq_div_pow (cDescriptorFlags nc <<< 10), Nat.div_eq_of_lt (by omega)]
    simp
  rw [ne_eq, ← BitVec.toNat_inj, key]
  cases en <;> simp

end Header1

/-! ## The handle descriptor -/

section HandleDescriptor

variable {msg : PackMessage} (hc : msg.copyHandles.length < 16) (hm : msg.moveHandles.length < 16)
include hc hm

theorem toNat_handleDescriptor :
    (handleDescriptor msg).toNat =
      msg.sendPid.toNat ||| msg.copyHandles.length <<< 1 ||| msg.moveHandles.length <<< 5 := by
  have hpid : (if msg.sendPid then 1#32 else 0#32).toNat = msg.sendPid.toNat := by
    cases msg.sendPid <;> rfl
  unfold handleDescriptor
  rw [BitVec.toNat_or, BitVec.toNat_or, hpid, toNat_ofNat_shiftLeft (by omega),
    toNat_ofNat_shiftLeft (by omega)]

theorem handleDescriptor_pid : (handleDescriptor msg &&& 1#32 ≠ 0#32) ↔ msg.sendPid = true := by
  have key : (handleDescriptor msg &&& 1#32).toNat = msg.sendPid.toNat := by
    rw [toNat_and_mask _ _ 1 rfl, toNat_handleDescriptor hc hm, field_or_above _ _ (by decide),
      field_or_above _ _ (by decide), field_at_zero_of_lt (Bool.toNat_lt _)]
  rw [ne_eq, ← BitVec.toNat_inj, key]
  cases msg.sendPid <;> simp

theorem handleDescriptor_copy :
    ((handleDescriptor msg >>> 1) &&& 0xF#32).toNat = msg.copyHandles.length := by
  rw [toNat_shiftRight_and _ _ 1 4 rfl, toNat_handleDescriptor hc hm,
    field_or_above _ _ (by decide), field_or_at _ _ (Bool.toNat_lt _)]
  exact Nat.mod_eq_of_lt hc

theorem handleDescriptor_move :
    ((handleDescriptor msg >>> 5) &&& 0xF#32).toNat = msg.moveHandles.length := by
  have hp := Bool.toNat_lt msg.sendPid
  rw [toNat_shiftRight_and _ _ 5 4 rfl, toNat_handleDescriptor hc hm,
    field_or_at _ _ (Nat.or_lt_two_pow (by omega) (by omega))]
  exact Nat.mod_eq_of_lt hm

end HandleDescriptor

/-! ## Reading the layout back -/

namespace PackMessage

variable (msg : PackMessage) (m b : Mem Word)

/-- A buffer that starts with the words of the message, as packed over `m`. -/
def Holds : Prop := b.read 0 (msg.layout m).length = msg.layout m

/-- The two header words. -/
def headers : List Word :=
  [header0 msg.messageType msg.numX msg.numA msg.numB,
    header1 msg.numC msg.handleDescriptorEnabled ||| BitVec.ofNat 32 msg.sectionSize]

theorem holds_write : msg.Holds m (m.write 0 (msg.layout m)) := m.read_write_self 0 _

namespace Holds

variable {msg m b} (hb : msg.Holds m b)
include hb

theorem read_mid (us ws vs : List Word) (h : msg.layout m = us ++ ws ++ vs) {p n : Nat}
    (hp : us.length = p) (hn : ws.length = n) : b.read p n = ws := by
  subst hp hn
  refine Mem.read_mid us ws vs ?_
  rw [← h]
  exact hb

theorem cell {i : Nat} {w : Word} (hi : (msg.layout m)[i]? = some w) : b i = w := by
  rw [← Nat.zero_add i]
  exact Mem.eq_of_getElem? hb hi

theorem zero : b 0 = header0 msg.messageType msg.numX msg.numA msg.numB := hb.cell rfl

theorem one :
    b 1 = header1 msg.numC msg.handleDescriptorEnabled ||| BitVec.ofNat 32 msg.sectionSize :=
  hb.cell rfl

theorem read_x : b.read msg.xAt (2 * msg.numX) = xWords 0 (msg.descriptors .x) := by
  refine hb.read_mid (msg.headers ++ msg.handleWords m) _
    (abWords (msg.descriptors .a) ++ abWords (msg.descriptors .b) ++ msg.back m) ?_ ?_ ?_
  · simp [layout, middle, headers]
  · simp [xAt, headers]; omega
  · simp [numX]

theorem read_ab :
    b.read msg.aAt (3 * (msg.numA + msg.numB)) =
      abWords (msg.descriptors .a ++ msg.descriptors .b) := by
  refine hb.read_mid (msg.headers ++ msg.handleWords m ++ xWords 0 (msg.descriptors .x)) _
    (msg.back m) ?_ ?_ ?_
  · simp [layout, middle, headers, abWords]
  · simp [aAt, xAt, headers, numX]; omega
  · simp [numA, numB]

theorem read_data : b.read msg.dataAt msg.dataSection.length = msg.dataSection := by
  obtain ⟨hle, -⟩ := alignHead_le msg.rawDataStart
  have hlen := msg.length_middle m
  refine hb.read_mid (msg.headers ++ msg.middle m ++
    m.read msg.rawDataStart (msg.dataAt - msg.rawDataStart)) _
    (m.read (msg.dataAt + msg.dataSection.length) (4 - (msg.dataAt - msg.rawDataStart)) ++
      lengthWords m msg.lengthsAt (lengths (msg.descriptors .c)) ++ cWords (msg.descriptors .c))
    ?_ ?_ rfl
  · simp [layout, headers, back]
  · simp only [headers, length_append, length_cons, length_nil, Mem.length_read,
      dataAt]
    omega

theorem read_c : b.read msg.cAt (2 * msg.numC) = cWords (msg.descriptors .c) := by
  obtain ⟨hle, hlt⟩ := alignHead_le msg.rawDataStart
  have hlen := msg.length_middle m
  refine hb.read_mid (msg.headers ++ msg.middle m ++
    m.read msg.rawDataStart (msg.dataAt - msg.rawDataStart) ++ msg.dataSection ++
    m.read (msg.dataAt + msg.dataSection.length) (4 - (msg.dataAt - msg.rawDataStart)) ++
      lengthWords m msg.lengthsAt (lengths (msg.descriptors .c))) _ [] ?_ ?_ ?_
  · simp [layout, headers, back]
  · simp only [headers, length_append, length_cons, length_nil, Mem.length_read,
      length_lengthWords, lengths, length_map, dataAt, cAt, sectionSize, lengthListSize]
    omega
  · simp [numC]

theorem read_handles (he : msg.handleDescriptorEnabled = true) :
    b.read (3 + if msg.sendPid then 2 else 0)
      (msg.copyHandles.length + msg.moveHandles.length) =
      msg.copyHandles ++ msg.moveHandles := by
  refine hb.read_mid (msg.headers ++
    handleDescriptor msg :: m.read 3 (if msg.sendPid then 2 else 0)) _
    (xWords 0 (msg.descriptors .x) ++ abWords (msg.descriptors .a) ++
      abWords (msg.descriptors .b) ++ msg.back m) ?_ ?_ ?_
  · simp [layout, middle, headers, handleWords, he]
  · simp [headers]; omega
  · simp

theorem two (he : msg.handleDescriptorEnabled = true) : b 2 = handleDescriptor msg := by
  refine hb.cell ?_
  simp [layout, middle, handleWords, he]

theorem pid (he : msg.handleDescriptorEnabled = true) (hp : msg.sendPid = true) :
    b 3 = m 3 ∧ b 4 = m 4 := by
  constructor <;> refine hb.cell ?_ <;>
    simp [layout, middle, handleWords, he, hp, Mem.read, range_succ]

end Holds

end PackMessage

variable {msg : PackMessage}

theorem handleDescriptorEnabled_eq_false (he : ¬ msg.handleDescriptorEnabled = true) :
    msg.copyHandles = [] ∧ msg.moveHandles = [] ∧ msg.sendPid = false := by
  simpa [PackMessage.handleDescriptorEnabled, and_assoc] using he

/-- The handle section of a packed message, unpacked. -/
structure HandlesUnpacked (msg : PackMessage) (m b : Mem Word) (hs : HandleSection) : Prop where
  hasPid : hs.hasPid = msg.sendPid
  pid : msg.sendPid = true → hs.pid = m 4 ++ m 3
  numCopy : hs.numCopyHandles = msg.copyHandles.length
  numMove : hs.numMoveHandles = msg.moveHandles.length
  copy : b.read (hs.copyHandles.getD 0) msg.copyHandles.length = msg.copyHandles
  move : b.read (hs.moveHandles.getD 0) msg.moveHandles.length = msg.moveHandles
  h : hs.h = msg.xAt

variable {m b : Mem Word}

theorem unpackHandles_of_holds (hb : msg.Holds m b)
    (hc : msg.copyHandles.length < 16) (hm : msg.moveHandles.length < 16) :
    HandlesUnpacked msg m b (unpackHandles b msg.handleDescriptorEnabled 2) := by
  by_cases he : msg.handleDescriptorEnabled = true
  · have hpid := handleDescriptor_pid hc hm
    have hread := hb.read_handles he
    rw [Mem.read_add] at hread
    obtain ⟨hcopy, hmove⟩ := append_inj hread (by simp)
    have hpos : (if msg.sendPid = true then 2 + 1 + 2 else 2 + 1) =
        3 + if msg.sendPid = true then 2 else 0 := by split_ifs <;> rfl
    simp only [unpackHandles, he, hb.two he, hpid, handleDescriptor_copy hc hm, handleDescriptor_move hc hm, hpos]
    refine ⟨by simp, fun hp => ?_, rfl, rfl, hcopy, hmove, ?_⟩
    · obtain ⟨h3, h4⟩ := hb.pid he hp
      simp [hp, h3, h4]
    · simp only [PackMessage.xAt, PackMessage.handleSize, he, if_true]
      omega
  · obtain ⟨hcopy, hmove, hp⟩ := handleDescriptorEnabled_eq_false he
    have he' : msg.handleDescriptorEnabled = false := by simpa using he
    simp only [unpackHandles, he']
    refine ⟨hp.symm, fun h => ?_, by simp [hcopy], by simp [hmove], by simp [hcopy],
      by simp [hmove], ?_⟩
    · rw [hp] at h; cases h
    · simp [PackMessage.xAt, PackMessage.handleSize, he']

/-! ## Unpacking a packed message -/

namespace PackMessage

/-- The counts fit their four-bit fields. -/
structure CountsFit (msg : PackMessage) : Prop where
  x : msg.numX < 16
  a : msg.numA < 16
  b : msg.numB < 16

/-- What `ipc_unpack` gives for a packed message whose counts fit. The section size is cut to ten
bits, and what is cut off lands on the C descriptor flags. -/
structure Unpacked (msg : PackMessage) (m b : Mem Word) (u : IpcMessage) : Prop where
  buffer : u.buffer = b
  messageType : u.messageType = msg.messageType
  size : u.rawDataSectionSize = msg.sectionSize % 1024
  numX : u.numXDescriptors = msg.numX
  numA : u.numADescriptors = msg.numA
  numB : u.numBDescriptors = msg.numB
  flags : u.cDescriptorFlags =
    cDescriptorFlags msg.numC % 16 ||| field msg.sectionSize 10 4
  x : u.xDescriptors = msg.xAt
  a : u.aDescriptors = msg.aAt
  b : u.bDescriptors = msg.bAt
  c : u.cDescriptors = msg.rawDataStart + msg.sectionSize % 1024
  numCopy : u.numCopyHandles = msg.copyHandles.length
  numMove : u.numMoveHandles = msg.moveHandles.length
  copy : u.copyHandleList = msg.copyHandles
  move : u.moveHandleList = msg.moveHandles
  hasPid : u.hasPid = msg.sendPid
  pid : msg.sendPid = true → u.pid = m 4 ++ m 3
  dataSection : u.dataSection = msg.dataAt

theorem Unpacked.read_copy {buf : Mem Word} {u : IpcMessage} (hu : msg.Unpacked m buf u) :
    u.buffer.read (u.copyHandles.getD 0) msg.copyHandles.length = msg.copyHandles := by
  rw [← hu.numCopy]
  exact hu.copy

theorem Unpacked.read_move {buf : Mem Word} {u : IpcMessage} (hu : msg.Unpacked m buf u) :
    u.buffer.read (u.moveHandles.getD 0) msg.moveHandles.length = msg.moveHandles := by
  rw [← hu.numMove]
  exact hu.move

/-- `h` is an `int`: the data section must not push it past its range. -/
def HeadFits (msg : PackMessage) : Prop := msg.dataSection.length + 256 < 2 ^ 31

theorem sectionSize_lt (ha : msg.Accepted) (hh : msg.HeadFits) : msg.sectionSize < 2 ^ 31 := by
  have hc := ha.count_le .c
  have hl : (listed (msg.descriptors .c)).length ≤ (msg.descriptors .c).length :=
    length_filter_le _ _
  unfold HeadFits at hh
  simp only [sectionSize, lengthListSize]
  omega

end PackMessage

theorem unpack_of_holds (hb : msg.Holds m b) (ha : msg.Accepted) (hh : msg.HeadFits)
    (hf : msg.CountsFit) : msg.Unpacked m b (ipcUnpack b) := by
  have hs := PackMessage.sectionSize_lt ha hh
  have hx : msg.numX ≤ 16 := ha.count_le .x
  have hA : msg.numA ≤ 16 := ha.count_le .a
  have hB : msg.numB ≤ 16 := ha.count_le .b
  have hC : msg.numC ≤ 16 := ha.count_le .c
  have hands := unpackHandles_of_holds hb ha.copy_lt ha.move_lt
  have hen : decide ((header1 msg.numC msg.handleDescriptorEnabled |||
      BitVec.ofNat 32 msg.sectionSize) >>> 31 ≠ 0#32) = msg.handleDescriptorEnabled := by
    rw [Bool.eq_iff_iff, decide_eq_true_eq]
    exact header1_hasHandles _ hC hs
  have hnx := (header0_numX msg.messageType hx hA hB).trans (Nat.mod_eq_of_lt hf.x)
  have hna := (header0_numA msg.messageType hx hA hB hf.x).trans (Nat.mod_eq_of_lt hf.a)
  have hnb := (header0_numB msg.messageType hx hA hB hf.a).trans (Nat.mod_eq_of_lt hf.b)
  have hnw := header0_numW msg.messageType hx hA hB hf.b
  have hsize := header1_size msg.handleDescriptorEnabled hC hs
  have hflags := header1_flags msg.handleDescriptorEnabled hC hs
  have htype := header0_type msg.messageType hx hA hB
  have hbefore : msg.xAt + msg.numX * 2 + msg.numA * 3 + msg.numB * 3 + 0 * 3 =
      msg.rawDataStart := by
    simp only [PackMessage.rawDataStart, PackMessage.bAt, PackMessage.aAt]
    omega
  simp only [ipcUnpack, unpackedMessage, hb.zero, hb.one, hen, hnx, hna, hnb, hnw,
    hsize, hflags, htype, hands.h, hbefore]
  exact {
    buffer := rfl
    messageType := rfl
    size := rfl
    numX := rfl
    numA := rfl
    numB := rfl
    flags := rfl
    x := rfl
    a := by simp only [PackMessage.aAt]; omega
    b := by simp only [PackMessage.bAt, PackMessage.aAt]; omega
    c := rfl
    numCopy := hands.numCopy
    numMove := hands.numMove
    copy := by simp only [IpcMessage.copyHandleList, hands.numCopy, hands.copy]
    move := by simp only [IpcMessage.moveHandleList, hands.numMove, hands.move]
    hasPid := hands.hasPid
    pid := hands.pid
    dataSection := rfl }

/-! ## The round trip -/

/-- Unpacking gives back what was packed: the type, the numbers of descriptors, the PID flag, the
handles in order, the data words, and pointers to the first word of each kind of descriptor that
was written. -/
structure Recovered (msg : PackMessage) (w : Written) (u : IpcMessage) : Prop where
  messageType : u.messageType = msg.messageType
  numX : u.numXDescriptors = (w.descriptors .x).length
  numA : u.numADescriptors = (w.descriptors .a).length
  numB : u.numBDescriptors = (w.descriptors .b).length
  numC : numCDescriptors u.cDescriptorFlags = some (w.descriptors .c).length
  hasPid : u.hasPid = msg.sendPid
  copyHandles : u.copyHandleList = msg.copyHandles
  moveHandles : u.moveHandleList = msg.moveHandles
  data : u.buffer.read u.dataSection msg.dataSection.length = msg.dataSection
  x : w.descriptors .x ≠ [] → u.xDescriptors = w.xAt
  a : w.descriptors .a ≠ [] → u.aDescriptors = w.aAt
  b : w.descriptors .b ≠ [] → u.bDescriptors = w.bAt
  c : w.descriptors .c ≠ [] → u.cDescriptors = w.cAt

/-- The messages the wire format can represent. Four bits hold a count up to 15, and a number of C
descriptors up to 13; ten bits hold the section size. A longer section goes unnoticed only if no C
descriptor depends on its size and the bits above the ten leave the C descriptor flags at zero. -/
structure PackMessage.FitsWire (msg : PackMessage) : Prop where
  counts : msg.CountsFit
  c : msg.numC < 14
  size : msg.sectionSize < 1024 ∨ msg.numC = 0 ∧ msg.sectionSize / 1024 % 16 = 0

theorem numCDescriptors_le {f n : Nat} (hf : f < 16) (h : numCDescriptors f = some n) :
    n < 14 ∧ (n = 0 → f = 0) := by
  unfold numCDescriptors at h
  split_ifs at h with h0 h1 h2 <;> cases h <;> omega

theorem numCDescriptors_flags {n : Nat} (h : n < 14) :
    numCDescriptors (cDescriptorFlags n % 16) = some n := by
  interval_cases n <;> rfl

theorem field_size {s : Nat} : field s 10 4 = s / 1024 % 16 := rfl

theorem fitsWire_of_recovered (hb : msg.Holds m b) (ha : msg.Accepted) (hh : msg.HeadFits)
    (hr : Recovered msg msg.written (ipcUnpack b)) : msg.FitsWire := by
  have hx : msg.numX ≤ 16 := ha.count_le .x
  have hA : msg.numA ≤ 16 := ha.count_le .a
  have hB : msg.numB ≤ 16 := ha.count_le .b
  -- each count is read back modulo 16 once the counts below it are known to fit
  have hnx : msg.numX % 16 = msg.numX := by
    rw [← header0_numX msg.messageType hx hA hB, ← hb.zero]
    exact hr.numX
  have hx' : msg.numX < 16 := by omega
  have hna : msg.numA % 16 = msg.numA := by
    rw [← header0_numA msg.messageType hx hA hB hx', ← hb.zero]
    exact hr.numA
  have ha' : msg.numA < 16 := by omega
  have hnb : msg.numB % 16 = msg.numB := by
    rw [← header0_numB msg.messageType hx hA hB ha', ← hb.zero]
    exact hr.numB
  have hcounts : msg.CountsFit := ⟨hx', ha', by omega⟩
  have hu := unpack_of_holds hb ha hh hcounts
  have hflags : cDescriptorFlags msg.numC % 16 ||| field msg.sectionSize 10 4 < 16 :=
    Nat.or_lt_two_pow (n := 4) (Nat.mod_lt _ (by decide)) (field_lt _ _ _)
  have hnc : numCDescriptors (cDescriptorFlags msg.numC % 16 ||| field msg.sectionSize 10 4) =
      some msg.numC := by
    rw [← hu.flags]
    exact hr.numC
  obtain ⟨hlt, hzero⟩ := numCDescriptors_le hflags hnc
  refine ⟨hcounts, hlt, ?_⟩
  by_cases h0 : msg.numC = 0
  · right
    refine ⟨h0, ?_⟩
    have hz := hzero h0
    rw [Nat.or_eq_zero_iff] at hz
    exact hz.2
  · have hne : msg.descriptors .c ≠ [] := fun hnil => h0 (by simp [PackMessage.numC, hnil])
    have hc := hr.c hne
    rw [hu.c] at hc
    simp only [PackMessage.written, PackMessage.cAt] at hc
    omega

theorem recovered_of_fitsWire (hb : msg.Holds m b) (ha : msg.Accepted) (hh : msg.HeadFits)
    (hf : msg.FitsWire) : Recovered msg msg.written (ipcUnpack b) := by
  have hu := unpack_of_holds hb ha hh hf.counts
  have hover : field msg.sectionSize 10 4 = 0 := by
    rw [field_size]
    rcases hf.size with hs | ⟨-, hs⟩ <;> omega
  refine ⟨hu.messageType, hu.numX, hu.numA, hu.numB, ?_, hu.hasPid, hu.copy, hu.move, ?_,
    fun _ => hu.x, fun _ => hu.a, fun _ => hu.b, fun hne => ?_⟩
  · rw [hu.flags, hover, Nat.or_zero]
    exact numCDescriptors_flags hf.c
  · rw [hu.buffer, hu.dataSection, hb.read_data]
  · have hpos : msg.numC ≠ 0 := fun h0 => hne (eq_nil_of_length_eq_zero h0)
    have hs : msg.sectionSize < 1024 := by
      rcases hf.size with hs | ⟨h0, -⟩
      · exact hs
      · exact absurd h0 hpos
    rw [hu.c, Nat.mod_eq_of_lt hs]
    rfl

/-- What `ipc_unpack` gives for a message with a short data section, as requests and responses
have: there the size loses no bits. -/
structure PackMessage.UnpackedShort (msg : PackMessage) (m buf : Mem Word) (u : IpcMessage) : Prop
    extends msg.Unpacked m buf u where
  sectionSize : u.rawDataSectionSize = msg.sectionSize
  numC : numCDescriptors u.cDescriptorFlags = some msg.numC
  cAt : u.cDescriptors = msg.cAt

theorem PackMessage.sectionSize_lt_of_short (ha : msg.Accepted)
    (hlen : msg.dataSection.length ≤ 144) : msg.sectionSize < 1024 := by
  have hc := ha.count_le .c
  have hl : (listed (msg.descriptors .c)).length ≤ (msg.descriptors .c).length :=
    length_filter_le _ _
  simp only [PackMessage.sectionSize, PackMessage.lengthListSize]
  omega

theorem unpack_short (ha : msg.Accepted) (hb : msg.Holds m b) (hlen : msg.dataSection.length ≤ 144)
    (hf : msg.CountsFit) (hc : msg.numC < 14) : msg.UnpackedShort m b (ipcUnpack b) := by
  have hh : msg.HeadFits := by
    unfold PackMessage.HeadFits
    omega
  have hlt := PackMessage.sectionSize_lt_of_short ha hlen
  have hu := unpack_of_holds hb ha hh hf
  have hrec := recovered_of_fitsWire hb ha hh ⟨hf, hc, .inl hlt⟩
  refine { hu with sectionSize := ?_, numC := hrec.numC, cAt := ?_ }
  · rw [hu.size, Nat.mod_eq_of_lt hlt]
  · rw [hu.c, Nat.mod_eq_of_lt hlt]
    rfl

theorem descriptors_of_buffers_eq_nil (msg : PackMessage) (h : msg.buffers = []) (l : Family) :
    msg.descriptors l = [] := by
  simp [PackMessage.descriptors, descriptorsOf, h]

theorem PackMessage.sectionSize_without_buffers (msg : PackMessage) (h : msg.buffers = []) :
    msg.sectionSize = 4 + msg.dataSection.length := by
  have hno := descriptors_of_buffers_eq_nil msg h .c
  simp [sectionSize, lengthListSize, hno, listed]

theorem unpack_short_without_buffers (ha : msg.Accepted)
    (hb : msg.Holds m b) (hlen : msg.dataSection.length ≤ 144) (hbufs : msg.buffers = []) :
    msg.UnpackedShort m b (ipcUnpack b) := by
  have hno := descriptors_of_buffers_eq_nil msg hbufs
  exact unpack_short ha hb hlen ⟨by simp [PackMessage.numX, hno], by simp [PackMessage.numA, hno],
    by simp [PackMessage.numB, hno]⟩ (by simp [PackMessage.numC, hno])

/-- **Round trip.** A message that was packed is recovered by unpacking exactly when the wire
format can represent it. -/
theorem recovered_iff_fitsWire {msg : PackMessage} {m : Mem Word} {w : Written} {c : Cursor Word}
    (hh : msg.HeadFits) (h : ipcPackMessage msg ⟨m, 0⟩ = .ok w c) :
    Recovered msg w (ipcUnpack c.buffer) ↔ msg.FitsWire := by
  obtain ⟨ha, rfl, rfl⟩ := ipcPackMessage_eq_ok h
  have hb := msg.holds_write m
  exact ⟨fitsWire_of_recovered hb ha hh, recovered_of_fitsWire hb ha hh⟩

/-- A request with one buffer of each plain kind, a PID and three handles. -/
def mixedMessage : PackMessage where
  messageType := 4
  buffers := [⟨0x7123456789, 0x20, 0x9⟩, ⟨0x7123456789, 0x123456789, 0x5⟩, ⟨0x1000, 4, 0x46⟩,
    ⟨0x2000, 8, 0xA⟩]
  copyHandles := [1, 2]
  moveHandles := [3]
  sendPid := true
  dataSection := [10, 11, 12, 13, 14]

theorem mixedMessage_recovered : mixedMessage.HeadFits ∧
    ∃ w c, ipcPackMessage mixedMessage ⟨fun _ => 0, 0⟩ = .ok w c ∧
      Recovered mixedMessage w (ipcUnpack c.buffer) := by
  have hh : mixedMessage.HeadFits := by unfold PackMessage.HeadFits; decide
  obtain ⟨w, c, h⟩ := succeeded_iff.1
    (show succeeded (ipcPackMessage mixedMessage ⟨fun _ => 0, 0⟩) = true by decide)
  exact ⟨hh, w, c, h, (recovered_iff_fitsWire hh h).2
    ⟨⟨by decide, by decide, by decide⟩, by decide, by decide⟩⟩

/-- Sixteen X descriptors, the most the packer lets through. -/
def sixteenX : PackMessage where
  messageType := 4
  buffers := List.replicate 16 ⟨0x1000, 0x10, 0x9⟩
  copyHandles := []
  moveHandles := []
  sendPid := false
  dataSection := [1, 2]

/-- The sixteenth X descriptor makes the count read back as zero. -/
theorem sixteenX_not_recovered :
    ∃ w c, ipcPackMessage sixteenX ⟨fun _ => 0, 0⟩ = .ok w c ∧
      ¬ Recovered sixteenX w (ipcUnpack c.buffer) := by
  obtain ⟨w, c, h⟩ := succeeded_iff.1
    (show succeeded (ipcPackMessage sixteenX ⟨fun _ => 0, 0⟩) = true by decide)
  refine ⟨w, c, h, fun hr => ?_⟩
  obtain ⟨ha, rfl, rfl⟩ := ipcPackMessage_eq_ok h
  have hf := fitsWire_of_recovered (sixteenX.holds_write _) ha
    (by unfold PackMessage.HeadFits; decide) hr
  exact absurd hf.counts.x (by decide)

end LibTransistor
