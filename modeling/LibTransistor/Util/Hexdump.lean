import LibTransistor.Lib.Bytes
import LibTransistor.Lib.Loop

/-!
# `hexdump`

`hexdump` in `lib/util.c`, with `nybble2hex`. Each line is put together in a buffer of 70
characters, in two passes over the same 16 bytes: one counter runs through the columns, past the end
of the data on the last line, and is set back for the characters. Looking at a byte behind the data
and storing behind the line are failures of their own; the dump ends without either
(`hexdump_prints`).
-/

namespace LibTransistor

open Fallible List

/-! ## `util.c` -/

def nybble2hex (nybble : Byte) : Byte :=
  if nybble < 10 then 0x30 + nybble else 0x61 + (nybble - 10)

inductive HexdumpError
  /-- A byte is read that is not in the buffer. -/
  | read
  /-- A character is stored behind the end of `line`. -/
  | line
  | running
  deriving DecidableEq

structure HexdumpState where
  /-- `line` and `i`. -/
  line : Cursor Byte
  total : BitVec 64
  /-- The lines that have been printed. -/
  printed : List (List Byte)

abbrev HexdumpM := EStateM HexdumpError HexdumpState

/-- The size of `line`. -/
def lineSize : Nat := 0x31 + 4 + 0x10 + 1

/-- `line[i++] = c` for some characters. -/
def storeChars (cs : List Byte) : HexdumpM Unit :=
  zoom HexdumpState.line (fun line s => { s with line := line })
    (Cursor.emitAllWithin lineSize .line cs)

section Model

variable (buf : List Byte) (size : BitVec 64)

/-- `buf[total++]`. -/
def nextByte : HexdumpM Byte := do
  let s ← get
  set { s with total := s.total + 1 }
  buf[s.total.toNat]?.elim (throw .read) pure

/-- The next byte, or none if `total` has passed the end; it is counted up all the same. -/
def nextCell : HexdumpM (Option Byte) := do
  let s ← get
  if s.total < size then return some (← nextByte buf)
  else do
    set { s with total := s.total + 1 }
    return none

/-- The characters of a column. -/
def hexCell : Option Byte → List Byte
  | some byte => [nybble2hex (byte >>> 4), nybble2hex (byte &&& 15), 0x20]
  | none => [0x20, 0x20, 0x20]

/-- `if(i == 3*8) { line[i++] = ' '; }`. -/
def extraBlank : HexdumpM Unit := do
  if (← get).line.h = 3 * 8 then storeChars [0x20] else pure ()

def hexColumn : HexdumpM Unit := do
  let byte ← nextCell buf size
  storeChars (hexCell byte)
  extraBlank

/-- The character of a byte. -/
def charCell : Option Byte → Byte
  | some ch => if ch ≥ 0x20 ∧ ch < 0x7F then ch else 0x2E
  | none => 0x20

def charColumn : HexdumpM Unit := do
  let ch ← nextCell buf size
  storeChars [charCell ch]

/-- `printf("%s\n", line)`. -/
def printLine : HexdumpM Unit := modify fun s =>
  { s with printed := s.printed ++ [(s.line.buffer.read 0 lineSize).takeWhile (· ≠ 0)] }

/-- One round of the outer loop. -/
def dumpLine (fuel : Nat) : HexdumpM Unit := do
  modify fun s => { s with line := ⟨s.line.buffer, 0⟩ }
  let linestart := (← get).total
  whileLoop .running (fun s => s.total < linestart + 0x10) (hexColumn buf size) fuel
  storeChars [0x20, 0x7C, 0x20, 0x20]
  modify fun s => { s with total := linestart }
  whileLoop .running (fun s => s.total < linestart + 0x10) (charColumn buf size) fuel
  storeChars [0]
  printLine

end Model

/-- The whole function, on a buffer that starts at `buf` and has its size. -/
def hexdump (fuel : Nat) (buf : List Byte) : HexdumpM Unit :=
  let size := BitVec.ofNat 64 buf.length
  whileLoop .running (fun s => s.total < size) (dumpLine buf size fuel) fuel

/-- The state before the first line; `line` is not initialised. -/
def HexdumpState.start (line : Mem Byte) : HexdumpState := ⟨⟨line, 0⟩, 0, []⟩

/-! ## The lines -/

/-- A byte as two hexadecimal digits and a blank; a column behind the data is blank. -/
def byteText : Option Byte → List Byte
  | some byte => ascii [Nat.digitChar (byte.toNat / 16), Nat.digitChar (byte.toNat % 16), ' ']
  | none => ascii [' ', ' ', ' ']

/-- A byte as the character it is if that can be printed, and as a dot otherwise. -/
def charText : Option Byte → Byte
  | some ch => if 0x20 ≤ ch.toNat ∧ ch.toNat ≤ 0x7E then ch else 0x2E
  | none => 0x20

variable (bytes : List Byte)

/-- The first `k` columns. -/
def hexColumns (k : Nat) : List Byte :=
  (List.range k).flatMap fun j => byteText bytes[j]? ++ if j = 7 then [0x20] else []

/-- The first `k` characters. -/
def charColumns (k : Nat) : List Byte :=
  (List.range k).map fun j => charText bytes[j]?

/-- The line for up to 16 bytes. -/
def hexLine : List Byte :=
  hexColumns bytes 16 ++ [0x20, 0x7C, 0x20, 0x20] ++ charColumns bytes 16

section Lines

variable (bytes : List Byte)

theorem hexCell_eq (byte : Option Byte) : hexCell byte = byteText byte := by
  cases byte with
  | none => rfl
  | some byte =>
    revert byte
    decide

theorem charCell_eq (ch : Option Byte) : charCell ch = charText ch := by
  cases ch with
  | none => rfl
  | some ch =>
    refine if_congr ?_ rfl rfl
    show (0x20 ≤ ch.toNat ∧ ch.toNat < 0x7F) ↔ 0x20 ≤ ch.toNat ∧ ch.toNat ≤ 0x7E
    omega

theorem length_byteText (byte : Option Byte) : (byteText byte).length = 3 := by
  cases byte <;> rfl

theorem hexColumns_succ (k : Nat) : hexColumns bytes (k + 1) =
    hexColumns bytes k ++ (byteText bytes[k]? ++ if k = 7 then [0x20] else []) := by
  unfold hexColumns
  rw [range_succ, flatMap_append, flatMap_singleton]

theorem charColumns_succ (k : Nat) :
    charColumns bytes (k + 1) = charColumns bytes k ++ [charText bytes[k]?] := by
  unfold charColumns
  rw [range_succ, map_append, map_singleton]

theorem length_hexColumns (k : Nat) :
    (hexColumns bytes k).length = 3 * k + if k ≤ 7 then 0 else 1 := by
  induction k with
  | zero => rfl
  | succ k ih =>
    rw [hexColumns_succ, length_append, length_append, length_byteText, ih]
    split_ifs <;> simp only [length_nil, length_singleton] <;> omega

@[simp] theorem length_charColumns (k : Nat) : (charColumns bytes k).length = k := by
  unfold charColumns
  rw [length_map, length_range]

theorem length_hexLine : (hexLine bytes).length = 69 := by
  unfold hexLine
  rw [length_append, length_append, length_hexColumns]
  rfl

theorem nybble2hex_ne_zero (byte : Byte) :
    nybble2hex (byte >>> 4) ≠ 0 ∧ nybble2hex (byte &&& 15) ≠ 0 := by
  revert byte
  decide

theorem ne_zero_of_mem_byteText {byte : Option Byte} {c : Byte} (h : c ∈ byteText byte) :
    c ≠ 0 := by
  rw [← hexCell_eq] at h
  cases byte with
  | none =>
    revert c
    decide
  | some byte =>
    simp only [hexCell, mem_cons, not_mem_nil, or_false] at h
    rcases h with rfl | rfl | rfl
    · exact (nybble2hex_ne_zero byte).1
    · exact (nybble2hex_ne_zero byte).2
    · decide

theorem ne_zero_of_mem_hexLine {c : Byte} (h : c ∈ hexLine bytes) : c ≠ 0 := by
  unfold hexLine hexColumns charColumns at h
  simp only [mem_append, mem_flatMap, mem_map] at h
  rcases h with (⟨j, -, hcell | hblank⟩ | hseparator) | ⟨j, -, rfl⟩
  · exact ne_zero_of_mem_byteText hcell
  · split_ifs at hblank
    · rw [mem_singleton.1 hblank]
      decide
    · nomatch hblank
  · revert c
    decide
  · rw [← charCell_eq]
    cases bytes[j]? with
    | none => decide
    | some ch =>
      revert ch
      decide

end Lines

/-! ## The loops -/

section Run

variable {buf : List Byte} {s : HexdumpState}

theorem storeChars_run {cs : List Byte} (h : s.line.h + cs.length ≤ lineSize) :
    storeChars cs s = .ok () { s with line := s.line.append cs } :=
  zoom_of_ok (Cursor.emitAllWithin_run h)

theorem nextCell_run (hsize : buf.length ≤ 2 ^ 63) :
    nextCell buf (BitVec.ofNat 64 buf.length) s =
      .ok buf[s.total.toNat]? { s with total := s.total + 1 } := by
  have hlt : s.total < BitVec.ofNat 64 buf.length ↔ s.total.toNat < buf.length := by
    rw [BitVec.lt_def, BitVec.toNat_ofNat, Nat.mod_eq_of_lt (by omega)]
  unfold nextCell
  rw [get_bind_run]
  by_cases h : s.total.toNat < buf.length
  · rw [if_pos (hlt.2 h), getElem?_eq_getElem h]
    have hnext : nextByte buf s = .ok buf[s.total.toNat] { s with total := s.total + 1 } := by
      unfold nextByte
      rw [get_bind_run, getElem?_eq_getElem h]
      rfl
    rw [bind_of_ok hnext]
    rfl
  · rw [if_neg (mt hlt.1 h), getElem?_eq_none (by omega)]
    rfl

/-- The state in a line, behind what has been stored and with the counter at column `k`. -/
def HexdumpState.inLine (s : HexdumpState) (line : Mem Byte) (text : List Byte) (k : Nat) :
    HexdumpState :=
  { s with
    line := Cursor.append ⟨line, 0⟩ text
    total := s.total + BitVec.ofNat 64 k }

variable {line : Mem Byte} {bytes text : List Byte} {k : Nat}

/-- The line holds the bytes from `total` on. -/
structure HexdumpState.At (s : HexdumpState) (buf bytes : List Byte) : Prop where
  size : buf.length ≤ 2 ^ 63
  total : s.total.toNat < buf.length
  bytes : ∀ k < 16, bytes[k]? = buf[s.total.toNat + k]?

theorem HexdumpState.At.toNat_add (h : s.At buf bytes) (hk : k ≤ 16) :
    (s.total + BitVec.ofNat 64 k).toNat = s.total.toNat + k := by
  have htotal := h.total
  have hsize := h.size
  rw [BitVec.toNat_add, BitVec.toNat_ofNat]
  omega

theorem HexdumpState.At.lt_iff (h : s.At buf bytes) (hk : k ≤ 16) :
    (s.inLine line text k).total < s.total + 0x10 ↔ k < 16 := by
  show s.total + BitVec.ofNat 64 k < s.total + BitVec.ofNat 64 16 ↔ _
  rw [BitVec.lt_def, h.toNat_add hk, h.toNat_add (Nat.le_refl 16)]
  omega

theorem HexdumpState.At.nextCell_run (h : s.At buf bytes) (hk : k < 16) :
    nextCell buf (BitVec.ofNat 64 buf.length) (s.inLine line text k) =
      .ok bytes[k]? (s.inLine line text (k + 1)) := by
  have htotal : (s.inLine line text k).total.toNat = s.total.toNat + k := h.toNat_add (by omega)
  have hnext : (s.inLine line text k).total + 1 = s.total + BitVec.ofNat 64 (k + 1) := by
    rw [BitVec.ofNat_add, ← BitVec.add_assoc]
    rfl
  rw [LibTransistor.nextCell_run h.size, htotal, hnext, h.bytes k hk]
  rfl

theorem storeChars_inLine {cs : List Byte} (h : (text ++ cs).length ≤ lineSize) :
    storeChars cs (s.inLine line text k) = .ok () (s.inLine line (text ++ cs) k) := by
  rw [storeChars_run (by simpa [HexdumpState.inLine] using h)]
  simp [HexdumpState.inLine]

theorem extraBlank_run (hk : k < 16) :
    extraBlank (s.inLine line (hexColumns bytes k ++ byteText bytes[k]?) (k + 1)) =
      .ok () (s.inLine line (hexColumns bytes (k + 1)) (k + 1)) := by
  have hlength : (hexColumns bytes k ++ byteText bytes[k]?).length =
      3 * (k + 1) + if k ≤ 7 then 0 else 1 := by
    rw [length_append, length_hexColumns, length_byteText]
    omega
  have hhead : (s.inLine line (hexColumns bytes k ++ byteText bytes[k]?) (k + 1)).line.h =
      3 * (k + 1) + if k ≤ 7 then 0 else 1 := by
    rw [← hlength]
    exact Nat.zero_add _
  unfold extraBlank
  rw [get_bind_run, hhead, hexColumns_succ, ← append_assoc]
  by_cases hcolumn : k = 7
  · rw [if_pos (by subst hcolumn; rfl), if_pos hcolumn]
    exact storeChars_inLine (by rw [length_append, hlength]; subst hcolumn; decide)
  · rw [if_neg (by split_ifs <;> omega), if_neg hcolumn, append_nil]
    rfl

theorem hexColumn_run (h : s.At buf bytes) (hk : k < 16) :
    hexColumn buf (BitVec.ofNat 64 buf.length) (s.inLine line (hexColumns bytes k) k) =
      .ok () (s.inLine line (hexColumns bytes (k + 1)) (k + 1)) := by
  have hroom : (hexColumns bytes k ++ byteText bytes[k]?).length ≤ lineSize := by
    rw [length_append, length_hexColumns, length_byteText]
    unfold lineSize
    split_ifs <;> omega
  unfold hexColumn
  rw [bind_of_ok (h.nextCell_run hk), hexCell_eq, bind_of_ok (storeChars_inLine hroom)]
  exact extraBlank_run hk

/-- What stands in front of the characters. -/
def lineFront (bytes : List Byte) : List Byte := hexColumns bytes 16 ++ [0x20, 0x7C, 0x20, 0x20]

theorem charColumn_run (h : s.At buf bytes) (hk : k < 16) :
    charColumn buf (BitVec.ofNat 64 buf.length)
        (s.inLine line (lineFront bytes ++ charColumns bytes k) k) =
      .ok () (s.inLine line (lineFront bytes ++ charColumns bytes (k + 1)) (k + 1)) := by
  have hroom : (lineFront bytes ++ charColumns bytes k ++ [charText bytes[k]?]).length ≤
      lineSize := by
    unfold lineFront lineSize
    simp only [length_append, length_hexColumns, length_charColumns, length_cons,
      length_nil]
    rw [if_neg (by decide)]
    omega
  unfold charColumn
  rw [bind_of_ok (h.nextCell_run hk), charCell_eq, storeChars_inLine hroom, charColumns_succ,
    append_assoc]

theorem columns_run (h : s.At buf bytes) (line : Mem Byte) {column : HexdumpM Unit}
    (stored : Nat → List Byte) (hcolumn : ∀ k < 16, column (s.inLine line (stored k) k) =
      .ok () (s.inLine line (stored (k + 1)) (k + 1))) {fuel : Nat} (hfuel : 16 < fuel) :
    whileLoop .running (fun t => t.total < s.total + 0x10) column fuel
      (s.inLine line (stored 0) 0) = .ok () (s.inLine line (stored 16) 16) := by
  have hloop : ∃ t, whileLoop .running (fun t => t.total < s.total + 0x10) column fuel
      (s.inLine line (stored 0) 0) = .ok () t ∧ 16 ≤ 16 ∧ t = s.inLine line (stored 16) 16 := by
    refine whileLoop_rounds (fun k t => k ≤ 16 ∧ t = s.inLine line (stored k) k) hfuel ?_ ?_
      ⟨Nat.zero_le _, rfl⟩
    · rintro k t ⟨hk, rfl⟩
      exact h.lt_iff hk
    · rintro k t hk ⟨-, rfl⟩
      exact ⟨_, hcolumn k hk, hk, rfl⟩
  obtain ⟨t, hrun, -, rfl⟩ := hloop
  exact hrun

theorem printLine_run (bytes : List Byte) : printLine (s.inLine line (hexLine bytes ++ [0]) k) =
    .ok () { s.inLine line (hexLine bytes ++ [0]) k with
      printed := s.printed ++ [hexLine bytes] } := by
  have hread : (Cursor.append ⟨line, 0⟩ (hexLine bytes ++ [0])).buffer.read 0 lineSize =
      hexLine bytes ++ [0] := by
    have hself := Cursor.read_append_self line (hexLine bytes ++ [0])
    rwa [Cursor.append_h, length_append, length_hexLine] at hself
  have hstring : ((Cursor.append ⟨line, 0⟩ (hexLine bytes ++ [0])).buffer.read 0
      lineSize).takeWhile (· ≠ 0) = hexLine bytes := by
    rw [hread, takeWhile_append_of_pos]
    · simp
    · intro c hc
      simpa using ne_zero_of_mem_hexLine bytes hc
  exact congrArg (fun text => EStateM.Result.ok () (HexdumpState.mk _ _ (s.printed ++ [text]))) hstring

theorem dumpLine_run (h : s.At buf bytes) {fuel : Nat} (hfuel : 16 < fuel) :
    ∃ line, dumpLine buf (BitVec.ofNat 64 buf.length) fuel s =
      .ok () ⟨line, s.total + 0x10, s.printed ++ [hexLine bytes]⟩ := by
  have hcolumns := columns_run h s.line.buffer (hexColumns bytes)
    (fun k hk => hexColumn_run h hk) hfuel
  have hchars := columns_run h s.line.buffer (fun k => lineFront bytes ++ charColumns bytes k)
    (fun k hk => charColumn_run h hk) hfuel
  have hfront : (hexColumns bytes 16 ++ [0x20, 0x7C, 0x20, 0x20]).length ≤ lineSize := by
    rw [length_append, length_hexColumns]
    decide
  have hend : (hexLine bytes ++ [0]).length ≤ lineSize := by
    rw [length_append, length_hexLine]
    decide
  have hstart : ({ s with line := ⟨s.line.buffer, 0⟩ } : HexdumpState) =
      s.inLine s.line.buffer (hexColumns bytes 0) 0 := by
    simp [HexdumpState.inLine, hexColumns]
  have htotal : (s.inLine s.line.buffer (hexColumns bytes 0) 0).total = s.total :=
    BitVec.add_zero s.total
  have hback : HexdumpState.mk (s.inLine s.line.buffer (lineFront bytes) 16).line s.total
      s.printed = s.inLine s.line.buffer (lineFront bytes ++ charColumns bytes 0) 0 := by
    simp [HexdumpState.inLine, charColumns]
  have hline : lineFront bytes ++ charColumns bytes 16 = hexLine bytes := rfl
  refine ⟨Cursor.append ⟨s.line.buffer, 0⟩ (hexLine bytes ++ [0]), ?_⟩
  unfold dumpLine
  rw [modify_bind_run, get_bind_run, hstart, htotal, bind_of_ok hcolumns,
    bind_of_ok (storeChars_inLine hfront), modify_bind_run]
  -- `total` is set back to the start of the line
  refine Eq.trans (congrArg _ hback) ?_
  rw [bind_of_ok hchars, hline, bind_of_ok (storeChars_inLine hend)]
  exact printLine_run bytes

/-- The bytes of line `k`. -/
def lineBytes (buf : List Byte) (k : Nat) : List Byte := (buf.drop (16 * k)).take 16

theorem getElem?_lineBytes (buf : List Byte) (k : Nat) {j : Nat} (hj : j < 16) :
    (lineBytes buf k)[j]? = buf[16 * k + j]? := by
  unfold lineBytes
  rw [getElem?_take_of_lt hj, getElem?_drop]

/-- The state after `k` lines. -/
structure HexdumpState.Dumped (s : HexdumpState) (buf : List Byte) (k : Nat) : Prop where
  lines : k ≤ (buf.length + 15) / 16
  total : s.total.toNat = 16 * k
  printed : s.printed = (List.range k).map fun k => hexLine (lineBytes buf k)

theorem HexdumpState.Dumped.lt_iff (h : s.Dumped buf k) (hsize : buf.length ≤ 2 ^ 63) :
    s.total < BitVec.ofNat 64 buf.length ↔ k < (buf.length + 15) / 16 := by
  rw [BitVec.lt_def, h.total, BitVec.toNat_ofNat, Nat.mod_eq_of_lt (by omega)]
  omega

theorem HexdumpState.Dumped.next (h : s.Dumped buf k) (hsize : buf.length ≤ 2 ^ 63)
    (hk : k < (buf.length + 15) / 16) {fuel : Nat} (hfuel : 16 < fuel) :
    ∃ t, dumpLine buf (BitVec.ofNat 64 buf.length) fuel s = .ok () t ∧ t.Dumped buf (k + 1) := by
  have htotal := h.total
  have hat : s.At buf (lineBytes buf k) := by
    refine ⟨hsize, by omega, fun j hj => ?_⟩
    rw [getElem?_lineBytes buf k hj, htotal]
  obtain ⟨line, hrun⟩ := dumpLine_run hat hfuel
  refine ⟨_, hrun, hk, ?_, ?_⟩
  · refine (hat.toNat_add (Nat.le_refl 16)).trans ?_
    omega
  · rw [range_succ, map_append, ← h.printed]
    rfl

end Run

/-- **The dump is complete.** For every buffer the function ends, having read only the buffer and
written only the line, with one line for each 16 bytes. -/
theorem hexdump_prints (buf : List Byte) (hsize : buf.length ≤ 2 ^ 63) (line : Mem Byte) :
    ∃ bound, ∀ fuel ≥ bound, ∃ s, hexdump fuel buf (.start line) = .ok () s ∧
      s.printed = (List.range ((buf.length + 15) / 16)).map fun k =>
        hexLine ((buf.drop (16 * k)).take 16) := by
  refine ⟨buf.length + 17, fun fuel hfuel => ?_⟩
  have hrounds : (buf.length + 15) / 16 < fuel := by omega
  have hloop : ∃ s, hexdump fuel buf (.start line) = .ok () s ∧
      s.Dumped buf ((buf.length + 15) / 16) := by
    refine whileLoop_rounds (fun k (s : HexdumpState) => s.Dumped buf k) hrounds ?_ ?_
      ⟨Nat.zero_le _, rfl, rfl⟩
    · intro k s hs
      exact hs.lt_iff hsize
    · intro k s hk hs
      exact hs.next hsize hk (by omega)
  obtain ⟨s, hrun, hs⟩ := hloop
  exact ⟨s, hrun, hs.printed⟩

/-- The dump of 17 bytes: characters that cannot be printed are dots, and the second line has one
byte. -/
theorem hexdump_prints_hello : ∃ bound, ∀ fuel ≥ bound, ∃ s,
    hexdump fuel (ascii "Hello, world!\n\x7f??".toList) (.start fun _ => 0) = .ok () s ∧
      s.printed =
        [ascii "48 65 6c 6c 6f 2c 20 77  6f 72 6c 64 21 0a 7f 3f  |  Hello, world!..?".toList,
          ascii ("3f".toList ++ List.replicate 48 ' ' ++ "|  ?".toList ++
            List.replicate 15 ' ')] := by
  obtain ⟨bound, h⟩ := hexdump_prints (ascii "Hello, world!\n\x7f??".toList) (by decide)
    fun _ => 0
  refine ⟨bound, fun fuel hfuel => ?_⟩
  obtain ⟨s, hrun, hprinted⟩ := h fuel hfuel
  refine ⟨s, hrun, ?_⟩
  rw [hprinted]
  decide +kernel

end LibTransistor
