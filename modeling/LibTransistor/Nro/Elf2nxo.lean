import LibTransistor.Lib.Bytes
import LibTransistor.Lib.Layout

/-!
# From an ELF to an NRO

`tools/elf2nxo.py` for the format `nro`. The ELF is what `elftools` makes of the input. An exception
of the tool is `none`: a section is missing, a symbol or a section has no such index, or a number
does not fit where `struct.pack` puts it.
-/

namespace LibTransistor.Nro

open Layout

/-! ## The ELF -/

/-- The keys of `sec`, `csec` and `asec`. -/
inductive SectionKey
  | text | rodata | relaDyn | data | dynamic | dynstr | dynsym
  deriving DecidableEq

namespace SectionKey

/-- The key as a string. -/
def name : SectionKey → List Char
  | text => ['t', 'e', 'x', 't']
  | rodata => ['r', 'o', 'd', 'a', 't', 'a']
  | relaDyn => ['r', 'e', 'l', 'a', 'D', 'y', 'n']
  | data => ['d', 'a', 't', 'a']
  | dynamic => ['d', 'y', 'n', 'a', 'm', 'i', 'c']
  | dynstr => ['d', 'y', 'n', 's', 't', 'r']
  | dynsym => ['d', 'y', 'n', 's', 'y', 'm']

/-- The section that the key is for. -/
def sectionName : SectionKey → List Char
  | relaDyn => ['.', 'r', 'e', 'l', 'a', '.', 'd', 'y', 'n']
  | key => '.' :: key.name

def all : List SectionKey := [text, rodata, relaDyn, data, dynamic, dynstr, dynsym]

/-- The key that is this string, for `tgt not in csec`. -/
def ofName? (tgt : List Char) : Option SectionKey := all.find? (·.name = tgt)

end SectionKey

/-- An entry of a symbol table. There is no `st_shndx` if it is not a number. -/
structure ElfSymbol where
  name : List Char
  stShndx : Option Nat
  stValue : Nat

/-- An entry of a section of relocations. -/
structure ElfRelocation where
  offset : Nat
  infoSym : Nat
  infoType : Nat
  addend : Int

/-- What a section holds beyond its bytes; `info` is the index of the section that the relocations
are for. -/
inductive SectionKind
  | symbolTable (symbols : List ElfSymbol)
  | relocations (info : Nat) (entries : List ElfRelocation)
  | other

structure ElfSection where
  name : List Char
  addr : Nat
  size : Nat
  data : List Byte
  kind : SectionKind
  length_data : data.length = size

namespace ElfSection

/-- The address behind a section. -/
def finish (x : ElfSection) : Nat := x.addr + x.size

def symbols (x : ElfSection) : List ElfSymbol :=
  match x.kind with
  | .symbolTable symbols => symbols
  | _ => []

end ElfSection

structure Elf where
  sections : List ElfSection

namespace Elf

variable (elf : Elf)

/-- `get_section_by_name` of `elftools`, which keeps the last section of each name. -/
def getSectionByName (name : List Char) : Option ElfSection :=
  elf.sections.reverse.find? (·.name = name)

/-- `sec`. -/
def sec : Option (SectionKey → ElfSection) := do
  let text ← elf.getSectionByName SectionKey.text.sectionName
  let rodata ← elf.getSectionByName SectionKey.rodata.sectionName
  let relaDyn ← elf.getSectionByName SectionKey.relaDyn.sectionName
  let data ← elf.getSectionByName SectionKey.data.sectionName
  let dynamic ← elf.getSectionByName SectionKey.dynamic.sectionName
  let dynstr ← elf.getSectionByName SectionKey.dynstr.sectionName
  let dynsym ← elf.getSectionByName SectionKey.dynsym.sectionName
  return fun
    | .text => text
    | .rodata => rodata
    | .relaDyn => relaDyn
    | .data => data
    | .dynamic => dynamic
    | .dynstr => dynstr
    | .dynsym => dynsym

/-- `symbolList`, with the values that are put into `symbols`. -/
def symbolList : Option (List (List Char × Int)) :=
  (elf.sections.flatMap ElfSection.symbols).mapM fun sym => do
    let sectaddr ←
      match sym.stShndx with
      | some i => elf.sections[i]?.map (·.addr)
      | none => some 0
    return (sym.name, sectaddr + sym.stValue)

end Elf

/-! ## Packing -/

/-- `struct.pack('<i', n)`. -/
def packInt (n : Int) : Option (List Byte) :=
  if -2 ^ 31 ≤ n ∧ n < 2 ^ 31 then some (le32 (BitVec.ofInt 32 n)) else none

/-- `struct.pack('<I', n)`. -/
def packUInt (n : Int) : Option (List Byte) :=
  if 0 ≤ n ∧ n < 2 ^ 32 then some (le32 (BitVec.ofInt 32 n)) else none

/-- `struct.pack('<Q', n)`. -/
def packUInt64 (n : Int) : Option (List Byte) :=
  if 0 ≤ n ∧ n < 2 ^ 64 then
    some (le32 (BitVec.ofInt 32 n) ++ le32 (BitVec.ofInt 32 (n / 2 ^ 32)))
  else none

/-! ## Relocations -/

/-- The constants `R_AARCH64_…` that are handled. -/
def rAarch64Abs64 : Nat := 257

@[inherit_doc rAarch64Abs64]
def rAarch64Abs32 : Nat := 258

@[inherit_doc rAarch64Abs64]
def rAarch64Prel32 : Nat := 261

/-- Where the slice `[i:]` of a sequence starts, and `[:i]` ends. A negative index counts from the
end. -/
def sliceIndex (length : Nat) (i : Int) : Nat := (if i < 0 then length + i else i).toNat

/-- `orig[:offset] + data + orig[offset + len(data):]`. -/
def splice (orig : List Byte) (offset : Int) (data : List Byte) : List Byte :=
  orig.take (sliceIndex orig.length offset) ++ data ++
    orig.drop (sliceIndex orig.length (offset + data.length))

section Relocations

variable (symbolList : List (List Char × Int)) (sec : SectionKey → ElfSection)

/-- `replace`. -/
def replace (tgt : SectionKey) (offset : Nat) (data : List Byte) (csec : SectionKey → List Byte) :
    SectionKey → List Byte :=
  Function.update csec tgt (splice (csec tgt) (offset - (sec tgt).addr) data)

/-- `symname.startswith('NORELOC_')`. -/
def isNoReloc (symname : List Char) : Bool :=
  symname.take 8 = ['N', 'O', 'R', 'E', 'L', 'O', 'C', '_']

/-- The bytes of a relocation, if it has a type that is handled; `value` is that of the symbol. -/
def relocationData (tgtsect : ElfSection) (value : Int) (entry : ElfRelocation) :
    Option (Option (List Byte)) :=
  if entry.infoType = rAarch64Prel32 then
    (packInt (value + entry.addend - (tgtsect.addr + entry.offset))).map some
  else if entry.infoType = rAarch64Abs32 then (packUInt (value + entry.addend)).map some
  else if entry.infoType = rAarch64Abs64 then (packUInt64 (value + entry.addend)).map some
  else some none

/-- The body of the loop over `iter_relocations`. A later symbol of a name is the one that is in
`symbols`. -/
def relocation (tgtsect : ElfSection) (tgt : SectionKey) (csec : SectionKey → List Byte)
    (entry : ElfRelocation) : Option (SectionKey → List Byte) := do
  let (symname, _) ← symbolList[entry.infoSym]?
  if isNoReloc symname then do
    let value ← symbolList.reverse.lookup symname
    match ← relocationData tgtsect value entry with
    | some data => return replace sec tgt entry.offset data csec
    | none => return csec
  else return csec

/-- The body of the loop over the sections of relocations. -/
def relocateSection (elf : Elf) (csec : SectionKey → List Byte) (x : ElfSection) :
    Option (SectionKey → List Byte) :=
  match x.kind with
  | .relocations info entries => do
    let tgtsect ← elf.sections[info]?
    match SectionKey.ofName? tgtsect.name.tail with
    | some tgt => entries.foldlM (relocation symbolList sec tgtsect tgt) csec
    | none => return csec
  | _ => return csec

end Relocations

/-- `csec` behind the relocations. -/
def Elf.csec (elf : Elf) : Option (SectionKey → List Byte) := do
  let sec ← elf.sec
  let symbolList ← elf.symbolList
  elf.sections.foldlM (relocateSection symbolList sec elf) fun key => (sec key).data

/-! ## The image -/

/-- The zeros that are put behind `bs`, if its length is not a multiple of `n`. -/
def padTo (n : Nat) (bs : List Byte) : List Byte :=
  if bs.length &&& (n - 1) ≠ 0 then
    bs ++ List.replicate (n - (bs.length &&& (n - 1))) 0
  else bs

section Image

variable (csec : SectionKey → List Byte)

def textSegment : List Byte := padTo 0x1000 (csec .text)

def rodataSegment : List Byte := padTo 0x1000 (padTo 0x8 (csec .rodata) ++ csec .relaDyn)

def dataSegment : List Byte :=
  padTo 0x1000 (padTo 0x8 (padTo 0x1000 (padTo 0x8 (csec .data) ++ csec .dynamic) ++
    csec .dynsym) ++ csec .dynstr)

/-- `bssSize` is a multiple of a page. -/
def pageSize (bssSize : Nat) : Nat :=
  if bssSize &&& 0xFFF ≠ 0 then bssSize + (0x1000 - (bssSize &&& 0xFFF)) else bssSize

/-- `'NRO0'.encode()`. -/
def nroMagicBytes : List Byte := [0x4E, 0x52, 0x4F, 0x30]

end Image

/-- What is written to the output. -/
def writeNro (text rodata data : List Byte) (bssSize : Nat) : Option (List Byte) := do
  let moduleOffset ← packUInt ↑(text.length + rodata.length + 8)
  let size ← packUInt ↑(text.length + rodata.length + data.length)
  let textSize ← packUInt text.length
  let rodataOffset ← packUInt text.length
  let rodataSize ← packUInt rodata.length
  let dataOffset ← packUInt ↑(text.length + rodata.length)
  let dataSize ← packUInt data.length
  let bss ← packUInt bssSize
  return text.take 0x4 ++ moduleOffset ++ le32 0 ++ le32 0 ++ nroMagicBytes ++
    le32 0 ++ size ++ le32 0 ++ le32 0 ++ textSize ++ rodataOffset ++ rodataSize ++
    dataOffset ++ dataSize ++ bss ++ le32 0 ++ List.replicate 0x40 0 ++
    text.drop 0x80 ++ rodata ++ data

/-- `main` with the format `nro`. -/
def main (elf : Elf) : Option (List Byte) := do
  let csec ← elf.csec
  let bss ← elf.getSectionByName ['.', 'b', 's', 's']
  writeNro (textSegment csec) (rodataSegment csec) (dataSegment csec) (pageSize bss.size)

end LibTransistor.Nro
