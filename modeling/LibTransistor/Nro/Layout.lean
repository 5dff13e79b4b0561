import LibTransistor.Loader.Nro
import LibTransistor.Nro.Elf2nxo

/-!
# The layout of an NRO

`link.T` gives every section an address (`Placed`), and `elf2nxo` puts the sections into a file
without looking at the addresses; the program is relocated by addresses, with the file in memory as
it is.

Each section of the file is at its address (`Laid`, `main_layout`), and the header describes the
file, if the relocations that `elf2nxo` applies are inside the sections that they are for. A
relocation behind a section makes it longer, and the next one moves (`main_layout_fails`).
-/

namespace LibTransistor.Nro

open Align Layout List

variable {n : Nat} {m : Mem Byte}

/-! ## Relocations keep the sizes -/

/-- The bytes that a relocation replaces. -/
def ElfRelocation.width (entry : ElfRelocation) : Nat :=
  if entry.infoType = rAarch64Prel32 ∨ entry.infoType = rAarch64Abs32 then 4
  else if entry.infoType = rAarch64Abs64 then 8 else 0

/-- `entry` is applied to the section of `tgt`. -/
inductive Elf.Patches (elf : Elf) : SectionKey → ElfRelocation → Prop
  | mk {x tgtsect : ElfSection} {info : Nat} {entries : List ElfRelocation} {tgt : SectionKey}
      {entry : ElfRelocation} {symbolList : List (List Char × Int)} {sym : List Char × Int} :
      x ∈ elf.sections → x.kind = .relocations info entries →
      elf.sections[info]? = some tgtsect → SectionKey.ofName? tgtsect.name.tail = some tgt →
      entry ∈ entries → elf.symbolList = some symbolList →
      symbolList[entry.infoSym]? = some sym → isNoReloc sym.1 = true → elf.Patches tgt entry

/-- The relocations are inside the sections that they are for. -/
def Elf.PatchesInside (elf : Elf) (sec : SectionKey → ElfSection) : Prop :=
  ∀ tgt entry, elf.Patches tgt entry →
    (sec tgt).addr ≤ entry.offset ∧ entry.offset + entry.width ≤ (sec tgt).finish

/-- The bytes of each section are as many as the ELF says. -/
def Sized (sec : SectionKey → ElfSection) (csec : SectionKey → List Byte) : Prop :=
  ∀ key, (csec key).length = (sec key).size

section Patch

variable {elf : Elf} {sec : SectionKey → ElfSection} {csec csec' : SectionKey → List Byte}
  {symbolList : List (List Char × Int)} {entry : ElfRelocation} {tgt : SectionKey}
  {tgtsect x : ElfSection}

@[simp] theorem sliceIndex_natCast (length i : Nat) : sliceIndex length i = i := by
  unfold sliceIndex
  rw [if_neg (Int.not_lt.2 (Int.natCast_nonneg i)), Int.toNat_natCast]

theorem length_splice {orig data : List Byte} {offset : Nat}
    (h : offset + data.length ≤ orig.length) : (splice orig offset data).length = orig.length := by
  rw [splice, ← Int.natCast_add, sliceIndex_natCast, sliceIndex_natCast]
  simp only [length_append, length_take, length_drop]
  omega

theorem length_of_relocationData {value : Int} {data : List Byte}
    (h : relocationData tgtsect value entry = some (some data)) : data.length = entry.width := by
  unfold relocationData packInt packUInt packUInt64 at h
  unfold ElfRelocation.width
  split_ifs at h with h₁ h₂ h₃ h₄ h₅ h₆ <;> simp_all
  · rw [← h]; rfl
  · rw [← h]; rfl
  · rw [← h]; rfl

/-- One relocation that is inside its section leaves the size of every section. -/
theorem relocation_sized (hsized : Sized sec csec)
    (hinside : ∀ sym, symbolList[entry.infoSym]? = some sym → isNoReloc sym.1 = true →
      (sec tgt).addr ≤ entry.offset ∧ entry.offset + entry.width ≤ (sec tgt).finish)
    (h : relocation symbolList sec tgtsect tgt csec entry = some csec') : Sized sec csec' := by
  simp only [relocation, Option.bind_eq_bind, Option.bind_eq_some_iff] at h
  obtain ⟨sym, hsym, h⟩ := h
  split_ifs at h with hno
  · simp only [Option.bind_eq_some_iff] at h
    obtain ⟨value, -, data?, hdata, h⟩ := h
    cases data? with
    | none =>
      cases h
      exact hsized
    | some data =>
      cases h
      obtain ⟨hstart, hend⟩ := hinside sym hsym hno
      intro key
      unfold replace
      by_cases hkey : key = tgt
      · subst hkey
        have hlength := length_of_relocationData hdata
        have hsize := hsized key
        obtain ⟨offset, hoffset⟩ := Nat.exists_eq_add_of_le hstart
        have hcast : (entry.offset : Int) - (sec key).addr = offset := by omega
        rw [Function.update_self, hcast, length_splice, hsize]
        unfold ElfSection.finish at hend
        omega
      · rw [Function.update_of_ne hkey]
        exact hsized key
  · cases h
    exact hsized

/-- Each step that succeeds keeps `P`, so a fold that succeeds does. -/
theorem foldlM_keeps {σ β : Type} {f : σ → β → Option σ} {P : σ → Prop} {bs : List β}
    (hstep : ∀ b ∈ bs, ∀ s t, P s → f s b = some t → P t) {s t : σ} (hs : P s)
    (h : bs.foldlM f s = some t) : P t := by
  induction bs generalizing s with
  | nil =>
    cases h
    exact hs
  | cons b bs ih =>
    obtain ⟨u, hu, h⟩ := Option.bind_eq_some_iff.1 h
    exact ih (fun c hc => hstep c (mem_cons_of_mem b hc)) (hstep b mem_cons_self s u hs hu) h

theorem relocateSection_sized (hinside : elf.PatchesInside sec)
    (hsymbols : elf.symbolList = some symbolList) (hx : x ∈ elf.sections) (hsized : Sized sec csec)
    (h : relocateSection symbolList sec elf csec x = some csec') : Sized sec csec' := by
  unfold relocateSection at h
  split at h
  · rename_i info entries hkind
    obtain ⟨tgtsect, hsect, h⟩ := Option.bind_eq_some_iff.1 h
    split at h
    · rename_i tgt htgt
      refine foldlM_keeps (fun entry hentry s t hs hst => ?_) hsized h
      exact relocation_sized hs (fun sym hsym hno => hinside tgt entry
        (.mk hx hkind hsect htgt hentry hsymbols hsym hno)) hst
    · cases h
      exact hsized
  · cases h
    exact hsized

/-- **The relocations keep the sizes of the sections.** -/
theorem csec_sized (hsec : elf.sec = some sec) (hinside : elf.PatchesInside sec)
    (hcsec : elf.csec = some csec) : Sized sec csec := by
  unfold Elf.csec at hcsec
  rw [hsec, Option.bind_eq_bind, Option.bind_some] at hcsec
  obtain ⟨symbolList, hsymbols, h⟩ := Option.bind_eq_some_iff.1 hcsec
  exact foldlM_keeps (fun x hx s t hs hst => relocateSection_sized hinside hsymbols hx hs hst)
    (fun key => (sec key).length_data) h

end Patch

/-! ## Addresses -/

/-- The sections are where `link.T` puts them. -/
structure Placed (elf : Elf) (sec : SectionKey → ElfSection) (bss : ElfSection) : Prop where
  sections : elf.sec = some sec
  found_bss : elf.getSectionByName ['.', 'b', 's', 's'] = some bss
  text : (sec .text).addr = 0
  header : 0x80 ≤ (sec .text).size
  rodata : (sec .rodata).addr = alignUp (sec .text).finish 0x1000
  relaDyn : (sec .relaDyn).addr = alignUp (sec .rodata).finish 0x8
  data : (sec .data).addr = alignUp (sec .relaDyn).finish 0x1000
  dynamic : (sec .dynamic).addr = alignUp (sec .data).finish 0x8
  dynsym : (sec .dynsym).addr = alignUp (sec .dynamic).finish 0x1000
  dynstr : (sec .dynstr).addr = alignUp (sec .dynsym).finish 0x8
  bss : bss.addr = alignUp (sec .dynstr).finish 0x1000

section Addresses

variable {elf : Elf} {sec : SectionKey → ElfSection} {bss : ElfSection}
  {csec : SectionKey → List Byte} (bs : List Byte)

theorem padTo_page : padTo 0x1000 bs = pad 0 0x1000 bs := pad_of_and bs 12

theorem padTo_eight : padTo 0x8 bs = pad 0 0x8 bs := pad_of_and bs 3

theorem page_padTo : 0x1000 ∣ (padTo 0x1000 bs).length := by
  rw [padTo_page, length_pad (by decide)]
  exact dvd_alignUp _ _

theorem standsAt_padTo {off : Nat} {bs file : List Byte} (h : StandsAt bs off file) :
    StandsAt bs off (padTo n file) := by
  unfold padTo
  split_ifs
  · exact h.append _
  · exact h

/-- The next address of a segment that begins at `base`: behind a piece that is where the section
`x` is, and padded. -/
theorem next_addr {x : ElfSection} {base : Nat} (before piece : List Byte) (hn : 0 < n)
    (hbase : n ∣ base) (hbefore : base + before.length = x.addr) (hpiece : piece.length = x.size) :
    base + (pad (0 : Byte) n (before ++ piece)).length = alignUp x.finish n := by
  rw [add_length_pad hn hbase, length_append, ← Nat.add_assoc, hbefore, hpiece]
  rfl

namespace Placed

variable (h : Placed elf sec bss) (hsized : Sized sec csec)

include h

theorem page_rodata : 0x1000 ∣ (sec .rodata).addr := h.rodata ▸ dvd_alignUp _ _

theorem page_data : 0x1000 ∣ (sec .data).addr := h.data ▸ dvd_alignUp _ _

theorem eight_rodata : 0x8 ∣ (sec .rodata).addr := Nat.dvd_trans (by decide) h.page_rodata

theorem eight_data : 0x8 ∣ (sec .data).addr := Nat.dvd_trans (by decide) h.page_data

include hsized

theorem length_textSegment : (textSegment csec).length = (sec .rodata).addr := by
  rw [textSegment, padTo_page, length_pad (by decide), hsized, h.rodata, ElfSection.finish, h.text,
    Nat.zero_add]

theorem addr_relaDyn :
    (sec .rodata).addr + (padTo 0x8 (csec .rodata)).length = (sec .relaDyn).addr := by
  rw [padTo_eight, h.relaDyn]
  exact next_addr [] _ (by decide) h.eight_rodata rfl (hsized .rodata)

theorem addr_data : (sec .rodata).addr + (rodataSegment csec).length = (sec .data).addr := by
  rw [rodataSegment, padTo_page, h.data]
  exact next_addr _ _ (by decide) h.page_rodata (h.addr_relaDyn hsized) (hsized .relaDyn)

theorem addr_dynamic :
    (sec .data).addr + (padTo 0x8 (csec .data)).length = (sec .dynamic).addr := by
  rw [padTo_eight, h.dynamic]
  exact next_addr [] _ (by decide) h.eight_data rfl (hsized .data)

theorem addr_dynsym :
    (sec .data).addr + (padTo 0x1000 (padTo 0x8 (csec .data) ++ csec .dynamic)).length
      = (sec .dynsym).addr := by
  rw [padTo_page, h.dynsym]
  exact next_addr _ _ (by decide) h.page_data (h.addr_dynamic hsized) (hsized .dynamic)

theorem addr_dynstr :
    (sec .data).addr + (padTo 0x8 (padTo 0x1000 (padTo 0x8 (csec .data) ++ csec .dynamic) ++
      csec .dynsym)).length = (sec .dynstr).addr := by
  rw [padTo_eight _, h.dynstr]
  exact next_addr _ _ (by decide) h.eight_data (h.addr_dynsym hsized) (hsized .dynsym)

theorem addr_bss : (sec .data).addr + (dataSegment csec).length = bss.addr := by
  rw [dataSegment, padTo_page _, h.bss]
  exact next_addr _ _ (by decide) h.page_data (h.addr_dynstr hsized) (hsized .dynstr)

end Placed

end Addresses

/-! ## The file -/

/-- An entry of the header's table of segments. -/
structure Segment where
  offset : Nat
  size : Nat

def Segment.finish (g : Segment) : Nat := g.offset + g.size

/-- A segment that the header has, for `i < 3`. -/
def segment (m : Mem Byte) (i : Nat) : Segment :=
  ⟨(wordAt m (0x20 + 8 * i)).toNat, (wordAt m (0x24 + 8 * i)).toNat⟩

section File

variable {text rodata data file : List Byte} {bssSize : Nat}

/-- The words of the header behind the first instruction. -/
def headerWords (text rodata data : List Byte) (bssSize : Nat) : List (BitVec 32) :=
  [BitVec.ofNat 32 (text.length + rodata.length + 8), 0, 0, nroMagic, 0,
    BitVec.ofNat 32 (text.length + rodata.length + data.length), 0,
    0, BitVec.ofNat 32 text.length, BitVec.ofNat 32 text.length, BitVec.ofNat 32 rodata.length,
    BitVec.ofNat 32 (text.length + rodata.length), BitVec.ofNat 32 data.length,
    BitVec.ofNat 32 bssSize, 0] ++ List.replicate 16 0

/-- The first instruction, the header, and the rest of the image. -/
def nroFile (text rodata data : List Byte) (bssSize : Nat) : List Byte :=
  text.take 4 ++ (headerWords text rodata data bssSize).flatMap le32 ++ text.drop 0x80 ++
    rodata ++ data

theorem packUInt_natCast (h : n < 2 ^ 32) : packUInt n = some (le32 (BitVec.ofNat 32 n)) := by
  unfold packUInt
  rw [if_pos (by omega), BitVec.ofInt_natCast]

theorem lt_of_packUInt {bs : List Byte} (h : packUInt n = some bs) : n < 2 ^ 32 := by
  unfold packUInt at h
  split_ifs at h with hn
  omega

theorem writeNro_of_lt (hmodule : text.length + rodata.length + 8 < 2 ^ 32)
    (hsize : text.length + rodata.length + data.length < 2 ^ 32) (hbss : bssSize < 2 ^ 32) :
    writeNro text rodata data bssSize = some (nroFile text rodata data bssSize) := by
  unfold writeNro
  rw [packUInt_natCast hmodule, packUInt_natCast hsize, packUInt_natCast (by omega),
    packUInt_natCast (by omega), packUInt_natCast (by omega), packUInt_natCast (by omega),
    packUInt_natCast hbss]
  simp only [nroFile, append_assoc]
  rfl

theorem lt_of_writeNro (h : writeNro text rodata data bssSize = some file) :
    text.length + rodata.length + 8 < 2 ^ 32 ∧
      text.length + rodata.length + data.length < 2 ^ 32 ∧ bssSize < 2 ^ 32 := by
  unfold writeNro at h
  simp only [Option.bind_eq_bind, Option.bind_eq_some_iff] at h
  obtain ⟨_, hmodule, _, hsize, _, -, _, -, _, -, _, -, _, -, _, hbss, -⟩ := h
  exact ⟨lt_of_packUInt hmodule, lt_of_packUInt hsize, lt_of_packUInt hbss⟩

variable (htext : 0x80 ≤ text.length)
include htext

theorem length_header :
    (text.take 4 ++ (headerWords text rodata data bssSize).flatMap le32).length = 0x80 := by
  rw [length_append, length_take, Nat.min_eq_left (by omega)]
  rfl

theorem length_first :
    (text.take 4 ++ (headerWords text rodata data bssSize).flatMap le32 ++ text.drop 0x80).length
      = text.length := by
  rw [length_append, length_header htext, length_drop]
  omega

theorem length_nroFile :
    (nroFile text rodata data bssSize).length = text.length + rodata.length + data.length := by
  rw [nroFile, length_append, length_append, length_first htext]

variable {bs : List Byte} {off : Nat}

theorem standsAt_text : StandsAt (text.drop 0x80) 0x80 (nroFile text rodata data bssSize) := by
  have h := standsAt_length (text.take 4 ++ (headerWords text rodata data bssSize).flatMap le32)
    (text.drop 0x80)
  rw [length_header htext] at h
  exact (h.append rodata).append data

theorem standsAt_rodata (h : StandsAt bs off rodata) :
    StandsAt bs (text.length + off) (nroFile text rodata data bssSize) := by
  have hfirst := h.prepend (text.take 4 ++ (headerWords text rodata data bssSize).flatMap le32 ++
    text.drop 0x80)
  rw [length_first htext] at hfirst
  exact hfirst.append data

theorem standsAt_data (h : StandsAt bs off data) :
    StandsAt bs (text.length + rodata.length + off) (nroFile text rodata data bssSize) := by
  have hfirst := h.prepend (text.take 4 ++ (headerWords text rodata data bssSize).flatMap le32 ++
    text.drop 0x80 ++ rodata)
  rwa [length_append, length_first htext] at hfirst

theorem wordAt_nroFile {i : Nat} {w : BitVec 32}
    (hm : m.read 0 (nroFile text rodata data bssSize).length = nroFile text rodata data bssSize)
    (h : (headerWords text rodata data bssSize)[i]? = some w) : wordAt m (4 + 4 * i) = w := by
  have hword := (standsAt_flatMap length_le32 h).prepend (text.take 4)
  rw [length_take, Nat.min_eq_left (by omega)] at hword
  exact wordAt_eq (((hword.append (text.drop 0x80)).append rodata).append data |>.read hm)

theorem segments_nroFile (hsize : text.length + rodata.length + data.length < 2 ^ 32)
    (hm : m.read 0 (nroFile text rodata data bssSize).length = nroFile text rodata data bssSize) :
    segment m 0 = ⟨0, text.length⟩ ∧ segment m 1 = ⟨text.length, rodata.length⟩ ∧
      segment m 2 = ⟨text.length + rodata.length, data.length⟩ := by
  have hword : ∀ i n, n ≤ text.length + rodata.length + data.length →
      (headerWords text rodata data bssSize)[i]? = some (BitVec.ofNat 32 n) →
      (wordAt m (4 + 4 * i)).toNat = n := by
    intro i n hn hi
    rw [wordAt_nroFile htext hm hi, BitVec.toNat_ofNat, Nat.mod_eq_of_lt (by omega)]
  refine ⟨?_, ?_, ?_⟩
  · exact Segment.mk.injEq .. ▸ ⟨hword 7 _ (by omega) rfl, hword 8 _ (by omega) rfl⟩
  · exact Segment.mk.injEq .. ▸ ⟨hword 9 _ (by omega) rfl, hword 10 _ (by omega) rfl⟩
  · exact Segment.mk.injEq .. ▸ ⟨hword 11 _ (by omega) rfl, hword 12 _ (by omega) rfl⟩

end File

/-! ## The loader's check -/

/-- An image with its size in the header is accepted with that size only, and below 2 GiB only. -/
theorem nroHeaderAt_valid_iff (hid : wordAt m 0x10 = nroMagic)
    (hsize : wordAt m 0x18 = BitVec.ofNat 32 n) (hn : n < 2 ^ 32) (hpage : 0x1000 ∣ n)
    (hpos : 0 < n) (inSize : BitVec 32) :
    (nroHeaderAt m 0).Valid inSize ↔ inSize = BitVec.ofNat 32 n ∧ n < 2 ^ 31 := by
  have hand : BitVec.ofNat 32 n &&& 0xFFF = 0 := by
    apply BitVec.eq_of_toNat_eq
    rw [BitVec.toNat_and, BitVec.toNat_ofNat, Nat.mod_eq_of_lt hn]
    exact (Nat.and_two_pow_sub_one_eq_mod n 12).trans (Nat.mod_eq_zero_of_dvd hpage)
  have hslt : (BitVec.ofNat 32 n).slt 0x1000 = false ↔ n < 2 ^ 31 := by
    rw [BitVec.slt, BitVec.toInt_eq_toNat_cond, BitVec.toNat_ofNat, Nat.mod_eq_of_lt hn]
    split_ifs <;> simp <;> omega
  have hnroSize : (nroHeaderAt m 0).nroSize = BitVec.ofNat 32 n := hsize
  constructor
  · intro h
    have hsame := h.same
    rw [hnroSize] at hsame
    subst hsame
    exact ⟨rfl, hslt.1 h.size⟩
  · rintro ⟨rfl, hlt⟩
    exact ⟨hslt.2 hlt, hid, hnroSize, by rw [hnroSize]; exact hand⟩

/-! ## The layout -/

/-- The sections of the ELF are in the file at their addresses, `.text` from the end of the header
on, and `.bss` follows the file. -/
structure Laid (sec : SectionKey → ElfSection) (csec : SectionKey → List Byte) (bss : ElfSection)
    (file : List Byte) : Prop where
  size : Sized sec csec
  text : StandsAt ((csec .text).drop 0x80) 0x80 file
  sections : ∀ key, key ≠ .text → StandsAt (csec key) (sec key).addr file
  length : file.length = bss.addr

/-- The segments are those of `.text`, of `.rodata` to `.rela.dyn` and of `.data` to `.dynstr`. They
are one behind the other, and are the file. -/
structure Segmented (sec : SectionKey → ElfSection) (file : List Byte) (m : Mem Byte) : Prop where
  text : (segment m 0).offset = 0 ∧
    (segment m 0).finish = alignUp (sec .text).finish 0x1000
  rodata : (segment m 1).offset = (sec .rodata).addr ∧
    (segment m 1).finish = alignUp (sec .relaDyn).finish 0x1000
  data : (segment m 2).offset = (sec .data).addr ∧
    (segment m 2).finish = alignUp (sec .dynstr).finish 0x1000
  contiguous : (segment m 1).offset = (segment m 0).finish ∧
    (segment m 2).offset = (segment m 1).finish ∧ (segment m 2).finish = file.length
  pages : ∀ i < 3, 0x1000 ∣ (segment m i).offset ∧ 0x1000 ∣ (segment m i).size

section Layout

variable {elf : Elf} {sec : SectionKey → ElfSection} {bss : ElfSection}
  {csec : SectionKey → List Byte}

/-- The file of an ELF. -/
def imageFile (csec : SectionKey → List Byte) (bss : ElfSection) : List Byte :=
  nroFile (textSegment csec) (rodataSegment csec) (dataSegment csec) (pageSize bss.size)

theorem pageSize_eq (n : Nat) : pageSize n = alignUp n 0x1000 := alignUp_of_and n 12

theorem main_eq (hcsec : elf.csec = some csec)
    (hbss : elf.getSectionByName ['.', 'b', 's', 's'] = some bss) :
    main elf = writeNro (textSegment csec) (rodataSegment csec) (dataSegment csec)
      (pageSize bss.size) := by
  unfold main
  rw [hcsec, hbss, Option.bind_eq_bind, Option.bind_some, Option.bind_eq_bind, Option.bind_some]

variable (h : Placed elf sec bss) (hsized : Sized sec csec)
include h hsized

theorem le_length_textSegment : 0x80 ≤ (textSegment csec).length := by
  have hle : (sec .text).finish ≤ alignUp (sec .text).finish 0x1000 := le_alignUp (by decide) _
  have hheader := h.header
  rw [h.length_textSegment hsized, h.rodata]
  unfold ElfSection.finish at hle ⊢
  omega

theorem main_eq_some_iff (hcsec : elf.csec = some csec) (file : List Byte) :
    main elf = some file ↔
      (bss.addr < 2 ^ 32 ∧ alignUp bss.size 0x1000 < 2 ^ 32) ∧ file = imageFile csec bss := by
  have hmain := main_eq hcsec h.found_bss
  have htext := h.length_textSegment hsized
  have hdata := h.addr_data hsized
  have hbss := h.addr_bss hsized
  rw [hmain]
  constructor
  · intro hfile
    obtain ⟨hmodule, hsize, hpage⟩ := lt_of_writeNro hfile
    rw [writeNro_of_lt hmodule hsize hpage] at hfile
    rw [pageSize_eq] at hpage
    exact ⟨⟨by omega, hpage⟩, (Option.some.inj hfile).symm⟩
  · rintro ⟨⟨hlt, hpage⟩, rfl⟩
    have hpages := h.page_data
    have hmodule : (sec .data).addr + 8 < 2 ^ 32 := by omega
    have hfits : (textSegment csec).length + (rodataSegment csec).length + 8 < 2 ^ 32 := by
      rw [htext, hdata]
      exact hmodule
    have hsize : (textSegment csec).length + (rodataSegment csec).length +
        (dataSegment csec).length < 2 ^ 32 := by
      rw [htext, hdata, hbss]
      exact hlt
    rw [← pageSize_eq] at hpage
    exact writeNro_of_lt hfits hsize hpage

/-- The paddings that `elf2nxo` adds are those that `link.T` leaves. -/
theorem imageFile_laid : Laid sec csec bss (imageFile csec bss) := by
  have hheader := le_length_textSegment h hsized
  have htext := h.length_textSegment hsized
  have hdata := h.addr_data hsized
  have hro : ∀ {bs off addr}, StandsAt bs off (rodataSegment csec) →
      (sec .rodata).addr + off = addr → StandsAt bs addr (imageFile csec bss) := by
    intro bs off addr hbs haddr
    rw [← haddr, ← htext]
    exact standsAt_rodata hheader hbs
  have hrw : ∀ {bs off addr}, StandsAt bs off (dataSegment csec) →
      (sec .data).addr + off = addr → StandsAt bs addr (imageFile csec bss) := by
    intro bs off addr hbs haddr
    rw [← haddr, ← hdata, ← htext]
    exact standsAt_data hheader hbs
  refine ⟨hsized, ?_, ?_, ?_⟩
  · have hdrop : StandsAt ((csec .text).drop 0x80) 0 ((textSegment csec).drop 0x80) := by
      have hle : 0x80 ≤ (csec .text).length := (hsized .text).symm ▸ h.header
      rw [textSegment, padTo_page, pad, drop_append_of_le_length hle]
      exact standsAt_self.append _
    exact hdrop.trans (standsAt_text hheader)
  · intro key hkey
    cases key with
    | text => exact absurd rfl hkey
    | rodata => exact hro (standsAt_padTo ((standsAt_padTo standsAt_self).append _)) rfl
    | relaDyn => exact hro (standsAt_padTo (standsAt_length _ _)) (h.addr_relaDyn hsized)
    | data =>
      have hbefore : StandsAt (csec .data) 0 (padTo 0x1000 (padTo 0x8 (csec .data) ++ csec .dynamic)) :=
        standsAt_padTo ((standsAt_padTo standsAt_self).append _)
      exact hrw (standsAt_padTo ((standsAt_padTo (hbefore.append _)).append _)) rfl
    | dynamic =>
      have hbefore : StandsAt (csec .dynamic) (padTo 0x8 (csec .data)).length
          (padTo 0x1000 (padTo 0x8 (csec .data) ++ csec .dynamic)) :=
        standsAt_padTo (standsAt_length _ _)
      exact hrw (standsAt_padTo ((standsAt_padTo (hbefore.append _)).append _))
        (h.addr_dynamic hsized)
    | dynsym =>
      exact hrw (standsAt_padTo ((standsAt_padTo (standsAt_length _ _)).append _))
        (h.addr_dynsym hsized)
    | dynstr => exact hrw (standsAt_padTo (standsAt_length _ _)) (h.addr_dynstr hsized)
  · rw [imageFile, length_nroFile hheader, htext, hdata, h.addr_bss hsized]

variable (hlt : bss.addr < 2 ^ 32) (hm : m.read 0 (imageFile csec bss).length = imageFile csec bss)
include hlt hm

theorem imageFile_segmented : Segmented sec (imageFile csec bss) m := by
  have hheader := le_length_textSegment h hsized
  have htext := h.length_textSegment hsized
  have hdata := h.addr_data hsized
  have hbss := h.addr_bss hsized
  have hsize : (textSegment csec).length + (rodataSegment csec).length +
      (dataSegment csec).length < 2 ^ 32 := by
    rw [htext, hdata, hbss]
    exact hlt
  obtain ⟨h₀, h₁, h₂⟩ := segments_nroFile hheader hsize hm
  have hpages₀ : 0x1000 ∣ (textSegment csec).length := page_padTo _
  have hpages₁ : 0x1000 ∣ (rodataSegment csec).length := page_padTo _
  have hpages₂ : 0x1000 ∣ (dataSegment csec).length := page_padTo _
  constructor
  · rw [h₀, Segment.finish, Nat.zero_add, htext]
    exact ⟨rfl, h.rodata⟩
  · rw [h₁, Segment.finish, htext, hdata]
    exact ⟨rfl, h.data⟩
  · rw [h₂, Segment.finish, htext, hdata, hbss]
    exact ⟨rfl, h.bss⟩
  · rw [h₀, h₁, h₂, imageFile, length_nroFile hheader]
    exact ⟨(Nat.zero_add _).symm, rfl, rfl⟩
  · intro i hi
    match i, hi with
    | 0, _ => rw [h₀]; exact ⟨Nat.dvd_zero _, hpages₀⟩
    | 1, _ => rw [h₁]; exact ⟨hpages₀, hpages₁⟩
    | 2, _ => rw [h₂]; exact ⟨Nat.dvd_add hpages₀ hpages₁, hpages₂⟩

/-- What the loader and the start-up code read: the module header, the size, and the check. -/
structure Readable (sec : SectionKey → ElfSection) (file : List Byte) (m : Mem Byte) : Prop where
  moduleHeader : (wordAt m 0x4).toNat = (sec .data).addr + 8
  size : (wordAt m 0x18).toNat = file.length
  accepted : ∀ inSize, (nroHeaderAt m 0).Valid inSize ↔
    inSize = BitVec.ofNat 32 file.length ∧ file.length < 2 ^ 31

theorem imageFile_readable : Readable sec (imageFile csec bss) m := by
  have hheader := le_length_textSegment h hsized
  have htext := h.length_textSegment hsized
  have hdata := h.addr_data hsized
  have hlength := (imageFile_laid h hsized).length
  have hpage : 0x1000 ∣ bss.addr := h.bss ▸ dvd_alignUp _ _
  have hmodule : wordAt m 0x4 = _ := wordAt_nroFile (i := 0) hheader hm rfl
  have hid : wordAt m 0x10 = _ := wordAt_nroFile (i := 3) hheader hm rfl
  have hsize : wordAt m 0x18 = _ := wordAt_nroFile (i := 5) hheader hm rfl
  have hbss := h.addr_bss hsized
  rw [htext, hdata] at hmodule hsize
  rw [hbss] at hsize
  have hpos : 0x80 ≤ bss.addr := by omega
  rw [← hlength] at hsize hlt hpage hpos
  constructor
  · rw [hmodule, BitVec.toNat_ofNat, Nat.mod_eq_of_lt]
    omega
  · rw [hsize, BitVec.toNat_ofNat, Nat.mod_eq_of_lt hlt]
  · exact nroHeaderAt_valid_iff hid hsize hlt hpage (Nat.lt_of_lt_of_le (by decide) hpos)

end Layout

/-! ## A small ELF -/

/-- A section with some bytes. -/
def plainSection (name : List Char) (addr : Nat) (data : List Byte) : ElfSection :=
  ⟨name, addr, data.length, data, .other, rfl⟩

/-- The named sections of an ELF with `n` bytes of code, four bytes of `.rodata` and one of
`.rela.dyn`. -/
def sampleSec (n : Nat) : SectionKey → ElfSection
  | .text => ⟨SectionKey.text.sectionName, 0, n, List.replicate n 0, .other, List.length_replicate⟩
  | .rodata => plainSection SectionKey.rodata.sectionName (alignUp n 0x1000) [0, 0, 0, 0]
  | .relaDyn => plainSection SectionKey.relaDyn.sectionName (alignUp n 0x1000 + 8) [1]
  | key => plainSection key.sectionName (alignUp n 0x1000 + 0x1000) []

def sampleBss (n : Nat) : ElfSection :=
  plainSection ['.', 'b', 's', 's'] (alignUp n 0x1000 + 0x1000) []

/-- The ELF, with relocations for `.rodata` and a symbol `NORELOC_`. -/
def sampleElf (n : Nat) (entries : List ElfRelocation) : Elf where
  sections :=
    [.text, .rodata, .relaDyn, .data, .dynamic, .dynsym, .dynstr].map (sampleSec n) ++
    [sampleBss n,
      ⟨[], 0, 0, [], .symbolTable [⟨['N', 'O', 'R', 'E', 'L', 'O', 'C', '_'], none, 0⟩], rfl⟩,
      ⟨[], 0, 0, [], .relocations 1 entries, rfl⟩]

theorem sampleElf_placed (hn : 0x80 ≤ n) (entries : List ElfRelocation) :
    Placed (sampleElf n entries) (sampleSec n) (sampleBss n) := by
  have hpage := dvd_alignUp n 0x1000
  have hnext : ∀ {addr finish k : Nat}, 0 < k → k ∣ addr → finish ≤ addr → addr < finish + k →
      addr = alignUp finish k := fun hk hdvd hle hlt => (alignUp_eq hk hdvd hle hlt).symm
  refine ⟨?_, rfl, rfl, hn, ?_, ?_, ?_, ?_, ?_, ?_, ?_⟩
  · have hsec : (sampleElf n entries).sec = some _ := rfl
    rw [hsec]
    congr 1
    funext key
    cases key <;> rfl
  · show alignUp n 0x1000 = alignUp (0 + n) 0x1000
    rw [Nat.zero_add]
  · show alignUp n 0x1000 + 8 = alignUp (alignUp n 0x1000 + 4) 8
    exact hnext (by decide) (by omega) (by omega) (by omega)
  · show alignUp n 0x1000 + 0x1000 = alignUp (alignUp n 0x1000 + 8 + 1) 0x1000
    exact hnext (by decide) (by omega) (by omega) (by omega)
  all_goals
    show alignUp n 0x1000 + 0x1000 = alignUp (alignUp n 0x1000 + 0x1000 + 0) _
    exact hnext (by decide) (by omega) (by omega) (by omega)

/-- The symbols of the ELF. -/
def sampleSymbols : List (List Char × Int) := [(['N', 'O', 'R', 'E', 'L', 'O', 'C', '_'], 0)]

theorem sampleElf_csec (hn : 0x80 ≤ n) (entries : List ElfRelocation) :
    (sampleElf n entries).csec = entries.foldlM
      (relocation sampleSymbols (sampleSec n) (sampleSec n .rodata) .rodata)
      fun key => (sampleSec n key).data := by
  unfold Elf.csec
  rw [(sampleElf_placed hn entries).sections]
  -- the other sections have no relocations, so the fold is that of the last section
  exact bind_pure (entries.foldlM
    (relocation sampleSymbols (sampleSec n) (sampleSec n .rodata) .rodata) _)

theorem sampleElf_patches {entries : List ElfRelocation} {tgt : SectionKey} {entry : ElfRelocation}
    (h : (sampleElf n entries).Patches tgt entry) : tgt = .rodata ∧ entry ∈ entries := by
  obtain ⟨hx, hkind, hsect, htgt, hentry, -, -, -⟩ := h
  have hx : _ ∈ [_, _, _, _, _, _, _, _, _, _] := hx
  simp only [mem_cons, not_mem_nil, or_false] at hx
  rcases hx with rfl | rfl | rfl | rfl | rfl | rfl | rfl | rfl | rfl | rfl <;> cases hkind
  cases hsect
  cases htgt
  exact ⟨rfl, hentry⟩

/-! ## Every section at its address -/

/-- **Each section of an NRO is at its address.** The file is written exactly if the image and
`.bss` are below 4 GiB. Wherever it is in memory, the header describes the segments, and the loader
accepts it with its size exactly if it is below 2 GiB. -/
theorem main_layout {elf : Elf} {sec : SectionKey → ElfSection} {bss : ElfSection}
    {csec : SectionKey → List Byte} (h : Placed elf sec bss) (hinside : elf.PatchesInside sec)
    (hcsec : elf.csec = some csec) :
    ((∃ file, main elf = some file) ↔
      bss.addr < 2 ^ 32 ∧ alignUp bss.size 0x1000 < 2 ^ 32) ∧
    ∀ file, main elf = some file → Laid sec csec bss file ∧
      ∀ m : Mem Byte, m.read 0 file.length = file →
        Segmented sec file m ∧ Readable sec file m := by
  have hsized := csec_sized h.sections hinside hcsec
  have hiff := main_eq_some_iff h hsized hcsec
  constructor
  · constructor
    · rintro ⟨file, hfile⟩
      exact ((hiff file).1 hfile).1
    · intro hlt
      exact ⟨_, (hiff _).2 ⟨hlt, rfl⟩⟩
  · intro file hfile
    obtain ⟨⟨hlt, -⟩, rfl⟩ := (hiff file).1 hfile
    exact ⟨imageFile_laid h hsized, fun m hm =>
      ⟨imageFile_segmented h hsized hlt hm, imageFile_readable h hsized hlt hm⟩⟩

/-- With a relocation inside `.rodata`. -/
theorem main_layout_sample :
    ∃ file, main (sampleElf 0x80 [⟨0x1000, 0, rAarch64Abs32, 0⟩]) = some file ∧
      ∀ m : Mem Byte, m.read 0 file.length = file →
        (wordAt m 0x4).toNat = 0x2008 ∧ (nroHeaderAt m 0).Valid (BitVec.ofNat 32 file.length) := by
  have hn : 0x80 ≤ 0x80 := Nat.le_refl _
  have hinside : (sampleElf 0x80 [⟨0x1000, 0, rAarch64Abs32, 0⟩]).PatchesInside
      (sampleSec 0x80) := by
    intro tgt entry hpatch
    obtain ⟨rfl, hentry⟩ := sampleElf_patches hpatch
    cases mem_singleton.1 hentry
    decide
  obtain ⟨hwritten, hfile⟩ := main_layout (sampleElf_placed hn _) hinside (sampleElf_csec hn _)
  obtain ⟨file, hmain⟩ := hwritten.2 (by decide)
  obtain ⟨hlaid, hread⟩ := hfile file hmain
  refine ⟨file, hmain, fun m hm => ?_⟩
  have h := (hread m hm).2
  have hlength : file.length < 2 ^ 31 := by
    rw [hlaid.length]
    decide
  exact ⟨h.moduleHeader, (h.accepted _).2 ⟨rfl, hlength⟩⟩

/-- A relocation behind `.rodata` moves `.rela.dyn`, and an image of 2 GiB is not accepted. -/
theorem main_layout_fails :
    (∃ elf sec bss csec file, Placed elf sec bss ∧ elf.csec = some csec ∧ main elf = some file ∧
      ¬ StandsAt (csec .relaDyn) (sec .relaDyn).addr file) ∧
    ∃ elf sec bss file, Placed elf sec bss ∧ elf.PatchesInside sec ∧ main elf = some file ∧
      ∀ m : Mem Byte, m.read 0 file.length = file → ∀ inSize, ¬ (nroHeaderAt m 0).Valid inSize := by
  constructor
  · have hn : 0x80 ≤ 0x80 := Nat.le_refl _
    have hbyte : (main (sampleElf 0x80 [⟨0x1004, 0, rAarch64Abs64, 0⟩])).map (·[0x1008]?)
      = some (some 0) := by decide +kernel
    obtain ⟨file, hmain, hzero⟩ := Option.map_eq_some_iff.1 hbyte
    refine ⟨_, _, _, _, file, sampleElf_placed hn _, sampleElf_csec hn _, hmain, fun h => ?_⟩
    have hone := h.getElem? (i := 0) (by decide)
    exact absurd (hzero.symm.trans hone) (by decide)
  · have hn : 0x80 ≤ 2 ^ 31 := by decide
    have hinside : (sampleElf (2 ^ 31) []).PatchesInside (sampleSec (2 ^ 31)) := by
      intro tgt entry hpatch
      cases (sampleElf_patches hpatch).2
    have hplaced := sampleElf_placed hn []
    have hcsec := sampleElf_csec hn []
    have hsized := csec_sized hplaced.sections hinside hcsec
    have hlt : (sampleBss (2 ^ 31)).addr < 2 ^ 32 := by decide
    have hmain := (main_eq_some_iff hplaced hsized hcsec _).2 ⟨⟨hlt, by decide⟩, rfl⟩
    refine ⟨_, _, _, _, hplaced, hinside, hmain, fun m hm inSize => ?_⟩
    rw [(imageFile_readable hplaced hsized hlt hm).accepted]
    rintro ⟨-, hsmall⟩
    rw [(imageFile_laid hplaced hsized).length] at hsmall
    exact absurd hsmall (by decide)

end LibTransistor.Nro
