import LibTransistor.Display.Parcel
import LibTransistor.Lib.Align
import Mathlib.Algebra.Ring.Nat

/-!
# Parcels: what is written is read back

A sequence of words and strings is written into one parcel, and read from another that was loaded
with the first one's bytes.

* `Parcel.put` — all that a write does: bytes at the head, and the head behind them. The bytes that
  the head jumps over are `put` as they are (`ParcelItem.write_run`).
* `Parcel.Remains` — the bytes in front of the reading head. Reading a value takes its bytes off
  (`ParcelItem.read_run`).

`parcel_write_inplace` rounds the length up to a multiple of four, and `parcel_read_inplace` does
not. A string of even length takes an odd number of 16-bit words, so behind it the reading head is
two bytes short; the round trip works for exactly the sequences without one
(`parcel_roundTrips_iff`).
-/

namespace LibTransistor

open Fallible List Mem

variable {p q : Parcel}

variable {bytes : List Byte} {m : Mem Byte} {items : List ParcelItem} {ptr : SizeT} {s : CString}

/-! ## Lengths -/

/-- The bytes from `n` to the next multiple of four. -/
def pad4 (n : Nat) : Nat := (4 - n % 4) % 4

theorem add_pad4 (n : Nat) : n + pad4 n = (n + 3) / 4 * 4 := by
  unfold pad4
  omega

theorem toNat_roundUp {x : SizeT} (h : x.toNat + 3 < 2 ^ 64) :
    ((x + 3#64) &&& ~~~3#64).toNat = x.toNat + pad4 x.toNat := by
  have hsum : (x + 3#64).toNat = x.toNat + 3 := Nat.mod_eq_of_lt h
  rw [Align.toNat_and_not (k := 2) rfl, hsum, add_pad4]
  rfl

theorem toNat_add_ofNat {n : Nat} (h : ptr.toNat + n < 2 ^ 64) :
    (ptr + BitVec.ofNat 64 n).toNat = ptr.toNat + n := by
  rw [BitVec.toNat_add, BitVec.toNat_ofNat]
  omega

section StringLength

variable {n : Nat} (h : n ≤ payloadSize)
include h

theorem toNat_stringSize :
    (((BitVec.ofNat 32 n + 1#32) * 2#32).signExtend 64).toNat = 2 * (n + 1) := by
  unfold payloadSize at h
  have hsize : ((BitVec.ofNat 32 n + 1#32) * 2#32).toNat = 2 * (n + 1) := by
    simp only [BitVec.toNat_mul, BitVec.toNat_add, BitVec.toNat_ofNat]
    omega
  rw [Bits.toNat_signExtend_of_lt (by omega), hsize]

theorem toNat_stringRounds : ((BitVec.ofNat 32 n).toInt + 1).toNat = n + 1 := by
  unfold payloadSize at h
  rw [BitVec.toInt_eq_toNat_of_lt (by rw [BitVec.toNat_ofNat]; omega), BitVec.toNat_ofNat]
  omega

end StringLength

@[simp] theorem length_widen (chars : List Byte) : (widen chars).length = 2 * chars.length := by
  induction chars with
  | nil => rfl
  | cons c chars ih =>
    show (c :: 0#8 :: widen chars).length = _
    simp only [length_cons]
    omega

/-! ## The bytes of an item -/

namespace ParcelItem

/-- The bytes that writing an item stores. -/
def encode : ParcelItem → List Byte
  | .u32 value => le32 value
  | .string16 string =>
    le32 (BitVec.ofNat 32 string.bytes.length) ++ widen (string.bytes ++ [0#8])

variable (item : ParcelItem)

/-- The bytes that the writing head jumps over behind them. -/
def padding : Nat := pad4 item.encode.length

/-- How far the writing head moves. -/
def size : Nat := item.encode.length + item.padding

theorem length_encode_string16 (s : CString) :
    (ParcelItem.string16 s).encode.length = 4 + 2 * (s.bytes.length + 1) := by
  show (le32 _ ++ widen (s.bytes ++ [0#8])).length = _
  simp

@[simp] theorem padding_u32 (v : BitVec 32) : (ParcelItem.u32 v).padding = 0 := by
  show pad4 (le32 v).length = 0
  rw [length_le32]
  rfl

theorem padding_string16 (s : CString) :
    (ParcelItem.string16 s).padding = if s.bytes.length % 2 = 1 then 0 else 2 := by
  unfold padding pad4
  rw [length_encode_string16]
  split_ifs <;> omega

theorem padding_eq : item.padding = 0 ∨ item.padding = 2 := by
  cases item with
  | u32 v => exact .inl (padding_u32 v)
  | string16 s =>
    rw [padding_string16]
    exact ite_eq_or_eq _ _ _

end ParcelItem

/-- The bytes that a sequence takes up in a payload. -/
def totalSize (items : List ParcelItem) : Nat := (items.map ParcelItem.size).sum

/-- What a payload that held `m` holds from byte `h` on when `items` have been written there. -/
def layout (m : Mem Byte) : Nat → List ParcelItem → List Byte
  | _, [] => []
  | h, item :: items =>
    item.encode ++ m.read (h + item.encode.length) item.padding ++ layout m (h + item.size) items

@[simp] theorem length_layout (m : Mem Byte) (h : Nat) (items : List ParcelItem) :
    (layout m h items).length = totalSize items := by
  induction items generalizing h with
  | nil => rfl
  | cons item items ih =>
    unfold layout
    rw [length_append, length_append, length_read, ih]
    rfl

theorem layout_congr {m' : Mem Byte} {h : Nat} (hm : ∀ i, h ≤ i → m i = m' i)
    (items : List ParcelItem) : layout m h items = layout m' h items := by
  induction items generalizing h with
  | nil => rfl
  | cons item items ih =>
    unfold layout
    rw [read_congr fun i _ => hm _ (by omega), ih fun i hi => hm i (by omega)]

theorem layout_of_unpadded (m : Mem Byte) (h : Nat) (hpad : ∀ item ∈ items, item.padding = 0) :
    layout m h items = items.flatMap ParcelItem.encode := by
  induction items generalizing h with
  | nil => rfl
  | cons item items ih =>
    unfold layout
    rw [hpad item mem_cons_self, read_zero, append_nil, flatMap_cons,
      ih _ fun item' hmem => hpad item' (mem_cons_of_mem _ hmem)]

/-! ## Writing -/

namespace Parcel

/-- Put `bytes` at the writing head, and the head behind them. -/
def put (p : Parcel) (bytes : List Byte) : Parcel :=
  { p with
    payload := p.payload.write p.writeHead.toNat bytes
    writeHead := p.writeHead + BitVec.ofNat 64 bytes.length }

variable {as bs : List Byte}

theorem toNat_writeHead_put (h : p.writeHead.toNat + as.length < 2 ^ 64) :
    (p.put as).writeHead.toNat = p.writeHead.toNat + as.length := toNat_add_ofNat h

@[simp] theorem put_nil : p.put [] = p := by
  unfold put
  simp

theorem put_put (h : p.writeHead.toNat + as.length < 2 ^ 64) :
    (p.put as).put bs = p.put (as ++ bs) := by
  have hpayload : (p.put as).payload.write (p.put as).writeHead.toNat bs =
      p.payload.write p.writeHead.toNat (as ++ bs) := by
    rw [toNat_writeHead_put h, write_append]
    rfl
  have hhead : (p.put as).writeHead + BitVec.ofNat 64 bs.length =
      p.writeHead + BitVec.ofNat 64 (as ++ bs).length := by
    show p.writeHead + BitVec.ofNat 64 as.length + BitVec.ofNat 64 bs.length = _
    rw [length_append, BitVec.ofNat_add, BitVec.add_assoc]
  calc (p.put as).put bs
      = { p with payload := (p.put as).payload.write (p.put as).writeHead.toNat bs,
                 writeHead := (p.put as).writeHead + BitVec.ofNat 64 bs.length } := rfl
    _ = p.put (as ++ bs) := by rw [hpayload, hhead]; rfl

theorem payload_put_of_ge {i : Nat} (h : p.writeHead.toNat + as.length ≤ i) :
    (p.put as).payload i = p.payload i := write_of_ge _ h

end Parcel

/-- A parcel with another payload. -/
def Parcel.setPayload (p : Parcel) (m : Mem Byte) : Parcel := { p with payload := m }

/-- A parcel whose reading head has been moved on. -/
def Parcel.advance (p : Parcel) (length : SizeT) : Parcel :=
  { p with readHead := p.readHead + length }

theorem Parcel.setPayload_setPayload (p : Parcel) (m m' : Mem Byte) :
    (p.setPayload m).setPayload m' = p.setPayload m' := rfl

theorem storePayload_run (h : ptr.toNat + bytes.length ≤ payloadSize) :
    storePayload ptr bytes p = .ok () (p.setPayload (p.payload.write ptr.toNat bytes)) := by
  unfold storePayload
  rw [failIf_bind_of_not (Nat.not_lt.2 h)]
  rfl

/-- Getting room for some bytes and storing them there puts them, and what the head jumps over. -/
theorem writeInplace_store_run {length : SizeT} (hlength : length.toNat = bytes.length)
    (hfit : p.writeHead.toNat + bytes.length + pad4 bytes.length ≤ payloadSize) :
    (parcelWriteInplace length >>= fun ptr => storePayload ptr bytes) p = .ok ()
      (p.put (bytes ++ p.payload.read (p.writeHead.toNat + bytes.length) (pad4 bytes.length))) := by
  have hsize : payloadSize = 0x200 := rfl
  have hround : (length + 3#64) &&& ~~~3#64 = BitVec.ofNat 64 (bytes.length + pad4 bytes.length) := by
    apply BitVec.eq_of_toNat_eq
    rw [toNat_roundUp (by omega), hlength, BitVec.toNat_ofNat]
    omega
  have hrun : parcelWriteInplace length p = .ok p.writeHead
      { p with writeHead := p.writeHead + ((length + 3#64) &&& ~~~3#64) } := rfl
  rw [bind_of_ok hrun, storePayload_run (by omega), hround]
  unfold Parcel.put Parcel.setPayload
  rw [write_append, ← read_write_of_ge p.payload _ (Nat.le_refl _), write_read,
    length_append, length_read]

theorem parcelWriteU32_run (value : BitVec 32) (hfit : p.writeHead.toNat + 4 ≤ payloadSize) :
    parcelWriteU32 value p = .ok () (p.put (le32 value)) := by
  have hpad : pad4 (le32 value).length = 0 := ParcelItem.padding_u32 value
  unfold parcelWriteU32
  rw [writeInplace_store_run (by rfl) (by rw [hpad]; exact hfit), hpad, read_zero,
    append_nil]

theorem ParcelItem.write_run (item : ParcelItem)
    (hfit : p.writeHead.toNat + item.size ≤ payloadSize) :
    item.write p = .ok ()
      (p.put (item.encode ++ p.payload.read (p.writeHead.toNat + item.encode.length) item.padding)) := by
  have hsize : payloadSize = 0x200 := rfl
  cases item with
  | u32 value =>
    rw [padding_u32]
    refine parcelWriteU32_run value ?_
    rwa [size, padding_u32] at hfit
  | string16 s =>
    have hencode := length_encode_string16 s
    rw [size] at hfit
    have hlen : (widen (s.bytes ++ [0#8])).length = 2 * (s.bytes.length + 1) := by simp
    have hpad : pad4 (2 * (s.bytes.length + 1)) = (ParcelItem.string16 s).padding := by
      unfold padding pad4
      omega
    have hhead : (p.put (le32 (BitVec.ofNat 32 s.bytes.length))).writeHead.toNat =
        p.writeHead.toNat + 4 := Parcel.toNat_writeHead_put (by rw [length_le32]; omega)
    have htake : (s.bytes ++ [0#8]).take ((BitVec.ofNat 32 s.bytes.length).toInt + 1).toNat =
        s.bytes ++ [0#8] := by
      rw [toNat_stringRounds (by omega), take_of_length_le (by simp)]
    show ((parcelWriteU32 _ >>= fun _ => parcelWriteInplace _ >>= fun str16 => storePayload str16 _) :
      ParcelM Unit) p = _
    rw [bind_of_ok (parcelWriteU32_run _ (by omega)), htake,
      writeInplace_store_run (by rw [toNat_stringSize (by omega), hlen])
        (by rw [hlen]; omega),
      Parcel.put_put (by rw [length_le32]; omega), hhead, hlen, hpad, hencode, ← append_assoc,
      ← Nat.add_assoc]
    congr 3
    exact read_congr fun i _ => Parcel.payload_put_of_ge (by rw [length_le32]; omega)

/-- Writing a sequence puts its layout, the old bytes of the payload in the gaps. -/
theorem writeItems_run (hfit : p.writeHead.toNat + totalSize items ≤ payloadSize) :
    writeItems items p = .ok () (p.put (layout p.payload p.writeHead.toNat items)) := by
  have hsize : payloadSize = 0x200 := rfl
  induction items generalizing p with
  | nil =>
    rw [layout, Parcel.put_nil]
    rfl
  | cons item items ih =>
    have htotal : totalSize (item :: items) = item.size + totalSize items := rfl
    set bytes := item.encode ++
      p.payload.read (p.writeHead.toNat + item.encode.length) item.padding
    have hlen : bytes.length = item.size := by
      rw [length_append, length_read]
      rfl
    have hhead : (p.put bytes).writeHead.toNat = p.writeHead.toNat + item.size := by
      rw [Parcel.toNat_writeHead_put (by omega), hlen]
    have hwrite : item.write p = .ok () (p.put bytes) := item.write_run (by omega)
    have hrest : layout (p.put bytes).payload (p.writeHead.toNat + item.size) items =
        layout p.payload (p.writeHead.toNat + item.size) items :=
      layout_congr (fun i hi => Parcel.payload_put_of_ge (by omega)) items
    show ((item.write >>= fun _ => writeItems items) : ParcelM Unit) p = _
    rw [bind_of_ok hwrite, ih (by omega), hhead, hrest, Parcel.put_put (by omega)]
    rfl

/-! ## The flattened parcel -/

/-- `m` is a flattened parcel with the data `bytes`. -/
structure Flattened (m : Mem Byte) (bytes : List Byte) : Prop where
  dataSize : wordAt m 0 = BitVec.ofNat 32 bytes.length
  dataOffset : wordAt m 4 = 0x10#32
  data : m.read 0x10 bytes.length = bytes

theorem Parcel.contents_flattened (hsize : p.dataSize = BitVec.ofNat 32 bytes.length)
    (hoffset : p.dataOffset = 0x10#32) (hdata : p.payload.read 0 bytes.length = bytes) :
    Flattened p.contents bytes := by
  set header := le32 p.dataSize ++ le32 p.dataOffset ++ (le32 p.objectsSize ++ le32 p.objectsOffset)
  have hcontents : p.contents.read 0 header.length = header := read_write_self _ 0 _
  refine ⟨wordAt_eq ?_, wordAt_eq ?_, ?_⟩
  · rw [← hsize]
    exact (read_eq_append (read_eq_append hcontents).1).1
  · rw [← hoffset]
    exact read_mid (le32 p.dataSize) (le32 p.dataOffset) _ hcontents
  · calc p.contents.read 0x10 bytes.length
        = Mem.read (fun i => p.payload (i - 0x10)) 0x10 bytes.length :=
          read_write_of_ge _ _ (Nat.le_refl 0x10)
      _ = p.payload.read 0 bytes.length := by
          unfold Mem.read
          simp
      _ = bytes := hdata

/-- What `parcel_initialize` leaves of a parcel. -/
def Parcel.initialized (p : Parcel) : Parcel :=
  { p with readHead := 0#64, writeHead := 0#64, writingFinalized := false }

/-- What `parcel_finalize_writing` leaves of a parcel. -/
def Parcel.finalized (p : Parcel) : Parcel :=
  { p with
    writingFinalized := true
    dataSize := p.writeHead.setWidth 32
    dataOffset := 0x10#32
    objectsSize := 0#32
    objectsOffset := (0x10#64 + p.writeHead).setWidth 32 }

theorem flattenItems_run (hfit : totalSize items ≤ payloadSize) (p : Parcel) :
    ∃ m p', flattenItems items p = .ok m p' ∧ Flattened m (layout p.payload 0 items) := by
  set bytes := layout p.payload 0 items
  have hinit : parcelInitialize p = .ok () p.initialized := rfl
  have hwrite : writeItems items p.initialized = .ok () (p.initialized.put bytes) :=
    writeItems_run (by rw [show p.initialized.writeHead.toNat = 0 from rfl, Nat.zero_add]; exact hfit)
  refine ⟨(p.initialized.put bytes).finalized.contents, (p.initialized.put bytes).finalized, ?_,
    Parcel.contents_flattened ?_ rfl ?_⟩
  · unfold flattenItems
    rw [bind_of_ok hinit, bind_of_ok hwrite]
    rfl
  · show (0#64 + BitVec.ofNat 64 bytes.length).setWidth 32 = _
    rw [BitVec.zero_add, BitVec.setWidth_ofNat_of_le (by decide)]
  · exact read_write_self p.payload 0 bytes

/-! ## Reading -/

/-- The bytes in front of the reading head are `bytes`. -/
structure Parcel.Remains (q : Parcel) (bytes : List Byte) : Prop where
  writeHead : q.writeHead.toNat = q.readHead.toNat + bytes.length
  fits : q.writeHead.toNat ≤ payloadSize
  payload : q.payload.read q.readHead.toNat bytes.length = bytes

/-- The parcel after a flattened one has been loaded. -/
def Parcel.loaded (q : Parcel) (m : Mem Byte) : Parcel := { q with
  dataSize := wordAt m 0
  dataOffset := wordAt m 4
  objectsSize := wordAt m 8
  objectsOffset := wordAt m 12
  payload := q.payload.write 0 (m.read (wordAt m 4).toNat (wordAt m 0).toNat)
  writeHead := (wordAt m 0).setWidth 64
  readHead := 0#64
  writingFinalized := true }

theorem parcelLoad_of_le (h : (wordAt m 0).toNat ≤ payloadSize) (q : Parcel) :
    parcelLoad m q = .ok () (q.loaded m) := by
  unfold parcelLoad
  rw [modify_bind_run, failIf_bind_of_not (by omega)]
  rfl

theorem parcelLoad_run (hm : Flattened m bytes) (hfit : bytes.length ≤ payloadSize) (q : Parcel) :
    ∃ q', parcelLoad m q = .ok () q' ∧ q'.Remains bytes := by
  have hsize : payloadSize = 0x200 := rfl
  have htoNat : (wordAt m 0).toNat = bytes.length := by
    rw [hm.dataSize, BitVec.toNat_ofNat]
    omega
  refine ⟨_, parcelLoad_of_le (by omega) q, ?_, ?_, ?_⟩
  · show ((wordAt m 0).setWidth 64).toNat = (0#64).toNat + bytes.length
    rw [BitVec.toNat_setWidth, BitVec.toNat_ofNat]
    omega
  · show ((wordAt m 0).setWidth 64).toNat ≤ payloadSize
    rw [BitVec.toNat_setWidth]
    omega
  · show (q.payload.write 0 (m.read (wordAt m 4).toNat (wordAt m 0).toNat)).read 0 bytes.length
      = bytes
    rw [htoNat, hm.dataOffset, show (0x10#32).toNat = 0x10 from rfl, hm.data]
    exact read_write_self _ 0 _

theorem Parcel.Remains.readRemaining_eq_zero_iff (h : q.Remains bytes) :
    parcelReadRemaining q = 0 ↔ bytes = [] := by
  have hsub : parcelReadRemaining q = 0 ↔ q.writeHead = q.readHead := by
    unfold parcelReadRemaining
    constructor
    · intro heq
      rw [← BitVec.sub_add_cancel q.writeHead q.readHead, heq]
      exact BitVec.zero_add _
    · intro heq
      rw [heq]
      exact BitVec.sub_self _
  rw [hsub, ← BitVec.toNat_inj, h.writeHead, ← length_eq_zero_iff]
  omega

theorem Parcel.Remains.advance {as bs : List Byte} (h : q.Remains (as ++ bs)) {length : SizeT}
    (hlength : length.toNat = as.length) : (q.advance length).Remains bs := by
  obtain ⟨hwrite, hfits, hpayload⟩ := h
  rw [length_append] at hwrite
  have hhead : (q.readHead + length).toNat = q.readHead.toNat + as.length := by
    rw [BitVec.toNat_add, hlength]
    exact Nat.mod_eq_of_lt (by omega)
  refine ⟨?_, hfits, ?_⟩
  · show q.writeHead.toNat = (q.readHead + length).toNat + bs.length
    omega
  · show q.payload.read (q.readHead + length).toNat bs.length = bs
    rw [hhead]
    exact (read_eq_append hpayload).2

/-- A change of bytes behind the head is not seen by later reads. -/
theorem Parcel.Remains.congr (h : q.Remains bytes)
    (hm : ∀ i, q.readHead.toNat ≤ i → m i = q.payload i) : (q.setPayload m).Remains bytes :=
  ⟨h.writeHead, h.fits, (read_congr fun _ _ => hm _ (Nat.le_add_right _ _)).trans h.payload⟩

theorem parcelReadInplace_run (length : SizeT) (q : Parcel) :
    parcelReadInplace length q = .ok q.readHead (q.advance length) := rfl

theorem Parcel.Remains.readU32 {w : BitVec 32} (h : q.Remains (le32 w ++ bytes)) :
    parcelReadU32 q = .ok w (q.advance 4#64) := by
  have hhead := h.writeHead
  have hfits := h.fits
  rw [length_append, length_le32] at hhead
  unfold parcelReadU32
  rw [bind_of_ok (parcelReadInplace_run _ q)]
  unfold loadPayload32
  rw [failIf_bind_of_not (by omega), ← wordAt_eq (read_eq_append h.payload).1]
  rfl

/-! ## Condensing a string -/

/-- Every second byte from `a` on, `n` of them. -/
def evens (m : Mem Byte) (a : Nat) : Nat → List Byte
  | 0 => []
  | n + 1 => m a :: evens m (a + 2) n

theorem evens_congr {m' : Mem Byte} {a : Nat} (h : ∀ i, a ≤ i → m i = m' i) (n : Nat) :
    evens m a n = evens m' a n := by
  induction n generalizing a with
  | zero => rfl
  | succ n ih => rw [evens, evens, h a (Nat.le_refl a), ih fun i hi => h i (by omega)]

theorem evens_of_read {a : Nat} {chars : List Byte}
    (h : m.read a (widen chars).length = widen chars) : evens m a chars.length = chars := by
  induction chars generalizing a with
  | nil => rfl
  | cons c chars ih =>
    have hsplit := h
    obtain ⟨hc, hchars⟩ := read_eq_append hsplit
    have hcell : [m a, m (a + 1)] = [c, 0#8] := hc
    have hrest : evens m (a + 2) chars.length = chars := ih hchars
    rw [length_cons, evens, hrest, (List.cons.inj hcell).1]

section Condense

variable {str16 : SizeT} {i n : Nat}

theorem loadPayload16_run (h : ptr.toNat + 2 ≤ payloadSize) :
    loadPayload16 ptr q = .ok (q.payload (ptr.toNat + 1) ++ q.payload ptr.toNat) q := by
  unfold loadPayload16
  rw [failIf_bind_of_not (Nat.not_lt.2 h)]
  rfl

theorem loadPayload16_outOfBounds (h : payloadSize < ptr.toNat + 2) :
    loadPayload16 ptr q = .error .outOfBounds q := by
  unfold loadPayload16
  rw [failIf_bind_of h]

/-- One round moves one character down. -/
theorem condense_succ (h : str16.toNat + 2 * (i + 1) ≤ payloadSize) :
    condense str16 i (n + 1) q = condense str16 (i + 1) n
      (q.setPayload (q.payload.write (str16.toNat + i) [q.payload (str16.toNat + 2 * i)])) := by
  have hsize : payloadSize = 0x200 := rfl
  have heven : (str16 + BitVec.ofNat 64 (2 * i)).toNat = str16.toNat + 2 * i :=
    toNat_add_ofNat (by omega)
  have hcell : (str16 + BitVec.ofNat 64 i).toNat = str16.toNat + i := toNat_add_ofNat (by omega)
  rw [condense, bind_of_ok (loadPayload16_run (by omega)), BitVec.setWidth_append_eq_right,
    bind_of_ok (storePayload_run (by rw [length_singleton]; omega)), hcell, heven]

/-- The loop reads ahead of what it writes, so it reads the bytes as they were. -/
theorem condense_run (h : str16.toNat + 2 * (i + n) ≤ payloadSize) :
    condense str16 i n q = .ok () (q.setPayload
      (q.payload.write (str16.toNat + i) (evens q.payload (str16.toNat + 2 * i) n))) := by
  induction n generalizing i q with
  | zero =>
    rw [evens, write_nil]
    rfl
  | succ n ih =>
    set m := q.payload.write (str16.toNat + i) [q.payload (str16.toNat + 2 * i)]
    have hahead : evens m (str16.toNat + 2 * (i + 1)) n = evens q.payload (str16.toNat + 2 * i + 2) n :=
      evens_congr (fun j hj => write_of_ge _ (by rw [length_singleton]; omega)) n
    have hpayload : (q.setPayload m).payload = m := rfl
    rw [condense_succ (by omega), ih (by omega), Parcel.setPayload_setPayload, hpayload, hahead,
      evens, ← singleton_append, write_append, length_singleton, Nat.add_assoc _ i 1]

theorem condense_outOfBounds (hin : str16.toNat + 2 * i ≤ payloadSize)
    (hout : payloadSize < str16.toNat + 2 * (i + n)) :
    ∃ q', condense str16 i n q = .error .outOfBounds q' := by
  have hsize : payloadSize = 0x200 := rfl
  induction n generalizing i q with
  | zero => omega
  | succ n ih =>
    by_cases hround : str16.toNat + 2 * (i + 1) ≤ payloadSize
    · rw [condense_succ hround]
      exact ih hround (by omega)
    · have heven : (str16 + BitVec.ofNat 64 (2 * i)).toNat = str16.toNat + 2 * i :=
        toNat_add_ofNat (by omega)
      refine ⟨q, ?_⟩
      rw [condense, bind_of_error (loadPayload16_outOfBounds (by omega))]

end Condense

/-! ## Reading an item back -/

theorem derefString_run (hq : q.payload = m.write ptr.toNat (s.bytes ++ [0#8]))
    (hfit : ptr.toNat + (s.bytes ++ [0#8]).length ≤ payloadSize) :
    derefString ptr q = .ok s.bytes q := by
  obtain ⟨k, hk⟩ : ∃ k, payloadSize - ptr.toNat = (s.bytes ++ [0#8]).length + k :=
    ⟨payloadSize - ptr.toNat - (s.bytes ++ [0#8]).length, by omega⟩
  unfold derefString
  rw [get_bind_run, hk, read_add, hq, read_write_self, append_assoc,
    singleton_append, stringAt_append_nul s.no_nul]
  rfl

section ReadItem

variable {rest : List Byte}

theorem Parcel.Remains.readString (h : q.Remains ((ParcelItem.string16 s).encode ++ rest)) :
    ∃ ptr q', parcelReadString q = .ok (some ptr) q' ∧ derefString ptr q' = .ok s.bytes q' ∧
      q'.Remains rest := by
  have hsize : payloadSize = 0x200 := rfl
  -- the length, and what is behind it
  rw [ParcelItem.encode, append_assoc] at h
  have hlength := h.readU32
  have h₁ : (q.advance 4#64).Remains (widen (s.bytes ++ [0#8]) ++ rest) := h.advance rfl
  set q₁ := q.advance 4#64
  have hlen : (widen (s.bytes ++ [0#8])).length = 2 * (s.bytes.length + 1) := by simp
  have hhead₁ := h₁.writeHead
  have hfits₁ := h₁.fits
  rw [length_append] at hhead₁
  set size := ((BitVec.ofNat 32 s.bytes.length + 1#32) * 2#32).signExtend 64
  have hadvance : size.toNat = 2 * (s.bytes.length + 1) := toNat_stringSize (by omega)
  have h₂ : (q₁.advance size).Remains rest := h₁.advance (hadvance.trans hlen.symm)
  have hhead₂ : q₁.writeHead.toNat = (q₁.advance size).readHead.toNat + rest.length := h₂.writeHead
  -- the characters
  have hchars : evens q₁.payload q₁.readHead.toNat (s.bytes.length + 1) = s.bytes ++ [0#8] := by
    have hread := evens_of_read (read_eq_append h₁.payload).1
    rwa [length_append] at hread
  set m := q₁.payload.write q₁.readHead.toNat (s.bytes ++ [0#8]) with hm
  have hcondense : condense q₁.readHead 0 (s.bytes.length + 1) (q₁.advance size) =
      .ok () ((q₁.advance size).setPayload m) := by
    rw [condense_run (by omega)]
    show EStateM.Result.ok () ((q₁.advance size).setPayload
      (q₁.payload.write q₁.readHead.toNat (evens q₁.payload q₁.readHead.toNat _))) = _
    rw [hchars]
  refine ⟨q₁.readHead, (q₁.advance size).setPayload m, ?_, derefString_run hm ?_, h₂.congr ?_⟩
  · have hne : BitVec.ofNat 32 s.bytes.length ≠ -1#32 := by
      intro heq
      have hnat := congrArg BitVec.toNat heq
      simp at hnat
      omega
    unfold parcelReadString
    rw [bind_of_ok hlength, if_neg hne, bind_of_ok (parcelReadInplace_run _ _),
      toNat_stringRounds (by omega), bind_of_ok hcondense]
    rfl
  · rw [length_append, length_singleton]
    omega
  · intro i hi
    refine write_of_ge _ ?_
    rw [length_append, length_singleton]
    omega

theorem ParcelItem.read_run (item : ParcelItem) (h : q.Remains (item.encode ++ rest)) :
    ∃ q', item.kind.read q = .ok item.value q' ∧ q'.Remains rest := by
  cases item with
  | u32 value =>
    refine ⟨q.advance 4#64, ?_, h.advance rfl⟩
    show ((parcelReadU32 >>= fun v => pure (ParcelValue.u32 v)) : ParcelM ParcelValue) q = _
    rw [bind_of_ok h.readU32]
    rfl
  | string16 s =>
    obtain ⟨ptr, q', hread, hderef, hrest⟩ := h.readString
    refine ⟨q', ?_, hrest⟩
    show ParcelKind.string16.read q = _
    rw [ParcelKind.read, bind_of_ok hread]
    dsimp only
    rw [bind_of_ok hderef]
    rfl

/-- What was written without gaps is read back, and the head is behind it. -/
theorem readItems_run (h : q.Remains (items.flatMap ParcelItem.encode ++ rest)) :
    ∃ q', readItems (items.map ParcelItem.kind) q = .ok (items.map ParcelItem.value) q' ∧
      q'.Remains rest := by
  induction items generalizing q with
  | nil => exact ⟨q, rfl, h⟩
  | cons item items ih =>
    rw [flatMap_cons, append_assoc] at h
    obtain ⟨q₁, hitem, h₁⟩ := item.read_run h
    obtain ⟨q₂, hitems, h₂⟩ := ih h₁
    refine ⟨q₂, ?_, h₂⟩
    rw [map_cons, readItems, bind_of_ok hitem, bind_of_ok hitems]
    rfl

end ReadItem

/-! ## Reading behind a padded string -/

section Misread

variable {q' : Parcel} {β : Byte}

theorem readU32_early {b₀ b₁ : Byte} (h : q.Remains (β :: β :: b₀ :: b₁ :: bytes)) :
    parcelReadU32 q = .ok (ofBytes b₁ b₀ β β) (q.advance 4#64) := by
  have hle : le32 (ofBytes b₁ b₀ β β) = [β, β, b₀, b₁] := by
    have hbe := be32_ofBytes b₁ b₀ β β
    simp only [be32, List.cons.injEq, and_true] at hbe
    unfold le32
    rw [hbe.1, hbe.2.1, hbe.2.2.1, hbe.2.2.2]
  have hremains : q.Remains (le32 (ofBytes b₁ b₀ β β) ++ bytes) := by
    rw [hle]
    exact h
  exact hremains.readU32

theorem read_u32_early {v : BitVec 32} (hβ : β ≠ v.extractLsb' 0 8)
    (h : q.Remains ([β, β] ++ (le32 v ++ bytes))) {value : ParcelValue}
    (hread : ParcelKind.u32.read q = .ok value q') : value ≠ .u32 v := by
  rw [ParcelKind.read, bind_of_ok (readU32_early h)] at hread
  obtain ⟨rfl, -⟩ := pure_eq_ok.1 hread
  intro heq
  have hword := ParcelValue.u32.inj heq
  apply hβ
  have hbe := be32_ofBytes (v.extractLsb' 8 8) (v.extractLsb' 0 8) β β
  rw [hword] at hbe
  simp only [be32, List.cons.injEq, and_true] at hbe
  exact hbe.2.2.2.symm

theorem read_string_early
    (h : q.Remains ([0xFF#8, 0xFF#8] ++ ((ParcelItem.string16 s).encode ++ bytes)))
    {value : ParcelValue} : ParcelKind.string16.read q ≠ .ok value q' := by
  have hsize : payloadSize = 0x200 := rfl
  have hhead := h.writeHead
  have hfits := h.fits
  rw [length_append, length_append, ParcelItem.length_encode_string16] at hhead
  set n := BitVec.ofNat 32 s.bytes.length
  set length := ofBytes (n.extractLsb' 8 8) (n.extractLsb' 0 8) 0xFF#8 0xFF#8
  have hread : parcelReadU32 q = .ok length (q.advance 4#64) := readU32_early h
  -- the padding is the low half of the length that is read, and the rest is small
  have hlow : 65535 ≤ length.toNat := by
    rw [toNat_ofBytes]
    simp only [BitVec.toNat_ofNat]
    omega
  have hhigh : length.toNat < 2 ^ 31 := by
    have hbyte : (n.extractLsb' 8 8).toNat < 128 := by
      rw [BitVec.extractLsb'_toNat, BitVec.toNat_ofNat]
      omega
    rw [toNat_ofBytes]
    omega
  have hne : length ≠ -1#32 := by
    rintro heq
    rw [heq] at hhigh
    exact absurd hhigh (by decide)
  have hhead₁ : (q.advance 4#64).readHead.toNat = q.readHead.toNat + 4 :=
    toNat_add_ofNat (by omega)
  have hrounds : (length.toInt + 1).toNat = length.toNat + 1 := by
    rw [BitVec.toInt_eq_toNat_of_lt (by omega)]
    omega
  intro hok
  obtain ⟨ptr, q₂, hstring, -⟩ := bind_eq_ok.1 hok
  unfold parcelReadString at hstring
  rw [bind_of_ok hread, if_neg hne, bind_of_ok (parcelReadInplace_run _ _), hrounds] at hstring
  obtain ⟨q₃, hcondense⟩ : ∃ q₃, condense (q.advance 4#64).readHead 0 (length.toNat + 1)
      ((q.advance 4#64).advance (((length + 1#32) * 2#32).signExtend 64)) = .error .outOfBounds q₃ :=
    condense_outOfBounds (by omega) (by omega)
  rw [bind_of_error hcondense] at hstring
  cases hstring

/-- Items laid out in a payload full of `β`, with `gap` of it in front, are not read back. -/
def Misread (items : List ParcelItem) (gap : Nat) (β : Byte) : Prop :=
  ∀ k (q q' : Parcel), q.Remains (replicate gap β ++ layout (fun _ => β) k items) →
    readItems (items.map ParcelItem.kind) q = .ok (items.map ParcelItem.value) q' →
      parcelReadRemaining q' ≠ 0

/-- Items that lie behind two bytes of padding are not read back, for some padding. -/
theorem exists_padding_misread (items : List ParcelItem) : ∃ β, Misread items 2 β := by
  cases items with
  | nil =>
    refine ⟨0#8, fun k q q' h hread => ?_⟩
    obtain ⟨-, rfl⟩ := pure_eq_ok.1 hread
    exact fun hzero => nomatch h.readRemaining_eq_zero_iff.1 hzero
  | cons item items =>
    cases item with
    | u32 v =>
      refine ⟨v.extractLsb' 0 8 + 1#8, fun k q q' h hread => ?_⟩
      obtain ⟨value, q₁, hvalue, hrest⟩ := bind_eq_ok.1 hread
      obtain ⟨values, q₂, -, hcons⟩ := bind_eq_ok.1 hrest
      have hβ : v.extractLsb' 0 8 + 1#8 ≠ v.extractLsb' 0 8 := by simp
      exact absurd (List.cons.inj (pure_eq_ok.1 hcons).1).1.symm (read_u32_early hβ h hvalue)
    | string16 s =>
      refine ⟨0xFF#8, fun k q q' h hread => ?_⟩
      rw [layout, append_assoc] at h
      obtain ⟨value, q₁, hvalue, -⟩ := bind_eq_ok.1 hread
      exact absurd hvalue (read_string_early h)

/-- Reading the first item is correct, and what is read next starts with its padding. -/
theorem readItems_cons_inv {item : ParcelItem} {k : Nat}
    (h : q.Remains (layout (fun _ => β) k (item :: items)))
    (hread : readItems ((item :: items).map ParcelItem.kind) q =
      .ok ((item :: items).map ParcelItem.value) q') :
    ∃ q₁ : Parcel,
      q₁.Remains (replicate item.padding β ++ layout (fun _ => β) (k + item.size) items) ∧
        readItems (items.map ParcelItem.kind) q₁ = .ok (items.map ParcelItem.value) q' := by
  rw [layout, append_assoc] at h
  obtain ⟨q₁, hitem, h₁⟩ := item.read_run h
  rw [map_cons, readItems, bind_of_ok hitem] at hread
  obtain ⟨values, q₂, hvalues, hcons⟩ := bind_eq_ok.1 hread
  obtain ⟨heq, rfl⟩ := pure_eq_ok.1 hcons
  refine ⟨q₁, ?_, ?_⟩
  · have hpadding : Mem.read (fun _ => β) (k + item.encode.length) item.padding =
        replicate item.padding β := by
      unfold Mem.read
      rw [map_const', length_range]
    rw [← hpadding]
    exact h₁
  · rw [(List.cons.inj heq).2]
    exact hvalues

/-- Items with a padded one among them are not read back, for some old contents of the parcel. -/
theorem exists_misread (hpad : ¬ ∀ item ∈ items, item.padding = 0) : ∃ β, Misread items 0 β := by
  induction items with
  | nil => exact absurd (fun _ hmem => nomatch hmem) hpad
  | cons item items ih =>
    obtain ⟨β, hβ⟩ : ∃ β, Misread items item.padding β := by
      rcases item.padding_eq with hzero | htwo
      · -- the padded item is a later one
        rw [hzero]
        exact ih fun hall => hpad (forall_mem_cons.2 ⟨hzero, hall⟩)
      · rw [htwo]
        exact exists_padding_misread items
    refine ⟨β, fun k q q' h hread => ?_⟩
    obtain ⟨q₁, h₁, hread₁⟩ := readItems_cons_inv h hread
    exact hβ _ q₁ q' h₁ hread₁

end Misread

/-! ## The round trip -/

/-- The values of a sequence come back in order and nothing remains, whatever the two parcels held
before. -/
def RoundTrips (items : List ParcelItem) : Prop :=
  ∀ p q : Parcel, roundTrip items p q = .ok (items.map ParcelItem.value, 0#64)

theorem unpadded_iff :
    (∀ item ∈ items, item.padding = 0) ↔
      ∀ s, ParcelItem.string16 s ∈ items → s.bytes.length % 2 = 1 := by
  have hodd : ∀ s, (ParcelItem.string16 s).padding = 0 ↔ s.bytes.length % 2 = 1 := by
    intro s
    rw [ParcelItem.padding_string16]
    split_ifs with h <;> simp [h]
  constructor
  · intro h s hmem
    exact (hodd s).1 (h _ hmem)
  · intro h item hmem
    cases item with
    | u32 v => exact ParcelItem.padding_u32 v
    | string16 s => exact (hodd s).2 (h s hmem)

/-- A sequence that fits gets to the reader as it is laid out, and the rest is reading. -/
theorem roundTrip_run (hfit : totalSize items ≤ payloadSize) (p q : Parcel) :
    ∃ q₁ : Parcel, q₁.Remains (layout p.payload 0 items) ∧
      Ends (readItems (items.map ParcelItem.kind) q₁)
        (fun values q₂ => roundTrip items p q = .ok (values, parcelReadRemaining q₂))
        (fun e _ => roundTrip items p q = .error e) := by
  obtain ⟨m, p', hflatten, hm⟩ := flattenItems_run hfit p
  obtain ⟨q₁, hload, hq₁⟩ := parcelLoad_run hm (by rw [length_layout]; exact hfit) q
  refine ⟨q₁, hq₁, ?_⟩
  unfold roundTrip
  rw [hflatten]
  dsimp only
  unfold loadItems
  rw [bind_of_ok hload]
  cases readItems (items.map ParcelItem.kind) q₁ with
  | ok values q₂ => rfl
  | error e q₂ => rfl

/-- **Round trip.** Of the sequences that fit a payload, exactly those without a string of even
length are read back as they were written. -/
theorem parcel_roundTrips_iff {items : List ParcelItem} (hfit : totalSize items ≤ payloadSize) :
    RoundTrips items ↔ ∀ s, ParcelItem.string16 s ∈ items → s.bytes.length % 2 = 1 := by
  rw [← unpadded_iff]
  constructor
  · intro h
    by_contra hpad
    obtain ⟨β, hβ⟩ := exists_misread hpad
    let p : Parcel := ⟨0#32, 0#32, 0#32, 0#32, fun _ => β, 0#64, 0#64, false⟩
    obtain ⟨q, hq, hround⟩ := roundTrip_run hfit p p
    rw [h p p] at hround
    cases hread : readItems (items.map ParcelItem.kind) q with
    | error e q' =>
      rw [hread] at hround
      cases hround
    | ok values q' =>
      rw [hread] at hround
      obtain ⟨rfl, hzero⟩ := Prod.mk.inj (Except.ok.inj hround)
      exact hβ 0 q q' hq hread hzero.symm
  · intro hpad p q
    obtain ⟨q₁, hq₁, hround⟩ := roundTrip_run hfit p q
    rw [layout_of_unpadded _ _ hpad, ← append_nil (items.flatMap _)] at hq₁
    obtain ⟨q₂, hread, hq₂⟩ := readItems_run hq₁
    rw [hread] at hround
    rw [hround, hq₂.readRemaining_eq_zero_iff.2 rfl]
    rfl

/-- A parcel that was all zeros before it was initialized. -/
def zeroParcel : Parcel := ⟨0#32, 0#32, 0#32, 0#32, fun _ => 0#8, 0#64, 0#64, false⟩

/-- A word between two strings of odd length. -/
def oddStrings : List ParcelItem :=
  [.string16 ⟨[0x61#8], by decide⟩, .u32 0xBEEF#32, .string16 ⟨[0x62#8, 0x63#8, 0x64#8], by decide⟩]

/-- They are read back as they were written, and with the empty string in front they are not. -/
theorem oddStrings_roundTrips :
    RoundTrips oddStrings ∧ ¬ RoundTrips (.string16 ⟨[], by decide⟩ :: oddStrings) := by
  refine ⟨(parcel_roundTrips_iff (by decide)).2 fun s hs => ?_, fun h => ?_⟩
  · simp only [oddStrings, mem_cons, ParcelItem.string16.injEq, reduceCtorEq, not_mem_nil, or_false,
      false_or] at hs
    rcases hs with rfl | rfl <;> rfl
  · exact absurd ((parcel_roundTrips_iff (by decide)).1 h _ mem_cons_self) (by decide)

/-- A word behind the empty string is read as another word, and two bytes remain. -/
theorem emptyString_misread :
    totalSize [.string16 ⟨[], by decide⟩, .u32 1#32] ≤ payloadSize ∧
      roundTrip [.string16 ⟨[], by decide⟩, .u32 1#32] zeroParcel zeroParcel =
        .ok ([.string (some []), .u32 0x10000#32], 2#64) := by
  decide +kernel

end LibTransistor
