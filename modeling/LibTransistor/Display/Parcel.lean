import LibTransistor.Lib.Bytes
import LibTransistor.Results

/-!
# Parcels

`lib/display/parcel.c`: a block of 0x200 bytes with a head for writing and a head for reading.

None of the functions checks a bound ("bounds checking is the caller's responsibility"), so an
access outside of the payload is the outcome `ParcelError.outOfBounds`. Words are little endian, and
`char` is unsigned, as on the console's processor.

`parcel_initialize` does not clear the payload: what a parcel held before is what it holds in the
bytes that the writing head jumps over.
-/

namespace LibTransistor

open Fallible

abbrev SizeT := BitVec 64

/-- `sizeof(parcel->contents.payload)`. -/
def payloadSize : Nat := 0x200

/-- `parcel_t`. -/
structure Parcel where
  dataSize : BitVec 32
  dataOffset : BitVec 32
  objectsSize : BitVec 32
  objectsOffset : BitVec 32
  payload : Mem Byte
  readHead : SizeT
  writeHead : SizeT
  writingFinalized : Bool

/-- How a parcel function can end without a result. -/
inductive ParcelError
  | result (r : ResultT)
  /-- An access outside of the payload. -/
  | outOfBounds
  deriving DecidableEq

abbrev ParcelM := EStateM ParcelError Parcel

/-! ## Access to the payload -/

/-- Store `bytes` through a pointer to byte `ptr` of the payload. -/
def storePayload (ptr : SizeT) (bytes : List Byte) : ParcelM Unit := do
  failIf (payloadSize < ptr.toNat + bytes.length) .outOfBounds
  modify fun p => { p with payload := p.payload.write ptr.toNat bytes }

/-- `*(uint32_t*) (payload + ptr)`. -/
def loadPayload32 (ptr : SizeT) : ParcelM (BitVec 32) := do
  failIf (payloadSize < ptr.toNat + 4) .outOfBounds
  return wordAt (← get).payload ptr.toNat

/-- `*(uint16_t*) (payload + ptr)`. -/
def loadPayload16 (ptr : SizeT) : ParcelM (BitVec 16) := do
  failIf (payloadSize < ptr.toNat + 2) .outOfBounds
  let m := (← get).payload
  return m (ptr.toNat + 1) ++ m ptr.toNat

/-! ## Writing -/

def parcelInitialize : ParcelM Unit :=
  modify fun p => { p with readHead := 0#64, writeHead := 0#64, writingFinalized := false }

/-- The pointer is the byte of the payload that it points at. -/
def parcelWriteInplace (length : SizeT) : ParcelM SizeT := do
  let ptr := (← get).writeHead
  modify fun p => { p with writeHead := p.writeHead + ((length + 3#64) &&& ~~~3#64) }
  return ptr

def parcelWriteU32 (value : BitVec 32) : ParcelM Unit := do
  let ptr ← parcelWriteInplace 4#64
  storePayload ptr (le32 value)

/-- The bytes of characters stored as 16-bit words. -/
def widen (chars : List Byte) : List Byte := chars.flatMap fun c => [c, 0#8]

/-- `length` is an `int32_t`, and the loop runs for `0 ≤ i ≤ length`. -/
def parcelWriteString16 (string : CString) : ParcelM Unit := do
  let length := BitVec.ofNat 32 string.bytes.length
  parcelWriteU32 length
  let str16 ← parcelWriteInplace (((length + 1#32) * 2#32).signExtend 64)
  storePayload str16 (widen ((string.bytes ++ [0#8]).take (length.toInt + 1).toNat))

/-- The bytes of `parcel->contents`. -/
def Parcel.contents (p : Parcel) : Mem Byte :=
  Mem.write (fun i => p.payload (i - 0x10)) 0
    (le32 p.dataSize ++ le32 p.dataOffset ++ le32 p.objectsSize ++ le32 p.objectsOffset)

/-- The flattened parcel and its length. -/
def parcelFinalizeWriting : ParcelM (Mem Byte × SizeT) := do
  modify fun p => { p with
    writingFinalized := true
    dataSize := p.writeHead.setWidth 32
    dataOffset := 0x10#32
    objectsSize := 0#32
    objectsOffset := (0x10#64 + p.writeHead).setWidth 32 }
  let p ← get
  return (p.contents, 0x10#64 + p.writeHead)

/-! ## Reading -/

/-- The header has already been copied when the size is refused. -/
def parcelLoad (flattened : Mem Byte) : ParcelM Unit := do
  modify fun p => { p with
    dataSize := wordAt flattened 0
    dataOffset := wordAt flattened 4
    objectsSize := wordAt flattened 8
    objectsOffset := wordAt flattened 12 }
  failIf (payloadSize < (wordAt flattened 0).toNat) (.result Err.parcelDataTooBig)
  modify fun p => { p with
    payload := p.payload.write 0 (flattened.read p.dataOffset.toNat p.dataSize.toNat)
    writeHead := p.dataSize.setWidth 64
    readHead := 0#64
    writingFinalized := true }

def parcelReadRemaining (p : Parcel) : SizeT := p.writeHead - p.readHead

/-- The pointer is the byte of the payload that it points at. -/
def parcelReadInplace (length : SizeT) : ParcelM SizeT := do
  let ptr := (← get).readHead
  modify fun p => { p with readHead := p.readHead + length }
  return ptr

def parcelReadU32 : ParcelM (BitVec 32) := do
  let ptr ← parcelReadInplace 4#64
  loadPayload32 ptr

/-- The loop of `parcel_read_string` from `i` on, with `n` rounds to go. -/
def condense (str16 : SizeT) (i : Nat) : Nat → ParcelM Unit
  | 0 => pure ()
  | n + 1 => do
    let c ← loadPayload16 (str16 + BitVec.ofNat 64 (2 * i))
    storePayload (str16 + BitVec.ofNat 64 i) [c.setWidth 8]
    condense str16 (i + 1) n

/-- A pointer into the payload, or `NULL`. -/
def parcelReadString : ParcelM (Option SizeT) := do
  let length ← parcelReadU32
  if length = -1#32 then
    return none
  else
    let str16 ← parcelReadInplace (((length + 1#32) * 2#32).signExtend 64)
    condense str16 0 (length.toInt + 1).toNat
    return some str16

/-! ## Sequences of values -/

/-- A value to write. -/
inductive ParcelItem
  | u32 (value : BitVec 32)
  | string16 (string : CString)

/-- A read to make. -/
inductive ParcelKind
  | u32
  | string16

/-- What a caller gets from a read; a string is what stands behind the pointer at that time. -/
inductive ParcelValue
  | u32 (value : BitVec 32)
  | string (bytes : Option (List Byte))
  deriving DecidableEq

def ParcelItem.kind : ParcelItem → ParcelKind
  | .u32 _ => .u32
  | .string16 _ => .string16

def ParcelItem.value : ParcelItem → ParcelValue
  | .u32 value => .u32 value
  | .string16 string => .string (some string.bytes)

def ParcelItem.write : ParcelItem → ParcelM Unit
  | .u32 value => parcelWriteU32 value
  | .string16 string => parcelWriteString16 string

/-- The C string behind a pointer into the payload. -/
def derefString (ptr : SizeT) : ParcelM (List Byte) := do
  let p ← get
  match stringAt (p.payload.read ptr.toNat (payloadSize - ptr.toNat)) with
  | some s => return s
  | none => throw .outOfBounds

def ParcelKind.read : ParcelKind → ParcelM ParcelValue
  | .u32 => do return .u32 (← parcelReadU32)
  | .string16 => do
    match ← parcelReadString with
    | none => return .string none
    | some ptr => do return .string (some (← derefString ptr))

def writeItems : List ParcelItem → ParcelM Unit
  | [] => pure ()
  | item :: items => do item.write; writeItems items

def readItems : List ParcelKind → ParcelM (List ParcelValue)
  | [] => pure []
  | kind :: kinds => do
    let value ← kind.read
    let values ← readItems kinds
    return value :: values

/-- A new parcel with `items` in it, flattened. -/
def flattenItems (items : List ParcelItem) : ParcelM (Mem Byte) := do
  parcelInitialize
  writeItems items
  let (flattened, _) ← parcelFinalizeWriting
  return flattened

/-- A parcel loaded from flattened bytes, read as a sequence of the given kinds. -/
def loadItems (flattened : Mem Byte) (kinds : List ParcelKind) : ParcelM (List ParcelValue) := do
  parcelLoad flattened
  readItems kinds

/-- Write `items` into `p`, load them into `q` and read them there: the values, and the bytes that
remain to be read. -/
def roundTrip (items : List ParcelItem) (p q : Parcel) : Except ParcelError (List ParcelValue × SizeT) :=
  match flattenItems items p with
  | .error e _ => .error e
  | .ok flattened _ =>
    match loadItems flattened (items.map ParcelItem.kind) q with
    | .error e _ => .error e
    | .ok values q' => .ok (values, parcelReadRemaining q')

end LibTransistor
