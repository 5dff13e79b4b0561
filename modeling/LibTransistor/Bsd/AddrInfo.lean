import LibTransistor.Lib.Bytes
import LibTransistor.Lib.Region
import LibTransistor.Results

/-!
# Packing lists of addresses

`bsd_ai_pack` and `bsd_ai_unpack` of `lib/ipc/bsd.c` write a list of `struct addrinfo` to a buffer
and read it back.

**Memory.** What lies behind a pointer is the list of bytes that may be accessed there: the bytes
from `buf` on, and the block behind `ai_addr` or `ai_canonname` of a node. A node that is unpacked
into may come with blocks of its own, which are written to. An access outside of a block is a
`fault`.

**Lists.** A list of nodes is its first node and the list of those that `ai_next` leads to.
-/

namespace LibTransistor

open Fallible Region

/-! ## Data -/

/-- `struct addrinfo`, less `ai_next`. -/
structure AddrInfo where
  flags : BitVec 32
  family : BitVec 32
  socktype : BitVec 32
  protocol : BitVec 32
  addrlen : BitVec 32
  /-- The block behind `ai_addr`, or `NULL`. -/
  addr : Option (List Byte)
  /-- The block behind `ai_canonname`, or `NULL`. -/
  canonname : Option (List Byte)
  deriving DecidableEq

/-- A node after `memset(ai, 0, sizeof(struct addrinfo))`. -/
def AddrInfo.zeroed : AddrInfo := ⟨0, 0, 0, 0, 0, none, none⟩

def afInet : BitVec 32 := 2#32
def afInet6 : BitVec 32 := 28#32

def aiMagic : BitVec 32 := 0xBEEFCAFE#32

inductive BsdError
  | result (r : ResultT)
  | fault
  deriving DecidableEq

/-! ## Packing -/

/-- What runs at a pointer into the buffer. -/
abbrev PackM := EStateM BsdError (List Byte)

variable (ai : AddrInfo)

/-- `ai_packed_header`, in network byte order. -/
def aiPackedHeader : List Byte :=
  be32 aiMagic ++ be32 ai.flags ++ be32 ai.family ++ be32 ai.socktype ++ be32 ai.protocol ++
    be32 ai.addrlen

/-- A `struct sockaddr_in` with `sin_len` and `sin_zero` cleared and the bytes of `sin_port` and
`sin_addr` swapped, as both functions write it. -/
def swappedSockaddrIn : List Byte → Option (List Byte)
  | _ :: family :: p₀ :: p₁ :: a₀ :: a₁ :: a₂ :: a₃ :: _ =>
    some ([0#8, family, p₁, p₀, a₃, a₂, a₁, a₀] ++ List.replicate 8 0#8)
  | _ => none

/-- The part of `bsd_ai_pack` that writes the address. -/
def packAddress : PackM Unit :=
  if ai.addrlen = 0 then store .fault (List.replicate 4 0#8)
  else if ai.family = afInet then
    match swappedSockaddrIn (ai.addr.getD []) with
    | some bytes => store .fault bytes
    | none => throw .fault
  else if ai.family = afInet6 then throw (.result Err.unimplemented)
  else if (ai.addr.getD []).length < ai.addrlen.toNat then throw .fault
  else store .fault ((ai.addr.getD []).take ai.addrlen.toNat)

/-- The room that the address is checked to have. -/
def AddrInfo.addressRoom : BitVec 64 :=
  if ai.addrlen = 0 then 4#64 else ai.addrlen.setWidth 64

/-- The canonical name; `none` if its block has no terminator. -/
def AddrInfo.name (ai : AddrInfo) : Option (List Byte) :=
  match ai.canonname with
  | none => some []
  | some block => stringAt block

/-- `bsd_ai_pack` for one node; `rest` is what follows behind the record, with the size that is
left. -/
def packRecord (size : BitVec 64) (rest : BitVec 64 → PackM Unit) : PackM Unit := do
  failIf (size < 24#64) (.result Err.bsdBufferTooSmall)
  store .fault (aiPackedHeader ai)
  advance 24 do
    failIf (size - 24#64 < ai.addressRoom) (.result Err.bsdBufferTooSmall)
    packAddress ai
    -- without an address, `buf` stays at the four zero bytes
    advance ai.addrlen.toNat do
      match ai.name with
      | none => throw .fault
      | some name =>
        let size := size - 24#64 - ai.addressRoom
        failIf (size.toNat < name.length + 1) (.result Err.bsdBufferTooSmall)
        store .fault (name ++ [0#8])
        advance (name.length + 1) (rest (size - BitVec.ofNat 64 (name.length + 1)))

/-- What `bsd_ai_pack` writes behind the last record. -/
def packTerminator (size : BitVec 64) : PackM Unit := do
  failIf (size < 4#64) (.result Err.bsdBufferTooSmall)
  store .fault (List.replicate 4 0#8)

/-- `bsd_ai_pack` of the list with first node `ai`. -/
def bsdAiPack : AddrInfo → List AddrInfo → BitVec 64 → PackM Unit
  | ai, [], size => packRecord ai size packTerminator
  | ai, ai' :: next, size => packRecord ai size (bsdAiPack ai' next)

/-! ## Unpacking -/

/-- `malloc`: the block that the call at a time returns, with whatever is in it. -/
structure Malloc where
  block : Nat → Nat → Option (List Byte)
  length_block : ∀ time n b, block time n = some b → b.length = n

/-- The state is the time. -/
abbrev UnpackM := EStateM BsdError Nat

def Malloc.call (m : Malloc) (n : Nat) : UnpackM (List Byte) := fun time =>
  match m.block time n with
  | some b => .ok b (time + 1)
  | none => .error (.result Err.outOfMemory) (time + 1)

/-- The block that is already there, or a new one. -/
def Malloc.blockFor (m : Malloc) (old : Option (List Byte)) (n : Nat) : UnpackM (List Byte) :=
  match old with
  | some b => pure b
  | none => m.call n

/-- `memcpy(block, bytes, ...)`. -/
def overwrite (block bytes : List Byte) : UnpackM (List Byte) :=
  if bytes.length ≤ block.length then pure (bytes ++ block.drop bytes.length) else throw .fault

/-- The `switch` of `bsd_ai_unpack`, which reads an address into `block`. -/
def readAddress (block buf : List Byte) : UnpackM (List Byte) :=
  if ai.family = afInet then
    match swappedSockaddrIn buf with
    | some bytes => overwrite block bytes
    | none => throw .fault
  else if ai.family = afInet6 then throw (.result Err.unimplemented)
  else if buf.length < ai.addrlen.toNat then throw .fault
  else overwrite block (buf.take ai.addrlen.toNat)

/-- The part of `bsd_ai_unpack` that reads the address at `buf`. -/
def unpackAddress (m : Malloc) (ai : AddrInfo) (buf : List Byte) : UnpackM AddrInfo :=
  if ai.addrlen = 0 then pure { ai with addr := none }
  else do
    let block ← m.blockFor ai.addr ai.addrlen.toNat
    let block ← readAddress ai block buf
    return { ai with addr := some block }

/-- The first word at a pointer, in network byte order. -/
def readBe32 : List Byte → UnpackM (BitVec 32)
  | b₃ :: b₂ :: b₁ :: b₀ :: _ => pure (ofBytes b₃ b₂ b₁ b₀)
  | _ => throw .fault

/-- The part of `bsd_ai_unpack` that reads the header at `buf`. -/
def unpackHeader (buf : List Byte) : UnpackM AddrInfo := do
  let magic ← readBe32 buf
  let flags ← readBe32 (buf.drop 4)
  let family ← readBe32 (buf.drop 8)
  let socktype ← readBe32 (buf.drop 12)
  let protocol ← readBe32 (buf.drop 16)
  let addrlen ← readBe32 (buf.drop 20)
  failIf (magic ≠ aiMagic) (.result Err.bsdInvalidMagic)
  return { ai with
    flags := flags, family := family, socktype := socktype, protocol := protocol,
    addrlen := addrlen }

/-- The part of `bsd_ai_unpack` that reads the canonical name at `buf`; also returns how far it
reaches. -/
def unpackName (m : Malloc) (ai : AddrInfo) (buf : List Byte) : UnpackM (AddrInfo × Nat) :=
  match stringAt buf with
  | none => throw .fault
  | some [] => pure ({ ai with canonname := none }, 1)
  | some name => do
    let block ← m.blockFor ai.canonname (name.length + 1)
    let block ← overwrite block (name ++ [0#8])
    return ({ ai with canonname := some block }, name.length + 1)

/-- `bsd_ai_unpack` up to the test for a further record: the node, and the pointer and the size that
are left. What a call that fails leaves in the node is not kept. -/
def unpackRecord (m : Malloc) (ai : AddrInfo) (buf : List Byte) (size : BitVec 64) :
    UnpackM (AddrInfo × List Byte × BitVec 64) := do
  failIf (size < 24#64) (.result Err.bsdBufferTooSmall)
  let ai ← unpackHeader ai buf
  let buf := buf.drop 24
  let ai ← unpackAddress m ai buf
  let buf := buf.drop ai.addressRoom.toNat
  let (ai, n) ← unpackName m ai buf
  return (ai, buf.drop n, size - 24#64 - ai.addressRoom - BitVec.ofNat 64 n)

/-- `sizeof(struct addrinfo)`. -/
def sizeofAddrinfo : Nat := 48

/-- The node that the next record goes to, and those after it. -/
def nextNode (m : Malloc) : List AddrInfo → UnpackM (AddrInfo × List AddrInfo)
  | ai :: next => pure (ai, next)
  | [] => do
    let _ ← m.call sizeofAddrinfo
    return (.zeroed, [])

/-- `bsd_ai_unpack` into the list with first node `ai`, for at most `fuel` records; returns the list
afterwards. -/
def unpackFrom (m : Malloc) :
    Nat → AddrInfo → List AddrInfo → List Byte → BitVec 64 → Int → UnpackM (List AddrInfo)
  | 0, _, _, _, _, _ => throw .fault
  | fuel + 1, ai, next, buf, size, limit =>
    if limit = 0 then pure (ai :: next)
    else do
      let (ai, buf, size) ← unpackRecord m ai buf size
      let word ← readBe32 buf
      if word = aiMagic then
        let (node, nodes) ← nextNode m next
        let rest ← unpackFrom m fuel node nodes buf size (limit - 1)
        return ai :: rest
      else return [ai]

/-- `bsd_ai_unpack`. A record takes more than one byte, so the fuel is enough. -/
def bsdAiUnpack (m : Malloc) (ai : AddrInfo) (next : List AddrInfo) (buf : List Byte)
    (size : BitVec 64) (limit : Int) : UnpackM (List AddrInfo) :=
  unpackFrom m (buf.length + 1) ai next buf size limit

end LibTransistor
