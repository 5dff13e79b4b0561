import LibTransistor.Bsd.AddrInfo
import Mathlib.Data.List.Forall2

/-!
# Unpacking what was packed

`bsd_ai_pack` writes one record per node and a terminator (`encode`), but it does not move past the
four zero bytes that stand for a missing address, while `bsd_ai_unpack` skips them.

* `bsdAiPack_writes` — what is in the buffer after a successful `bsd_ai_pack`.
* `unpackRecord_of_address` — a record with an address is read back.
* `recovers_without_address_iff` — a record without one is read back only if nothing follows it.

`addrinfo_recovered_iff` puts the records together.
-/

namespace LibTransistor

open Fallible Region List

variable {size : BitVec 64} {ai : AddrInfo} {buf tail : List Byte}

variable {time' : Nat} {s block : List Byte} {ai' : AddrInfo} {size' : BitVec 64}

/-! ## The nodes in question -/

namespace AddrInfo

/-- An internet address, an address of another family except `AF_INET6`, or no address; and a
canonical name that is `NULL` or a string that is not empty. -/
structure Valid (ai : AddrInfo) : Prop where
  address :
    (ai.family = afInet ∧ ai.addrlen = 16#32 ∧ ∃ bs, ai.addr = some bs ∧ 16 ≤ bs.length) ∨
    (ai.family ≠ afInet ∧ ai.family ≠ afInet6 ∧
      ∃ bs, ai.addr = some bs ∧ ai.addrlen.toNat ≤ bs.length) ∨
    (ai.addrlen = 0 ∧ ai.addr = none)
  name : ∀ block, ai.canonname = some block → ∃ s, stringAt block = some s ∧ s ≠ []

/-- The bytes of the address, without `sin_len` and `sin_zero` of an internet address. -/
def address (ai : AddrInfo) : List Byte :=
  let bytes := (ai.addr.getD []).take ai.addrlen.toNat
  if ai.family = afInet then (bytes.drop 1).take 7 else bytes

/-- The two nodes say the same. -/
structure Same (a b : AddrInfo) : Prop where
  flags : a.flags = b.flags
  family : a.family = b.family
  socktype : a.socktype = b.socktype
  protocol : a.protocol = b.protocol
  addrlen : a.addrlen = b.addrlen
  address : a.address = b.address
  canonname : a.canonname.isSome = b.canonname.isSome
  name : a.name = b.name

/-- The bytes that are packed for the address. -/
def packedAddress (ai : AddrInfo) : List Byte :=
  if ai.addrlen = 0 then []
  else if ai.family = afInet then (swappedSockaddrIn (ai.addr.getD [])).getD []
  else (ai.addr.getD []).take ai.addrlen.toNat

/-- The canonical name, empty for `NULL`. -/
def string (ai : AddrInfo) : List Byte := ai.name.getD []

end AddrInfo

/-- A record. -/
def encodeRecord (ai : AddrInfo) : List Byte :=
  aiPackedHeader ai ++ ai.packedAddress ++ (ai.string ++ [0#8])

/-- The records of a list, and the terminator. -/
def encode : List AddrInfo → List Byte
  | [] => List.replicate 4 0#8
  | ai :: next => encodeRecord ai ++ encode next

/-- The size that `bsd_ai_pack` asks for. -/
def room : List AddrInfo → Nat
  | [] => 4
  | ai :: next => 24 + ai.addressRoom.toNat + (ai.string.length + 1) + room next

@[simp] theorem length_aiPackedHeader (ai : AddrInfo) : (aiPackedHeader ai).length = 24 := rfl

theorem swappedSockaddrIn_of_le (bs : List Byte) (h : 8 ≤ bs.length) :
    ∃ out, swappedSockaddrIn bs = some out ∧ out.length = 16 := by
  match bs, h with
  | _ :: _ :: _ :: _ :: _ :: _ :: _ :: _ :: _, _ => exact ⟨_, rfl, rfl⟩

namespace AddrInfo

theorem name_of_null (h : ai.canonname = none) : ai.name = some [] := by
  unfold name
  rw [h]

theorem name_of_block (h : ai.canonname = some block) : ai.name = stringAt block := by
  unfold name
  rw [h]

theorem string_eq (h : ai.name = some s) : ai.string = s := by
  unfold string
  rw [h, Option.getD_some]

theorem Valid.name_cases (hv : ai.Valid) :
    ai.canonname = none ∧ ai.name = some [] ∨
    ∃ block, ai.canonname = some block ∧ ai.name = some ai.string ∧ stringAt block = some ai.string ∧
      ai.string ≠ [] := by
  cases hc : ai.canonname with
  | none => exact .inl ⟨rfl, name_of_null hc⟩
  | some block =>
    obtain ⟨s, hs, hne⟩ := hv.name block hc
    have hname : ai.name = some s := (name_of_block hc).trans hs
    rw [string_eq hname]
    exact .inr ⟨block, rfl, hname, hs, hne⟩

theorem Valid.name_eq (hv : ai.Valid) : ai.name = some ai.string := by
  rcases hv.name_cases with ⟨-, hname⟩ | ⟨-, -, hname, -⟩
  · rw [string_eq hname]
    exact hname
  · exact hname

theorem Valid.canonname_isSome (hv : ai.Valid) : ai.canonname.isSome = !ai.string.isEmpty := by
  rcases hv.name_cases with ⟨hnull, hname⟩ | ⟨_, hblock, -, -, hne⟩
  · rw [string_eq hname, hnull]
    rfl
  · rw [hblock]
    simpa using hne

theorem Valid.no_nul (hv : ai.Valid) : 0#8 ∉ ai.string := by
  rcases hv.name_cases with ⟨-, hname⟩ | ⟨_, -, -, hstring, -⟩
  · rw [string_eq hname]
    exact not_mem_nil
  · exact not_mem_stringAt hstring

theorem address_of_zero (ai : AddrInfo) (h : ai.addrlen = 0) : ai.address = [] := by
  unfold address
  rw [h]
  simp

theorem addressRoom_of_ne (h : ai.addrlen ≠ 0) : ai.addressRoom.toNat = ai.addrlen.toNat := by
  unfold addressRoom
  rw [if_neg h, BitVec.toNat_setWidth, Nat.mod_eq_of_lt (by omega)]

/-- The addresses that are there, and what is packed for them. -/
theorem Valid.address_cases (hv : ai.Valid) (h0 : ai.addrlen ≠ 0) :
    (ai.family = afInet ∧ ai.addrlen.toNat = 16 ∧ ∃ bs, ai.addr = some bs ∧
      swappedSockaddrIn bs = some ai.packedAddress ∧ ai.packedAddress.length = 16) ∨
    (ai.family ≠ afInet ∧ ai.family ≠ afInet6 ∧ ∃ bs, ai.addr = some bs ∧
      ai.addrlen.toNat ≤ bs.length ∧ ai.packedAddress = bs.take ai.addrlen.toNat) := by
  unfold packedAddress
  rw [if_neg h0]
  rcases hv.address with ⟨hfam, hlen, bs, hbs, hle⟩ | ⟨hfam, hfam6, bs, hbs, hle⟩ | ⟨hlen, -⟩
  · obtain ⟨out, hout, hlength⟩ := swappedSockaddrIn_of_le bs (by omega)
    rw [if_pos hfam, hbs, Option.getD_some, hout, hlen]
    exact .inl ⟨hfam, rfl, bs, rfl, hout, hlength⟩
  · rw [if_neg hfam, hbs]
    exact .inr ⟨hfam, hfam6, bs, rfl, hle, rfl⟩
  · exact absurd hlen h0

theorem Valid.length_packedAddress (hv : ai.Valid) :
    ai.packedAddress.length = ai.addrlen.toNat := by
  by_cases h0 : ai.addrlen = 0
  · unfold packedAddress
    rw [h0]
    rfl
  · rcases hv.address_cases h0 with ⟨-, hlen, _, -, -, hlength⟩ | ⟨-, -, bs, -, hle, hpacked⟩
    · rw [hlength, hlen]
    · rw [hpacked, length_take, Nat.min_eq_left hle]

theorem Valid.packAddress_eq (hv : ai.Valid) (h0 : ai.addrlen ≠ 0) :
    packAddress ai = store .fault ai.packedAddress := by
  unfold packAddress
  rw [if_neg h0]
  rcases hv.address_cases h0 with ⟨hfam, -, bs, hbs, hout, -⟩ | ⟨hfam, hfam6, bs, hbs, hle, hpacked⟩
  · rw [if_pos hfam, hbs, Option.getD_some, hout]
  · rw [if_neg hfam, if_neg hfam6, hbs, Option.getD_some, if_neg (by omega), hpacked]

end AddrInfo

/-! ## What is packed -/

theorem length_encode (next : List AddrInfo) : 4 ≤ (encode next).length := by
  cases next with
  | nil => exact Nat.le_refl 4
  | cons ai next =>
    rw [encode, encodeRecord, length_append, length_append, length_append,
      length_aiPackedHeader]
    omega

/-- One record: the name overwrites the four bytes of a missing address. -/
theorem packRecord_writes (hv : ai.Valid) {rest : BitVec 64 → PackM Unit} {bytes : List Byte}
    (hrest : ∀ size, Writes (rest size) bytes) (hlen : 4 ≤ bytes.length) (size : BitVec 64) :
    Writes (packRecord ai size rest) (encodeRecord ai ++ bytes) := by
  have hname : Writes (do
      failIf ((size - 24#64 - ai.addressRoom).toNat < ai.string.length + 1)
        (.result Err.bsdBufferTooSmall)
      store .fault (ai.string ++ [0#8])
      advance (ai.string.length + 1) (rest (size - 24#64 - ai.addressRoom -
        BitVec.ofNat 64 (ai.string.length + 1))) : PackM Unit) ((ai.string ++ [0#8]) ++ bytes) :=
    ((hrest _).behind (by simp)).guarded
  unfold packRecord encodeRecord
  rw [hv.name_eq, append_assoc, append_assoc]
  refine (Writes.behind (Writes.guarded ?_) rfl).guarded
  by_cases h0 : ai.addrlen = 0
  · have hnone : ai.packedAddress = [] := if_pos h0
    have hstore : packAddress ai = store .fault (List.replicate 4 0#8) := if_pos h0
    rw [hnone, hstore, h0]
    exact hname.over (by simp; omega)
  · rw [hv.packAddress_eq h0]
    exact hname.behind hv.length_packedAddress.symm

theorem bsdAiPack_writes {next : List AddrInfo} (hv : ∀ n ∈ ai :: next, n.Valid) (size : BitVec 64) :
    Writes (bsdAiPack ai next size) (encode (ai :: next)) := by
  induction next generalizing ai size with
  | nil =>
    exact packRecord_writes (hv ai mem_cons_self) (fun _ => (writes_store _ _).guarded)
      (length_encode []) size
  | cons ai' next ih =>
    exact packRecord_writes (hv ai mem_cons_self)
      (fun size => ih (fun n hn => hv n (mem_cons_of_mem _ hn)) size) (length_encode _) size

/-- The size that is left behind a record. -/
def sizeAfter (ai : AddrInfo) (size : BitVec 64) : BitVec 64 :=
  size - 24#64 - ai.addressRoom - BitVec.ofNat 64 (ai.string.length + 1)

theorem toNat_sizeAfter (h : 24 + ai.addressRoom.toNat + (ai.string.length + 1) ≤ size.toNat) :
    (sizeAfter ai size).toNat =
      size.toNat - (24 + ai.addressRoom.toNat + (ai.string.length + 1)) := by
  have hn : (BitVec.ofNat 64 (ai.string.length + 1)).toNat = ai.string.length + 1 :=
    Nat.mod_eq_of_lt (by omega)
  have h24 : (24#64 : BitVec 64).toNat ≤ size.toNat := by
    show 24 ≤ size.toNat
    omega
  have hsub₁ := BitVec.toNat_sub_of_le h24
  have hsub₂ : (size - 24#64 - ai.addressRoom).toNat = size.toNat - 24 - ai.addressRoom.toNat := by
    rw [BitVec.toNat_sub_of_le (by rw [BitVec.le_def, hsub₁]; show _ ≤ size.toNat - 24; omega), hsub₁]
    rfl
  unfold sizeAfter
  rw [BitVec.toNat_sub_of_le (by rw [BitVec.le_def]; omega)]
  omega

theorem packRecord_room (hv : ai.Valid) {rest : BitVec 64 → PackM Unit} {r r' : List Byte}
    (h : packRecord ai size rest r = .ok () r') :
    24 + ai.addressRoom.toNat + (ai.string.length + 1) ≤ size.toNat ∧
      ∃ t t', rest (sizeAfter ai size) t = .ok () t' := by
  unfold packRecord at h
  rw [hv.name_eq] at h
  obtain ⟨h24, h⟩ := failIf_bind_eq_ok.1 h
  obtain ⟨_, u, -, h⟩ := bind_eq_ok.1 h
  obtain ⟨t, h, -⟩ := advance_eq_ok.1 h
  obtain ⟨haddr, h⟩ := failIf_bind_eq_ok.1 h
  obtain ⟨_, u', -, h⟩ := bind_eq_ok.1 h
  obtain ⟨t', h, -⟩ := advance_eq_ok.1 h
  obtain ⟨hname, h⟩ := failIf_bind_eq_ok.1 h
  obtain ⟨_, u'', -, h⟩ := bind_eq_ok.1 h
  obtain ⟨t'', h, -⟩ := advance_eq_ok.1 h
  refine ⟨?_, _, _, h⟩
  rw [BitVec.lt_def, Nat.not_lt] at h24 haddr
  have hsub := BitVec.toNat_sub_of_le h24
  rw [BitVec.toNat_sub_of_le haddr, hsub] at hname
  simp only [BitVec.toNat_ofNat] at h24 haddr hname
  omega

theorem room_le_of_ok {next : List AddrInfo} (hv : ∀ n ∈ ai :: next, n.Valid) {r r' : List Byte}
    (h : bsdAiPack ai next size r = .ok () r') : room (ai :: next) ≤ size.toNat := by
  induction next generalizing ai size r r' with
  | nil =>
    obtain ⟨hle, t, t', hrest⟩ := packRecord_room (hv ai mem_cons_self) h
    have hfour := (failIf_bind_eq_ok.1 hrest).1
    rw [BitVec.lt_def, toNat_sizeAfter hle] at hfour
    simp only [BitVec.toNat_ofNat] at hfour
    simp only [room]
    omega
  | cons ai' next ih =>
    obtain ⟨hle, t, t', hrest⟩ := packRecord_room (hv ai mem_cons_self) h
    have hroom := ih (fun n hn => hv n (mem_cons_of_mem _ hn)) hrest
    rw [toNat_sizeAfter hle] at hroom
    rw [room]
    omega

/-! ## Reading a record back -/

/-- No call of `malloc` fails. -/
def Malloc.Succeeds (m : Malloc) : Prop := ∀ time n, (m.block time n).isSome

section Unpack

variable {m : Malloc} {time : Nat}

theorem Malloc.Succeeds.call (hm : m.Succeeds) (n time : Nat) :
    ∃ b, m.call n time = .ok b (time + 1) ∧ b.length = n := by
  obtain ⟨b, hb⟩ := Option.isSome_iff_exists.1 (hm time n)
  refine ⟨b, ?_, m.length_block time n b hb⟩
  unfold Malloc.call
  rw [hb]

theorem readBe32_be32 (w : BitVec 32) : readBe32 (be32 w ++ tail) time = .ok w time := by
  show EStateM.Result.ok (ofBytes _ _ _ _) time = .ok w time
  rw [ofBytes_be32]

/-- A node with the header of `ai`, an address and a canonical name. -/
def decoded (ai : AddrInfo) (addr canonname : Option (List Byte)) : AddrInfo :=
  { ai with addr := addr, canonname := canonname }

theorem unpackHeader_eq :
    unpackHeader .zeroed (aiPackedHeader ai ++ tail) time = .ok (decoded ai none none) time := by
  simp only [unpackHeader, aiPackedHeader, be32, cons_append, nil_append,
    drop_succ_cons, drop_zero, readBe32, ofBytes_be32]
  rfl

theorem swappedSockaddrIn_swapped {bs out : List Byte} (h : swappedSockaddrIn bs = some out)
    (tail : List Byte) :
    ∃ out', swappedSockaddrIn (out ++ tail) = some out' ∧ out'.length = 16 ∧
      (out'.drop 1).take 7 = (bs.drop 1).take 7 := by
  unfold swappedSockaddrIn at h
  split at h
  · cases h
    exact ⟨_, rfl, rfl, rfl⟩
  · cases h

theorem overwrite_eq_ok {bytes : List Byte} (h : block.length = bytes.length) :
    overwrite block bytes time = .ok bytes time := by
  unfold overwrite
  rw [if_pos (Nat.le_of_eq h.symm), ← h, drop_length, append_nil]
  rfl

theorem readAddress_eq (hv : ai.Valid) (h0 : ai.addrlen ≠ 0)
    (hblock : block.length = ai.addrlen.toNat) :
    ∃ bs, readAddress (decoded ai none none) block (ai.packedAddress ++ tail) time = .ok bs time ∧
      (decoded ai (some bs) none).address = ai.address := by
  have hlength := hv.length_packedAddress
  unfold readAddress
  rcases hv.address_cases h0 with ⟨hfam, hlen, bs, hbs, hout, -⟩ | ⟨hfam, hfam6, bs, hbs, -, hpacked⟩
  · -- the two bytes of the port are swapped back
    obtain ⟨out, hout, hlen', htake⟩ := swappedSockaddrIn_swapped hout tail
    refine ⟨out, ?_, ?_⟩
    · rw [if_pos (show (decoded ai none none).family = afInet from hfam), hout]
      exact overwrite_eq_ok (by rw [hblock, hlen', hlen])
    · show (if ai.family = afInet then ((out.take ai.addrlen.toNat).drop 1).take 7 else _) = _
      unfold AddrInfo.address
      rw [if_pos hfam, if_pos hfam, hlen, hbs, take_of_length_le (Nat.le_of_eq hlen'), htake,
        drop_take, take_take]
      rfl
  · have hshort : ¬ (ai.packedAddress ++ tail).length < (decoded ai none none).addrlen.toNat := by
      show ¬ _ < ai.addrlen.toNat
      rw [length_append]
      omega
    have htake : (ai.packedAddress ++ tail).take (decoded ai none none).addrlen.toNat =
        ai.packedAddress := take_left' hlength
    refine ⟨ai.packedAddress, ?_, ?_⟩
    · rw [if_neg (show (decoded ai none none).family ≠ afInet from hfam),
        if_neg (show (decoded ai none none).family ≠ afInet6 from hfam6), if_neg hshort, htake]
      exact overwrite_eq_ok (hblock.trans hlength.symm)
    · show (if ai.family = afInet then _ else ai.packedAddress.take ai.addrlen.toNat) = _
      unfold AddrInfo.address
      rw [if_neg hfam, if_neg hfam, hpacked, hbs, Option.getD_some, take_take, Nat.min_self]

theorem unpackAddress_eq (hm : m.Succeeds) (hv : ai.Valid) (h0 : ai.addrlen ≠ 0) (tail : List Byte)
    (time : Nat) :
    ∃ bs, unpackAddress m (decoded ai none none) (ai.packedAddress ++ tail) time =
        .ok (decoded ai (some bs) none) (time + 1) ∧
      (decoded ai (some bs) none).address = ai.address := by
  obtain ⟨block, hcall, hblock⟩ := hm.call ai.addrlen.toNat time
  obtain ⟨bs, hread, haddress⟩ := readAddress_eq hv h0 hblock
  refine ⟨bs, ?_, haddress⟩
  unfold unpackAddress
  rw [if_neg (show (decoded ai none none).addrlen ≠ 0 from h0)]
  show (m.call ai.addrlen.toNat >>= _) time = _
  rw [bind_of_ok hcall, bind_of_ok hread]
  rfl

theorem unpackName_eq (hm : m.Succeeds) (ai : AddrInfo) (addr : Option (List Byte))
    (hs : stringAt buf = some s) (time : Nat) :
    ∃ c time', unpackName m (decoded ai addr none) buf time =
        .ok (decoded ai addr c, s.length + 1) time' ∧
      c.isSome = !s.isEmpty ∧ (decoded ai addr c).name = some s := by
  unfold unpackName
  rw [hs]
  cases s with
  | nil => exact ⟨none, time, rfl, rfl, rfl⟩
  | cons b s =>
    obtain ⟨block, hcall, hblock⟩ := hm.call ((b :: s).length + 1) time
    have hlen : block.length = (b :: s ++ [0#8]).length := by rw [hblock]; simp
    refine ⟨some (b :: s ++ [0#8]), time + 1, ?_, rfl, ?_⟩
    · show (m.call ((b :: s).length + 1) >>= _) time = _
      rw [bind_of_ok hcall, bind_of_ok (overwrite_eq_ok hlen)]
      rfl
    · exact stringAt_append_nul (not_mem_stringAt hs) []

theorem same_decoded (hv : ai.Valid) {addr c : Option (List Byte)}
    (haddress : (decoded ai addr none).address = ai.address) (hsome : c.isSome = !ai.string.isEmpty)
    (hname : (decoded ai addr c).name = some ai.string) : ai.Same (decoded ai addr c) where
  flags := rfl
  family := rfl
  socktype := rfl
  protocol := rfl
  addrlen := rfl
  address := haddress.symm
  canonname := hv.canonname_isSome.trans hsome.symm
  name := hv.name_eq.trans hname.symm

theorem unpackRecord_eq (hsize : 24 ≤ size.toNat) {d d' : AddrInfo} {n time₁ time₂ : Nat}
    (haddr : unpackAddress m (decoded ai none none) buf time = .ok d time₁)
    (hname : unpackName m d (buf.drop d.addressRoom.toNat) time₁ = .ok (d', n) time₂) :
    unpackRecord m .zeroed (aiPackedHeader ai ++ buf) size time =
      .ok (d', (buf.drop d.addressRoom.toNat).drop n,
        size - 24#64 - d'.addressRoom - BitVec.ofNat 64 n) time₂ := by
  have hguard : ¬ size < 24#64 := by
    rw [BitVec.lt_def, Nat.not_lt]
    exact hsize
  unfold unpackRecord
  rw [failIf_bind_of_not hguard, bind_of_ok unpackHeader_eq]
  rw [show (aiPackedHeader ai ++ buf).drop 24 = buf from rfl, bind_of_ok haddr, bind_of_ok hname]
  rfl

/-- A record with an address is read back, and leaves what follows it. -/
theorem unpackRecord_of_address (hm : m.Succeeds) (hv : ai.Valid) (h0 : ai.addrlen ≠ 0)
    (hsize : 24 ≤ size.toNat) (tail : List Byte) (time : Nat) :
    ∃ ai' time', unpackRecord m .zeroed (encodeRecord ai ++ tail) size time =
      .ok (ai', tail, sizeAfter ai size) time' ∧ ai.Same ai' := by
  obtain ⟨bs, haddr, haddress⟩ := unpackAddress_eq hm hv h0 (ai.string ++ [0#8] ++ tail) time
  have hroom : (ai.packedAddress ++ (ai.string ++ [0#8] ++ tail)).drop ai.addressRoom.toNat =
      ai.string ++ 0#8 :: tail := by
    rw [AddrInfo.addressRoom_of_ne h0, ← hv.length_packedAddress, drop_left,
      append_assoc]
    rfl
  obtain ⟨c, time', hname, hsome, hstring⟩ := unpackName_eq hm ai (some bs)
    (stringAt_append_nul hv.no_nul tail) (time + 1)
  have hrun := unpackRecord_eq hsize haddr (by
    rw [show (decoded ai (some bs) none).addressRoom = ai.addressRoom from rfl, hroom]
    exact hname)
  rw [show (decoded ai (some bs) none).addressRoom = ai.addressRoom from rfl, hroom] at hrun
  refine ⟨decoded ai (some bs) c, time', ?_, ?_⟩
  · rw [encodeRecord, append_assoc, append_assoc, hrun, ← singleton_append,
      ← append_assoc, drop_left' (by simp)]
    rfl
  · exact same_decoded hv haddress hsome hstring

theorem addressRoom_without_address (h0 : ai.addrlen = 0) :
    (decoded ai none none).addressRoom.toNat = 4 := by
  show ai.addressRoom.toNat = 4
  unfold AddrInfo.addressRoom
  rw [if_pos h0]
  rfl

theorem unpackAddress_without_address (h0 : ai.addrlen = 0) (buf : List Byte) (time : Nat) :
    unpackAddress m (decoded ai none none) buf time = .ok (decoded ai none none) time := by
  unfold unpackAddress
  rw [if_pos (show (decoded ai none none).addrlen = 0 from h0)]
  rfl

theorem encodeRecord_without_address (h0 : ai.addrlen = 0) :
    encodeRecord ai ++ tail = aiPackedHeader ai ++ (ai.string ++ [0#8] ++ tail) := by
  have hnone : ai.packedAddress = [] := if_pos h0
  rw [encodeRecord, hnone, append_nil, append_assoc]

/-- A record without an address: the four bytes that are skipped belong to the name and to what
follows it. -/
theorem unpackRecord_without_address (hm : m.Succeeds) (h0 : ai.addrlen = 0)
    (hsize : 24 ≤ size.toNat) (hs : stringAt ((ai.string ++ [0#8] ++ tail).drop 4) = some s)
    (time : Nat) :
    ∃ c size' time', unpackRecord m .zeroed (encodeRecord ai ++ tail) size time =
      .ok (decoded ai none c, (ai.string ++ [0#8] ++ tail).drop (4 + (s.length + 1)), size') time' ∧
      c.isSome = !s.isEmpty ∧ (decoded ai none c).name = some s := by
  have hroom := addressRoom_without_address h0
  obtain ⟨c, time', hname, hsome, hstring⟩ := unpackName_eq hm ai none hs time
  have hrun := unpackRecord_eq hsize (unpackAddress_without_address h0 _ time)
    (by rw [hroom]; exact hname)
  rw [hroom, drop_drop, ← encodeRecord_without_address h0] at hrun
  exact ⟨c, _, time', hrun, hsome, hstring⟩

theorem unpackRecord_no_string (h0 : ai.addrlen = 0)
    (hs : stringAt ((ai.string ++ [0#8] ++ tail).drop 4) = none)
    {r : AddrInfo × List Byte × BitVec 64} :
    unpackRecord m .zeroed (encodeRecord ai ++ tail) size time ≠ .ok r time' := by
  intro h
  rw [encodeRecord_without_address h0] at h
  obtain ⟨-, h⟩ := failIf_bind_eq_ok.1 h
  rw [bind_of_ok unpackHeader_eq] at h
  rw [show (aiPackedHeader ai ++ (ai.string ++ [0#8] ++ tail)).drop 24 =
    ai.string ++ [0#8] ++ tail from rfl, bind_of_ok (unpackAddress_without_address h0 _ time),
    addressRoom_without_address h0] at h
  obtain ⟨_, _, hname, -⟩ := bind_eq_ok.1 h
  unfold unpackName at hname
  rw [hs] at hname
  cases hname

end Unpack

/-! ## Reading a list back -/

/-- The records at `buf` unpack to the list `nodes`. -/
def Recovers (m : Malloc) (fuel : Nat) (nodes : List AddrInfo) (buf : List Byte) (size : BitVec 64)
    (limit : Int) (time : Nat) : Prop :=
  ∃ out time', unpackFrom m fuel .zeroed [] buf size limit time = .ok out time' ∧
    List.Forall₂ AddrInfo.Same nodes out

/-- A missing address is in the last node only, which then has no name, and is not followed by what
looks like another record. -/
def EmptyAddressesFit (nodes : List AddrInfo) (rest : List Byte) : Prop :=
  (∀ n ∈ nodes.dropLast, n.addrlen ≠ 0) ∧
  ∀ n ∈ nodes.getLast?, n.addrlen = 0 →
    n.canonname = none ∧ 4 ≤ rest.length ∧ rest.take 4 ≠ be32 aiMagic

section Lists

variable {m : Malloc} {next : List AddrInfo} {rest : List Byte} {limit : Int} {fuel time : Nat}

theorem readBe32_eq_ok {b : List Byte} {w : BitVec 32} :
    readBe32 b time = .ok w time' ↔ time' = time ∧ 4 ≤ b.length ∧ b.take 4 = be32 w := by
  constructor
  · intro h
    unfold readBe32 at h
    split at h
    · obtain ⟨rfl, rfl⟩ := pure_eq_ok.1 h
      refine ⟨rfl, by simp, ?_⟩
      rw [be32_ofBytes]
      rfl
    · cases h
  · rintro ⟨rfl, hlen, hb⟩
    rw [← take_append_drop 4 b, hb]
    exact readBe32_be32 w

theorem unpackFrom_ne_nil {nodes out : List AddrInfo}
    (h : unpackFrom m fuel ai nodes buf size limit time = .ok out time') : out ≠ [] := by
  cases fuel with
  | zero => cases h
  | succ fuel =>
    unfold unpackFrom at h
    by_cases hlimit : limit = 0
    · rw [if_pos hlimit] at h
      obtain ⟨rfl, -⟩ := pure_eq_ok.1 h
      exact cons_ne_nil _ _
    · rw [if_neg hlimit] at h
      obtain ⟨⟨ai', buf', size'⟩, _, -, h⟩ := bind_eq_ok.1 h
      obtain ⟨word, _, -, h⟩ := bind_eq_ok.1 h
      by_cases hword : word = aiMagic
      · rw [if_pos hword] at h
        obtain ⟨⟨node, nodes⟩, _, -, h⟩ := bind_eq_ok.1 h
        obtain ⟨tail, _, -, h⟩ := bind_eq_ok.1 h
        obtain ⟨rfl, -⟩ := pure_eq_ok.1 h
        exact cons_ne_nil _ _
      · rw [if_neg hword] at h
        obtain ⟨rfl, -⟩ := pure_eq_ok.1 h
        exact cons_ne_nil _ _

/-- The string behind the four skipped bytes is the name only if there is none and no record
follows. -/
theorem eq_nil_of_string_after_skip (hs : 0#8 ∉ s)
    (h : stringAt ((s ++ [0#8] ++ (encode next ++ rest)).drop 4) = some s) :
    s = [] ∧ next = [] := by
  by_cases hlen : 4 ≤ s.length
  · -- four bytes of the name are lost
    rw [append_assoc, drop_append_of_le_length hlen, singleton_append,
      stringAt_append_nul (fun hmem => hs (mem_of_mem_drop hmem)), Option.some.injEq] at h
    have hlength := congrArg List.length h
    rw [length_drop] at hlength
    omega
  · have hskip : (s ++ [0#8] ++ (encode next ++ rest)).drop 4 =
        (encode next ++ rest).drop (3 - s.length) := by
      rw [drop_append, drop_eq_nil_of_le (by simp; omega)]
      simp
    rw [hskip] at h
    cases next with
    | nil =>
      -- the terminator is read as an empty name
      have hzero : (encode [] ++ rest).drop (3 - s.length) =
          [] ++ 0#8 :: (encode [] ++ rest).drop (3 - s.length + 1) := by
        rw [← getElem_cons_drop (by simp [encode]; omega)]
        congr 1
        rw [getElem_append_left (by simp [encode]; omega)]
        exact getElem_replicate _
      rw [hzero, stringAt_append_nul not_mem_nil, Option.some.injEq] at h
      exact ⟨h.symm, rfl⟩
    | cons n ns =>
      -- the magic of the next record is read as part of the name
      obtain ⟨more, hmore⟩ : ∃ more, encode (n :: ns) ++ rest = be32 aiMagic ++ more :=
        ⟨_, rfl⟩
      rw [hmore, drop_append_of_le_length (by rw [length_be32]; omega)] at h
      have hle := le_length_stringAt h fun hmem =>
        absurd (mem_of_mem_drop hmem) (by decide)
      rw [length_drop, length_be32] at hle
      omega

theorem unpackFrom_of_record (hlimit : limit < 0)
    (h : unpackRecord m .zeroed buf size time = .ok (ai', tail, size') time') :
    unpackFrom m (fuel + 1) .zeroed [] buf size limit time = (do
      let word ← readBe32 tail
      if word = aiMagic then
        let (node, nodes) ← nextNode m []
        let rest ← unpackFrom m fuel node nodes tail size' (limit - 1)
        return ai' :: rest
      else return [ai'] : UnpackM (List AddrInfo)) time' := by
  rw [unpackFrom, if_neg (by omega), bind_of_ok h]

theorem unpackFrom_last (fuel : Nat) (hlimit : limit < 0)
    (h : unpackRecord m .zeroed buf size time = .ok (ai', tail, size') time') {word : BitVec 32}
    (hlen : 4 ≤ tail.length) (hword : tail.take 4 = be32 word) (hne : word ≠ aiMagic) :
    unpackFrom m (fuel + 1) .zeroed [] buf size limit time = .ok [ai'] time' := by
  rw [unpackFrom_of_record hlimit h, bind_of_ok (readBe32_eq_ok.2 ⟨rfl, hlen, hword⟩), if_neg hne]
  rfl

/-- A result of `bsd_ai_unpack` starts with the first record's node; it is the only one unless
another record seems to follow. -/
theorem unpackFrom_eq_ok {time'' : Nat} {out : List AddrInfo} (hlimit : limit < 0)
    (h : unpackRecord m .zeroed buf size time = .ok (ai', tail, size') time')
    (hout : unpackFrom m (fuel + 1) .zeroed [] buf size limit time = .ok out time'') :
    ∃ nodes, out = ai' :: nodes ∧ 4 ≤ tail.length ∧ (nodes = [] → tail.take 4 ≠ be32 aiMagic) := by
  rw [unpackFrom_of_record hlimit h] at hout
  obtain ⟨word, _, hread, hend⟩ := bind_eq_ok.1 hout
  obtain ⟨rfl, hlen, hword⟩ := readBe32_eq_ok.1 hread
  by_cases hmagic : word = aiMagic
  · rw [if_pos hmagic] at hend
    obtain ⟨⟨node, nodes⟩, _, -, hend⟩ := bind_eq_ok.1 hend
    obtain ⟨tail', _, htail, hend⟩ := bind_eq_ok.1 hend
    obtain ⟨rfl, -⟩ := pure_eq_ok.1 hend
    exact ⟨tail', rfl, hlen, fun hnil => absurd hnil (unpackFrom_ne_nil htail)⟩
  · rw [if_neg hmagic] at hend
    obtain ⟨rfl, -⟩ := pure_eq_ok.1 hend
    refine ⟨[], rfl, hlen, fun _ heq => hmagic (be32_injective ?_)⟩
    rw [← hword, heq]

theorem recovers_without_address_iff (hm : m.Succeeds) (hv : ai.Valid) (h0 : ai.addrlen = 0)
    (hsize : 24 ≤ size.toNat) (hlimit : limit < 0) :
    Recovers m (fuel + 1) (ai :: next) (encode (ai :: next) ++ rest) size limit time ↔
      next = [] ∧ ai.canonname = none ∧ 4 ≤ rest.length ∧ rest.take 4 ≠ be32 aiMagic := by
  have hbuf : encode (ai :: next) ++ rest = encodeRecord ai ++ (encode next ++ rest) := by
    rw [encode, append_assoc]
  rw [hbuf]
  constructor
  · rintro ⟨out, time', hrun, hsame⟩
    cases hs : stringAt ((ai.string ++ [0#8] ++ (encode next ++ rest)).drop 4) with
    | none =>
      rw [unpackFrom, if_neg (by omega)] at hrun
      obtain ⟨_, _, hrecord, -⟩ := bind_eq_ok.1 hrun
      exact absurd hrecord (unpackRecord_no_string h0 hs)
    | some s =>
      obtain ⟨c, size', time₁, hrecord, -, hname⟩ :=
        unpackRecord_without_address hm h0 hsize hs time
      obtain ⟨nodes, rfl, hlen, hmagic⟩ := unpackFrom_eq_ok hlimit hrecord hrun
      obtain ⟨hhead, htail⟩ := forall₂_cons.1 hsame
      have hstring : s = ai.string := by
        have hboth := hhead.name
        rw [hv.name_eq, hname, Option.some.injEq] at hboth
        exact hboth.symm
      rw [hstring] at hs
      obtain ⟨hnil, rfl⟩ := eq_nil_of_string_after_skip hv.no_nul hs
      have hnull : ai.canonname = none := by
        rcases hv.name_cases with ⟨hnull, -⟩ | ⟨_, -, -, -, hne⟩
        · exact hnull
        · exact absurd hnil hne
      rw [hstring, hnil] at hlen hmagic
      exact ⟨rfl, hnull, hlen, hmagic (forall₂_nil_left_iff.1 htail)⟩
  · rintro ⟨rfl, hnull, hlen, hmagic⟩
    have hnil : ai.string = [] := AddrInfo.string_eq (AddrInfo.name_of_null hnull)
    have hs : stringAt ((ai.string ++ [0#8] ++ (encode [] ++ rest)).drop 4) = some ai.string := by
      rw [hnil]
      exact stringAt_append_nul not_mem_nil rest
    obtain ⟨c, size', time₁, hrecord, hsome, hname⟩ :=
      unpackRecord_without_address hm h0 hsize hs time
    have htail : (ai.string ++ [0#8] ++ (encode [] ++ rest)).drop (4 + (ai.string.length + 1)) =
        rest := by
      rw [hnil]
      rfl
    rw [htail] at hrecord
    obtain ⟨w, hw⟩ := exists_take_eq_be32 hlen
    have hlast := unpackFrom_last fuel hlimit hrecord hlen hw fun heq => hmagic (heq ▸ hw)
    refine ⟨_, _, hlast, forall₂_cons.2 ⟨same_decoded hv ?_ hsome hname, .nil⟩⟩
    rw [ai.address_of_zero h0, (decoded ai none none).address_of_zero h0]

/-- One step of the loop: behind a record with an address, the rest of the list is read. -/
theorem recovers_cons_iff (hm : m.Succeeds) (hv : ai.Valid) (h0 : ai.addrlen ≠ 0)
    (hsize : 24 ≤ size.toNat) (hlimit : limit < 0) (n : AddrInfo) (ns : List AddrInfo)
    (rest : List Byte) (fuel time : Nat) :
    ∃ time', Recovers m (fuel + 1) (ai :: n :: ns) (encode (ai :: n :: ns) ++ rest) size limit time ↔
      Recovers m fuel (n :: ns) (encode (n :: ns) ++ rest) (sizeAfter ai size) (limit - 1) time' := by
  obtain ⟨ai', time₁, hrecord, hsame⟩ :=
    unpackRecord_of_address hm hv h0 hsize (encode (n :: ns) ++ rest) time
  obtain ⟨block, hcall, -⟩ := hm.call sizeofAddrinfo time₁
  have hread : readBe32 (encode (n :: ns) ++ rest) time₁ = .ok aiMagic time₁ :=
    readBe32_be32 aiMagic
  have hnode : nextNode m [] time₁ = .ok (.zeroed, []) (time₁ + 1) := by
    show (m.call sizeofAddrinfo >>= _) time₁ = _
    rw [bind_of_ok hcall]
    rfl
  have hrun : unpackFrom m (fuel + 1) .zeroed [] (encode (ai :: n :: ns) ++ rest) size limit time =
      (do
        let rest ← unpackFrom m fuel .zeroed [] (encode (n :: ns) ++ rest) (sizeAfter ai size)
          (limit - 1)
        return ai' :: rest : UnpackM (List AddrInfo)) (time₁ + 1) := by
    rw [encode, append_assoc, unpackFrom_of_record hlimit hrecord, bind_of_ok hread,
      if_pos rfl, bind_of_ok hnode]
  refine ⟨time₁ + 1, ?_⟩
  unfold Recovers
  rw [hrun]
  constructor
  · rintro ⟨out, time', hout, hall⟩
    obtain ⟨nodes, _, hnodes, hout⟩ := bind_eq_ok.1 hout
    obtain ⟨rfl, rfl⟩ := pure_eq_ok.1 hout
    exact ⟨nodes, _, hnodes, (forall₂_cons.1 hall).2⟩
  · rintro ⟨nodes, time', hnodes, hall⟩
    exact ⟨ai' :: nodes, time', by rw [bind_of_ok hnodes]; rfl, forall₂_cons.2 ⟨hsame, hall⟩⟩

theorem emptyAddressesFit_singleton :
    EmptyAddressesFit [ai] rest ↔
      (ai.addrlen = 0 → ai.canonname = none ∧ 4 ≤ rest.length ∧ rest.take 4 ≠ be32 aiMagic) := by
  simp [EmptyAddressesFit]

theorem emptyAddressesFit_cons {n : AddrInfo} {ns : List AddrInfo} :
    EmptyAddressesFit (ai :: n :: ns) rest ↔ ai.addrlen ≠ 0 ∧ EmptyAddressesFit (n :: ns) rest := by
  simp [EmptyAddressesFit, and_assoc]

theorem recovers_iff (hm : m.Succeeds) (hv : ∀ n ∈ ai :: next, n.Valid)
    (hroom : room (ai :: next) ≤ size.toNat) (hfuel : next.length < fuel) (hlimit : limit < 0) :
    Recovers m fuel (ai :: next) (encode (ai :: next) ++ rest) size limit time ↔
      EmptyAddressesFit (ai :: next) rest := by
  have hvalid := hv ai mem_cons_self
  have hsize : 24 ≤ size.toNat := by
    rw [room] at hroom
    omega
  obtain ⟨fuel, rfl⟩ : ∃ k, fuel = k + 1 := ⟨fuel - 1, by omega⟩
  induction next generalizing ai size limit fuel time with
  | nil =>
    rw [emptyAddressesFit_singleton]
    by_cases h0 : ai.addrlen = 0
    · rw [recovers_without_address_iff hm hvalid h0 hsize hlimit]
      exact ⟨fun h _ => h.2, fun h => ⟨rfl, h h0⟩⟩
    · obtain ⟨ai', time₁, hrecord, hsame⟩ :=
        unpackRecord_of_address hm hvalid h0 hsize (encode [] ++ rest) time
      have hzero : (encode [] ++ rest).take 4 = be32 0#32 := rfl
      have hlast := unpackFrom_last fuel hlimit hrecord (by simp [encode]) hzero (by decide)
      rw [encode, append_assoc]
      exact iff_of_true ⟨_, _, hlast, forall₂_cons.2 ⟨hsame, .nil⟩⟩ fun h => absurd h h0
  | cons n ns ih =>
    rw [emptyAddressesFit_cons]
    by_cases h0 : ai.addrlen = 0
    · rw [recovers_without_address_iff hm hvalid h0 hsize hlimit]
      exact iff_of_false (fun h => nomatch h.1) fun h => h.1 h0
    · obtain ⟨fuel, rfl⟩ : ∃ k, fuel = k + 1 := by
        rw [length_cons] at hfuel
        exact ⟨fuel - 1, by omega⟩
      obtain ⟨time', hiff⟩ := recovers_cons_iff hm hvalid h0 hsize hlimit n ns rest (fuel + 1) time
      have hrest : room (n :: ns) ≤ (sizeAfter ai size).toNat := by
        rw [room] at hroom
        rw [toNat_sizeAfter (by omega)]
        omega
      have hsize' : 24 ≤ (sizeAfter ai size).toNat := by
        rw [room] at hrest
        omega
      have hlimit' : limit - 1 < 0 := by omega
      refine hiff.trans ((ih (fun n hn => hv n (mem_cons_of_mem _ hn)) hrest hlimit'
        (hv n (mem_cons_of_mem _ mem_cons_self)) hsize' fuel (by simpa using hfuel)).trans ?_)
      exact ⟨fun h => ⟨h0, h⟩, fun h => h.2⟩

end Lists

/-! ## The round trip -/

theorem length_le_length_encode (nodes : List AddrInfo) : nodes.length ≤ (encode nodes).length := by
  induction nodes with
  | nil => exact Nat.zero_le _
  | cons ai next ih =>
    rw [encode, encodeRecord, length_append, length_append, length_append,
      length_aiPackedHeader, length_cons]
    omega

/-- **The round trip.** A list that `bsd_ai_pack` has packed comes back from `bsd_ai_unpack` exactly
when a missing address is in the last node only, that node has no canonical name, and the bytes
behind the packed list do not look like another record. -/
theorem addrinfo_recovered_iff {m : Malloc} (hm : m.Succeeds) {ai : AddrInfo} {next : List AddrInfo}
    (hv : ∀ n ∈ ai :: next, n.Valid) {size : BitVec 64} {buf buf' : List Byte}
    (hpack : bsdAiPack ai next size buf = .ok () buf') (time : Nat) :
    (∃ out time', bsdAiUnpack m .zeroed [] buf' size (-1) time = .ok out time' ∧
      List.Forall₂ AddrInfo.Same (ai :: next) out) ↔
    EmptyAddressesFit (ai :: next) (buf.drop (encode (ai :: next)).length) := by
  obtain ⟨hlen, rfl⟩ := bsdAiPack_writes hv size buf buf' hpack
  have hnodes := length_le_length_encode (ai :: next)
  refine recovers_iff hm hv (room_le_of_ok hv hpack) ?_ (by decide)
  rw [length_cons] at hnodes
  rw [length_append]
  omega

/-- An allocator that never runs out and hands out zeroed blocks. -/
def zeroMalloc : Malloc where
  block _ n := some (List.replicate n 0#8)
  length_block := by
    rintro _ n b ⟨⟩
    exact List.length_replicate

/-- `10.0.0.192:6767` over UDP, with the canonical name `host`. -/
def udpNode : AddrInfo where
  flags := 0
  family := afInet
  socktype := 2
  protocol := 17
  addrlen := 16
  addr := some ([0#8, 2#8, 0x1a#8, 0x6f#8, 10#8, 0#8, 0#8, 192#8] ++ List.replicate 8 0#8)
  canonname := some [0x68#8, 0x6f#8, 0x73#8, 0x74#8, 0#8]

/-- A node of another family with an address of three bytes. -/
def shortNode : AddrInfo where
  flags := 1
  family := 1
  socktype := 1
  protocol := 0
  addrlen := 3
  addr := some [1#8, 2#8, 3#8]
  canonname := none

theorem udpNode_valid : udpNode.Valid :=
  ⟨.inl ⟨rfl, rfl, _, rfl, by decide⟩, by
    rintro _ ⟨⟩
    exact ⟨_, rfl, by decide⟩⟩

theorem shortNode_valid : shortNode.Valid :=
  ⟨.inr (.inl ⟨by decide, by decide, _, rfl, by decide⟩), fun _ h => nomatch h⟩

theorem udpNode_shortNode_recovered :
    ∃ buf', bsdAiPack udpNode [shortNode] 96 (List.replicate 96 0xff#8) = .ok () buf' ∧
      ∃ out time', bsdAiUnpack zeroMalloc .zeroed [] buf' 96 (-1) 0 = .ok out time' ∧
        List.Forall₂ AddrInfo.Same [udpNode, shortNode] out := by
  have hv : ∀ n ∈ [udpNode, shortNode], n.Valid := by
    intro n hn
    simp only [mem_cons, not_mem_nil, or_false] at hn
    rcases hn with rfl | rfl
    · exact udpNode_valid
    · exact shortNode_valid
  have hpack : bsdAiPack udpNode [shortNode] 96 (List.replicate 96 0xff#8) = .ok () _ := rfl
  refine ⟨_, hpack, (addrinfo_recovered_iff (fun _ _ => rfl) hv hpack 0).2 ?_⟩
  exact emptyAddressesFit_cons.2 ⟨by decide, emptyAddressesFit_singleton.2 fun h => by cases h⟩

/-- A node with a canonical name and no address. -/
def nameNode : AddrInfo := { AddrInfo.zeroed with canonname := some [0x78#8, 0#8] }

theorem nameNode_valid : nameNode.Valid :=
  ⟨.inr (.inr ⟨rfl, rfl⟩), by
    rintro _ ⟨⟩
    exact ⟨_, rfl, by decide⟩⟩

/-- The name is not read back. -/
theorem nameNode_lost :
    ∃ buf', bsdAiPack nameNode [] 64 (List.replicate 64 0#8) = .ok () buf' ∧
      bsdAiUnpack zeroMalloc .zeroed [] buf' 64 (-1) 0 = .ok [.zeroed] 0 ∧
      nameNode.Valid ∧ ¬ nameNode.Same .zeroed :=
  ⟨_, rfl, rfl, nameNode_valid, fun h => nomatch h.canonname⟩

end LibTransistor
