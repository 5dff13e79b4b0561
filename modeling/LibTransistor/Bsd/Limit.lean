import LibTransistor.Bsd.Bounds

/-!
# How many nodes unpacking leaves

`bsd_ai_unpack` looks for the magic of a further record, and allocates a node for it, before the
recursive call looks at the limit. So `m` records unpacked with a limit of `n` leave `min(n, m)`
nodes with a record each only if `m ≤ n`, or without a limit (`unpack_limit_exact_iff`); otherwise
the list ends with a node that has been cleared and holds none.
-/

namespace LibTransistor

open Fallible List

variable {addr canonname : Option (List Byte)}

/-! ## Packed sequences -/

/-- A record of a packed sequence. -/
structure WireRecord where
  flags : BitVec 32
  family : BitVec 32
  socktype : BitVec 32
  protocol : BitVec 32
  /-- Empty if there is none. -/
  address : List Byte
  name : List Byte
  address_lt : address.length < 2 ^ 32
  /-- The part of a `struct sockaddr_in` that is read. -/
  inet : family = afInet → address ≠ [] → 8 ≤ address.length
  no_nul : 0#8 ∉ name

namespace WireRecord

variable (r : WireRecord)

def header : AddrInfo :=
  ⟨r.flags, r.family, r.socktype, r.protocol, BitVec.ofNat 32 r.address.length, none, none⟩

/-- The bytes that stand for the address. -/
def addressBytes : List Byte :=
  if r.address = [] then List.replicate 4 0#8 else r.address

/-- The header, the address or four zero bytes, and the canonical name. -/
def bytes : List Byte := aiPackedHeader r.header ++ (r.addressBytes ++ (r.name ++ [0#8]))

/-- The address as it is decoded. -/
def decodedAddress : List Byte :=
  if r.family = afInet then (swappedSockaddrIn r.address).getD [] else r.address

/-- The node holds the record: its numbers, and its address and name in the blocks of the node. -/
structure HeldBy (node : AddrInfo) : Prop where
  flags : node.flags = r.flags
  family : node.family = r.family
  socktype : node.socktype = r.socktype
  protocol : node.protocol = r.protocol
  addrlen : node.addrlen.toNat = r.address.length
  address : if r.address = [] then node.addr = none
    else ∃ more, node.addr = some (r.decodedAddress ++ more)
  canonname : node.canonname.isSome = !r.name.isEmpty
  name : node.name = some r.name

end WireRecord

/-- The records, and the terminator. -/
def sequence : List WireRecord → List Byte
  | [] => List.replicate 4 0#8
  | r :: rs => r.bytes ++ sequence rs

/-! ## One record -/

section Record

variable {m : Malloc} {ai : AddrInfo} {tail : List Byte} {time t : Nat} (r : WireRecord)

theorem unpackHeader_bytes (ai : AddrInfo) (tail : List Byte) (time : Nat) :
    unpackHeader ai (aiPackedHeader r.header ++ tail) time =
      .ok (decoded r.header ai.addr ai.canonname) time := by
  simp only [unpackHeader, aiPackedHeader, be32, cons_append, nil_append,
    drop_succ_cons, drop_zero, readBe32, ofBytes_be32]
  rfl

theorem overwrite_ok {block bytes b : List Byte} (h : overwrite block bytes time = .ok b t) :
    ∃ more, b = bytes ++ more := by
  unfold overwrite at h
  split at h
  · obtain ⟨rfl, -⟩ := pure_eq_ok.1 h
    exact ⟨_, rfl⟩
  · cases h

theorem swappedSockaddrIn_append {bs : List Byte} (h : 8 ≤ bs.length) (tail : List Byte) :
    swappedSockaddrIn (bs ++ tail) = swappedSockaddrIn bs := by
  match bs, h with
  | _ :: _ :: _ :: _ :: _ :: _ :: _ :: _ :: _, _ => rfl

variable {r}

theorem readAddress_ok {block b : List Byte} (hne : r.address ≠ [])
    (h : readAddress (decoded r.header addr canonname) block (r.address ++ tail) time = .ok b t) :
    ∃ more, b = r.decodedAddress ++ more := by
  have hlen : (decoded r.header addr canonname).addrlen.toNat = r.address.length :=
    Nat.mod_eq_of_lt r.address_lt
  unfold readAddress at h
  unfold WireRecord.decodedAddress
  by_cases hfam : r.family = afInet
  · rw [if_pos hfam]
    rw [if_pos (show (decoded r.header addr canonname).family = afInet from hfam),
      swappedSockaddrIn_append (r.inet hfam hne)] at h
    obtain ⟨out, hout, -⟩ := swappedSockaddrIn_of_le r.address (r.inet hfam hne)
    rw [hout] at h ⊢
    exact overwrite_ok h
  · rw [if_neg hfam]
    rw [if_neg (show (decoded r.header addr canonname).family ≠ afInet from hfam), hlen] at h
    split at h
    · cases h
    split at h
    · cases h
    · rw [take_left] at h
      exact overwrite_ok h

theorem header_addrlen_eq_zero : r.header.addrlen = 0 ↔ r.address = [] := by
  rw [← length_eq_zero_iff]
  have hlen : r.header.addrlen.toNat = r.address.length := Nat.mod_eq_of_lt r.address_lt
  constructor
  · intro h
    rw [← hlen, h]
    rfl
  · intro h
    refine BitVec.eq_of_toNat_eq ?_
    rw [hlen, h]
    rfl

theorem length_addressBytes : r.addressBytes.length = r.header.addressRoom.toNat := by
  unfold WireRecord.addressBytes
  by_cases hnil : r.address = []
  · have h0 := header_addrlen_eq_zero.2 hnil
    unfold AddrInfo.addressRoom
    rw [if_pos hnil, if_pos h0]
    rfl
  · have h0 : r.header.addrlen ≠ 0 := fun h => hnil (header_addrlen_eq_zero.1 h)
    rw [if_neg hnil, AddrInfo.addressRoom_of_ne h0]
    exact (Nat.mod_eq_of_lt r.address_lt).symm

theorem unpackAddress_ok {d : AddrInfo}
    (h : unpackAddress m (decoded r.header addr canonname) (r.addressBytes ++ tail) time
      = .ok d t) :
    ∃ addr', d = decoded r.header addr' canonname ∧
      if r.address = [] then addr' = none else ∃ more, addr' = some (r.decodedAddress ++ more) := by
  unfold unpackAddress at h
  by_cases hnil : r.address = []
  · rw [if_pos (show (decoded r.header addr canonname).addrlen = 0 from
      header_addrlen_eq_zero.2 hnil)] at h
    obtain ⟨rfl, -⟩ := pure_eq_ok.1 h
    refine ⟨none, rfl, ?_⟩
    rw [if_pos hnil]
  · have hbytes : r.addressBytes = r.address := if_neg hnil
    rw [if_neg (show (decoded r.header addr canonname).addrlen ≠ 0 from
      fun h => hnil (header_addrlen_eq_zero.1 h)), hbytes] at h
    obtain ⟨block, _, -, h⟩ := bind_eq_ok.1 h
    obtain ⟨b, _, hread, h⟩ := bind_eq_ok.1 h
    obtain ⟨rfl, -⟩ := pure_eq_ok.1 h
    obtain ⟨more, rfl⟩ := readAddress_ok hnil hread
    refine ⟨_, rfl, ?_⟩
    rw [if_neg hnil]
    exact ⟨more, rfl⟩

theorem unpackName_ok {p : AddrInfo × Nat}
    (h : unpackName m (decoded r.header addr canonname) (r.name ++ 0#8 :: tail) time = .ok p t) :
    ∃ canonname', p = (decoded r.header addr canonname', r.name.length + 1) ∧
      canonname'.isSome = !r.name.isEmpty ∧
      (decoded r.header addr canonname').name = some r.name := by
  unfold unpackName at h
  rw [stringAt_append_nul r.no_nul] at h
  have hnul := r.no_nul
  generalize r.name = name at h hnul ⊢
  cases name with
  | nil =>
    obtain ⟨rfl, -⟩ := pure_eq_ok.1 h
    exact ⟨none, rfl, rfl, rfl⟩
  | cons b name =>
    obtain ⟨block, _, -, h⟩ := bind_eq_ok.1 h
    obtain ⟨block', _, hwrite, h⟩ := bind_eq_ok.1 h
    obtain ⟨rfl, -⟩ := pure_eq_ok.1 h
    obtain ⟨more, rfl⟩ := overwrite_ok hwrite
    refine ⟨_, rfl, rfl, ?_⟩
    rw [append_assoc]
    exact stringAt_append_nul hnul more

/-- **One record.** What is unpacked is the record, and what is left is what follows it. -/
theorem unpackRecord_ok {size : BitVec 64} {p : AddrInfo × List Byte × BitVec 64}
    (h : unpackRecord m ai (r.bytes ++ tail) size time = .ok p t) :
    r.HeldBy p.1 ∧ p.2.1 = tail := by
  have hbytes : r.bytes ++ tail =
      aiPackedHeader r.header ++ (r.addressBytes ++ (r.name ++ 0#8 :: tail)) := by
    unfold WireRecord.bytes
    simp only [append_assoc, singleton_append]
  rw [hbytes] at h
  obtain ⟨-, h⟩ := failIf_bind_eq_ok.1 h
  rw [bind_of_ok (unpackHeader_bytes r ai _ time)] at h
  rw [drop_left' (length_aiPackedHeader r.header)] at h
  obtain ⟨d, _, haddress, h⟩ := bind_eq_ok.1 h
  obtain ⟨addr, rfl, haddr⟩ := unpackAddress_ok haddress
  rw [show (decoded r.header addr ai.canonname).addressRoom = r.header.addressRoom from rfl,
    ← length_addressBytes, drop_left] at h
  obtain ⟨q, _, hname, h⟩ := bind_eq_ok.1 h
  obtain ⟨canonname, rfl, hsome, hstring⟩ := unpackName_ok hname
  obtain ⟨rfl, -⟩ := pure_eq_ok.1 h
  refine ⟨⟨rfl, rfl, rfl, rfl, Nat.mod_eq_of_lt r.address_lt, haddr, hsome, hstring⟩, ?_⟩
  rw [← singleton_append, ← append_assoc]
  exact drop_left' (by simp)

end Record

/-! ## All records -/

section Lists

variable {m : Malloc} {ai : AddrInfo} {next out : List AddrInfo} {r : WireRecord}
  {rs : List WireRecord} {rest : List Byte} {size : BitVec 64} {limit : Int} {fuel time t : Nat}

theorem firstWord_sequence : firstWord (sequence rs ++ rest) = aiMagic ↔ rs ≠ [] := by
  cases rs with
  | nil => exact iff_of_false (show ofBytes 0#8 0#8 0#8 0#8 ≠ aiMagic by decide) (not_not_intro rfl)
  | cons r rs => exact iff_of_true (ofBytes_be32 aiMagic) (cons_ne_nil r rs)

theorem length_sequence (rs : List WireRecord) : 4 ≤ (sequence rs).length := by
  cases rs with
  | nil => exact Nat.le_refl 4
  | cons r rs =>
    rw [sequence, WireRecord.bytes, length_append, length_append, length_aiPackedHeader]
    omega

/-- **One step.** A record goes to the first node, and the others to the nodes behind it, if there
is another record. -/
theorem unpackFrom_step (hlimit : limit ≠ 0)
    (h : unpackFrom m fuel ai next (sequence (r :: rs) ++ rest) size limit time = .ok out t) :
    ∃ node, r.HeldBy node ∧
      (rs = [] ∧ out = [node] ∨
        rs ≠ [] ∧ ∃ out' fuel' size' t', out = node :: out' ∧
          unpackFrom m fuel' (next.headD .zeroed) next.tail (sequence rs ++ rest) size'
            (limit - 1) t' = .ok out' t) := by
  cases fuel with
  | zero => cases h
  | succ fuel =>
    have hbuf : sequence (r :: rs) ++ rest = r.bytes ++ (sequence rs ++ rest) := by
      rw [sequence, append_assoc]
    have hfour : 4 ≤ (sequence rs ++ rest).length := by
      have hlen := length_sequence rs
      rw [length_append]
      omega
    rw [unpackFrom, if_neg hlimit, hbuf] at h
    obtain ⟨p, t₁, hrecord, h⟩ := bind_eq_ok.1 h
    obtain ⟨hheld, htail⟩ := unpackRecord_ok hrecord
    dsimp only at h
    rw [htail, bind_of_ok (readBe32_of_le hfour)] at h
    refine ⟨p.1, hheld, ?_⟩
    by_cases hrs : rs = []
    · rw [if_neg fun hmagic => firstWord_sequence.1 hmagic hrs] at h
      obtain ⟨rfl, -⟩ := pure_eq_ok.1 h
      exact .inl ⟨hrs, rfl⟩
    · rw [if_pos (firstWord_sequence.2 hrs)] at h
      obtain ⟨q, t₂, hnode, h⟩ := bind_eq_ok.1 h
      have hnext := nextNode_ends m next t₁
      rw [hnode] at hnext
      obtain ⟨out', t₃, hrest, h⟩ := bind_eq_ok.1 h
      obtain ⟨rfl, rfl⟩ := pure_eq_ok.1 h
      have hq : q = (next.headD .zeroed, next.tail) := hnext
      rw [hq] at hrest
      exact .inr ⟨hrs, out', fuel, p.2.2, t₂, rfl, hrest⟩

theorem unpackFrom_within_limit (hrs : rs ≠ []) (hlimit : limit < 0 ∨ (rs.length : Int) ≤ limit)
    (h : unpackFrom m fuel ai next (sequence rs ++ rest) size limit time = .ok out t) :
    List.Forall₂ WireRecord.HeldBy rs out := by
  induction rs generalizing ai next out size limit fuel time with
  | nil => exact absurd rfl hrs
  | cons r rs ih =>
    rw [length_cons] at hlimit
    obtain ⟨node, hheld, hend⟩ := unpackFrom_step (by omega) h
    rcases hend with ⟨rfl, rfl⟩ | ⟨hne, out', fuel', size', t', rfl, hrest⟩
    · exact .cons hheld .nil
    · exact .cons hheld (ih hne (by omega) hrest)

/-- With more records than the limit there is one node too many, if there are not more nodes
anyway. -/
theorem length_beyond_limit {n : Nat} (hlimit : n < rs.length)
    (h : unpackFrom m fuel ai next (sequence rs ++ rest) size n time = .ok out t) :
    out.length = max (n + 1) (next.length + 1) := by
  induction n generalizing ai next out size fuel time rs with
  | zero =>
    cases fuel with
    | zero => cases h
    | succ fuel =>
      obtain ⟨rfl, -⟩ := pure_eq_ok.1 h
      rw [length_cons]
      omega
  | succ n ih =>
    cases rs with
    | nil => cases hlimit
    | cons r rs =>
      rw [length_cons] at hlimit
      obtain ⟨node, -, hend⟩ := unpackFrom_step (by omega) h
      rcases hend with ⟨rfl, -⟩ | ⟨hne, out', fuel', size', t', rfl, hrest⟩
      · rw [length_nil] at hlimit
        omega
      · rw [show ((n + 1 : Nat) : Int) - 1 = n by omega] at hrest
        have hlen := ih (by omega) hrest
        rw [length_cons, hlen, length_tail]
        omega

end Lists

/-! ## The limit -/

/-- The nodes that `m` records and a limit leave. -/
def nodesFor (limit : Int) (m : Nat) : Nat := if limit = -1 then m else min limit.toNat m

/-- The list has the right number of nodes, and each of them holds its record. -/
def LimitExact (records : List WireRecord) (limit : Int) (out : List AddrInfo) : Prop :=
  out.length = nodesFor limit records.length ∧
    List.Forall₂ WireRecord.HeldBy (records.take out.length) out

/-- **The limit.** For a list of at most as many nodes as the limit allows, or of any number of
nodes if there is no limit. -/
theorem unpack_limit_exact_iff {m : Malloc} {ai : AddrInfo} {next out : List AddrInfo}
    {records : List WireRecord} (hrecords : records ≠ []) {limit : Int}
    (hlimit : limit = -1 ∨ 1 ≤ limit ∧ (next.length + 1 : Int) ≤ limit) {rest : List Byte}
    {size : BitVec 64} {time t : Nat}
    (h : bsdAiUnpack m ai next (sequence records ++ rest) size limit time = .ok out t) :
    LimitExact records limit out ↔ limit = -1 ∨ (records.length : Int) ≤ limit := by
  by_cases hfits : limit = -1 ∨ (records.length : Int) ≤ limit
  · have hheld := unpackFrom_within_limit hrecords (by omega) h
    refine iff_of_true ⟨?_, ?_⟩ hfits
    · rw [← hheld.length_eq]
      unfold nodesFor
      split <;> omega
    · rw [← hheld.length_eq, take_length]
      exact hheld
  · refine iff_of_false (fun hexact => ?_) hfits
    obtain ⟨n, rfl⟩ := Int.eq_ofNat_of_zero_le (show 0 ≤ limit by omega)
    have hlen := length_beyond_limit (show n < records.length by omega) h
    have hcount := hexact.1
    unfold nodesFor at hcount
    rw [if_neg (by omega)] at hcount
    omega

/-- `10.0.0.192:6767` over UDP. -/
def udpRecord : WireRecord where
  flags := 0
  family := afInet
  socktype := 2
  protocol := 17
  address := [0#8, 2#8, 0x6f#8, 0x1a#8, 192#8, 0#8, 0#8, 10#8] ++ List.replicate 8 0#8
  name := []
  address_lt := by decide
  inet := fun _ _ => by decide
  no_nul := List.not_mem_nil

/-- The same over TCP. -/
def tcpRecord : WireRecord := { udpRecord with socktype := 1, protocol := 6 }

/-- Two records and a limit of two. -/
theorem twoRecords_exact : ∃ out t,
    bsdAiUnpack zeroMalloc .zeroed [] (sequence [udpRecord, tcpRecord]) 86 2 0 = .ok out t ∧
      LimitExact [udpRecord, tcpRecord] 2 out := by
  obtain ⟨out, t, hrun⟩ := succeeded_iff.1 (show succeeded (bsdAiUnpack zeroMalloc .zeroed []
    (sequence [udpRecord, tcpRecord] ++ []) 86 2 0) = true by decide)
  have hexact := (unpack_limit_exact_iff (cons_ne_nil _ _) (.inr ⟨by decide, by decide⟩)
    hrun).2 (.inr (by decide))
  exact ⟨out, t, hrun, hexact⟩

/-- With a limit of one there are two nodes as well, and the second one holds nothing. -/
theorem twoRecords_beyond_limit : ∃ node t,
    bsdAiUnpack zeroMalloc .zeroed [] (sequence [udpRecord, tcpRecord]) 86 1 0 =
        .ok [node, .zeroed] t ∧
      ¬ LimitExact [udpRecord, tcpRecord] 1 [node, .zeroed] :=
  ⟨_, _, rfl, fun h => absurd h.1 (by decide)⟩

end LibTransistor
