import LibTransistor.Bsd.RoundTrip

/-!
# The capacity that packing needs

`bsd_ai_pack` compares the size that is left with each part of a record before it writes the part.
It counts four bytes for a missing address, but does not move past them; and it writes a whole
`struct sockaddr_in` for an internet address, whatever `ai_addrlen` says.

**Theorem (`pack_respects_capacity_iff`).** For nodes that can be read, packing stays inside of the
buffer and succeeds exactly if the encoding fits, unless an internet address with a length below 16
is reached with less than a header and a `struct sockaddr_in` left.
-/

namespace LibTransistor

open Fallible Region List BitVec

/-! ## Nodes that can be read -/

namespace AddrInfo

/-- What the node's pointers point at is there: the part of the address that is read, and a string.
There is no `AF_INET6` address. -/
structure Readable (ai : AddrInfo) : Prop where
  inet : ai.addrlen ≠ 0 → ai.family = afInet → 8 ≤ (ai.addr.getD []).length
  inet6 : ai.addrlen ≠ 0 → ai.family ≠ afInet6
  other : ai.addrlen ≠ 0 → ai.family ≠ afInet → ai.addrlen.toNat ≤ (ai.addr.getD []).length
  name : ai.name.isSome = true

variable (ai : AddrInfo)

/-- The size that `bsd_ai_pack` asks for a record. -/
def asked : Nat := 24 + ai.addressRoom.toNat + (ai.string.length + 1)

/-- How far it moves. -/
def stride : Nat := 24 + ai.addrlen.toNat + (ai.string.length + 1)

/-- An internet address that is shorter than the structure it is written as. -/
def ShortInet : Prop :=
  ai.family = afInet ∧ 0 < ai.addrlen.toNat ∧ ai.addrlen.toNat < 16

instance decidableShortInet (ai : AddrInfo) : Decidable ai.ShortInet :=
  inferInstanceAs (Decidable (_ ∧ _))

end AddrInfo

/-- Wherever a short internet address is written, with `left` bytes left by the count and `space` by
the pointer at the start of `nodes`, there is space for all of the structure. -/
def ShortInetFits (nodes : List AddrInfo) (left space : Nat) : Prop :=
  ∀ before ai after, nodes = before ++ ai :: after → ai.ShortInet →
    (before.map AddrInfo.asked).sum + (24 + ai.addrlen.toNat) ≤ left →
    (before.map AddrInfo.stride).sum + (24 + 16) ≤ space

/-- The result for a buffer of `size` bytes by the size of the encoding alone. -/
def packResult (nodes : List AddrInfo) (size : Nat) : Except BsdError Unit :=
  if room nodes ≤ size then .ok () else .error (.result Err.bsdBufferTooSmall)

section Node

variable {ai : AddrInfo}

theorem AddrInfo.Readable.name_eq (h : ai.Readable) : ai.name = some ai.string := by
  obtain ⟨s, hs⟩ := Option.isSome_iff_exists.1 h.name
  rw [AddrInfo.string_eq hs]
  exact hs

theorem AddrInfo.addrlen_le_addressRoom (ai : AddrInfo) :
    ai.addrlen.toNat ≤ ai.addressRoom.toNat := by
  by_cases h : ai.addrlen = 0
  · rw [h]
    exact Nat.zero_le _
  · rw [AddrInfo.addressRoom_of_ne h]

theorem AddrInfo.addrlen_pos (h : ai.addrlen ≠ 0) : 0 < ai.addrlen.toNat := by
  rw [Nat.pos_iff_ne_zero]
  intro hzero
  exact h (eq_of_toNat_eq hzero)

theorem AddrInfo.Readable.packAddress_eq (h : ai.Readable) :
    ∃ bytes, packAddress ai = store .fault bytes ∧
      bytes.length = if ai.addrlen = 0 then 4 else if ai.family = afInet then 16
        else ai.addrlen.toNat := by
  unfold packAddress
  by_cases h0 : ai.addrlen = 0
  · rw [if_pos h0, if_pos h0]
    exact ⟨_, rfl, rfl⟩
  rw [if_neg h0, if_neg h0]
  by_cases hfam : ai.family = afInet
  · obtain ⟨out, hout, hlen⟩ := swappedSockaddrIn_of_le (ai.addr.getD []) (h.inet h0 hfam)
    rw [if_pos hfam, if_pos hfam, hout]
    exact ⟨out, rfl, hlen⟩
  · have hle := h.other h0 hfam
    rw [if_neg hfam, if_neg hfam, if_neg (h.inet6 h0), if_neg (Nat.not_lt.2 hle)]
    exact ⟨_, rfl, by rw [length_take, Nat.min_eq_left hle]⟩

end Node

/-! ## One record -/

section Record

variable {ai : AddrInfo} {size : BitVec 64} {r : List Byte}

theorem toNat_sub_header (h : 24 ≤ size.toNat) : (size - 24#64).toNat = size.toNat - 24 :=
  toNat_sub_of_le (le_def.2 h)

theorem toNat_sub_address (h : 24 + ai.addressRoom.toNat ≤ size.toNat) :
    (size - 24#64 - ai.addressRoom).toNat = size.toNat - (24 + ai.addressRoom.toNat) := by
  have hheader : (size - 24#64).toNat = size.toNat - 24 := toNat_sub_header (by omega)
  rw [toNat_sub_of_le (by rw [le_def]; omega), hheader, Nat.sub_sub]

/-- What is stored for the address is inside of the buffer, once there is room for what was asked,
unless it is a short internet address. -/
theorem address_fits_iff {n : Nat} (haddr : 24 + ai.addressRoom.toNat ≤ n) :
    (if ai.addrlen = 0 then 4 else if ai.family = afInet then 16 else ai.addrlen.toNat) ≤ n - 24 ↔
      ¬ (ai.ShortInet ∧ n < 24 + 16) := by
  by_cases h0 : ai.addrlen = 0
  · have hzero : ai.addrlen.toNat = 0 := by rw [h0]; rfl
    have hfour : ai.addressRoom.toNat = 4 := by
      unfold AddrInfo.addressRoom
      rw [if_pos h0]
      rfl
    rw [if_pos h0]
    refine iff_of_true (by omega) fun hshort => ?_
    have hpos := hshort.1.2.1
    omega
  · have hpos := AddrInfo.addrlen_pos h0
    rw [AddrInfo.addressRoom_of_ne h0] at haddr
    rw [if_neg h0]
    unfold AddrInfo.ShortInet
    by_cases hfam : ai.family = afInet
    · rw [if_pos hfam, and_iff_right hfam]
      omega
    · rw [if_neg hfam]
      exact iff_of_true (by omega) fun hshort => hfam hshort.1.1

theorem packRecord_outcome (h : ai.Readable) (rest : BitVec 64 → PackM Unit)
    (hle : size.toNat ≤ r.length) :
    ∃ r', r'.length = r.length - ai.stride ∧ outcome (packRecord ai size rest r) =
      if size.toNat < 24 + ai.addressRoom.toNat then .error (.result Err.bsdBufferTooSmall)
      else if ai.ShortInet ∧ r.length < 24 + 16 then .error .fault
      else if size.toNat < ai.asked then .error (.result Err.bsdBufferTooSmall)
      else outcome (rest (sizeAfter ai size) r') := by
  obtain ⟨bytes, hstore, hbytes⟩ := h.packAddress_eq
  unfold packRecord
  have hfixed : ¬ size < 24#64 → 24 ≤ r.length := fun hroom =>
    Nat.le_trans (Nat.not_lt.1 hroom) hle
  rw [h.name_eq, hstore, outcome_checked_store (length_aiPackedHeader ai) r hfixed]
  by_cases h24 : size < 24#64
  · have hsmall : size.toNat < 24 := h24
    refine ⟨r.drop ai.stride, length_drop, ?_⟩
    rw [if_pos h24, if_pos (by omega)]
  have hheader : 24 ≤ size.toNat := Nat.not_lt.1 h24
  rw [if_neg h24, outcome_failIf_bind]
  -- the address
  have hroom : size - 24#64 < ai.addressRoom ↔ size.toNat < 24 + ai.addressRoom.toNat := by
    rw [lt_def, toNat_sub_header hheader]
    omega
  by_cases haddr : size.toNat < 24 + ai.addressRoom.toNat
  · refine ⟨r.drop ai.stride, length_drop, ?_⟩
    rw [if_pos (hroom.2 haddr), if_pos haddr]
  have hfits := @address_fits_iff ai r.length (by omega)
  rw [← hbytes, ← length_drop] at hfits
  rw [if_neg (mt hroom.1 haddr), outcome_store_bind]
  by_cases hshort : ai.ShortInet ∧ r.length < 24 + 16
  · refine ⟨r.drop ai.stride, length_drop, ?_⟩
    rw [if_neg fun hle => hfits.1 hle hshort, if_neg haddr, if_pos hshort]
  have hstored := hfits.2 hshort
  have hlength := ai.addrlen_le_addressRoom
  rw [if_pos hstored, outcome_advance]
  -- the name
  rw [length_drop] at hstored
  have hleft : ((bytes ++ (r.drop 24).drop bytes.length).drop ai.addrlen.toNat).length =
      r.length - (24 + ai.addrlen.toNat) := by
    simp only [length_drop, length_append]
    omega
  have hasked : (size - 24#64 - ai.addressRoom).toNat < ai.string.length + 1 ↔
      size.toNat < ai.asked := by
    rw [toNat_sub_address (Nat.not_lt.1 haddr)]
    unfold AddrInfo.asked
    omega
  refine ⟨((bytes ++ (r.drop 24).drop bytes.length).drop ai.addrlen.toNat).drop
    (ai.string.length + 1), ?_, ?_⟩
  · rw [length_drop, hleft, Nat.sub_sub]
    rfl
  · have hname : (ai.string ++ [0#8]).length = ai.string.length + 1 := length_append
    rw [if_neg haddr, if_neg hshort, outcome_checked_store hname]
    · simp only [hasked]
      rfl
    · intro henough
      have hroom := mt hasked.2 henough
      unfold AddrInfo.asked at hroom
      omega

end Record

/-! ## All records -/

section Lists

variable {ai : AddrInfo} {next : List AddrInfo}

theorem shortInetFits_nil (left space : Nat) : ShortInetFits [] left space := by
  intro before ai after h
  cases append_eq_nil_iff.1 h.symm |>.2

theorem shortInetFits_cons {left space : Nat} : ShortInetFits (ai :: next) left space ↔
    (ai.ShortInet → 24 + ai.addrlen.toNat ≤ left → 24 + 16 ≤ space) ∧
      (ai.asked ≤ left → ShortInetFits next (left - ai.asked) (space - ai.stride)) := by
  constructor
  · intro h
    refine ⟨fun hshort hleft => ?_, fun _ before n after hsplit hshort hleft => ?_⟩
    · have hhere := h [] ai next rfl hshort
      simp only [map_nil, sum_nil, Nat.zero_add] at hhere
      exact hhere hleft
    · have hthere := h (ai :: before) n after (by rw [hsplit]; rfl) hshort
      simp only [map_cons, sum_cons] at hthere
      omega
  · rintro ⟨hhere, hthere⟩ before n after hsplit hshort hleft
    cases before with
    | nil =>
      obtain ⟨rfl, -⟩ := List.cons.inj hsplit
      simp only [map_nil, sum_nil, Nat.zero_add] at hleft ⊢
      exact hhere hshort hleft
    | cons m before =>
      obtain ⟨rfl, hnext⟩ := List.cons.inj hsplit
      simp only [map_cons, sum_cons] at hleft ⊢
      have hspace := hthere (by omega) before n after hnext hshort (by omega)
      omega

theorem room_cons : room (ai :: next) = ai.asked + room next := rfl

theorem packResult_of_lt {size : Nat} (h : size < ai.asked) :
    packResult (ai :: next) size = .error (.result Err.bsdBufferTooSmall) := by
  unfold packResult
  rw [room_cons, if_neg (by omega)]

theorem packResult_of_le {size : Nat} (h : ai.asked ≤ size) :
    packResult (ai :: next) size = packResult next (size - ai.asked) := by
  unfold packResult
  rw [room_cons]
  have hiff : ai.asked + room next ≤ size ↔ room next ≤ size - ai.asked := by omega
  simp only [hiff]

/-- What `rest` does behind a record when `nodes` are left, for any size and buffer. -/
def PacksExactly (rest : BitVec 64 → PackM Unit) (nodes : List AddrInfo) : Prop :=
  ∀ (size : BitVec 64) (r : List Byte), size.toNat ≤ r.length →
    (outcome (rest size r) = packResult nodes size.toNat ↔
      ShortInetFits nodes size.toNat r.length)

theorem packsExactly_record (h : ai.Readable) {rest : BitVec 64 → PackM Unit}
    (hrest : PacksExactly rest next) :
    PacksExactly (fun size => packRecord ai size rest) (ai :: next) := by
  intro size r hle
  obtain ⟨r', hlen, hout⟩ := packRecord_outcome h rest hle
  have hroom := ai.addrlen_le_addressRoom
  rw [hout, shortInetFits_cons]
  by_cases haddr : size.toNat < 24 + ai.addressRoom.toNat
  · have hasked : size.toNat < ai.asked := by
      unfold AddrInfo.asked
      omega
    rw [if_pos haddr, packResult_of_lt hasked]
    refine iff_of_true rfl ⟨fun hshort hleft => ?_, fun hle => by omega⟩
    have hne : ai.addrlen ≠ 0 := by
      intro hzero
      have hpos := hshort.2.1
      rw [hzero] at hpos
      exact absurd hpos (by decide)
    rw [AddrInfo.addressRoom_of_ne hne] at haddr
    omega
  rw [if_neg haddr]
  by_cases hshort : ai.ShortInet ∧ r.length < 24 + 16
  · rw [if_pos hshort]
    refine iff_of_false (fun hfault => ?_) fun hfits => ?_
    · unfold packResult at hfault
      split at hfault <;> cases hfault
    · have hspace := hfits.1 hshort.1 (by omega)
      omega
  rw [if_neg hshort]
  have hspace : ai.ShortInet → 24 + ai.addrlen.toNat ≤ size.toNat → 24 + 16 ≤ r.length :=
    fun hinet _ => Nat.not_lt.1 fun hlt => hshort ⟨hinet, hlt⟩
  rw [and_iff_right hspace]
  by_cases hasked : size.toNat < ai.asked
  · rw [if_pos hasked, packResult_of_lt hasked]
    exact iff_of_true rfl fun hle => by omega
  · have hsize : (sizeAfter ai size).toNat = size.toNat - ai.asked :=
      toNat_sizeAfter (Nat.not_lt.1 hasked)
    have hstride : ai.stride ≤ ai.asked := by
      unfold AddrInfo.stride AddrInfo.asked
      omega
    have hbehind := hrest (sizeAfter ai size) r' (by omega)
    rw [hsize, hlen] at hbehind
    rw [if_neg hasked, packResult_of_le (Nat.not_lt.1 hasked), hbehind,
      forall_prop_of_true (Nat.not_lt.1 hasked)]

theorem packsExactly_terminator : PacksExactly packTerminator [] := by
  intro size r hle
  refine iff_of_true ?_ (shortInetFits_nil _ _)
  unfold packTerminator packResult
  rw [outcome_failIf_bind]
  by_cases h4 : 4 ≤ size.toNat
  · have hroom : ¬ size < 4#64 := Nat.not_lt.2 h4
    have hstore : store BsdError.fault (List.replicate 4 0#8) r =
        .ok () (List.replicate 4 0#8 ++ r.drop 4) :=
      store_eq_ok.2 ⟨Nat.le_trans h4 hle, rfl⟩
    rw [if_neg hroom, hstore, if_pos (show room [] ≤ size.toNat from h4)]
    rfl
  · have hsmall : size < 4#64 := Nat.not_le.1 h4
    rw [if_pos hsmall, if_neg (show ¬ room [] ≤ size.toNat from h4)]

theorem packsExactly (h : ∀ n ∈ ai :: next, n.Readable) :
    PacksExactly (bsdAiPack ai next) (ai :: next) := by
  induction next generalizing ai with
  | nil => exact packsExactly_record (h ai mem_cons_self) packsExactly_terminator
  | cons ai' next ih =>
    exact packsExactly_record (h ai mem_cons_self)
      (ih fun n hn => h n (mem_cons_of_mem _ hn))

/-- **The capacity.** A buffer of `size` bytes is written only inside, and the result says whether
the encoding fits, exactly if there is space for every short internet address that is reached. -/
theorem pack_respects_capacity_iff (h : ∀ n ∈ ai :: next, n.Readable) (size : BitVec 64)
    (buf : List Byte) (hbuf : buf.length = size.toNat) :
    outcome (bsdAiPack ai next size buf) = packResult (ai :: next) size.toNat ↔
      ShortInetFits (ai :: next) size.toNat size.toNat := by
  have hpacks := packsExactly h size buf (Nat.le_of_eq hbuf.symm)
  rwa [hbuf] at hpacks

end Lists

theorem udpNode_readable : udpNode.Readable :=
  ⟨fun _ _ => by decide, fun _ => by decide, fun _ _ => by decide, rfl⟩

/-- A whole internet address in 49 bytes, and in one byte less. -/
theorem udpNode_capacity :
    outcome (bsdAiPack udpNode [] 49#64 (List.replicate 49 0#8)) = .ok () ∧
      outcome (bsdAiPack udpNode [] 48#64 (List.replicate 48 0#8)) =
        .error (.result Err.bsdBufferTooSmall) := by
  have hreadable : ∀ n ∈ [udpNode], n.Readable := fun n hn => by
    rw [mem_singleton.1 hn]
    exact udpNode_readable
  have hfits : ∀ n, ShortInetFits [udpNode] n n := fun n =>
    shortInetFits_cons.2 ⟨fun hshort => absurd hshort (by decide), fun _ => shortInetFits_nil _ _⟩
  exact ⟨(pack_respects_capacity_iff hreadable 49#64 (List.replicate 49 0#8) rfl).2 (hfits 49),
    (pack_respects_capacity_iff hreadable 48#64 (List.replicate 48 0#8) rfl).2 (hfits 48)⟩

/-- An internet address that claims to be four bytes long. -/
def fourByteInet : AddrInfo := { udpNode with addrlen := 4, canonname := none }

/-- Its encoding takes the 33 bytes of the buffer, and the packing writes behind them. -/
theorem fourByteInet_overruns :
    fourByteInet.Readable ∧ room [fourByteInet] = 33 ∧
      outcome (bsdAiPack fourByteInet [] 33#64 (List.replicate 33 0#8)) = .error .fault ∧
      outcome (bsdAiPack fourByteInet [] 33#64 (List.replicate 33 0#8)) ≠
        packResult [fourByteInet] 33 := by
  have hfault : outcome (bsdAiPack fourByteInet [] 33#64 (List.replicate 33 0#8)) =
      .error .fault := rfl
  refine ⟨⟨fun _ _ => by decide, fun _ => by decide, fun _ _ => by decide, rfl⟩, rfl, hfault, ?_⟩
  exact fun h => nomatch h

end LibTransistor
