import LibTransistor.Bsd.RoundTrip

/-!
# What unpacking reads and writes

`bsd_ai_unpack` compares the size that is left with the length of a header only: an address, a
canonical name and the word behind them are read wherever the answer says they end, and storage that
comes with a node is written to without a look at its size.

`unpack_within_bounds_iff` says for which answers every access stays inside all the same, and no
record that is cut off is taken for a whole one (`AnswerFits`).
-/

namespace LibTransistor

open Fallible List

variable {α : Type} {P : Prop} {name : List Byte}

/-! ## Records -/

/-- The word that a block starts with, in network byte order. -/
def firstWord (b : List Byte) : BitVec 32 :=
  ofBytes (b.getD 0 0#8) (b.getD 1 0#8) (b.getD 2 0#8) (b.getD 3 0#8)

namespace AddrInfo

variable (ai : AddrInfo) (buf : List Byte)

/-- The node after the header at `buf` has been read. -/
def filled : AddrInfo :=
  { ai with
    flags := firstWord (buf.drop 4)
    family := firstWord (buf.drop 8)
    socktype := firstWord (buf.drop 12)
    protocol := firstWord (buf.drop 16)
    addrlen := firstWord (buf.drop 20) }

/-- The bytes that an address may be stored in: those that came with the node, or as many as are
allocated. -/
def addressStorage : Nat := (ai.addr.map List.length).getD ai.addrlen.toNat

/-- The address at `buf` is there and fits. Of an internet address, eight bytes are read and sixteen
are written. -/
def AddressFits : Prop :=
  ai.addrlen ≠ 0 →
    if ai.family = afInet then 8 ≤ buf.length ∧ 16 ≤ ai.addressStorage
    else ai.addrlen.toNat ≤ buf.length ∧ ai.addrlen.toNat ≤ ai.addressStorage

/-- The name and its terminator fit into the storage for it, if there is one. -/
def NameFits (name : List Byte) : Prop :=
  name ≠ [] → ∀ block, ai.canonname = some block → name.length + 1 ≤ block.length

/-- The header at `buf` is a whole one, and announces nothing that is not implemented. -/
def Begun : Prop :=
  24 ≤ buf.length ∧ firstWord buf = aiMagic ∧
    ((ai.filled buf).addrlen ≠ 0 → (ai.filled buf).family ≠ afInet6)

/-- What is behind a record with canonical name `name`. -/
def behind (buf name : List Byte) : List Byte :=
  buf.drop (24 + (ai.filled buf).addressRoom.toNat + (name.length + 1))

/-- The record at `buf`, of canonical name `name`, is a whole one and fits. -/
structure RecordFits (ai : AddrInfo) (buf name : List Byte) : Prop where
  address : (ai.filled buf).AddressFits (buf.drop 24)
  string : stringAt (buf.drop (24 + (ai.filled buf).addressRoom.toNat)) = some name
  storage : ai.NameFits name

end AddrInfo

/-- Every one of at most `fuel` records that is begun fits, and has four bytes behind it. -/
def RecordsFit : Nat → AddrInfo → List AddrInfo → List Byte → Int → Prop
  | 0, _, _, _, _ => True
  | fuel + 1, ai, next, buf, limit =>
    limit ≠ 0 → ai.Begun buf →
      ∃ name, ai.RecordFits buf name ∧ 4 ≤ (ai.behind buf name).length ∧
        (firstWord (ai.behind buf name) = aiMagic →
          RecordsFit fuel (next.headD .zeroed) next.tail (ai.behind buf name) (limit - 1))

/-- The records of an answer fit into the nodes. -/
def AnswerFits (ai : AddrInfo) (next : List AddrInfo) (buf : List Byte) (limit : Int) : Prop :=
  RecordsFit (buf.length + 1) ai next buf limit

/-- At most `fuel` records are whole, up to the limit or to a word that begins no record. -/
def WholeRecords : Nat → List Byte → Int → Prop
  | 0, _, _ => True
  | fuel + 1, buf, limit =>
    limit ≠ 0 → 24 ≤ buf.length ∧ ∃ name,
      stringAt (buf.drop (24 + (AddrInfo.zeroed.filled buf).addressRoom.toNat)) = some name ∧
        (firstWord (AddrInfo.zeroed.behind buf name) = aiMagic →
          WholeRecords fuel (AddrInfo.zeroed.behind buf name) (limit - 1))

/-- Nothing outside of the answer, the storage of the nodes and the allocated blocks is accessed,
and an answer that is accepted has no record that is cut off. -/
def WithinBounds (ai : AddrInfo) (next : List AddrInfo) (buf : List Byte) (size : BitVec 64)
    (limit : Int) : Prop :=
  ∀ (m : Malloc) (time : Nat), Ends (bsdAiUnpack m ai next buf size limit time)
    (fun _ _ => WholeRecords (buf.length + 1) buf limit) (fun e _ => e ≠ .fault)

/-! ## The parts of a record -/

section Parts

variable {m : Malloc} {ai : AddrInfo} {buf : List Byte} {time : Nat}

theorem readBe32_of_le (h : 4 ≤ buf.length) : readBe32 buf time = .ok (firstWord buf) time := by
  match buf, h with
  | _ :: _ :: _ :: _ :: _, _ => rfl

theorem readBe32_of_lt (h : buf.length < 4) : readBe32 buf time = .error .fault time := by
  match buf, h with
  | [], _ => rfl
  | [_], _ => rfl
  | [_, _], _ => rfl
  | [_, _, _], _ => rfl

theorem unpackHeader_run (h : 24 ≤ buf.length) : unpackHeader ai buf time =
    if firstWord buf ≠ aiMagic then .error (.result Err.bsdInvalidMagic) time
    else .ok (ai.filled buf) time := by
  have hword : ∀ i, i ≤ 20 → readBe32 (buf.drop i) time = .ok (firstWord (buf.drop i)) time :=
    fun i hi => readBe32_of_le (by rw [length_drop]; omega)
  unfold unpackHeader
  rw [bind_of_ok (readBe32_of_le (by omega)), bind_of_ok (hword 4 (by decide)),
    bind_of_ok (hword 8 (by decide)), bind_of_ok (hword 12 (by decide)),
    bind_of_ok (hword 16 (by decide)), bind_of_ok (hword 20 (by decide))]
  split
  · next hmagic => exact failIf_bind_of hmagic
  · next hmagic => exact failIf_bind_of_not hmagic

/-- How a part of the unpacking ends: well, and with `Q`, if `P` holds, and with a fault if not. In
between, the memory may run out. -/
def Judged {α : Type} (m : Malloc) (P : Prop) (Q : α → Prop) (r : EStateM.Result BsdError Nat α) :
    Prop :=
  Ends r (fun a _ => P ∧ Q a) (fun e _ => if e = .fault then ¬ P else ¬ m.Succeeds)

variable {Q : α → Prop}

theorem Judged.bind {β : Type} {P' : Prop} {Q' : β → Prop} {x : UnpackM α} {f : α → UnpackM β}
    (hx : Judged m P Q (x time)) (hf : ∀ a t, P → Q a → Judged m P' Q' (f a t)) :
    Judged m (P ∧ P') Q' ((x >>= f) time) := by
  cases hrun : x time with
  | ok a t =>
    rw [hrun] at hx
    rw [bind_of_ok hrun]
    refine (hf a t hx.1 hx.2).imp (fun b _ h => ⟨⟨hx.1, h.1⟩, h.2⟩) fun e _ h => ?_
    split at h
    · next he =>
        rw [if_pos he]
        exact fun hP => h hP.2
    · next he =>
        rw [if_neg he]
        exact h
  | error e t =>
    rw [hrun] at hx
    rw [bind_of_error hrun]
    have herror : if e = .fault then ¬ P else ¬ m.Succeeds := hx
    show if e = .fault then ¬ (P ∧ P') else ¬ m.Succeeds
    split at herror
    · next he =>
        rw [if_pos he]
        exact fun hP => herror hP.1
    · next he =>
        rw [if_neg he]
        exact herror

theorem Judged.congr {P' : Prop} {Q' : α → Prop} {r : EStateM.Result BsdError Nat α}
    (h : Judged m P Q r) (hP : P ↔ P') (hQ : ∀ a, P → Q a → Q' a) : Judged m P' Q' r := by
  refine Ends.imp h (fun a _ ha => ⟨hP.1 ha.1, hQ a ha.1 ha.2⟩) fun e _ he => ?_
  rw [← hP]
  exact he

theorem judged_pure {a : α} (hP : P) (hQ : Q a) :
    Judged m P Q ((pure a : UnpackM α) time) := ⟨hP, hQ⟩

theorem judged_fault (hP : ¬ P) : Judged m P Q ((throw .fault : UnpackM α) time) := hP

theorem call_ends (m : Malloc) (n time : Nat) : Ends (m.call n time) (fun b _ => b.length = n)
    (fun e _ => e = .result Err.outOfMemory ∧ ¬ m.Succeeds) := by
  unfold Malloc.call
  cases hblock : m.block time n with
  | none =>
    refine ⟨rfl, fun h => ?_⟩
    have hsome := h time n
    rw [hblock] at hsome
    cases hsome
  | some b => exact m.length_block time n b hblock

theorem judged_blockFor (m : Malloc) (old : Option (List Byte)) (n time : Nat) :
    Judged m True (fun b => b.length = (old.map List.length).getD n) (m.blockFor old n time) := by
  cases old with
  | some b => exact judged_pure trivial rfl
  | none =>
    refine (call_ends m n time).imp (fun b _ h => ⟨trivial, h⟩) ?_
    rintro e _ ⟨rfl, h⟩
    exact h

theorem judged_overwrite (block bytes : List Byte) (time : Nat) :
    Judged m (bytes.length ≤ block.length) (fun _ => True) (overwrite block bytes time) := by
  unfold overwrite
  split
  · next h => exact judged_pure h trivial
  · next h => exact judged_fault h

theorem swappedSockaddrIn_eq_none (h : ¬ 8 ≤ buf.length) : swappedSockaddrIn buf = none := by
  unfold swappedSockaddrIn
  split
  · simp at h
  · rfl

theorem judged_readAddress (h6 : ai.family ≠ afInet6) (block : List Byte) (time : Nat) :
    Judged m (if ai.family = afInet then 8 ≤ buf.length ∧ 16 ≤ block.length
        else ai.addrlen.toNat ≤ buf.length ∧ ai.addrlen.toNat ≤ block.length)
      (fun _ => True) (readAddress ai block buf time) := by
  unfold readAddress
  by_cases hfam : ai.family = afInet
  · rw [if_pos hfam, if_pos hfam]
    by_cases hlen : 8 ≤ buf.length
    · obtain ⟨bytes, hbytes, hsixteen⟩ := swappedSockaddrIn_of_le buf hlen
      rw [hbytes]
      refine (judged_overwrite block bytes time).congr ?_ fun _ _ h => h
      rw [hsixteen, and_iff_right hlen]
    · rw [swappedSockaddrIn_eq_none hlen]
      exact judged_fault fun h => hlen h.1
  · rw [if_neg hfam, if_neg hfam, if_neg h6]
    by_cases hlen : buf.length < ai.addrlen.toNat
    · rw [if_pos hlen]
      exact judged_fault fun h => by omega
    · rw [if_neg hlen]
      refine (judged_overwrite block _ time).congr ?_ fun _ _ h => h
      rw [length_take, Nat.min_eq_left (Nat.not_lt.1 hlen), and_iff_right (Nat.not_lt.1 hlen)]

theorem judged_unpackAddress (h6 : ai.addrlen ≠ 0 → ai.family ≠ afInet6) (time : Nat) :
    Judged m (ai.AddressFits buf)
      (fun ai' => ai'.addrlen = ai.addrlen ∧ ai'.canonname = ai.canonname)
      (unpackAddress m ai buf time) := by
  unfold unpackAddress
  by_cases h0 : ai.addrlen = 0
  · rw [if_pos h0]
    exact judged_pure (fun hne => absurd h0 hne) ⟨rfl, rfl⟩
  rw [if_neg h0]
  have hread : ∀ (block : List Byte) (t : Nat), True →
      block.length = (ai.addr.map List.length).getD ai.addrlen.toNat →
      Judged m (ai.AddressFits buf) (fun _ => True) (readAddress ai block buf t) := by
    intro block t _ hblock
    refine (judged_readAddress (h6 h0) block t).congr ?_ fun _ _ h => h
    unfold AddrInfo.AddressFits AddrInfo.addressStorage
    rw [forall_prop_of_true h0, hblock]
  refine ((judged_blockFor m ai.addr ai.addrlen.toNat time).bind fun block t h hblock =>
    (hread block t h hblock).bind fun b t' _ _ => judged_pure trivial ⟨rfl, rfl⟩).congr ?_
      fun _ _ h => h
  rw [true_and, and_true]

theorem unpackAddress_inet6 (time : Nat) (h0 : ai.addrlen ≠ 0) (h6 : ai.family = afInet6)
    (buf : List Byte) : ∃ e t, unpackAddress m ai buf time = .error (.result e) t := by
  have hread : ∀ block t, readAddress ai block buf t = .error (.result Err.unimplemented) t := by
    intro block t
    unfold readAddress
    rw [h6]
    rfl
  unfold unpackAddress
  rw [if_neg h0]
  cases hblock : m.blockFor ai.addr ai.addrlen.toNat time with
  | ok block t =>
    rw [bind_of_ok hblock, bind_of_error (hread block t)]
    exact ⟨_, t, rfl⟩
  | error e t =>
    rw [bind_of_error hblock]
    have hends := judged_blockFor m ai.addr ai.addrlen.toNat time
    rw [hblock] at hends
    cases e with
    | result r => exact ⟨r, t, rfl⟩
    | fault => exact absurd trivial hends

theorem nameFits_iff (hne : name ≠ []) :
    name.length + 1 ≤ (ai.canonname.map List.length).getD (name.length + 1) ↔
      ai.NameFits name := by
  unfold AddrInfo.NameFits
  rw [forall_prop_of_true hne]
  cases ai.canonname with
  | none => exact iff_of_true (Nat.le_refl _) fun _ h => nomatch h
  | some block =>
    constructor
    · rintro h _ ⟨⟩
      exact h
    · exact fun h => h block rfl

theorem judged_unpackName (m : Malloc) (ai : AddrInfo) (buf : List Byte) (time : Nat) :
    Judged m (∃ name, stringAt buf = some name ∧ ai.NameFits name)
      (fun r => r.1.addrlen = ai.addrlen ∧ ∃ name, stringAt buf = some name ∧ r.2 = name.length + 1)
      (unpackName m ai buf time) := by
  unfold unpackName
  cases hs : stringAt buf with
  | none => exact judged_fault fun ⟨_, h, _⟩ => nomatch h
  | some name =>
    cases name with
    | nil => exact judged_pure ⟨[], rfl, fun hne => absurd rfl hne⟩ ⟨rfl, [], rfl, rfl⟩
    | cons b name =>
      have hwrite : ∀ (block : List Byte) (t : Nat), True →
          block.length = (ai.canonname.map List.length).getD ((b :: name).length + 1) →
          Judged m (ai.NameFits (b :: name)) (fun _ => True)
            (overwrite block (b :: name ++ [0#8]) t) := by
        intro block t _ hblock
        refine (judged_overwrite block _ t).congr ?_ fun _ _ h => h
        rw [hblock, length_append]
        exact nameFits_iff (cons_ne_nil b name)
      refine ((judged_blockFor m ai.canonname ((b :: name).length + 1) time).bind
        fun block t h hblock => (hwrite block t h hblock).bind fun b t' _ _ =>
          judged_pure trivial ⟨rfl, _, rfl, rfl⟩).congr ?_ fun _ _ h => h
      rw [true_and, and_true]
      constructor
      · exact fun h => ⟨b :: name, rfl, h⟩
      · rintro ⟨_, ⟨⟩, h⟩
        exact h

end Parts

/-! ## Whole records -/

section Records

variable {m : Malloc} {ai : AddrInfo} {buf : List Byte} {size : BitVec 64} {time : Nat}

theorem length_behind (name : List Byte) : (ai.behind buf name).length =
    buf.length - (24 + (ai.filled buf).addressRoom.toNat + (name.length + 1)) := length_drop

theorem AddrInfo.RecordFits.length_le (h : ai.RecordFits buf name) :
    24 + (ai.filled buf).addressRoom.toNat + (name.length + 1) ≤ buf.length := by
  have hlt := length_stringAt_lt h.string
  rw [length_drop] at hlt
  omega

theorem toNat_size_behind (hsize : buf.length = size.toNat) (h : ai.RecordFits buf name) :
    (size - 24#64 - (ai.filled buf).addressRoom - BitVec.ofNat 64 (name.length + 1)).toNat =
      (ai.behind buf name).length := by
  have hle := h.length_le
  have hname : (BitVec.ofNat 64 (name.length + 1)).toNat = name.length + 1 :=
    Nat.mod_eq_of_lt (by omega)
  have h24 : (size - 24#64).toNat = size.toNat - 24 :=
    BitVec.toNat_sub_of_le (show 24 ≤ size.toNat by omega)
  have hroom : (size - 24#64 - (ai.filled buf).addressRoom).toNat =
      size.toNat - 24 - (ai.filled buf).addressRoom.toNat := by
    rw [BitVec.toNat_sub_of_le (by rw [BitVec.le_def]; omega), h24]
  rw [BitVec.toNat_sub_of_le (by rw [BitVec.le_def]; omega), length_behind]
  omega

theorem unpackRecord_refused (time : Nat) (hsize : buf.length = size.toNat) (h : ¬ ai.Begun buf) :
    ∃ e t, unpackRecord m ai buf size time = .error (.result e) t := by
  unfold unpackRecord
  by_cases h24 : 24 ≤ buf.length
  · have hguard : ¬ size < 24#64 := Nat.not_lt.2 (show 24 ≤ size.toNat by omega)
    rw [failIf_bind_of_not hguard]
    by_cases hmagic : firstWord buf = aiMagic
    · have hheader : unpackHeader ai buf time = .ok (ai.filled buf) time := by
        rw [unpackHeader_run h24, if_neg (not_not.2 hmagic)]
      rw [bind_of_ok hheader]
      -- the family that is not implemented
      obtain ⟨h0, h6⟩ : (ai.filled buf).addrlen ≠ 0 ∧ (ai.filled buf).family = afInet6 := by
        by_contra hnot
        exact h ⟨h24, hmagic, fun h0 h6 => hnot ⟨h0, h6⟩⟩
      obtain ⟨e, t, haddress⟩ := unpackAddress_inet6 time h0 h6 (buf.drop 24)
      exact ⟨e, t, bind_of_error haddress⟩
    · have hheader : unpackHeader ai buf time = .error (.result Err.bsdInvalidMagic) time := by
        rw [unpackHeader_run h24, if_pos hmagic]
      exact ⟨_, time, bind_of_error hheader⟩
  · have hguard : size < 24#64 := show size.toNat < 24 by omega
    exact ⟨_, time, failIf_bind_of hguard⟩

theorem judged_behind_address (ai' : AddrInfo) (t : Nat)
    (hai : ai'.addrlen = (ai.filled buf).addrlen ∧ ai'.canonname = (ai.filled buf).canonname) :
    Judged m (∃ name, stringAt (buf.drop (24 + (ai.filled buf).addressRoom.toNat)) = some name ∧
        ai.NameFits name)
      (fun r => ∃ name, stringAt (buf.drop (24 + (ai.filled buf).addressRoom.toNat)) = some name ∧
        r = (r.1, ai.behind buf name,
          size - 24#64 - (ai.filled buf).addressRoom - BitVec.ofNat 64 (name.length + 1)))
      ((unpackName m ai' ((buf.drop 24).drop ai'.addressRoom.toNat) >>= fun r =>
        pure (r.1, ((buf.drop 24).drop ai'.addressRoom.toNat).drop r.2,
          size - 24#64 - r.1.addressRoom - BitVec.ofNat 64 r.2)) t) := by
  have hroom : ∀ {a : AddrInfo}, a.addrlen = (ai.filled buf).addrlen →
      a.addressRoom = (ai.filled buf).addressRoom := by
    intro a ha
    unfold AddrInfo.addressRoom
    rw [ha]
  rw [hroom hai.1, drop_drop]
  refine ((judged_unpackName m ai' _ t).bind fun r t' _ hr => judged_pure trivial ?_).congr ?_
    fun _ _ h => h
  · obtain ⟨hlen, name, hs, hn⟩ := hr
    refine ⟨name, hs, ?_⟩
    rw [hn, hroom (hlen.trans hai.1), drop_drop]
    rfl
  · rw [and_true]
    unfold AddrInfo.NameFits
    rw [hai.2]
    rfl

theorem judged_unpackRecord (time : Nat) (hsize : buf.length = size.toNat) (h : ai.Begun buf) :
    Judged m (∃ name, ai.RecordFits buf name)
      (fun r => ∃ name, ai.RecordFits buf name ∧ r.2.1 = ai.behind buf name ∧
        r.2.2.toNat = (ai.behind buf name).length)
      (unpackRecord m ai buf size time) := by
  have hguard : ¬ size < 24#64 := Nat.not_lt.2 (hsize ▸ h.1)
  have hheader : unpackHeader ai buf time = .ok (ai.filled buf) time := by
    rw [unpackHeader_run h.1, if_neg (not_not.2 h.2.1)]
  unfold unpackRecord
  rw [failIf_bind_of_not hguard, bind_of_ok hheader]
  refine ((judged_unpackAddress h.2.2 time).bind fun ai' t _ hai =>
    judged_behind_address ai' t hai).congr ?_ ?_
  · constructor
    · rintro ⟨haddress, name, hs, hstorage⟩
      exact ⟨name, haddress, hs, hstorage⟩
    · rintro ⟨name, hfits⟩
      exact ⟨hfits.address, name, hfits.string, hfits.storage⟩
  · rintro r ⟨haddress, name, hs, hstorage⟩ ⟨name', hs', hr⟩
    cases hs.symm.trans hs'
    have hfits : ai.RecordFits buf name := ⟨haddress, hs, hstorage⟩
    refine ⟨name, hfits, ?_, ?_⟩
    · rw [hr]
    · rw [hr]
      exact toNat_size_behind hsize hfits

theorem recordsFit_iff {fuel : Nat} {next : List AddrInfo} {limit : Int} (hlimit : limit ≠ 0)
    (hbegun : ai.Begun buf) (hfits : ai.RecordFits buf name) :
    RecordsFit (fuel + 1) ai next buf limit ↔ 4 ≤ (ai.behind buf name).length ∧
      (firstWord (ai.behind buf name) = aiMagic →
        RecordsFit fuel (next.headD .zeroed) next.tail (ai.behind buf name) (limit - 1)) := by
  constructor
  · intro h
    obtain ⟨name', hfits', hrest⟩ := h hlimit hbegun
    cases hfits.string.symm.trans hfits'.string
    exact hrest
  · exact fun h _ _ => ⟨name, hfits, h⟩

theorem nextNode_ends (m : Malloc) (next : List AddrInfo) (time : Nat) :
    Ends (nextNode m next time) (fun p _ => p = (next.headD .zeroed, next.tail))
      (fun e _ => e = .result Err.outOfMemory ∧ ¬ m.Succeeds) := by
  cases next with
  | cons ai next => exact rfl
  | nil =>
    refine Ends.bind (call_ends m sizeofAddrinfo time) fun _ _ _ => ?_
    exact rfl

theorem unpackFrom_ends (m : Malloc) (fuel : Nat) (ai : AddrInfo) (next : List AddrInfo)
    (buf : List Byte) (size : BitVec 64) (limit : Int) (time : Nat)
    (hsize : buf.length = size.toNat) (hfuel : buf.length < fuel) :
    Ends (unpackFrom m fuel ai next buf size limit time)
      (fun _ _ => RecordsFit fuel ai next buf limit ∧ WholeRecords fuel buf limit)
      (fun e _ => if e = .fault then ¬ RecordsFit fuel ai next buf limit
        else RecordsFit fuel ai next buf limit ∨ ¬ m.Succeeds) := by
  induction fuel generalizing ai next buf size limit time with
  | zero => omega
  | succ fuel ih =>
    unfold unpackFrom
    by_cases hlimit : limit = 0
    · rw [if_pos hlimit]
      exact ⟨fun hne => absurd hlimit hne, fun hne => absurd hlimit hne⟩
    rw [if_neg hlimit]
    by_cases hbegun : ai.Begun buf
    · have hrecord := judged_unpackRecord (m := m) time hsize hbegun
      cases hrun : unpackRecord m ai buf size time with
      | error e t =>
        rw [hrun] at hrecord
        rw [bind_of_error hrun]
        have herror : if e = .fault then ¬ (∃ name, ai.RecordFits buf name)
            else ¬ m.Succeeds := hrecord
        show if e = .fault then _ else _
        split at herror
        · next he =>
            rw [if_pos he]
            intro h
            obtain ⟨name, hfits, -⟩ := h hlimit hbegun
            exact herror ⟨name, hfits⟩
        · next he =>
            rw [if_neg he]
            exact .inr herror
      | ok r t =>
        rw [hrun] at hrecord
        obtain ⟨-, name, hfits, hbehind, hleft⟩ := hrecord
        rw [bind_of_ok hrun]
        dsimp only
        rw [hbehind, recordsFit_iff hlimit hbegun hfits]
        have hlen := @length_behind ai buf name
        by_cases hfour : 4 ≤ (ai.behind buf name).length
        · rw [bind_of_ok (readBe32_of_le hfour), and_iff_right hfour]
          by_cases hmagic : firstWord (ai.behind buf name) = aiMagic
          · rw [if_pos hmagic, forall_prop_of_true hmagic]
            refine Ends.bind ((nextNode_ends m next t).imp (fun _ _ h => h) ?_) ?_
            · rintro e _ ⟨rfl, h⟩
              exact .inr h
            · rintro _ t' rfl
              refine Ends.bind (ih _ _ (ai.behind buf name) r.2.2 (limit - 1) t' hleft.symm
                (by omega)) fun rest t'' h => ?_
              exact ⟨h.1, fun _ => ⟨hbegun.1, name, hfits.string, fun _ => h.2⟩⟩
          · rw [if_neg hmagic]
            exact ⟨fun h => absurd h hmagic, fun _ => ⟨hbegun.1, name, hfits.string,
              fun h => absurd h hmagic⟩⟩
        · rw [bind_of_error (readBe32_of_lt (Nat.not_le.1 hfour))]
          exact fun h => hfour h.1
    · obtain ⟨e, t, hrun⟩ := unpackRecord_refused time hsize hbegun
      rw [bind_of_error hrun]
      exact .inl fun _ h => absurd h hbegun

end Records

/-! ## The answer -/

/-- **Bounds.** Whatever `malloc` does, no access leaves its block and no record that is cut off is
accepted, exactly if the records that are begun fit. -/
theorem unpack_within_bounds_iff (ai : AddrInfo) (next : List AddrInfo) (buf : List Byte)
    (size : BitVec 64) (hsize : buf.length = size.toNat) (limit : Int) :
    WithinBounds ai next buf size limit ↔ AnswerFits ai next buf limit := by
  have hends := fun m time =>
    unpackFrom_ends m (buf.length + 1) ai next buf size limit time hsize (Nat.lt_succ_self _)
  constructor
  · -- an allocator that does not fail comes to every access there is
    intro h
    have hbounds := h zeroMalloc 0
    have hzero := hends zeroMalloc 0
    unfold bsdAiUnpack at hbounds
    cases hrun : unpackFrom zeroMalloc (buf.length + 1) ai next buf size limit 0 with
    | ok out t =>
      rw [hrun] at hzero
      exact hzero.1
    | error e t =>
      rw [hrun] at hzero hbounds
      have hresult : e ≠ .fault := hbounds
      have herror : if e = .fault then ¬ AnswerFits ai next buf limit
          else AnswerFits ai next buf limit ∨ ¬ zeroMalloc.Succeeds := hzero
      rw [if_neg hresult] at herror
      exact herror.resolve_right (not_not_intro fun _ _ => rfl)
  · intro h m time
    refine (hends m time).imp (fun _ _ hok => hok.2) fun e _ herror hfault => ?_
    rw [if_pos hfault] at herror
    exact herror h

/-- A node of `bsd_getaddrinfo_fixed`, with a `struct sockaddr_in` and 256 bytes for the name. -/
def fixedNode : AddrInfo :=
  { AddrInfo.zeroed with
    addr := some (List.replicate 16 0#8)
    canonname := some (List.replicate 256 0#8) }

/-- The answer with one record and a terminator. -/
theorem udpAnswer_within_bounds : WithinBounds fixedNode [] (encode [udpNode]) 49#64 1 := by
  have hsize : (encode [udpNode]).length = (49#64 : BitVec 64).toNat := rfl
  rw [unpack_within_bounds_iff fixedNode [] (encode [udpNode]) 49#64 hsize 1]
  intro _ _
  have hstorage : fixedNode.NameFits udpNode.string := by
    intro _ block hblock
    have hfixed : List.replicate 256 0#8 = block := Option.some.inj hblock
    rw [← hfixed, length_replicate]
    decide
  refine ⟨udpNode.string, ⟨fun _ => ?_, rfl, hstorage⟩, ?_⟩
  · exact ⟨by decide, by decide⟩
  · exact ⟨by decide, fun h => absurd h (by decide)⟩

/-- A record of another family with an address of 32 bytes. -/
def longAddress : AddrInfo :=
  { udpNode with family := 1, addrlen := 32, addr := some (List.replicate 32 1#8) }

/-- A header without what it announces is read on behind its end, and an address of 32 bytes is
stored into a `struct sockaddr_in`. -/
theorem answers_out_of_bounds :
    ¬ WithinBounds fixedNode [] (aiPackedHeader udpNode) 24#64 1 ∧
      ¬ WithinBounds fixedNode [] (encode [longAddress]) 65#64 1 := by
  refine ⟨fun h => ?_, fun h => ?_⟩
  · have hends := h zeroMalloc 0
    exact hends rfl
  · have hends := h zeroMalloc 0
    exact hends rfl

end LibTransistor
