import LibTransistor.Ipc.Request
import LibTransistor.Ipc.RoundTrip
import LibTransistor.Lib.Footprint
import Mathlib.Data.List.Forall2

/-!
# What the two ends of a request do

* `ipcPackRequest_eq_ok` — the message a request is packed as.
* `ipcUnflattenRequest_eq_ok` — when a message is accepted, check by check.
* `unflatten_session_iff` — the two put together for a request to a session: the handles, the PID
  flag and the magic always agree, and what is left are the buffers, the size and the objects.
-/

namespace LibTransistor

open Fallible Cursor List Mem

variable {rq : IpcRequest} {object : IpcObject}

variable {u msg : IpcMessage} {out out' : RequestOut} {c : Cursor Word} {w : World}
  {arrays : Family → Mem IpcBuffer} {n : Nat}

/-! ## Packing -/

namespace IpcRequest

/-- The command header and the raw data, or nothing for a request to close. -/
def payload (rq : IpcRequest) : List Word :=
  if rq.closeObject then [] else [sfci, 0#32, rq.requestId, 0#32] ++ rq.rawData

/-- The first word of the domain header. -/
def domainHead (rq : IpcRequest) : Word :=
  ((if rq.closeObject then 2#32 else 1#32) ||| (BitVec.ofNat 32 rq.objects.length <<< 8))
    ||| (BitVec.ofNat 32 (rq.payload.length * 4) <<< 16)

/-- The data section of a request, staged over a local array that held `stack`. -/
def dataSection (rq : IpcRequest) (stack : Mem Word) (object : IpcObject) : List Word :=
  if object.inDomain then
    rq.domainHead :: object.objectId :: (stack.read 2 2 ++ rq.payload ++
      rq.objects.map (·.objectId))
  else rq.payload

/-- The move handles on the wire. -/
def wireMoveHandles (rq : IpcRequest) (object : IpcObject) : List Handle :=
  (if object.inDomain then [] else rq.objects.map (·.session)) ++ rq.moveHandles

/-- The message that a request is packed as. -/
def message (rq : IpcRequest) (stack : Mem Word) (object : IpcObject) : PackMessage where
  messageType := rq.type.setWidth 16
  buffers := rq.buffers
  copyHandles := rq.copyHandles
  moveHandles := rq.wireMoveHandles object
  sendPid := rq.sendPid
  dataSection := rq.dataSection stack object

/-- What `ipc_pack_request` has checked before it packs the message. -/
structure Accepted (rq : IpcRequest) (object : IpcObject) : Prop where
  size_mod : rq.rawDataSize % 4 = 0
  size_le : rq.rawDataSize ≤ 0x200
  close : rq.closeObject = true → object.inDomain = true ∧ rq.WellFormedClose
  objects_le : object.inDomain = true → rq.objects.length ≤ 8

end IpcRequest

theorem storesWhile_stageObjectHandles :
    StoresWhile (fun tobject => !tobject.inDomain) (·.session) stageObjectHandles where
  nil _ := rfl
  cons tobject tobjects c h := by
    have hsession : ¬ tobject.inDomain = true := by simpa using h
    show (failIf _ _ >>= fun _ => _) c = _
    rw [failIf_bind_of_not hsession]
    rfl
  stop tobject tobjects c h := by
    have hdomain : tobject.inDomain = true := by simpa using h
    exact ⟨_, failIf_bind_of hdomain⟩

theorem storesWhile_stageObjectIds (object : IpcObject) :
    StoresWhile (fun tobject => tobject.domain = object.domain) (·.objectId)
      (stageObjectIds object) where
  nil _ := rfl
  cons tobject tobjects c h := by
    have hsame : tobject.domain = object.domain := of_decide_eq_true h
    show (failIf _ _ >>= fun _ => _) c = _
    rw [failIf_bind_of_not (not_not.2 hsame)]
    rfl
  stop tobject tobjects c h := by
    have hother : tobject.domain ≠ object.domain := of_decide_eq_false h
    exact ⟨_, failIf_bind_of hother⟩

theorem stageMoveHandles_eq_ok {c c' : Cursor Handle}
    (h : stageMoveHandles rq object.inDomain c = .ok () c') :
    c' = c.append (rq.wireMoveHandles object) :=
  storesWhile_stageObjectHandles.eq_of_ok_unless h

theorem stagePayload_eq_ok {toDomain : Bool} {c' : Cursor Word}
    (h : stagePayload rq toDomain c = .ok () c') :
    rq.rawDataSize ≤ 0x200 ∧ (rq.closeObject = true → toDomain = true ∧ rq.WellFormedClose) ∧
      c' = c.append rq.payload := by
  unfold stagePayload at h
  unfold IpcRequest.payload
  cases hc : rq.closeObject with
  | true =>
    rw [hc] at h
    obtain ⟨hd, h⟩ := failIf_bind_eq_ok.1 h
    by_cases hw : rq.WellFormedClose
    · rw [failIf_of_not (not_not.2 hw)] at h
      cases h
      exact ⟨by rw [hw.2.2.1]; omega, fun _ => ⟨by simpa using hd, hw⟩, by simp⟩
    · rw [failIf_of hw] at h
      cases h
  | false =>
    rw [hc] at h
    obtain ⟨hs, h⟩ := failIf_bind_eq_ok.1 h
    rw [emitAll_run] at h
    cases h
    exact ⟨by omega, by simp, by simp⟩

theorem stageRequestData_eq_ok {stack : Mem Word}
    (h : stageRequestData rq object object.inDomain ⟨stack, 0⟩ = .ok () c) :
    rq.rawDataSize ≤ 0x200 ∧
      (rq.closeObject = true → object.inDomain = true ∧ rq.WellFormedClose) ∧
      (object.inDomain = true → rq.objects.length ≤ 8) ∧
      c = (⟨stack, 0⟩ : Cursor Word).append (rq.dataSection stack object) := by
  unfold stageRequestData at h
  unfold IpcRequest.dataSection
  cases hd : object.inDomain with
  | true =>
    simp only [hd, if_true] at h ⊢
    obtain ⟨_, _, hh, h⟩ := bind_eq_ok.1 h
    obtain ⟨hlen, hh⟩ := failIf_bind_eq_ok.1 hh
    rw [bind_of_ok (emit_run _ _), bind_of_ok (emit_run _ _), append_append, skip_append] at hh
    cases hh
    rw [bind_of_ok (head_run _)] at h
    obtain ⟨_, _, hp, h⟩ := bind_eq_ok.1 h
    obtain ⟨hle, hclose, rfl⟩ := stagePayload_eq_ok hp
    rw [bind_of_ok (head_run _), append_append] at h
    obtain ⟨_, _, hm, h⟩ := bind_eq_ok.1 h
    cases hm.symm.trans (modifyAt_run [] _ _ _ ⟨stack, 0⟩)
    obtain ⟨-, rfl⟩ := (storesWhile_stageObjectIds object).eq_of_ok h
    refine ⟨hle, fun hc => ⟨trivial, (hclose hc).2⟩, fun _ => by omega, ?_⟩
    simp [IpcRequest.domainHead]
  | false =>
    simp only [hd, Bool.false_eq_true, if_false] at h ⊢
    rw [bind_of_ok (head_run _)] at h
    obtain ⟨_, _, hp, h⟩ := bind_eq_ok.1 h
    obtain ⟨hle, hclose, rfl⟩ := stagePayload_eq_ok hp
    obtain ⟨-, rfl⟩ := pure_eq_ok.1 h
    exact ⟨hle, by simpa using hclose, by simp, rfl⟩

/-- What was packed was staged: both functions return `RESULT_OK` only with a message that
`ipc_pack_message` accepts. -/
theorem Staging.pack_eq_ok {g : Staging} {handles : Mem Handle} {stack m : Mem Word}
    (h : g.pack handles stack ⟨m, 0⟩ = .ok () c) :
    (g.type &&& ~~~0xFFFF#32 = 0#32 ∧ g.rawDataSize % 4 = 0) ∧ ∃ mh data,
      g.moveHandles ⟨handles, 0⟩ = .ok () mh ∧ g.data ⟨stack, 0⟩ = .ok () data ∧
      let msg := g.message (mh.buffer.read 0 mh.h) (data.buffer.read 0 data.h)
      msg.Accepted ∧ c = (⟨m, 0⟩ : Cursor Word).append (msg.layout m) := by
  obtain ⟨htype, h⟩ := failIf_bind_eq_ok.1 h
  obtain ⟨hmod, h⟩ := failIf_bind_eq_ok.1 h
  obtain ⟨⟨_, mh⟩, _, hmh, h⟩ := bind_eq_ok.1 h
  obtain ⟨hmh', rfl⟩ := withLocal_eq_ok.1 hmh
  obtain ⟨⟨_, data⟩, _, hdata, h⟩ := bind_eq_ok.1 h
  obtain ⟨hdata', rfl⟩ := withLocal_eq_ok.1 hdata
  obtain ⟨_, _, hp, h⟩ := bind_eq_ok.1 h
  obtain ⟨-, rfl⟩ := pure_eq_ok.1 h
  obtain ⟨ha, -, rfl⟩ := ipcPackMessage_eq_ok hp
  exact ⟨⟨not_not.1 htype, not_not.1 hmod⟩, mh, data, hmh', hdata', ha, rfl⟩

theorem ipcPackRequest_eq_ok {handles : Mem Handle} {stack m : Mem Word}
    (h : ipcPackRequest handles stack rq object ⟨m, 0⟩ = .ok () c) :
    rq.Accepted object ∧ (rq.message stack object).Accepted ∧
      c = (⟨m, 0⟩ : Cursor Word).append ((rq.message stack object).layout m) := by
  obtain ⟨⟨-, hmod⟩, mh, data, hmh, hdata, ha, rfl⟩ := Staging.pack_eq_ok h
  obtain rfl := stageMoveHandles_eq_ok hmh
  obtain ⟨hle, hclose, hobj, rfl⟩ := stageRequestData_eq_ok hdata
  rw [read_append_self, read_append_self] at ha ⊢
  exact ⟨⟨hmod, hle, hclose, hobj⟩, ha, rfl⟩

/-! ## Unflattening -/

/-- The first word of the header of a request to a domain. -/
abbrev IpcMessage.domainHeader (msg : IpcMessage) : Word := msg.words msg.dataSection 0

/-- What the first part of `ipc_unflatten_request` checks. -/
structure RequestChecked (msg : IpcMessage) (fmt : IpcRequestFmt) (toDomain : Bool) : Prop where
  magic : msg.words msg.dataSection (if toDomain then 4 else 0) = sfci
  pid : msg.hasPid = fmt.sendPid
  copy : msg.numCopyHandles = fmt.numCopyHandles
  move : msg.numMoveHandles = fmt.numMoveHandles + if toDomain then 0 else fmt.numObjects
  objects : toDomain = true → domainNumObjects msg.domainHeader = fmt.numObjects
  payload : toDomain = true → domainRawDataSize msg.domainHeader = fmt.rawDataSize

theorem checkRequest_eq_ok {fmt : IpcRequestFmt} {toDomain : Bool} :
    checkRequest msg fmt toDomain out = .ok () out' ↔
      RequestChecked msg fmt toDomain ∧ out' = out := by
  simp only [checkRequest, checkNumbers, failIf_bind_eq_ok, failIf_eq_ok, not_not, not_and]
  constructor
  · rintro ⟨h₁, h₂, h₃, h₄, h₅, h₆, rfl⟩
    exact ⟨⟨h₁, h₂, h₃, h₄, h₅, h₆⟩, rfl⟩
  · rintro ⟨⟨h₁, h₂, h₃, h₄, h₅, h₆⟩, rfl⟩
    exact ⟨h₁, h₂, h₃, h₄, h₅, h₆, rfl⟩

/-- The state after the addresses and sizes of `n` buffers are set to zero. -/
def RequestOut.cleared (out : RequestOut) (n : Nat) : RequestOut :=
  { out with
    addrs := out.addrs.write 0 (List.replicate n 0#64)
    sizes := out.sizes.write 0 (List.replicate n 0#64) }

theorem ipcUnflattenRequest_eq_ok {fmt : IpcRequestFmt} {o : ObjPtr} :
    ipcUnflattenRequest w arrays msg fmt o out = .ok () out' ↔
      fmt.rawDataSize % 4 = 0 ∧ RequestChecked msg fmt (w.object o).isDomainObject ∧
      ∃ h u s out₁, unpackAll msg arrays = .ok (h, u) ∧
        assignBuffers u 0 fmt.bufferTypes ⟨fun _ => 0, 0⟩ (out.cleared fmt.bufferTypes.length) =
          .ok s out₁ ∧
        declaredRawWords msg (if (w.object o).isDomainObject then 4 + fmt.numObjects else 0)
          s.u16Count = fmt.rawDataSize / 4 ∧
        fmt.numObjects ≤ 8 ∧ copyOut w msg fmt (w.object o) h out₁ = .ok () out' := by
  unfold ipcUnflattenRequest
  rw [failIf_bind_eq_ok, not_not, check_bind_eq_ok checkRequest_eq_ok, runPure_bind_eq_ok]
  refine and_congr_right fun _ => and_congr_right fun _ => ?_
  constructor
  · rintro ⟨⟨h, u⟩, hu, hr⟩
    obtain ⟨s, out₁, hs, hr⟩ := bind_eq_ok.1 (modify_bind_run.symm.trans hr)
    obtain ⟨hsize, hr⟩ := failIf_bind_eq_ok.1 hr
    obtain ⟨hobj, hr⟩ := failIf_bind_eq_ok.1 hr
    exact ⟨h, u, s, out₁, hu, hs, not_not.1 hsize, by omega, hr⟩
  · rintro ⟨h, u, s, out₁, hu, hs, hsize, hobj, hr⟩
    refine ⟨(h, u), hu, modify_bind_run.trans (bind_eq_ok.2 ⟨s, out₁, hs, ?_⟩)⟩
    refine failIf_bind_eq_ok.2 ⟨not_not.2 hsize, ?_⟩
    exact failIf_bind_eq_ok.2 ⟨by omega, hr⟩

theorem receiveObjects_eq_ok {resolve : Word → Except ResultT ObjPtr} {words : Mem Word} {i : Nat} :
    receiveObjects resolve words n i out = .ok () out' ↔
      ∃ os, List.Forall₂ (fun x o => resolve x = .ok o) (words.read i n) os ∧
        out' = { out with objects := out.objects.write i os } := by
  induction n generalizing i out with
  | zero =>
    unfold receiveObjects
    rw [pure_eq_ok]
    simp
  | succ n ih =>
    have hread : words.read i (n + 1) = words i :: words.read (i + 1) n := by
      rw [Nat.add_comm n 1, read_add]
      rfl
    have hwrite : ∀ (o : ObjPtr) (os : List ObjPtr),
        Mem.write (Function.update out.objects i o) (i + 1) os = out.objects.write i (o :: os) := by
      intro o os
      rw [update_eq_write]
      exact (write_append _ i [o] os).symm
    unfold receiveObjects
    rw [hread, runPure_bind_eq_ok]
    constructor
    · rintro ⟨o, ho, h⟩
      obtain ⟨os, hos, rfl⟩ := ih.1 (modify_bind_run.symm.trans h)
      exact ⟨o :: os, .cons ho hos, by rw [hwrite]⟩
    · rintro ⟨_, hos, rfl⟩
      cases hos with
      | cons ho hos =>
        refine ⟨_, ho, modify_bind_run.trans (ih.2 ⟨_, hos, ?_⟩)⟩
        rw [hwrite]

theorem copyOut_session_eq_ok {fmt : IpcRequestFmt} {object : ServerObject} {h : Nat}
    (hd : object.isDomainObject = false) :
    copyOut w msg fmt object h out = .ok () out' ↔
      ∃ os, List.Forall₂
          (fun x o => objectOfHandle w (w.session object.owningSession).owningServer x = .ok o)
          (msg.buffer.read (msg.moveHandles.getD 0) fmt.numObjects) os ∧
        out' = { out with
          copyHandles := out.copyHandles.write 0
            (msg.buffer.read (msg.copyHandles.getD 0) fmt.numCopyHandles)
          objects := out.objects.write 0 os
          moveHandles := out.moveHandles.write 0
            (msg.buffer.read (msg.moveHandles.getD 0 + fmt.numObjects) fmt.numMoveHandles)
          rawData := out.rawData.write 0
            (msg.buffer.read (msg.dataSection + 4 + h) (fmt.rawDataSize / 4)) } := by
  unfold copyOut
  simp only [modify_bind_run, hd, Bool.false_eq_true, if_false, dif_neg, not_false_eq_true,
    unit_bind_eq_ok, receiveObjects_eq_ok, pure_eq_ok, copyWords, read_shift,
    IpcMessage.read_words, true_and]
  constructor
  · rintro ⟨_, ⟨os, hos, rfl⟩, rfl⟩
    exact ⟨os, hos, rfl⟩
  · rintro ⟨os, hos, rfl⟩
    exact ⟨_, ⟨os, hos, rfl⟩, rfl⟩

/-! ## The request behind the message -/

theorem unpackDescriptors_fst (width : Nat) (decode : Decoder) (src : Mem Word) (n i h : Nat)
    (arr : Mem IpcBuffer) : (unpackDescriptors width decode src n i h arr).1 = h + width * n := by
  induction n generalizing i h arr with
  | zero => rfl
  | succ n ih =>
    rw [unpackDescriptors, ih, Nat.mul_succ]
    omega

theorem declaredRawWords_eq {k u16 : Nat} (h : msg.rawDataSectionSize = 8 + k + (u16 + 1) / 2 + n)
    (hlt : msg.rawDataSectionSize < 1024) : declaredRawWords msg k u16 = n := by
  unfold declaredRawWords
  simp only [BitVec.toNat_sub, BitVec.toNat_ofNat]
  omega

/-- The format of the shape of a request. -/
def IpcRequest.fmt (rq : IpcRequest) : IpcRequestFmt where
  bufferTypes := rq.buffers.map (·.type)
  rawDataSize := rq.rawDataSize
  sendPid := rq.sendPid
  numCopyHandles := rq.copyHandles.length
  numMoveHandles := rq.moveHandles.length
  numObjects := rq.objects.length

section Packed

variable {stack m b : Mem Word}

theorem IpcRequest.Accepted.length_payload_le (hr : rq.Accepted object) : rq.payload.length ≤ 132 := by
  have hlen := rq.rawData_words
  have hle := hr.size_le
  unfold payload
  split_ifs
  · simp
  · simp only [length_append, length_cons, length_nil]
    omega

theorem IpcRequest.Accepted.length_dataSection_le (hr : rq.Accepted object) (stack : Mem Word) :
    (rq.dataSection stack object).length ≤ 144 := by
  have hp := hr.length_payload_le
  unfold dataSection
  split_ifs with hd
  · have ho := hr.objects_le hd
    simp only [length_append, length_cons, length_map, length_read]
    omega
  · omega

/-- What the server unpacks from a packed request, when its counts fit. -/
abbrev RequestUnpacked (rq : IpcRequest) (object : IpcObject) (stack m buf : Mem Word)
    (u : IpcMessage) : Prop :=
  (rq.message stack object).UnpackedShort m buf u

theorem unpack_request (hr : rq.Accepted object) (ha : (rq.message stack object).Accepted)
    (hb : (rq.message stack object).Holds m b) (hf : (rq.message stack object).CountsFit)
    (hc : (rq.message stack object).numC < 14) :
    RequestUnpacked rq object stack m b (ipcUnpack b) :=
  unpack_short ha hb (hr.length_dataSection_le stack) hf hc

theorem unpack_without_buffers (hr : rq.Accepted object) (ha : (rq.message stack object).Accepted)
    (hb : (rq.message stack object).Holds m b) (hbufs : rq.buffers = []) :
    RequestUnpacked rq object stack m b (ipcUnpack b) :=
  unpack_short_without_buffers ha hb (hr.length_dataSection_le stack) hbufs

theorem IpcRequest.Accepted.dataSection_session (hr : rq.Accepted object) (stack : Mem Word)
    (hd : object.inDomain = false) :
    (rq.message stack object).dataSection =
      [sfci, 0#32, rq.requestId, 0#32] ++ rq.rawData := by
  have hopen : rq.closeObject = false := by
    cases hc : rq.closeObject with
    | false => rfl
    | true => exact absurd (hr.close hc).1 (by simp [hd])
  simp [message, dataSection, payload, hd, hopen]

theorem RequestUnpacked.session_words (hr : rq.Accepted object)
    (hb : (rq.message stack object).Holds m b) (hu : RequestUnpacked rq object stack m b u)
    (hd : object.inDomain = false) :
    u.words u.dataSection 0 = sfci ∧ u.words u.dataSection 2 = rq.requestId ∧
      u.buffer.read (u.dataSection + 4) (rq.rawDataSize / 4) = rq.rawData := by
  have hdata := hb.read_data
  rw [hr.dataSection_session stack hd] at hdata
  simp only [IpcMessage.words, hu.buffer, hu.dataSection]
  refine ⟨eq_of_getElem? hdata rfl, eq_of_getElem? hdata rfl, ?_⟩
  rw [← rq.rawData_words]
  exact (read_eq_append hdata).2

theorem RequestUnpacked.session_handles (hu : RequestUnpacked rq object stack m b u)
    (hd : object.inDomain = false) :
    u.buffer.read (u.copyHandles.getD 0) rq.copyHandles.length = rq.copyHandles ∧
      u.buffer.read (u.moveHandles.getD 0) rq.objects.length = rq.objects.map (·.session) ∧
      u.buffer.read (u.moveHandles.getD 0 + rq.objects.length) rq.moveHandles.length =
        rq.moveHandles := by
  have hmove : u.buffer.read (u.moveHandles.getD 0) (rq.wireMoveHandles object).length =
    rq.wireMoveHandles object := hu.read_move
  simp only [IpcRequest.wireMoveHandles, hd, Bool.false_eq_true, if_false] at hmove
  have hsplit := read_eq_append hmove
  rw [length_map] at hsplit
  exact ⟨hu.read_copy, hsplit⟩

theorem RequestUnpacked.session_checked (hr : rq.Accepted object)
    (hb : (rq.message stack object).Holds m b) (hu : RequestUnpacked rq object stack m b u)
    (hd : object.inDomain = false) : RequestChecked u rq.fmt false where
  magic := (hu.session_words hr hb hd).1
  pid := hu.hasPid
  copy := hu.numCopy
  move := by
    rw [hu.numMove]
    simp [IpcRequest.message, IpcRequest.wireMoveHandles, IpcRequest.fmt, hd, Nat.add_comm]
  objects := by simp
  payload := by simp

theorem exists_unpackAll (hn : numCDescriptors u.cDescriptorFlags = some n)
    (arrays : Family → Mem IpcBuffer) : ∃ U, unpackAll u arrays = .ok (2 * n, U) := by
  simp only [unpackAll, hn, unpackDescriptors_fst, Nat.zero_add]
  exact ⟨_, rfl⟩

theorem unpackAll_count {h : Nat} {U : DescArrays} (hU : unpackAll u arrays = .ok (h, U)) :
    U.count .x = u.numXDescriptors ∧ U.count .a = u.numADescriptors ∧
      U.count .b = u.numBDescriptors ∧ numCDescriptors u.cDescriptorFlags = some (U.count .c) ∧
      h = 2 * U.count .c := by
  unfold unpackAll at hU
  cases hn : numCDescriptors u.cDescriptorFlags with
  | none =>
    simp only [hn] at hU
    cases hU
  | some n =>
    simp only [hn, unpackDescriptors_fst, Nat.zero_add] at hU
    cases hU
    exact ⟨rfl, rfl, rfl, rfl, rfl⟩

/-- **Unflattening a session request.** What is left to go wrong are the buffers, the size they
leave for the raw data, and the objects. -/
theorem RequestUnpacked.unflatten_session_iff {o : ObjPtr} (hr : rq.Accepted object)
    (hb : (rq.message stack object).Holds m b) (hu : RequestUnpacked rq object stack m b u)
    (hd : object.inDomain = false) (ho : (w.object o).isDomainObject = false) :
    ipcUnflattenRequest w arrays u rq.fmt o out = .ok () out' ↔
      ∃ h U s out₁ os, unpackAll u arrays = .ok (h, U) ∧
        assignBuffers U 0 (rq.buffers.map (·.type)) ⟨fun _ => 0, 0⟩
          (out.cleared rq.buffers.length) = .ok s out₁ ∧
        declaredRawWords u 0 s.u16Count = rq.rawDataSize / 4 ∧ rq.objects.length ≤ 8 ∧
        List.Forall₂
          (fun x o' => objectOfHandle w (w.session (w.object o).owningSession).owningServer x =
            .ok o') (rq.objects.map (·.session)) os ∧
        out' = { out₁ with
          copyHandles := out₁.copyHandles.write 0 rq.copyHandles
          objects := out₁.objects.write 0 os
          moveHandles := out₁.moveHandles.write 0 rq.moveHandles
          rawData := out₁.rawData.write 0
            (u.buffer.read (u.dataSection + 4 + h) (rq.rawDataSize / 4)) } := by
  obtain ⟨hcopy, hobjs, hmove⟩ := hu.session_handles hd
  rw [ipcUnflattenRequest_eq_ok, ho]
  have hlen : rq.fmt.bufferTypes.length = rq.buffers.length := by simp [IpcRequest.fmt]
  simp only [hlen, copyOut_session_eq_ok ho]
  simp only [IpcRequest.fmt, hcopy, hobjs, hmove]
  constructor
  · rintro ⟨-, -, h, U, s, out₁, hU, hs, hsize, hle, os, hos, rfl⟩
    exact ⟨h, U, s, out₁, os, hU, hs, hsize, hle, hos, rfl⟩
  · rintro ⟨h, U, s, out₁, os, hU, hs, hsize, hle, hos, rfl⟩
    exact ⟨hr.size_mod, hu.session_checked hr hb hd, h, U, s, out₁, hU, hs, hsize, hle, os, hos,
      rfl⟩

end Packed

end LibTransistor
