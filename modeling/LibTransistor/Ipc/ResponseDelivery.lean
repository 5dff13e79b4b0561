import LibTransistor.Ipc.Response
import LibTransistor.Ipc.Delivery

/-!
# Delivering a response without buffers

A response crosses `ipc_pack_response` and `ipc_pack_message` on the server's side, and `ipc_unpack`
and `ipc_unflatten_response` on the client's.

* `ipcPackResponse_eq_ok` — the message a response is packed as.
* `ipcUnflattenResponse_eq_ok` — when a message is accepted, check by check.
* `session_response_delivered` — over a session a response arrives as it was sent, and a result code
  that is not zero arrives whatever the client expected.
* `domain_response_delivered_iff` — in a domain only a response without objects arrives: the server
  puts their ids in front of the command header, the client looks for them behind the raw data.
-/

namespace LibTransistor

open Fallible Cursor Mem List

/-! ## Packing -/

namespace IpcResponse

variable (rs : IpcResponse) (w : World) (o : ObjPtr)

/-- The client's end of the session an object lives in. -/
def clientHandle (o : ObjPtr) : Handle := (w.session (w.object o).owningSession).clientHandle

/-- The move handles on the wire. -/
def wireMoveHandles : List Handle :=
  (if (w.object o).isDomainObject then [] else rs.objects.map (clientHandle w)) ++ rs.moveHandles

/-- The command header and the raw data. -/
def payload : List Word := [sfco, 0#32, rs.resultCode, 0#32] ++ rs.rawData

/-- The data section of a response. -/
def dataSection : List Word :=
  if (w.object o).isDomainObject then
    [BitVec.ofNat 32 rs.objects.length, 0#32, 0#32, 0#32] ++
      rs.objects.map (fun o' => (w.object o').domainId) ++ rs.payload
  else rs.payload

/-- The message that a response is packed as. -/
def message : PackMessage where
  messageType := rs.type.setWidth 16
  buffers := rs.buffers
  copyHandles := rs.copyHandles
  moveHandles := rs.wireMoveHandles w o
  sendPid := rs.sendPid
  dataSection := rs.dataSection w o

/-- What `ipc_pack_response` has checked before it packs the message. -/
structure Accepted : Prop where
  type_high : rs.type &&& ~~~0xFFFF#32 = 0#32
  size_mod : rs.rawDataSize % 4 = 0
  size_le : rs.rawDataSize ≤ 0x200
  objects_le : (w.object o).isDomainObject = true → rs.objects.length ≤ 8

end IpcResponse

variable (w : World)

/-- An object can be sent from a session if it lives in a session of its own. -/
def IpcResponse.sendable (o : ObjPtr) : Bool :=
  !(w.object o).isDomainObject && clientHandle w o ≠ 0#32

/-- An object can be sent from a domain if it lives in that domain. -/
def IpcResponse.ownedBy (object : ServerObject) (o : ObjPtr) : Bool :=
  (w.object o).isDomainObject && (w.object o).owningDomain = object.owningDomain

theorem storesWhile_stageClientHandles :
    StoresWhile (IpcResponse.sendable w) (IpcResponse.clientHandle w) (stageClientHandles w) := by
  refine .of_failIf (fun o => ?_) rfl fun _ _ => rfl
  rw [IpcResponse.sendable, Bool.and_eq_true, Bool.not_eq_true', decide_eq_true_eq,
    ← Bool.not_eq_true]
  rfl

theorem storesWhile_stageDomainIds (object : ServerObject) :
    StoresWhile (IpcResponse.ownedBy w object) (fun o => (w.object o).domainId)
      (stageDomainIds w object) :=
  .of_failIf (fun o => by simp [IpcResponse.ownedBy]) rfl fun _ _ => rfl

variable {w : World} {rs : IpcResponse} {o : ObjPtr} {object : IpcObject} {m b : Mem Word}

theorem stageResponseHandles_eq_ok {c c' : Cursor Handle}
    (h : stageResponseHandles w rs (w.object o).isDomainObject c = .ok () c') :
    c' = c.append (rs.wireMoveHandles w o) :=
  (storesWhile_stageClientHandles w).eq_of_ok_unless h

theorem stageResponseData_eq_ok {stack : Mem Word} {c : Cursor Word}
    (h : stageResponseData w rs (w.object o) (w.object o).isDomainObject ⟨stack, 0⟩ = .ok () c) :
    rs.rawDataSize ≤ 0x200 ∧ ((w.object o).isDomainObject = true → rs.objects.length ≤ 8) ∧
      c = (⟨stack, 0⟩ : Cursor Word).append (rs.dataSection w o) := by
  unfold stageResponseData at h
  unfold IpcResponse.dataSection
  cases hd : (w.object o).isDomainObject with
  | true =>
    simp only [hd] at h ⊢
    obtain ⟨hlen, h⟩ := failIf_bind_eq_ok.1 h
    rw [bind_of_ok (emitAll_run _ _)] at h
    obtain ⟨_, _, hids, h⟩ := bind_eq_ok.1 h
    obtain ⟨-, rfl⟩ := (storesWhile_stageDomainIds w _).eq_of_ok hids
    rw [bind_of_ok (emitAll_run _ _)] at h
    obtain ⟨hle, h⟩ := failIf_bind_eq_ok.1 h
    rw [emitAll_run] at h
    cases h
    exact ⟨by omega, fun _ => by omega, by simp [IpcResponse.payload]⟩
  | false =>
    simp only [hd, Bool.false_eq_true] at h ⊢
    obtain ⟨hle, h⟩ := failIf_bind_eq_ok.1 h
    rw [emitAll_run] at h
    cases h
    exact ⟨by omega, by simp, by simp [IpcResponse.payload]⟩

theorem ipcPackResponse_eq_ok {handles : Mem Handle} {stack : Mem Word} {c : Cursor Word}
    (h : ipcPackResponse w handles stack rs o ⟨m, 0⟩ = .ok () c) :
    rs.Accepted w o ∧ (rs.message w o).Accepted ∧
      c = (⟨m, 0⟩ : Cursor Word).append ((rs.message w o).layout m) := by
  obtain ⟨⟨htype, hmod⟩, mh, data, hmh, hdata, ha, rfl⟩ := Staging.pack_eq_ok h
  obtain rfl := stageResponseHandles_eq_ok hmh
  obtain ⟨hle, hobj, rfl⟩ := stageResponseData_eq_ok hdata
  rw [read_append_self, read_append_self] at ha ⊢
  exact ⟨⟨htype, hmod, hle, hobj⟩, ha, rfl⟩

theorem eq_zero_of_halves {x : BitVec 32} (hlow : x.setWidth 16 = 0#16)
    (hhigh : x &&& ~~~0xFFFF#32 = 0#32) : x = 0#32 := by
  have hand : x &&& 0xFFFF#32 = 0#32 := by
    apply BitVec.eq_of_toNat_eq
    have hmod := congrArg BitVec.toNat hlow
    exact (Nat.and_two_pow_sub_one_eq_mod x.toNat 16).trans hmod
  calc x = x &&& BitVec.allOnes 32 := BitVec.and_allOnes.symm
    _ = x &&& (0xFFFF#32 ||| ~~~0xFFFF#32) := rfl
    _ = 0#32 := by rw [BitVec.and_or_distrib_left, hand, hhigh]; rfl

namespace IpcResponse

/-- The format of the shape of a response. -/
def fmt (rs : IpcResponse) : IpcResponseFmt where
  numCopyHandles := rs.copyHandles.length
  numMoveHandles := rs.moveHandles.length
  numObjects := rs.objects.length
  rawDataSize := rs.rawDataSize
  hasPid := rs.sendPid

theorem length_payload (rs : IpcResponse) : rs.payload.length = 4 + rs.rawDataSize / 4 := by
  simp [payload, rs.rawData_words]
  omega

theorem dataSection_session (ho : (w.object o).isDomainObject = false) :
    (rs.message w o).dataSection = rs.payload := by
  simp [message, dataSection, ho]

theorem dataSection_domain (ho : (w.object o).isDomainObject = true) :
    (rs.message w o).dataSection = [BitVec.ofNat 32 rs.objects.length, 0#32, 0#32, 0#32] ++
      rs.objects.map (fun o' => (w.object o').domainId) ++ rs.payload := by
  simp [message, dataSection, ho]

theorem Accepted.length_dataSection_le (hr : rs.Accepted w o) :
    (rs.message w o).dataSection.length ≤ 144 := by
  have hp := rs.length_payload
  have hle := hr.size_le
  cases ho : (w.object o).isDomainObject with
  | true =>
    have hobjs := hr.objects_le ho
    rw [dataSection_domain ho]
    simp only [length_append, length_cons, length_nil, length_map]
    omega
  | false =>
    rw [dataSection_session ho]
    omega

/-- What is left of the type on the wire decides whether it is zero. -/
theorem Accepted.messageType_eq_zero (hr : rs.Accepted w o) :
    (rs.message w o).messageType = 0#16 ↔ rs.type = 0#32 := by
  constructor
  · intro h
    exact eq_zero_of_halves h hr.type_high
  · intro h
    show rs.type.setWidth 16 = 0#16
    rw [h]
    rfl

end IpcResponse

/-! ## Unflattening -/

/-- What `ipc_unflatten_response` checks in a message. -/
structure ResponseChecked (msg : IpcMessage) (fmt : IpcResponseFmt) (fromDomain : Bool) : Prop where
  type : msg.messageType = 0#16
  magic : msg.words msg.dataSection (if fromDomain then 4 else 0) = sfco
  result : msg.words msg.dataSection ((if fromDomain then 4 else 0) + 2) = resultOk
  size : declaredRawWords msg (if fromDomain then 4 + fmt.numObjects else 0) 0 = fmt.rawDataSize / 4
  pid : msg.hasPid = fmt.hasPid
  copy : msg.numCopyHandles = fmt.numCopyHandles
  move : msg.numMoveHandles =
    (fmt.numMoveHandles + if fromDomain then 0 else fmt.numObjects) % 2 ^ 32
  objects : fromDomain = true → (msg.words msg.dataSection 0).toNat = fmt.numObjects

variable {fmt : IpcResponseFmt} {msg u : IpcMessage}

theorem checkResponse_eq_ok {fromDomain : Bool} {out out' : ResponseOut} :
    checkResponse msg fmt fromDomain out = .ok () out' ↔
      ResponseChecked msg fmt fromDomain ∧ out' = out := by
  simp only [checkResponse, failIf_bind_eq_ok, failIf_eq_ok, not_not, not_and]
  constructor
  · rintro ⟨h₁, h₂, h₃, h₄, h₅, h₆, h₇, h₈, rfl⟩
    exact ⟨⟨h₁, h₂, h₃, h₄, h₅, h₆, h₇, h₈⟩, rfl⟩
  · rintro ⟨⟨h₁, h₂, h₃, h₄, h₅, h₆, h₇, h₈⟩, rfl⟩
    exact ⟨h₁, h₂, h₃, h₄, h₅, h₆, h₇, h₈, rfl⟩

theorem ipcUnflattenResponse_eq_ok {out out' : ResponseOut} :
    ipcUnflattenResponse msg fmt object out = .ok () out' ↔
      fmt.rawDataSize % 4 = 0 ∧ ResponseChecked msg fmt object.inDomain ∧
        out' = storeResponse msg fmt object out := by
  unfold ipcUnflattenResponse
  rw [failIf_bind_eq_ok, not_not, check_bind_eq_ok checkResponse_eq_ok]
  refine and_congr_right fun _ => and_congr_right fun _ => ?_
  constructor
  · intro h
    cases h
    rfl
  · rintro rfl
    rfl

/-- A result code that is not zero is returned before the format is looked at, but for its size. -/
theorem ipcUnflattenResponse_result {r : ResultT} (hmod : fmt.rawDataSize % 4 = 0)
    (htype : msg.messageType = 0#16)
    (hmagic : msg.words msg.dataSection (if object.inDomain then 4 else 0) = sfco)
    (hr : msg.words msg.dataSection ((if object.inDomain then 4 else 0) + 2) = r)
    (hne : r ≠ resultOk) (out : ResponseOut) :
    ipcUnflattenResponse msg fmt object out = .error r out := by
  subst hr
  unfold ipcUnflattenResponse checkResponse
  rw [failIf_bind_of_not (not_not.2 hmod)]
  refine bind_of_error ?_
  rw [failIf_bind_of_not (not_not.2 htype),
    failIf_bind_of_not (not_not.2 hmagic)]
  exact failIf_bind_of hne

/-! ## The response behind the message -/

/-- What a client finds behind its format's pointers is what the server sent. The objects are
another matter, since a session and a domain send them differently. -/
structure IpcResponse.Delivered (rs : IpcResponse) (out : ResponseOut) : Prop where
  rawData : out.rawData.read 0 rs.rawData.length = rs.rawData
  copyHandles : out.copyHandles.read 0 rs.copyHandles.length = rs.copyHandles
  moveHandles : out.moveHandles.read 0 rs.moveHandles.length = rs.moveHandles

theorem delivered_storeResponse (out : ResponseOut)
    (hcopy : u.buffer.read (u.copyHandles.getD 0) rs.copyHandles.length = rs.copyHandles)
    (hmove : u.buffer.read (u.moveHandles.getD 0 +
      if object.inDomain then 0 else rs.objects.length) rs.moveHandles.length = rs.moveHandles)
    (hraw : u.buffer.read (u.dataSection + if object.inDomain then 8 else 4) rs.rawData.length =
      rs.rawData) : rs.Delivered (storeResponse u rs.fmt object out) := by
  have hsize : rs.fmt.rawDataSize / 4 = rs.rawData.length := rs.rawData_words.symm
  constructor
  · simp only [storeResponse, copyWords, hsize, read_shift, IpcMessage.read_words,
      Nat.add_zero, hraw, read_write_self]
  · simp only [storeResponse, copyWords, IpcResponse.fmt, IpcMessage.read_words, Nat.add_zero,
      hcopy, read_write_self]
  · simp only [storeResponse, copyWords, IpcResponse.fmt, read_shift, IpcMessage.read_words,
      Nat.add_zero, hmove, read_write_self]

theorem payload_words {p : Nat} (h : b.read p rs.payload.length = rs.payload) :
    b p = sfco ∧ b (p + 2) = rs.resultCode ∧ b.read (p + 4) rs.rawData.length = rs.rawData :=
  ⟨eq_of_getElem? (i := 0) h rfl, eq_of_getElem? h rfl, (read_eq_append h).2⟩

/-- What the client unpacks from a packed response. -/
abbrev ResponseUnpacked (rs : IpcResponse) (w : World) (o : ObjPtr) (m buf : Mem Word)
    (u : IpcMessage) : Prop :=
  (rs.message w o).UnpackedShort m buf u

theorem unpack_response (hr : rs.Accepted w o) (ha : (rs.message w o).Accepted)
    (hb : (rs.message w o).Holds m b) (hbufs : rs.buffers = []) :
    ResponseUnpacked rs w o m b (ipcUnpack b) :=
  unpack_short_without_buffers ha hb hr.length_dataSection_le hbufs

namespace ResponseUnpacked

variable (hr : rs.Accepted w o) (ha : (rs.message w o).Accepted)
variable (hb : (rs.message w o).Holds m b) (hu : ResponseUnpacked rs w o m b u)

include hb hu in
theorem read_data : u.buffer.read u.dataSection (rs.message w o).dataSection.length =
    (rs.message w o).dataSection := by
  rw [hu.buffer, hu.dataSection]
  exact hb.read_data

include hr ha hu in
theorem declaredRawWords {k : Nat} (hbufs : rs.buffers = [])
    (hlen : (rs.message w o).dataSection.length = k + rs.payload.length) :
    declaredRawWords u k 0 = rs.rawDataSize / 4 := by
  refine declaredRawWords_eq ?_ ?_
  · rw [hu.sectionSize, PackMessage.sectionSize_without_buffers _ hbufs, hlen, rs.length_payload]
    omega
  · rw [hu.sectionSize]
    exact PackMessage.sectionSize_lt_of_short ha hr.length_dataSection_le

include ha hu in
theorem numMove_mod : u.numMoveHandles = (rs.moveHandles.length +
    if (w.object o).isDomainObject then 0 else rs.objects.length) % 2 ^ 32 := by
  have hlen : (rs.message w o).moveHandles.length = rs.moveHandles.length +
      if (w.object o).isDomainObject then 0 else rs.objects.length := by
    cases ho : (w.object o).isDomainObject <;>
      simp [IpcResponse.message, IpcResponse.wireMoveHandles, ho, Nat.add_comm]
  have hlt := ha.move_lt
  rw [hu.numMove, hlen, Nat.mod_eq_of_lt]
  omega

include hu in
theorem session_handles (ho : (w.object o).isDomainObject = false) :
    u.buffer.read (u.moveHandles.getD 0) (rs.objects.map (IpcResponse.clientHandle w)).length =
        rs.objects.map (IpcResponse.clientHandle w) ∧
      u.buffer.read (u.moveHandles.getD 0 + rs.objects.length) rs.moveHandles.length =
        rs.moveHandles := by
  have hwire : (rs.message w o).moveHandles =
      rs.objects.map (IpcResponse.clientHandle w) ++ rs.moveHandles := by
    simp [IpcResponse.message, IpcResponse.wireMoveHandles, ho]
  have hmove := hu.read_move
  rw [hwire] at hmove
  have hsplit := read_eq_append hmove
  rw [length_map] at hsplit ⊢
  exact hsplit

end ResponseUnpacked

/-! ## Delivery over a session -/

theorem ResponseUnpacked.session_objects (hu : ResponseUnpacked rs w o m b u)
    (ho : (w.object o).isDomainObject = false) (hd : object.inDomain = false) (out : ResponseOut)
    {i : Nat} (hi : i < rs.objects.length) :
    ((storeResponse u rs.fmt object out).objects i).session =
        IpcResponse.clientHandle w rs.objects[i] ∧
      ((storeResponse u rs.fmt object out).objects i).objectId = -1#32 := by
  have hcell : u.buffer (u.moveHandles.getD 0 + i) = IpcResponse.clientHandle w rs.objects[i] := by
    refine eq_of_getElem? (hu.session_handles ho).1 ?_
    rw [getElem?_map, getElem?_eq_getElem hi]
    rfl
  have hobj : (storeResponse u rs.fmt object out).objects i =
      setSession (out.objects i) (IpcResponse.clientHandle w rs.objects[i]) := by
    simp only [storeResponse, IpcResponse.fmt, if_pos hi, hd, Bool.false_eq_true, if_false,
      IpcMessage.words, hcell]
  rw [hobj]
  exact ⟨BitVec.setWidth_append_eq_right, rfl⟩

/-- **Delivery over a session.** A response of type 0 without buffers arrives whole when its result
code is zero, each object as the client's end of its session. Otherwise the client gets the result
code, whatever its format expects, provided that the format's raw data is a number of words. -/
theorem session_response_delivered {handles : Mem Handle} {stack : Mem Word} {c : Cursor Word}
    (hpack : ipcPackResponse w handles stack rs o ⟨m, 0⟩ = .ok () c)
    (ho : (w.object o).isDomainObject = false) (hd : object.inDomain = false)
    (htype : rs.type = 0#32) (hbufs : rs.buffers = []) (out : ResponseOut) :
    (rs.resultCode = resultOk →
      ∃ out', ipcUnflattenResponse (ipcUnpack c.buffer) rs.fmt object out = .ok () out' ∧
        rs.Delivered out' ∧ ∀ (i : Nat) (hi : i < rs.objects.length),
          (out'.objects i).session = IpcResponse.clientHandle w rs.objects[i] ∧
          (out'.objects i).objectId = -1#32) ∧
    (rs.resultCode ≠ resultOk → ∀ fmt : IpcResponseFmt, fmt.rawDataSize % 4 = 0 →
      ipcUnflattenResponse (ipcUnpack c.buffer) fmt object out = .error rs.resultCode out) := by
  obtain ⟨hr, ha, rfl⟩ := ipcPackResponse_eq_ok hpack
  have hb := (rs.message w o).holds_write m
  have hu := unpack_response hr ha hb hbufs
  have hty := hu.messageType.trans (hr.messageType_eq_zero.2 htype)
  have hdata := hu.read_data hb
  rw [IpcResponse.dataSection_session ho] at hdata
  obtain ⟨hmagic, hresult, hraw⟩ := payload_words hdata
  constructor
  · intro hok
    have hchecked : ResponseChecked _ rs.fmt false := {
      type := hty
      magic := hmagic
      result := hresult.trans hok
      size := hu.declaredRawWords hr ha hbufs (by rw [IpcResponse.dataSection_session ho]; simp)
      pid := hu.hasPid
      copy := hu.numCopy
      move := by
        rw [hu.numMove_mod ha, ho]
        rfl
      objects := by simp }
    refine ⟨_, ipcUnflattenResponse_eq_ok.2 ⟨hr.size_mod, hd ▸ hchecked, rfl⟩, ?_, ?_⟩
    · exact delivered_storeResponse out hu.read_copy (by rw [hd]; exact (hu.session_handles ho).2)
        (by rw [hd]; exact hraw)
    · intro i hi
      exact hu.session_objects ho hd out hi
  · intro hne fmt hmod
    exact ipcUnflattenResponse_result hmod hty (by rw [hd]; exact hmagic)
      (by rw [hd]; exact hresult) hne out

/-- A response from the first session that sends the object of the second. -/
def replySession : IpcResponse where
  type := 0
  buffers := []
  resultCode := 0
  rawData := [4, 5, 6, 7, 8]
  rawDataSize := 20
  sendPid := true
  copyHandles := [7]
  moveHandles := [8, 9]
  objects := [.user 2]
  rawData_words := rfl

/-- Empty arrays behind a client's pointers. -/
def noResponse : ResponseOut := ⟨fun _ => 0, fun _ => 0, fun _ => ⟨0, 0, false⟩, fun _ => 0⟩

theorem replySession_delivered : ∃ c, ipcPackResponse twoSessions (fun _ => 0) (fun _ => 0)
      replySession (.user 1) ⟨fun _ => 0, 0⟩ = .ok () c ∧
    ∃ out, ipcUnflattenResponse (ipcUnpack c.buffer) replySession.fmt ⟨-1, 0x11, false⟩ noResponse =
        .ok () out ∧ replySession.Delivered out ∧ (out.objects 0).session = 0x21#32 := by
  refine exists_ok_and (by decide) fun c h => ?_
  have hd : (⟨-1, 0x11, false⟩ : IpcObject).inDomain = false := rfl
  obtain ⟨out, hout, hdel, hobjs⟩ :=
    (session_response_delivered h rfl hd rfl rfl noResponse).1 rfl
  exact ⟨out, hout, hdel, (hobjs 0 (by decide)).1.trans (by decide)⟩

/-- A response that reports an error. -/
def replyError : IpcResponse := { ipcDefaultResponse with resultCode := 0xE401 }

/-- A format whose raw data is not a number of words is refused before the result code is read. -/
theorem replyError_lost : ∃ c, ipcPackResponse twoSessions (fun _ => 0) (fun _ => 0) replyError
      (.user 1) ⟨fun _ => 0, 0⟩ = .ok () c ∧
    ipcUnflattenResponse (ipcUnpack c.buffer) ⟨0, 0, 0, 2, false⟩ ⟨-1, 0x11, false⟩ noResponse =
      .error Err.invalidRawDataSize noResponse ∧
    Err.invalidRawDataSize ≠ replyError.resultCode ∧ replyError.resultCode ≠ resultOk ∧
    (twoSessions.object (.user 1)).isDomainObject = false := by
  refine exists_ok_and (by decide) fun c _ => ?_
  exact ⟨rfl, by decide, by decide, by decide⟩

/-! ## Delivery in a domain -/

/-- An object is in its domain under its id. -/
def World.Registered (w : World) (x : ObjPtr) : Prop :=
  ∃ p i, (w.object x).owningDomain = some p ∧ (w.session p).domain.objects i = some x ∧
    (w.object x).domainId = BitVec.ofNat 32 i

theorem World.Registered.domainId_ne {x : ObjPtr} (hx : w.Registered x) :
    (w.object x).domainId ≠ sfco := by
  obtain ⟨p, i, -, -, hid⟩ := hx
  intro h
  have hnat := congrArg BitVec.toNat (hid.symm.trans h)
  have hi := i.isLt
  rw [BitVec.toNat_ofNat, Nat.mod_eq_of_lt (by omega)] at hnat
  rw [hnat] at hi
  exact absurd hi (by decide)

/-- Where the client looks for the magic, the server has put the id of the first object. -/
theorem ResponseUnpacked.domain_objects_nil (hb : (rs.message w o).Holds m b)
    (hu : ResponseUnpacked rs w o m b u) (ho : (w.object o).isDomainObject = true)
    (hobjs : ∀ x ∈ rs.objects, w.Registered x) (hmagic : u.words u.dataSection 4 = sfco) :
    rs.objects = [] := by
  cases hos : rs.objects with
  | nil => rfl
  | cons x xs =>
    have hcell : u.words u.dataSection 4 = (w.object x).domainId := by
      refine eq_of_getElem? (hu.read_data hb) ?_
      rw [IpcResponse.dataSection_domain ho, hos]
      rfl
    have hx := hobjs x (by rw [hos]; exact mem_cons_self)
    exact absurd (hcell.symm.trans hmagic) hx.domainId_ne

theorem IpcResponse.dataSection_domain_nil (ho : (w.object o).isDomainObject = true)
    (hnil : rs.objects = []) :
    (rs.message w o).dataSection = [0#32, 0#32, 0#32, 0#32] ++ rs.payload := by
  rw [dataSection_domain ho, hnil]
  rfl

theorem ResponseUnpacked.domain_words (hb : (rs.message w o).Holds m b)
    (hu : ResponseUnpacked rs w o m b u) (ho : (w.object o).isDomainObject = true)
    (hnil : rs.objects = []) :
    u.words u.dataSection 0 = 0#32 ∧ u.words u.dataSection 4 = sfco ∧
      u.words u.dataSection 6 = rs.resultCode ∧
      u.buffer.read (u.dataSection + 8) rs.rawData.length = rs.rawData := by
  have hdata := hu.read_data hb
  rw [IpcResponse.dataSection_domain_nil ho hnil] at hdata
  exact ⟨eq_of_getElem? hdata rfl, payload_words (read_eq_append hdata).2⟩

theorem ResponseUnpacked.domain_checked (hr : rs.Accepted w o) (ha : (rs.message w o).Accepted)
    (hb : (rs.message w o).Holds m b) (hu : ResponseUnpacked rs w o m b u)
    (ho : (w.object o).isDomainObject = true) (hbufs : rs.buffers = [])
    (hok : rs.resultCode = resultOk) (hnil : rs.objects = []) (htype : rs.type = 0#32) :
    ResponseChecked u rs.fmt true := by
  obtain ⟨hzero, hmagic, hresult, -⟩ := hu.domain_words hb ho hnil
  exact {
    type := hu.messageType.trans (hr.messageType_eq_zero.2 htype)
    magic := hmagic
    result := hresult.trans hok
    size := hu.declaredRawWords hr ha hbufs (by
      rw [IpcResponse.dataSection_domain_nil ho hnil, IpcResponse.fmt, hnil]
      exact length_append)
    pid := hu.hasPid
    copy := hu.numCopy
    move := by
      rw [hu.numMove_mod ha, ho]
      rfl
    objects := fun _ => by
      rw [IpcResponse.fmt, hnil]
      exact congrArg BitVec.toNat hzero }

/-- **Delivery in a domain.** A response without buffers whose result code is zero arrives, with the
ids of its objects, exactly when it has no objects and is of type 0. -/
theorem domain_response_delivered_iff {handles : Mem Handle} {stack : Mem Word} {c : Cursor Word}
    (hpack : ipcPackResponse w handles stack rs o ⟨m, 0⟩ = .ok () c)
    (ho : (w.object o).isDomainObject = true) (hd : object.inDomain = true)
    (hbufs : rs.buffers = []) (hok : rs.resultCode = resultOk)
    (hobjs : ∀ x ∈ rs.objects, w.Registered x) (out : ResponseOut) :
    (∃ out', ipcUnflattenResponse (ipcUnpack c.buffer) rs.fmt object out = .ok () out' ∧
      rs.Delivered out' ∧ ∀ (i : Nat) (hi : i < rs.objects.length),
        (out'.objects i).objectId = (w.object rs.objects[i]).domainId) ↔
      rs.objects = [] ∧ rs.type = 0#32 := by
  obtain ⟨hr, ha, rfl⟩ := ipcPackResponse_eq_ok hpack
  have hb := (rs.message w o).holds_write m
  have hu := unpack_response hr ha hb hbufs
  constructor
  · rintro ⟨out', hout, -, -⟩
    obtain ⟨-, hchecked, -⟩ := ipcUnflattenResponse_eq_ok.1 hout
    rw [hd] at hchecked
    refine ⟨hu.domain_objects_nil hb ho hobjs hchecked.magic, ?_⟩
    exact hr.messageType_eq_zero.1 (hu.messageType.symm.trans hchecked.type)
  · rintro ⟨hnil, htype⟩
    have hchecked := hu.domain_checked hr ha hb ho hbufs hok hnil htype
    have hmove : (rs.message w o).moveHandles = rs.moveHandles := by
      simp [IpcResponse.message, IpcResponse.wireMoveHandles, ho]
    obtain ⟨-, -, -, hraw⟩ := hu.domain_words hb ho hnil
    refine ⟨_, ipcUnflattenResponse_eq_ok.2 ⟨hr.size_mod, hd ▸ hchecked, rfl⟩, ?_, ?_⟩
    · exact delivered_storeResponse out hu.read_copy
        (by rw [hd]; exact hmove ▸ hu.read_move) (by rw [hd]; exact hraw)
    · intro i hi
      rw [hnil] at hi
      exact absurd hi (Nat.not_lt_zero i)

/-- A response of a domain object with no objects. -/
def replyData : IpcResponse :=
  { replySession with objects := [] }

/-- A response of a domain object with another object of the domain. -/
def replyObject : IpcResponse :=
  { ipcDefaultResponse with objects := [.user 3] }

theorem replyData_delivered : ∃ c, ipcPackResponse domainWorld (fun _ => 0) (fun _ => 0)
      replyData (.user 2) ⟨fun _ => 0, 0⟩ = .ok () c ∧
    ∃ out, ipcUnflattenResponse (ipcUnpack c.buffer) replyData.fmt ⟨0, 0xD0, false⟩ noResponse =
        .ok () out ∧ replyData.Delivered out := by
  refine exists_ok_and (by decide +kernel) fun c h => ?_
  have hd : (⟨0, 0xD0, false⟩ : IpcObject).inDomain = true := rfl
  have ho : (domainWorld.object (.user 2)).isDomainObject = true := by decide +kernel
  have hnone : ∀ x ∈ replyData.objects, domainWorld.Registered x := fun x hx => by cases hx
  obtain ⟨out, hout, hdel, -⟩ :=
    (domain_response_delivered_iff h ho hd rfl rfl hnone noResponse).2 ⟨rfl, rfl⟩
  exact ⟨out, hout, hdel⟩

/-- The client finds the id of the object where it expects the magic. -/
theorem replyObject_refused : ∃ c, ipcPackResponse domainWorld (fun _ => 0) (fun _ => 0)
      replyObject (.user 2) ⟨fun _ => 0, 0⟩ = .ok () c ∧
    (domainWorld.object (.user 2)).isDomainObject = true ∧
    (domainWorld.object (.user 3)).owningDomain = (domainWorld.object (.user 2)).owningDomain ∧
    (domainWorld.session ⟨0, 0⟩).domain.objects 1 = some (.user 3) ∧
    succeeded (ipcUnflattenResponse (ipcUnpack c.buffer) replyObject.fmt ⟨0, 0xD0, false⟩
      noResponse) = false := by
  refine exists_ok_and (by decide +kernel) fun c h => ?_
  obtain ⟨-, -, rfl⟩ := ipcPackResponse_eq_ok h
  exact ⟨by decide +kernel, by decide +kernel, by decide +kernel, by decide +kernel⟩

end LibTransistor
