import LibTransistor.Ipc.ResponseCopies

/-!
# Making a session a domain

`ipc_convert_to_domain` and `ipc_send` of `lib/ipc.c`. The header documents that the domain is
initialized only if `RESULT_OK` is returned. The source stores the session in it before it looks
whether the object is a session, and lets the object point to it before the request is sent.

**State** (`ConversionVars`). The two variables that the caller passes pointers to. The union of the
object holds a session in its low half, or the address of the domain.

`conversion_atomic_iff` says when the conversion does all of its work or leaves both variables
alone.
-/

namespace LibTransistor

open Fallible Cursor

/-! ## `ipc_send` -/

/-- What is outside of `ipc_send`: the thread's message buffer, the local arrays, the domains that
pointers point to, and what becomes of a message that is sent on a session. -/
structure Exchange where
  tls : Mem Word
  handles : Mem Handle
  stack : Mem Word
  domains : BitVec 64 → Handle
  /-- `svcSendSyncRequest`: its result, and the message buffer after it. -/
  svcSendSyncRequest : Handle → Mem Word → ResultT × Mem Word

namespace Exchange

variable (x : Exchange)

/-- The message buffer after the `memset`. -/
def cleared : Mem Word := x.tls.write 0 (List.replicate (0x1F8 / 4) 0#32)

/-- The session that a request for an object goes to. -/
def target (object : IpcObject) : Handle :=
  if object.inDomain then x.domains object.domain else object.session

/-- The result of sending the request in a buffer, and the buffer with the response. -/
def answer (object : IpcObject) (request : Mem Word) : ResultT × Mem Word :=
  x.svcSendSyncRequest (x.target object) request

end Exchange

def ipcSend (x : Exchange) (object : IpcObject) (rq : IpcRequest) (fmt : IpcResponseFmt) :
    UnflattenResponse Unit := do
  let (_, request) ← withLocal ⟨x.cleared, 0⟩ (ipcPackRequest x.handles x.stack rq object)
  let (r, response) := x.answer object request.buffer
  failIf (r ≠ resultOk) r
  ipcUnflattenResponse (ipcUnpack response) fmt object

/-! ## `ipc_convert_to_domain` -/

/-- `*object` and `domain->session`. -/
structure ConversionVars where
  object : IpcObject
  domain : Handle
  deriving DecidableEq

/-- What the pointers of the format point at: only `raw_data` is set, to `object->object_id`. -/
def ConversionVars.out (v : ConversionVars) : ResponseOut :=
  ⟨fun _ => 0#32, fun _ => 0#32, fun _ => ⟨0#32, 0#64, false⟩, fun _ => v.object.objectId⟩

/-- `object->object_id` after the response has been copied out. -/
def ConversionVars.takeId (out : ResponseOut) (v : ConversionVars) : ConversionVars :=
  { v with object := { v.object with objectId := out.rawData 0 } }

/-- The request that makes a session a domain. -/
def convertRequest : IpcRequest := { ipcDefaultRequest with type := 5, requestId := 0 }

/-- The response to it: one word. -/
def convertFmt : IpcResponseFmt := ⟨0, 0, 0, 4, false⟩

/-- `ipc_convert_to_domain`, with the domain at address `domain`. -/
def ipcConvertToDomain (x : Exchange) (domain : BitVec 64) : EStateM ResultT ConversionVars Unit := do
  let v ← get
  let session := v.object
  failIf session.isBorrowed Err.refusalToConvertBorrowedObject
  modify fun v => { v with domain := session.session }
  failIf (session.objectId ≠ -1#32) Err.alreadyADomain
  modify fun v => { v with object := { v.object with ref := domain } }
  zoom ConversionVars.out ConversionVars.takeId (ipcSend x session convertRequest convertFmt)

/-! ## The exchange -/

theorem ipcUnflattenResponse_ends (msg : IpcMessage) (fmt : IpcResponseFmt) (object : IpcObject)
    (out : ResponseOut) : Ends (ipcUnflattenResponse msg fmt object out)
      (fun _ out' => fmt.rawDataSize % 4 = 0 ∧ ResponseChecked msg fmt object.inDomain ∧
        out' = storeResponse msg fmt object out)
      (fun _ out' => ¬ (fmt.rawDataSize % 4 = 0 ∧ ResponseChecked msg fmt object.inDomain) ∧
        out' = out) := by
  have hleaves : Ends (ipcUnflattenResponse msg fmt object out) (fun _ _ => True)
      (fun _ out' => out' = out) := by
    refine Ends.failIf_bind (fun _ => rfl) fun _ => ?_
    exact ((checkResponse_ends out).imp (fun _ _ h => h) fun _ _ h => h).bind fun _ _ _ => trivial
  cases hrun : ipcUnflattenResponse msg fmt object out with
  | ok u out' => exact ipcUnflattenResponse_eq_ok.1 hrun
  | error e out' =>
    rw [hrun] at hleaves
    refine ⟨fun ⟨hmod, hchecked⟩ => ?_, hleaves⟩
    rw [ipcUnflattenResponse_eq_ok.2 ⟨hmod, hchecked, rfl⟩] at hrun
    cases hrun

section Exchange

variable (x : Exchange) (session : IpcObject)

/-- What comes of the request: the result of sending it, and the message buffer with the
response. -/
def Exchange.conversion : ResultT × Mem Word :=
  x.answer session
    (final (ipcPackRequest x.handles x.stack convertRequest session ⟨x.cleared, 0⟩)).buffer

/-- The request is delivered, and the response is one to it. -/
def Exchange.Converts : Prop :=
  (x.conversion session).1 = resultOk ∧
    ResponseChecked (ipcUnpack (x.conversion session).2) convertFmt false

/-- The id that the server returned. -/
def Exchange.returnedId : Word :=
  let msg := ipcUnpack (x.conversion session).2
  msg.words msg.dataSection 4

variable {session}

theorem pack_convertRequest (h : session.inDomain = false) (c : Cursor Word) :
    ∃ c', ipcPackRequest x.handles x.stack convertRequest session c = .ok () c' := by
  unfold ipcPackRequest IpcRequest.staging Staging.pack
  rw [h]
  dsimp only
  rw [failIf_bind_of_not (by decide), failIf_bind_of_not (by decide)]
  exact ⟨_, rfl⟩

theorem storeResponse_id (h : session.inDomain = false) (out : ResponseOut) :
    (storeResponse (ipcUnpack (x.conversion session).2) convertFmt session out).rawData 0 =
      x.returnedId session := by
  unfold storeResponse
  rw [h]
  rfl

theorem ipcSend_convertRequest (h : session.inDomain = false) (out : ResponseOut) :
    Ends (ipcSend x session convertRequest convertFmt out)
      (fun _ out' => x.Converts session ∧ out'.rawData 0 = x.returnedId session)
      (fun _ out' => ¬ x.Converts session ∧ out' = out) := by
  obtain ⟨c, hpack⟩ := pack_convertRequest x h ⟨x.cleared, 0⟩
  have hanswer : x.conversion session = x.answer session c.buffer := by
    unfold Exchange.conversion
    rw [hpack]
    rfl
  unfold ipcSend
  rw [bind_of_ok (withLocal_eq_ok (r := ((), c)).2 ⟨hpack, rfl⟩)]
  dsimp only
  rw [← hanswer]
  refine Ends.failIf_bind (fun hr => ⟨fun hconverts => hr hconverts.1, rfl⟩) fun hr => ?_
  refine (ipcUnflattenResponse_ends _ convertFmt session out).imp ?_ ?_
  · rintro - out' ⟨-, hchecked, rfl⟩
    rw [h] at hchecked
    exact ⟨⟨not_not.1 hr, hchecked⟩, storeResponse_id x h out⟩
  · rintro e out' ⟨hrefused, rfl⟩
    rw [h] at hrefused
    exact ⟨fun hconverts => hrefused ⟨by decide, hconverts.2⟩, rfl⟩

end Exchange

/-! ## The conversion -/

section Conversion

variable (x : Exchange) (domain : BitVec 64) (v : ConversionVars)

/-- The conversion does all that it is for, or nothing. -/
def ConversionAtomic : Prop :=
  Ends (ipcConvertToDomain x domain v)
    (fun _ v' => v'.domain = v.object.session ∧ v'.object.domain = domain ∧
      v'.object.objectId = x.returnedId v.object)
    (fun _ v' => v' = v)

/-- The variables after the stores that come before the request. -/
def ConversionVars.early : ConversionVars :=
  ⟨{ v.object with ref := domain }, v.object.session⟩

variable {v}

theorem ipcConvertToDomain_borrowed (h : v.object.isBorrowed = true) :
    ipcConvertToDomain x domain v = .error Err.refusalToConvertBorrowedObject v := by
  unfold ipcConvertToDomain
  rw [get_bind_run]
  exact failIf_bind_of h

theorem ipcConvertToDomain_domain (h : ¬ v.object.isBorrowed = true)
    (hid : v.object.objectId ≠ -1#32) :
    ipcConvertToDomain x domain v =
      .error Err.alreadyADomain { v with domain := v.object.session } := by
  unfold ipcConvertToDomain
  rw [get_bind_run]
  rw [failIf_bind_of_not h, modify_bind_run]
  exact failIf_bind_of hid

theorem inDomain_of_session (hid : v.object.objectId = -1#32) : v.object.inDomain = false := by
  unfold IpcObject.inDomain
  rw [hid]
  decide

/-- A session: the exchange decides between the whole conversion and the early stores. -/
theorem ipcConvertToDomain_session (h : ¬ v.object.isBorrowed = true)
    (hid : v.object.objectId = -1#32) :
    Ends (ipcConvertToDomain x domain v)
      (fun _ v' => x.Converts v.object ∧ v' =
        ⟨⟨x.returnedId v.object, domain, v.object.isBorrowed⟩, v.object.session⟩)
      (fun _ v' => ¬ x.Converts v.object ∧ v' = v.early domain) := by
  have hrun : ipcConvertToDomain x domain v = zoom ConversionVars.out ConversionVars.takeId
      (ipcSend x v.object convertRequest convertFmt) (v.early domain) := by
    unfold ipcConvertToDomain
    rw [get_bind_run]
    rw [failIf_bind_of_not h, modify_bind_run,
      failIf_bind_of_not (not_not.2 hid)]
    rfl
  have hsend := ipcSend_convertRequest x (inDomain_of_session hid) (v.early domain).out
  rw [hrun]
  refine hsend.zoom.imp ?_ ?_
  · rintro - v' ⟨out, ⟨hconverts, hstored⟩, rfl⟩
    refine ⟨hconverts, ?_⟩
    unfold ConversionVars.takeId
    rw [hstored]
    rfl
  · rintro e v' ⟨out, ⟨hconverts, rfl⟩, rfl⟩
    exact ⟨hconverts, rfl⟩

theorem early_eq_iff : v.early domain = v ↔
    v.domain = v.object.session ∧ v.object.domain = domain := by
  constructor
  · intro h
    have hdomain := congrArg ConversionVars.domain h
    have href := congrArg (fun u => u.object.ref) h
    exact ⟨hdomain.symm, href.symm⟩
  · rintro ⟨hdomain, href⟩
    unfold ConversionVars.early
    rw [← hdomain, ← href]
    rfl

variable (v)

/-- **A conversion that is all or nothing.** It is one exactly if the object is borrowed, or is a
session and the exchange succeeds, or if the variables already hold what is stored before the
failure: the domain the session, and a session the address of the domain. -/
theorem conversion_atomic_iff :
    ConversionAtomic x domain v ↔
      v.object.isBorrowed = true ∨
      (v.object.objectId = -1#32 ∧ x.Converts v.object) ∨
      (v.domain = v.object.session ∧ (v.object.objectId = -1#32 → v.object.domain = domain)) := by
  unfold ConversionAtomic
  by_cases hborrowed : v.object.isBorrowed = true
  · rw [ipcConvertToDomain_borrowed x domain hborrowed]
    exact iff_of_true rfl (.inl hborrowed)
  rw [or_iff_right hborrowed]
  by_cases hid : v.object.objectId = -1#32
  · have hends := ipcConvertToDomain_session x domain hborrowed hid
    cases hrun : ipcConvertToDomain x domain v with
    | ok u v' =>
      rw [hrun] at hends
      obtain ⟨hconverts, rfl⟩ := hends
      exact iff_of_true ⟨rfl, rfl, rfl⟩ (.inl ⟨hid, hconverts⟩)
    | error e v' =>
      rw [hrun] at hends
      obtain ⟨hfails, rfl⟩ := hends
      rw [or_iff_right fun h => hfails h.2, forall_prop_of_true hid]
      exact early_eq_iff domain
  · -- the domain has the session's handle before the id is looked at
    rw [ipcConvertToDomain_domain x domain hborrowed hid, or_iff_right fun h => hid h.1,
      and_iff_left fun h => absurd h hid]
    constructor
    · intro h
      exact (congrArg ConversionVars.domain h).symm
    · intro h
      show ({ v with domain := v.object.session } : ConversionVars) = v
      rw [← h]

end Conversion

/-- A session whose other side converts it, with object id 3. -/
def converting : Exchange where
  tls := fun _ => 0#32
  handles := fun _ => 0#32
  stack := fun _ => 0#32
  domains := fun _ => 0#32
  svcSendSyncRequest := fun _ _ => (resultOk,
    Mem.write (fun _ => 0#32) 0 [0#32, 9#32, 0#32, 0#32, sfco, 0#32, 0#32, 0#32, 3#32])

/-- A session that is closed on the other side. -/
def disconnected : Exchange :=
  { converting with svcSendSyncRequest := fun _ buffer => (0xF601#32, buffer) }

/-- Session `0x11`, and a domain that has not been initialized. -/
def plainSession : ConversionVars := ⟨⟨-1#32, 0x11#64, false⟩, 0#32⟩

theorem converting_atomic : ConversionAtomic converting 0x1000#64 plainSession := by
  refine (conversion_atomic_iff converting 0x1000#64 plainSession).2 (.inr (.inl ⟨rfl, rfl, ?_⟩))
  exact ⟨by decide, by decide, by decide, by decide, by decide, by decide, by decide, by decide⟩

/-- The request fails: the object keeps its id, points to the domain and has lost its session. -/
theorem disconnected_not_atomic :
    ipcConvertToDomain disconnected 0x1000#64 plainSession =
        .error 0xF601#32 ⟨⟨-1#32, 0x1000#64, false⟩, 0x11#32⟩ ∧
      ¬ ConversionAtomic disconnected 0x1000#64 plainSession := by
  have hrun : ipcConvertToDomain disconnected 0x1000#64 plainSession =
      .error 0xF601#32 ⟨⟨-1#32, 0x1000#64, false⟩, 0x11#32⟩ := by rfl
  refine ⟨hrun, fun hatomic => ?_⟩
  have hsame : (⟨⟨-1#32, 0x1000#64, false⟩, 0x11#32⟩ : ConversionVars) = plainSession := hatomic
  exact absurd hsame (by decide)

end LibTransistor
