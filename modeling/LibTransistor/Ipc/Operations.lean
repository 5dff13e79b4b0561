import LibTransistor.Ipc.Response
import LibTransistor.Lib.Stateful

/-!
# The operations of the IPC server

The rest of `lib/ipcserver.c`: creating and destroying a server, accepting a session, registering an
object, replying. What the kernel returns is an argument of the function that asks for it, and so
are the user's callbacks.
-/

namespace LibTransistor

open Stateful List World

variable {object : ObjPtr} {i : Fin 512} {ps : List SessionPtr}

/-! ## Creating a server -/

variable (p : SessionPtr)

/-- `srv->sessions[i].state = IPC_SESSION_STATE_INVALID`. -/
def invalidateSession : ServerM Unit :=
  modify fun w => w.setSession p { w.session p with state := .invalid }

def invalidateSessions : List SessionPtr → ServerM Unit
  | [] => pure ()
  | p :: ps => do
    invalidateSession p
    invalidateSessions ps

def ipcServerCreate (srv : Nat) (port : Handle) : ServerM ResultT := do
  modify fun w => { w with port := Function.update w.port srv port }
  invalidateSessions (slots srv)
  return resultOk

/-! ## Accepting and registering -/

/-- `ipc_server_accept_session`, when `svcAcceptSession` ends with `accepted`. -/
def ipcServerAcceptSession (srv : Nat) (accepted : Except ResultT Handle)
    (objectFactory : ServerM (Except ResultT Nat)) : ServerM ResultT := do
  match accepted with
  | .error r => return r
  | .ok handle =>
    match ← objectFactory with
    | .error r =>
      svcCloseHandle handle
      return r
    | .ok object => ipcServerCreateSession srv handle 0#32 (.user object)

/-- `ipc_server_object_register`, when `svcCreateSession` ends with `created`: the server's end and
the client's. -/
def ipcServerObjectRegister (parent : ObjPtr) (child : Nat)
    (created : Except ResultT (Handle × Handle)) : ServerM ResultT := do
  let w ← get
  let object := w.object parent
  if h : object.isDomainObject = true then
    ipcServerDomainAddObject (object.owningDomain.get (object.domain_owned h)) (.user child)
  else
    match created with
    | .error r => return r
    | .ok (server, client) =>
      ipcServerCreateSession (w.session object.owningSession).owningServer server client (.user child)

/-! ## Replying -/

/-- What a reply is made from: the response, what the thread's message buffer and the local arrays
of `ipc_pack_response` hold, and what `svcReplyAndReceive` returns. -/
structure Reply where
  response : IpcResponse
  tls : Mem Word
  handles : Mem Handle
  stack : Mem Word
  r : ResultT

/-- The result of `svcReplyAndReceive` when the reply went out and there was nothing to wait for. -/
def resultTimeout : ResultT := 0xEA01#32

variable (w : World)

/-- The part of `ipc_server_object_reply` before `svcReplyAndReceive`: the message to send. -/
def packReply (o : ObjPtr) (rep : Reply) : Except ResultT (Mem Word) :=
  let sess := w.session (w.object o).owningSession
  if sess.state ≠ .processing then .error Err.ipcserverInvalidSessionState
  else if sess.activeObject ≠ some o then .error Err.ipcserverObjectNotActive
  else
    match ipcPackResponse w rep.handles rep.stack rep.response o ⟨rep.tls, 0⟩ with
    | .error e _ => .error e
    | .ok _ c => .ok c.buffer

def ipcServerObjectReply (o : ObjPtr) (rep : Reply) : ServerM ResultT := do
  let w ← get
  let p := (w.object o).owningSession
  match packReply w o rep with
  | .error e => return e
  | .ok _ =>
    if rep.r ≠ resultTimeout then
      set (w.setSession p { w.session p with state := .errored })
      return rep.r
    else
      set (w.setSession p { w.session p with state := .listening, activeObject := none })
      return resultOk

/-! ## Destroying a server -/

section Destroy

variable (cb : Callbacks)

def closeSessions : List SessionPtr → ServerM Unit
  | [] => pure ()
  | p :: ps => do
    if ((← get).session p).state ≠ .invalid then
      discard (ipcServerSessionClose cb p)
    closeSessions ps

def ipcServerDestroy (srv : Nat) : ServerM ResultT := do
  svcCloseHandle ((← get).port srv)
  closeSessions cb (slots srv)
  return resultOk

end Destroy

/-! ## Timestamps -/

def makeTimestamp : ServerM (BitVec 64) :=
  modifyGet fun w => (w.timestamp, { w with timestamp := w.timestamp + 1 })

/-- `sess->last_touch_timestamp = make_timestamp()`. -/
def touchSession : ServerM Unit := do
  let t ← makeTimestamp
  modify fun w => w.setSession p { w.session p with lastTouchTimestamp := t }

/-! ## What the functions do -/

namespace World

/-- What `ipc_server_create_session` makes of slot `p`. -/
def newSession (w : World) (p : SessionPtr) (serverSide clientSide : Handle) (object : ObjPtr) :
    World :=
  let sess := freshSession p serverSide clientSide object w.timestamp (w.session p).messageBuffer
  let manager := { sessionObject p with domainId := (w.object (.hipcManager p)).domainId }
  let w := ((w.setSession p sess).setObject (.hipcManager p) manager).setObject object
    (sessionObject p)
  { w with timestamp := w.timestamp + 1 }

theorem domain_isSome (p : SessionPtr) : true = true → (some p).isSome = true := fun _ => rfl

/-- What `ipc_server_domain_add_object` makes of slot `i` of a domain. -/
def newObject (w : World) (p : SessionPtr) (i : Fin 512) (object : ObjPtr) : World :=
  let sess := w.session p
  let domain := { sess.domain with objects := Function.update sess.domain.objects i (some object) }
  (w.setSession p { sess with domain := domain }).setObject object
    ⟨true, BitVec.ofNat 32 i, some p, sess.domain.owningSession, domain_isSome p⟩

/-- The slot that the next session of a server gets. -/
def freeSlot (w : World) (srv : Nat) : Option SessionPtr :=
  (slots srv).find? fun p => (w.session p).state = .invalid

/-- The slot that the next object of a domain gets. -/
def freeIndex (w : World) (p : SessionPtr) : Option (Fin 512) :=
  (List.finRange 512).find? fun i => (w.session p).domain.objects i = none

/-- Handles closed. -/
def closing (w : World) (hs : List Handle) : World := { w with closed := w.closed ++ hs }

variable {w : World} {srv : Nat} {p : SessionPtr}

theorem newSession_session (q : SessionPtr) {serverSide clientSide : Handle} :
    (w.newSession p serverSide clientSide object).session q =
      if q = p then freshSession p serverSide clientSide object w.timestamp (w.session p).messageBuffer
      else w.session q := setSession_session _ _ _ _

theorem newSession_object (o : ObjPtr) {serverSide clientSide : Handle} :
    (w.newSession p serverSide clientSide object).object o =
      if o = object then sessionObject p
      else if o = .hipcManager p then
        { sessionObject p with domainId := (w.object (.hipcManager p)).domainId }
      else w.object o := by
  show (World.setObject _ _ _).object o = _
  rw [setObject_object, setObject_object]
  rfl

theorem newObject_session (q : SessionPtr) :
    (w.newObject p i object).session q =
      if q = p then { w.session p with
        domain := { (w.session p).domain with
          objects := Function.update (w.session p).domain.objects i (some object) } }
      else w.session q := setSession_session _ _ _ _

theorem newObject_object (o : ObjPtr) :
    (w.newObject p i object).object o =
      if o = object then
        ⟨true, BitVec.ofNat 32 i, some p, (w.session p).domain.owningSession, fun _ => rfl⟩
      else w.object o := setObject_object _ _ _ _

theorem freeSlot_server (h : w.freeSlot srv = some p) : p.server = srv := by
  have hmem := mem_of_find?_eq_some h
  obtain ⟨i, -, rfl⟩ := mem_map.1 hmem
  rfl

theorem freeSlot_invalid (h : w.freeSlot srv = some p) : (w.session p).state = .invalid := by
  simpa using find?_some h

theorem freeIndex_free (h : w.freeIndex p = some i) : (w.session p).domain.objects i = none := by
  simpa using find?_some h

end World

/-- `w` with the sessions `ps` gone. -/
def World.invalidated (ps : List SessionPtr) : World :=
  { w with session := fun q =>
      if q ∈ ps then { w.session q with state := .invalid } else w.session q }

theorem invalidateSessions_run (ps : List SessionPtr) (w : World) :
    invalidateSessions ps w = ((), w.invalidated ps) := by
  induction ps generalizing w with
  | nil => rfl
  | cons p ps ih =>
    show invalidateSessions ps (w.setSession p { w.session p with state := .invalid }) = _
    rw [ih]
    unfold World.invalidated
    congr 2
    funext q
    rw [setSession_session]
    by_cases hq : q = p
    · simp [hq]
    · simp only [mem_cons, hq, false_or, if_false]

/-- `w` with another port for a server. -/
def World.setPort (srv : Nat) (port : Handle) : World :=
  { w with port := Function.update w.port srv port }

theorem ipcServerCreate_run (srv : Nat) (port : Handle) (w : World) :
    ipcServerCreate srv port w = (resultOk, (w.setPort srv port).invalidated (slots srv)) := by
  unfold ipcServerCreate
  rw [modify_bind_run, bind_run, invalidateSessions_run]
  rfl

section Run

variable {w : World} {srv : Nat} {p : SessionPtr} {serverSide clientSide : Handle} {o : ObjPtr}

/-- The ends of a session that the server has; the client's end may be missing. -/
def sessionHandles (serverSide clientSide : Handle) : List Handle :=
  serverSide :: if clientSide ≠ 0#32 then [clientSide] else []

theorem createSession_full (h : w.freeSlot srv = none) :
    ipcServerCreateSession srv serverSide clientSide o w =
      (Err.ipcserverTooManySessions, w.closing (sessionHandles serverSide clientSide)) := by
  unfold World.freeSlot at h
  unfold ipcServerCreateSession sessionHandles
  rw [get_bind_run]
  rw [h]
  by_cases hc : clientSide ≠ 0#32
  · simp only [if_pos hc]
    show (_, { w with closed := w.closed ++ [serverSide] ++ [clientSide] }) = _
    rw [append_assoc]
    rfl
  · simp only [if_neg hc]
    rfl

theorem createSession_free (h : w.freeSlot srv = some p) :
    ipcServerCreateSession srv serverSide clientSide o w =
      (resultOk, w.newSession p serverSide clientSide o) := by
  unfold World.freeSlot at h
  unfold ipcServerCreateSession
  rw [get_bind_run]
  rw [h]
  rfl

theorem domainAddObject_full (h : w.freeIndex p = none) :
    ipcServerDomainAddObject p o w = (Err.tooManyObjects, w) := by
  unfold World.freeIndex at h
  unfold ipcServerDomainAddObject
  rw [get_bind_run]
  rw [h]
  rfl

theorem domainAddObject_free (h : w.freeIndex p = some i) :
    ipcServerDomainAddObject p o w = (resultOk, w.newObject p i o) := by
  unfold World.freeIndex at h
  unfold ipcServerDomainAddObject
  rw [get_bind_run]
  rw [h]
  rfl

/-- The server whose sessions a new session of an object's child becomes one of. -/
def World.parentServer (w : World) (parent : ObjPtr) : Nat :=
  (w.session (w.object parent).owningSession).owningServer

section Register

variable {parent : ObjPtr} {child : Nat} {created : Except ResultT (Handle × Handle)}

theorem register_domain (h : (w.object parent).isDomainObject = true) :
    ipcServerObjectRegister parent child created w =
      ipcServerDomainAddObject ((w.object parent).owningDomain.get
        ((w.object parent).domain_owned h)) (.user child) w := by
  unfold ipcServerObjectRegister
  rw [get_bind_run, dif_pos h]

theorem register_failed {r : ResultT} (h : (w.object parent).isDomainObject ≠ true) :
    ipcServerObjectRegister parent child (.error r) w = (r, w) := by
  unfold ipcServerObjectRegister
  rw [get_bind_run, dif_neg h]
  rfl

theorem register_session {server client : Handle} (h : (w.object parent).isDomainObject ≠ true) :
    ipcServerObjectRegister parent child (.ok (server, client)) w =
      ipcServerCreateSession (w.parentServer parent) server client (.user child) w := by
  unfold ipcServerObjectRegister
  rw [get_bind_run, dif_neg h]
  rfl

end Register

variable {rep : Reply} {m : Mem Word}

/-- Only the object that a message was dispatched to gets as far as sending a reply. -/
theorem active_of_packReply (h : packReply w o rep = .ok m) :
    (w.session (w.object o).owningSession).state = .processing ∧
      (w.session (w.object o).owningSession).activeObject = some o := by
  unfold packReply at h
  dsimp only at h
  split_ifs at h with hstate hactive
  exact ⟨not_not.1 hstate, not_not.1 hactive⟩

theorem reply_refused {e : ResultT} (h : packReply w o rep = .error e) :
    ipcServerObjectReply o rep w = (e, w) := by
  unfold ipcServerObjectReply
  rw [get_bind_run]
  rw [h]
  rfl

theorem reply_failed (h : packReply w o rep = .ok m) (hr : rep.r ≠ resultTimeout) :
    ipcServerObjectReply o rep w = (rep.r, w.setSession (w.object o).owningSession
      { w.session (w.object o).owningSession with state := .errored }) := by
  unfold ipcServerObjectReply
  rw [get_bind_run]
  rw [h]
  rw [if_pos hr]
  rfl

theorem reply_sent (h : packReply w o rep = .ok m) (hr : rep.r = resultTimeout) :
    ipcServerObjectReply o rep w = (resultOk, w.setSession (w.object o).owningSession
      { w.session (w.object o).owningSession with state := .listening, activeObject := none }) := by
  unfold ipcServerObjectReply
  rw [get_bind_run]
  rw [h]
  rw [if_neg (not_not.2 hr)]
  rfl

end Run

/-! ## Closing a session -/

/-- The handles that closing a session closes. -/
def Session.handles (sess : Session) : List Handle := sessionHandles sess.handle sess.clientHandle

/-- The part of `ipc_server_session_close` that calls back, for the objects `is` of the domain. -/
def closeObjects (cb : Callbacks) (p : SessionPtr) (is : List (Fin 512)) : ServerM Unit := do
  ipcServerObjectClose cb (.hipcManager p)
  match ((← get).session p).object with
  | none => pure ()
  | some o => ipcServerObjectClose cb o
  closeDomainObjects cb p is

section Close

variable {w : World} {p : SessionPtr} (cb : Callbacks)

theorem sessionClose_invalid (h : (w.session p).state = .invalid) :
    ipcServerSessionClose cb p w = (Err.ipcserverInvalidSessionState, w) := by
  unfold ipcServerSessionClose
  rw [get_bind_run]
  rw [if_pos h]
  rfl

theorem sessionClose_valid (h : (w.session p).state ≠ .invalid) :
    ipcServerSessionClose cb p w = (resultOk, (invalidateSession p
      (closeObjects cb p (List.finRange 512) (w.closing (w.session p).handles)).2).2) := by
  have hrest : ∀ (is : List (Fin 512)) (w : World), (do
      ipcServerObjectClose cb (.hipcManager p)
      match ((← get).session p).object with
      | none => pure ()
      | some o => ipcServerObjectClose cb o
      closeDomainObjects cb p is
      modify fun w => w.setSession p { w.session p with state := .invalid }
      return resultOk : ServerM ResultT) w =
        (resultOk, (invalidateSession p (closeObjects cb p is w).2).2) := by
    intro is w
    unfold closeObjects
    rw [bind_run, get_bind_run, bind_run, get_bind_run]
    cases ((ipcServerObjectClose cb (.hipcManager p) w).2.session p).object <;> rfl
  unfold ipcServerSessionClose
  rw [get_bind_run]
  rw [if_neg h, ← hrest]
  by_cases hclient : (w.session p).clientHandle ≠ 0#32
  · have hclosed : (svcCloseHandle (w.session p).clientHandle
        (svcCloseHandle (w.session p).handle w).2).2 = w.closing (w.session p).handles := by
      unfold World.closing Session.handles sessionHandles
      rw [if_pos hclient, ← singleton_append, ← append_assoc]
      rfl
    rw [if_pos hclient]
    generalize w.closing (w.session p).handles = closed at hclosed ⊢
    subst hclosed
    rfl
  · have hclosed : (svcCloseHandle (w.session p).handle w).2 =
        w.closing (w.session p).handles := by
      unfold Session.handles sessionHandles
      rw [if_neg hclient]
      rfl
    rw [if_neg hclient]
    generalize w.closing (w.session p).handles = closed at hclosed ⊢
    subst hclosed
    rfl

theorem sessionClose_state : ((ipcServerSessionClose cb p w).2.session p).state = .invalid := by
  by_cases h : (w.session p).state = .invalid
  · rw [sessionClose_invalid cb h]
    exact h
  · rw [sessionClose_valid cb h]
    show ((World.setSession _ p _).session p).state = _
    rw [setSession_session, if_pos rfl]

end Close

/-! ## Closing without callbacks -/

/-- Callbacks that leave the servers alone. -/
def quiet : Callbacks := ⟨fun _ _ _ => pure (), fun _ => none⟩

/-- The user's object behind a pointer. -/
def ObjPtr.address : ObjPtr → Option Nat
  | .user a => some a
  | .hipcManager _ => none

/-- The user's objects that closing a session closes. -/
def Session.addresses (sess : Session) : List Nat :=
  (sess.object.toList ++ (List.finRange 512).filterMap sess.domain.objects).filterMap
    ObjPtr.address

/-- What `ipc_server_session_close` makes of a session that is not `INVALID`. -/
def World.closeSession : World :=
  { w.setSession p { w.session p with state := .invalid } with
    closed := w.closed ++ (w.session p).handles
    closeCalls := w.closeCalls ++ (w.session p).addresses }

/-- Objects closed. -/
def World.closingObjects (objects : List ObjPtr) : World :=
  { w with closeCalls := w.closeCalls ++ objects.filterMap ObjPtr.address }

section Quiet

variable {w : World} {p : SessionPtr}

theorem World.closingObjects_closingObjects (os os' : List ObjPtr) :
    (w.closingObjects os).closingObjects os' = w.closingObjects (os ++ os') := by
  unfold World.closingObjects
  rw [filterMap_append, ← append_assoc]

theorem objectClose_quiet (o : ObjPtr) :
    ipcServerObjectClose quiet o w = ((), w.closingObjects [o]) := by
  cases o with
  | user a => rfl
  | hipcManager q =>
    show ((), w) = ((), World.closingObjects w [.hipcManager q])
    unfold World.closingObjects
    rw [show [ObjPtr.hipcManager q].filterMap ObjPtr.address = [] from rfl, append_nil]

theorem closeDomainObjects_quiet (is : List (Fin 512)) :
    closeDomainObjects quiet p is w =
      ((), w.closingObjects (is.filterMap (w.session p).domain.objects)) := by
  induction is generalizing w with
  | nil =>
    show ((), w) = ((), w.closingObjects [])
    unfold World.closingObjects
    rw [filterMap_nil, append_nil]
  | cons i is ih =>
    unfold closeDomainObjects
    rw [get_bind_run]
    cases hi : (w.session p).domain.objects i with
    | none =>
      rw [filterMap_cons_none hi]
      exact ih
    | some o =>
      rw [filterMap_cons_some hi]
      show closeDomainObjects quiet p is (ipcServerObjectClose quiet o w).2 = _
      rw [objectClose_quiet, ih, closingObjects_closingObjects]
      rfl

theorem closeObjects_quiet (is : List (Fin 512)) : closeObjects quiet p is w = ((), w.closingObjects
    ((w.session p).object.toList ++ is.filterMap (w.session p).domain.objects)) := by
  show (match (w.session p).object with
    | none => closeDomainObjects quiet p is
    | some o => ipcServerObjectClose quiet o >>= fun _ => closeDomainObjects quiet p is) w = _
  cases hobj : (w.session p).object with
  | none => exact closeDomainObjects_quiet is
  | some o =>
    show closeDomainObjects quiet p is (ipcServerObjectClose quiet o w).2 = _
    rw [objectClose_quiet, closeDomainObjects_quiet, closingObjects_closingObjects]
    rfl

theorem sessionClose_quiet (h : (w.session p).state ≠ .invalid) :
    ipcServerSessionClose quiet p w = (resultOk, w.closeSession p) := by
  rw [sessionClose_valid quiet h, closeObjects_quiet]
  rfl

theorem closeSessions_skip (h : (w.session p).state = .invalid) :
    (closeSessions quiet (p :: ps) w).2 = (closeSessions quiet ps w).2 := by
  rw [closeSessions, get_bind_run]
  rw [if_neg (not_not.2 h)]

theorem closeSessions_close (h : (w.session p).state ≠ .invalid) :
    (closeSessions quiet (p :: ps) w).2 = (closeSessions quiet ps (w.closeSession p)).2 := by
  rw [closeSessions, get_bind_run]
  rw [if_pos h, bind_run, discard_snd, sessionClose_quiet h]

theorem World.closeSession_session (q : SessionPtr) : (w.closeSession p).session q =
    if q = p then { w.session p with state := .invalid } else w.session q :=
  setSession_session w p q _

theorem closeSessions_state {q : SessionPtr} (hq : q ∈ ps ∨ (w.session q).state = .invalid) :
    ((closeSessions quiet ps w).2.session q).state = .invalid := by
  induction ps generalizing w with
  | nil => exact hq.resolve_left not_mem_nil
  | cons p ps ih =>
    by_cases hp : (w.session p).state = .invalid
    · rw [closeSessions_skip hp]
      refine ih ?_
      rcases hq with hmem | hinvalid
      · rcases mem_cons.1 hmem with rfl | hmem
        · exact .inr hp
        · exact .inl hmem
      · exact .inr hinvalid
    · rw [closeSessions_close hp]
      refine ih ?_
      rw [closeSession_session]
      split_ifs with hqp
      · exact .inr rfl
      · rcases hq with hmem | hinvalid
        · exact .inl ((mem_cons.1 hmem).resolve_left hqp)
        · exact .inr hinvalid

end Quiet

end LibTransistor
