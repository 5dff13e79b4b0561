import LibTransistor.Ipc.Message
import Mathlib.Algebra.Ring.Nat

/-!
# Sessions, domains and objects of the IPC server

The data of `include/libtransistor/ipcserver.h` and the operations of `lib/ipcserver.c` that set
sessions up, look objects up and take a message in.

**The state** (`World`). The memory of a process that runs servers: their ports, their session
slots, and its server objects; next to it the handles passed to `svcCloseHandle` and the objects
passed to `ipc_server_object_close`. A pointer to a session is a server and a slot, also for the
domain that lives in the session. An object is the user's, or the manager object inside a session.

**Callbacks.** `dispatch` and `close` of a user's object are code of the user; they may run any
operation of the server, so they are functions on the whole state.
-/

namespace LibTransistor

/-! ## Pointers -/

/-- A pointer to `srv->sessions[slot]`, with `MAX_SERVICE_SESSIONS` slots. -/
structure SessionPtr where
  server : Nat
  slot : Fin 63
  deriving DecidableEq, Repr

instance neZeroSlots : NeZero 63 := ⟨by decide⟩

/-- A pointer to an `ipc_server_object_t`: a user's object, or `&sess->hipc_manager_object`. -/
inductive ObjPtr
  | user (addr : Nat)
  | hipcManager (sess : SessionPtr)
  deriving DecidableEq, Repr

/-! ## Objects and sessions -/

/-- `ipc_server_object_t`, less `userdata` and the callbacks. -/
structure ServerObject where
  isDomainObject : Bool
  domainId : Word
  /-- `NULL`, or the domain of a session. -/
  owningDomain : Option SessionPtr
  owningSession : SessionPtr
  domain_owned : isDomainObject = true → owningDomain.isSome = true
  deriving DecidableEq

/-- `ipc_server_domain_t`, with `MAX_DOMAIN_OBJECTS` slots. -/
structure Domain where
  objects : Fin 512 → Option ObjPtr
  owningSession : SessionPtr

inductive SessionState
  | invalid | initializing | listening | processing | errored
  deriving DecidableEq, Repr

/-- `ipc_server_session_t`. The manager object inside it is reached through `ObjPtr.hipcManager`. -/
structure Session where
  handle : Handle
  clientHandle : Handle
  isDomain : Bool
  activeObject : Option ObjPtr
  object : Option ObjPtr
  domain : Domain
  state : SessionState
  owningServer : Nat
  messageBuffer : Mem Word
  lastTouchTimestamp : BitVec 64

structure World where
  session : SessionPtr → Session
  object : ObjPtr → ServerObject
  /-- What `svcCloseHandle` was called on, in order. -/
  closed : List Handle
  /-- The static counter of `make_timestamp`. -/
  timestamp : BitVec 64
  /-- `srv->port`. -/
  port : Nat → Handle := fun _ => 0#32
  /-- The user's objects that `ipc_server_object_close` was called on, in order. -/
  closeCalls : List Nat := []

namespace World

def setSession (w : World) (p : SessionPtr) (s : Session) : World :=
  { w with session := Function.update w.session p s }

def setObject (w : World) (o : ObjPtr) (x : ServerObject) : World :=
  { w with object := Function.update w.object o x }

@[simp] theorem setSession_session (w : World) (p q : SessionPtr) (s : Session) :
    (w.setSession p s).session q = if q = p then s else w.session q :=
  Function.update_apply w.session p s q

@[simp] theorem setObject_object (w : World) (o o' : ObjPtr) (x : ServerObject) :
    (w.setObject o x).object o' = if o' = o then x else w.object o' :=
  Function.update_apply w.object o x o'

end World

/-- An operation of the server. -/
abbrev ServerM := StateM World

def svcCloseHandle (h : Handle) : ServerM Unit := modify fun w => { w with closed := w.closed ++ [h] }

/-! ## Creating sessions and registering objects -/

/-- The slots of a server, in the order in which its loops visit them. -/
def slots (srv : Nat) : List SessionPtr := (List.finRange 63).map (SessionPtr.mk srv)

/-- The session that `ipc_server_create_session` builds in slot `p`. -/
def freshSession (p : SessionPtr) (serverSide clientSide : Handle) (object : ObjPtr)
    (timestamp : BitVec 64) (messageBuffer : Mem Word) : Session where
  handle := serverSide
  clientHandle := clientSide
  isDomain := false
  activeObject := none
  object := some object
  domain := ⟨fun _ => none, p⟩
  state := .listening
  owningServer := p.server
  messageBuffer := messageBuffer
  lastTouchTimestamp := timestamp

/-- An object as `ipc_server_create_session` leaves it. -/
def sessionObject (p : SessionPtr) : ServerObject := ⟨false, 0#32, none, p, by simp⟩

def ipcServerCreateSession (srv : Nat) (serverSide clientSide : Handle) (object : ObjPtr) :
    ServerM ResultT := do
  let w ← get
  match (slots srv).find? fun p => (w.session p).state = .invalid with
  | none =>
    svcCloseHandle serverSide
    if clientSide ≠ 0#32 then svcCloseHandle clientSide
    return Err.ipcserverTooManySessions
  | some p =>
    let sess := freshSession p serverSide clientSide object w.timestamp (w.session p).messageBuffer
    -- the manager object's `domain_id` is not written
    let manager := { sessionObject p with domainId := (w.object (.hipcManager p)).domainId }
    let w := ((w.setSession p sess).setObject (.hipcManager p) manager).setObject object
      (sessionObject p)
    set { w with timestamp := w.timestamp + 1 }
    return resultOk

/-- `ipc_server_domain_add_object`, on the domain of session `p`. -/
def ipcServerDomainAddObject (p : SessionPtr) (object : ObjPtr) : ServerM ResultT := do
  let w ← get
  let sess := w.session p
  match (List.finRange 512).find? fun i => sess.domain.objects i = none with
  | none => return Err.tooManyObjects
  | some i =>
    let domain := { sess.domain with objects := Function.update sess.domain.objects i (some object) }
    set ((w.setSession p { sess with domain := domain }).setObject object
      ⟨true, BitVec.ofNat 32 i, some p, sess.domain.owningSession, fun _ => rfl⟩)
    return resultOk

def ipcServerDomainGetObject (domain : Domain) (objectId : Word) : Except ResultT ObjPtr :=
  if h : objectId.toNat ≥ 512 then .error Err.ipcserverNoSuchObject
  else
    match domain.objects ⟨objectId.toNat, Nat.lt_of_not_le h⟩ with
    | none => .error Err.ipcserverNoSuchObject
    | some o => .ok o

/-! ## Closing -/

/-- The user's callbacks; `close` may be `NULL`. -/
structure Callbacks where
  dispatch : Nat → IpcMessage → Word → ServerM Unit
  close : Nat → Option (ServerM Unit)

variable (cb : Callbacks)

/-- `hipc_manager_close` does nothing. -/
def ipcServerObjectClose : ObjPtr → ServerM Unit
  | .user a => do
    modify fun w => { w with closeCalls := w.closeCalls ++ [a] }
    (cb.close a).getD (pure ())
  | .hipcManager _ => pure ()

def closeDomainObjects (p : SessionPtr) : List (Fin 512) → ServerM Unit
  | [] => pure ()
  | i :: is => do
    match ((← get).session p).domain.objects i with
    | none => pure ()
    | some o => ipcServerObjectClose cb o
    closeDomainObjects p is

def ipcServerSessionClose (p : SessionPtr) : ServerM ResultT := do
  let sess := (← get).session p
  if sess.state = .invalid then return Err.ipcserverInvalidSessionState
  svcCloseHandle sess.handle
  if sess.clientHandle ≠ 0#32 then svcCloseHandle sess.clientHandle
  ipcServerObjectClose cb (.hipcManager p)
  match ((← get).session p).object with
  | none => pure ()
  | some o => ipcServerObjectClose cb o
  closeDomainObjects cb p (List.finRange 512)
  modify fun w => w.setSession p { w.session p with state := .invalid }
  return resultOk

/-! ## Receiving -/

/-- `hipc_manager_dispatch` does nothing. -/
def callDispatch (o : ObjPtr) (msg : IpcMessage) (requestId : Word) : ServerM Unit :=
  match o with
  | .user a => cb.dispatch a msg requestId
  | .hipcManager _ => pure ()

/-- The object a message goes to, and where its `raw_data` starts; `none` stands for
`goto failure`. -/
def dispatchTarget (p : SessionPtr) (sess : Session) (msg : IpcMessage) : Option (ObjPtr × Nat) :=
  if msg.messageType = 5#16 then some (.hipcManager p, msg.dataSection)
  else if msg.messageType = 4#16 ∨ msg.messageType = 0#16 then
    if sess.isDomain then
      match ipcServerDomainGetObject sess.domain (msg.words msg.dataSection 1) with
      | .error _ => none
      | .ok o => some (o, msg.dataSection + 4)
    else
      -- a listening session has an object: the source does not look
      sess.object.map (·, msg.dataSection)
  else none

/-- `memcpy(sess->message_buffer, tls, 0x100)`. -/
def copyMessage (messageBuffer tls : Mem Word) : Mem Word := fun i =>
  if i < 64 then tls i else messageBuffer i

/-- `goto failure`. -/
def receiveFailed (p : SessionPtr) : ServerM ResultT := do
  modify fun w => w.setSession p { w.session p with state := .errored }
  ipcServerSessionClose cb p

/-- `ipc_server_session_receive`, when `svcReplyAndReceive` returns `r` and leaves `tls` in the
thread's message buffer. -/
def ipcServerSessionReceive (p : SessionPtr) (r : ResultT) (tls : Mem Word) : ServerM ResultT := do
  let sess := (← get).session p
  if sess.state ≠ .listening then return Err.ipcserverInvalidSessionState
  if r ≠ resultOk then
    receiveFailed cb p
  else
    let sess := { sess with
      state := .processing, messageBuffer := copyMessage sess.messageBuffer tls }
    modify (·.setSession p sess)
    let msg := ipcUnpack sess.messageBuffer
    match dispatchTarget p sess msg with
    | none => receiveFailed cb p
    | some (o, rawData) =>
      modify (·.setSession p { sess with activeObject := some o })
      callDispatch cb o msg (msg.words rawData 2)
      return resultOk

end LibTransistor
