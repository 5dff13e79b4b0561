import LibTransistor.Ipc.Delivery
import LibTransistor.Ipc.Operations

/-!
# Runs of the IPC server

`serverSystem` is all that can happen to the servers of a process, as single acts. Callbacks of the
user may call the server again, from the middle of an operation: a handler is called at the end of
`ipc_server_session_receive`, `close` callbacks are called while a session is being closed, and
either may create sessions, reply or close. So an operation that calls back is not one act but
several, with any acts in between.

* `ServerAct` — the acts. `take` is a receive up to the handler's call or up to the failure that
  closes the session; the act that ends a close is `invalidate`.
* `ServerRun` — the servers, the objects that were handed over to them, and what happened on each
  session slot since each time a session was created in it.
-/

namespace LibTransistor

open Stateful

/-! ## Receiving, up to the handler -/

/-- How `ipc_server_session_receive` goes on when it has seen the message. -/
inductive Taken
  | refused
  | failed
  | dispatched (o : ObjPtr) (msg : IpcMessage) (requestId : Word)

def setErrored (p : SessionPtr) : ServerM Unit :=
  modify fun w => w.setSession p { w.session p with state := .errored }

/-- `ipc_server_session_receive` up to the call of the handler, or up to `goto failure` and the
first statement behind the label. -/
def takeMessage (p : SessionPtr) (r : ResultT) (tls : Mem Word) : ServerM Taken := do
  let sess := (← get).session p
  if sess.state ≠ .listening then return .refused
  if r ≠ resultOk then
    setErrored p
    return .failed
  else
    let sess := { sess with
      state := .processing, messageBuffer := copyMessage sess.messageBuffer tls }
    modify (·.setSession p sess)
    let msg := ipcUnpack sess.messageBuffer
    match dispatchTarget p sess msg with
    | none =>
      setErrored p
      return .failed
    | some (o, rawData) =>
      modify (·.setSession p { sess with activeObject := some o })
      return .dispatched o msg (msg.words rawData 2)

/-- The rest of `ipc_server_session_receive`. -/
def finishReceive (cb : Callbacks) (p : SessionPtr) : Taken → ServerM ResultT
  | .refused => return Err.ipcserverInvalidSessionState
  | .failed => ipcServerSessionClose cb p
  | .dispatched o msg requestId => do
    callDispatch cb o msg requestId
    return resultOk

/-- The session in which `ipc_server_session_receive` looks for the handler. -/
def World.processing (w : World) (p : SessionPtr) (tls : Mem Word) : Session :=
  { w.session p with
    state := .processing
    messageBuffer := copyMessage (w.session p).messageBuffer tls }

section Take

variable {w : World} {p : SessionPtr} {r : ResultT} {tls : Mem Word}

theorem take_refused (h : (w.session p).state ≠ .listening) :
    takeMessage p r tls w = (.refused, w) := by
  unfold takeMessage
  rw [get_bind_run]
  rw [if_pos h]
  rfl

theorem take_noMessage (h : (w.session p).state = .listening) (hr : r ≠ resultOk) :
    takeMessage p r tls w =
      (.failed, w.setSession p { w.session p with state := .errored }) := by
  unfold takeMessage
  rw [get_bind_run]
  rw [if_neg (not_not.2 h), if_pos hr]
  rfl

theorem take_noTarget (h : (w.session p).state = .listening)
    (htarget : dispatchTarget p (w.processing p tls) (w.received p tls) = none) :
    takeMessage p resultOk tls w =
      (.failed, w.setSession p { w.processing p tls with state := .errored }) := by
  unfold World.processing World.received at htarget
  unfold takeMessage
  rw [get_bind_run]
  rw [if_neg (not_not.2 h), if_neg (not_not.2 rfl), modify_bind_run, htarget]
  show (_, (w.setSession p _).setSession p { (w.setSession p _).session p with state := _ }) = _
  rw [World.setSession_setSession, World.setSession_session, if_pos rfl]
  rfl

theorem take_target (h : (w.session p).state = .listening) {o : ObjPtr} {rawData : Nat}
    (htarget : dispatchTarget p (w.processing p tls) (w.received p tls) = some (o, rawData)) :
    takeMessage p resultOk tls w =
      (.dispatched o (w.received p tls) ((w.received p tls).words rawData 2),
        w.dispatching p tls o) := by
  unfold World.processing World.received at htarget
  unfold takeMessage
  rw [get_bind_run]
  rw [if_neg (not_not.2 h), if_neg (not_not.2 rfl), modify_bind_run, htarget]
  show (_, (w.setSession p _).setSession p _) = _
  rw [World.setSession_setSession]
  rfl

/-- **What taking a message does to its session**, and to nothing else. -/
theorem takeMessage_cases (w : World) (p : SessionPtr) (r : ResultT) (tls : Mem Word) :
    ((w.session p).state ≠ .listening ∧ takeMessage p r tls w = (.refused, w)) ∨
    ((w.session p).state = .listening ∧ ∃ m, takeMessage p r tls w =
      (.failed, w.setSession p { w.session p with state := .errored, messageBuffer := m })) ∨
    ((w.session p).state = .listening ∧ r = resultOk ∧ ∃ o msg requestId, takeMessage p r tls w =
      (.dispatched o msg requestId, w.dispatching p tls o)) := by
  by_cases h : (w.session p).state = .listening
  · by_cases hr : r = resultOk
    · subst hr
      cases htarget : dispatchTarget p (w.processing p tls) (w.received p tls) with
      | none => exact .inr (.inl ⟨h, _, take_noTarget h htarget⟩)
      | some target => exact .inr (.inr ⟨h, rfl, _, _, _, take_target h htarget⟩)
    · exact .inr (.inl ⟨h, _, take_noMessage h hr⟩)
  · exact .inl ⟨h, take_refused h⟩

/-- `w'` is `w`, but for what one live session is doing. -/
def World.Moved (w w' : World) : Prop :=
  w' = w ∨ ∃ p state activeObject messageBuffer, (w.session p).state ≠ .invalid ∧
    state ≠ .invalid ∧
    w' = w.setSession p { w.session p with state, activeObject, messageBuffer }

theorem takeMessage_moved (w : World) (p : SessionPtr) (r : ResultT) (tls : Mem Word) :
    w.Moved (takeMessage p r tls w).2 := by
  rcases takeMessage_cases w p r tls with ⟨-, h⟩ | ⟨hstate, m, h⟩ | ⟨hstate, -, o, msg, id, h⟩
  · exact .inl (by rw [h])
  · exact .inr ⟨p, .errored, _, m, by simp [hstate], by decide, by rw [h]⟩
  · exact .inr ⟨p, .processing, some o, _, by simp [hstate], by decide, by rw [h]; rfl⟩

theorem reply_moved (w : World) (o : ObjPtr) (rep : Reply) :
    w.Moved (ipcServerObjectReply o rep w).2 := by
  cases hpack : packReply w o rep with
  | error e => exact .inl (by rw [reply_refused hpack])
  | ok m =>
    have hlive : (w.session (w.object o).owningSession).state ≠ .invalid := by
      simp [(active_of_packReply hpack).1]
    by_cases hr : rep.r = resultTimeout
    · exact .inr ⟨_, .listening, none, _, hlive, by decide, by rw [reply_sent hpack hr]⟩
    · exact .inr ⟨_, .errored, _, _, hlive, by decide, by rw [reply_failed hpack hr]⟩

theorem receive_eq (cb : Callbacks) (p : SessionPtr) (r : ResultT) (tls : Mem Word) :
    ipcServerSessionReceive cb p r tls = takeMessage p r tls >>= finishReceive cb p := by
  funext w
  rw [bind_run]
  unfold ipcServerSessionReceive takeMessage
  rw [get_bind_run, get_bind_run]
  -- both look at the same things in the same order
  by_cases h : (w.session p).state ≠ .listening
  · rw [if_pos h, if_pos h]
    rfl
  rw [if_neg h, if_neg h]
  by_cases hr : r ≠ resultOk
  · rw [if_pos hr, if_pos hr]
    rfl
  rw [if_neg hr, if_neg hr, modify_bind_run, modify_bind_run]
  cases dispatchTarget p _ _ <;> rfl

end Take

/-! ## Acts -/

/-- What happens on a session. -/
inductive SessionEvent
  /-- A message was received, for the object it was dispatched to. -/
  | received (target : Option ObjPtr)
  /-- `svcReplyAndReceive` was called to reply, for object `o`. -/
  | replied (o : ObjPtr)
  deriving DecidableEq

/-- The servers of a process, with what has happened to them. -/
structure ServerRun where
  world : World
  /-- The objects handed over to the server, newest first. -/
  handed : List Nat
  /-- For each time a session was created in a slot, newest first, what happened on it, newest
  first. -/
  incarnations : SessionPtr → List (List SessionEvent)

inductive ServerAct
  | create (srv : Nat) (port : Handle)
  | createSession (srv : Nat) (serverSide clientSide : Handle) (object : Nat)
  | addObject (p : SessionPtr) (object : Nat)
  | take (p : SessionPtr) (r : ResultT) (tls : Mem Word)
  | reply (o : ObjPtr) (rep : Reply)
  /-- The end of a close. -/
  | invalidate (p : SessionPtr)
  | closeHandle (h : Handle)
  /-- `ipc_server_object_close` is called; the callback's acts follow. -/
  | closeObject (object : Nat)
  | touch (p : SessionPtr)

/-- What an act does to the servers. -/
def ServerAct.run : ServerAct → ServerM Unit
  | .create srv port => discard (ipcServerCreate srv port)
  | .createSession srv serverSide clientSide object =>
    discard (ipcServerCreateSession srv serverSide clientSide (.user object))
  | .addObject p object => discard (ipcServerDomainAddObject p (.user object))
  | .take p r tls => discard (takeMessage p r tls)
  | .reply o rep => discard (ipcServerObjectReply o rep)
  | .invalidate p => invalidateSession p
  | .closeHandle h => svcCloseHandle h
  | .closeObject object => modify fun w => { w with closeCalls := w.closeCalls ++ [object] }
  | .touch p => touchSession p

/-- The objects that an act hands over. -/
def ServerAct.hands : ServerAct → List Nat
  | .createSession _ _ _ object => [object]
  | .addObject _ object => [object]
  | _ => []

/-- Add to what has happened on the newest session of a slot. -/
def happen (e : SessionEvent) : List (List SessionEvent) → List (List SessionEvent)
  | [] => [[e]]
  | l :: ls => (e :: l) :: ls

/-- What an act adds to what has happened on sessions. -/
def ServerAct.record (w : World) (act : ServerAct)
    (incarnations : SessionPtr → List (List SessionEvent)) :
    SessionPtr → List (List SessionEvent) :=
  match act with
  | .createSession srv _ _ _ =>
    match w.freeSlot srv with
    | none => incarnations
    | some p => Function.update incarnations p ([] :: incarnations p)
  | .take p r tls =>
    if (w.session p).state = .listening ∧ r = resultOk then
      let target := (dispatchTarget p (w.processing p tls) (w.received p tls)).map Prod.fst
      Function.update incarnations p (happen (.received target) (incarnations p))
    else incarnations
  | .reply o rep =>
    match packReply w o rep with
    | .error _ => incarnations
    | .ok _ =>
      let p := (w.object o).owningSession
      Function.update incarnations p (happen (.replied o) (incarnations p))
  | _ => incarnations

def ServerAct.exec (act : ServerAct) (s : ServerRun) : ServerRun where
  world := (act.run s.world).2
  handed := act.hands ++ s.handed
  incarnations := act.record s.world s.incarnations

/-- No slot holds a session yet. -/
def ServerRun.Initial (s : ServerRun) : Prop :=
  (∀ p, (s.world.session p).state = .invalid) ∧ s.handed = [] ∧ ∀ p, s.incarnations p = []

/-- The servers of a process. -/
def serverSystem : System ServerRun ServerAct where
  init := ServerRun.Initial
  step s act s' := s' = act.exec s

/-- The state after some acts. -/
def ServerRun.after (s : ServerRun) (acts : List ServerAct) : ServerRun :=
  System.after ServerAct.exec s acts

theorem ServerRun.Initial.reachable_after {s : ServerRun} (h : s.Initial) (acts : List ServerAct) :
    serverSystem.Reachable (s.after acts) :=
  System.reachable_after (fun _ _ _ => rfl) (.init h) (.of_forall (fun _ _ => trivial) s acts)

/-- A process before its first session. -/
def ServerRun.start : ServerRun := ⟨noSessions, [], fun _ => []⟩

/-- A message of a type, and zeros. -/
def bareMessage (type : Word) : Mem Word := fun i => if i = 0 then type else 0#32

theorem ServerRun.start_initial : ServerRun.start.Initial :=
  ⟨fun _ => rfl, rfl, fun _ => rfl⟩

/-! ## The operations make runs -/

/-- Only `ipc_server_process` touches sessions. -/
def ServerAct.isTouch : ServerAct → Bool
  | .touch _ => true
  | _ => false

end LibTransistor
