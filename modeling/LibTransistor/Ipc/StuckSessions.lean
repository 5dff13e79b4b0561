import LibTransistor.Ipc.ObjectGraph

/-!
# Sessions that get stuck

A session in state `PROCESSING` is not waited on. It leaves that state when the object that has its
message replies, and when it is closed.

* `Callbacks.Answer` — handlers that do one or the other before they return.
* `receive_settles_iff` — with such handlers, the messages that leave a session `PROCESSING` are
  those that do not get to a handler, or not to one of the session.
* `ServerRun.GraphInv.addressee_owned` — of these, messages of type 5 are the only ones in a run
  that hands each object over once: they go to the session's manager object, whose handler
  `hipc_manager_dispatch` is empty.
-/

namespace LibTransistor

open Stateful

namespace World

/-- `LISTENING` or `INVALID`. -/
def Settled (w : World) (p : SessionPtr) : Prop :=
  (w.session p).state = .listening ∨ (w.session p).state = .invalid

/-- A message goes to object `o`. -/
def Addresses (w : World) (p : SessionPtr) (tls : Mem Word) (o : ObjPtr) : Prop :=
  ∃ rawData, dispatchTarget p (w.processing p tls) (w.received p tls) = some (o, rawData)

end World

/-- A handler that is called for a message on its object's session replies to it or closes the
session. -/
def Callbacks.Answer (cb : Callbacks) : Prop :=
  ∀ a msg requestId w, (w.session (w.object (.user a)).owningSession).state = .processing →
    (w.session (w.object (.user a)).owningSession).activeObject = some (.user a) →
      (cb.dispatch a msg requestId w).2.Settled (w.object (.user a)).owningSession

/-- Receiving leaves the session settled with all handlers that answer. -/
def World.NeverStuck (w : World) (p : SessionPtr) (r : ResultT) (tls : Mem Word) : Prop :=
  ∀ cb : Callbacks, cb.Answer → (ipcServerSessionReceive cb p r tls w).2.Settled p

/-! ## Handlers that close their session -/

/-- Handlers that close the session of their object, and nothing else. -/
def closeOwnSession : Callbacks where
  dispatch a _ _ := do
    let w ← get
    discard (ipcServerSessionClose quiet (w.object (.user a)).owningSession)
  close _ := none

theorem closeOwnSession_answer : closeOwnSession.Answer := by
  intro a msg requestId w _ _
  exact .inr (sessionClose_state quiet)

theorem sessionClose_quiet_session {w : World} {p q : SessionPtr} (h : p ≠ q) :
    (ipcServerSessionClose quiet q w).2.session p = w.session p := by
  by_cases hq : (w.session q).state = .invalid
  · rw [sessionClose_invalid quiet hq]
  · rw [sessionClose_quiet hq]
    show (w.setSession q _).session p = _
    rw [World.setSession_session, if_neg h]

/-! ## Where a message ends up -/

section Receive

variable {w : World} {p : SessionPtr} {r : ResultT} {tls : Mem Word} {cb : Callbacks} {o : ObjPtr}

theorem dispatching_state : ((w.dispatching p tls o).session p).state = .processing := by
  unfold World.dispatching
  rw [World.setSession_session, if_pos rfl]

theorem dispatching_activeObject : ((w.dispatching p tls o).session p).activeObject = some o := by
  unfold World.dispatching
  rw [World.setSession_session, if_pos rfl]

theorem receive_settled_of_failed {w' : World} (h : takeMessage p r tls w = (.failed, w')) :
    (ipcServerSessionReceive cb p r tls w).2.Settled p := by
  rw [receive_eq, bind_run, h]
  exact .inr (sessionClose_state cb)

theorem receive_dispatched (cb : Callbacks) (hlisten : (w.session p).state = .listening)
    (ho : w.Addresses p tls o) : ∃ msg requestId,
      (ipcServerSessionReceive cb p resultOk tls w).2 =
        (callDispatch cb o msg requestId (w.dispatching p tls o)).2 := by
  obtain ⟨rawData, htarget⟩ := ho
  refine ⟨w.received p tls, (w.received p tls).words rawData 2, ?_⟩
  rw [receive_eq, bind_run, take_target hlisten htarget]
  rfl

theorem addresses_manager (ht : (w.received p tls).messageType = 5#16) :
    w.Addresses p tls (.hipcManager p) := by
  refine ⟨(w.received p tls).dataSection, ?_⟩
  unfold dispatchTarget
  rw [if_pos ht]

theorem not_neverStuck_manager (hlisten : (w.session p).state = .listening) {q : SessionPtr}
    (ho : w.Addresses p tls (.hipcManager q)) : ¬ w.NeverStuck p resultOk tls := by
  intro h
  obtain ⟨msg, requestId, hrun⟩ := receive_dispatched closeOwnSession hlisten ho
  have hsettled := h closeOwnSession closeOwnSession_answer
  rw [hrun] at hsettled
  have hstate : ((w.dispatching p tls (.hipcManager q)).session p).state = .processing :=
    dispatching_state
  rcases hsettled with hs | hs
  · exact nomatch hstate.symm.trans hs
  · exact nomatch hstate.symm.trans hs

theorem not_neverStuck_foreign (hlisten : (w.session p).state = .listening) {a : Nat}
    (ho : w.Addresses p tls (.user a)) (hown : (w.object (.user a)).owningSession ≠ p) :
    ¬ w.NeverStuck p resultOk tls := by
  intro h
  obtain ⟨msg, requestId, hrun⟩ := receive_dispatched closeOwnSession hlisten ho
  have hsettled := h closeOwnSession closeOwnSession_answer
  have hsession : (callDispatch closeOwnSession (.user a) msg requestId
      (w.dispatching p tls (.user a))).2.session p = (w.dispatching p tls (.user a)).session p :=
    sessionClose_quiet_session (Ne.symm hown)
  rw [hrun] at hsettled
  unfold World.Settled at hsettled
  rw [hsession, dispatching_state] at hsettled
  rcases hsettled with hs | hs
  · exact nomatch hs
  · exact nomatch hs

/-- **Which messages get a session stuck.** With handlers that answer, a session on which a message
is received is `LISTENING` or `INVALID` afterwards exactly when the message is not of type 5 and the
object that it goes to, if any, is a user's object of that session. -/
theorem receive_settles_iff (hlisten : (w.session p).state = .listening) :
    w.NeverStuck p r tls ↔
      (r = resultOk → (w.received p tls).messageType ≠ 5#16 ∧
        ∀ o, w.Addresses p tls o → ∃ a, o = .user a ∧ (w.object o).owningSession = p) := by
  constructor
  · rintro h rfl
    refine ⟨fun ht => not_neverStuck_manager hlisten (addresses_manager ht) h, fun o ho => ?_⟩
    cases o with
    | user a =>
      refine ⟨a, rfl, ?_⟩
      by_contra hown
      exact not_neverStuck_foreign hlisten ho hown h
    | hipcManager q => exact absurd h (not_neverStuck_manager hlisten ho)
  · intro h cb hcb
    by_cases hr : r = resultOk
    · subst hr
      cases htarget : dispatchTarget p (w.processing p tls) (w.received p tls) with
      | none => exact receive_settled_of_failed (take_noTarget hlisten htarget)
      | some target =>
        obtain ⟨o, rawData⟩ := target
        obtain ⟨a, rfl, hown⟩ := (h rfl).2 o ⟨rawData, htarget⟩
        obtain ⟨msg, requestId, hrun⟩ := receive_dispatched cb hlisten ⟨rawData, htarget⟩
        have hown' : ((w.dispatching p tls (.user a)).object (.user a)).owningSession = p := hown
        have hsettled := hcb a msg requestId (w.dispatching p tls (.user a))
        rw [hown'] at hsettled
        rw [hrun]
        exact hsettled dispatching_state dispatching_activeObject
    · exact receive_settled_of_failed (take_noMessage hlisten hr)

/-- A message of type 4 goes to the session's object, which answers it; one of type 5 does not. -/
theorem twoSessions_settle : twoSessions.NeverStuck ⟨0, 0⟩ resultOk (bareMessage 4#32) ∧
    ¬ twoSessions.NeverStuck ⟨0, 0⟩ resultOk (bareMessage 5#32) := by
  refine ⟨(receive_settles_iff (by decide)).2 fun _ => ⟨by decide, ?_⟩, fun h => ?_⟩
  · rintro o ⟨rawData, htarget⟩
    have huser : dispatchTarget ⟨0, 0⟩ (twoSessions.processing ⟨0, 0⟩ (bareMessage 4#32))
        (twoSessions.received ⟨0, 0⟩ (bareMessage 4#32)) = some (.user 1, 4) := by decide
    cases huser.symm.trans htarget
    exact ⟨1, rfl, by decide⟩
  · exact ((receive_settles_iff (by decide)).1 h rfl).1 (by decide)

/-- A message of type 5 leaves its session in `PROCESSING`. -/
theorem managerMessage_stuck : closeOwnSession.Answer ∧
    ((ipcServerSessionReceive closeOwnSession ⟨0, 0⟩ resultOk (bareMessage 5#32)
      twoSessions).2.session ⟨0, 0⟩).state = .processing :=
  ⟨closeOwnSession_answer, by decide +kernel⟩

/-- In a run that hands each object over once, what a message of another type goes to is an object
of the session. -/
theorem ServerRun.GraphInv.addressee_owned {s : ServerRun} (h : s.GraphInv)
    (hlive : (s.world.session p).state ≠ .invalid)
    (ht : (s.world.received p tls).messageType ≠ 5#16) (ho : s.world.Addresses p tls o) :
    ∃ a, o = .user a ∧ (s.world.object o).owningSession = p := by
  obtain ⟨rawData, htarget⟩ := ho
  have hcons := h.consistent p hlive
  unfold dispatchTarget at htarget
  rw [if_neg ht] at htarget
  split_ifs at htarget with htype hdomain
  · cases hget : ipcServerDomainGetObject (s.world.processing p tls).domain
        ((s.world.received p tls).words (s.world.received p tls).dataSection 1) with
    | error e => rw [hget] at htarget; cases htarget
    | ok o' =>
      rw [hget] at htarget
      cases htarget
      obtain ⟨i, -, hi⟩ := getObject_eq_ok.1 hget
      obtain ⟨a, -, rfl⟩ := h.handed p o hlive (.inr ⟨i, hi⟩)
      exact ⟨a, rfl, (hcons.objects i _ hi).2.2.2⟩
  · obtain ⟨o', hobj, heq⟩ := Option.map_eq_some_iff.1 htarget
    cases heq
    obtain ⟨o', hobj', -, hown⟩ := hcons.object
    cases hobj.symm.trans hobj'
    obtain ⟨a, -, rfl⟩ := h.handed p o hlive (.inl hobj)
    exact ⟨a, rfl, hown⟩

end Receive

end LibTransistor
