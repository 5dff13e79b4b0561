import LibTransistor.Ipc.MarshalBounds
import LibTransistor.Ipc.ServerRuns

/-!
# The result of a reply and the session behind it

`ipc_server_object_reply` learns from `svcReplyAndReceive` that a reply went out by the code of a
timeout, because the call has nothing to wait for. Every other code is taken for a failure of the
kernel and is handed on as it is: the answer 0 puts the session into the state ERRORED and is
returned all the same (`reply_agrees_iff`).
-/

namespace LibTransistor

open Fallible Cursor

theorem packReply_error {w : World} {o : ObjPtr} {rep : Reply} {e : ResultT}
    (h : packReply w o rep = .error e) : IsError e := by
  unfold packReply at h
  dsimp only at h
  split_ifs at h with hstate hactive
  · cases h
    decide
  · cases h
    decide
  · split at h
    · next hrun =>
        cases h
        exact (plain_ipcPackResponse w rep.handles rep.stack rep.response o).throws.of_error hrun
    · cases h

/-! ## What a result says -/

section Reply

variable (w : World) (o : ObjPtr) (rep : Reply)

/-- The session of object `o` has gone from PROCESSING in `w` to LISTENING in `w'`, with no object
active. -/
def BackToListening (w' : World) : Prop :=
  let p := (w.object o).owningSession
  (w.session p).state = .processing ∧ (w'.session p).state = .listening ∧
    (w'.session p).activeObject = none

/-- The result of a reply and what became of the session agree. -/
structure ReplyAgrees : Prop where
  /-- Success is reported exactly for a session that can take the next message. -/
  ok_iff : (ipcServerObjectReply o rep w).1 = resultOk ↔
    BackToListening w o (ipcServerObjectReply o rep w).2
  /-- A reply that is given up before the kernel is asked has no effect. -/
  refused : ∀ e, packReply w o rep = .error e →
    IsError (ipcServerObjectReply o rep w).1 ∧ (ipcServerObjectReply o rep w).2 = w
  /-- A failure of the kernel is reported, and ends the session. -/
  failed : ∀ m, packReply w o rep = .ok m → rep.r ≠ resultTimeout →
    IsError (ipcServerObjectReply o rep w).1 ∧
      ((ipcServerObjectReply o rep w).2.session (w.object o).owningSession).state = .errored

variable {w o rep}

theorem ReplyAgrees.of_refused {e : ResultT} (h : packReply w o rep = .error e) :
    ReplyAgrees w o rep := by
  have hrun := reply_refused h
  refine ⟨?_, fun e' _ => ?_, fun m hm => ?_⟩
  · rw [hrun]
    constructor
    · exact fun hok => absurd hok (packReply_error h)
    · -- a session that is left as it was has not changed its state
      intro hback
      cases hback.1.symm.trans hback.2.1
  · rw [hrun]
    exact ⟨packReply_error h, rfl⟩
  · rw [h] at hm
    cases hm

theorem ReplyAgrees.of_sent {m : Mem Word} (h : packReply w o rep = .ok m)
    (hr : rep.r = resultTimeout) : ReplyAgrees w o rep := by
  have hrun := reply_sent h hr
  refine ⟨?_, fun e he => ?_, fun _ _ hne => absurd hr hne⟩
  · rw [hrun]
    refine iff_of_true rfl ⟨(active_of_packReply h).1, ?_, ?_⟩
    · rw [World.setSession_session, if_pos rfl]
    · rw [World.setSession_session, if_pos rfl]
  · rw [h] at he
    cases he

theorem state_of_failed {m : Mem Word} (h : packReply w o rep = .ok m)
    (hr : rep.r ≠ resultTimeout) :
    ((ipcServerObjectReply o rep w).2.session (w.object o).owningSession).state = .errored := by
  rw [reply_failed h hr, World.setSession_session, if_pos rfl]

theorem ReplyAgrees.of_failed {m : Mem Word} (h : packReply w o rep = .ok m)
    (hr : rep.r ≠ resultTimeout) (hne : rep.r ≠ resultOk) : ReplyAgrees w o rep := by
  have hstate := state_of_failed h hr
  have hresult : (ipcServerObjectReply o rep w).1 = rep.r := by rw [reply_failed h hr]
  refine ⟨iff_of_false ?_ ?_, fun e he => ?_, fun _ _ _ => ?_⟩
  · rw [hresult]
    exact hne
  · intro hback
    cases hstate.symm.trans hback.2.1
  · rw [h] at he
    cases he
  · rw [hresult]
    exact ⟨hne, hstate⟩

variable (w o rep)

/-- **The result of a reply.** It agrees with the session exactly if the reply is given up before
the kernel is asked, or the kernel does not answer with 0. -/
theorem reply_agrees_iff :
    ReplyAgrees w o rep ↔ (∃ e, packReply w o rep = .error e) ∨ rep.r ≠ resultOk := by
  cases h : packReply w o rep with
  | error e => exact iff_of_true (.of_refused h) (.inl ⟨e, rfl⟩)
  | ok m =>
    constructor
    · intro hagrees
      refine .inr fun hr => ?_
      have hne : rep.r ≠ resultTimeout := by
        rw [hr]
        decide
      have hfailed := (hagrees.failed m h hne).1
      rw [reply_failed h hne] at hfailed
      exact hfailed hr
    · rintro (⟨e, he⟩ | hr)
      · cases he
      · by_cases htimeout : rep.r = resultTimeout
        · exact .of_sent h htimeout
        · exact .of_failed h htimeout hr

end Reply

/-- A session that has a message for its object. -/
def waitingForReply : ServerRun :=
  ServerRun.start.after [.create 0 0x10, .createSession 0 0x20 0 1,
    .take ⟨0, 0⟩ resultOk (bareMessage 4#32)]

/-- A reply without data, and the kernel's answer to it. -/
def bareReply (r : ResultT) : Reply :=
  ⟨ipcDefaultResponse, fun _ => 0, fun _ => 0, fun _ => 0, r⟩

theorem bareReply_agrees : ReplyAgrees waitingForReply.world (.user 1) (bareReply resultTimeout) :=
  (reply_agrees_iff _ _ _).2 (.inr (by decide))

/-- The kernel answers 0: the reply is a success, and the session has no way back. -/
theorem answer_zero_errored :
    (ipcServerObjectReply (.user 1) (bareReply 0#32) waitingForReply.world).1 = resultOk ∧
      ((ipcServerObjectReply (.user 1) (bareReply 0#32) waitingForReply.world).2.session
        ⟨0, 0⟩).state = .errored ∧
      ¬ ReplyAgrees waitingForReply.world (.user 1) (bareReply 0#32) := by
  have hok : (ipcServerObjectReply (.user 1) (bareReply 0#32) waitingForReply.world).1 =
      resultOk := by decide +kernel
  have hstate : ((ipcServerObjectReply (.user 1) (bareReply 0#32)
      waitingForReply.world).2.session ⟨0, 0⟩).state = .errored := by decide +kernel
  refine ⟨hok, hstate, fun hagrees => ?_⟩
  have hback := (hagrees.ok_iff.1 hok).2.1
  cases hback

end LibTransistor
