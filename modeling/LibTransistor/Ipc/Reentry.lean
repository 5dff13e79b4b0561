import LibTransistor.Ipc.Fairness

/-!
# Callbacks that call the server again

`serverSystem` takes single acts. The loop of the source runs whole operations, and the user's
callbacks in them may call the server again: a handler replies or closes its own session, a close
callback closes another one.

With callbacks that act on the servers through their operations (`Callbacks.Follow`), each call of
`ipc_server_process` is a run of the system (`process_serves`), so what holds in every run holds
after the source's loop.
-/

namespace LibTransistor

open Stateful List

/-- What a program does to the servers is done by acts. -/
abbrev Serves {α : Type} (m : ServerM α) : Prop := serverSystem.Follows ServerRun.world m

structure Callbacks.Follow (cb : Callbacks) : Prop where
  dispatch : ∀ object msg requestId, Serves (cb.dispatch object msg requestId)
  close : ∀ object m, cb.close object = some m → Serves m

/-- The user's code in an iteration acts on the servers through their operations only. -/
structure Iteration.Follow (it : Iteration) : Prop where
  objectFactory : Serves it.objectFactory
  callbacks : it.callbacks.Follow

/-! ## The operations make runs -/

theorem ServerAct.serves {α : Type} {m : ServerM α} (act : ServerAct)
    (h : ∀ w, (m w).2 = (act.run w).2) : Serves m := by
  apply System.Follows.of_step
  intro s
  exact ⟨act, act.exec s, rfl, (h s.world).symm⟩

theorem svcCloseHandle_serves (h : Handle) : Serves (svcCloseHandle h) :=
  (ServerAct.closeHandle h).serves fun _ => rfl

theorem acceptSession_serves (srv : Nat) (accepted : Except ResultT Handle)
    {objectFactory : ServerM (Except ResultT Nat)} (hfactory : Serves objectFactory) :
    Serves (ipcServerAcceptSession srv accepted objectFactory) := by
  unfold ipcServerAcceptSession
  cases accepted with
  | error r => exact .pure r
  | ok handle =>
    apply hfactory.bind
    intro made
    cases made with
    | error r => exact (svcCloseHandle_serves handle).bind fun _ => .pure r
    | ok object => exact (ServerAct.createSession srv handle 0#32 object).serves fun _ => rfl

section Callbacks

variable {cb : Callbacks} (hcb : cb.Follow)

include hcb

theorem objectClose_serves (o : ObjPtr) : Serves (ipcServerObjectClose cb o) := by
  cases o with
  | user object =>
    apply ((ServerAct.closeObject object).serves fun _ => rfl).bind
    intro _
    cases hclose : cb.close object with
    | none => exact .pure ()
    | some m => exact hcb.close object m hclose
  | hipcManager p => exact .pure ()

variable (p : SessionPtr)

theorem closeDomainObjects_serves (is : List (Fin 512)) : Serves (closeDomainObjects cb p is) := by
  induction is with
  | nil => exact .pure ()
  | cons i is ih =>
    apply System.Follows.get_bind
    intro w
    cases (w.session p).domain.objects i with
    | none => exact ih
    | some o => exact (objectClose_serves hcb o).bind fun _ => ih

theorem sessionClose_serves : Serves (ipcServerSessionClose cb p) := by
  have htables : Serves (do
      closeDomainObjects cb p (List.finRange 512)
      modify fun w => w.setSession p { w.session p with state := .invalid }
      return resultOk : ServerM ResultT) :=
    (closeDomainObjects_serves hcb p _).bind fun _ =>
      ((ServerAct.invalidate p).serves fun _ => rfl).bind fun _ => .pure resultOk
  apply System.Follows.get_bind
  intro w
  dsimp only
  split
  · exact .pure _
  apply (svcCloseHandle_serves _).bind
  intro _
  split
  on_goal 1 => refine (svcCloseHandle_serves _).bind fun _ => ?_
  -- with or without a client's end, what comes next is the same
  all_goals
    refine (objectClose_serves hcb _).bind fun _ => System.Follows.get_bind fun w => ?_
    cases (w.session p).object with
    | none => exact htables
    | some o => exact (objectClose_serves hcb o).bind fun _ => htables

theorem receive_serves (r : ResultT) (tls : Mem Word) :
    Serves (ipcServerSessionReceive cb p r tls) := by
  rw [receive_eq]
  have htake : Serves (takeMessage p r tls) :=
    (ServerAct.take p r tls).serves fun w => (discard_snd _ w).symm
  apply htake.bind
  intro taken
  cases taken with
  | refused => exact .pure _
  | failed => exact sessionClose_serves hcb p
  | dispatched o msg requestId =>
    cases o with
    | user object => exact (hcb.dispatch object msg requestId).bind fun _ => .pure _
    | hipcManager q => exact .pure _

end Callbacks

/-! ## The loop -/

theorem touchSessions_serves (ps : List SessionPtr) : Serves (touchSessions ps) := by
  induction ps with
  | nil => exact .pure ()
  | cons p ps ih => exact ((ServerAct.touch p).serves fun _ => rfl).bind fun _ => ih

theorem processIteration_serves (srv : Nat) {it : Iteration} (hit : it.Follow) :
    Serves (processIteration srv it) := by
  have hwait : Serves (processWait it) := by
    unfold processWait
    cases it.wait with
    | error r =>
      dsimp only
      split
      · exact (touchSessions_serves _).bind fun _ => .pure _
      · exact .pure _
    | ok handleIndex =>
      dsimp only
      cases it.handles.get handleIndex with
      | none => exact .pure _
      | some p => exact (touchSessions_serves _).bind fun _ => .pure _
  apply hwait.bind
  intro waited
  cases waited with
  | ended r => exact .pure _
  | accept => exact (acceptSession_serves srv _ hit.objectFactory).bind fun _ => .pure _
  | receive p =>
    have hreceive := receive_serves hit.callbacks p it.r it.tls
    exact System.Follows.bind (hreceive.bind fun _ => .pure ()) fun _ => .pure none

/-- **The loop of the server.** From every state, `ipc_server_process` with callbacks that may call
the server again ends in a state that acts of the servers lead to, for any number of iterations and
whatever the kernel and the sort do in them. -/
theorem process_serves (srv : Nat) {its : List Iteration} (hits : ∀ it ∈ its, it.Follow)
    (s : ServerRun) :
    ∃ s', serverSystem.Steps s s' ∧ s'.world = (ipcServerProcess srv its s.world).2 := by
  suffices h : Serves (ipcServerProcess srv its) from h s
  induction its with
  | nil => exact .pure none
  | cons it its ih =>
    apply (processIteration_serves srv (hits it mem_cons_self)).bind
    intro r
    cases r with
    | some r => exact .pure _
    | none => exact ih fun it hit => hits it (mem_cons_of_mem _ hit)

/-- The first session is served. Its handler replies, and closes the session. -/
def hastyIteration : Iteration :=
  { busyIteration [⟨0, 0⟩] with
    callbacks.close := fun _ => none
    callbacks.dispatch := fun object _ _ => do
      discard (ipcServerObjectReply (.user object)
        ⟨ipcDefaultResponse, fun _ => 0, fun _ => 0, fun _ => 0, resultTimeout⟩)
      discard (ipcServerSessionClose quiet ⟨0, 0⟩) }

theorem process_serves_hasty :
    ∃ s', serverSystem.Steps (ServerRun.start.after [.createSession 0 0x20 0 1]) s' ∧
      s'.world = (ipcServerProcess 0 [hastyIteration]
        (ServerRun.start.after [.createSession 0 0x20 0 1]).world).2 := by
  have hquiet : quiet.Follow := ⟨fun _ _ _ => .pure (), fun _ _ h => by simp [quiet] at h⟩
  have hcallbacks : hastyIteration.callbacks.Follow := by
    refine ⟨fun object _ _ => ?_, fun _ _ h => by simp [hastyIteration] at h⟩
    apply ((ServerAct.reply (.user object) _).serves fun _ => rfl).bind
    intro _
    exact (sessionClose_serves hquiet _).bind fun _ => .pure ()
  exact process_serves 0 (by simpa using ⟨.pure _, hcallbacks⟩) _

end LibTransistor
