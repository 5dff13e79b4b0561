import LibTransistor.Ipc.ServerRuns
import LibTransistor.Lib.Ledger

/-!
# Calls of the IPC server

The operations of `lib/ipcserver.c` as whole calls, with callbacks that leave the servers alone:
what a handler does with its servers is the calls that come after the receive, which does nothing
once the handler was called. What the kernel and the factory return is part of a call.
-/

namespace LibTransistor

open Ledger List Stateful

inductive ServerCall
  | create (srv : Nat) (port : Handle)
  | accept (srv : Nat) (accepted : Except ResultT Handle) (made : Except ResultT Nat)
  | register (parent : ObjPtr) (child : Nat) (created : Except ResultT (Handle × Handle))
  | addObject (p : SessionPtr) (object : Nat)
  | receive (p : SessionPtr) (r : ResultT) (tls : Mem Word)
  | reply (o : ObjPtr) (rep : Reply)
  | close (p : SessionPtr)
  | destroy (srv : Nat)

def ServerCall.run : ServerCall → ServerM ResultT
  | .create srv port => ipcServerCreate srv port
  | .accept srv accepted made => ipcServerAcceptSession srv accepted (pure made)
  | .register parent child created => ipcServerObjectRegister parent child created
  | .addObject p object => ipcServerDomainAddObject p (.user object)
  | .receive p r tls => ipcServerSessionReceive quiet p r tls
  | .reply o rep => ipcServerObjectReply o rep
  | .close p => ipcServerSessionClose quiet p
  | .destroy srv => ipcServerDestroy quiet srv

/-- The server that a call creates and closes sessions of. -/
def ServerCall.server (w : World) : ServerCall → Nat
  | .create srv _ => srv
  | .accept srv _ _ => srv
  | .register parent _ _ => w.parentServer parent
  | .addObject p _ => p.server
  | .receive p _ _ => p.server
  | .reply o _ => (w.object o).owningSession.server
  | .close p => p.server
  | .destroy srv => srv

/-- Whether a server exists after a call. -/
def ServerCall.live (live : Nat → Bool) : ServerCall → Nat → Bool
  | .create srv _ => Function.update live srv true
  | .destroy srv => Function.update live srv false
  | _ => live

/-- A server is created, has a session, and is destroyed. -/
def oneSession : List ServerCall :=
  [.create 0 0x10, .accept 0 (.ok 0x20) (.ok 1), .close ⟨0, 0⟩, .destroy 0]

/-! ## Calls that create and close nothing -/

namespace World

/-- `w'` has the sessions of `w` in the same slots, with the same handles. -/
structure SameHandles (w w' : World) : Prop where
  invalid : ∀ p, (w'.session p).state = .invalid ↔ (w.session p).state = .invalid
  handle : ∀ p, (w'.session p).handle = (w.session p).handle
  clientHandle : ∀ p, (w'.session p).clientHandle = (w.session p).clientHandle
  port : w'.port = w.port
  closed : w'.closed = w.closed

/-- `w'` has the sessions of `w` in the same slots, with the same objects. -/
structure SameObjects (w w' : World) : Prop where
  invalid : ∀ p, (w'.session p).state = .invalid ↔ (w.session p).state = .invalid
  object : ∀ p, (w'.session p).object = (w.session p).object
  domain : ∀ p, (w'.session p).domain = (w.session p).domain
  closeCalls : w'.closeCalls = w.closeCalls

/-- `w'` has the sessions of `w` in the same slots, with the same handles and objects. -/
structure SameSlots (w w' : World) : Prop extends SameHandles w w', SameObjects w w'

variable {w w' : World} {p : SessionPtr}

theorem SameHandles.refl (w : World) : SameHandles w w :=
  ⟨fun _ => .rfl, fun _ => rfl, fun _ => rfl, rfl, rfl⟩

theorem SameObjects.refl (w : World) : SameObjects w w :=
  ⟨fun _ => .rfl, fun _ => rfl, fun _ => rfl, rfl⟩

theorem SameSlots.refl (w : World) : SameSlots w w :=
  { SameHandles.refl w, SameObjects.refl w with }

theorem SameSlots.of_setSession {sess : Session}
    (hinvalid : sess.state = .invalid ↔ (w.session p).state = .invalid)
    (hhandle : sess.handle = (w.session p).handle)
    (hclient : sess.clientHandle = (w.session p).clientHandle)
    (hobject : sess.object = (w.session p).object)
    (hdomain : sess.domain = (w.session p).domain) : SameSlots w (w.setSession p sess) := by
  refine ⟨⟨fun q => ?_, fun q => ?_, fun q => ?_, rfl, rfl⟩, fun q => ?_, fun q => ?_, rfl⟩
  all_goals
    rw [setSession_session]
    split_ifs with hq
    · subst hq
      assumption
    · rfl

theorem SameSlots.of_moved (h : w.Moved w') : SameSlots w w' := by
  obtain rfl | ⟨p, state, o, m, hlive, hstate, rfl⟩ := h
  · exact .refl w'
  · exact .of_setSession (iff_of_false hstate hlive) rfl rfl rfl rfl

theorem SameSlots.invalidated {ps : List SessionPtr}
    (h : ∀ p ∈ ps, (w.session p).state = .invalid) : SameSlots w (w.invalidated ps) := by
  refine ⟨⟨fun q => ?_, fun q => ?_, fun q => ?_, rfl, rfl⟩, fun q => ?_, fun q => ?_, rfl⟩
  all_goals
    unfold World.invalidated
    dsimp only
    split_ifs with hq
  · exact ⟨fun _ => h q hq, fun _ => rfl⟩
  all_goals rfl

theorem SameHandles.newObject (i : Fin 512) (o : ObjPtr) : SameHandles w (w.newObject p i o) := by
  refine ⟨fun q => ?_, fun q => ?_, fun q => ?_, rfl, rfl⟩
  all_goals
    rw [newObject_session]
    split_ifs with hq
    · subst hq
      rfl
    · rfl

end World

/-! ## What the calls do -/

section Run

open World

variable {w : World} {p : SessionPtr}

/-- A receive takes nothing, hands the message on, or closes its session. -/
theorem receive_quiet (w : World) (p : SessionPtr) (r : ResultT) (tls : Mem Word) :
    SameSlots w (ipcServerSessionReceive quiet p r tls w).2 ∨
      (¬ (r = resultOk ∧
          (dispatchTarget p (w.processing p tls) (w.received p tls)).isSome = true) ∧
        (w.session p).state ≠ .invalid ∧
        ∃ w₁, SameSlots w w₁ ∧ (ipcServerSessionReceive quiet p r tls w).2 = w₁.closeSession p) := by
  have hsame := SameSlots.of_moved (takeMessage_moved w p r tls)
  rw [receive_eq, bind_run]
  rcases takeMessage_cases w p r tls with ⟨-, h⟩ | ⟨hlisten, m, h⟩ | ⟨-, -, o, msg, requestId, h⟩
  · rw [h]
    exact .inl (.refl w)
  · rw [h] at hsame ⊢
    refine .inr ⟨?_, by simp [hlisten], _, hsame, congrArg Prod.snd (sessionClose_quiet ?_)⟩
    · rintro ⟨rfl, hsome⟩
      obtain ⟨target, htarget⟩ := Option.isSome_iff_exists.1 hsome
      rw [take_target hlisten htarget] at h
      cases h
    · simp [setSession_session]
  · rw [h] at hsame ⊢
    left
    cases o <;> exact hsame

variable {live : Nat → Bool} {srv : Nat}
  (hdead : ∀ p, live p.server = false → (w.session p).state = .invalid)

include hdead

/-- A server that does not exist has no sessions, also after one was made for another. -/
theorem createSession_dead {serverSide clientSide : Handle} {o : ObjPtr} (hlive : live srv = true)
    (p : SessionPtr) (hp : live p.server = false) :
    ((ipcServerCreateSession srv serverSide clientSide o w).2.session p).state = .invalid := by
  cases hslot : w.freeSlot srv with
  | none =>
    rw [createSession_full hslot]
    exact hdead p hp
  | some q =>
    rw [createSession_free hslot, newSession_session, if_neg]
    · exact hdead p hp
    · rintro rfl
      rw [freeSlot_server hslot, hlive] at hp
      cases hp

theorem create_quiet (hlive : live srv = false) (port : Handle) :
    SameSlots (w.setPort srv port) (ipcServerCreate srv port w).2 ∧
      ∀ p : SessionPtr, Function.update live srv true p.server = false →
        ((ipcServerCreate srv port w).2.session p).state = .invalid := by
  have hsame : SameSlots (w.setPort srv port) (ipcServerCreate srv port w).2 := by
    rw [ipcServerCreate_run]
    exact .invalidated fun p hp => hdead p (mem_slots.1 hp ▸ hlive)
  refine ⟨hsame, fun p hp => (hsame.invalid p).2 (hdead p ?_)⟩
  have hne : p.server ≠ srv := by
    rintro rfl
    rw [Function.update_self] at hp
    cases hp
  rwa [Function.update_of_ne hne] at hp

theorem destroy_dead (p : SessionPtr) (hp : Function.update live srv false p.server = false) :
    ((ipcServerDestroy quiet srv w).2.session p).state = .invalid := by
  show ((closeSessions quiet (slots srv) (w.closing [w.port srv])).2.session p).state = _
  by_cases hserver : p.server = srv
  · exact closeSessions_state (.inl (mem_slots.2 hserver))
  · rw [Function.update_of_ne hserver] at hp
    exact closeSessions_state (.inr (hdead p hp))

end Run

/-- **Closing the sessions of a server** gives up the things of each, if closing one does. `At` says
where things are, and `log` lists what is closed: handles, or objects. -/
theorem keeps_closeSessions {π β : Type} [DecidableEq β] {At : World → π → Option (Nat × β)}
    {things : Session → List β} {ok : SessionPtr → Prop} (log : World → List β)
    (hclose : ∀ {w : World} {p l}, Keeps l (At w) → (w.session p).state ≠ .invalid → ok p →
      log (w.closeSession p) = log w ++ things (w.session p) ∧
        Keeps ((((things (w.session p)).map (p.server, ·)).map Event.disposed).reverse ++ l)
          (At (w.closeSession p)))
    {w : World} {l : List (Event (Nat × β))} {srv : Nat} {ps : List SessionPtr}
    (h : Keeps l (At w)) (hps : ∀ p ∈ ps, p.server = srv ∧ ok p) :
    ∃ closed, log (closeSessions quiet ps w).2 = log w ++ closed ∧
      Keeps (((closed.map (srv, ·)).map Event.disposed).reverse ++ l)
        (At (closeSessions quiet ps w).2) := by
  induction ps generalizing w l with
  | nil => exact ⟨[], (append_nil _).symm, h⟩
  | cons p ps ih =>
    obtain ⟨hserver, hok⟩ := hps p mem_cons_self
    have hrest : ∀ q ∈ ps, q.server = srv ∧ ok q := fun q hq => hps q (mem_cons_of_mem _ hq)
    by_cases hp : (w.session p).state = .invalid
    · rw [closeSessions_skip hp]
      exact ih h hrest
    · rw [closeSessions_close hp]
      obtain ⟨hlog, hclosed⟩ := hclose h hp hok
      rw [hserver] at hclosed
      obtain ⟨closed, heq, hkeeps⟩ := ih hclosed hrest
      refine ⟨things (w.session p) ++ closed, ?_, ?_⟩
      · rw [heq, hlog, append_assoc]
      · rw [map_append, map_append, reverse_append, append_assoc]
        exact hkeeps

end LibTransistor
