import LibTransistor.Ipc.Calls
import LibTransistor.Ipc.ResponseDelivery
import LibTransistor.Lib.Ledger

/-!
# Who owns the handles of the IPC server

A server owns its port and, for each session, the server's end and possibly the client's end. It
gives up the client's end by putting it into a reply as a move handle, and the others by
`svcCloseHandle`. `HandleRun.ledger` lists what it does with which handle.

`ipc_pack_response` moves the client's end of a session out, but nothing notes that in the session:
the handle is put into the next reply that sends the object, and `ipc_server_session_close` closes
it.

In runs without these (`carefulSystem`) the ownership is kept (`handles_owned`): with the rules of
`Ledger.Keeps`, the handles of a server are at each time those at its places (`handlesAt`).
-/

namespace LibTransistor

open Fallible Ledger List Function World

variable {w : World} {live : Nat → Bool} {sent : SessionPtr → Bool} {p : SessionPtr}

variable {srv : Nat} {o : ObjPtr} {serverSide clientSide : Handle} {ps : List SessionPtr}

/-! ## The run -/

/-- A handle and the server that has it. -/
abbrev OwnedHandle := Nat × Handle

structure HandleRun where
  world : World
  /-- Created and not destroyed since. -/
  live : Nat → Bool
  /-- The client's end of the session in this slot has been sent. -/
  sent : SessionPtr → Bool
  ledger : List (Event OwnedHandle)

/-- The client's end of a session. -/
def World.clientEnd (w : World) (p : SessionPtr) : OwnedHandle :=
  (p.server, (w.session p).clientHandle)

namespace ServerCall

/-- The handles that a call gets. -/
def acquires (w : World) : ServerCall → List OwnedHandle
  | .create srv port => [(srv, port)]
  | .accept srv (.ok handle) _ => [(srv, handle)]
  | .register parent _ (.ok (server, client)) =>
    if (w.object parent).isDomainObject = true then []
    else [(w.parentServer parent, server), (w.parentServer parent, client)]
  | _ => []

/-- The sessions whose client's ends a call puts into a reply. -/
def offers (w : World) : ServerCall → List SessionPtr
  | .reply o rep =>
    match packReply w o rep with
    | .error _ => []
    | .ok _ =>
      if (w.object o).isDomainObject = true then []
      else rep.response.objects.map fun x => (w.object x).owningSession
  | _ => []

/-- The other move handles of a reply. -/
def rawMoveHandles (w : World) : ServerCall → List Handle
  | .reply o rep =>
    match packReply w o rep with
    | .error _ => []
    | .ok _ => rep.response.moveHandles
  | _ => []

/-- The reply goes out, and its move handles with it. -/
def delivers : ServerCall → Bool
  | .reply _ rep => rep.r = resultTimeout ∨ rep.r = resultOk
  | _ => false

/-- The handles that leave the process with a reply: those of the sessions sent, and whatever else a
server has among the move handles. -/
def moves (s : HandleRun) (call : ServerCall) : List OwnedHandle :=
  if call.delivers then
    (call.offers s.world).map s.world.clientEnd ++
      (held s.ledger).filter fun x => x.2 ∈ call.rawMoveHandles s.world
  else []

/-- The handles that a call closes. -/
def closes (w : World) (call : ServerCall) : List OwnedHandle :=
  ((call.run w).2.closed.drop w.closed.length).map (call.server w, ·)

def handleExec (call : ServerCall) (s : HandleRun) : HandleRun where
  world := (call.run s.world).2
  live := call.live s.live
  sent p :=
    ((call.run s.world).2.session p).state ≠ .invalid ∧
      (s.sent p ∨ (call.delivers ∧ p ∈ call.offers s.world))
  ledger :=
    ((call.closes s.world).map Event.disposed).reverse ++
      (((call.moves s).map Event.disposed).reverse ++
        ((((call.offers s.world).map s.world.clientEnd).map Event.used).reverse ++
          (((call.acquires s.world).map Event.acquired).reverse ++ s.ledger)))

end ServerCall

/-- No server has the handle. -/
def HandleRun.Unheld (s : HandleRun) (h : Handle) : Prop := ∀ x ∈ held s.ledger, x.2 ≠ h

/-- The kernel makes handles that are not in use, and not 0. -/
def HandleRun.Fresh (s : HandleRun) : ServerCall → Prop
  | .accept _ (.ok handle) _ => handle ≠ 0#32 ∧ s.Unheld handle
  | .register _ _ (.ok (server, client)) =>
    server ≠ 0#32 ∧ client ≠ 0#32 ∧ server ≠ client ∧ s.Unheld server ∧ s.Unheld client
  | _ => True

/-- No server exists and nothing has happened. -/
def HandleRun.Initial (s : HandleRun) : Prop :=
  (∀ p, (s.world.session p).state = .invalid) ∧ (∀ srv, s.live srv = false) ∧
    (∀ p, s.sent p = false) ∧ s.ledger = []

/-- The servers of a process, and what they do with their handles. -/
def handleSystem : System HandleRun ServerCall where
  init := HandleRun.Initial
  step s call s' := s.Fresh call ∧ s' = call.handleExec s

/-- What calls must keep to: a server is created once, with a port of its own, and used and
destroyed while it exists; no session is closed whose client's end was sent; objects are sent whose
sessions exist, whose client's ends were not sent, and no two of one session; and a handler moves no
handle of a server itself. -/
def HandleRun.Careful (s : HandleRun) : ServerCall → Prop
  | .create srv port => s.live srv = false ∧ s.Unheld port
  | .accept srv _ _ => s.live srv = true
  | .register parent _ _ => s.live (s.world.parentServer parent) = true
  | .addObject _ _ => True
  | .receive p r tls =>
    s.sent p = false ∨ r = resultOk ∧
      (dispatchTarget p (s.world.processing p tls) (s.world.received p tls)).isSome = true
  | .reply o rep =>
    (∀ h ∈ rep.response.moveHandles, s.Unheld h) ∧
      ((s.world.object o).isDomainObject = false →
        (rep.response.objects.map fun x => (s.world.object x).owningSession).Nodup ∧
        ∀ x ∈ rep.response.objects,
          (s.world.session (s.world.object x).owningSession).state ≠ .invalid ∧
            s.sent (s.world.object x).owningSession = false)
  | .close p => s.sent p = false
  | .destroy srv => s.live srv = true ∧ ∀ i, s.sent ⟨srv, i⟩ = false

/-! ## Where handles are -/

inductive HandlePlace
  | port (srv : Nat)
  | serverSide (p : SessionPtr)
  | clientSide (p : SessionPtr)
  deriving DecidableEq

/-- The handle at a place. -/
def handlesAt (w : World) (live : Nat → Bool) (sent : SessionPtr → Bool) :
    HandlePlace → Option OwnedHandle
  | .port srv => if live srv = true then some (srv, w.port srv) else none
  | .serverSide p =>
    if (w.session p).state = .invalid then none else some (p.server, (w.session p).handle)
  | .clientSide p =>
    if (w.session p).state = .invalid ∨ (w.session p).clientHandle = 0#32 ∨ sent p = true then none
    else some (w.clientEnd p)

structure HandleRun.Inv (s : HandleRun) : Prop where
  keeps : Keeps s.ledger (handlesAt s.world s.live s.sent)
  /-- A server that does not exist has no sessions. -/
  dead : ∀ p, s.live p.server = false → (s.world.session p).state = .invalid
  unsent : ∀ p, (s.world.session p).state = .invalid → s.sent p = false

section Places

variable {w' : World} {sent' : SessionPtr → Bool}
variable {l : List (Event OwnedHandle)}

theorem handlesAt_port (srv : Nat) : handlesAt w live sent (.port srv) =
    if live srv = true then some (srv, w.port srv) else none := rfl

theorem handlesAt_serverSide (p : SessionPtr) : handlesAt w live sent (.serverSide p) =
    if (w.session p).state = .invalid then none else some (p.server, (w.session p).handle) := rfl

theorem handlesAt_clientSide (p : SessionPtr) : handlesAt w live sent (.clientSide p) =
    if (w.session p).state = .invalid ∨ (w.session p).clientHandle = 0#32 ∨ sent p = true then none
    else some (p.server, (w.session p).clientHandle) := rfl

theorem handlesAt_congr (h : w.SameHandles w')
    (hsent : ∀ p, (w.session p).state ≠ .invalid → sent' p = sent p) (x : HandlePlace) :
    handlesAt w' live sent' x = handlesAt w live sent x := by
  cases x with
  | port srv => rw [handlesAt_port, handlesAt_port, h.port]
  | serverSide p =>
    rw [handlesAt_serverSide, handlesAt_serverSide, h.handle]
    simp only [h.invalid]
  | clientSide p =>
    rw [handlesAt_clientSide, handlesAt_clientSide, h.clientHandle]
    simp only [h.invalid]
    by_cases hp : (w.session p).state = .invalid
    · simp [hp]
    · rw [hsent p hp]

/-- The handles of a session whose client's end was not sent. -/
theorem filterMap_handlesAt (hp : (w.session p).state ≠ .invalid) (hsent : sent p = false) :
    [HandlePlace.serverSide p, .clientSide p].filterMap (handlesAt w live sent) =
      (w.session p).handles.map (p.server, ·) := by
  have hserver : handlesAt w live sent (.serverSide p) = some (p.server, (w.session p).handle) :=
    if_neg hp
  rw [filterMap_cons_some hserver]
  unfold Session.handles sessionHandles
  by_cases hclient : (w.session p).clientHandle = 0#32
  · have hnone : handlesAt w live sent (.clientSide p) = none := if_pos (.inr (.inl hclient))
    rw [filterMap_cons_none hnone, if_neg (not_not.2 hclient)]
    rfl
  · have hsome : handlesAt w live sent (.clientSide p) = some (w.clientEnd p) := by
      refine if_neg ?_
      simp [hp, hclient, hsent]
    rw [filterMap_cons_some hsome, if_pos hclient]
    rfl

/-- **Closing a session** gives up its handles, if both are there. -/
theorem keeps_closeSession (h : Keeps l (handlesAt w live sent))
    (hp : (w.session p).state ≠ .invalid) (hsent : sent p = false) :
    Keeps ((((w.session p).handles.map (p.server, ·)).map Event.disposed).reverse ++ l)
      (handlesAt (w.closeSession p) live sent) := by
  have hnodup : [HandlePlace.serverSide p, .clientSide p].Nodup := by simp
  have hclear := h.clear hnodup
  rw [filterMap_handlesAt hp hsent] at hclear
  have hsession : ∀ q, (w.closeSession p).session q =
      if q = p then { w.session p with state := .invalid } else w.session q := fun q =>
    setSession_session w p q _
  refine hclear.congr fun x => ?_
  cases x with
  | port srv =>
    rfl
  | serverSide q =>
    rw [handlesAt_serverSide, handlesAt_serverSide, hsession]
    by_cases hq : q = p <;> simp [hq]
  | clientSide q =>
    rw [handlesAt_clientSide, handlesAt_clientSide, hsession]
    by_cases hq : q = p <;> simp [hq]

theorem handlesAt_newSession (hsent : sent p = false) (x : HandlePlace) :
    handlesAt (w.newSession p serverSide clientSide o) live sent x =
      Function.update (Function.update (handlesAt w live sent) (.serverSide p)
        (some (p.server, serverSide))) (.clientSide p)
        (if clientSide = 0#32 then none else some (p.server, clientSide)) x := by
  cases x with
  | port srv => rfl
  | serverSide q =>
    rw [update_of_ne (by simp), handlesAt_serverSide, newSession_session]
    by_cases hq : q = p
    · subst hq
      rw [update_self, if_pos rfl]
      rfl
    · rw [update_of_ne (by simpa using hq), if_neg hq, handlesAt_serverSide]
  | clientSide q =>
    rw [handlesAt_clientSide, newSession_session]
    by_cases hq : q = p
    · subst hq
      simp [freshSession, hsent]
    · rw [update_of_ne (by simpa using hq), update_of_ne (by simp), if_neg hq,
        handlesAt_clientSide]

/-- **A new session** has the handles that it is made with. -/
theorem keeps_newSession (h : Keeps l (handlesAt w live sent)) (hp : (w.session p).state = .invalid)
    (hsent : sent p = false) (hserver : (p.server, serverSide) ∉ held l)
    (hclient : clientSide ≠ 0#32 → clientSide ≠ serverSide ∧ (p.server, clientSide) ∉ held l) :
    Keeps ((((sessionHandles serverSide clientSide).map (p.server, ·)).map Event.acquired).reverse ++ l)
      (handlesAt (w.newSession p serverSide clientSide o) live sent) := by
  have hserverFree : handlesAt w live sent (.serverSide p) = none := if_pos hp
  have hclientFree : Function.update (handlesAt w live sent) (.serverSide p)
      (some (p.server, serverSide)) (.clientSide p) = none := by
    exact if_pos (.inl hp)
  have hfirst := h.acquire hserverFree hserver
  unfold sessionHandles
  by_cases hzero : clientSide = 0#32
  · rw [if_neg (not_not.2 hzero)]
    refine hfirst.congr fun x => ?_
    rw [handlesAt_newSession hsent, if_pos hzero, ← hclientFree, update_eq_self]
  · obtain ⟨hne, hfresh⟩ := hclient hzero
    rw [if_pos hzero]
    refine (hfirst.acquire hclientFree ?_).congr fun x => ?_
    · show (p.server, clientSide) ∉ (p.server, serverSide) :: held l
      simp [hne, hfresh]
    · rw [handlesAt_newSession hsent, if_neg hzero]

/-- **Creating a session**: the handles become the session's, or are closed. -/
theorem keeps_createSession (h : Keeps l (handlesAt w live sent))
    (hsent : ∀ p, (w.session p).state = .invalid → sent p = false) (o : ObjPtr)
    (hserver : (srv, serverSide) ∉ held l)
    (hclient : clientSide ≠ 0#32 → clientSide ≠ serverSide ∧ (srv, clientSide) ∉ held l) :
    ∃ closed, (ipcServerCreateSession srv serverSide clientSide o w).2.closed = w.closed ++ closed ∧
      Keeps (((closed.map (srv, ·)).map Event.disposed).reverse ++
        ((((sessionHandles serverSide clientSide).map (srv, ·)).map Event.acquired).reverse ++ l))
        (handlesAt (ipcServerCreateSession srv serverSide clientSide o w).2 live sent) := by
  cases hslot : w.freeSlot srv with
  | none =>
    refine ⟨sessionHandles serverSide clientSide, ?_⟩
    rw [createSession_full hslot]
    refine ⟨rfl, (h.passAll ?_ ?_).congr fun x => by cases x <;> rfl⟩
    · unfold sessionHandles
      by_cases hzero : clientSide = 0#32
      · simp [hzero]
      · simp [hzero, Ne.symm (hclient hzero).1]
    · unfold sessionHandles
      by_cases hzero : clientSide = 0#32
      · simpa [hzero] using hserver
      · simpa [hzero] using ⟨hserver, (hclient hzero).2⟩
  | some p =>
    have hinvalid := freeSlot_invalid hslot
    obtain rfl := freeSlot_server hslot
    refine ⟨[], ?_⟩
    rw [createSession_free hslot]
    exact ⟨(append_nil _).symm, keeps_newSession h hinvalid (hsent p hinvalid) hserver hclient⟩

theorem handlesAt_setPort (srv : Nat) (port : Handle) (x : HandlePlace) :
    handlesAt (w.setPort srv port) (Function.update live srv true) sent x =
      Function.update (handlesAt w live sent) (.port srv) (some (srv, port)) x := by
  cases x with
  | port srv' =>
    show (if _ then some (srv', Function.update w.port srv port srv') else none) = _
    by_cases hsrv : srv' = srv
    · subst hsrv
      rw [update_self, update_self, update_self, if_pos rfl]
    · rw [update_of_ne hsrv, update_of_ne hsrv,
        update_of_ne (by simpa using hsrv), handlesAt_port]
  | serverSide p => rfl
  | clientSide p => rfl

/-! ### Sending -/

theorem filterMap_clientSide (hps : ∀ p ∈ ps, (w.session p).state ≠ .invalid ∧
      (w.session p).clientHandle ≠ 0#32 ∧ sent p = false) :
    (ps.map HandlePlace.clientSide).filterMap (handlesAt w live sent) = ps.map w.clientEnd := by
  induction ps with
  | nil => rfl
  | cons p ps ih =>
    obtain ⟨hlive, hclient, hsent⟩ := hps p mem_cons_self
    have hsome : handlesAt w live sent (.clientSide p) = some (w.clientEnd p) := by
      refine if_neg ?_
      simp [hlive, hclient, hsent]
    rw [map_cons, filterMap_cons_some hsome, map_cons,
      ih fun q hq => hps q (mem_cons_of_mem _ hq)]

/-- **Sending client's ends** that are there gives them up. -/
theorem keeps_send (h : Keeps l (handlesAt w live sent))
    (hnodup : ps.Nodup) (hps : ∀ p ∈ ps, (w.session p).state ≠ .invalid ∧
      (w.session p).clientHandle ≠ 0#32 ∧ sent p = false) :
    Keeps (((ps.map w.clientEnd).map Event.disposed).reverse ++ l)
      (handlesAt w live fun p => sent p ∨ p ∈ ps) := by
  have hplaces : (ps.map HandlePlace.clientSide).Nodup :=
    hnodup.map fun p q hpq => HandlePlace.clientSide.inj hpq
  have hclear := h.clear hplaces
  rw [filterMap_clientSide hps] at hclear
  refine hclear.congr fun x => ?_
  cases x with
  | port srv =>
    rw [if_neg (by simp)]
    rfl
  | serverSide p =>
    rw [if_neg (by simp)]
    rfl
  | clientSide p =>
    rw [handlesAt_clientSide, handlesAt_clientSide]
    by_cases hp : p ∈ ps <;> simp [hp]

/-- The objects of a reply that is sent from a session have client's ends. -/
theorem clientHandle_ne_zero {rep : Reply} {m : Mem Word} (hpack : packReply w o rep = .ok m)
    (hdomain : (w.object o).isDomainObject = false) :
    ∀ x ∈ rep.response.objects,
      (w.session (w.object x).owningSession).clientHandle ≠ 0#32 := by
  unfold packReply at hpack
  dsimp only at hpack
  split_ifs at hpack
  cases hresponse : ipcPackResponse w rep.handles rep.stack rep.response o ⟨rep.tls, 0⟩ with
  | error e c =>
    rw [hresponse] at hpack
    cases hpack
  | ok u c =>
    obtain ⟨-, mh, -, hstage, -⟩ := Staging.pack_eq_ok hresponse
    have hstage : stageResponseHandles w rep.response (w.object o).isDomainObject ⟨rep.handles, 0⟩ =
      .ok () mh := hstage
    rw [hdomain] at hstage
    obtain ⟨c₂, hclient, -⟩ := unit_bind_eq_ok.1 hstage
    obtain ⟨hall, -⟩ := (storesWhile_stageClientHandles w).eq_of_ok hclient
    intro x hx
    exact of_decide_eq_true ((Bool.and_eq_true _ _).mp (all_eq_true.1 hall x hx)).2

end Places

/-! ## Step by step -/

section Step

variable {s : HandleRun} {call : ServerCall}

theorem HandleRun.Unheld.not_mem {h : Handle} (hh : s.Unheld h) (srv : Nat) :
    (srv, h) ∉ held s.ledger := fun hmem => hh _ hmem rfl

theorem domainAddObject_sameHandles (w : World) (p : SessionPtr) (o : ObjPtr) :
    w.SameHandles (ipcServerDomainAddObject p o w).2 := by
  cases hindex : w.freeIndex p with
  | none =>
    rw [domainAddObject_full hindex]
    exact .refl w
  | some i =>
    rw [domainAddObject_free hindex]
    exact .newObject i o

theorem filter_raw_eq_nil {raw : List Handle} (hraw : ∀ hdl ∈ raw, s.Unheld hdl) :
    (held s.ledger).filter (fun x => x.2 ∈ raw) = [] := by
  rw [filter_eq_nil_iff]
  intro x hx hmem
  exact hraw x.2 (by simpa using hmem) x hx rfl

namespace HandleRun.Inv

/-- A call that sends nothing keeps the invariant if it accounts for the handles that it gets and
closes. -/
theorem of_keeps (closed : List Handle) (hdelivers : call.delivers = false)
    (hoffers : call.offers s.world = [])
    (hclosed : (call.run s.world).2.closed = s.world.closed ++ closed)
    (hkeeps : Keeps (((closed.map (call.server s.world, ·)).map Event.disposed).reverse ++
      (((call.acquires s.world).map Event.acquired).reverse ++ s.ledger))
      (handlesAt (call.run s.world).2 (call.live s.live) s.sent))
    (hdead : ∀ p, call.live s.live p.server = false →
      ((call.run s.world).2.session p).state = .invalid) : (call.handleExec s).Inv := by
  have hcloses : call.closes s.world = closed.map (call.server s.world, ·) := by
    unfold ServerCall.closes
    rw [hclosed, drop_left]
  have hmoves : call.moves s = [] := by
    unfold ServerCall.moves
    rw [hdelivers]
    rfl
  refine ⟨?_, hdead, fun p hp => ?_⟩
  · unfold ServerCall.handleExec
    rw [hcloses, hmoves, hoffers]
    refine hkeeps.congr fun x => handlesAt_congr (.refl _) (fun p hp => ?_) x
    simp [hp]
  · unfold ServerCall.handleExec at hp ⊢
    dsimp only at hp ⊢
    simp [hp]

variable (h : s.Inv)

include h

theorem of_sameHandles (hsame : s.world.SameHandles (call.run s.world).2)
    (hdelivers : call.delivers = false) (hoffers : call.offers s.world = [])
    (hacquires : call.acquires s.world = []) (hlive : call.live s.live = s.live) :
    (call.handleExec s).Inv := by
  refine .of_keeps [] hdelivers hoffers ?_ ?_ ?_
  · rw [hsame.closed, append_nil]
  · rw [hacquires, hlive]
    exact h.keeps.congr (handlesAt_congr hsame fun _ _ => rfl)
  · intro p hp
    rw [hlive] at hp
    exact (hsame.invalid p).2 (h.dead p hp)

theorem create {port : Handle} (hcareful : s.Careful (.create srv port)) :
    ((ServerCall.create srv port).handleExec s).Inv := by
  obtain ⟨hlive, hport⟩ := hcareful
  obtain ⟨hsame, hdead⟩ := create_quiet h.dead hlive port
  have hfree : handlesAt s.world s.live s.sent (.port srv) = none := by
    rw [handlesAt_port, hlive]
    rfl
  refine .of_keeps [] rfl rfl (hsame.closed.trans (append_nil _).symm) ?_ hdead
  refine (h.keeps.acquire hfree (hport.not_mem srv)).congr fun x => ?_
  exact (handlesAt_congr hsame.toSameHandles (fun _ _ => rfl) x).trans (handlesAt_setPort srv port x)

theorem accept {accepted : Except ResultT Handle}
    {made : Except ResultT Nat} (hfresh : s.Fresh (.accept srv accepted made))
    (hcareful : s.Careful (.accept srv accepted made)) :
    ((ServerCall.accept srv accepted made).handleExec s).Inv := by
  cases accepted with
  | error r => exact h.of_sameHandles (.refl _) rfl rfl rfl rfl
  | ok handle =>
    have hserver := hfresh.2.not_mem srv
    cases made with
    | error r =>
      refine .of_keeps [handle] rfl rfl rfl ?_ h.dead
      refine (h.keeps.passAll (nodup_singleton _) ?_).congr fun x => by cases x <;> rfl
      intro x hx
      cases mem_singleton.1 hx
      exact hserver
    | ok object =>
      obtain ⟨closed, hclosed, hkeeps⟩ :=
        keeps_createSession h.keeps h.unsent (.user object) hserver fun hne => absurd rfl hne
      exact .of_keeps closed rfl rfl hclosed hkeeps (createSession_dead h.dead hcareful)

theorem register {parent : ObjPtr} {child : Nat}
    {created : Except ResultT (Handle × Handle)} (hfresh : s.Fresh (.register parent child created))
    (hcareful : s.Careful (.register parent child created)) :
    ((ServerCall.register parent child created).handleExec s).Inv := by
  by_cases hdomain : (s.world.object parent).isDomainObject = true
  · refine h.of_sameHandles ?_ rfl rfl ?_ rfl
    · show s.world.SameHandles (ipcServerObjectRegister parent child created s.world).2
      rw [register_domain hdomain]
      exact domainAddObject_sameHandles _ _ _
    · cases created with
      | error r => rfl
      | ok ends => exact if_pos hdomain
  · cases created with
    | error r =>
      refine h.of_sameHandles ?_ rfl rfl rfl rfl
      show s.world.SameHandles (ipcServerObjectRegister parent child _ s.world).2
      rw [register_failed hdomain]
      exact .refl _
    | ok ends =>
      obtain ⟨server, client⟩ := ends
      obtain ⟨-, hclient, hne, hserverFree, hclientFree⟩ := hfresh
      have hrun : (ServerCall.register parent child (.ok (server, client))).run s.world =
          ipcServerCreateSession (s.world.parentServer parent) server client (.user child)
            s.world := register_session hdomain
      have hacquires : (ServerCall.register parent child (.ok (server, client))).acquires s.world =
          (sessionHandles server client).map (s.world.parentServer parent, ·) := by
        unfold sessionHandles
        rw [if_pos hclient]
        exact if_neg hdomain
      obtain ⟨closed, hclosed, hkeeps⟩ := keeps_createSession h.keeps h.unsent (.user child)
        (hserverFree.not_mem (s.world.parentServer parent))
        fun _ => ⟨hne.symm, hclientFree.not_mem _⟩
      refine .of_keeps closed rfl rfl ?_ ?_ ?_
      · rw [hrun]
        exact hclosed
      · rw [hrun, hacquires]
        exact hkeeps
      · rw [hrun]
        exact createSession_dead h.dead hcareful

theorem addObject (p : SessionPtr) (object : Nat) :
    ((ServerCall.addObject p object).handleExec s).Inv :=
  h.of_sameHandles (domainAddObject_sameHandles s.world p (.user object)) rfl rfl rfl rfl

/-- A call that closes a session gives up its handles. -/
theorem of_closeSession {w₁ : World} (hsame : s.world.SameHandles w₁)
    (hrun : (call.run s.world).2 = w₁.closeSession p) (hserver : call.server s.world = p.server)
    (hdelivers : call.delivers = false) (hoffers : call.offers s.world = [])
    (hacquires : call.acquires s.world = []) (hlive : call.live s.live = s.live)
    (hp : (s.world.session p).state ≠ .invalid) (hsent : s.sent p = false) :
    (call.handleExec s).Inv := by
  have hkeeps : Keeps s.ledger (handlesAt w₁ s.live s.sent) :=
    h.keeps.congr (handlesAt_congr hsame fun _ _ => rfl)
  have hp₁ : (w₁.session p).state ≠ .invalid := mt (hsame.invalid p).1 hp
  refine .of_keeps (w₁.session p).handles hdelivers hoffers ?_ ?_ ?_
  · rw [hrun, ← hsame.closed]
    rfl
  · rw [hrun, hserver, hacquires, hlive]
    exact keeps_closeSession hkeeps hp₁ hsent
  · intro q hq
    rw [hlive] at hq
    rw [hrun, closeSession_session]
    split_ifs
    · rfl
    · exact (hsame.invalid q).2 (h.dead q hq)

theorem receive {r : ResultT} {tls : Mem Word} (hcareful : s.Careful (.receive p r tls)) :
    ((ServerCall.receive p r tls).handleExec s).Inv := by
  rcases receive_quiet s.world p r tls with hsame | ⟨hfails, hlive, w₁, hsame, hrun⟩
  · exact h.of_sameHandles hsame.toSameHandles rfl rfl rfl rfl
  · exact h.of_closeSession hsame.toSameHandles hrun rfl rfl rfl rfl rfl hlive
      (hcareful.resolve_right hfails)

theorem close (hcareful : s.Careful (.close p)) : ((ServerCall.close p).handleExec s).Inv := by
  by_cases hp : (s.world.session p).state = .invalid
  · refine h.of_sameHandles ?_ rfl rfl rfl rfl
    show s.world.SameHandles (ipcServerSessionClose quiet p s.world).2
    rw [sessionClose_invalid quiet hp]
    exact .refl _
  · have hrun := congrArg Prod.snd (sessionClose_quiet hp)
    exact h.of_closeSession (.refl _) hrun rfl rfl rfl rfl rfl hp hcareful

theorem destroy (hcareful : s.Careful (.destroy srv)) :
    ((ServerCall.destroy srv).handleExec s).Inv := by
  obtain ⟨hlive, hsent⟩ := hcareful
  set w₁ := s.world.closing [s.world.port srv] with hw₁
  have hrun : ((ServerCall.destroy srv).run s.world).2 = (closeSessions quiet (slots srv) w₁).2 := rfl
  -- the port goes first
  have hport : Keeps (.disposed (srv, s.world.port srv) :: s.ledger)
      (handlesAt w₁ (Function.update s.live srv false) s.sent) := by
    have hplace : handlesAt s.world s.live s.sent (.port srv) = some (srv, s.world.port srv) := by
      rw [handlesAt_port, if_pos hlive]
    refine (h.keeps.dispose hplace).congr fun x => ?_
    cases x with
    | port srv' =>
      rw [handlesAt_port]
      by_cases hsrv : srv' = srv
      · subst hsrv
        rw [update_self, update_self, if_neg (by decide)]
      · rw [update_of_ne hsrv, update_of_ne (by simpa using hsrv)]
        rfl
    | serverSide p =>
      rfl
    | clientSide p =>
      rfl
  have hslots : ∀ p ∈ slots srv, p.server = srv ∧ s.sent p = false := by
    intro p hp
    have hserver := mem_slots.1 hp
    refine ⟨hserver, ?_⟩
    have hp' := hsent p.slot
    rwa [← hserver] at hp'
  obtain ⟨closed, hclosed, hkeeps⟩ := keeps_closeSessions World.closed
    (fun h hp hsent => ⟨rfl, keeps_closeSession h hp hsent⟩) hport hslots
  refine .of_keeps (s.world.port srv :: closed) rfl rfl ?_ ?_ (destroy_dead h.dead)
  · rw [hrun, hclosed]
    show s.world.closed ++ [s.world.port srv] ++ closed = _
    rw [append_assoc]
    rfl
  · rw [map_cons, map_cons, reverse_cons, append_assoc]
    exact hkeeps

/-- A reply uses the client's ends that it sends, and gives them up if it goes out. -/
theorem reply {rep : Reply} (hcareful : s.Careful (.reply o rep)) :
    ((ServerCall.reply o rep).handleExec s).Inv := by
  obtain ⟨hraw, hobjects⟩ := hcareful
  have hsame : s.world.SameHandles ((ServerCall.reply o rep).run s.world).2 :=
    (SameSlots.of_moved (reply_moved s.world o rep)).toSameHandles
  have hcloses : (ServerCall.reply o rep).closes s.world = [] := by
    unfold ServerCall.closes
    rw [hsame.closed, drop_length]
    rfl
  have hstrays : (held s.ledger).filter
      (fun x => x.2 ∈ (ServerCall.reply o rep).rawMoveHandles s.world) = [] := by
    refine filter_raw_eq_nil fun hdl hmem => ?_
    unfold ServerCall.rawMoveHandles at hmem
    dsimp only at hmem
    cases hpack : packReply s.world o rep with
    | error e => rw [hpack] at hmem; cases hmem
    | ok m => rw [hpack] at hmem; exact hraw hdl hmem
  -- the sessions whose client's ends are sent
  have hoffers : ((ServerCall.reply o rep).offers s.world).Nodup ∧
      ∀ p ∈ (ServerCall.reply o rep).offers s.world, (s.world.session p).state ≠ .invalid ∧
        (s.world.session p).clientHandle ≠ 0#32 ∧ s.sent p = false := by
    unfold ServerCall.offers
    dsimp only
    cases hpack : packReply s.world o rep with
    | error e => exact ⟨nodup_nil, fun p hp => nomatch hp⟩
    | ok m =>
      split_ifs with hdomain
      · exact ⟨nodup_nil, fun p hp => nomatch hp⟩
      · rw [Bool.not_eq_true] at hdomain
        obtain ⟨hnodup, hlive⟩ := hobjects hdomain
        refine ⟨hnodup, fun p hp => ?_⟩
        obtain ⟨x, hx, rfl⟩ := mem_map.1 hp
        exact ⟨(hlive x hx).1, clientHandle_ne_zero hpack hdomain x hx, (hlive x hx).2⟩
  set ps := (ServerCall.reply o rep).offers s.world with hps
  have hused : Keeps (((ps.map s.world.clientEnd).map Event.used).reverse ++ s.ledger)
      (handlesAt s.world s.live s.sent) := by
    refine h.keeps.useAll fun a ha => ?_
    rw [← filterMap_clientSide hoffers.2, mem_filterMap] at ha
    obtain ⟨x, -, hx⟩ := ha
    exact ⟨x, hx⟩
  refine ⟨?_, fun p hp => (hsame.invalid p).2 (h.dead p hp), fun p hp => ?_⟩
  · unfold ServerCall.handleExec ServerCall.moves
    rw [hcloses, hstrays, ← hps]
    by_cases hdelivers : (ServerCall.reply o rep).delivers = true
    · rw [if_pos hdelivers, append_nil]
      refine (keeps_send hused hoffers.1 hoffers.2).congr fun x => ?_
      refine handlesAt_congr hsame (fun p hp => ?_) x
      simp [mt (hsame.invalid p).1 hp, hdelivers]
    · rw [if_neg hdelivers]
      refine hused.congr fun x => handlesAt_congr hsame (fun p hp => ?_) x
      simp [mt (hsame.invalid p).1 hp, hdelivers]
  · unfold ServerCall.handleExec at hp ⊢
    dsimp only at hp ⊢
    simp [hp]

/-- **Each careful call** keeps the invariant. -/
theorem exec (hfresh : s.Fresh call) (hcareful : s.Careful call) : (call.handleExec s).Inv := by
  cases call with
  | create srv port => exact h.create hcareful
  | accept srv accepted made => exact h.accept hfresh hcareful
  | register parent child created => exact h.register hfresh hcareful
  | addObject p object => exact h.addObject p object
  | receive p r tls => exact h.receive hcareful
  | reply o rep => exact h.reply hcareful
  | close p => exact h.close hcareful
  | destroy srv => exact h.destroy hcareful

end HandleRun.Inv

end Step

/-- The runs in which every call is careful. -/
def carefulSystem : System HandleRun ServerCall :=
  handleSystem.restrict fun s call _ => s.Careful call

/-- So it holds in every state that careful calls lead to. -/
theorem handleInv_of_reachable {s : HandleRun} (hs : carefulSystem.Reachable s) : s.Inv := by
  refine hs.invariant (fun s hinit => ?_) fun s call s' h hstep => ?_
  · obtain ⟨hinvalid, hlive, hsent, hledger⟩ := hinit
    refine ⟨?_, fun p _ => hinvalid p, fun p _ => hsent p⟩
    rw [hledger]
    refine .nil fun x => ?_
    cases x with
    | port srv =>
      rw [handlesAt_port, hlive]
      rfl
    | serverSide p => exact if_pos (hinvalid p)
    | clientSide p => exact if_pos (.inl (hinvalid p))
  · obtain ⟨⟨hfresh, rfl⟩, hcareful⟩ := hstep
    exact h.exec hfresh hcareful

/-! ## The result -/

/-- A server that does not exist has no handles. -/
theorem HandleRun.Inv.not_held {s : HandleRun} (h : s.Inv) (hlive : s.live srv = false)
    (hdl : Handle) : (srv, hdl) ∉ held s.ledger := by
  rw [h.keeps.mem_held]
  rintro ⟨x, hx⟩
  cases x with
  | port srv' =>
    rw [handlesAt_port] at hx
    split_ifs at hx with hlive'
    cases hx
    rw [hlive] at hlive'
    cases hlive'
  | serverSide p =>
    rw [handlesAt_serverSide] at hx
    split_ifs at hx with hp
    cases hx
    exact hp (h.dead p hlive)
  | clientSide p =>
    rw [handlesAt_clientSide] at hx
    split_ifs at hx with hp
    cases hx
    exact hp (.inl (h.dead p hlive))

/-- **Ownership of handles.** Along careful calls, a server closes and sends only handles that it
has, and when it was destroyed it has given up each handle as often as it got it. -/
theorem handles_owned {s : HandleRun} (hs : carefulSystem.Reachable s) :
    Proper s.ledger ∧
      ∀ srv, s.live srv = false → ∀ h,
        s.ledger.count (.acquired (srv, h)) = s.ledger.count (.disposed (srv, h)) := by
  have hinv := handleInv_of_reachable hs
  exact ⟨hinv.keeps.proper, fun srv hlive h => hinv.keeps.proper.count_eq (hinv.not_held hlive h)⟩

/-! ## Two runs -/

instance HandleRun.decidableUnheld (s : HandleRun) (h : Handle) : Decidable (s.Unheld h) :=
  inferInstanceAs (Decidable (∀ x ∈ _, _))

instance HandleRun.decidableFresh (s : HandleRun) (call : ServerCall) :
    Decidable (s.Fresh call) := by
  unfold HandleRun.Fresh
  split <;> infer_instance

instance HandleRun.decidableCareful (s : HandleRun) (call : ServerCall) :
    Decidable (s.Careful call) := by
  unfold HandleRun.Careful
  split <;> infer_instance

/-- A process before its first server. -/
def HandleRun.start : HandleRun := ⟨noSessions, fun _ => false, fun _ => false, []⟩

theorem HandleRun.start_initial : HandleRun.start.Initial :=
  ⟨fun _ => rfl, fun _ => rfl, fun _ => rfl, rfl⟩

/-- A reply with some objects that goes out. -/
def objectReply (objects : List ObjPtr) : Reply :=
  ⟨{ ipcDefaultResponse with objects := objects }, fun _ => 0, fun _ => 0, fun _ => 0, resultTimeout⟩

/-- A client asks for an object and gets it. -/
def childSent : List ServerCall :=
  [.create 0 0x10, .accept 0 (.ok 0x20) (.ok 1), .register (.user 1) 2 (.ok (0x30, 0x31)),
    .receive ⟨0, 0⟩ resultOk (bareMessage 4#32), .reply (.user 1) (objectReply [.user 2])]

/-- The state after some calls. -/
def HandleRun.after (calls : List ServerCall) : HandleRun :=
  System.after ServerCall.handleExec HandleRun.start calls

theorem handleSystem_reachable {calls : List ServerCall}
    (h : System.Allowed ServerCall.handleExec HandleRun.Fresh HandleRun.start calls) :
    handleSystem.Reachable (HandleRun.after calls) :=
  System.reachable_after (fun _ _ hfresh => ⟨hfresh, rfl⟩)
    (.init HandleRun.start_initial) h

theorem carefulSystem_reachable {calls : List ServerCall}
    (h : System.Allowed ServerCall.handleExec (fun s call => s.Fresh call ∧ s.Careful call)
      HandleRun.start calls) : carefulSystem.Reachable (HandleRun.after calls) :=
  System.reachable_after (fun _ _ hboth => ⟨⟨hboth.1, rfl⟩, hboth.2⟩)
    (.init HandleRun.start_initial) h

theorem childSent_careful : carefulSystem.Reachable (HandleRun.after childSent) := by
  have hone : ∀ x ∈ (objectReply [.user 2]).response.objects, x = .user 2 := fun x hx =>
    mem_singleton.1 hx
  refine carefulSystem_reachable ⟨by decide +kernel, by decide +kernel, by decide +kernel,
    by decide +kernel, ⟨trivial, fun _ hmem => absurd hmem not_mem_nil, fun _ => ?_⟩, trivial⟩
  refine ⟨nodup_singleton _, fun x hx => ?_⟩
  rw [hone x hx]
  exact ⟨by decide +kernel, by decide +kernel⟩

/-- A server with a session is created and destroyed, and a server moves a handle to a client. -/
theorem oneSession_owned : (HandleRun.after oneSession).live 0 = false ∧
    (Proper (HandleRun.after oneSession).ledger ∧
      ∀ srv, (HandleRun.after oneSession).live srv = false → ∀ h,
        (HandleRun.after oneSession).ledger.count (.acquired (srv, h)) =
          (HandleRun.after oneSession).ledger.count (.disposed (srv, h))) ∧
    .disposed (0, 0x31) ∈ (HandleRun.after childSent).ledger ∧
      Proper (HandleRun.after childSent).ledger :=
  ⟨by decide +kernel, handles_owned (carefulSystem_reachable (by decide +kernel)),
    by decide +kernel, (handles_owned childSent_careful).1⟩

/-- A client gets an object, and the object's session is closed: its client's end is closed after it
was sent. -/
theorem childSent_closed :
    handleSystem.Reachable (HandleRun.after (childSent ++ [.close ⟨0, 1⟩])) ∧
    (HandleRun.after (childSent ++ [.close ⟨0, 1⟩])).ledger =
      [.disposed (0, 0x31), .disposed (0, 0x30), .disposed (0, 0x31), .used (0, 0x31),
        .acquired (0, 0x31), .acquired (0, 0x30), .acquired (0, 0x20), .acquired (0, 0x10)] ∧
    ¬ Proper (HandleRun.after (childSent ++ [.close ⟨0, 1⟩])).ledger := by
  refine ⟨handleSystem_reachable (by decide +kernel), by decide +kernel, by decide +kernel⟩

end LibTransistor
