import LibTransistor.Ipc.Calls
import LibTransistor.Lib.Ledger

/-!
# Who owns the objects of the IPC server

A server takes an object over when its factory makes it, when it is registered as another object's
child, and when it is added to a domain. It gives the object up by `ipc_server_object_close`, which
runs the object's close callback unless that is `NULL`. `ObjectRun.ledger` lists both.

When all slots of a server are taken, `ipc_server_create_session` closes the handles of the new
session, but not the object that `ipc_server_accept_session` got for it from the factory. In runs
without that, in which the objects handed over are new (`tidySystem`), no object is lost or closed
twice (`objects_owned`).
-/

namespace LibTransistor

open Ledger List Function World

variable {p : SessionPtr} {s : ObjectRun}

variable {a srv : Nat} {serverSide clientSide : Handle}

/-! ## The run -/

/-- An object and the server that has it. -/
abbrev OwnedObject := Nat × Nat

structure ObjectRun where
  world : World
  /-- Created and not destroyed since. -/
  live : Nat → Bool
  ledger : List (Event OwnedObject)

/-- The server that takes over an object registered as a child. -/
def World.childServer (w : World) (parent : ObjPtr) (created : Except ResultT (Handle × Handle)) :
    Option Nat :=
  if (w.object parent).isDomainObject = true then (w.object parent).owningDomain.map (·.server)
  else
    match created with
    | .ok _ => some (w.parentServer parent)
    | .error _ => none

namespace ServerCall

/-- The objects that a call takes over. What the factory makes is the server's in any case; what is
registered is when the call succeeds. -/
def obtains (w : World) (call : ServerCall) : List OwnedObject :=
  match call with
  | .accept srv (.ok _) (.ok object) => [(srv, object)]
  | .register parent child created =>
    if (call.run w).1 = resultOk then
      ((w.childServer parent created).map (·, child)).toList
    else []
  | .addObject p object => if (call.run w).1 = resultOk then [(p.server, object)] else []
  | _ => []

/-- The objects that a call closes. -/
def closesObjects (w : World) (call : ServerCall) : List OwnedObject :=
  ((call.run w).2.closeCalls.drop w.closeCalls.length).map (call.server w, ·)

def objectExec (call : ServerCall) (s : ObjectRun) : ObjectRun where
  world := (call.run s.world).2
  live := call.live s.live
  ledger :=
    ((call.closesObjects s.world).map Event.disposed).reverse ++
      (((call.obtains s.world).map Event.acquired).reverse ++ s.ledger)

end ServerCall

/-- No server has the object. -/
def ObjectRun.Unheld (s : ObjectRun) (object : Nat) : Prop := ∀ x ∈ held s.ledger, x.2 ≠ object

/-- No server exists and nothing has happened. -/
def ObjectRun.Initial (s : ObjectRun) : Prop :=
  (∀ p, (s.world.session p).state = .invalid) ∧ (∀ srv, s.live srv = false) ∧ s.ledger = []

/-- The servers of a process, and what they do with their objects. -/
def objectSystem : System ObjectRun ServerCall where
  init := ObjectRun.Initial
  step s call s' := s' = call.objectExec s

/-- What calls must keep to: a server is created once; while it exists sessions are accepted when a
slot is free; and what is handed over is new, and goes to a server or session that exists. -/
def ObjectRun.Tidy (s : ObjectRun) : ServerCall → Prop
  | .create srv _ => s.live srv = false
  | .accept srv (.ok _) (.ok object) =>
    s.live srv = true ∧ s.world.freeSlot srv ≠ none ∧ s.Unheld object
  | .register parent child _ =>
    s.Unheld child ∧
      if (s.world.object parent).isDomainObject = true then
        ∀ d, (s.world.object parent).owningDomain = some d → (s.world.session d).state ≠ .invalid
      else s.live (s.world.parentServer parent) = true
  | .addObject p object => s.Unheld object ∧ (s.world.session p).state ≠ .invalid
  | _ => True

/-- The runs in which every call is tidy. -/
def tidySystem : System ObjectRun ServerCall :=
  objectSystem.restrict fun s call _ => s.Tidy call

/-! ## Where objects are -/

inductive ObjectPlace
  | root (p : SessionPtr)
  | domain (p : SessionPtr) (i : Fin 512)
  deriving DecidableEq

/-- The user's object behind a pointer, as one of a server. -/
def ownedObject (srv : Nat) (o : Option ObjPtr) : Option OwnedObject :=
  (o.bind ObjPtr.address).map (srv, ·)

/-- The object at a place. -/
def objectsAt (w : World) : ObjectPlace → Option OwnedObject
  | .root p =>
    if (w.session p).state = .invalid then none else ownedObject p.server (w.session p).object
  | .domain p i =>
    if (w.session p).state = .invalid then none
    else ownedObject p.server ((w.session p).domain.objects i)

structure ObjectRun.Inv (s : ObjectRun) : Prop where
  keeps : Keeps s.ledger (objectsAt s.world)
  /-- No two servers have one object. -/
  distinct : ∀ x ∈ held s.ledger, ∀ y ∈ held s.ledger, x.2 = y.2 → x = y
  /-- A server that does not exist has no sessions. -/
  dead : ∀ p, s.live p.server = false → (s.world.session p).state = .invalid

section Places

variable {w w' : World} {l : List (Event OwnedObject)}

theorem objectsAt_root (p : SessionPtr) : objectsAt w (.root p) =
    if (w.session p).state = .invalid then none
    else ownedObject p.server (w.session p).object := rfl

theorem objectsAt_domain (p : SessionPtr) (i : Fin 512) : objectsAt w (.domain p i) =
    if (w.session p).state = .invalid then none
    else ownedObject p.server ((w.session p).domain.objects i) := rfl

theorem objectsAt_congr (h : w.SameObjects w') (x : ObjectPlace) :
    objectsAt w' x = objectsAt w x := by
  cases x with
  | root p =>
    rw [objectsAt_root, objectsAt_root, h.object]
    simp only [h.invalid]
  | domain p i =>
    rw [objectsAt_domain, objectsAt_domain, h.domain]
    simp only [h.invalid]

/-- The places of a session, in the order in which they are closed. -/
def sessionPlaces (p : SessionPtr) (is : List (Fin 512)) : List ObjectPlace :=
  .root p :: is.map (ObjectPlace.domain p)

theorem nodup_sessionPlaces (p : SessionPtr) : (sessionPlaces p (List.finRange 512)).Nodup := by
  refine nodup_cons.2 ⟨by simp, (nodup_finRange 512).map fun i j hij => ?_⟩
  exact (ObjectPlace.domain.inj hij).2

theorem filterMap_objectsAt (hp : (w.session p).state ≠ .invalid) (is : List (Fin 512)) :
    (sessionPlaces p is).filterMap (objectsAt w) =
      (((w.session p).object.toList ++ is.filterMap (w.session p).domain.objects).filterMap
        ObjPtr.address).map (p.server, ·) := by
  have hdomain : (is.map (ObjectPlace.domain p)).filterMap (objectsAt w) =
      ((is.filterMap (w.session p).domain.objects).filterMap ObjPtr.address).map (p.server, ·) := by
    rw [filterMap_map, filterMap_filterMap, map_filterMap]
    refine filterMap_congr fun i _ => ?_
    exact if_neg hp
  have hroot : objectsAt w (.root p) = ownedObject p.server (w.session p).object := if_neg hp
  unfold sessionPlaces
  rw [filterMap_append, map_append, ← hdomain]
  cases hobject : (w.session p).object with
  | none =>
    rw [hobject] at hroot
    rw [filterMap_cons_none hroot]
    rfl
  | some o =>
    rw [hobject] at hroot
    cases o with
    | user a =>
      rw [filterMap_cons_some hroot]
      rfl
    | hipcManager q =>
      rw [filterMap_cons_none hroot]
      rfl

/-- **Closing a session** closes its objects. -/
theorem keeps_closeSessionObjects (h : Keeps l (objectsAt w))
    (hp : (w.session p).state ≠ .invalid) :
    Keeps ((((w.session p).addresses.map (p.server, ·)).map Event.disposed).reverse ++ l)
      (objectsAt (w.closeSession p)) := by
  have hclear := h.clear (nodup_sessionPlaces p)
  rw [filterMap_objectsAt hp] at hclear
  refine hclear.congr fun x => ?_
  cases x with
  | root q =>
    rw [objectsAt_root, objectsAt_root, closeSession_session]
    by_cases hq : q = p <;> simp [hq, sessionPlaces]
  | domain q i =>
    rw [objectsAt_domain, objectsAt_domain, closeSession_session]
    by_cases hq : q = p
    · simp [hq, sessionPlaces]
    · simp [hq, Ne.symm hq, sessionPlaces]

theorem objectsAt_newSession (hp : (w.session p).state = .invalid) (a : Nat) (x : ObjectPlace) :
    objectsAt (w.newSession p serverSide clientSide (.user a)) x =
      Function.update (objectsAt w) (.root p) (some (p.server, a)) x := by
  cases x with
  | root q =>
    rw [objectsAt_root, newSession_session]
    by_cases hq : q = p
    · subst hq
      rw [update_self, if_pos rfl]
      rfl
    · rw [update_of_ne (by simpa using hq), if_neg hq, objectsAt_root]
  | domain q i =>
    rw [update_of_ne (by simp), objectsAt_domain, objectsAt_domain,
      newSession_session]
    by_cases hq : q = p
    · subst hq
      rw [if_pos rfl, if_pos hp]
      rfl
    · rw [if_neg hq]

theorem objectsAt_newObject (hp : (w.session p).state ≠ .invalid) (i : Fin 512) (a : Nat)
    (x : ObjectPlace) : objectsAt (w.newObject p i (.user a)) x =
      Function.update (objectsAt w) (.domain p i) (some (p.server, a)) x := by
  cases x with
  | root q =>
    rw [update_of_ne (by simp), objectsAt_root, objectsAt_root, newObject_session]
    by_cases hq : q = p <;> simp [hq]
  | domain q j =>
    rw [objectsAt_domain, newObject_session]
    by_cases hq : q = p
    · subst hq
      rw [if_pos rfl, if_neg hp]
      dsimp only
      by_cases hj : j = i
      · subst hj
        rw [update_self, update_self]
        rfl
      · rw [update_of_ne hj, update_of_ne (by simpa using hj), objectsAt_domain,
          if_neg hp]
    · rw [if_neg hq, update_of_ne (by simp [hq]), objectsAt_domain]

theorem keeps_newSessionObject (h : Keeps l (objectsAt w)) (hp : (w.session p).state = .invalid)
    (ha : (p.server, a) ∉ held l) :
    Keeps (.acquired (p.server, a) :: l)
      (objectsAt (w.newSession p serverSide clientSide (.user a))) := by
  have hfree : objectsAt w (.root p) = none := if_pos hp
  exact (h.acquire hfree ha).congr (objectsAt_newSession hp a)

theorem keeps_newObject (h : Keeps l (objectsAt w)) (hp : (w.session p).state ≠ .invalid)
    {i : Fin 512} (hi : w.freeIndex p = some i) (ha : (p.server, a) ∉ held l) :
    Keeps (.acquired (p.server, a) :: l) (objectsAt (w.newObject p i (.user a))) := by
  have hfree : objectsAt w (.domain p i) = none := by
    rw [objectsAt_domain, if_neg hp, freeIndex_free hi]
    rfl
  exact (h.acquire hfree ha).congr (objectsAt_newObject hp i a)

end Places

/-! ## Step by step -/

section Step

variable {call : ServerCall}

theorem ObjectRun.Unheld.not_mem (ha : s.Unheld a) (srv : Nat) :
    (srv, a) ∉ held s.ledger := fun hmem => ha _ hmem rfl

namespace ObjectRun.Inv

variable (h : s.Inv)

include h

/-- A call keeps the invariant if it accounts for the objects that it takes over and closes, and
takes over at most one, a new one. -/
theorem of_keeps (closed : List Nat)
    (hclosed : (call.run s.world).2.closeCalls = s.world.closeCalls ++ closed)
    (hnew : call.obtains s.world = [] ∨
      ∃ x : OwnedObject, call.obtains s.world = [x] ∧ s.Unheld x.2)
    (hkeeps : Keeps (((closed.map (call.server s.world, ·)).map Event.disposed).reverse ++
      (((call.obtains s.world).map Event.acquired).reverse ++ s.ledger))
      (objectsAt (call.run s.world).2)) (hdead : ∀ p, call.live s.live p.server = false →
      ((call.run s.world).2.session p).state = .invalid) : (call.objectExec s).Inv := by
  have hcloses : call.closesObjects s.world = closed.map (call.server s.world, ·) := by
    unfold ServerCall.closesObjects
    rw [hclosed, drop_left]
  have hledger : (call.objectExec s).ledger =
      ((closed.map (call.server s.world, ·)).map Event.disposed).reverse ++
        (((call.obtains s.world).map Event.acquired).reverse ++ s.ledger) := by
    unfold ServerCall.objectExec
    rw [hcloses]
  refine ⟨?_, ?_, hdead⟩
  · rw [hledger]
    exact hkeeps
  · intro x hx y hy hxy
    have hx := mem_held_of_disposed hx
    have hy := mem_held_of_disposed hy
    rcases hnew with hnone | ⟨z, hz, hunheld⟩
    · rw [hnone] at hx hy
      exact h.distinct x hx y hy hxy
    · rw [hz] at hx hy
      rcases mem_cons.1 hx with hxz | hxold
      · rcases mem_cons.1 hy with hyz | hyold
        · rw [hxz, hyz]
        · rw [hxz] at hxy
          exact absurd hxy.symm (hunheld y hyold)
      · rcases mem_cons.1 hy with hyz | hyold
        · rw [hyz] at hxy
          exact absurd hxy (hunheld x hxold)
        · exact h.distinct x hxold y hyold hxy

theorem of_sameObjects
    (hsame : s.world.SameObjects (call.run s.world).2) (hobtains : call.obtains s.world = [])
    (hlive : call.live s.live = s.live) : (call.objectExec s).Inv := by
  refine h.of_keeps [] ?_ (.inl hobtains) ?_ ?_
  · rw [hsame.closeCalls, append_nil]
  · rw [hobtains]
    exact h.keeps.congr (objectsAt_congr hsame)
  · intro p hp
    rw [hlive] at hp
    exact (hsame.invalid p).2 (h.dead p hp)

theorem create {port : Handle} (htidy : s.Tidy (.create srv port)) :
    ((ServerCall.create srv port).objectExec s).Inv := by
  obtain ⟨hsame, hdead⟩ := create_quiet h.dead htidy port
  refine h.of_keeps [] (hsame.closeCalls.trans (append_nil _).symm) (.inl rfl) ?_ hdead
  refine h.keeps.congr fun x => ?_
  exact (objectsAt_congr hsame.toSameObjects x).trans (by cases x <;> rfl)

/-- A call that makes a session takes over the object of the session. -/
theorem of_newSession (hslot : s.world.freeSlot p.server = some p)
    (hrun : (call.run s.world).2 = s.world.newSession p serverSide clientSide (.user a))
    (hobtains : call.obtains s.world = [(p.server, a)]) (hunheld : s.Unheld a)
    (hserver : s.live p.server = true) (hlive : call.live s.live = s.live) :
    (call.objectExec s).Inv := by
  refine h.of_keeps [] ?_ (.inr ⟨_, hobtains, hunheld⟩) ?_ ?_
  · rw [hrun, append_nil]
    rfl
  · rw [hrun, hobtains]
    exact keeps_newSessionObject h.keeps (freeSlot_invalid hslot) (hunheld.not_mem _)
  · intro q hq
    rw [hlive] at hq
    rw [hrun, newSession_session, if_neg]
    · exact h.dead q hq
    · rintro rfl
      rw [hserver] at hq
      cases hq

/-- A call that adds to a domain takes the object over if there is room. -/
theorem of_addObject (hrun : call.run s.world = ipcServerDomainAddObject p (.user a) s.world)
    (hobtains : (call.run s.world).1 = resultOk → call.obtains s.world = [(p.server, a)])
    (hfails : (call.run s.world).1 ≠ resultOk → call.obtains s.world = []) (hunheld : s.Unheld a)
    (hp : (s.world.session p).state ≠ .invalid) (hlive : call.live s.live = s.live) :
    (call.objectExec s).Inv := by
  cases hindex : s.world.freeIndex p with
  | none =>
    rw [domainAddObject_full hindex] at hrun
    refine h.of_sameObjects ?_ (hfails ?_) hlive
    · rw [hrun]
      exact .refl _
    · rw [hrun]
      show Err.tooManyObjects ≠ resultOk
      decide
  | some i =>
    rw [domainAddObject_free hindex] at hrun
    have hobtained := hobtains (by rw [hrun])
    refine h.of_keeps [] ?_ (.inr ⟨_, hobtained, hunheld⟩) ?_ ?_
    · rw [hrun, append_nil]
      rfl
    · rw [hrun, hobtained]
      exact keeps_newObject h.keeps hp hindex (hunheld.not_mem _)
    · intro q hq
      rw [hlive] at hq
      rw [hrun]
      exact ((World.SameHandles.newObject i _).invalid q).2 (h.dead q hq)

theorem accept {accepted : Except ResultT Handle}
    {made : Except ResultT Nat} (htidy : s.Tidy (.accept srv accepted made)) :
    ((ServerCall.accept srv accepted made).objectExec s).Inv := by
  cases accepted with
  | error r => exact h.of_sameObjects (.refl _) rfl rfl
  | ok handle =>
    cases made with
    | error r =>
      refine h.of_sameObjects ⟨fun _ => .rfl, fun _ => rfl, fun _ => rfl, rfl⟩ rfl rfl
    | ok object =>
      obtain ⟨hlive, hslot, hunheld⟩ := htidy
      obtain ⟨p, hp⟩ := Option.ne_none_iff_exists'.1 hslot
      obtain rfl := freeSlot_server hp
      exact h.of_newSession hp (congrArg Prod.snd (createSession_free hp)) rfl hunheld hlive rfl

theorem addObject {object : Nat} (htidy : s.Tidy (.addObject p object)) :
    ((ServerCall.addObject p object).objectExec s).Inv := by
  refine h.of_addObject (p := p) (a := object) rfl (fun hok => ?_) (fun hfail => ?_) htidy.1 htidy.2
    rfl
  · rw [ServerCall.obtains, if_pos hok]
  · rw [ServerCall.obtains, if_neg hfail]

theorem register {parent : ObjPtr} {child : Nat}
    {created : Except ResultT (Handle × Handle)} (htidy : s.Tidy (.register parent child created)) :
    ((ServerCall.register parent child created).objectExec s).Inv := by
  obtain ⟨hunheld, hplace⟩ := htidy
  by_cases hdomain : (s.world.object parent).isDomainObject = true
  · rw [if_pos hdomain] at hplace
    obtain ⟨d, hd⟩ := Option.isSome_iff_exists.1 ((s.world.object parent).domain_owned hdomain)
    have hrun : (ServerCall.register parent child created).run s.world =
        ipcServerDomainAddObject d (.user child) s.world := by
      refine (register_domain hdomain).trans ?_
      rw [Option.get_of_eq_some _ hd]
    refine h.of_addObject hrun (fun hok => (if_pos hok).trans ?_) (fun hfail => if_neg hfail) hunheld
      (hplace d hd) rfl
    unfold World.childServer
    rw [if_pos hdomain, hd]
    rfl
  · rw [if_neg hdomain] at hplace
    cases created with
    | error r =>
      have hrun : (ServerCall.register parent child (.error r)).run s.world = (r, s.world) :=
        register_failed hdomain
      refine h.of_sameObjects ?_ ?_ rfl
      · rw [hrun]
        exact .refl _
      · unfold ServerCall.obtains World.childServer
        dsimp only
        rw [if_neg hdomain]
        exact ite_self _
    | ok ends =>
      obtain ⟨server, client⟩ := ends
      have hrun : (ServerCall.register parent child (.ok (server, client))).run s.world =
          ipcServerCreateSession (s.world.parentServer parent) server client (.user child)
            s.world := register_session hdomain
      cases hslot : s.world.freeSlot (s.world.parentServer parent) with
      | none =>
        rw [createSession_full hslot] at hrun
        refine h.of_sameObjects ?_ ?_ rfl
        · rw [hrun]
          exact ⟨fun _ => .rfl, fun _ => rfl, fun _ => rfl, rfl⟩
        · refine if_neg ?_
          rw [hrun]
          show Err.ipcserverTooManySessions ≠ resultOk
          decide
      | some p =>
        have hserver := freeSlot_server hslot
        rw [createSession_free hslot] at hrun
        rw [← hserver] at hslot hplace
        refine h.of_newSession hslot (congrArg Prod.snd hrun) ?_ hunheld hplace rfl
        refine (if_pos (by rw [hrun])).trans ?_
        unfold World.childServer
        rw [if_neg hdomain, hserver]
        rfl

/-- A call that closes a session closes its objects. -/
theorem of_closeSession {w₁ : World} (hsame : s.world.SameObjects w₁)
    (hrun : (call.run s.world).2 = w₁.closeSession p) (hserver : call.server s.world = p.server)
    (hobtains : call.obtains s.world = []) (hlive : call.live s.live = s.live)
    (hp : (s.world.session p).state ≠ .invalid) : (call.objectExec s).Inv := by
  have hkeeps : Keeps s.ledger (objectsAt w₁) := h.keeps.congr (objectsAt_congr hsame)
  have hp₁ : (w₁.session p).state ≠ .invalid := mt (hsame.invalid p).1 hp
  refine h.of_keeps (w₁.session p).addresses ?_ (.inl hobtains) ?_ ?_
  · rw [hrun, ← hsame.closeCalls]
    rfl
  · rw [hrun, hserver, hobtains]
    exact keeps_closeSessionObjects hkeeps hp₁
  · intro q hq
    rw [hlive] at hq
    rw [hrun, closeSession_session]
    split_ifs
    · rfl
    · exact (hsame.invalid q).2 (h.dead q hq)

theorem receive (p : SessionPtr) (r : ResultT) (tls : Mem Word) :
    ((ServerCall.receive p r tls).objectExec s).Inv := by
  rcases receive_quiet s.world p r tls with hsame | ⟨-, hlive, w₁, hsame, hrun⟩
  · exact h.of_sameObjects hsame.toSameObjects rfl rfl
  · exact h.of_closeSession hsame.toSameObjects hrun rfl rfl rfl hlive

theorem close (p : SessionPtr) : ((ServerCall.close p).objectExec s).Inv := by
  by_cases hp : (s.world.session p).state = .invalid
  · refine h.of_sameObjects ?_ rfl rfl
    show s.world.SameObjects (ipcServerSessionClose quiet p s.world).2
    rw [sessionClose_invalid quiet hp]
    exact .refl _
  · have hrun := congrArg Prod.snd (sessionClose_quiet hp)
    exact h.of_closeSession (.refl _) hrun rfl rfl rfl hp

theorem destroy (srv : Nat) : ((ServerCall.destroy srv).objectExec s).Inv := by
  have hport : Keeps s.ledger (objectsAt (s.world.closing [s.world.port srv])) :=
    h.keeps.congr fun x => by cases x <;> rfl
  obtain ⟨closed, hclosed, hkeeps⟩ := keeps_closeSessions World.closeCalls
    (fun h hp _ => ⟨rfl, keeps_closeSessionObjects h hp⟩) hport
    fun p hp => ⟨mem_slots.1 hp, trivial⟩
  exact h.of_keeps closed hclosed (.inl rfl) hkeeps (destroy_dead h.dead)

/-- **Each tidy call** keeps the invariant. -/
theorem exec (htidy : s.Tidy call) : (call.objectExec s).Inv := by
  cases call with
  | create srv port => exact h.create htidy
  | accept srv accepted made => exact h.accept htidy
  | register parent child created => exact h.register htidy
  | addObject p object => exact h.addObject htidy
  | receive p r tls => exact h.receive p r tls
  | reply o rep =>
    exact h.of_sameObjects (SameSlots.of_moved (reply_moved s.world o rep)).toSameObjects rfl rfl
  | close p => exact h.close p
  | destroy srv => exact h.destroy srv

end ObjectRun.Inv

end Step

/-- So it holds in every state that tidy calls lead to. -/
theorem objectInv_of_reachable (hs : tidySystem.Reachable s) : s.Inv := by
  refine hs.invariant (fun s hinit => ?_) fun s call s' h hstep => ?_
  · obtain ⟨hinvalid, -, hledger⟩ := hinit
    refine ⟨?_, ?_, fun p _ => hinvalid p⟩
    · rw [hledger]
      refine .nil fun x => ?_
      cases x with
      | root p => exact if_pos (hinvalid p)
      | domain p i => exact if_pos (hinvalid p)
    · rw [hledger]
      exact fun x hx => nomatch hx
  · obtain ⟨rfl, htidy⟩ := hstep
    exact h.exec htidy

/-! ## The result -/

/-- The object at address `a` is in session `p`: it is the session's object, or in its domain. -/
def World.Installed (w : World) (p : SessionPtr) (a : Nat) : Prop :=
  (w.session p).state ≠ .invalid ∧
    ((w.session p).object = some (.user a) ∨ ∃ i, (w.session p).domain.objects i = some (.user a))

theorem ownedObject_eq_some {o : Option ObjPtr} {x : OwnedObject} :
    ownedObject srv o = some x ↔ x.1 = srv ∧ o = some (.user x.2) := by
  obtain ⟨srv', a⟩ := x
  unfold ownedObject
  cases o with
  | none => simp
  | some o => cases o <;> simp [ObjPtr.address, eq_comm]

/-- The session that a place is in. -/
def ObjectPlace.session : ObjectPlace → SessionPtr
  | .root p => p
  | .domain p _ => p

theorem server_of_objectsAt {w : World} {x : ObjectPlace} {y : OwnedObject}
    (h : objectsAt w x = some y) : y.1 = x.session.server := by
  cases x with
  | root p =>
    rw [objectsAt_root] at h
    split_ifs at h
    exact (ownedObject_eq_some.1 h).1
  | domain p i =>
    rw [objectsAt_domain] at h
    split_ifs at h
    exact (ownedObject_eq_some.1 h).1

theorem installed_iff {w : World} :
    w.Installed p a ↔ ∃ x : ObjectPlace, x.session = p ∧ objectsAt w x = some (p.server, a) := by
  constructor
  · rintro ⟨hp, hroot | ⟨i, hi⟩⟩
    · refine ⟨.root p, rfl, ?_⟩
      rw [objectsAt_root, if_neg hp, ownedObject_eq_some]
      exact ⟨rfl, hroot⟩
    · refine ⟨.domain p i, rfl, ?_⟩
      rw [objectsAt_domain, if_neg hp, ownedObject_eq_some]
      exact ⟨rfl, hi⟩
  · rintro ⟨x, rfl, hx⟩
    cases x with
    | root p =>
      rw [objectsAt_root] at hx
      split_ifs at hx with hp
      exact ⟨hp, .inl (ownedObject_eq_some.1 hx).2⟩
    | domain p i =>
      rw [objectsAt_domain] at hx
      split_ifs at hx with hp
      exact ⟨hp, .inr ⟨i, (ownedObject_eq_some.1 hx).2⟩⟩

/-- What a server has is what is in its sessions. -/
theorem ObjectRun.Inv.held_iff (h : s.Inv) (srv a : Nat) :
    (srv, a) ∈ held s.ledger ↔ ∃ p : SessionPtr, p.server = srv ∧ s.world.Installed p a := by
  rw [h.keeps.mem_held]
  constructor
  · rintro ⟨x, hx⟩
    obtain rfl := server_of_objectsAt hx
    exact ⟨x.session, rfl, installed_iff.2 ⟨x, rfl, hx⟩⟩
  · rintro ⟨p, rfl, hinstalled⟩
    obtain ⟨x, -, hx⟩ := installed_iff.1 hinstalled
    exact ⟨x, hx⟩

theorem ObjectRun.Inv.installed_unique (h : s.Inv) {q : SessionPtr} (hp : s.world.Installed p a)
    (hq : s.world.Installed q a) : p = q := by
  have hserver : p.server = q.server := by
    have hpheld := (h.held_iff p.server a).2 ⟨p, rfl, hp⟩
    have hqheld := (h.held_iff q.server a).2 ⟨q, rfl, hq⟩
    exact congrArg Prod.fst (h.distinct _ hpheld _ hqheld rfl)
  obtain ⟨x, rfl, hx⟩ := installed_iff.1 hp
  obtain ⟨y, rfl, hy⟩ := installed_iff.1 hq
  rw [hserver] at hx
  rw [h.keeps.injective x y _ hx hy]

/-- **Ownership of objects.** Along tidy calls, only objects that a server has are closed; what it
took over and has not closed is in exactly one of its sessions; and when it was destroyed it has
closed each object as often as it took it over. -/
theorem objects_owned {s : ObjectRun} (hs : tidySystem.Reachable s) :
    Proper s.ledger ∧
      (∀ srv a, (srv, a) ∈ held s.ledger → ∃! p : SessionPtr, s.world.Installed p a) ∧
      (∀ p a, s.world.Installed p a → (p.server, a) ∈ held s.ledger) ∧
      ∀ srv, s.live srv = false → ∀ a,
        s.ledger.count (.acquired (srv, a)) = s.ledger.count (.disposed (srv, a)) := by
  have hinv := objectInv_of_reachable hs
  refine ⟨hinv.keeps.proper, fun srv a hheld => ?_, fun p a hp => ?_, fun srv hlive a => ?_⟩
  · obtain ⟨p, -, hp⟩ := (hinv.held_iff srv a).1 hheld
    exact ⟨p, hp, fun q hq => hinv.installed_unique hq hp⟩
  · exact (hinv.held_iff p.server a).2 ⟨p, rfl, hp⟩
  · refine hinv.keeps.proper.count_eq fun hheld => ?_
    obtain ⟨p, rfl, hp⟩ := (hinv.held_iff srv a).1 hheld
    exact hp.1 (hinv.dead p hlive)

/-! ## A server without free slots -/

/-- An object that the factory makes while all slots are taken is lost: it is in no session, and it
was not closed. -/
theorem ObjectRun.Inv.accept_full (h : s.Inv) (hdl : Handle) (hfull : s.world.freeSlot srv = none)
    (hunheld : s.Unheld a) :
    (srv, a) ∈ held ((ServerCall.accept srv (.ok hdl) (.ok a)).objectExec s).ledger ∧
      ∀ p, ¬ ((ServerCall.accept srv (.ok hdl) (.ok a)).objectExec s).world.Installed p a := by
  have hrun : ((ServerCall.accept srv (.ok hdl) (.ok a)).run s.world).2 =
      s.world.closing (sessionHandles hdl 0#32) := congrArg Prod.snd (createSession_full hfull)
  constructor
  · have hcloses : (ServerCall.accept srv (.ok hdl) (.ok a)).closesObjects s.world = [] := by
      unfold ServerCall.closesObjects
      rw [hrun]
      show (s.world.closeCalls.drop s.world.closeCalls.length).map _ = []
      rw [drop_length]
      rfl
    unfold ServerCall.objectExec
    rw [hcloses]
    exact mem_cons_self
  · intro p hp
    have hp : s.world.Installed p a := by
      unfold ServerCall.objectExec at hp
      rw [hrun] at hp
      exact hp
    exact hunheld _ ((h.held_iff p.server a).2 ⟨p, rfl, hp⟩) rfl

instance ObjectRun.decidableUnheld (s : ObjectRun) (a : Nat) : Decidable (s.Unheld a) :=
  inferInstanceAs (Decidable (∀ x ∈ _, _))

instance ObjectRun.decidableTidy (s : ObjectRun) : (call : ServerCall) → Decidable (s.Tidy call)
  | .create _ _ => inferInstanceAs (Decidable (_ = _))
  | .accept _ (.ok _) (.ok _) => inferInstanceAs (Decidable (_ ∧ _))
  | .accept _ (.error _) _ => inferInstanceAs (Decidable True)
  | .accept _ (.ok _) (.error _) => inferInstanceAs (Decidable True)
  | .register _ _ _ => inferInstanceAs (Decidable (_ ∧ _))
  | .addObject _ _ => inferInstanceAs (Decidable (_ ∧ _))
  | .receive _ _ _ => inferInstanceAs (Decidable True)
  | .reply _ _ => inferInstanceAs (Decidable True)
  | .close _ => inferInstanceAs (Decidable True)
  | .destroy _ => inferInstanceAs (Decidable True)

/-- A process before its first server. -/
def ObjectRun.start : ObjectRun := ⟨noSessions, fun _ => false, []⟩

theorem ObjectRun.start_initial : ObjectRun.start.Initial := ⟨fun _ => rfl, fun _ => rfl, rfl⟩

/-- The state after some calls. -/
def ObjectRun.after (calls : List ServerCall) : ObjectRun :=
  System.after ServerCall.objectExec ObjectRun.start calls

theorem tidySystem_reachable {calls : List ServerCall}
    (h : System.Allowed ServerCall.objectExec ObjectRun.Tidy ObjectRun.start calls) :
    tidySystem.Reachable (ObjectRun.after calls) :=
  System.reachable_after (fun _ _ htidy => ⟨rfl, htidy⟩)
    (.init ObjectRun.start_initial) h

theorem objectSystem_reachable (calls : List ServerCall) :
    objectSystem.Reachable (ObjectRun.after calls) := by
  have hallowed : System.Allowed ServerCall.objectExec (fun _ _ => True) ObjectRun.start calls :=
    .of_forall (fun _ _ => trivial) _ _
  exact System.reachable_after (fun _ _ _ => rfl)
    (.init ObjectRun.start_initial) hallowed

theorem oneSession_closed : (ObjectRun.after oneSession).live 0 = false ∧
    (Proper (ObjectRun.after oneSession).ledger ∧
      (∀ srv a, (srv, a) ∈ held (ObjectRun.after oneSession).ledger →
        ∃! p : SessionPtr, (ObjectRun.after oneSession).world.Installed p a) ∧
      (∀ p a, (ObjectRun.after oneSession).world.Installed p a →
        (p.server, a) ∈ held (ObjectRun.after oneSession).ledger) ∧
      ∀ srv, (ObjectRun.after oneSession).live srv = false → ∀ a,
        (ObjectRun.after oneSession).ledger.count (.acquired (srv, a)) =
          (ObjectRun.after oneSession).ledger.count (.disposed (srv, a))) :=
  ⟨by decide +kernel, objects_owned (tidySystem_reachable (by decide +kernel))⟩

/-- A server that accepts as many sessions as it has slots for. -/
def crowd : List ServerCall :=
  .create 0 0x10 ::
    (List.range 63).map fun a => .accept 0 (.ok (BitVec.ofNat 32 (0x20 + a))) (.ok a)

/-- The object that the factory makes for one session too many. -/
theorem crowd_loses :
    objectSystem.Reachable (ObjectRun.after (crowd ++ [.accept 0 (.ok 0x60) (.ok 63)])) ∧
      (0, 63) ∈ held (ObjectRun.after (crowd ++ [.accept 0 (.ok 0x60) (.ok 63)])).ledger ∧
      ∀ p, ¬ (ObjectRun.after (crowd ++ [.accept 0 (.ok 0x60) (.ok 63)])).world.Installed p 63 := by
  have hinv : (ObjectRun.after crowd).Inv :=
    objectInv_of_reachable (tidySystem_reachable (by decide +kernel))
  refine ⟨objectSystem_reachable _, ?_⟩
  exact hinv.accept_full 0x60 (by decide +kernel) (by decide +kernel)

end LibTransistor
