import LibTransistor.Ipc.ServerRuns

/-!
# The object graph of the IPC server

Sessions point to their objects and objects point back. The back-pointers are written by
`ipc_server_create_session`, `ipc_server_object_register` and `ipc_server_domain_add_object`. As
long as each object is handed over at most once, all of them agree in every state of every run
(`object_graph_consistent`).

The reason is that a new object is in no table yet, so writing its fields disturbs nobody, and that
a slot's tables are cleared before the slot becomes live again.
-/

namespace LibTransistor

open Stateful List

variable {p : SessionPtr}

variable {o : ObjPtr} {incarnations : SessionPtr → List (List SessionEvent)} {id : Word}

namespace World

variable {w w' : World}

/-- The object is in one of the tables of session `p`. -/
def Placed (w : World) (p : SessionPtr) (o : ObjPtr) : Prop :=
  (w.session p).object = some o ∨ ∃ i, (w.session p).domain.objects i = some o

/-- The pointers between session `p` and its objects agree. -/
structure SessionConsistent (w : World) (p : SessionPtr) : Prop where
  object : ∃ o, (w.session p).object = some o ∧ (w.object o).isDomainObject = false ∧
    (w.object o).owningSession = p
  owningSession : (w.session p).domain.owningSession = p
  objects : ∀ i o, (w.session p).domain.objects i = some o →
    (w.object o).domainId = BitVec.ofNat 32 i ∧ (w.object o).isDomainObject = true ∧
      (w.object o).owningDomain = some p ∧ (w.object o).owningSession = p

/-- The pointers between live sessions and their objects agree. -/
def GraphConsistent (w : World) : Prop :=
  ∀ p, (w.session p).state ≠ .invalid → w.SessionConsistent p

/-- `w'` has the pointers of `w`, and no more live sessions. -/
structure KeepsGraph (w w' : World) : Prop where
  object : w'.object = w.object
  sessionObject : ∀ p, (w'.session p).object = (w.session p).object
  domain : ∀ p, (w'.session p).domain = (w.session p).domain
  live : ∀ p, (w'.session p).state ≠ .invalid → (w.session p).state ≠ .invalid

/-- A session stays consistent when its tables and the objects in them stay what they are. -/
theorem SessionConsistent.congr (h : w.SessionConsistent p)
    (hobject : (w'.session p).object = (w.session p).object)
    (hdomain : (w'.session p).domain = (w.session p).domain)
    (hplaced : ∀ o, w.Placed p o → w'.object o = w.object o) : w'.SessionConsistent p := by
  obtain ⟨⟨o, ho, hdom, hown⟩, hself, htable⟩ := h
  refine ⟨⟨o, hobject.trans ho, ?_⟩, by rw [hdomain]; exact hself, ?_⟩
  · rw [hplaced o (.inl ho)]
    exact ⟨hdom, hown⟩
  · intro i o hi
    rw [hdomain] at hi
    rw [hplaced o (.inr ⟨i, hi⟩)]
    exact htable i o hi

namespace KeepsGraph

theorem refl (w : World) : KeepsGraph w w := ⟨rfl, fun _ => rfl, fun _ => rfl, fun _ => id⟩

theorem trans {w'' : World} (h : KeepsGraph w w') (h' : KeepsGraph w' w'') : KeepsGraph w w'' :=
  ⟨h'.object.trans h.object, fun p => (h'.sessionObject p).trans (h.sessionObject p),
    fun p => (h'.domain p).trans (h.domain p), fun p hp => h.live p (h'.live p hp)⟩

theorem placed (h : KeepsGraph w w') (ho : w'.Placed p o) : w.Placed p o := by
  unfold Placed at ho ⊢
  rwa [h.sessionObject, h.domain] at ho

theorem consistent (h : KeepsGraph w w') (hp : w.SessionConsistent p) : w'.SessionConsistent p :=
  hp.congr (h.sessionObject p) (h.domain p) fun _ _ => by rw [h.object]

theorem of_setSession {sess : Session} (hobject : sess.object = (w.session p).object)
    (hdomain : sess.domain = (w.session p).domain)
    (hlive : sess.state ≠ .invalid → (w.session p).state ≠ .invalid) :
    KeepsGraph w (w.setSession p sess) := by
  refine ⟨rfl, fun q => ?_, fun q => ?_, fun q => ?_⟩
  all_goals
    rw [setSession_session]
    split_ifs with hq
  · rw [hobject, hq]
  · rfl
  · rw [hdomain, hq]
  · rfl
  · rw [hq]
    exact hlive
  · exact id

theorem of_moved (h : w.Moved w') : KeepsGraph w w' := by
  obtain rfl | ⟨p, state, o, m, hlive, -, rfl⟩ := h
  · exact .refl w'
  · exact .of_setSession rfl rfl fun _ => hlive

end KeepsGraph

end World

/-! ## Acts that hand nothing over -/

section Keeps

open World

variable (w : World)

theorem closing_keepsGraph (hs : List Handle) : KeepsGraph w (w.closing hs) :=
  ⟨rfl, fun _ => rfl, fun _ => rfl, fun _ => id⟩

theorem invalidateSession_keepsGraph (p : SessionPtr) : KeepsGraph w (invalidateSession p w).2 :=
  .of_setSession rfl rfl fun h => absurd rfl h

theorem invalidated_keepsGraph (ps : List SessionPtr) : KeepsGraph w (w.invalidated ps) := by
  refine ⟨rfl, fun p => ?_, fun p => ?_, fun p => ?_⟩
  all_goals
    unfold invalidated
    dsimp only
    split_ifs
  · rfl
  · rfl
  · rfl
  · rfl
  · exact fun h => absurd rfl h
  · exact id

theorem touchSession_keepsGraph (p : SessionPtr) : KeepsGraph w (touchSession p w).2 := by
  have htick : KeepsGraph w { w with timestamp := w.timestamp + 1 } :=
    ⟨rfl, fun _ => rfl, fun _ => rfl, fun _ => id⟩
  exact htick.trans (.of_setSession rfl rfl id)

theorem ServerAct.keepsGraph {act : ServerAct} (h : act.hands = []) (w : World) :
    KeepsGraph w (act.run w).2 := by
  cases act with
  | create srv port =>
    have hport : KeepsGraph w (w.setPort srv port) :=
      ⟨rfl, fun _ => rfl, fun _ => rfl, fun _ => id⟩
    unfold ServerAct.run
    rw [discard_snd, ipcServerCreate_run]
    exact hport.trans (invalidated_keepsGraph _ _)
  | createSession srv serverSide clientSide object => cases h
  | addObject p object => cases h
  | take p r tls => exact .of_moved (takeMessage_moved w p r tls)
  | reply o rep => exact .of_moved (reply_moved w o rep)
  | invalidate p => exact invalidateSession_keepsGraph w p
  | closeHandle hdl => exact closing_keepsGraph w [hdl]
  | closeObject object => exact ⟨rfl, fun _ => rfl, fun _ => rfl, fun _ => id⟩
  | touch p => exact touchSession_keepsGraph w p

end Keeps

/-! ## The invariant -/

/-- Live sessions are consistent, and have only objects that were handed over. -/
structure ServerRun.GraphInv (s : ServerRun) : Prop where
  consistent : s.world.GraphConsistent
  handed : ∀ p o, (s.world.session p).state ≠ .invalid → s.world.Placed p o →
    ∃ a ∈ s.handed, o = .user a

section Step

open World

variable {s : ServerRun} {w' : World}

theorem ServerRun.GraphInv.of_keepsGraph (h : s.GraphInv) (hw : KeepsGraph s.world w')
    {handed : List Nat} (hsub : ∀ a ∈ s.handed, a ∈ handed) :
    ServerRun.GraphInv ⟨w', handed, incarnations⟩ := by
  refine ⟨fun p hp => hw.consistent (h.consistent p (hw.live p hp)), fun p o hp ho => ?_⟩
  obtain ⟨a, ha, rfl⟩ := h.handed p o (hw.live p hp) (hw.placed ho)
  exact ⟨a, hsub a ha, rfl⟩

variable {a : Nat} (ha : a ∉ s.handed)
include ha

theorem ServerRun.GraphInv.ne_of_placed (h : s.GraphInv) (hp : (s.world.session p).state ≠ .invalid)
    (ho : s.world.Placed p o) : o ≠ .user a ∧ ∀ q, o ≠ .hipcManager q := by
  obtain ⟨b, hb, rfl⟩ := h.handed p o hp ho
  refine ⟨fun heq => ?_, fun q heq => nomatch heq⟩
  cases heq
  exact ha hb

theorem ServerRun.GraphInv.newSession (h : s.GraphInv) (serverSide clientSide : Handle) :
    ServerRun.GraphInv ⟨s.world.newSession p serverSide clientSide (.user a), a :: s.handed,
      incarnations⟩ := by
  constructor
  · intro q hq
    by_cases hqp : q = p
    · subst hqp
      refine ⟨⟨.user a, ?_, ?_⟩, ?_, ?_⟩
      · rw [newSession_session, if_pos rfl]
        rfl
      · rw [newSession_object, if_pos rfl]
        exact ⟨rfl, rfl⟩
      · rw [newSession_session, if_pos rfl]
        rfl
      · intro i o hi
        rw [newSession_session, if_pos rfl] at hi
        exact nomatch hi
    · have hsess : (s.world.newSession p serverSide clientSide (.user a)).session q =
          s.world.session q := by rw [newSession_session, if_neg hqp]
      rw [hsess] at hq
      refine (h.consistent q hq).congr (by rw [hsess]) (by rw [hsess]) fun o ho => ?_
      obtain ⟨hne, hmanager⟩ := h.ne_of_placed ha hq ho
      rw [newSession_object, if_neg hne, if_neg (hmanager p)]
  · intro q o hq ho
    unfold Placed at ho
    by_cases hqp : q = p
    · rw [newSession_session, if_pos hqp] at ho
      rcases ho with ho | ⟨i, hi⟩
      · exact ⟨a, mem_cons_self, (Option.some.inj ho).symm⟩
      · exact nomatch hi
    · rw [newSession_session, if_neg hqp] at hq ho
      obtain ⟨b, hb, rfl⟩ := h.handed q o hq ho
      exact ⟨b, mem_cons_of_mem _ hb, rfl⟩

theorem ServerRun.GraphInv.newObject (h : s.GraphInv) (i : Fin 512) :
    ServerRun.GraphInv ⟨s.world.newObject p i (.user a), a :: s.handed, incarnations⟩ := by
  constructor
  · intro q hq
    by_cases hqp : q = p
    · subst hqp
      rw [newObject_session, if_pos rfl] at hq
      obtain ⟨⟨o, ho, hdom, hown⟩, hself, htable⟩ := h.consistent q hq
      have hplaced : ∀ o, s.world.Placed q o →
          (s.world.newObject q i (.user a)).object o = s.world.object o := fun o ho => by
        rw [newObject_object, if_neg (h.ne_of_placed ha hq ho).1]
      refine ⟨⟨o, ?_, ?_⟩, ?_, ?_⟩
      · rw [newObject_session, if_pos rfl]
        exact ho
      · rw [hplaced o (.inl ho)]
        exact ⟨hdom, hown⟩
      · rw [newObject_session, if_pos rfl]
        exact hself
      · intro j o hj
        rw [newObject_session, if_pos rfl] at hj
        dsimp only at hj
        by_cases hji : j = i
        · subst hji
          rw [Function.update_self] at hj
          cases hj
          rw [newObject_object, if_pos rfl]
          exact ⟨rfl, rfl, rfl, hself⟩
        · rw [Function.update_of_ne hji] at hj
          rw [hplaced o (.inr ⟨j, hj⟩)]
          exact htable j o hj
    · have hsess : (s.world.newObject p i (.user a)).session q = s.world.session q := by
        rw [newObject_session, if_neg hqp]
      rw [hsess] at hq
      refine (h.consistent q hq).congr (by rw [hsess]) (by rw [hsess]) fun o ho => ?_
      rw [newObject_object, if_neg (h.ne_of_placed ha hq ho).1]
  · intro q o hq ho
    unfold Placed at ho
    by_cases hqp : q = p
    · subst hqp
      rw [newObject_session, if_pos rfl] at hq ho
      dsimp only at ho
      rcases ho with ho | ⟨j, hj⟩
      · obtain ⟨b, hb, rfl⟩ := h.handed q o hq (.inl ho)
        exact ⟨b, mem_cons_of_mem _ hb, rfl⟩
      · by_cases hji : j = i
        · subst hji
          rw [Function.update_self] at hj
          exact ⟨a, mem_cons_self, (Option.some.inj hj).symm⟩
        · rw [Function.update_of_ne hji] at hj
          obtain ⟨b, hb, rfl⟩ := h.handed q o hq (.inr ⟨j, hj⟩)
          exact ⟨b, mem_cons_of_mem _ hb, rfl⟩
    · rw [newObject_session, if_neg hqp] at hq ho
      obtain ⟨b, hb, rfl⟩ := h.handed q o hq ho
      exact ⟨b, mem_cons_of_mem _ hb, rfl⟩

end Step

/-- **Step lemma.** An act keeps the invariant if what it hands over is new. -/
theorem ServerRun.GraphInv.exec {s : ServerRun} (h : s.GraphInv) (act : ServerAct)
    (hnew : ∀ a ∈ act.hands, a ∉ s.handed) : (act.exec s).GraphInv := by
  cases act with
  | createSession srv serverSide clientSide object =>
    have ha := hnew object mem_cons_self
    unfold ServerAct.exec ServerAct.run
    rw [discard_snd]
    cases hslot : s.world.freeSlot srv with
    | none =>
      rw [createSession_full hslot]
      exact h.of_keepsGraph (closing_keepsGraph _ _) fun _ => mem_cons_of_mem _
    | some p =>
      rw [createSession_free hslot]
      exact h.newSession ha serverSide clientSide
  | addObject p object =>
    have ha := hnew object mem_cons_self
    unfold ServerAct.exec ServerAct.run
    rw [discard_snd]
    cases hindex : s.world.freeIndex p with
    | none =>
      rw [domainAddObject_full hindex]
      exact h.of_keepsGraph (.refl _) fun _ => mem_cons_of_mem _
    | some i =>
      rw [domainAddObject_free hindex]
      exact h.newObject ha i
  | create srv port => exact h.of_keepsGraph (ServerAct.keepsGraph rfl _) fun _ => id
  | take p r tls => exact h.of_keepsGraph (ServerAct.keepsGraph rfl _) fun _ => id
  | reply o rep => exact h.of_keepsGraph (ServerAct.keepsGraph rfl _) fun _ => id
  | invalidate p => exact h.of_keepsGraph (ServerAct.keepsGraph rfl _) fun _ => id
  | closeHandle hdl => exact h.of_keepsGraph (ServerAct.keepsGraph rfl _) fun _ => id
  | closeObject object => exact h.of_keepsGraph (ServerAct.keepsGraph rfl _) fun _ => id
  | touch p => exact h.of_keepsGraph (ServerAct.keepsGraph rfl _) fun _ => id

theorem graphInv_of_reachable {s : ServerRun} (hs : serverSystem.Reachable s)
    (honce : s.handed.Nodup) : s.GraphInv := by
  induction hs with
  | init h => exact ⟨fun p hp => absurd (h.1 p) hp, fun p o hp => absurd (h.1 p) hp⟩
  | step act hs hstep ih =>
    subst hstep
    obtain ⟨-, hprev, hdisjoint⟩ := nodup_append.1 honce
    exact (ih hprev).exec act fun a ha hmem => hdisjoint a ha a hmem rfl

/-! ## Looking objects up -/

theorem getObject_eq_ok {d : Domain} :
    ipcServerDomainGetObject d id = .ok o ↔
      ∃ i : Fin 512, BitVec.ofNat 32 i = id ∧ d.objects i = some o := by
  unfold ipcServerDomainGetObject
  split_ifs with h
  · refine ⟨fun hok => (nomatch hok), ?_⟩
    rintro ⟨i, hid, -⟩
    rw [← hid, BitVec.toNat_ofNat] at h
    omega
  · have hself : BitVec.ofNat 32 id.toNat = id := by simp
    constructor
    · intro hok
      cases hobj : d.objects ⟨id.toNat, Nat.lt_of_not_le h⟩ with
      | none => rw [hobj] at hok; cases hok
      | some o' =>
        rw [hobj] at hok
        cases hok
        exact ⟨⟨id.toNat, Nat.lt_of_not_le h⟩, hself, hobj⟩
    · rintro ⟨i, hid, hobj⟩
      have hindex : (⟨id.toNat, Nat.lt_of_not_le h⟩ : Fin 512) = i := by
        apply Fin.ext
        show id.toNat = i
        rw [← hid, BitVec.toNat_ofNat]
        omega
      rw [hindex, hobj]

theorem getObject_error {d : Domain} {e : ResultT} (h : ipcServerDomainGetObject d id = .error e) :
    e = Err.ipcserverNoSuchObject := by
  unfold ipcServerDomainGetObject at h
  split_ifs at h
  · exact (Except.error.inj h).symm
  · split at h
    · exact (Except.error.inj h).symm
    · cases h

theorem World.SessionConsistent.getObject_eq_ok {w : World} (h : w.SessionConsistent p) :
    ipcServerDomainGetObject (w.session p).domain id = .ok o ↔
      (∃ i, (w.session p).domain.objects i = some o) ∧ (w.object o).domainId = id := by
  rw [LibTransistor.getObject_eq_ok]
  constructor
  · rintro ⟨i, hid, hi⟩
    exact ⟨⟨i, hi⟩, (h.objects i o hi).1.trans hid⟩
  · rintro ⟨⟨i, hi⟩, hid⟩
    exact ⟨i, (h.objects i o hi).1.symm.trans hid, hi⟩

/-- **Consistency of the object graph.** -/
theorem object_graph_consistent {s : ServerRun} (hs : serverSystem.Reachable s)
    (honce : s.handed.Nodup) :
    s.world.GraphConsistent ∧
      ∀ p, (s.world.session p).state ≠ .invalid → ∀ id,
        (∀ o, ipcServerDomainGetObject (s.world.session p).domain id = .ok o ↔
          (∃ i, (s.world.session p).domain.objects i = some o) ∧
            (s.world.object o).domainId = id) ∧
        ∀ e, ipcServerDomainGetObject (s.world.session p).domain id = .error e →
          e = Err.ipcserverNoSuchObject := by
  have hinv := graphInv_of_reachable hs honce
  exact ⟨hinv.consistent, fun p hp id =>
    ⟨fun o => (hinv.consistent p hp).getObject_eq_ok, fun e => getObject_error⟩⟩

/-- A session with an object in its domain is closed, and its slot is used again. -/
def reusedSlot : ServerRun :=
  ServerRun.start.after [.create 0 0x10, .createSession 0 0x20 0 1, .addObject ⟨0, 0⟩ 2,
    .invalidate ⟨0, 0⟩, .createSession 0 0x30 0x31 3, .addObject ⟨0, 0⟩ 4]

theorem reusedSlot_consistent : (reusedSlot.world.session ⟨0, 0⟩).state ≠ .invalid ∧
    reusedSlot.world.GraphConsistent ∧
      ipcServerDomainGetObject (reusedSlot.world.session ⟨0, 0⟩).domain 0#32 = .ok (.user 4) := by
  have h := object_graph_consistent (s := reusedSlot)
    (ServerRun.start_initial.reachable_after _) (by decide)
  have hlive : (reusedSlot.world.session ⟨0, 0⟩).state ≠ .invalid := by decide +kernel
  refine ⟨hlive, h.1, ((h.2 _ hlive 0#32).1 (.user 4)).2 ⟨⟨0, ?_⟩, ?_⟩⟩
  · decide +kernel
  · decide +kernel

end LibTransistor
