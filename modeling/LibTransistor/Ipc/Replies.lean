import LibTransistor.Ipc.ServerRuns

/-!
# Replies of the IPC server

A handler may reply long after it was called: when its session was closed, or when the session's
slot has been given to another client. `ipc_server_object_reply` lets a reply through only for the
object that the session has a message of, so messages and replies alternate (`replies_alternate`).

The invariant `SlotInv` ties a session's state and `active_object` to what has happened on it: an
object is active exactly while the last event is a message for it. Every act changes one slot at
most (`ProtocolInv.update`).
-/

namespace LibTransistor

open Stateful List World

/-! ## What may happen on a session -/

/-- No message waits for a reply. The newest event comes first. -/
def Answered : List SessionEvent → Prop
  | .received _ :: _ => False
  | _ => True

/-- Messages and replies alternate, starting with a message, and each reply is by the object that
the message before it was dispatched to. -/
def Alternates : List SessionEvent → Prop
  | [] => True
  | .received _ :: l => Answered l ∧ Alternates l
  | .replied o :: l => l.head? = some (.received (some o)) ∧ Alternates l

/-- The state of a session, its active object and the events on it fit together. -/
def StateFits (active : Option ObjPtr) (l : List SessionEvent) : SessionState → Prop
  | .invalid => True
  | .initializing => False
  | .listening => Answered l
  | .processing => ∃ o, l.head? = some (.received (some o)) ∧ active = some o
  | .errored => ∀ o, l.head? ≠ some (.received (some o))

/-- The invariant of a slot. -/
structure SlotInv (sess : Session) (incarnations : List (List SessionEvent)) : Prop where
  alternates : ∀ l ∈ incarnations, Alternates l
  created : sess.state ≠ .invalid → incarnations ≠ []
  fits : StateFits sess.activeObject (incarnations.headD []) sess.state

def ServerRun.ProtocolInv (s : ServerRun) : Prop :=
  ∀ p, SlotInv (s.world.session p) (s.incarnations p)

theorem Answered.head_ne {l : List SessionEvent} (h : Answered l) (t : Option ObjPtr) :
    l.head? ≠ some (.received t) := by
  cases l with
  | nil => exact fun heq => nomatch heq
  | cons e l =>
    intro heq
    cases Option.some.inj heq
    exact h

/-! ## One slot -/

section Slot

variable {sess : Session} {incarnations : List (List SessionEvent)} {sess' : Session}

section SlotInv

variable (h : SlotInv sess incarnations)
include h

theorem SlotInv.congr (hstate : sess'.state = sess.state)
    (hactive : sess'.activeObject = sess.activeObject) : SlotInv sess' incarnations := by
  refine ⟨h.alternates, ?_, ?_⟩
  · rw [hstate]
    exact h.created
  · rw [hstate, hactive]
    exact h.fits

theorem SlotInv.invalid (hstate : sess'.state = .invalid) : SlotInv sess' incarnations := by
  refine ⟨h.alternates, fun hne => absurd hstate hne, ?_⟩
  rw [hstate]
  trivial

theorem SlotInv.exists_cons (hlive : sess.state ≠ .invalid) :
    ∃ l ls, incarnations = l :: ls := exists_cons_of_ne_nil (h.created hlive)

theorem SlotInv.happen (hlive : sess.state ≠ .invalid)
    {e : SessionEvent} (hnext : Alternates (e :: incarnations.headD []))
    (hfits : StateFits sess'.activeObject (e :: incarnations.headD []) sess'.state) :
    SlotInv sess' (happen e incarnations) := by
  obtain ⟨l, ls, rfl⟩ := h.exists_cons hlive
  refine ⟨fun l' hl' => ?_, fun _ => cons_ne_nil _ _, hfits⟩
  rcases mem_cons.1 hl' with rfl | hmem
  · exact hnext
  · exact h.alternates l' (mem_cons_of_mem _ hmem)

theorem SlotInv.alternates_head : Alternates (incarnations.headD []) := by
  cases incarnations with
  | nil => trivial
  | cons l ls => exact h.alternates l mem_cons_self

end SlotInv

end Slot

/-! ## Step by step -/

section Step

variable {s : ServerRun} {w' : World} {handed : List Nat}
variable {incarnations : SessionPtr → List (List SessionEvent)}

theorem ServerRun.ProtocolInv.update (h : s.ProtocolInv) (p : SessionPtr)
    (hsession : ∀ q, q ≠ p → w'.session q = s.world.session q)
    (hevents : ∀ q, q ≠ p → incarnations q = s.incarnations q)
    (hp : SlotInv (w'.session p) (incarnations p)) :
    ServerRun.ProtocolInv ⟨w', handed, incarnations⟩ := by
  intro q
  by_cases hq : q = p
  · subst hq
    exact hp
  · dsimp only
    rw [hsession q hq, hevents q hq]
    exact h q

theorem ServerRun.ProtocolInv.setSession (h : s.ProtocolInv) (p : SessionPtr) {sess : Session}
    (hp : SlotInv sess (s.incarnations p)) :
    ServerRun.ProtocolInv ⟨s.world.setSession p sess, handed, s.incarnations⟩ := by
  refine h.update p (fun q hq => ?_) (fun _ _ => rfl) ?_
  · rw [setSession_session, if_neg hq]
  · rw [setSession_session, if_pos rfl]
    exact hp

theorem ServerRun.ProtocolInv.setSession_happen (h : s.ProtocolInv) (p : SessionPtr)
    (hlive : (s.world.session p).state ≠ .invalid) {e : SessionEvent} {sess : Session}
    (hnext : Alternates (e :: (s.incarnations p).headD []))
    (hfits : StateFits sess.activeObject (e :: (s.incarnations p).headD []) sess.state) :
    ServerRun.ProtocolInv ⟨s.world.setSession p sess, handed,
      Function.update s.incarnations p (happen e (s.incarnations p))⟩ := by
  refine h.update p (fun q hq => ?_) (fun q hq => Function.update_of_ne hq _ _) ?_
  · rw [setSession_session, if_neg hq]
  · rw [setSession_session, if_pos rfl, Function.update_self]
    exact (h p).happen hlive hnext hfits

theorem ServerRun.ProtocolInv.exec_take (h : s.ProtocolInv) (p : SessionPtr) (r : ResultT)
    (tls : Mem Word) : ((ServerAct.take p r tls).exec s).ProtocolInv := by
  unfold ServerAct.exec ServerAct.run ServerAct.record
  rw [discard_snd]
  dsimp only
  by_cases hlisten : (s.world.session p).state = .listening
  · have hlive : (s.world.session p).state ≠ .invalid := by simp [hlisten]
    have hanswered : Answered ((s.incarnations p).headD []) := by
      have hfits := (h p).fits
      rwa [hlisten] at hfits
    by_cases hr : r = resultOk
    · subst hr
      have hnext : ∀ t, Alternates (.received t :: (s.incarnations p).headD []) := fun t =>
        ⟨hanswered, (h p).alternates_head⟩
      rw [if_pos ⟨hlisten, rfl⟩]
      cases htarget : dispatchTarget p (s.world.processing p tls) (s.world.received p tls) with
      | none =>
        rw [take_noTarget hlisten htarget]
        exact h.setSession_happen p hlive (hnext none) fun o heq => nomatch heq
      | some target =>
        rw [take_target hlisten htarget]
        exact h.setSession_happen p hlive (hnext (some target.1)) ⟨target.1, rfl, rfl⟩
    · rw [if_neg fun hboth => hr hboth.2, take_noMessage hlisten hr]
      exact h.setSession p ⟨(h p).alternates, fun _ => (h p).created hlive,
        fun o => hanswered.head_ne (some o)⟩
  · rw [if_neg fun hboth => hlisten hboth.1, take_refused hlisten]
    exact h

theorem ServerRun.ProtocolInv.exec_reply (h : s.ProtocolInv) (o : ObjPtr) (rep : Reply) :
    ((ServerAct.reply o rep).exec s).ProtocolInv := by
  unfold ServerAct.exec ServerAct.run ServerAct.record
  rw [discard_snd]
  dsimp only
  cases hpack : packReply s.world o rep with
  | error e =>
    rw [reply_refused hpack]
    exact h
  | ok m =>
    set p := (s.world.object o).owningSession with hp
    obtain ⟨hstate, hactive⟩ := active_of_packReply hpack
    rw [← hp] at hstate hactive
    have hlive : (s.world.session p).state ≠ .invalid := by simp [hstate]
    obtain ⟨o', hhead, hactive'⟩ : ∃ o', ((s.incarnations p).headD []).head? =
        some (.received (some o')) ∧ (s.world.session p).activeObject = some o' := by
      have hfits := (h p).fits
      rwa [hstate] at hfits
    cases hactive.symm.trans hactive'
    have hnext : Alternates (.replied o :: (s.incarnations p).headD []) :=
      ⟨hhead, (h p).alternates_head⟩
    by_cases hr : rep.r = resultTimeout
    · rw [reply_sent hpack hr]
      exact h.setSession_happen p hlive hnext trivial
    · rw [reply_failed hpack hr]
      exact h.setSession_happen p hlive hnext fun o heq => nomatch heq

theorem ServerRun.ProtocolInv.exec (h : s.ProtocolInv) (act : ServerAct) :
    (act.exec s).ProtocolInv := by
  cases act with
  | create srv port =>
    intro p
    unfold ServerAct.exec ServerAct.run
    rw [discard_snd, ipcServerCreate_run]
    unfold World.invalidated
    dsimp only
    split_ifs
    · exact (h p).invalid rfl
    · exact h p
  | createSession srv serverSide clientSide object =>
    unfold ServerAct.exec ServerAct.run ServerAct.record
    rw [discard_snd]
    dsimp only
    cases hslot : s.world.freeSlot srv with
    | none =>
      rw [createSession_full hslot]
      exact h
    | some p =>
      rw [createSession_free hslot]
      refine h.update p (fun q hq => ?_) (fun q hq => Function.update_of_ne hq _ _) ?_
      · rw [newSession_session, if_neg hq]
      · dsimp only
        rw [newSession_session, if_pos rfl, Function.update_self]
        refine ⟨fun l hl => ?_, fun _ => cons_ne_nil _ _, trivial⟩
        rcases mem_cons.1 hl with rfl | hmem
        · trivial
        · exact (h p).alternates l hmem
  | addObject p object =>
    unfold ServerAct.exec ServerAct.run
    rw [discard_snd]
    cases hindex : s.world.freeIndex p with
    | none =>
      rw [domainAddObject_full hindex]
      exact h
    | some i =>
      rw [domainAddObject_free hindex]
      refine h.update p (fun q hq => ?_) (fun _ _ => rfl) ?_
      · rw [newObject_session, if_neg hq]
      · rw [newObject_session, if_pos rfl]
        exact (h p).congr rfl rfl
  | take p r tls => exact h.exec_take p r tls
  | reply o rep => exact h.exec_reply o rep
  | invalidate p => exact h.setSession p ((h p).invalid rfl)
  | closeHandle hdl => exact h
  | closeObject object => exact h
  | touch p =>
    refine h.update p (fun q hq => ?_) (fun _ _ => rfl) ?_
    · show (World.setSession _ p _).session q = _
      rw [setSession_session, if_neg hq]
    · show SlotInv ((World.setSession _ p _).session p) _
      rw [setSession_session, if_pos rfl]
      exact (h p).congr rfl rfl

end Step

theorem protocolInv_of_reachable {s : ServerRun} (hs : serverSystem.Reachable s) :
    s.ProtocolInv := by
  refine hs.invariant (fun s hinit p => ?_) fun s act s' h hstep => ?_
  · refine ⟨fun l hl => ?_, fun hne => absurd (hinit.1 p) hne, ?_⟩
    · rw [hinit.2.2 p] at hl
      exact nomatch hl
    · rw [hinit.1 p]
      trivial
  · subst hstep
    exact h.exec act

/-! ## The result -/

/-- The last that happened on the session of object `o`, which is not closed, is a message for
`o`. -/
def ServerRun.Awaits (s : ServerRun) (o : ObjPtr) : Prop :=
  (s.world.session (s.world.object o).owningSession).state ≠ .invalid ∧
    ((s.incarnations (s.world.object o).owningSession).headD []).head? =
      some (.received (some o))

theorem ServerRun.ProtocolInv.packReply_error {s : ServerRun} (h : s.ProtocolInv) {o : ObjPtr}
    (ho : ¬ s.Awaits o) (rep : Reply) :
    packReply s.world o rep = .error Err.ipcserverInvalidSessionState ∨
      packReply s.world o rep = .error Err.ipcserverObjectNotActive := by
  unfold packReply
  dsimp only
  split_ifs with hstate hactive
  · exact .inl rfl
  · exact .inr rfl
  · rw [not_not] at hstate hactive
    have hfits := (h (s.world.object o).owningSession).fits
    rw [hstate] at hfits
    obtain ⟨o', hhead, hactive'⟩ := hfits
    cases hactive.symm.trans hactive'
    exact absurd ⟨by simp [hstate], hhead⟩ ho

/-- **At most one reply per message, and by its addressee.** -/
theorem replies_alternate {s : ServerRun} (hs : serverSystem.Reachable s) :
    (∀ p, ∀ l ∈ s.incarnations p, Alternates l) ∧
      ∀ o, ¬ s.Awaits o → ∀ rep,
        (ipcServerObjectReply o rep s.world).1 ≠ resultOk ∧
          (ipcServerObjectReply o rep s.world).2 = s.world := by
  have hinv := protocolInv_of_reachable hs
  refine ⟨fun p => (hinv p).alternates, fun o ho rep => ?_⟩
  rcases hinv.packReply_error ho rep with herror | herror
  · rw [reply_refused herror]
    exact ⟨show Err.ipcserverInvalidSessionState ≠ resultOk by decide, rfl⟩
  · rw [reply_refused herror]
    exact ⟨show Err.ipcserverObjectNotActive ≠ resultOk by decide, rfl⟩

/-- A message, the reply to it, and the next message. -/
def nextMessage : ServerRun :=
  ServerRun.start.after [.create 0 0x10, .createSession 0 0x20 0 1,
    .take ⟨0, 0⟩ resultOk (bareMessage 4#32),
    .reply (.user 1) ⟨ipcDefaultResponse, fun _ => 0, fun _ => 0, fun _ => 0, resultTimeout⟩,
    .take ⟨0, 0⟩ resultOk (bareMessage 4#32)]

theorem nextMessage_alternates :
    Alternates [.received (some (.user 1)), .replied (.user 1), .received (some (.user 1))] := by
  refine (replies_alternate (s := nextMessage)
    (ServerRun.start_initial.reachable_after _)).1 ⟨0, 0⟩ _ ?_
  exact mem_cons_self

end LibTransistor
