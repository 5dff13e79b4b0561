import LibTransistor.Ipc.Process
import LibTransistor.Lib.Turns

/-!
# Busy sessions

`ipc_server_process` means to serve every session: it touches the sessions up to the one it receives
from, so that those it has not looked at come first in the next iteration. That rests on the order
in which `qsort` leaves the sessions, which can be any (`sorted_iff_perm`).

**Theorem (`no_starvation`).** In every run in which each sort leaves the sessions in the order of
their timestamps, and these do not overflow, a session that stays `LISTENING` and signalled is
served before another one is served twice.

The states of a run keep, for each server, the iterations so far (`Turn`). The invariant says that a
session that waits since another one was served has the older timestamp.
-/

namespace LibTransistor

open Stateful List Function World

variable {srv : Nat} {it : Iteration} {b a : SessionId} {serverSide clientSide : Handle}
  {o : ObjPtr}

/-! ## Runs of the loop -/

/-- A session: a slot, and how many sessions have been created in it so far. -/
abbrev SessionId := SessionPtr × Nat

structure ProcessRun where
  world : World
  births : SessionPtr → Nat
  /-- The iterations of the loop of each server, newest first. -/
  turns : Nat → List (Turn SessionId)

inductive ProcessAct
  /-- An iteration up to `ipc_server_accept_session` or `ipc_server_session_receive`. -/
  | iteration (srv : Nat) (it : Iteration)
  /-- Anything else that happens to servers. -/
  | act (a : ServerAct)

variable (s : ProcessRun)

/-- The session that is in a slot. -/
def ProcessRun.id (p : SessionPtr) : SessionId := (p, s.births p)

/-- The session that is received from. -/
def Waited.served : Waited → Option SessionPtr
  | .receive p => some p
  | _ => none

/-- An iteration, as it is remembered. -/
def ProcessRun.turn (srv : Nat) (it : Iteration) : Turn SessionId where
  ready := ((s.world.listening srv).filter it.signalled).map s.id
  served := (processWait it s.world).1.served.map s.id

/-- The sessions created, after an act. -/
def ServerAct.births (w : World) (births : SessionPtr → Nat) : ServerAct → SessionPtr → Nat
  | .createSession srv _ _ _ =>
    match w.freeSlot srv with
    | none => births
    | some p => Function.update births p (births p + 1)
  | _ => births

def ProcessAct.exec (s : ProcessRun) : ProcessAct → ProcessRun
  | .iteration srv it =>
    ⟨(processWait it s.world).2, s.births,
      Function.update s.turns srv (s.turn srv it :: s.turns srv)⟩
  | .act a => ⟨(a.run s.world).2, a.births s.world s.births, s.turns⟩

def ProcessAct.Possible (s : ProcessRun) : ProcessAct → Prop
  | .iteration srv it => it.Possible srv s.world
  | .act a => a.isTouch = false

/-- Servers whose sessions are received from by `ipc_server_process`. -/
def processSystem : System ProcessRun ProcessAct where
  init s := (∀ p, (s.world.session p).state = .invalid) ∧ ∀ srv, s.turns srv = []
  step s act s' := act.Possible s ∧ s' = act.exec s

/-! ## Time -/

namespace World

/-- When a session was touched last. -/
def touched (w : World) (p : SessionPtr) : Nat := (w.session p).lastTouchTimestamp.toNat

/-- The next timestamp. -/
def clock (w : World) : Nat := w.timestamp.toNat

/-- `w'` is `w` with the sessions `ps` touched. -/
structure Touched (w : World) (ps : List SessionPtr) (w' : World) : Prop where
  clock_le : w.clock ≤ w'.clock
  state : ∀ q, (w'.session q).state = (w.session q).state
  of_not_mem : ∀ q, q ∉ ps → w'.touched q = w.touched q
  of_mem : ∀ q ∈ ps, w.clock ≤ w'.touched q ∧ w'.touched q < w'.clock

/-- Nothing is touched or created, and no session comes out of an empty slot. -/
structure SameTime (w w' : World) : Prop where
  clock : w'.clock = w.clock
  touched : ∀ p, w'.touched p = w.touched p
  invalid : ∀ p, (w.session p).state = .invalid → (w'.session p).state = .invalid

variable {w : World} {p : SessionPtr}

theorem SameTime.refl (w : World) : SameTime w w := ⟨rfl, fun _ => rfl, fun _ => id⟩

theorem SameTime.setSession {sess : Session}
    (htouched : sess.lastTouchTimestamp = (w.session p).lastTouchTimestamp)
    (hinvalid : (w.session p).state = .invalid → sess.state = .invalid) :
    SameTime w (w.setSession p sess) := by
  refine ⟨rfl, fun q => ?_, fun q hq => ?_⟩
  · unfold World.touched
    rw [setSession_session]
    split_ifs with h
    · rw [htouched, h]
    · rfl
  · rw [setSession_session]
    split_ifs with h
    · subst h
      exact hinvalid hq
    · exact hq

theorem SameTime.of_moved {w' : World} (h : w.Moved w') : SameTime w w' := by
  obtain rfl | ⟨p, state, o, m, hlive, -, rfl⟩ := h
  · exact .refl w'
  · exact .setSession rfl fun hinvalid => absurd hinvalid hlive

theorem newSession_touched (q : SessionPtr) :
    (w.newSession p serverSide clientSide o).touched q = if q = p then w.clock else w.touched q := by
  unfold World.touched
  rw [newSession_session]
  split_ifs <;> rfl

theorem newSession_clock (h : w.clock + 1 < 2 ^ 64) :
    (w.newSession p serverSide clientSide o).clock = w.clock + 1 :=
  BitVec.toNat_add_of_lt h

end World

variable (w : World) (p q : SessionPtr)

theorem touchSession_session : (touchSession p w).2.session q =
    if q = p then { w.session p with lastTouchTimestamp := w.timestamp } else w.session q :=
  setSession_session _ _ _ _

theorem touchSession_clock {w : World} (p : SessionPtr) (h : w.clock + 1 < 2 ^ 64) :
    (touchSession p w).2.clock = w.clock + 1 := BitVec.toNat_add_of_lt h

theorem touchSession_touched :
    (touchSession p w).2.touched q = if q = p then w.clock else w.touched q := by
  unfold World.touched
  rw [touchSession_session]
  split_ifs <;> rfl

theorem touchSessions_touched {w : World} {ps : List SessionPtr}
    (h : w.clock + ps.length < 2 ^ 64) : w.Touched ps (touchSessions ps w).2 := by
  induction ps generalizing w with
  | nil => exact ⟨le_rfl, fun _ => rfl, fun _ _ => rfl, fun q hq => nomatch hq⟩
  | cons p ps ih =>
    rw [length_cons] at h
    have hclock := touchSession_clock (w := w) p (by omega)
    have hrest : (touchSession p w).2.Touched ps (touchSessions (p :: ps) w).2 :=
      ih (by omega)
    have hclock_le := hrest.clock_le
    refine ⟨by omega, fun q => ?_, fun q hq => ?_, fun q hq => ?_⟩
    · rw [hrest.state, touchSession_session]
      split_ifs with hqp
      · rw [hqp]
      · rfl
    · obtain ⟨hne, hmem⟩ := not_or.1 (mt mem_cons.2 hq)
      rw [hrest.of_not_mem q hmem, touchSession_touched, if_neg hne]
    · by_cases hmem : q ∈ ps
      · have hq := hrest.of_mem q hmem
        omega
      · have hqp := (mem_cons.1 hq).resolve_right hmem
        rw [hrest.of_not_mem q hmem, touchSession_touched, if_pos hqp]
        omega

/-! ## What acts do to time -/

theorem addObject_sameTime (p : SessionPtr) (o : ObjPtr) :
    w.SameTime (ipcServerDomainAddObject p o w).2 := by
  cases hindex : w.freeIndex p with
  | none =>
    rw [domainAddObject_full hindex]
    exact .refl w
  | some i =>
    rw [domainAddObject_free hindex]
    refine ⟨rfl, fun q => ?_, fun q hq => ?_⟩
    · unfold World.touched
      rw [newObject_session]
      split_ifs with hqp
      · rw [hqp]
      · rfl
    · rw [newObject_session]
      split_ifs with hqp
      · rw [hqp] at hq
        exact hq
      · exact hq

theorem create_sameTime (srv : Nat) (port : Handle) :
    w.SameTime (ipcServerCreate srv port w).2 := by
  rw [ipcServerCreate_run]
  refine ⟨rfl, fun p => ?_, fun p hp => ?_⟩
  · unfold World.touched World.invalidated
    dsimp only
    split_ifs <;> rfl
  · unfold World.invalidated
    dsimp only
    split_ifs
    · rfl
    · exact hp

/-- **What an act does to time**: nothing, or it makes a session with the newest timestamp. -/
theorem ServerAct.time (act : ServerAct) (hact : act.isTouch = false) (w : World)
    (births : SessionPtr → Nat) :
    (w.SameTime (act.run w).2 ∧ act.births w births = births) ∨
      ∃ p serverSide clientSide o, (act.run w).2 = w.newSession p serverSide clientSide o ∧
        act.births w births = Function.update births p (births p + 1) := by
  cases act with
  | create srv port =>
    left
    exact ⟨create_sameTime w srv port, rfl⟩
  | createSession srv serverSide clientSide object =>
    rw [ServerAct.run, discard_snd]
    unfold ServerAct.births
    dsimp only
    cases hslot : w.freeSlot srv with
    | none =>
      rw [createSession_full hslot]
      exact .inl ⟨⟨rfl, fun _ => rfl, fun _ => id⟩, rfl⟩
    | some p =>
      rw [createSession_free hslot]
      exact .inr ⟨p, _, _, _, rfl, rfl⟩
  | addObject p object =>
    left
    rw [ServerAct.run, discard_snd]
    exact ⟨addObject_sameTime w p (.user object), rfl⟩
  | take p r tls =>
    left
    exact ⟨.of_moved (takeMessage_moved w p r tls), rfl⟩
  | reply o rep =>
    left
    exact ⟨.of_moved (reply_moved w o rep), rfl⟩
  | invalidate p =>
    exact .inl ⟨World.SameTime.setSession rfl fun _ => rfl, rfl⟩
  | closeHandle h => exact .inl ⟨⟨rfl, fun _ => rfl, fun _ => id⟩, rfl⟩
  | closeObject object => exact .inl ⟨⟨rfl, fun _ => rfl, fun _ => id⟩, rfl⟩
  | touch p => cases hact

/-! ## Step by step -/

/-- What iterations must keep to: the sort leaves the sessions in the order of their timestamps. And
the timestamps are not about to overflow. -/
def ProcessAct.Ordered (act : ProcessAct) : Prop :=
  s.world.clock + 63 < 2 ^ 64 ∧
    match act with
    | .iteration _ it => it.order.Pairwise fun p q => s.world.touched p ≤ s.world.touched q
    | .act _ => True

structure ProcessRun.Inv (s : ProcessRun) : Prop where
  live : ∀ p, (s.world.session p).state ≠ .invalid → s.world.touched p < s.world.clock
  /-- A session that waits since another one was served is of the server and not newer than the
  one in its slot; and if it is that one, it has the older timestamp. -/
  waiting : ∀ srv a b, Turn.Waiting a b (s.turns srv) →
    b.1.server = srv ∧ b.2 ≤ s.births b.1 ∧ (s.births b.1 = b.2 →
      s.world.touched b.1 < s.world.touched a.1 ∧ s.world.touched b.1 < s.world.clock)
  fair : ∀ srv, Turn.Fair (s.turns srv)

section Step

variable {s : ProcessRun}

theorem ProcessRun.Inv.sameTime (h : s.Inv) {w : World} (hsame : s.world.SameTime w) :
    ProcessRun.Inv ⟨w, s.births, s.turns⟩ := by
  refine ⟨fun p hp => ?_, fun srv a b hwaiting => ?_, h.fair⟩
  · rw [hsame.touched, hsame.clock]
    exact h.live p (mt (hsame.invalid p) hp)
  · rw [hsame.touched, hsame.touched, hsame.clock]
    exact h.waiting srv a b hwaiting

theorem ProcessRun.Inv.newSession (h : s.Inv) (hclock : s.world.clock + 63 < 2 ^ 64)
    (p : SessionPtr) :
    ProcessRun.Inv ⟨s.world.newSession p serverSide clientSide o,
      Function.update s.births p (s.births p + 1), s.turns⟩ := by
  have hclock' : (s.world.newSession p serverSide clientSide o).clock = s.world.clock + 1 :=
    newSession_clock (by omega)
  refine ⟨fun q hq => ?_, fun srv a b hwaiting => ?_, h.fair⟩
  · rw [hclock', newSession_touched]
    split_ifs with hqp
    · omega
    · rw [newSession_session, if_neg hqp] at hq
      have hlive := h.live q hq
      omega
  · obtain ⟨hserver, hbirths, hold⟩ := h.waiting srv a b hwaiting
    dsimp only
    rw [newSession_touched, newSession_touched]
    by_cases hbp : b.1 = p
    · -- the slot has another session now
      rw [hbp] at hbirths ⊢
      rw [update_self]
      exact ⟨hbp ▸ hserver, by omega, fun heq => by omega⟩
    · rw [update_of_ne hbp]
      split_ifs <;> omega

theorem ProcessRun.Inv.act (h : s.Inv) {a : ServerAct} (hpossible : (ProcessAct.act a).Possible s)
    (hordered : (ProcessAct.act a).Ordered s) : ((ProcessAct.act a).exec s).Inv := by
  unfold ProcessAct.exec
  dsimp only
  rcases a.time hpossible s.world s.births with ⟨hsame, hbirths⟩ | ⟨p, _, _, o, hrun, hbirths⟩
  · rw [hbirths]
    exact h.sameTime hsame
  · rw [hrun, hbirths]
    exact h.newSession hordered.1 p

theorem ProcessRun.mem_ready :
    b ∈ (s.turn srv it).ready ↔
      b.1 ∈ s.world.listening srv ∧ it.signalled b.1 = true ∧ s.births b.1 = b.2 := by
  obtain ⟨p, n⟩ := b
  unfold ProcessRun.turn ProcessRun.id
  simp [and_assoc]

theorem ProcessRun.served_eq_some :
    (s.turn srv it).served = some a ↔
      (processWait it s.world).1 = .receive a.1 ∧ s.births a.1 = a.2 := by
  obtain ⟨p, n⟩ := a
  unfold ProcessRun.turn ProcessRun.id
  cases (processWait it s.world).1 with
  | ended r => simp [Waited.served]
  | accept => simp [Waited.served]
  | receive q =>
    simp only [Waited.served, Option.map_some, Option.some.injEq, Prod.mk.injEq, Waited.receive.injEq]
    constructor
    · rintro ⟨rfl, hn⟩
      exact ⟨rfl, hn⟩
    · rintro ⟨rfl, hn⟩
      exact ⟨rfl, hn⟩

/-- **What an iteration does**: it touches the first sessions of the order, the one it serves among
them, and no other that is ready. -/
theorem ProcessRun.iteration_touches (hpossible : it.Possible srv s.world)
    (hclock : s.world.clock + 63 < 2 ^ 64) :
    ∃ first rest, it.order = first ++ rest ∧ s.world.Touched first (processWait it s.world).2 ∧
      (∀ p ∈ first, p.server = srv) ∧
      (∀ a, (s.turn srv it).served = some a → a.1 ∈ first) ∧
      ∀ b ∈ (s.turn srv it).ready, (s.turn srv it).served ≠ some b → b.1 ∈ rest ∧ b.1 ∉ first := by
  obtain ⟨hperm, hfailure⟩ := Iteration.possible_iff.1 hpossible
  obtain ⟨first, rest, horder, hworld, hsignalled, hserved⟩ := processWait_spec hfailure s.world
  have hlength : first.length ≤ 63 := by
    have hall := s.world.length_listening srv
    rw [← hperm.length_eq, horder, length_append] at hall
    omega
  refine ⟨first, rest, horder, ?_, fun p hp => ?_, fun a ha => ?_, fun b hb hnot => ?_⟩
  · rw [hworld]
    exact touchSessions_touched (by omega)
  · have hmem : p ∈ it.order := horder ▸ mem_append_left rest hp
    exact (mem_listening.1 (hperm.mem_iff.1 hmem)).1
  · exact hserved a.1 (ProcessRun.served_eq_some.1 ha).1
  · obtain ⟨hlisten, hsignal, hbirths⟩ := ProcessRun.mem_ready.1 hb
    have hfirst : b.1 ∉ first := fun hmem =>
      hnot (ProcessRun.served_eq_some.2 ⟨hsignalled b.1 hmem hsignal, hbirths⟩)
    have hmem : b.1 ∈ first ++ rest := horder ▸ hperm.mem_iff.2 hlisten
    exact ⟨(mem_append.1 hmem).resolve_left hfirst, hfirst⟩

theorem ProcessRun.Inv.ready_lt (h : s.Inv) (hb : b ∈ (s.turn srv it).ready) :
    s.world.touched b.1 < s.world.clock := by
  obtain ⟨hlisten, -, -⟩ := ProcessRun.mem_ready.1 hb
  refine h.live b.1 ?_
  rw [(mem_listening.1 hlisten).2]
  decide

/-- An iteration serves nobody that another session waits behind: the other one comes first. -/
theorem ProcessRun.Inv.not_waiting (h : s.Inv) (hpossible : it.Possible srv s.world)
    (hordered : (ProcessAct.iteration srv it).Ordered s) (ha : (s.turn srv it).served = some a)
    (hb : b ∈ (s.turn srv it).ready) : ¬ Turn.Waiting a b (s.turns srv) := by
  intro hwaiting
  obtain ⟨hclock, hsorted⟩ := hordered
  obtain ⟨first, rest, horder, -, -, hserved, huntouched⟩ :=
    ProcessRun.iteration_touches hpossible hclock
  obtain ⟨-, -, hbirths⟩ := ProcessRun.mem_ready.1 hb
  obtain ⟨-, -, hold⟩ := h.waiting srv a b hwaiting
  obtain ⟨holder, -⟩ := hold hbirths
  by_cases hba : a = b
  · rw [hba] at holder
    exact lt_irrefl _ holder
  · have hrest := (huntouched b hb (by rw [ha]; exact fun heq => hba (Option.some.inj heq))).1
    dsimp only at hsorted
    rw [horder] at hsorted
    have hle := (pairwise_append.1 hsorted).2.2 a.1 (hserved a ha) b.1 hrest
    exact absurd holder (not_lt.2 hle)

/-- Who waits after an iteration has not been touched by it, and is older than the one served. -/
theorem ProcessRun.Inv.waiting_iteration (h : s.Inv) (hpossible : it.Possible srv s.world)
    (hclock : s.world.clock + 63 < 2 ^ 64)
    (hwaiting : Turn.Waiting a b (s.turn srv it :: s.turns srv)) :
    b.1.server = srv ∧ s.births b.1 = b.2 ∧
      (processWait it s.world).2.touched b.1 < (processWait it s.world).2.touched a.1 ∧
      (processWait it s.world).2.touched b.1 < (processWait it s.world).2.clock := by
  obtain ⟨hb, hnot, hsince⟩ := hwaiting
  obtain ⟨first, rest, -, htouched, -, hserved, huntouched⟩ :=
    ProcessRun.iteration_touches hpossible hclock
  obtain ⟨hlisten, -, hbirths⟩ := ProcessRun.mem_ready.1 hb
  have hlt := h.ready_lt hb
  have hclock_le := htouched.clock_le
  rw [htouched.of_not_mem b.1 (huntouched b hb hnot).2]
  refine ⟨(mem_listening.1 hlisten).1, hbirths, ?_, by omega⟩
  by_cases hfirst : a.1 ∈ first
  · have ha := (htouched.of_mem a.1 hfirst).1
    omega
  · rcases hsince with ha | hwaiting
    · exact absurd (hserved a ha) hfirst
    · rw [htouched.of_not_mem a.1 hfirst]
      exact ((h.waiting srv a b hwaiting).2.2 hbirths).1

theorem ProcessRun.Inv.waiting_other (h : s.Inv) {srv' : Nat} (hne : srv' ≠ srv)
    (hpossible : it.Possible srv s.world) (hclock : s.world.clock + 63 < 2 ^ 64)
    (hwaiting : Turn.Waiting a b (s.turns srv')) :
    b.1.server = srv' ∧ b.2 ≤ s.births b.1 ∧ (s.births b.1 = b.2 →
      (processWait it s.world).2.touched b.1 < (processWait it s.world).2.touched a.1 ∧
      (processWait it s.world).2.touched b.1 < (processWait it s.world).2.clock) := by
  obtain ⟨hserver, hbirths, hold⟩ := h.waiting srv' a b hwaiting
  obtain ⟨first, rest, -, htouched, hfirst, -, -⟩ := ProcessRun.iteration_touches hpossible hclock
  have hclock_le := htouched.clock_le
  have hb : b.1 ∉ first := fun hmem => hne (hserver.symm.trans (hfirst b.1 hmem))
  refine ⟨hserver, hbirths, fun heq => ?_⟩
  obtain ⟨holder, hbelow⟩ := hold heq
  rw [htouched.of_not_mem b.1 hb]
  refine ⟨?_, by omega⟩
  by_cases ha : a.1 ∈ first
  · have ha := (htouched.of_mem a.1 ha).1
    omega
  · rw [htouched.of_not_mem a.1 ha]
    exact holder

theorem ProcessRun.Inv.iteration (h : s.Inv) (hpossible : it.Possible srv s.world)
    (hordered : (ProcessAct.iteration srv it).Ordered s) :
    ((ProcessAct.iteration srv it).exec s).Inv := by
  refine ⟨fun p hp => ?_, fun srv' a b hwaiting => ?_, fun srv' => ?_⟩
  · obtain ⟨first, rest, -, htouched, -, -, -⟩ :=
      ProcessRun.iteration_touches hpossible hordered.1
    have hclock_le := htouched.clock_le
    show (processWait it s.world).2.touched p < (processWait it s.world).2.clock
    by_cases hmem : p ∈ first
    · exact (htouched.of_mem p hmem).2
    · have hlive := h.live p (htouched.state p ▸ hp)
      rw [htouched.of_not_mem p hmem]
      omega
  · unfold ProcessAct.exec at hwaiting ⊢
    dsimp only at hwaiting ⊢
    by_cases hsrv : srv' = srv
    · subst hsrv
      rw [update_self] at hwaiting
      obtain ⟨hserver, hbirths, htimes⟩ := h.waiting_iteration hpossible hordered.1 hwaiting
      exact ⟨hserver, hbirths.ge, fun _ => htimes⟩
    · rw [update_of_ne hsrv] at hwaiting
      exact h.waiting_other hsrv hpossible hordered.1 hwaiting
  · unfold ProcessAct.exec
    dsimp only
    by_cases hsrv : srv' = srv
    · subst hsrv
      rw [update_self]
      exact ⟨fun a b ha hb => h.not_waiting hpossible hordered ha hb, h.fair srv'⟩
    · rw [update_of_ne hsrv]
      exact h.fair srv'

end Step

/-- The runs in which every sort leaves the sessions in the order of their timestamps. -/
def orderedSystem : System ProcessRun ProcessAct :=
  processSystem.restrict fun s act _ => act.Ordered s

theorem processInv_of_reachable {s : ProcessRun} (hs : orderedSystem.Reachable s) : s.Inv := by
  refine hs.invariant (fun s hinit => ?_) fun s act s' h hstep => ?_
  · obtain ⟨hinvalid, hturns⟩ := hinit
    refine ⟨fun p hp => absurd (hinvalid p) hp, fun srv a b hwaiting => ?_, fun srv => ?_⟩
    · rw [hturns] at hwaiting
      exact hwaiting.elim
    · rw [hturns]
      trivial
  · obtain ⟨⟨hpossible, rfl⟩, hordered⟩ := hstep
    cases act with
    | iteration srv it => exact h.iteration hpossible hordered
    | act a => exact h.act hpossible hordered

/-! ## The result -/

/-- **No starvation.** In a run in which every sort leaves the sessions in the order of their
timestamps, let `i` and `j` be two iterations of the loop of a server, `i` the earlier one, in which
session `a` is received from. Another session that is `LISTENING` and signalled in all iterations
from `i` to `j` is received from in between. -/
theorem no_starvation {s : ProcessRun} (hs : orderedSystem.Reachable s) {srv : Nat}
    {before between after : List (Turn SessionId)} {i j : Turn SessionId}
    (hturns : s.turns srv = after ++ j :: (between ++ i :: before)) {a b : SessionId}
    (hi : i.served = some a) (hj : j.served = some a) (hne : b ≠ a) (hbi : b ∈ i.ready)
    (hbj : b ∈ j.ready) (hb : ∀ t ∈ between, b ∈ t.ready) : ∃ t ∈ between, t.served = some b := by
  have hfair := (processInv_of_reachable hs).fair srv
  rw [hturns] at hfair
  exact hfair.served_between hi hj hne hbi hbj hb

/-! ## Two busy sessions -/

instance Iteration.decidablePossible (it : Iteration) (srv : Nat) (w : World) :
    Decidable (it.Possible srv w) :=
  decidable_of_iff _ Iteration.possible_iff.symm

instance ProcessAct.decidablePossible (s : ProcessRun) :
    (act : ProcessAct) → Decidable (act.Possible s)
  | .iteration srv it => inferInstanceAs (Decidable (it.Possible srv s.world))
  | .act a => inferInstanceAs (Decidable (a.isTouch = false))

instance ProcessAct.decidableOrdered (s : ProcessRun) :
    (act : ProcessAct) → Decidable (act.Ordered s)
  | .iteration _ it =>
    inferInstanceAs (Decidable (_ ∧ it.order.Pairwise fun p q => s.world.touched p ≤ s.world.touched q))
  | .act _ => inferInstanceAs (Decidable (_ ∧ True))

/-- A process before its first server. -/
def ProcessRun.start : ProcessRun := ⟨noSessions, fun _ => 0, fun _ => []⟩

/-- The state after some acts. -/
def ProcessRun.after (acts : List ProcessAct) : ProcessRun :=
  System.after (fun act s => ProcessAct.exec s act) ProcessRun.start acts

theorem processSystem_reachable {acts : List ProcessAct}
    (h : System.Allowed (fun act s => ProcessAct.exec s act) (fun s act => act.Possible s)
      ProcessRun.start acts) : processSystem.Reachable (ProcessRun.after acts) :=
  System.reachable_after (fun _ _ hpossible => ⟨hpossible, rfl⟩)
    (.init ⟨fun _ => rfl, fun _ => rfl⟩) h

theorem orderedSystem_reachable {acts : List ProcessAct}
    (h : System.Allowed (fun act s => ProcessAct.exec s act)
      (fun s act => act.Possible s ∧ act.Ordered s) ProcessRun.start acts) :
    orderedSystem.Reachable (ProcessRun.after acts) :=
  System.reachable_after (fun _ _ hboth => ⟨⟨hboth.1, rfl⟩, hboth.2⟩)
    (.init ⟨fun _ => rfl, fun _ => rfl⟩) h

/-- A server with a session in its first slot and one in its second. -/
def twoClients : List ProcessAct :=
  [.act (.create 0 0x10), .act (.createSession 0 0x20 0 1), .act (.createSession 0 0x21 0 2)]

/-- Both sessions are signalled, and the sort leaves the given order. -/
def busyIteration (order : List SessionPtr) : Iteration where
  stack := fun _ => 0
  address := fun p => BitVec.ofNat 64 p.slot
  order := order
  port := false
  signalled := fun _ => true
  failure := none
  accepted := .error resultTimeout
  objectFactory := pure (.error resultTimeout)
  r := resultOk
  tls := bareMessage 4#32
  callbacks := quiet

/-- An iteration with the sessions in an order; the first one is served, and its object `o`
replies. -/
def busyTurn (o : Nat) : List ProcessAct :=
  [.iteration 0 (busyIteration [p, q]), .act (.take p resultOk (bareMessage 4#32)),
    .act (.reply (.user o)
      ⟨ipcDefaultResponse, fun _ => 0, fun _ => 0, fun _ => 0, resultTimeout⟩)]

/-- The sessions take turns. -/
def takingTurns : List ProcessAct :=
  twoClients ++ busyTurn ⟨0, 0⟩ ⟨0, 1⟩ 1 ++ busyTurn ⟨0, 1⟩ ⟨0, 0⟩ 2 ++ busyTurn ⟨0, 0⟩ ⟨0, 1⟩ 1

/-- An iteration in which both sessions are ready. -/
def bothReady (p : SessionPtr) : Turn SessionId := ⟨[(⟨0, 0⟩, 1), (⟨0, 1⟩, 1)], some (p, 1)⟩

theorem takingTurns_served :
    (ProcessRun.after takingTurns).turns 0 =
      [bothReady ⟨0, 0⟩, bothReady ⟨0, 1⟩, bothReady ⟨0, 0⟩] ∧
    ∃ t ∈ [bothReady ⟨0, 1⟩], t.served = some (⟨0, 1⟩, 1) := by
  have hturns : (ProcessRun.after takingTurns).turns 0 =
      [] ++ bothReady ⟨0, 0⟩ :: ([bothReady ⟨0, 1⟩] ++ bothReady ⟨0, 0⟩ :: []) := by decide +kernel
  have hreachable : orderedSystem.Reachable (ProcessRun.after takingTurns) :=
    orderedSystem_reachable (by decide +kernel)
  exact ⟨hturns, no_starvation hreachable hturns rfl rfl (by decide) (by decide) (by decide)
    (by decide)⟩

/-- The sort leaves the sessions in the order of their slots. -/
def slotOrder : List ProcessAct :=
  twoClients ++ busyTurn ⟨0, 0⟩ ⟨0, 1⟩ 1 ++ busyTurn ⟨0, 0⟩ ⟨0, 1⟩ 1

/-- The session in the first slot is served twice in a row while the other one is ready. -/
theorem slotOrder_starves : processSystem.Reachable (ProcessRun.after slotOrder) ∧
    (ProcessRun.after slotOrder).turns 0 = [bothReady ⟨0, 0⟩, bothReady ⟨0, 0⟩] :=
  ⟨processSystem_reachable (by decide +kernel), by decide +kernel⟩

end LibTransistor
