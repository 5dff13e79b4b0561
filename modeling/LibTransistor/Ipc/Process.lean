import LibTransistor.Ipc.ServerRuns
import LibTransistor.Lib.Qsort

/-!
# The loop of the IPC server

`ipc_server_process` gathers the sessions that are `LISTENING`, sorts them by the time they were
touched last, waits for the port and for all of them, and accepts or receives.

**The sort.** `sessions` is an array of pointers, so `qsort` passes pointers to pointers to
`session_touch_timestamp_compare`, which takes them for pointers to sessions. It compares two words
of the stack behind the array, which do not change when `qsort` moves elements. So `qsort` may leave
the sessions in any order (`sorted_iff_perm`).

**An iteration** (`Iteration`) is given by what the code outside does in it: the order that `qsort`
leaves, which handles are signalled, what the kernel returns, the user's callbacks.
-/

namespace LibTransistor

open Stateful List

/-! ## Sorting -/

/-- Where `last_touch_timestamp` is in an `ipc_server_session_t`, in 8-byte words. -/
def lastTouchTimestampWord : Nat := 557

/-- `session_touch_timestamp_compare`, on a memory of 8-byte words. -/
def sessionTouchTimestampCompare : Qsort.Comparator (BitVec 64) := fun m va vb =>
  let a := m (va + lastTouchTimestampWord)
  let b := m (vb + lastTouchTimestampWord)
  (if a > b then 1 else 0) - (if a < b then 1 else 0)

/-- `sessions`, before the sort. -/
def World.listening (w : World) (srv : Nat) : List SessionPtr :=
  (slots srv).filter fun p => (w.session p).state = .listening

theorem World.mem_listening {w : World} {srv : Nat} {p : SessionPtr} :
    p ∈ w.listening srv ↔ p.server = srv ∧ (w.session p).state = .listening := by
  unfold World.listening
  rw [mem_filter, mem_slots, decide_eq_true_eq]

theorem World.length_listening (w : World) (srv : Nat) : (w.listening srv).length ≤ 63 := by
  refine (length_filter_le _ _).trans ?_
  unfold slots
  rw [length_map, length_finRange]

/-- **The sort.** The comparison function does not look at the array, so the order is any. -/
theorem sorted_iff_perm (w : World) (srv : Nat) (address : SessionPtr → BitVec 64)
    (stack : Mem (BitVec 64)) (order : List SessionPtr) :
    Qsort.SortedBy sessionTouchTimestampCompare address stack (w.listening srv) order ↔
      order.Perm (w.listening srv) := by
  refine Qsort.sortedBy_iff_perm fun ys zs hys hzs i j _ _ => ?_
  -- what is compared lies behind the array
  have hbehind : ∀ ys : List SessionPtr, ys.Perm (w.listening srv) → ∀ i,
      stack.write 0 (ys.map address) (i + lastTouchTimestampWord) =
        stack (i + lastTouchTimestampWord) := by
    intro ys hys i
    have hlength := w.length_listening srv
    rw [← hys.length_eq] at hlength
    refine stack.write_of_ge ?_
    rw [length_map]
    unfold lastTouchTimestampWord
    omega
  unfold sessionTouchTimestampCompare
  simp only [hbehind ys hys, hbehind zs hzs]

/-! ## Waiting -/

/-- What the code outside does in an iteration of the loop. -/
structure Iteration where
  /-- The words of the stack from `sessions` on. -/
  stack : Mem (BitVec 64)
  /-- Where sessions are in memory. -/
  address : SessionPtr → BitVec 64
  /-- `sessions`, after the sort. -/
  order : List SessionPtr
  /-- Whether the port is signalled. -/
  port : Bool
  /-- Whether a session's handle is signalled. -/
  signalled : SessionPtr → Bool
  /-- What `svcWaitSynchronization` returns when it fails. -/
  failure : Option ResultT
  /-- What `svcAcceptSession` returns. -/
  accepted : Except ResultT Handle
  objectFactory : ServerM (Except ResultT Nat)
  /-- What `svcReplyAndReceive` returns, and the message. -/
  r : ResultT
  tls : Mem Word
  callbacks : Callbacks

namespace Iteration

/-- `handles`: the port (`none`) and the sessions. -/
def handles (it : Iteration) : List (Option SessionPtr) := none :: it.order.map some

def isSignalled (it : Iteration) : Option SessionPtr → Bool
  | none => it.port
  | some p => it.signalled p

/-- `svcWaitSynchronization` returns the first handle that is signalled. -/
def wait (it : Iteration) : Except ResultT (Fin it.handles.length) :=
  match it.failure with
  | some r => .error r
  | none =>
    match it.handles.findFinIdx? it.isSignalled with
    | some handleIndex => .ok handleIndex
    | none => .error resultTimeout

/-- The order is one that the sort may leave, and a failure is not a timeout. -/
def Possible (it : Iteration) (srv : Nat) (w : World) : Prop :=
  Qsort.SortedBy sessionTouchTimestampCompare it.address it.stack (w.listening srv) it.order ∧
    it.failure ≠ some resultTimeout

theorem possible_iff {it : Iteration} {srv : Nat} {w : World} : it.Possible srv w ↔
    it.order.Perm (w.listening srv) ∧ it.failure ≠ some resultTimeout := by
  unfold Possible
  rw [sorted_iff_perm]

end Iteration

/-! ## The loop -/

def touchSessions : List SessionPtr → ServerM Unit
  | [] => pure ()
  | p :: ps => do
    touchSession p
    touchSessions ps

/-- What `ipc_server_process` does after the wait. -/
inductive Waited
  | ended (r : ResultT)
  | accept
  | receive (p : SessionPtr)
  deriving DecidableEq

/-- An iteration of the loop up to `ipc_server_accept_session` or `ipc_server_session_receive`. -/
def processWait (it : Iteration) : ServerM Waited := do
  match it.wait with
  | .error r =>
    if r = resultTimeout then
      -- nothing was signalled, so touch all sessions
      touchSessions it.order
      return .ended resultOk
    else return .ended r
  | .ok handleIndex =>
    match it.handles.get handleIndex with
    | none => return .accept
    | some p =>
      touchSessions (it.order.take handleIndex)
      return .receive p

def finishIteration (srv : Nat) (it : Iteration) : Waited → ServerM (Option ResultT)
  | .ended r => return some r
  | .accept => do
    let r ← ipcServerAcceptSession srv it.accepted it.objectFactory
    return if r ≠ resultOk then some r else none
  | .receive p => do
    discard (ipcServerSessionReceive it.callbacks p it.r it.tls)
    return none

/-- An iteration of the loop, with what `ipc_server_process` returns if it ends there. -/
def processIteration (srv : Nat) (it : Iteration) : ServerM (Option ResultT) :=
  processWait it >>= finishIteration srv it

/-- `ipc_server_process`, for as many iterations as are given. -/
def ipcServerProcess (srv : Nat) : List Iteration → ServerM (Option ResultT)
  | [] => return none
  | it :: its => do
    match ← processIteration srv it with
    | some r => return some r
    | none => ipcServerProcess srv its

/-! ## What the wait does -/

section Wait

variable {it : Iteration}

theorem wait_eq_ok {handleIndex : Fin it.handles.length} :
    it.wait = .ok handleIndex ↔
      it.failure = none ∧ it.handles.findFinIdx? it.isSignalled = some handleIndex := by
  unfold Iteration.wait
  cases it.failure with
  | some r => simp
  | none => cases it.handles.findFinIdx? it.isSignalled <;> simp

theorem not_signalled_of_timeout (hfailure : it.failure ≠ some resultTimeout)
    (hwait : it.wait = .error resultTimeout) : ∀ q ∈ it.order, it.signalled q = false := by
  unfold Iteration.wait at hwait
  cases hfail : it.failure with
  | some r =>
    rw [hfail] at hwait
    rw [hfail, Except.error.inj hwait] at hfailure
    exact absurd rfl hfailure
  | none =>
    rw [hfail] at hwait
    cases hfind : it.handles.findFinIdx? it.isSignalled with
    | some handleIndex =>
      rw [hfind] at hwait
      cases hwait
    | none =>
      intro q hq
      rw [findFinIdx?_eq_none_iff] at hfind
      have hmem : some q ∈ it.handles := mem_cons_of_mem _ (mem_map_of_mem hq)
      simpa [Iteration.isSignalled] using hfind (some q) hmem

/-- The sessions up to the one that is received: no other is signalled. -/
theorem take_handleIndex {handleIndex : Fin it.handles.length} {p : SessionPtr}
    (hwait : it.wait = .ok handleIndex) (hp : it.handles.get handleIndex = some p) :
    p ∈ it.order.take handleIndex ∧
      ∀ q ∈ it.order.take handleIndex, it.signalled q = true → q = p := by
  obtain ⟨-, hfind⟩ := wait_eq_ok.1 hwait
  obtain ⟨-, hfirst⟩ := findFinIdx?_eq_some_iff.1 hfind
  obtain ⟨index, hindex⟩ := handleIndex
  cases index with
  | zero => cases hp
  | succ k =>
    have hk : k < it.order.length := by simpa [Iteration.handles] using hindex
    have hpk : it.order[k] = p := by simpa [Iteration.handles] using hp
    refine ⟨mem_take_iff_getElem.2 ⟨k, by simp [hk], hpk⟩, fun q hq hsignalled => ?_⟩
    obtain ⟨j, hj, rfl⟩ := mem_take_iff_getElem.1 hq
    have hjk : j ≤ k := by simp at hj; omega
    rcases Nat.lt_or_eq_of_le hjk with hlt | rfl
    · have hbefore := hfirst ⟨j + 1, by omega⟩ (Fin.mk_lt_mk.2 (by omega))
      simp [Iteration.handles, Iteration.isSignalled, hsignalled] at hbefore
    · exact hpk

/-- **What the wait does**: it touches the first sessions of the order, up to the one that is
received; of these only that one is signalled. -/
theorem processWait_spec (hfailure : it.failure ≠ some resultTimeout) (w : World) :
    ∃ first rest, it.order = first ++ rest ∧
      (processWait it w).2 = (touchSessions first w).2 ∧
      (∀ q ∈ first, it.signalled q = true → (processWait it w).1 = .receive q) ∧
      ∀ p, (processWait it w).1 = .receive p → p ∈ first := by
  unfold processWait
  cases hwait : it.wait with
  | error r =>
    dsimp only
    by_cases hr : r = resultTimeout
    · subst hr
      refine ⟨it.order, [], (append_nil _).symm, rfl, fun q hq hsignalled => ?_,
        fun p hp => nomatch hp⟩
      rw [not_signalled_of_timeout hfailure hwait q hq] at hsignalled
      cases hsignalled
    · rw [if_neg hr]
      exact ⟨[], it.order, rfl, rfl, fun q hq => (nomatch hq), fun p hp => nomatch hp⟩
  | ok handleIndex =>
    dsimp only
    cases hp : it.handles.get handleIndex with
    | none => exact ⟨[], it.order, rfl, rfl, fun q hq => (nomatch hq), fun p hp => nomatch hp⟩
    | some p =>
      obtain ⟨hmem, honly⟩ := take_handleIndex hwait hp
      refine ⟨it.order.take handleIndex, it.order.drop handleIndex,
        (take_append_drop _ _).symm, rfl, fun q hq hsignalled => ?_, fun q hq => ?_⟩
      · rw [honly q hq hsignalled]
        rfl
      · cases hq
        exact hmem

end Wait

end LibTransistor
