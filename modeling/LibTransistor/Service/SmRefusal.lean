import LibTransistor.Lib.Runs
import LibTransistor.Service.Counts

/-!
# `sm` before it is initialised and after it is finalised

The functions of `sm` look at the session of `sm_object` to find out whether `sm` is initialised;
the count of initialisations says so too. The two agree until the first finalisation that closes the
session, because it stays in the variable, or until a failed `svcConnectToNamedPort` leaves anything
but 0 there (`sm_refuses_iff`).
-/

namespace LibTransistor.Service

open Fallible Ledger

/-! ## The functions -/

section

variable (env : Env)

/-- `sm_register_service`: the port. -/
def smRegisterService (name : List Byte) : ServiceM Handle := do
  let s ← get
  failIf ((s.object .sm).session = 0) Err.smNotInitialized
  failIf (8 < name.length) Err.smServiceNameTooLong
  ipcSendHandle env (s.object .sm)

/-- `sm_unregister_service`. -/
def smUnregisterService (name : List Byte) : ServiceM Unit := do
  let s ← get
  failIf ((s.object .sm).session = 0) Err.smNotInitialized
  failIf (8 < name.length) Err.smServiceNameTooLong
  discard (ipcSend env .other (s.object .sm))

end

/-- No function of `sm` does anything, not even send a request. -/
structure Refuses (s : State) : Prop where
  get : ∀ env out name requireOverride,
    smGetServiceEx env out name requireOverride s = .error Err.smNotInitialized s
  register : ∀ env name, smRegisterService env name s = .error Err.smNotInitialized s
  unregister : ∀ env name, smUnregisterService env name s = .error Err.smNotInitialized s

theorem refuses_iff {s : State} : Refuses s ↔ (s.object .sm).session = 0 := by
  constructor
  · intro h
    by_contra hsession
    -- a name of nine bytes gets past the first check
    have hlong : smUnregisterService Env.obliging (List.replicate 9 0) s =
        .error Err.smServiceNameTooLong s := by
      unfold smUnregisterService
      rw [get_bind_run, failIf_bind_of_not hsession]
      exact failIf_bind_of (by decide)
    have hrefused := h.unregister Env.obliging (List.replicate 9 0)
    rw [hlong] at hrefused
    exact absurd (EStateM.Result.error.inj hrefused).1 (by decide)
  · intro h
    refine ⟨fun env out name requireOverride => ?_, fun env name => ?_, fun env name => ?_⟩
    · unfold smGetServiceEx
      rw [get_bind_run]
      exact failIf_bind_of h
    · unfold smRegisterService
      rw [get_bind_run]
      exact failIf_bind_of h
    · unfold smUnregisterService
      rw [get_bind_run]
      exact failIf_bind_of h

/-! ## Runs -/

/-- A call of a client, with what the kernel does during it. -/
inductive SmCall
  | init (env : Env)
  | finalize

namespace SmCall

/-- The state in which a call returns. -/
def exec : SmCall → State → State
  | .init env, s => final (smInit env s)
  | .finalize, s => final (smFinalize s)

/-- `sm` is finalised only after it was initialised. -/
def Legal (s : State) : SmCall → Prop
  | .init _ => True
  | .finalize => 0 < s.count .sm

/-- What `svcConnectToNamedPort` returns if it is called in `s`: the result, and the word that the
stub stores in the session. -/
def connected (env : Env) (s : State) : ResultT × Handle := env.create s.clock (held s.ledger)

/-- A connection that fails leaves no session, and no finalisation is the last one. -/
def Harmless (s : State) : SmCall → Prop
  | .init env => s.count .sm = 0 → (connected env s).1 ≠ resultOk → (connected env s).2 = 0
  | .finalize => s.count .sm ≠ 1

instance decidableLegal (s : State) : (call : SmCall) → Decidable (call.Legal s)
  | .init _ => inferInstanceAs (Decidable True)
  | .finalize => inferInstanceAs (Decidable (0 < s.count .sm))

instance decidableHarmless (s : State) : (call : SmCall) → Decidable (call.Harmless s)
  | .init env => inferInstanceAs (Decidable
      (s.count .sm = 0 → (connected env s).1 ≠ resultOk → (connected env s).2 = 0))
  | .finalize => inferInstanceAs (Decidable (s.count .sm ≠ 1))

end SmCall

/-- The functions of `sm` refuse their service when the count is 0. -/
def RefusesAtZero (s : State) : Prop := s.count .sm = 0 → Refuses s

/-- While `sm` is initialised, the session is one. -/
structure SmInv (s : State) : Prop where
  count : 0 ≤ s.count .sm
  session : 0 < s.count .sm → (s.object .sm).session ≠ 0

section Steps

variable {s : State}

theorem smConnect_session (env : Env) (s : State) :
    Ends (smConnect env s)
      (fun _ t => (SmCall.connected env s).1 = resultOk ∧ t.count = s.count ∧
        (t.object .sm).session = (SmCall.connected env s).2)
      (fun _ t => (SmCall.connected env s).1 ≠ resultOk ∧ t.count = s.count ∧
        (t.object .sm).session = (SmCall.connected env s).2) := by
  have hobject : Function.update s.object .sm
      ⟨-1, .session (SmCall.connected env s).2, (s.object .sm).isBorrowed⟩ .sm =
      ⟨-1, .session (SmCall.connected env s).2, (s.object .sm).isBorrowed⟩ :=
    Function.update_self ..
  have hsession := congrArg ServiceObject.session hobject
  unfold smConnect
  rw [bind_of_ok (newHandle_run env s)]
  exact Ends.failIf_bind (fun hr => ⟨hr, rfl, hsession⟩) fun hr => ⟨not_not.1 hr, rfl, hsession⟩

theorem init_of_zero (env : Env) (h : s.count .sm = 0) :
    ((SmCall.init env).exec s).count .sm =
        (if (SmCall.connected env s).1 = resultOk then 1 else 0) ∧
      (((SmCall.init env).exec s).object .sm).session = (SmCall.connected env s).2 := by
  have hcount : (s.counted .sm 1).count .sm = 1 := by
    rw [State.counted_self, h]
    rfl
  have hends : Ends (smInit env s)
      (fun _ t => (SmCall.connected env s).1 = resultOk ∧ t.count .sm = 1 ∧
        (t.object .sm).session = (SmCall.connected env s).2)
      (fun _ t => (SmCall.connected env s).1 ≠ resultOk ∧ t.count .sm = 0 ∧
        (t.object .sm).session = (SmCall.connected env s).2) := by
    refine initOnce_ends (fun hpos => absurd hpos (by omega)) (fun _ => ?_) ?_
      (F := fun _ t => (SmCall.connected env s).1 ≠ resultOk ∧ t.count .sm = 1 ∧
        (t.object .sm).session = (SmCall.connected env s).2)
    · refine (smConnect_session env (s.counted .sm 1)).imp ?_ ?_
      · rintro - t ⟨hr, ht, hsession⟩
        exact ⟨hr, by rw [ht, hcount], hsession⟩
      · rintro r t ⟨hr, ht, hsession⟩
        exact ⟨hr, by rw [ht, hcount], hsession⟩
    · rintro r t ⟨hr, ht, hsession⟩
      refine ⟨hr, ?_, hsession⟩
      rw [State.counted_self, ht]
      rfl
  show (final (smInit env s)).count .sm = _ ∧ ((final (smInit env s)).object .sm).session = _
  cases hrun : smInit env s with
  | ok a t =>
    rw [hrun] at hends
    rw [if_pos hends.1]
    exact hends.2
  | error r t =>
    rw [hrun] at hends
    rw [if_neg hends.1]
    exact hends.2

theorem init_of_pos (env : Env) (h : 0 < s.count .sm) :
    (SmCall.init env).exec s = s.counted .sm 1 := by
  show final (initOnce .sm (smConnect env) s) = _
  rw [initOnce_run, if_pos h]
  rfl

theorem finalize_run (s : State) :
    (SmCall.finalize.exec s).count .sm = s.count .sm - 1 ∧
      (SmCall.finalize.exec s).object .sm = s.object .sm := by
  obtain ⟨t, hrun, hsame, -⟩ := finalizeOnce_run (closes_ipcClose .sm) .sm s
  have hexec : SmCall.finalize.exec s = t := congrArg final hrun
  rw [hexec, hsame.count, hsame.object .sm List.not_mem_nil]
  exact ⟨rfl, rfl⟩

theorem connected_ne_zero {env : Env} (h : (SmCall.connected env s).1 = resultOk) :
    (SmCall.connected env s).2 ≠ 0 := (env.create_fresh _ _ h).1

theorem SmInv.exec (h : SmInv s) (call : SmCall) (hlegal : call.Legal s) : SmInv (call.exec s) := by
  have hcount := h.count
  cases call with
  | init env =>
    by_cases hpos : 0 < s.count .sm
    · rw [init_of_pos env hpos]
      refine ⟨?_, fun _ => h.session hpos⟩
      rw [State.counted_self]
      omega
    · obtain ⟨hnext, hsession⟩ := init_of_zero env (show s.count .sm = 0 by omega)
      refine ⟨?_, fun hone => ?_⟩
      · rw [hnext]
        split <;> omega
      · rw [hsession]
        refine connected_ne_zero ?_
        by_contra hr
        rw [hnext, if_neg hr] at hone
        omega
  | finalize =>
    have hlegal' : 0 < s.count .sm := hlegal
    obtain ⟨hnext, hobject⟩ := finalize_run s
    refine ⟨by omega, fun _ => ?_⟩
    rw [hobject]
    exact h.session hlegal'

theorem refusesAtZero_exec_iff (h : SmInv s) (call : SmCall) (hlegal : call.Legal s) :
    RefusesAtZero (call.exec s) ↔ call.Harmless s := by
  unfold RefusesAtZero
  rw [refuses_iff]
  cases call with
  | init env =>
    show _ ↔ (s.count .sm = 0 → _)
    by_cases hpos : 0 < s.count .sm
    · rw [init_of_pos env hpos, State.counted_self]
      exact iff_of_true (fun hzero => by omega) fun hzero => by omega
    · have hzero : s.count .sm = 0 := by
        have hcount := h.count
        omega
      obtain ⟨hnext, hsession⟩ := init_of_zero env hzero
      rw [hnext, hsession, forall_prop_of_true hzero]
      by_cases hr : (SmCall.connected env s).1 = resultOk
      · rw [if_pos hr]
        exact iff_of_true (fun hone => absurd hone (by decide)) fun hne => absurd hr hne
      · rw [if_neg hr, forall_prop_of_true rfl, forall_prop_of_true hr]
  | finalize =>
    show _ ↔ s.count .sm ≠ 1
    obtain ⟨hnext, hobject⟩ := finalize_run s
    have hsession := h.session hlegal
    rw [hobject]
    constructor
    · intro hrefuses hone
      exact hsession (hrefuses (by omega))
    · intro hone hzero
      omega

end Steps

/-- **When `sm` refuses.** -/
theorem sm_refuses_iff (config : LoaderConfig) (calls : List SmCall)
    (hlegal : System.Allowed SmCall.exec SmCall.Legal (.initial config) calls) :
    System.Throughout SmCall.exec RefusesAtZero (.initial config) calls ↔
      System.Allowed SmCall.exec SmCall.Harmless (.initial config) calls :=
  System.throughout_iff_allowed (fun _ call h => h.exec call)
    (fun _ call h _ => refusesAtZero_exec_iff h call)
    ⟨Int.le_refl 0, fun h => absurd h (Int.lt_irrefl 0)⟩ (fun _ => refuses_iff.2 rfl) hlegal

/-- The kernel makes no handles. -/
def Env.noHandles : Env := { Env.obliging with
  create := fun _ _ => (1, 0)
  create_fresh := fun _ _ h => absurd h (by decide) }

/-- An initialisation that fails, two that do not, and one finalisation. -/
theorem balanced_refuses : System.Throughout SmCall.exec RefusesAtZero (.initial .zero)
    [.init .noHandles, .init .obliging, .init .obliging, .finalize] := by
  exact (sm_refuses_iff .zero [.init .noHandles, .init .obliging, .init .obliging, .finalize]
    (by decide)).2 (by decide)

/-- The state after one initialisation and one finalisation. -/
def finalized : State :=
  System.after SmCall.exec (.initial .zero) [.init .obliging, .finalize]

/-- The session is closed, and a request is sent on it. -/
theorem finalized_serves :
    finalized.count .sm = 0 ∧ .disposed 1 ∈ finalized.ledger ∧
      finalized.target (finalized.object .sm) = 1 ∧
      (final (smUnregisterService .obliging [] finalized)).clock = finalized.clock + 1 ∧
      ¬ System.Throughout SmCall.exec RefusesAtZero (.initial .zero)
        [.init .obliging, .finalize] := by
  refine ⟨by decide, by decide, by decide, by decide, fun h => ?_⟩
  have hrefuses : Refuses finalized := h _ (List.prefix_refl _) (by decide)
  exact absurd (refuses_iff.1 hrefuses) (by decide)

end LibTransistor.Service
