import LibTransistor.Lib.Runs
import LibTransistor.Service.Bodies
import LibTransistor.Service.Counts

/-!
# The use of `sm` is balanced

Ten modules need `sm` while they initialise. Whatever else happens in one of these initialisations,
it leaves the count of `sm` as it was, and a session of `sm` that it opens is closed once before it
returns (`init_balances_sm`).

This holds in every state that initialisations and finalisations lead to, also when more are
finalised than were initialised. What it takes is `Clean`: the object of `sm` is never a borrowed
one, and the handle of a domain is `0` if the service that would become the domain is overridden,
for it is closed also if the service was refused.
-/

namespace LibTransistor.Service

open Fallible Ledger List

variable {m : Module} {x body : ServiceM Unit}

variable {env : Env} {s t : State}

/-! ## States that calls lead to -/

/-- A call of a client. -/
inductive Call
  | init (i : Init) (env : Env)
  | finalize (m : Module) (env : Env)

/-- The state in which a call returns. -/
def Call.exec : Call → State → State
  | .init i env, s => final (i.run env s)
  | .finalize m env, s => final (m.finalize env s)

/-- Calls in any order. -/
def callSystem (config : LoaderConfig) : System State Call where
  init s := s = .initial config
  step s call s' := s' = call.exec s

/-- What every call keeps. -/
structure Clean (s : State) : Prop where
  borrowed : (s.object .sm).isBorrowed = false
  vi : Overridden s.config (serviceName ['v', 'i', ':', 'm']) → s.handle .viDomain = 0
  am : Overridden s.config (serviceName ['a', 'p', 'p', 'l', 'e', 't', 'A', 'E']) →
    s.handle .amDomain = 0

namespace Clean

theorem of_writes (h : Clean s) (m : Module) (hconfig : t.config = s.config)
    (hsm : (t.object .sm).isBorrowed = (s.object .sm).isBorrowed)
    (hhandle : ∀ v ∉ m.writes s.config, t.handle v = s.handle v) : Clean t where
  borrowed := hsm.trans h.borrowed
  vi hname := by
    rw [hconfig] at hname
    refine (hhandle .viDomain ?_).trans (h.vi hname)
    cases m <;> simp [Module.writes, hname]
  am hname := by
    rw [hconfig] at hname
    refine (hhandle .amDomain ?_).trans (h.am hname)
    cases m <;> simp [Module.writes, hname]

theorem of_same (h : Clean s) (hconfig : t.config = s.config)
    (hsm : (t.object .sm).isBorrowed = (s.object .sm).isBorrowed)
    (hhandle : t.handle = s.handle) : Clean t :=
  h.of_writes .sm hconfig hsm fun v _ => congrFun hhandle v

theorem unchanged (h : Clean s) (hsame : Same [] [] s t) : Clean t :=
  h.of_same hsame.config (congrArg _ (hsame.object .sm not_mem_nil)) hsame.handle_eq

theorem of_opens (h : Clean s) (hm : m ≠ .sm) (hsame : Same m.objects (m.writes s.config) s t) :
    Clean t :=
  h.of_writes m hsame.config (congrArg _ (hsame.object .sm (m.sm_not_mem_objects hm))) hsame.handle

theorem of_hid (h : Clean s) (hsame : Same [] [.sharedMemory] s t) : Clean t where
  borrowed := (congrArg _ (hsame.object .sm not_mem_nil)).trans h.borrowed
  vi hname := (hsame.handle .viDomain (by decide)).trans (h.vi (hsame.config ▸ hname))
  am hname := (hsame.handle .amDomain (by decide)).trans (h.am (hsame.config ▸ hname))

end Clean

/-! ## Every call keeps clean -/

theorem keeps_leaves {α : Type} {x : ServiceM α} (hx : Leaves State.accounts x) :
    Keeps Clean x := by
  refine .of_leaves hx fun s t hst hs => ?_
  simp only [State.accounts, Prod.mk.injEq] at hst
  obtain ⟨hconfig, -, hobject, hhandle, -⟩ := hst
  exact hs.of_same hconfig (congrArg _ (congrFun hobject .sm)) hhandle

theorem keeps_quiet {α : Type} {x : ServiceM α} (hx : Quiet x) : Keeps Clean x :=
  keeps_leaves hx.accounts

theorem keeps_closes {own : Vars → List Handle} (hx : Closes x own) : Keeps Clean x := by
  intro s hs
  obtain ⟨t, hrun, hsame, -⟩ := hx s
  rw [hrun]
  exact hs.unchanged hsame

theorem keeps_opens (hm : m ≠ .sm) (hx : ∀ s, Clean s → m.Opens x s) : Keeps Clean x :=
  .of_ends fun s hs => (hx s hs s.ledger [] (.refl _)).imp
    (fun _ _ ⟨hsame, _⟩ => hs.of_opens hm hsame) fun _ _ ⟨_, hsame, _⟩ => hs.of_opens hm hsame

theorem keeps_addCount (m : Module) (n : Int) : Keeps Clean (addCount m n) :=
  .modify fun _ hs => ⟨hs.borrowed, hs.vi, hs.am⟩

theorem keeps_call (hx : Keeps Clean x) : Keeps Clean (call x) := by
  refine .bind ?_ fun r => keeps_quiet (.failIf r)
  intro s hs
  have ht := hx s hs
  unfold attempt
  cases hrun : x s with
  | ok a t =>
    rw [hrun] at ht
    exact ht
  | error r t =>
    rw [hrun] at ht
    exact ht

theorem keeps_initOnce (hbody : Keeps Clean body) : Keeps Clean (initOnce m body) :=
  .get_bind fun _ => .bind (keeps_addCount m 1) fun _ =>
    .ite (.pure ()) (hbody.onFail (keeps_addCount m (-1)))

theorem keeps_finalizeOnce (hx : Keeps Clean x) : Keeps Clean (finalizeOnce m x) :=
  .bind (keeps_addCount m (-1)) fun _ => .get_bind fun _ =>
    .ite (.bind hx fun _ => .modify fun _ hs => ⟨hs.borrowed, hs.vi, hs.am⟩) (.pure ())

theorem keeps_smInit : Keeps Clean (smInit env) := by
  refine .of_ends fun s hs => (smInit_ends env s).imp ?_ ?_
  · rintro _ t ⟨hs', hopened⟩
    exact hs.of_same hopened.config hopened.borrowed hopened.handle
  · rintro r t ⟨-, hsame, -, hborrowed, -⟩
    exact hs.of_same hsame.config hborrowed hsame.handle_eq

theorem keeps_smFinalize : Keeps Clean smFinalize :=
  keeps_finalizeOnce (keeps_closes (closes_ipcClose .sm))

theorem keeps_withSm {rest : ServiceM Unit} (hrest : Keeps Clean rest) :
    Keeps Clean (withSm env rest) :=
  .bind (keeps_call keeps_smInit) fun _ =>
    .bind (hrest.onFail keeps_smFinalize) fun _ => keeps_smFinalize

theorem keeps_service (hm : m ≠ .sm) (hx : ∀ s, Clean s → m.Opens x s) :
    Keeps Clean (initOnce m (withSm env x)) :=
  keeps_initOnce (keeps_withSm (keeps_opens hm hx))

theorem keeps_timeBody : Keeps Clean (timeBody env) := by
  refine .of_ends fun s hs => (timeBody_acquires s s.ledger [] (.refl _)).imp ?_ ?_
  · rintro _ t ⟨hsame, -⟩
    exact hs.of_opens (by decide) hsame
  · rintro _ t ⟨-, hsame, -⟩
    exact hs.of_opens (by decide) hsame

theorem keeps_nvInit : Keeps Clean (nvInit env) :=
  keeps_service (by decide) fun s _ => nvBody_opens s

theorem keeps_nvFinalize : Keeps Clean nvFinalize := keeps_finalizeOnce (keeps_closes closes_nv)

theorem keeps_gpuInitialize : Keeps Clean (gpuInitialize env) :=
  keeps_initOnce (.bind (keeps_call keeps_nvInit) fun _ => .onFail
    (.bind (keeps_leaves leaves_gpuOpen) fun _ => .onFail (keeps_leaves leaves_gpuOpen)
      (keeps_quiet quiet_nvClose)) keeps_nvFinalize)

theorem keeps_gpuFinalize : Keeps Clean (gpuFinalize env) :=
  keeps_finalizeOnce (.bind (keeps_quiet quiet_nvClose) fun _ =>
    .bind (keeps_quiet quiet_nvClose) fun _ => keeps_nvFinalize)

theorem keeps_viInit : Keeps Clean (viInit env) :=
  keeps_service (by decide) fun _ hs => viBody_opens hs.vi

theorem keeps_viFinalize : Keeps Clean viFinalize := keeps_finalizeOnce (keeps_closes closes_vi)

theorem keeps_hidIpcInit : Keeps Clean (hidIpcInit env) :=
  keeps_service (by decide) fun s _ => hidIpcBody_opens s

theorem keeps_hidIpcFinalize : Keeps Clean hidIpcFinalize :=
  keeps_finalizeOnce (keeps_closes closes_hidIpc)

theorem keeps_init (i : Init) : Keeps Clean (i.run env) := by
  cases i with
  | sm => exact keeps_smInit
  | bsd requireOverride service =>
    exact keeps_service (by decide) fun s _ => bsdBody_opens requireOverride service s
  | nv => exact keeps_nvInit
  | gpu => exact keeps_gpuInitialize
  | vi => exact keeps_viInit
  | display =>
    exact keeps_initOnce (.bind (keeps_call keeps_gpuInitialize) fun _ => .onFail
      (.bind (keeps_call keeps_viInit) fun _ =>
        .onFail (keeps_quiet quiet_viOpenDisplay) keeps_viFinalize) keeps_gpuFinalize)
  | hid =>
    have hhandle : Keeps Clean (hidIpcGetSharedMemoryHandle env) := by
      refine .of_ends fun s hs => ?_
      refine (hidIpcGetSharedMemoryHandle_acquires s s.ledger [] (.refl _)).imp ?_ ?_
      · rintro _ t ⟨hsame, -⟩
        exact hs.of_hid hsame
      · rintro _ t ⟨-, hsame, -⟩
        exact hs.of_hid hsame
    exact keeps_initOnce (.bind (keeps_call keeps_hidIpcInit) fun _ => .onFail
      (.bind hhandle fun _ => .onFail (keeps_leaves leaves_hidMap)
        (keeps_closes (closes_var .sharedMemory))) keeps_hidIpcFinalize)
  | hidIpc => exact keeps_hidIpcInit
  | am =>
    refine keeps_initOnce (.bind (.modify fun _ hs => ⟨hs.borrowed, hs.vi, hs.am⟩) fun _ =>
      .get_bind fun _ => .ite (.pure ()) (keeps_withSm ?_))
    exact keeps_opens (by decide) fun _ hs => amBody_opens hs.am
  | audio => exact keeps_service (by decide) fun s _ => audioBody_opens s
  | ro => exact keeps_service (by decide) fun s _ => roBody_opens s
  | nifm => exact keeps_service (by decide) fun s _ => nifmBody_opens s
  | time =>
    exact keeps_initOnce (.bind (keeps_withSm keeps_timeBody) fun _ =>
      keeps_closes (closes_ipcClose .time))
  | bpc => exact keeps_service (by decide) fun s _ => bpcBody_opens s

theorem keeps_finalize (m : Module) : Keeps Clean (m.finalize env) := by
  cases m with
  | sm => exact keeps_smFinalize
  | bsd => exact keeps_finalizeOnce (keeps_closes closes_bsd)
  | nv => exact keeps_nvFinalize
  | gpu => exact keeps_gpuFinalize
  | vi => exact keeps_viFinalize
  | display =>
    exact keeps_finalizeOnce (.bind (keeps_quiet quiet_viCloseDisplay) fun _ =>
      .bind keeps_viFinalize fun _ => keeps_gpuFinalize)
  | hid =>
    exact keeps_finalizeOnce (.bind (keeps_quiet fun _ => rfl) fun _ =>
      .bind (keeps_leaves (.modify fun _ => rfl)) fun _ =>
      .bind (.modify fun s hs => hs.of_hid (same_setHandle .sharedMemory 0)) fun _ =>
      .bind (keeps_closes (closes_var .sharedMemory)) fun _ => keeps_hidIpcFinalize)
  | hidIpc => exact keeps_hidIpcFinalize
  | am =>
    refine keeps_finalizeOnce (.get_bind fun _ => .ite (.pure ()) ?_)
    exact (keeps_closes (closes_ipcClose .iwc)).bind fun _ =>
      (keeps_closes (closes_ipcClose .isc)).bind fun _ =>
      (keeps_closes (closes_ipcClose .proxy)).bind fun _ =>
      (keeps_closes (closes_ipcClose .proxyService)).bind fun _ => keeps_closes (closes_var .amDomain)
  | audio => exact keeps_finalizeOnce (keeps_closes (closes_ipcClose .iaom))
  | ro => exact keeps_finalizeOnce (keeps_closes (closes_ipcClose .ro))
  | nifm => exact keeps_finalizeOnce (keeps_closes (closes_ipcClose .nifmG))
  | time => exact keeps_finalizeOnce (keeps_closes (closes_ipcClose .isystemclock))
  | bpc => exact keeps_finalizeOnce (keeps_closes (closes_ipcClose .ibpcm))

theorem reachable_clean {config : LoaderConfig} (h : (callSystem config).Reachable s) : Clean s := by
  refine h.invariant ?_ ?_
  · rintro s rfl
    exact ⟨rfl, fun _ => rfl, fun _ => rfl⟩
  · rintro s call s' hs rfl
    cases call with
    | init i env => exact keeps_init i s hs
    | finalize m env => exact keeps_finalize m s hs

/-! ## Balance -/

/-- The initialisations that use `sm` and nothing else. -/
def Init.UsesSm : Init → Prop
  | .bsd _ _ | .nv | .vi | .am | .hidIpc | .audio | .ro | .nifm | .time | .bpc => True
  | .sm | .gpu | .display | .hid => False

/-- The count of `sm` is as before, and a session of `sm` that was opened was closed once. -/
structure SmBalanced (s t : State) : Prop where
  count : t.count .sm = s.count .sm
  closed : ∃ hs new, t.ports = hs ++ s.ports ∧ t.ledger = new ++ s.ledger ∧
    (hs = [] ∨ s.count .sm = 0 ∧ ∃ h, hs = [h]) ∧
    ∀ h ∈ hs, new.count (.acquired h) = 1 ∧ new.count (.disposed h) = 1

theorem SmBalanced.refl (s : State) : SmBalanced s s :=
  ⟨rfl, [], [], rfl, rfl, .inl rfl, fun _ hmem => absurd hmem not_mem_nil⟩

theorem counted_sm (hm : m ≠ .sm) (s : State) (k : Int) :
    (s.counted m k).count .sm = s.count .sm := Function.update_of_ne hm.symm _ _

theorem SmBalanced.of_counted {k : Int} (hm : m ≠ .sm) (h : SmBalanced (s.counted m k) t) :
    SmBalanced s t := by
  obtain ⟨hcount, hs, new, hports, hledger, hsessions, hclosed⟩ := h
  rw [counted_sm hm] at hcount hsessions
  exact ⟨hcount, hs, new, hports, hledger, hsessions, hclosed⟩

theorem SmBalanced.counted {k : Int} (hm : m ≠ .sm) (h : SmBalanced s t) :
    SmBalanced s (t.counted m k) :=
  ⟨(counted_sm hm t k).trans h.count, h.closed⟩

/-- A use of `sm`, after which things are closed that were acquired meanwhile. -/
theorem SmUse.balanced_closing {u : State} {hs xs ys : List Handle} {new : List (Event Handle)}
    (h : SmUse s t hs new) (howns : Owns new xs) (hys : ∀ a ∈ ys, a ∈ xs)
    (hcount : u.count .sm = s.count .sm) (hports : u.ports = t.ports)
    (hledger : u.ledger = (ys.map Event.disposed).reverse ++ t.ledger) : SmBalanced s u := by
  refine ⟨hcount, hs, (ys.map Event.disposed).reverse ++
    (hs.map Event.disposed ++ (new ++ hs.map Event.acquired)), hports.trans h.ports, ?_,
    h.sessions, ?_⟩
  · rw [hledger, h.ledger]
    simp only [append_assoc]
  · intro a ha
    have hacquired : .acquired a ∉ new := h.untouched a (mem_append_left _ ha)
    have hdisposed : .disposed a ∉ new := fun hmem => hacquired (howns.proper.acquired_mem hmem)
    have hlater : a ∉ ys := fun hmem => hacquired (howns.acquired_mem (hys a hmem))
    obtain rfl : hs = [a] := by
      rcases h.sessions with rfl | ⟨-, b, rfl⟩
      · exact absurd ha not_mem_nil
      · rw [mem_singleton.1 ha]
    have hnone : (ys.map Event.disposed).count (.acquired a) = 0 :=
      count_eq_zero.2 (by simp)
    have hother : (ys.map Event.disposed).count (.disposed a) = 0 :=
      count_eq_zero.2 (by simpa using hlater)
    simp [hnone, hother, count_eq_zero.2 hacquired, count_eq_zero.2 hdisposed]

theorem SmUse.balanced {hs xs : List Handle} {new : List (Event Handle)} (h : SmUse s t hs new)
    (howns : Owns new xs) (hcount : t.count = s.count) : SmBalanced s t :=
  have hnone : ∀ a ∈ ([] : List Handle), a ∈ xs := fun _ hmem => absurd hmem not_mem_nil
  h.balanced_closing howns hnone (congrFun hcount .sm) rfl rfl

theorem initOnce_balanced (hm : m ≠ .sm)
    (hbody : SmBalanced (s.counted m 1) (final (body (s.counted m 1)))) :
    SmBalanced s (final (initOnce m body s)) :=
  Keeps.ends_iff.1 (initOnce_ends (fun _ => (SmBalanced.refl s).counted hm)
    (fun _ => Keeps.ends_iff.2 (hbody.of_counted hm)) fun _ _ h => h.counted hm)

theorem withSm_opens (hs : Clean s) (hcount : 0 ≤ s.count .sm) (hm : m ≠ .sm)
    (hbody : ∀ s, Clean s → m.Opens body s) :
    Ends (withSm env body s)
      (fun _ t => Around m.objects (m.writes s.config) s t ∧ m.Complete t.vars ∧
        ∃ hs new, SmUse s t hs new ∧ Owns new (m.own t.vars))
      (fun r t => r ≠ resultOk ∧ Around m.objects (m.writes s.config) s t ∧
        ∃ hs new, SmUse s t hs new ∧ Owns new []) := by
  refine withSm_ends hcount hs.borrowed (m.sm_not_mem_objects hm) ?_
  intro t hconfig hhandle hborrowed
  rw [← hconfig]
  exact hbody t (hs.of_same hconfig (hborrowed.trans hs.borrowed.symm) hhandle)

theorem withSm_balanced (hs : Clean s) (hcount : 0 ≤ s.count .sm) (hm : m ≠ .sm)
    (hbody : ∀ s, Clean s → m.Opens body s) : SmBalanced s (final (withSm env body s)) := by
  refine Keeps.ends_iff.1 ((withSm_opens hs hcount hm hbody).imp ?_ ?_)
  · rintro _ t ⟨haround, -, hs', new, huse, howns⟩
    exact huse.balanced howns haround.count
  · rintro _ t ⟨-, haround, hs', new, huse, howns⟩
    exact huse.balanced howns haround.count

theorem time_balanced (hs : Clean s) (hcount : 0 ≤ s.count .sm) :
    SmBalanced s (final ((withSm env (timeBody env) >>= fun _ => ipcClose .time) s)) := by
  refine Keeps.ends_iff.1 (Ends.bind ((withSm_ends hcount hs.borrowed (by decide)
    fun t _ _ _ => timeBody_acquires t).imp (fun _ _ hq => hq) ?_) ?_)
  · rintro _ t ⟨-, haround, hs', new, huse, howns⟩
    exact huse.balanced howns haround.count
  · rintro _ t ⟨haround, -, hs', new, huse, howns⟩
    obtain ⟨u, hrun, hsame, hledger⟩ := closes_ipcClose .time t
    rw [hrun]
    exact huse.balanced_closing howns (fun a hmem => mem_append_right _ hmem)
      (congrFun (hsame.count.trans haround.count) .sm) hsame.ports hledger

/-- **Temporary use of `sm` is balanced.** In every state with a count of `sm` that is not negative,
whatever kernel and services answer. -/
theorem init_balances_sm (config : LoaderConfig) (h : (callSystem config).Reachable s)
    (hcount : 0 ≤ s.count .sm) (i : Init) (hi : i.UsesSm) (env : Env) :
    SmBalanced s (final (i.run env s)) := by
  have hs (m : Module) : Clean (s.counted m 1) :=
    (reachable_clean h).of_same rfl rfl rfl
  have hcount' {m : Module} (hm : m ≠ .sm) : 0 ≤ (s.counted m 1).count .sm := by
    rw [counted_sm hm]
    exact hcount
  -- all but two are of this form
  have hservice {m : Module} {body : ServiceM Unit} (hm : m ≠ .sm)
      (hbody : ∀ s, Clean s → m.Opens body s) :
      SmBalanced s (final (initOnce m (withSm env body) s)) :=
    initOnce_balanced hm (withSm_balanced (hs m) (hcount' hm) hm hbody)
  cases i with
  | bsd requireOverride service =>
    exact hservice (by decide) fun s _ => bsdBody_opens requireOverride service s
  | nv => exact hservice (by decide) fun s _ => nvBody_opens s
  | vi => exact hservice (by decide) fun s hs => viBody_opens hs.vi
  | am =>
    refine initOnce_balanced (by decide) ?_
    -- the state after `using_workaround` is set
    let u : State := { s.counted .am 1 with usingWorkaround := s.config.appletWorkaroundActive }
    have hu : Clean u := (hs .am).of_same rfl rfl rfl
    have hbalanced : SmBalanced u (final ((if u.usingWorkaround = true then pure ()
        else withSm env (amBody env) : ServiceM Unit) u)) := by
      split
      · exact .refl u
      · exact withSm_balanced (m := .am) hu (hcount' (m := .am) (by decide)) (by decide) fun s hs =>
          amBody_opens hs.am
    exact ⟨hbalanced.count, hbalanced.closed⟩
  | hidIpc => exact hservice (by decide) fun s _ => hidIpcBody_opens s
  | audio => exact hservice (by decide) fun s _ => audioBody_opens s
  | ro => exact hservice (by decide) fun s _ => roBody_opens s
  | nifm => exact hservice (by decide) fun s _ => nifmBody_opens s
  | time => exact initOnce_balanced (by decide) (time_balanced (hs _) (hcount' (by decide)))
  | bpc => exact hservice (by decide) fun s _ => bpcBody_opens s
  | sm | gpu | display | hid => exact hi.elim

/-- The services refuse every request. -/
def Env.refusing : Env := { Env.obliging with send := fun _ _ => (1, fun _ => 0) }

/-- An initialisation that succeeds, and one that fails after `sm` has been opened. -/
theorem nvInit_balances_sm :
    SmBalanced (.initial .zero) (final (nvInit .obliging (.initial .zero))) ∧
    (succeeded (nvInit .refusing (.initial .zero)) = false ∧
      (final (nvInit .refusing (.initial .zero))).ledger ≠ []) ∧
    SmBalanced (.initial .zero) (final (nvInit .refusing (.initial .zero))) :=
  ⟨init_balances_sm .zero (.init rfl) (by decide) .nv trivial .obliging,
    ⟨by decide, by decide⟩, init_balances_sm .zero (.init rfl) (by decide) .nv trivial .refusing⟩

end LibTransistor.Service
