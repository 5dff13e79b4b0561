import LibTransistor.Service.Spec

/-!
# What the modules hold

`Module.own` are the handles that a module is to close when its count returns to zero, and
`Module.Complete` says that everything its initialisation opens is there.

* `Module.Opens` — the part of an initialisation between `sm_init` and `sm_finalize` leaves the
  module complete, with its handles on top of those held before, or fails with none of them.
* `closes_…` — the last finalisation closes the handles of the module, each once.
-/

namespace LibTransistor.Service

open Fallible Ledger List

/-! ## Resources -/

/-- The objects of a module. -/
def Module.objects : Module → List ObjectVar
  | .sm => [.sm]
  | .bsd => [.bsd, .iresolver]
  | .nv => [.nv]
  | .vi => [.imrs, .iads, .ihosbd, .isds, .imds]
  | .hidIpc => [.hidServer, .appletResource]
  | .am => [.proxyService, .proxy, .isc, .iwc]
  | .audio => [.iaom]
  | .ro => [.ro]
  | .nifm => [.nifmS, .nifmG]
  | .time => [.time, .isystemclock]
  | .bpc => [.ibpcm]
  | .gpu | .display | .hid => []

theorem Module.sm_not_mem_objects (m : Module) (hm : m ≠ .sm) : .sm ∉ m.objects := by
  cases m with
  | sm => exact absurd rfl hm
  | _ => decide

/-- The transfer memory of `bsd`, which a borrowed service does not need. -/
def bsdMemory (w : Vars) : List Handle :=
  if (w.object .bsd).isBorrowed then [] else handles (w.handle .bsdTransferMem)

/-- The handles that the last finalisation closes, first to last. -/
def Module.own : Module → Vars → List Handle
  | .sm, w => (w.object .sm).owned
  | .bsd, w => (w.object .iresolver).owned ++ (bsdMemory w ++ (w.object .bsd).owned)
  | .nv, w => handles (w.handle .nvTransferMem) ++ (w.object .nv).owned
  | .vi, w => (w.object .isds).owned ++ ((w.object .ihosbd).owned ++ ((w.object .iads).owned ++
      ((w.object .imrs).owned ++ handles (w.handle .viDomain))))
  | .hidIpc, w => (w.object .appletResource).owned ++ (w.object .hidServer).owned
  | .hid, w => handles (w.handle .sharedMemory)
  | .am, w => (w.object .iwc).owned ++ ((w.object .isc).owned ++ ((w.object .proxy).owned ++
      ((w.object .proxyService).owned ++ handles (w.handle .amDomain))))
  | .audio, w => (w.object .iaom).owned
  | .ro, w => (w.object .ro).owned
  | .nifm, w => (w.object .nifmG).owned
  | .time, w => (w.object .isystemclock).owned
  | .bpc, w => (w.object .ibpcm).owned
  | .gpu, _ | .display, _ => []

/-- What the first initialisation leaves in the variables. -/
def Module.Complete : Module → Vars → Prop
  | .sm, w => (w.object .sm).IsSession
  | .bsd, w => (w.object .bsd).IsSession ∧ (w.object .iresolver).IsSession ∧
      ((w.object .bsd).isBorrowed = false → w.handle .bsdTransferMem ≠ 0)
  | .nv, w => (w.object .nv).IsSession ∧ w.handle .nvTransferMem ≠ 0
  | .vi, w => w.handle .viDomain ≠ 0 ∧ ∀ v ∈ vi.objects, (w.object v).ref = .domain .viDomain
  | .hidIpc, w => (w.object .hidServer).IsSession ∧ (w.object .appletResource).IsSession
  | .hid, w => w.handle .sharedMemory ≠ 0 ∧ w.devices.sharedMemory ≠ 0
  | .gpu, w => 0 ≤ w.devices.nvasFd.toInt ∧ 0 ≤ w.devices.nvmapFd.toInt
  | .am, w => w.handle .amDomain ≠ 0 ∧ ∀ v ∈ am.objects, (w.object v).ref = .domain .amDomain
  | .audio, w => (w.object .iaom).IsSession
  | .ro, w => (w.object .ro).IsSession
  | .nifm, w => (w.object .nifmG).IsSession
  | .time, w => (w.object .isystemclock).IsSession
  | .bpc, w => (w.object .ibpcm).IsSession
  | .display, _ => True

/-- The handles outside objects that an initialisation writes. A domain is left alone if its service
is overridden, because a borrowed session is not converted. -/
def Module.writes (m : Module) (config : LoaderConfig) : List HandleVar :=
  match m with
  | .bsd => [.bsdTransferMem]
  | .nv => [.nvTransferMem]
  | .vi => if Overridden config (serviceName ['v', 'i', ':', 'm']) then [] else [.viDomain]
  | .am => if Overridden config (serviceName ['a', 'p', 'p', 'l', 'e', 't', 'A', 'E']) then []
      else [.amDomain]
  | _ => []

/-- `x` opens what the module holds. -/
def Module.Opens (m : Module) (x : ServiceM Unit) (s : State) : Prop :=
  Acquires m.objects (m.writes s.config) x (fun _ => m.Complete) (fun _ => m.own) s

variable {env : Env} {s : State}

/-! ## Initialisation -/

theorem bsdAttempt_acquires (service : BitVec 32) (name : List Byte) (requireOverride : Bool)
    (s : State) :
    Acquires [.bsd] [] (do
        modify fun s => { s with bsdService := service }
        attempt (smGetServiceEx env .bsd name requireOverride))
      (fun r w => r = resultOk → (w.object .bsd).IsSession)
      (ifOk fun w => (w.object .bsd).owned) s :=
  .of_step modify_bind_run ⟨rfl, rfl, fun _ _ => rfl, fun _ _ => rfl, rfl, rfl⟩ rfl
    ((smGetServiceEx_acquires env .bsd name requireOverride _).weaken fun _ _ hq => hq.1).attempt

variable (requireOverride : Bool)

/-- If the second lookup is made, the first one has found nothing. -/
theorem bsdLookup_acquires (service : BitVec 32) (s : State) :
    Acquires [.bsd] [] (bsdLookup env requireOverride service)
      (fun r w => r = resultOk → (w.object .bsd).IsSession)
      (ifOk fun w => (w.object .bsd).owned) s := by
  unfold bsdLookup
  by_cases hu : service = socketServiceBsdU ∨ service = socketServiceUnspecified
  · rw [if_pos hu]
    refine .orElse (bsdAttempt_acquires _ _ _ s) ?_ (bsdAttempt_acquires _ _ _)
    rintro r (hs | ⟨hr, -⟩)
    · exact absurd (hs ▸ hu) (by decide)
    · exact hr
  · rw [if_neg hu]
    refine .of_ite (bsdAttempt_acquires _ _ _ s) (.pure ?_ (ifOk_of_ne (by decide)))
    exact fun hr => absurd hr (by decide)

theorem bsdFind_acquires (service : BitVec 32) (s : State) :
    Acquires [.bsd] [] (bsdFind env requireOverride service)
      (fun _ w => (w.object .bsd).IsSession) (fun _ w => (w.object .bsd).owned) s := by
  refine (Acquires.check (bsdLookup_acquires requireOverride service s) ?_).weaken
    fun _ _ hq => hq rfl
  intro r t hr
  exact .of_step modify_bind_run ⟨rfl, rfl, fun _ _ => rfl, fun _ _ => rfl, rfl, rfl⟩ rfl (.throw hr)

theorem bsdRegister_acquires (s : State) :
    Acquires [] [.bsdTransferMem] (bsdRegister env)
      (fun _ w => (w.object .bsd).isBorrowed = false → w.handle .bsdTransferMem ≠ 0)
      (fun _ => bsdMemory) s := by
  refine .of_step get_bind_run (.refl s) rfl ?_
  intro base xs hbase
  cases hborrowed : (s.object .bsd).isBorrowed with
  | true =>
    have hnone : bsdMemory s.vars = [] := if_pos hborrowed
    refine ⟨.refl s, fun h => absurd (hborrowed.symm.trans h) (by decide), ?_⟩
    show OwnsSince base s.ledger (bsdMemory s.vars ++ xs)
    rw [hnone]
    exact hbase
  | false =>
    rw [if_neg Bool.false_ne_true]
    refine (registerMemory_acquires ?_ ?_ s base xs hbase).imp ?_ fun _ _ he => he
    · decide
    · exact fun _ _ => ⟨⟨rfl, rfl, fun _ _ => rfl, fun _ _ => rfl, rfl, rfl⟩, rfl⟩
    · rintro _ t ⟨hsame, hzero, howns⟩
      have hmem : bsdMemory t.vars = handles (t.handle .bsdTransferMem) := by
        refine if_neg (Bool.eq_false_iff.1 ?_)
        exact (congrArg ServiceObject.isBorrowed (hsame.object .bsd not_mem_nil)).trans
          hborrowed
      refine ⟨hsame, fun _ => hzero, ?_⟩
      show OwnsSince base t.ledger (bsdMemory t.vars ++ xs)
      rw [hmem]
      exact howns

theorem bsdBody_opens (service : BitVec 32) (s : State) :
    Module.bsd.Opens (bsdBody env requireOverride service) s := by
  refine (Acquires.stairs_object (by decide) (bsdFind_acquires requireOverride service s)
    fun t _ _ => Acquires.stairs_object (by decide) (smGetService_acquires env _ _ t)
      fun u _ _ => bsdRegister_acquires u).imp (fun _ _ hq => hq) ?_
  rintro _ w _
  rw [append_assoc]
  exact perm_append_comm_assoc ..

theorem nvBody_opens (s : State) : Module.nv.Opens (nvBody env) s := by
  refine Acquires.stairs_object (by decide) (smGetService_acquires env _ _ s) fun t _ _ => ?_
  refine registerMemory_acquires ?_ ?_ t
  · decide
  · exact fun _ _ => ⟨⟨rfl, rfl, fun _ _ => rfl, fun _ _ => rfl, rfl, rfl⟩, rfl⟩

theorem hidIpcBody_opens (s : State) : Module.hidIpc.Opens (hidIpcBody env) s :=
  Acquires.stairs_object (by decide) (smGetService_acquires env _ _ s) fun _ _ hserver =>
    getObject_session hserver.objectId

theorem viBody_opens (hclean : Overridden s.config (serviceName ['v', 'i', ':', 'm']) →
    s.handle .viDomain = 0) : Module.vi.Opens (viBody env) s := by
  have hwrites : ¬ Overridden s.config (serviceName ['v', 'i', ':', 'm']) →
      .viDomain ∈ Module.vi.writes s.config := by
    intro hname
    simp [Module.writes, hname]
  refine (domain_acquires (by decide) hwrites hclean fun t himrs =>
    .stairs_object (P := fun o => o.ref = .domain .viDomain) (by decide)
      (getObject_domain himrs) fun u _ hiads =>
    .stairs_object (P := fun o => o.ref = .domain .viDomain) (by decide)
      (getObject_domain hiads) fun w hw _ =>
    .stairs_object (P := fun o => o.ref = .domain .viDomain) (by decide)
      (getObject_domain ((hw.object .iads (by decide)).symm ▸ hiads)) fun x hx _ =>
    getObject_domain
      (((hx.object .iads (by decide)).trans (hw.object .iads (by decide))).symm ▸ hiads)).imp ?_ ?_
  · rintro _ w ⟨⟨himrs, hdomain⟩, hiads, hihosbd, hisds, himds⟩
    refine ⟨hdomain, ?_⟩
    simp [Module.objects, himrs, hiads, hihosbd, hisds, himds]
  · rintro _ w ⟨⟨himrs, hdomain⟩, hiads, hihosbd, hisds, himds⟩
    simp [Module.own, ServiceObject.owned_of_domain himds]

theorem amBody_opens
    (hclean : Overridden s.config (serviceName ['a', 'p', 'p', 'l', 'e', 't', 'A', 'E']) →
      s.handle .amDomain = 0) : Module.am.Opens (amBody env) s := by
  have hwrites : ¬ Overridden s.config (serviceName ['a', 'p', 'p', 'l', 'e', 't', 'A', 'E']) →
      .amDomain ∈ Module.am.writes s.config := by
    intro hname
    simp [Module.writes, hname]
  refine (domain_acquires (by decide) hwrites hclean fun t hservice =>
    .stairs_object (P := fun o => o.ref = .domain .amDomain) (by decide)
      (getObject_domain hservice) fun u _ hproxy =>
    .stairs_object (P := fun o => o.ref = .domain .amDomain) (by decide)
      (getObject_domain hproxy) fun w hw _ =>
    getObject_domain ((hw.object .proxy (by decide)).symm ▸ hproxy)).imp ?_ ?_
  · rintro _ w ⟨⟨hservice, hdomain⟩, hproxy, hisc, hiwc⟩
    refine ⟨hdomain, ?_⟩
    simp [Module.objects, hservice, hproxy, hisc, hiwc]
  · intro _ w _
    simp [Module.own]

theorem audioBody_opens (s : State) : Module.audio.Opens
    (smGetService env .iaom ['a', 'u', 'd', 'o', 'u', 't', ':', 'u']) s :=
  smGetService_acquires env _ _ s

theorem bpcBody_opens (s : State) : Module.bpc.Opens (smGetService env .ibpcm ['b', 'p', 'c']) s :=
  smGetService_acquires env _ _ s

theorem roBody_opens (s : State) : Module.ro.Opens (roBody env) s := by
  suffices h : Acquires [.ro] [] (roBody env) (fun _ w => (w.object .ro).IsSession ∧ True)
      (fun _ w => [] ++ (w.object .ro).owned) s from h.weaken fun _ _ hq => hq.1
  refine .stairs_object not_mem_nil (smGetService_acquires env _ _ s) fun t _ _ => ?_
  refine .of_step get_bind_run (.refl t) rfl ?_
  exact (ipcSend_acquires env .other _ t).bind fun _ _ _ _ => .pure trivial rfl

/-- The object that `nifm:s` hands out is kept, `nifm:s` itself is closed again. -/
theorem nifmBody_opens (s : State) : Module.nifm.Opens (nifmBody env) s := by
  have hopen : Acquires Module.nifm.objects [] (nifmOpen env)
      (fun _ w => (w.object .nifmS).IsSession ∧ (w.object .nifmG).IsSession)
      (fun _ w => (w.object .nifmG).owned ++ (w.object .nifmS).owned) s := by
    refine .stairs_object (by decide) (smGetService_acquires env _ _ s) fun t _ hservice => ?_
    refine .of_step modify_bind_run (same_setObject .nifmG _) rfl (getObject_session ?_)
    exact hservice.objectId
  exact (hopen.bind_closes (closes_ipcClose .nifmS)).weaken fun _ _ hq => hq.2

theorem timeLookup_acquires (s : State) : Acquires [.time] [] (timeLookup env)
    (fun r w => r = resultOk → (w.object .time).IsSession)
    (ifOk fun w => (w.object .time).owned) s :=
  .orElse (smGetService_acquires env _ _ s).attempt (fun _ => id) fun t =>
    .orElse (smGetService_acquires env _ _ t).attempt (fun _ => id) fun u =>
      (smGetService_acquires env _ _ u).attempt

theorem timeBody_acquires (s : State) :
    Acquires Module.time.objects [] (timeBody env)
      (fun _ w => (w.object .time).IsSession ∧ (w.object .isystemclock).IsSession)
      (fun _ w => (w.object .isystemclock).owned ++ (w.object .time).owned) s := by
  refine Acquires.stairs_object (by decide) ?_ fun _ _ htime => getObject_session htime.objectId
  exact (Acquires.check (timeLookup_acquires s) fun r t hr => .throw hr).weaken fun _ _ hq => hq rfl

/-! ## Finalisation -/

theorem closes_bsd : Closes bsdForceFinalize Module.bsd.own := by
  refine (closes_ipcClose .iresolver).bind (.bind ?_ (closes_ipcClose .bsd))
  intro s
  show ∃ t, (if (s.object .bsd).isBorrowed = true then pure ()
      else svcCloseHandle (s.handle .bsdTransferMem) : ServiceM Unit) s = .ok () t ∧ Same [] [] s t ∧
    t.ledger = ((if (s.object .bsd).isBorrowed = true then []
      else handles (s.handle .bsdTransferMem)).map Event.disposed).reverse ++ s.ledger
  split
  · exact ⟨s, rfl, .refl s, rfl⟩
  · exact closes_svcCloseHandle _ s

theorem closes_nv : Closes nvForceFinalize Module.nv.own :=
  (closes_var .nvTransferMem).bind (closes_ipcClose .nv)

theorem closes_vi : Closes viForceFinalize Module.vi.own :=
  (closes_ipcClose .isds).bind ((closes_ipcClose .ihosbd).bind ((closes_ipcClose .iads).bind
    ((closes_ipcClose .imrs).bind (closes_var .viDomain))))

theorem closes_hidIpc : Closes hidIpcForceFinalize Module.hidIpc.own :=
  (closes_ipcClose .appletResource).bind (closes_ipcClose .hidServer)

/-! ## Requests to open services -/

theorem quiet_nvOpen : Quiet (nvOpen env) := by
  refine .get_bind fun s => .bind (quiet_tryIpcSend env .nvOpen _) fun answer => ?_
  cases answer with
  | error r => exact .bind (.modify fun _ => rfl) fun _ => .pure _
  | ok response => exact .ite (.bind (.modify fun _ => rfl) fun _ => .pure _) (.pure _)

theorem leaves_gpuOpen {store : BitVec 32 → Devices → Devices} :
    Leaves State.accounts (gpuOpen env store) :=
  .bind quiet_nvOpen.accounts fun _ => .bind (.modify fun _ => rfl) fun _ =>
    .get_bind fun _ => .failIf _

theorem quiet_nvClose {fd : Devices → BitVec 32} : Quiet (nvClose env fd) := by
  refine .get_bind fun s => .bind (quiet_tryIpcSend env _ _) fun answer => ?_
  cases answer with
  | error r => exact .modify fun _ => rfl
  | ok response => exact .pure _

theorem quiet_viOpenDisplay : Quiet (viOpenDisplay env) := by
  exact .get_bind fun _ => .bind (quiet_ipcSend env .other _) fun _ => .pure _

theorem quiet_viCloseDisplay : Quiet (viCloseDisplay env) := by
  exact .get_bind fun _ => .bind (quiet_tryIpcSend env .other _) fun _ => .pure _

theorem leaves_hidMap : Leaves State.accounts (hidMap env) :=
  .bind (fun _ => rfl) fun _ => .bind (.modify fun _ => rfl) fun _ => .bind (.failIf _) fun _ =>
    .bind (fun _ => rfl) fun _ => .failIf _

theorem hidIpcGetSharedMemoryHandle_acquires (s : State) :
    Acquires [] [.sharedMemory] (hidIpcGetSharedMemoryHandle env)
      (fun _ w => w.handle .sharedMemory ≠ 0) (fun _ => Module.hid.own) s := by
  refine .of_step get_bind_run (.refl s) rfl ?_
  intro base xs hbase
  refine Ends.bind ((ipcSendHandle_acquires env _ s base xs hbase).imp (fun _ _ hq => hq) ?_) ?_
  · rintro r t ⟨hr, hsame, howns⟩
    exact ⟨hr, hsame.of_nil, howns⟩
  · rintro h t ⟨hsame, hzero, howns⟩
    have hv : Function.update t.handle .sharedMemory h .sharedMemory = h := Function.update_self ..
    refine ⟨hsame.of_nil.trans (same_setHandle _ h), ?_, ?_⟩
    · exact hzero
    · show OwnsSince base t.ledger
        (handles (Function.update t.handle .sharedMemory h .sharedMemory) ++ xs)
      rw [hv, handles, if_neg hzero]
      exact howns

end LibTransistor.Service
