import LibTransistor.Service.Model

/-!
# The loader hands its configuration over

`nro_start` of `ace_loader` writes what it knows into an array of entries, and the program that it
starts reads them in its start-up code. Both sides are linked separately and have only the entries
in common. Whatever is in the array from the start before, the program ends up with what the loader
has, and is given the loader's session of the socket service when it looks for that
(`nroStart_handsOver`).
-/

namespace LibTransistor

open Fallible Service

/-! ## The loader -/

/-- What `nro_start` reads: variables of the loader, and those of its own start-up code and
services. The two globals of `memory.c` are the block that `mem_make_block` has made. -/
structure AceLoader where
  mainThreadHandle : BitVec 32
  mapBase : BitVec 64
  mapSize : BitVec 64
  stdSck : BitVec 32
  nroArgc : BitVec 32
  nroArgv : BitVec 64
  services : Service.State

namespace AceLoader

variable (l : AceLoader)

def config : LoaderConfig := l.services.config

/-- `bsd_get_socket_service_handle`. -/
def bsdGetSocketServiceHandle : Handle := (l.services.object .bsd).session

/-- The settings with their flags. Those about arguments and applets are left out if there are
none. `name` is that of the socket service. -/
def nroSettings (name : List Byte) : List (Setting × BitVec 32) :=
  [(.mainThreadHandle l.mainThreadHandle, recognitionMandatory),
    (.overrideHeap l.mapBase l.mapSize, recognitionMandatory),
    (.overrideService ⟨str2u64 name, l.bsdGetSocketServiceHandle⟩, 0),
    (.stdioSockets l.stdSck l.stdSck l.stdSck l.services.bsdService, 0)] ++
  (if l.nroArgc ≠ 0 then [(.argv (l.nroArgc.signExtend 64) l.nroArgv, 0)] else []) ++
  (if l.config.appletWorkaroundActive then
    [(.appletWorkaround l.config.appletWorkaroundAruid, recognitionMandatory)] else []) ++
  (if l.config.hasAppletType then [(.appletType l.config.appletType, 0)] else [])

/-- `nro_start` as far as it writes `nro_config`. There is no result if the socket service has no
name, or if the array is too short. -/
def nroStart (nroConfig : List LoaderConfigEntry) : Option (List LoaderConfigEntry) := do
  let name ← bsdGetSocketServiceName l.services.bsdService
  writeConfig (l.nroSettings name) nroConfig

end AceLoader

/-! ## The program -/

/-- The program has what the loader has. -/
structure HandedOver (l : AceLoader) (c : LoaderConfig) : Prop where
  mainThread : c.mainThread = l.mainThreadHandle
  heap : c.heapOverridden = true ∧ c.heapBase = l.mapBase ∧ c.heapSize = l.mapSize
  argc : c.argc = l.nroArgc
  argv : c.argv = l.nroArgv
  sockets : c.hasStdioSockets = true ∧ c.socketStdout = l.stdSck ∧ c.socketStdin = l.stdSck ∧
    c.socketStderr = l.stdSck
  socketService : c.socketService = l.services.bsdService
  hasAppletType : c.hasAppletType = l.config.hasAppletType
  appletType : l.config.hasAppletType = true → c.appletType = l.config.appletType
  workaround : c.appletWorkaroundActive = l.config.appletWorkaroundActive
  aruid : l.config.appletWorkaroundActive = true →
    c.appletWorkaroundAruid = l.config.appletWorkaroundAruid

/-! ## The settings arrive -/

namespace AceLoader

variable {l : AceLoader} (name : List Byte)

theorem length_nroSettings : (l.nroSettings name).length ≤ 7 := by
  unfold nroSettings
  split_ifs <;> simp

theorem valid_nroSettings (hservice : l.services.bsdService < socketServiceMax) :
    ∀ x ∈ l.nroSettings name, x.1.Valid := by
  unfold nroSettings
  split_ifs <;> simp [Setting.Valid, hservice]

theorem filterMap_nroSettings :
    (l.nroSettings name).filterMap (·.1.override?)
      = [⟨str2u64 name, l.bsdGetSocketServiceHandle⟩] := by
  unfold nroSettings
  split_ifs <;> rfl

/-- The settings say what the loader has. The defaults are left where it has no applet. -/
theorem handedOver_applyAll (hargc : l.nroArgc ≠ 0)
    (argvDefault thread : BitVec 64) (c : LoaderConfig) :
    HandedOver l (applyAll (l.nroSettings name) (lconfigInitDefault argvDefault thread c)) := by
  unfold nroSettings
  constructor <;> split_ifs <;>
    simp_all [applyAll, Setting.apply, lconfigInitDefault]

end AceLoader

/-! ## The service is found -/

/-- A lookup that is done and has borrowed the session `h` in `out`. -/
def Borrows {α : Type} (out : ObjectVar) (h : Handle) (a : α)
    (r : EStateM.Result ResultT Service.State α) : Prop :=
  ∃ t, r = .ok a t ∧ t.object out = ⟨-1, .session h, true⟩

variable {name : List Byte}

theorem smGetServiceEx_overridden {env : Env} {out : ObjectVar} {requireOverride : Bool}
    {s : Service.State} {h : Handle} (hsm : (s.object .sm).session ≠ 0) (hname : name.length ≤ 8)
    (hoverride : s.config.serviceOverrides = [⟨str2u64 name, h⟩]) :
    Borrows out h () (smGetServiceEx env out name requireOverride s) := by
  have hfind : s.config.serviceOverrides.find? (·.serviceName = str2u64 name)
      = some ⟨str2u64 name, h⟩ := by
    rw [hoverride]
    simp
  unfold smGetServiceEx
  rw [get_bind_run, failIf_bind_of_not hsm,
    failIf_bind_of_not (Nat.not_lt.2 hname), hfind]
  exact ⟨_, rfl, Function.update_self ..⟩

theorem bsdLookup_overridden {env : Env} {service : BitVec 32} {s : Service.State} {h : Handle}
    (hname : bsdGetSocketServiceName service = some name) (hsm : (s.object .sm).session ≠ 0)
    (hoverride : s.config.serviceOverrides = [⟨str2u64 name, h⟩]) :
    Borrows .bsd h resultOk (bsdLookup env true service s) := by
  unfold bsdGetSocketServiceName at hname
  split_ifs at hname with hu hs
  · cases hname
    subst hu
    have hfound : Borrows .bsd h () (smGetServiceEx env .bsd _ true
        { s with bsdService := socketServiceBsdU }) :=
      smGetServiceEx_overridden hsm (by decide) hoverride
    obtain ⟨t, ht, hobject⟩ := hfound
    refine ⟨t, ?_, hobject⟩
    unfold bsdLookup
    rw [if_pos (.inl rfl), modify_bind_run, bind_of_ok (attempt_of_ok ht)]
    rfl
  · cases hname
    subst hs
    have hfound : Borrows .bsd h () (smGetServiceEx env .bsd _ true
        { s with bsdService := socketServiceBsdS }) :=
      smGetServiceEx_overridden hsm (by decide) hoverride
    obtain ⟨t, ht, hobject⟩ := hfound
    refine ⟨t, ?_, hobject⟩
    unfold bsdLookup
    rw [pure_bind]
    exact modify_bind_run.trans (attempt_of_ok ht)

theorem length_bsdGetSocketServiceName {service : BitVec 32}
    (hname : bsdGetSocketServiceName service = some name) : name.length ≤ 8 := by
  unfold bsdGetSocketServiceName at hname
  split_ifs at hname <;> cases hname <;> decide

/-! ## The hand-over -/

/-- **The loader's configuration survives the hand-over.** The program reads it without an error,
and has what the loader has. Once its `sm` is there, the name of the socket service that it is told
about is found, for any object, and is the loader's session, borrowed; that includes the lookup of
`bsd_init_ex`. -/
theorem nroStart_handsOver (l : AceLoader) (nroConfig : List LoaderConfigEntry)
    (hlength : nroConfig.length = 64) (hargc : l.nroArgc ≠ 0)
    (hservice : l.services.bsdService = socketServiceBsdU ∨
      l.services.bsdService = socketServiceBsdS)
    (argvDefault thread : BitVec 64) (c₀ : LoaderConfig) :
    ∃ written c name, l.nroStart nroConfig = some written ∧
      lconfigParse written (lconfigInitDefault argvDefault thread c₀) = .ok () c ∧
      HandedOver l c ∧ bsdGetSocketServiceName c.socketService = some name ∧
      ∀ (env : Env) (t : Service.State), t.config = c → (t.object .sm).session ≠ 0 →
        (∀ out, Borrows out l.bsdGetSocketServiceHandle () (smGetServiceEx env out name true t)) ∧
        Borrows .bsd l.bsdGetSocketServiceHandle resultOk (bsdLookup env true c.socketService t) := by
  have hname : ∃ name, bsdGetSocketServiceName l.services.bsdService = some name := by
    rcases hservice with h | h <;> rw [h] <;> exact ⟨_, rfl⟩
  obtain ⟨name, hname⟩ := hname
  have hmax : l.services.bsdService < socketServiceMax := by
    rcases hservice with h | h <;> rw [h] <;> decide
  have hroom : (l.nroSettings name).length < nroConfig.length := by
    have := l.length_nroSettings name
    omega
  obtain ⟨written, hwritten⟩ := writeConfig_of_room hroom
  have hc := l.handedOver_applyAll name hargc argvDefault thread c₀
  have hoverride := serviceOverrides_applyAll (l.nroSettings name)
    (lconfigInitDefault argvDefault thread c₀)
  have hparse := lconfigParse_writeConfig (c := lconfigInitDefault argvDefault thread c₀)
    hwritten (l.valid_nroSettings name hmax)
  rw [l.filterMap_nroSettings name] at hoverride hparse
  rw [← hc.socketService] at hname
  refine ⟨written, _, name, ?_, hparse (by simp [lconfigInitDefault]), hc, hname, ?_⟩
  · rw [AceLoader.nroStart, ← hc.socketService, hname]
    exact hwritten
  · intro env t ht hsm
    rw [← ht] at hoverride
    have hshort := length_bsdGetSocketServiceName hname
    exact ⟨fun out => smGetServiceEx_overridden hsm hshort hoverride,
      bsdLookup_overridden hname hsm hoverride⟩

/-- A loader with two arguments, `bsd:s` and an applet type, and an array of zeros. -/
theorem nroStart_handsOver_bsdS :
    ∃ written c name,
      AceLoader.nroStart ⟨5, 0x8000000, 0x2000000, 3, 2, 0x7100,
        { State.initial { LoaderConfig.zero with hasAppletType := true, appletType := 1 } with
          bsdService := socketServiceBsdS
          object := fun _ => ⟨-1, .session 9, false⟩ }⟩
        (List.replicate 64 ⟨0, 0, 0, 0⟩) = some written ∧
      lconfigParse written (lconfigInitDefault 0x7200 5 .zero) = .ok () c ∧
      c.argc = 2 ∧ bsdGetSocketServiceName c.socketService = some name ∧
      ∀ (env : Env) (t : Service.State), t.config = c → (t.object .sm).session ≠ 0 →
        Borrows .bsd 9 resultOk (bsdLookup env true c.socketService t) := by
  obtain ⟨written, c, name, hwritten, hparse, hc, hname, hfinds⟩ :=
    nroStart_handsOver ⟨5, 0x8000000, 0x2000000, 3, 2, 0x7100,
      { State.initial { LoaderConfig.zero with hasAppletType := true, appletType := 1 } with
        bsdService := socketServiceBsdS
        object := fun _ => ⟨-1, .session 9, false⟩ }⟩
      (List.replicate 64 ⟨0, 0, 0, 0⟩) List.length_replicate (by decide) (.inr rfl) 0x7200 5 .zero
  exact ⟨written, c, name, hwritten, hparse, hc.argc, hname,
    fun env t ht hsm => (hfinds env t ht hsm).2⟩

end LibTransistor
