import LibTransistor.Lib.Bits
import LibTransistor.Lib.Bytes
import LibTransistor.Results

/-!
# The loader's configuration

A loader hands a program an array of tagged entries (`include/libtransistor/loader_config.h`), which
`lib/crt0_common.c` reads into `loader_config` before `main`.

* `LoaderConfigEntry` — an entry. Its union is two words; a member is read from and stored in the
  bytes that it has there.
* `lconfigInitDefault`, `lconfigParse` — the side of the program.
* `Setting`, `writeConfig` — the side of a loader: settings stored one after the other in an array
  that may hold anything. They are read back and applied in turn (`lconfigParse_writeConfig`).
-/

namespace LibTransistor

open Bits Fallible List

/-! ## Data -/

/-- `loader_config_key_t`. -/
inductive LconfigKey
  | endOfList
  | mainThreadHandle
  | nextLoadPath
  | overrideHeap
  | overrideService
  | argv
  | syscallAvailableHint
  | appletType
  | appletWorkaround
  | stdioSockets
  deriving DecidableEq

def LconfigKey.toWord : LconfigKey → BitVec 32
  | .endOfList => 0
  | .mainThreadHandle => 1
  | .nextLoadPath => 2
  | .overrideHeap => 3
  | .overrideService => 4
  | .argv => 5
  | .syscallAvailableHint => 6
  | .appletType => 7
  | .appletWorkaround => 8
  | .stdioSockets => 9

/-- The key with a number, for the keys that there are. -/
def LconfigKey.ofWord (w : BitVec 32) : Option LconfigKey :=
  [LconfigKey.endOfList, .mainThreadHandle, .nextLoadPath, .overrideHeap, .overrideService, .argv,
    .syscallAvailableHint, .appletType, .appletWorkaround, .stdioSockets][w.toNat]?

/-- `LOADER_CONFIG_FLAG_RECOGNITION_MANDATORY`. -/
def recognitionMandatory : BitVec 32 := 1

/-- `LCONFIG_SOCKET_SERVICE_BSD_U`, `_BSD_S`, `_MAX` and `_UNSPECIFIED`. -/
def socketServiceBsdU : BitVec 32 := 0

@[inherit_doc socketServiceBsdU]
def socketServiceBsdS : BitVec 32 := 1

@[inherit_doc socketServiceBsdU]
def socketServiceMax : BitVec 32 := 2

@[inherit_doc socketServiceBsdU]
def socketServiceUnspecified : BitVec 32 := 0xFFFFFFFF

/-- `LCONFIG_APPLET_TYPE_UNKNOWN`. -/
def appletTypeUnknown : BitVec 64 := 0xFFFFFFFFFFFFFFFF

/-- `loader_config_entry_t`; the union is the words `value[0]` and `value[1]`. -/
structure LoaderConfigEntry where
  key : BitVec 32
  flags : BitVec 32
  value0 : BitVec 64
  value1 : BitVec 64

namespace LoaderConfigEntry

/-- `syscall_available_hint.hints`. -/
def hints (e : LoaderConfigEntry) : List Byte :=
  (List.range 8).map (fun i => e.value0.extractLsb' (8 * i) 8) ++
    (List.range 8).map fun i => e.value1.extractLsb' (8 * i) 8

end LoaderConfigEntry

/-- `loader_config_service_override_t`. -/
structure ServiceOverride where
  serviceName : BitVec 64
  serviceHandle : BitVec 32
  deriving DecidableEq

/-- The fields of `loader_config` about the heap. -/
structure HeapConfig where
  heapOverridden : Bool
  heapBase : BitVec 64
  heapSize : BitVec 64

/-- `loader_config_t`. The list has the entries of `service_overrides` that count. -/
structure LoaderConfig extends HeapConfig where
  mainThread : BitVec 32
  serviceOverrides : List ServiceOverride
  argv : BitVec 64
  argc : BitVec 32
  syscallsAvailable : BitVec 8 → Bool
  hasAppletType : Bool
  appletType : BitVec 64
  appletWorkaroundActive : Bool
  appletWorkaroundAruid : BitVec 64
  hasStdioSockets : Bool
  socketStdout : BitVec 32
  socketStdin : BitVec 32
  socketStderr : BitVec 32
  socketService : BitVec 32

/-- `loader_config` before anything is stored in it. -/
def LoaderConfig.zero : LoaderConfig where
  heapOverridden := false
  heapBase := 0
  heapSize := 0
  mainThread := 0
  serviceOverrides := []
  argv := 0
  argc := 0
  syscallsAvailable _ := false
  hasAppletType := false
  appletType := 0
  appletWorkaroundActive := false
  appletWorkaroundAruid := 0
  hasStdioSockets := false
  socketStdout := 0
  socketStdin := 0
  socketStderr := 0
  socketService := 0

/-! ## Reading -/

/-- `lconfig_init_default`; `argvDefault` is where its local array of one argument is. -/
def lconfigInitDefault (argvDefault : BitVec 64) (threadHandle : BitVec 64) (c : LoaderConfig) :
    LoaderConfig :=
  { c with
    mainThread := threadHandle.setWidth 32
    heapOverridden := false
    serviceOverrides := []
    argv := argvDefault
    argc := 1
    syscallsAvailable := fun _ => false
    hasAppletType := false
    appletType := appletTypeUnknown
    appletWorkaroundActive := false
    hasStdioSockets := false }

/-- How reading a configuration ends without success. -/
inductive ConfigError
  | result (r : ResultT)
  /-- An entry behind the end of the array is read. -/
  | pastEnd

abbrev ConfigM := EStateM ConfigError LoaderConfig

/-- `HOMEBREW_ABI_KEY_INVALID(key)`. -/
def keyInvalid (key : BitVec 32) : ConfigError := .result (homebrewAbiResult (300 + key))

/-- `HOMEBREW_ABI_UNRECOGNIZED_KEY(key)`. -/
def unrecognizedKey (key : BitVec 32) : ConfigError := .result (homebrewAbiResult (100 + key))

/-- The body of the loop of `lconfig_parse`. -/
def lconfigEntry (e : LoaderConfigEntry) : ConfigM Unit :=
  match LconfigKey.ofWord e.key with
  | some .endOfList => pure ()
  | some .mainThreadHandle => modify fun c => { c with mainThread := low e.value0 }
  | some .nextLoadPath => pure ()
  | some .overrideHeap => modify fun c => { c with
      heapOverridden := true, heapBase := e.value0, heapSize := e.value1 }
  | some .overrideService => do
    let c ← get
    failIf (32 ≤ c.serviceOverrides.length) (keyInvalid LconfigKey.overrideService.toWord)
    let override : ServiceOverride := ⟨e.value0, low e.value1⟩
    set { c with serviceOverrides := c.serviceOverrides ++ [override] }
  | some .argv => modify fun c => { c with argc := low e.value0, argv := e.value1 }
  | some .syscallAvailableHint => modify fun c => { c with
      syscallsAvailable := e.hints.foldl
        (fun available hint => if hint ≠ 0xFF then Function.update available hint true else available)
        c.syscallsAvailable }
  | some .appletType => modify fun c => { c with hasAppletType := true, appletType := e.value0 }
  | some .appletWorkaround => modify fun c => { c with
      appletWorkaroundActive := true, appletWorkaroundAruid := e.value0 }
  | some .stdioSockets => do
    modify fun c => { c with
      hasStdioSockets := true
      socketStdout := low e.value0
      socketStdin := high e.value0
      socketStderr := low e.value1
      socketService := high e.value1 }
    failIf (socketServiceMax ≤ high e.value1) (keyInvalid e.key)
  | none => failIf (e.flags &&& recognitionMandatory ≠ 0) (unrecognizedKey e.key)

/-- `lconfig_parse`. -/
def lconfigParse : List LoaderConfigEntry → ConfigM Unit
  | [] => throw .pastEnd
  | e :: es =>
    if e.key = LconfigKey.endOfList.toWord then pure () else do
      lconfigEntry e
      lconfigParse es

/-! ## Writing -/

/-- What a loader tells a program. -/
inductive Setting
  | mainThreadHandle (handle : BitVec 32)
  | overrideHeap (base size : BitVec 64)
  | overrideService (override : ServiceOverride)
  | argv (argc strings : BitVec 64)
  | appletType (type : BitVec 64)
  | appletWorkaround (aruid : BitVec 64)
  | stdioSockets (stdout stdin stderr service : BitVec 32)

namespace Setting

def key : Setting → LconfigKey
  | mainThreadHandle _ => .mainThreadHandle
  | overrideHeap .. => .overrideHeap
  | overrideService _ => .overrideService
  | argv .. => .argv
  | appletType _ => .appletType
  | appletWorkaround _ => .appletWorkaround
  | stdioSockets .. => .stdioSockets

/-- The assignments to the members of the union. -/
def store : Setting → LoaderConfigEntry → LoaderConfigEntry
  | mainThreadHandle handle, e => { e with value0 := setLow e.value0 handle }
  | overrideHeap base size, e => { e with value0 := base, value1 := size }
  | overrideService override, e => { e with
      value0 := override.serviceName, value1 := setLow e.value1 override.serviceHandle }
  | argv argc strings, e => { e with value0 := argc, value1 := strings }
  | appletType type, e => { e with value0 := type }
  | appletWorkaround aruid, e => { e with value0 := aruid }
  | stdioSockets stdout stdin stderr service, e => { e with
      value0 := setHigh (setLow e.value0 stdout) stdin
      value1 := setHigh (setLow e.value1 stderr) service }

/-- The entry that was `e`, with its key, its flags and its value. -/
def write (x : Setting) (flags : BitVec 32) (e : LoaderConfigEntry) : LoaderConfigEntry :=
  x.store { e with key := x.key.toWord, flags := flags }

/-- What a setting is for. -/
def apply : Setting → LoaderConfig → LoaderConfig
  | mainThreadHandle handle, c => { c with mainThread := handle }
  | overrideHeap base size, c => { c with
      heapOverridden := true, heapBase := base, heapSize := size }
  | overrideService override, c => { c with
      serviceOverrides := c.serviceOverrides ++ [override] }
  | argv argc strings, c => { c with argc := low argc, argv := strings }
  | appletType type, c => { c with hasAppletType := true, appletType := type }
  | appletWorkaround aruid, c => { c with
      appletWorkaroundActive := true, appletWorkaroundAruid := aruid }
  | stdioSockets stdout stdin stderr service, c => { c with
      hasStdioSockets := true, socketStdout := stdout, socketStdin := stdin
      socketStderr := stderr, socketService := service }

/-- The socket service is one of those that there are. -/
def Valid : Setting → Prop
  | stdioSockets _ _ _ service => service < socketServiceMax
  | _ => True

/-- The service that a setting overrides. -/
def override? : Setting → Option ServiceOverride
  | overrideService override => some override
  | _ => none

end Setting

/-- Settings with their flags are stored in the entries of an array, first to last, and then the end
of the list. There is no array if it is too short. -/
def writeConfig : List (Setting × BitVec 32) → List LoaderConfigEntry →
    Option (List LoaderConfigEntry)
  | _, [] => none
  | [], e :: es =>
    some ({ e with key := LconfigKey.endOfList.toWord, flags := recognitionMandatory } :: es)
  | (x, flags) :: xs, e :: es => (writeConfig xs es).map (x.write flags e :: ·)

/-! ## Reading what was written -/

section RoundTrip

variable {x : Setting} {flags : BitVec 32} {e : LoaderConfigEntry} {c : LoaderConfig}

@[simp] theorem Setting.key_write : (x.write flags e).key = x.key.toWord := by
  cases x <;> rfl

theorem lconfigEntry_write (hx : x.Valid)
    (hc : c.serviceOverrides.length + x.override?.toList.length ≤ 32) :
    lconfigEntry (x.write flags e) c = .ok () (x.apply c) := by
  cases x with
  | mainThreadHandle handle =>
    show EStateM.Result.ok () { c with mainThread := low (setLow e.value0 handle) } = _
    rw [low_setLow]
    rfl
  | overrideService override =>
    refine (failIf_bind_of_not (Nat.not_le.2 hc)).trans ?_
    show EStateM.Result.ok () { c with serviceOverrides := c.serviceOverrides ++
      [ServiceOverride.mk override.serviceName
        (low (setLow e.value1 override.serviceHandle))] } = _
    rw [low_setLow]
    rfl
  | stdioSockets stdout stdin stderr service =>
    have hservice : ¬ socketServiceMax ≤
        high (setHigh (setLow e.value1 stderr) service) := by
      rw [high_setHigh]
      exact Nat.not_le.2 hx
    refine (modify_bind_run).trans ((failIf_of_not hservice _).trans ?_)
    simp [Setting.write, Setting.store, Setting.apply]
  | overrideHeap | argv | appletType | appletWorkaround => rfl

/-- The settings are applied in turn. -/
def applyAll (xs : List (Setting × BitVec 32)) (c : LoaderConfig) : LoaderConfig :=
  xs.foldl (fun c x => x.1.apply c) c

theorem Setting.serviceOverrides_apply (x : Setting) (c : LoaderConfig) :
    (x.apply c).serviceOverrides = c.serviceOverrides ++ x.override?.toList := by
  cases x <;> simp [apply, override?]

theorem serviceOverrides_applyAll (xs : List (Setting × BitVec 32)) (c : LoaderConfig) :
    (applyAll xs c).serviceOverrides = c.serviceOverrides ++ xs.filterMap (·.1.override?) := by
  induction xs generalizing c with
  | nil => simp [applyAll]
  | cons x xs ih =>
    refine (ih (x.1.apply c)).trans ?_
    rw [Setting.serviceOverrides_apply, append_assoc, filterMap_cons]
    cases x.1.override? <;> rfl

theorem writeConfig_of_room {xs : List (Setting × BitVec 32)} {array : List LoaderConfigEntry}
    (hroom : xs.length < array.length) : ∃ written, writeConfig xs array = some written := by
  induction xs generalizing array with
  | nil =>
    cases array with
    | nil => cases hroom
    | cons e es => exact ⟨_, rfl⟩
  | cons x xs ih =>
    cases array with
    | nil => cases hroom
    | cons e es =>
      obtain ⟨written, hwritten⟩ := ih (Nat.lt_of_succ_lt_succ hroom)
      rw [writeConfig, hwritten]
      exact ⟨_, rfl⟩

theorem lconfigParse_writeConfig {xs : List (Setting × BitVec 32)}
    {array written : List LoaderConfigEntry} (hwrite : writeConfig xs array = some written)
    (hvalid : ∀ x ∈ xs, x.1.Valid)
    (hroom : c.serviceOverrides.length + (xs.filterMap (·.1.override?)).length ≤ 32) :
    lconfigParse written c = .ok () (applyAll xs c) := by
  induction xs generalizing array written c with
  | nil =>
    cases array with
    | nil => cases hwrite
    | cons e es =>
      cases hwrite
      rfl
  | cons x xs ih =>
    cases array with
    | nil => cases hwrite
    | cons e es =>
      obtain ⟨rest, hrest, rfl⟩ := Option.map_eq_some_iff.1 hwrite
      have hcount : (((x :: xs).filterMap (·.1.override?)).length : Nat)
          = x.1.override?.toList.length + (xs.filterMap (·.1.override?)).length := by
        rw [filterMap_cons]
        cases x.1.override? <;> simp [Nat.add_comm]
      have hkey : (x.1.write x.2 e).key ≠ LconfigKey.endOfList.toWord := by
        cases x.1 <;> simp [Setting.key, LconfigKey.toWord]
      have hroom : c.serviceOverrides.length + x.1.override?.toList.length ≤ 32 := by omega
      have hentry : lconfigEntry (x.1.write x.2 e) c = .ok () (x.1.apply c) :=
        lconfigEntry_write (hvalid x mem_cons_self) hroom
      unfold lconfigParse
      rw [if_neg hkey, bind_of_ok hentry]
      apply ih hrest fun y hy => hvalid y (mem_cons_of_mem x hy)
      rw [Setting.serviceOverrides_apply, length_append]
      omega

end RoundTrip

end LibTransistor
