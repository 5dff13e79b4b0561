import LibTransistor.Ipc.Types
import LibTransistor.Lib.Ledger
import LibTransistor.Loader.Config

/-!
# The service modules

Each module of `lib/ipc/`, `lib/gpu/`, `lib/display/` and `lib/hid.c` keeps a count of its
initialisations. The first one opens the service and what hangs on it, the last finalisation closes
it all. In between, a failure jumps to a label from where what was acquired is given back.

**State.** The static variables of all modules: counts, objects and handles. Handles that are
acquired and closed go to a ledger; `0` is no handle, and closing it does nothing.

**Objects** (`ServiceObject`). The union of a session handle and a pointer to a domain is tagged. A
domain that hands out a negative object id makes the source take the low half of the pointer for a
session; it is no handle either, so it is modelled as `0`.

**Environment.** What the kernel and the services answer, call by call (`clock` counts the calls). A
handle that they hand out is not one that the process has.

**Results.** A function fails with the value of `r` at its last label, which may be `RESULT_OK`: a
caller cannot tell this from success (`call`).
-/

namespace LibTransistor.Service

open Fallible Ledger

/-! ## Variables -/

/-- The modules with a count of initialisations. -/
inductive Module
  | sm | bsd | nv | gpu | vi | display | hid | hidIpc | am | audio | ro | nifm | time | bpc
  deriving DecidableEq

/-- The variables of type `ipc_object_t`. -/
inductive ObjectVar
  | sm | bsd | iresolver | nv | imrs | iads | imds | isds | ihosbd | hidServer | appletResource
  | proxyService | proxy | isc | iwc | iaom | ro | nifmS | nifmG | time | isystemclock | ibpcm
  deriving DecidableEq

/-- The variables that hold a handle: the two transfer memories, the shared memory of `hid`, and the
sessions of the two domains. -/
inductive HandleVar
  | bsdTransferMem | nvTransferMem | sharedMemory | viDomain | amDomain
  deriving DecidableEq

/-- The union in `ipc_object_t`. -/
inductive ObjectRef
  | session (h : Handle)
  | domain (d : HandleVar)
  deriving DecidableEq

/-- `ipc_object_t`. -/
structure ServiceObject where
  objectId : BitVec 32
  ref : ObjectRef
  isBorrowed : Bool
  deriving DecidableEq

namespace ServiceObject

/-- `object.object_id >= 0`. -/
def inDomain (o : ServiceObject) : Bool := decide (0 ≤ o.objectId.toInt)

/-- `object.session`. -/
def session (o : ServiceObject) : Handle :=
  match o.ref with
  | .session h => h
  | .domain _ => 0

end ServiceObject

/-- The module that a variable belongs to. -/
def ObjectVar.module : ObjectVar → Module
  | .sm => .sm
  | .bsd | .iresolver => .bsd
  | .nv => .nv
  | .imrs | .iads | .imds | .isds | .ihosbd => .vi
  | .hidServer | .appletResource => .hidIpc
  | .proxyService | .proxy | .isc | .iwc => .am
  | .iaom => .audio
  | .ro => .ro
  | .nifmS | .nifmG => .nifm
  | .time | .isystemclock => .time
  | .ibpcm => .bpc

@[inherit_doc ObjectVar.module]
def HandleVar.module : HandleVar → Module
  | .bsdTransferMem => .bsd
  | .nvTransferMem => .nv
  | .sharedMemory => .hid
  | .viDomain => .vi
  | .amDomain => .am

/-- What `gpu` and `hid` keep besides handles: the two device files, and the address of the shared
memory. -/
structure Devices where
  nvasFd : BitVec 32
  nvmapFd : BitVec 32
  sharedMemory : BitVec 64

structure State where
  config : LoaderConfig
  count : Module → Int
  object : ObjectVar → ServiceObject
  handle : HandleVar → Handle
  bsdService : BitVec 32
  bsdErrno : BitVec 32
  nvResult : ResultT
  nvErrno : BitVec 32
  devices : Devices
  usingWorkaround : Bool
  /-- The calls of the environment so far. -/
  clock : Nat
  ledger : List (Event Handle)
  /-- The sessions that `svcConnectToNamedPort` has opened. -/
  ports : List Handle

/-- What a request asks for: a device file of the driver, to close one, or anything else. -/
inductive Request
  | nvOpen | nvClose (fd : BitVec 32) | other
  deriving DecidableEq

/-- The answers of kernel and services, by the time of the call. -/
structure Env where
  /-- The result of a call that makes a handle and the handle, if these are held. -/
  create : Nat → List Handle → ResultT × Handle
  create_fresh : ∀ n held, (create n held).1 = resultOk →
    (create n held).2 ≠ 0 ∧ (create n held).2 ∉ held
  /-- The result of any other request and the words of the reply. -/
  send : Request → Nat → ResultT × (Nat → Word)
  /-- The result of `svcMapSharedMemory`. -/
  map : Nat → ResultT
  /-- What `find_empty_memory_block` returns: an address that was picked at random and is free, or
  `NULL` if `svcQueryMemory` fails. -/
  emptyBlock : Nat → BitVec 64

abbrev ServiceM := EStateM ResultT State

/-! ## Calls between modules -/

/-- The result code of a function. -/
def attempt (x : ServiceM Unit) : ServiceM ResultT := fun s =>
  match x s with
  | .ok _ t => .ok resultOk t
  | .error r t => .ok r t

theorem attempt_of_ok {x : ServiceM Unit} {s t : State} (h : x s = .ok () t) :
    attempt x s = .ok resultOk t := by
  unfold attempt
  rw [h]

theorem attempt_of_error {x : ServiceM Unit} {r : ResultT} {s t : State} (h : x s = .error r t) :
    attempt x s = .ok r t := by
  unfold attempt
  rw [h]

/-- `if((r = x()) != RESULT_OK) goto …`. -/
def call (x : ServiceM Unit) : ServiceM Unit := do
  let r ← attempt x
  failIf (r ≠ resultOk) r

def setObject (v : ObjectVar) (o : ServiceObject) : ServiceM Unit :=
  modify fun s => { s with object := Function.update s.object v o }

def setHandle (v : HandleVar) (h : Handle) : ServiceM Unit :=
  modify fun s => { s with handle := Function.update s.handle v h }

def addCount (m : Module) (n : Int) : ServiceM Unit :=
  modify fun s => { s with count := Function.update s.count m (s.count m + n) }

/-- An initialisation: `if(count++ > 0) return RESULT_OK;`, the body, and `fail: count--;`. -/
def initOnce (m : Module) (body : ServiceM Unit) : ServiceM Unit := do
  let s ← get
  addCount m 1
  if s.count m > 0 then pure () else onFail body (addCount m (-1))

/-- A finalisation: `if(--count == 0) …_force_finalize();`. -/
def finalizeOnce (m : Module) (forceFinalize : ServiceM Unit) : ServiceM Unit := do
  addCount m (-1)
  let s ← get
  if s.count m = 0 then do
    forceFinalize
    modify fun s => { s with count := Function.update s.count m 0 }
  else pure ()

/-! ## Kernel and IPC -/

section

variable (env : Env)

def tick : ServiceM Nat := do
  let s ← get
  set { s with clock := s.clock + 1 }
  return s.clock

/-- A call that makes a handle. One that fails delivers none: the value it may store is not held. -/
def newHandle : ServiceM (ResultT × Handle) := do
  let time ← tick
  let s ← get
  let (r, h) := env.create time (held s.ledger)
  if r = resultOk then set { s with ledger := .acquired h :: s.ledger }
  return (r, h)

def svcCloseHandle (h : Handle) : ServiceM Unit :=
  modify fun s => { s with ledger := if h = 0 then s.ledger else .disposed h :: s.ledger }

variable (v : HandleVar)

/-- `svcCloseHandle(v)`. -/
def closeVar : ServiceM Unit := do
  let s ← get
  svcCloseHandle (s.handle v)

/-- `svcCreateTransferMemory(&v, …)`. The stub stores the handle whatever the result. -/
def svcCreateTransferMemory : ServiceM Unit := do
  let (r, h) ← newHandle env
  setHandle v h
  failIf (r ≠ resultOk) r

/-- The kernel's result for a request on something that is no handle. -/
def invalidHandle : ResultT := 0xE401

/-- The session that a request goes to. -/
def State.target (s : State) (o : ServiceObject) : Handle :=
  match o.ref with
  | .session h => h
  | .domain d => if o.inDomain then s.handle d else 0

/-- `ipc_send` with a reply of raw data only. -/
def ipcSend (request : Request) (o : ServiceObject) : ServiceM (Nat → Word) := do
  let s ← get
  failIf (s.target o = 0) invalidHandle
  let time ← tick
  let (r, reply) := env.send request time
  failIf (r ≠ resultOk) r
  return reply

/-- `ipc_send` with a reply that has a handle. A reply that is refused has none. -/
def ipcSendHandle (o : ServiceObject) : ServiceM Handle := do
  let s ← get
  failIf (s.target o = 0) invalidHandle
  let (r, h) ← newHandle env
  failIf (r ≠ resultOk) r
  return h

/-- `ipc_send` with a reply that has an object: an object of the same domain, or a session. -/
def ipcSendObject (o : ServiceObject) (out : ObjectVar) : ServiceM Unit :=
  if o.inDomain then do
    let reply ← ipcSend env .other o
    setObject out ⟨reply 0, o.ref, false⟩
  else do
    let h ← ipcSendHandle env o
    setObject out ⟨-1, .session h, false⟩

/-- `ipc_close`. An object of a domain is closed with a request, whose result nobody looks at. -/
def ipcClose (v : ObjectVar) : ServiceM Unit := do
  let s ← get
  let o := s.object v
  if o.isBorrowed then pure ()
  else if o.inDomain then discard tick
  else svcCloseHandle o.session

/-- `ipc_close_domain`. -/
def ipcCloseDomain : ServiceM Unit := closeVar v

/-- `ipc_convert_to_domain`. -/
def ipcConvertToDomain (v : ObjectVar) (d : HandleVar) : ServiceM Unit := do
  let s ← get
  let session := s.object v
  failIf session.isBorrowed Err.refusalToConvertBorrowedObject
  setHandle d session.session
  failIf (session.objectId ≠ -1) Err.alreadyADomain
  setObject v { session with ref := .domain d }
  let reply ← ipcSend env .other session
  setObject v ⟨reply 0, .domain d, false⟩

/-! ## `sm` -/

/-- `str2u64`. -/
def str2u64 (name : List Byte) : BitVec 64 :=
  (name.take 8).foldr (fun b w => (w <<< 8) ||| b.setWidth 64) 0

/-- The bytes of a name. -/
def serviceName (name : List Char) : List Byte := name.map fun c => BitVec.ofNat 8 c.toNat

/-- `sm_get_service_ex`. -/
def smGetServiceEx (out : ObjectVar) (name : List Byte) (requireOverride : Bool) :
    ServiceM Unit := do
  let s ← get
  failIf ((s.object .sm).session = 0) Err.smNotInitialized
  failIf (8 < name.length) Err.smServiceNameTooLong
  setObject out { s.object out with objectId := -1, isBorrowed := false }
  match s.config.serviceOverrides.find? (·.serviceName = str2u64 name) with
  | some override => setObject out ⟨-1, .session override.serviceHandle, true⟩
  | none =>
    failIf requireOverride (homebrewAbiResult (200 + LconfigKey.overrideService.toWord))
    let h ← ipcSendHandle env (s.object .sm)
    setObject out ⟨-1, .session h, false⟩

/-- `sm_get_service`. -/
def smGetService (out : ObjectVar) (name : List Char) : ServiceM Unit :=
  smGetServiceEx env out (serviceName name) false

/-- `svcConnectToNamedPort(&sm_object.session, "sm:")`. -/
def smConnect : ServiceM Unit := do
  let (r, h) ← newHandle env
  modify fun s => { s with
    object := Function.update s.object .sm ⟨-1, .session h, (s.object .sm).isBorrowed⟩ }
  failIf (r ≠ resultOk) r
  modify fun s => { s with ports := h :: s.ports }

def smInit : ServiceM Unit := initOnce .sm (smConnect env)

def smFinalize : ServiceM Unit := finalizeOnce .sm (ipcClose .sm)

/-- `sm_init`, the part of an initialisation that uses `sm`, and `sm_finalize`, also behind the
label `fail_sm`. -/
def withSm (rest : ServiceM Unit) : ServiceM Unit := do
  call (smInit env)
  onFail rest smFinalize
  smFinalize

/-! ## `bsd` -/

variable (requireOverride : Bool) (service : BitVec 32)

/-- The lookups of `bsd_init_ex`: `bsd:u`, and `bsd:s` if that fails and none is asked for. -/
def bsdLookup : ServiceM ResultT := do
  let r ←
    if service = socketServiceBsdU ∨ service = socketServiceUnspecified then do
      modify fun s => { s with bsdService := socketServiceBsdU }
      attempt (smGetServiceEx env .bsd (serviceName ['b', 's', 'd', ':', 'u']) requireOverride)
    else pure Err.bsdUnrecognizedSocketService
  if service = socketServiceBsdS ∨ r ≠ resultOk ∧ service = socketServiceUnspecified then do
    modify fun s => { s with bsdService := socketServiceBsdS }
    attempt (smGetServiceEx env .bsd (serviceName ['b', 's', 'd', ':', 's']) requireOverride)
  else pure r

/-- The service that was found, or the failure of the last lookup. -/
def bsdFind : ServiceM Unit := do
  let r ← bsdLookup env requireOverride service
  if r ≠ resultOk then do
    modify fun s => { s with bsdService := socketServiceUnspecified }
    throw r
  else pure ()

/-- The transfer memory `v` is made and registered with the service `o`, whose reply is an error
number. -/
def registerMemory (o : ObjectVar) (setErrno : Word → State → State)
    (failure : ResultT) : ServiceM Unit := do
  svcCreateTransferMemory env v
  onFail (do
    let s ← get
    let response ← ipcSend env .other (s.object o)
    if response 0 ≠ 0 then do
      modify (setErrno (response 0))
      throw failure
    else pure ()) (closeVar v)

/-- The transfer memory of `bsd`, unless the service is borrowed. -/
def bsdRegister : ServiceM Unit := do
  let s ← get
  if (s.object .bsd).isBorrowed then pure ()
  else
    registerMemory env .bsdTransferMem .bsd (fun e s => { s with bsdErrno := e }) Err.bsdErrnoSet

def bsdBody : ServiceM Unit := do
  bsdFind env requireOverride service
  onFail (do
    smGetService env .iresolver ['s', 'f', 'd', 'n', 's', 'r', 'e', 's']
    onFail (bsdRegister env) (ipcClose .iresolver)) (ipcClose .bsd)

def bsdInitEx : ServiceM Unit :=
  initOnce .bsd (withSm env (bsdBody env requireOverride service))

/-- The transfer memory is closed if the service is not borrowed. -/
def bsdCloseMemory : ServiceM Unit := do
  let s ← get
  if (s.object .bsd).isBorrowed then pure () else svcCloseHandle (s.handle .bsdTransferMem)

def bsdForceFinalize : ServiceM Unit := do
  ipcClose .iresolver
  bsdCloseMemory
  ipcClose .bsd

def bsdFinalize : ServiceM Unit := finalizeOnce .bsd bsdForceFinalize

/-- `bsd_get_socket_service_name`; `none` is `NULL`. -/
def bsdGetSocketServiceName : Option (List Byte) :=
  if service = socketServiceBsdU then some (serviceName ['b', 's', 'd', ':', 'u'])
  else if service = socketServiceBsdS then some (serviceName ['b', 's', 'd', ':', 's'])
  else none

/-! ## `nv` and `gpu` -/

def nvBody : ServiceM Unit := do
  smGetService env .nv ['n', 'v', 'd', 'r', 'v', ':', 'a']
  onFail (registerMemory env .nvTransferMem .nv (fun e s => { s with nvErrno := e })
    Err.nvInitializeFailed) (ipcClose .nv)

def nvInit : ServiceM Unit := initOnce .nv (withSm env (nvBody env))

def nvForceFinalize : ServiceM Unit := do
  closeVar .nvTransferMem
  ipcClose .nv

def nvFinalize : ServiceM Unit := finalizeOnce .nv nvForceFinalize

/-- The words of a reply, or the result of a request that fails, for functions that go on. -/
def tryIpcSend (request : Request) (o : ServiceObject) :
    ServiceM (Except ResultT (Nat → Word)) := fun s =>
  match ipcSend env request o s with
  | .ok reply t => .ok (.ok reply) t
  | .error r t => .ok (.error r) t

/-- `nv_open`. -/
def nvOpen : ServiceM (BitVec 32) := do
  let s ← get
  match ← tryIpcSend env .nvOpen (s.object .nv) with
  | .error r => do
    modify fun s => { s with nvResult := r }
    return -1
  | .ok response =>
    if response 1 ≠ 0 then do
      modify fun s => { s with nvResult := Err.nvOpenFailed, nvErrno := response 1 }
      return -1
    else return response 0

/-- `nv_close`, whose result nobody looks at. -/
def nvClose (fd : Devices → BitVec 32) : ServiceM Unit := do
  let s ← get
  match ← tryIpcSend env (.nvClose (fd s.devices)) (s.object .nv) with
  | .error r => modify fun s => { s with nvResult := r }
  | .ok _ => pure ()

/-- `if((fd = nv_open(…)) < 0) { r = nv_result; goto …; }`, where `store` is the assignment. -/
def gpuOpen (store : BitVec 32 → Devices → Devices) : ServiceM Unit := do
  let fd ← nvOpen env
  modify fun s => { s with devices := store fd s.devices }
  let s ← get
  failIf (fd.toInt < 0) s.nvResult

def gpuInitialize : ServiceM Unit := initOnce .gpu do
  call (nvInit env)
  onFail (do
    gpuOpen env fun fd devices => { devices with nvasFd := fd }
    onFail (gpuOpen env fun fd devices => { devices with nvmapFd := fd })
      (nvClose env Devices.nvasFd)) nvFinalize

def gpuFinalize : ServiceM Unit := finalizeOnce .gpu do
  nvClose env Devices.nvmapFd
  nvClose env Devices.nvasFd
  nvFinalize

/-! ## `vi` and `display` -/

/-- `get_object` of `vi` and `am`. -/
def getObject (iface out : ObjectVar) : ServiceM Unit := do
  let s ← get
  ipcSendObject env (s.object iface) out

def viBody : ServiceM Unit := do
  smGetService env .imrs ['v', 'i', ':', 'm']
  onFail (do
    ipcConvertToDomain env .imrs .viDomain
    onFail (do
      getObject env .imrs .iads
      onFail (do
        getObject env .iads .ihosbd
        onFail (do
          getObject env .iads .isds
          onFail (getObject env .iads .imds) (ipcClose .isds)) (ipcClose .ihosbd))
        (ipcClose .iads)) (ipcClose .imrs)) (ipcCloseDomain .viDomain)

def viInit : ServiceM Unit := initOnce .vi (withSm env (viBody env))

def viForceFinalize : ServiceM Unit := do
  ipcClose .isds
  ipcClose .ihosbd
  ipcClose .iads
  ipcClose .imrs
  ipcCloseDomain .viDomain

def viFinalize : ServiceM Unit := finalizeOnce .vi viForceFinalize

/-- `vi_open_display`. -/
def viOpenDisplay : ServiceM Unit := do
  let s ← get
  discard (ipcSend env .other (s.object .iads))

/-- `vi_close_display`, whose result nobody looks at. -/
def viCloseDisplay : ServiceM Unit := do
  let s ← get
  discard (tryIpcSend env .other (s.object .imds))

def displayInit : ServiceM Unit := initOnce .display do
  call (gpuInitialize env)
  onFail (do
    call (viInit env)
    onFail (viOpenDisplay env) viFinalize) (gpuFinalize env)

def displayFinalize : ServiceM Unit := finalizeOnce .display do
  viCloseDisplay env
  viFinalize
  gpuFinalize env

/-! ## `hid` -/

def hidIpcBody : ServiceM Unit := do
  smGetService env .hidServer ['h', 'i', 'd']
  onFail (getObject env .hidServer .appletResource) (ipcClose .hidServer)

def hidIpcInit : ServiceM Unit := initOnce .hidIpc (withSm env (hidIpcBody env))

def hidIpcForceFinalize : ServiceM Unit := do
  ipcClose .appletResource
  ipcClose .hidServer

def hidIpcFinalize : ServiceM Unit := finalizeOnce .hidIpc hidIpcForceFinalize

/-- `hid_ipc_get_shared_memory_handle`. -/
def hidIpcGetSharedMemoryHandle : ServiceM Unit := do
  let s ← get
  let h ← ipcSendHandle env (s.object .appletResource)
  setHandle .sharedMemory h

/-- `find_empty_memory_block` and `svcMapSharedMemory`. If there is no block, `r` is still the
`RESULT_OK` of the call before. -/
def hidMap : ServiceM Unit := do
  let time ← tick
  modify fun s => { s with devices := { s.devices with sharedMemory := env.emptyBlock time } }
  failIf (env.emptyBlock time = 0) resultOk
  let time ← tick
  failIf (env.map time ≠ resultOk) (env.map time)

def hidInit : ServiceM Unit := initOnce .hid do
  call (hidIpcInit env)
  onFail (do
    hidIpcGetSharedMemoryHandle env
    onFail (hidMap env) (closeVar .sharedMemory)) hidIpcFinalize

/-- `hid_finalize`. The variable is cleared before the handle in it is closed. -/
def hidFinalize : ServiceM Unit := finalizeOnce .hid do
  -- `svcUnmapSharedMemory`
  discard tick
  modify fun s => { s with devices := { s.devices with sharedMemory := 0 } }
  setHandle .sharedMemory 0
  closeVar .sharedMemory
  hidIpcFinalize

/-! ## Other users of `sm` -/

def amBody : ServiceM Unit := do
  smGetService env .proxyService ['a', 'p', 'p', 'l', 'e', 't', 'A', 'E']
  onFail (do
    ipcConvertToDomain env .proxyService .amDomain
    onFail (do
      getObject env .proxyService .proxy
      onFail (do
        getObject env .proxy .isc
        onFail (getObject env .proxy .iwc) (ipcClose .isc)) (ipcClose .proxy))
      (ipcClose .proxyService)) (ipcCloseDomain .amDomain)

def amInit : ServiceM Unit := initOnce .am do
  modify fun s => { s with usingWorkaround := s.config.appletWorkaroundActive }
  let s ← get
  if s.usingWorkaround then pure () else withSm env (amBody env)

def amForceFinalize : ServiceM Unit := do
  let s ← get
  if s.usingWorkaround then pure () else do
    ipcClose .iwc
    ipcClose .isc
    ipcClose .proxy
    ipcClose .proxyService
    ipcCloseDomain .amDomain

def amFinalize : ServiceM Unit := finalizeOnce .am amForceFinalize

def audioIpcInit : ServiceM Unit :=
  initOnce .audio (withSm env (smGetService env .iaom ['a', 'u', 'd', 'o', 'u', 't', ':', 'u']))

def audioIpcFinalize : ServiceM Unit := finalizeOnce .audio (ipcClose .iaom)

def roBody : ServiceM Unit := do
  smGetService env .ro ['l', 'd', 'r', ':', 'r', 'o']
  onFail (do
    let s ← get
    discard (ipcSend env .other (s.object .ro))) (ipcClose .ro)

def roInit : ServiceM Unit := initOnce .ro (withSm env (roBody env))

def roFinalize : ServiceM Unit := finalizeOnce .ro (ipcClose .ro)

def nifmOpen : ServiceM Unit := do
  smGetService env .nifmS ['n', 'i', 'f', 'm', ':', 's']
  onFail (do
    modify fun s => { s with
      object := Function.update s.object .nifmG { s.object .nifmG with objectId := -1 } }
    getObject env .nifmS .nifmG) (ipcClose .nifmS)

def nifmBody : ServiceM Unit := do
  nifmOpen env
  ipcClose .nifmS

def nifmInit : ServiceM Unit := initOnce .nifm (withSm env (nifmBody env))

def nifmFinalize : ServiceM Unit := finalizeOnce .nifm (ipcClose .nifmG)

/-- The lookups of `time_init`, one after the other until one succeeds. -/
def timeLookup : ServiceM ResultT := do
  let r ← attempt (smGetService env .time ['t', 'i', 'm', 'e', ':', 's'])
  if r ≠ resultOk then do
    let r ← attempt (smGetService env .time ['t', 'i', 'm', 'e', ':', 'g'])
    if r ≠ resultOk then attempt (smGetService env .time ['t', 'i', 'm', 'e', ':', 'a'])
    else pure r
  else pure r

def timeFind : ServiceM Unit := do
  let r ← timeLookup env
  failIf (r ≠ resultOk) r

def timeBody : ServiceM Unit := do
  timeFind env
  onFail (getObject env .time .isystemclock) (ipcClose .time)

def timeInit : ServiceM Unit := initOnce .time do
  withSm env (timeBody env)
  ipcClose .time

def timeFinalize : ServiceM Unit := finalizeOnce .time (ipcClose .isystemclock)

def bpcInit : ServiceM Unit :=
  initOnce .bpc (withSm env (smGetService env .ibpcm ['b', 'p', 'c']))

def bpcFinalize : ServiceM Unit := finalizeOnce .bpc (ipcClose .ibpcm)

end

/-! ## All of them -/

/-- A call of an initialisation. -/
inductive Init
  | sm | bsd (requireOverride : Bool) (service : BitVec 32) | nv | gpu | vi | display | hid | hidIpc
  | am | audio | ro | nifm | time | bpc

def Init.module : Init → Module
  | .sm => .sm
  | .bsd _ _ => .bsd
  | .nv => .nv
  | .gpu => .gpu
  | .vi => .vi
  | .display => .display
  | .hid => .hid
  | .hidIpc => .hidIpc
  | .am => .am
  | .audio => .audio
  | .ro => .ro
  | .nifm => .nifm
  | .time => .time
  | .bpc => .bpc

def Init.run (env : Env) : Init → ServiceM Unit
  | .sm => smInit env
  | .bsd requireOverride service => bsdInitEx env requireOverride service
  | .nv => nvInit env
  | .gpu => gpuInitialize env
  | .vi => viInit env
  | .display => displayInit env
  | .hid => hidInit env
  | .hidIpc => hidIpcInit env
  | .am => amInit env
  | .audio => audioIpcInit env
  | .ro => roInit env
  | .nifm => nifmInit env
  | .time => timeInit env
  | .bpc => bpcInit env

def Module.finalize (env : Env) : Module → ServiceM Unit
  | .sm => smFinalize
  | .bsd => bsdFinalize
  | .nv => nvFinalize
  | .gpu => gpuFinalize env
  | .vi => viFinalize
  | .display => displayFinalize env
  | .hid => hidFinalize
  | .hidIpc => hidIpcFinalize
  | .am => amFinalize
  | .audio => audioIpcFinalize
  | .ro => roFinalize
  | .nifm => nifmFinalize
  | .time => timeFinalize
  | .bpc => bpcFinalize

/-- The variables as the program starts, with the configuration that the loader left. -/
def State.initial (config : LoaderConfig) : State where
  config := config
  count _ := 0
  object _ := ⟨0, .session 0, false⟩
  handle _ := 0
  bsdService := 0
  bsdErrno := 0
  nvResult := resultOk
  nvErrno := 0
  devices := ⟨0, 0, 0⟩
  usingWorkaround := false
  clock := 0
  ledger := []
  ports := []

/-- An environment that grants every request, and numbers the handles by the calls. -/
def Env.obliging : Env where
  create n held :=
    if BitVec.ofNat 32 (n + 1) = 0 ∨ BitVec.ofNat 32 (n + 1) ∈ held then (1, 0)
    else (resultOk, BitVec.ofNat 32 (n + 1))
  create_fresh n held hr := by
    split at hr
    · exact absurd hr (by decide)
    · rename_i h
      rw [if_neg h]
      exact not_or.1 h
  send _ _ := (resultOk, fun _ => 0)
  map _ := resultOk
  emptyBlock _ := 0x1000

end LibTransistor.Service
