import LibTransistor.Lib.Align
import LibTransistor.Lib.Runs
import LibTransistor.Loader.Config

/-!
# The program break

`_sbrk_r` of `lib/syscalls/syscalls.c` moves the end of the heap by a signed increment. The heap is
a block that the loader names, or it is grown with `svcSetHeapSize` in steps of 32 MiB. Sizes are
`size_t`, so `data_size + incr` wraps around, and the size handed to the kernel is cut to 32 bits.

* `SbrkRun.InOrder` — the break lies in memory that was obtained, and the base is known.
* `SbrkRun.Sound` — a call does what a call of `sbrk` should.
* `SbrkCall.InRange` — the numbers of a call are small enough for that, and only then
  (`sbrk_sound_iff`).
-/

namespace LibTransistor

open Align Fallible BitVec

/-! ## Model -/

/-- What `svcSetHeapSize` leaves in `x0` and `x1`. -/
structure HeapAnswer where
  result : ResultT
  addr : BitVec 64

structure HeapState where
  dataSize : BitVec 64
  actualDataSize : BitVec 64
  heapAddr : BitVec 64
  /-- The size of the heap that the kernel gave the process. No function reads it. -/
  granted : BitVec 32

def HeapState.initial : HeapState := ⟨0, 0, 0, 0⟩

/-- The argument of a call, and what the kernel answers to a size if it is asked. -/
structure SbrkCall where
  incr : BitVec 64
  kernel : BitVec 32 → HeapAnswer

abbrev SbrkM := EStateM Int HeapState

/-- `svcSetHeapSize(&heap_addr, size)`. The stub stores `x1` also when the kernel refuses. -/
def svcSetHeapSize (kernel : BitVec 32 → HeapAnswer) (size : BitVec 32) : SbrkM ResultT := do
  let answer := kernel size
  modify fun s => { s with
    heapAddr := answer.addr
    granted := if answer.result = resultOk then size else s.granted }
  return answer.result

/-- `HEAP_SIZE_INCREMENT`. -/
def heapSizeIncrement : BitVec 64 := 0x2000000#64

/-- The part of `_sbrk_r` that asks the kernel for more memory where it is needed. -/
def growHeap (call : SbrkCall) : SbrkM Unit := do
  let s ← get
  if s.actualDataSize < s.dataSize + call.incr ∨ s.heapAddr = 0 then
    let correctedIncr := s.dataSize + call.incr - s.actualDataSize
    let roundedIncr := (correctedIncr + heapSizeIncrement - 1) &&& ~~~(heapSizeIncrement - 1)
    let r ← svcSetHeapSize call.kernel ((s.actualDataSize + roundedIncr).setWidth 32)
    failIf (r ≠ resultOk) Errno.enomem
    modify fun s => { s with actualDataSize := s.actualDataSize + roundedIncr }

/-- `_sbrk_r`. Where the source sets `_errno` and returns `(void*) -1`, the error is that number. -/
def sbrk (config : HeapConfig) (call : SbrkCall) : SbrkM (BitVec 64) := do
  if config.heapOverridden then
    let s ← get
    failIf (config.heapSize < s.dataSize + call.incr) Errno.enomem
    set { s with dataSize := s.dataSize + call.incr }
    return config.heapBase + s.dataSize
  else
    growHeap call
    let s ← get
    set { s with dataSize := s.dataSize + call.incr }
    return s.heapAddr + s.dataSize

/-! ## What a call does -/

variable {config : HeapConfig} {base : BitVec 64} {s : HeapState} {call : SbrkCall}

/-- The value of `data_size + incr`. -/
def HeapState.need (s : HeapState) (call : SbrkCall) : BitVec 64 := s.dataSize + call.incr

/-- The kernel is asked for a new size. -/
def HeapState.Asks (s : HeapState) (call : SbrkCall) : Prop :=
  s.actualDataSize < s.need call ∨ s.heapAddr = 0

/-- The new value of `actual_data_size`. -/
def HeapState.size (s : HeapState) (call : SbrkCall) : BitVec 64 :=
  s.actualDataSize +
    ((s.need call - s.actualDataSize + heapSizeIncrement - 1) &&& ~~~(heapSizeIncrement - 1))

/-- The kernel's answer to the size it is asked for. -/
def HeapState.answer (s : HeapState) (call : SbrkCall) : HeapAnswer :=
  call.kernel ((s.size call).setWidth 32)

theorem sbrk_overridden (s : HeapState) (call : SbrkCall) (h : config.heapOverridden = true) :
    sbrk config call s = if config.heapSize < s.need call then .error Errno.enomem s
      else .ok (config.heapBase + s.dataSize) { s with dataSize := s.need call } := by
  unfold sbrk
  rw [if_pos h, get_bind_run]
  by_cases hlt : config.heapSize < s.need call
  · rw [if_pos hlt]
    exact failIf_bind_of hlt
  · rw [if_neg hlt]
    exact failIf_bind_of_not hlt

theorem sbrk_kept (h : config.heapOverridden = false) (hasks : ¬ s.Asks call) :
    sbrk config call s = .ok (s.heapAddr + s.dataSize) { s with dataSize := s.need call } := by
  have hgrow : growHeap call s = .ok () s := by
    unfold growHeap
    rw [get_bind_run, if_neg (by exact hasks)]
    rfl
  unfold sbrk
  rw [if_neg (by simp [h]), bind_of_ok hgrow]
  rfl

theorem svcSetHeapSize_refused {kernel : BitVec 32 → HeapAnswer} {size : BitVec 32}
    (h : (kernel size).result ≠ resultOk) : svcSetHeapSize kernel size s
      = .ok (kernel size).result { s with heapAddr := (kernel size).addr } := by
  unfold svcSetHeapSize
  rw [modify_bind_run, if_neg h]
  rfl

theorem svcSetHeapSize_granted {kernel : BitVec 32 → HeapAnswer} {size : BitVec 32}
    (h : (kernel size).result = resultOk) : svcSetHeapSize kernel size s
      = .ok (kernel size).result { s with heapAddr := (kernel size).addr, granted := size } := by
  unfold svcSetHeapSize
  rw [modify_bind_run, if_pos h]
  rfl

theorem sbrk_refused (h : config.heapOverridden = false) (hasks : s.Asks call)
    (hr : (s.answer call).result ≠ resultOk) :
    sbrk config call s = .error Errno.enomem { s with heapAddr := (s.answer call).addr } := by
  have hgrow : growHeap call s
      = .error Errno.enomem { s with heapAddr := (s.answer call).addr } := by
    unfold growHeap
    rw [get_bind_run, if_pos (by exact hasks)]
    refine (bind_of_ok (svcSetHeapSize_refused hr)).trans ?_
    exact failIf_bind_of hr
  unfold sbrk
  rw [if_neg (by simp [h])]
  exact bind_of_error hgrow

/-- `heap_addr` and `actual_data_size` are what the kernel was asked for and gave. -/
theorem sbrk_granted (h : config.heapOverridden = false) (hasks : s.Asks call)
    (hr : (s.answer call).result = resultOk) :
    sbrk config call s = .ok ((s.answer call).addr + s.dataSize)
      ⟨s.need call, s.size call, (s.answer call).addr, (s.size call).setWidth 32⟩ := by
  have hgrow : growHeap call s = .ok ()
      ⟨s.dataSize, s.size call, (s.answer call).addr, (s.size call).setWidth 32⟩ := by
    unfold growHeap
    rw [get_bind_run, if_pos (by exact hasks)]
    refine (bind_of_ok (svcSetHeapSize_granted hr)).trans ?_
    exact failIf_bind_of_not (not_not_intro hr)
  unfold sbrk
  rw [if_neg (by simp [h]), bind_of_ok hgrow]
  rfl

/-! ## The numbers -/

theorem le_alignUp_mod_iff (n : Nat) :
    n ≤ alignUp n (2 ^ 25) % 2 ^ 64 % 2 ^ 32 ↔ alignUp n (2 ^ 25) < 2 ^ 32 := by
  have hle := le_alignUp (Nat.two_pow_pos 25) n
  have hlt := alignUp_lt (Nat.two_pow_pos 25) n
  omega

/-- Adding an increment does not leave the 64 bits. -/
def HeapState.Exact (s : HeapState) (call : SbrkCall) : Prop :=
  ((s.need call).toNat : Int) = s.dataSize.toNat + call.incr.toInt

theorem exact_iff : s.Exact call ↔
    0 ≤ s.dataSize.toNat + call.incr.toInt ∧ s.dataSize.toNat + call.incr.toInt < 2 ^ 64 := by
  have hadd : (s.need call).toNat = (s.dataSize.toNat + call.incr.toNat) % 2 ^ 64 :=
    toNat_add ..
  unfold HeapState.Exact
  rw [toInt_eq_toNat_cond]
  constructor
  · intro h
    omega
  · intro h
    omega

theorem toNat_size (call : SbrkCall) (h : 2 ^ 25 ∣ s.actualDataSize.toNat) :
    (s.size call).toNat = alignUp (s.need call).toNat (2 ^ 25) % 2 ^ 64 := by
  have hmask : (heapSizeIncrement - 1).toNat = 2 ^ 25 - 1 := by decide
  have hsize : s.size call
      = (s.need call + (heapSizeIncrement - 1)) &&& ~~~(heapSizeIncrement - 1) := by
    have hsum : s.actualDataSize + (s.need call - s.actualDataSize + heapSizeIncrement - 1)
        = s.need call + (heapSizeIncrement - 1) := by grind
    unfold HeapState.size
    rw [add_and_not (by decide) hmask h, hsum]
  rw [hsize, toNat_add_and_not (by decide) hmask]

/-! ## Runs -/

/-- A run: its state, and the sum of the increments of the calls that succeeded. -/
structure SbrkRun where
  heap : HeapState
  moved : Int

def SbrkRun.start : SbrkRun := ⟨.initial, 0⟩

/-- The run after one more call. -/
def SbrkRun.after (config : HeapConfig) (s : SbrkRun) (call : SbrkCall) : SbrkRun :=
  match sbrk config call s.heap with
  | .ok _ heap => ⟨heap, s.moved + call.incr.toInt⟩
  | .error _ heap => ⟨heap, s.moved⟩

/-- The heap that the kernel hands out starts at `base`. -/
def SbrkCall.GivesBase (call : SbrkCall) (base : BitVec 64) : Prop :=
  ∀ size, (call.kernel size).result = resultOk → (call.kernel size).addr = base

def sbrkSystem (config : HeapConfig) (base : BitVec 64) : System SbrkRun SbrkCall where
  init s := s = .start
  step s call s' := call.GivesBase base ∧ s' = s.after config call

/-! ## Calls that behave -/

/-- The start of the heap, which is at `base` if the kernel places it. -/
def HeapConfig.heapStart (config : HeapConfig) (base : BitVec 64) : BitVec 64 :=
  if config.heapOverridden then config.heapBase else base

/-- The size of the memory that there is for the heap. -/
def HeapConfig.obtained (config : HeapConfig) (s : HeapState) : Nat :=
  if config.heapOverridden then config.heapSize.toNat else s.granted.toNat

/-- `n` bytes are there, or the kernel would give them. -/
def HeapConfig.Obtainable (config : HeapConfig) (s : HeapState) (call : SbrkCall) (n : Int) :
    Prop :=
  n ≤ config.obtained s ∨ config.heapOverridden = false ∧
    ∃ size, (call.kernel size).result = resultOk ∧ n ≤ size.toNat

/-- The break is where the calls have moved it, in memory that was obtained. A heap that is grown
starts at `base`, or nothing is known yet and the kernel is asked again. -/
structure SbrkRun.InOrder (config : HeapConfig) (base : BitVec 64) (s : SbrkRun) : Prop where
  moved : (s.heap.dataSize.toNat : Int) = s.moved
  within : s.moved ≤ config.obtained s.heap
  base : config.heapOverridden = false → s.heap.heapAddr = 0 ∨ s.heap.heapAddr = base

/-- What is asked of a call. -/
structure SbrkRun.Sound (config : HeapConfig) (base : BitVec 64) (s : SbrkRun) (call : SbrkCall) :
    Prop where
  inOrder : (s.after config call).InOrder config base
  /-- A call that succeeds returns where the break was. -/
  returns : ∀ addr heap, sbrk config call s.heap = .ok addr heap →
    addr = config.heapStart base + BitVec.ofInt 64 s.moved
  /-- A break outside of what can be had is refused. -/
  refuses : (s.moved + call.incr.toInt < 0 ∨
      ¬ config.Obtainable s.heap call (s.moved + call.incr.toInt)) →
    ∃ heap, sbrk config call s.heap = .error Errno.enomem heap
  /-- A call that fails does nothing. -/
  unchanged : ∀ e heap, sbrk config call s.heap = .error e heap → e = Errno.enomem ∧
    heap.dataSize = s.heap.dataSize ∧ heap.actualDataSize = s.heap.actualDataSize

/-- The sums of a call do not wrap around or are refused all the same, the size asked for fits into
32 bits, and a kernel that refuses does not leave a wrong base behind. -/
def SbrkCall.InRange (config : HeapConfig) (base : BitVec 64) (s : HeapState) (call : SbrkCall) :
    Prop :=
  if config.heapOverridden then s.Exact call ∨ config.heapSize < s.need call
  else s.Asks call →
    if (s.answer call).result = resultOk then
      s.Exact call ∧ alignUp (s.need call).toNat (2 ^ 25) < 2 ^ 32
    else (s.answer call).addr = 0 ∨ (s.answer call).addr = base

instance Asks.decidable : Decidable (s.Asks call) := inferInstanceAs (Decidable (_ ∨ _))

instance Exact.decidable : Decidable (s.Exact call) := inferInstanceAs (Decidable (_ = _))

instance InRange.decidable : Decidable (call.InRange config base s) := by
  unfold SbrkCall.InRange
  infer_instance

/-- What is known between calls. -/
structure SbrkRun.Inv (config : HeapConfig) (base : BitVec 64) (s : SbrkRun) : Prop
    extends s.InOrder config base where
  actual : s.heap.actualDataSize.toNat = s.heap.granted.toNat
  aligned : 2 ^ 25 ∣ s.heap.actualDataSize.toNat

section Calls

variable {r : SbrkRun} {addr : BitVec 64} {heap : HeapState}

theorem after_of_ok (h : sbrk config call r.heap = .ok addr heap) :
    r.after config call = ⟨heap, r.moved + call.incr.toInt⟩ := by
  unfold SbrkRun.after
  rw [h]

theorem after_of_error {e : Int} (h : sbrk config call r.heap = .error e heap) :
    r.after config call = ⟨heap, r.moved⟩ := by
  unfold SbrkRun.after
  rw [h]

theorem sound_of_error (h : sbrk config call r.heap = .error Errno.enomem heap)
    (hdata : heap.dataSize = r.heap.dataSize)
    (hactual : heap.actualDataSize = r.heap.actualDataSize) :
    r.Sound config base call ↔ (SbrkRun.mk heap r.moved).InOrder config base := by
  rw [← after_of_error h]
  constructor
  · intro hsound
    exact hsound.inOrder
  · intro horder
    refine ⟨horder, fun addr heap' hok => ?_, fun _ => ⟨heap, h⟩, fun e heap' herror => ?_⟩
    · rw [h] at hok
      cases hok
    · rw [h] at herror
      cases herror
      exact ⟨rfl, hdata, hactual⟩

theorem sound_of_ok (h : sbrk config call r.heap = .ok addr heap)
    (haddr : addr = config.heapStart base + BitVec.ofInt 64 r.moved)
    (hobtained : r.moved + call.incr.toInt ≤ config.obtained heap →
      config.Obtainable r.heap call (r.moved + call.incr.toInt)) :
    r.Sound config base call
      ↔ (SbrkRun.mk heap (r.moved + call.incr.toInt)).InOrder config base := by
  rw [← after_of_ok h]
  constructor
  · intro hsound
    exact hsound.inOrder
  · intro horder
    refine ⟨horder, fun addr' heap' hok => ?_, fun hbad => ?_, fun e heap' herror => ?_⟩
    · rw [h] at hok
      cases hok
      exact haddr
    · rw [after_of_ok h] at horder
      have hnonneg := horder.moved
      rcases hbad with hneg | hout
      · simp only at hnonneg
        omega
      · exact absurd (hobtained horder.within) hout
    · rw [h] at herror
      cases herror

theorem heapStart_of_grown (hmode : config.heapOverridden = false) (base : BitVec 64) :
    config.heapStart base = base := if_neg (by simp [hmode])

theorem obtained_of_grown (hmode : config.heapOverridden = false) (s : HeapState) :
    config.obtained s = s.granted.toNat := if_neg (by simp [hmode])

section Inv

variable (h : r.Inv config base)

include h

theorem SbrkRun.Inv.dataSize_eq : r.heap.dataSize = BitVec.ofInt 64 r.moved := by
  rw [← h.moved, ofInt_natCast, ofNat_toNat, setWidth_eq]

theorem SbrkRun.Inv.exact_iff_moved :
    r.heap.Exact call ↔ ((r.heap.need call).toNat : Int) = r.moved + call.incr.toInt := by
  unfold HeapState.Exact
  rw [h.moved]

theorem sound_iff_overridden (hmode : config.heapOverridden = true) :
    r.Sound config base call ↔ r.heap.Exact call ∨ config.heapSize < r.heap.need call := by
  have hrun := sbrk_overridden r.heap call hmode
  by_cases hlt : config.heapSize < r.heap.need call
  · rw [if_pos hlt] at hrun
    rw [sound_of_error hrun rfl rfl]
    exact iff_of_true h.toInOrder (.inr hlt)
  · rw [if_neg hlt] at hrun
    have haddr : config.heapBase + r.heap.dataSize
        = config.heapStart base + BitVec.ofInt 64 r.moved := by
      unfold HeapConfig.heapStart
      rw [if_pos hmode, h.dataSize_eq]
    rw [sound_of_ok hrun haddr .inl, h.exact_iff_moved]
    constructor
    · intro horder
      exact .inl horder.moved
    · intro hexact
      have hmoved := hexact.resolve_right hlt
      refine ⟨hmoved, ?_, h.base⟩
      unfold HeapConfig.obtained
      rw [if_pos hmode, ← hmoved]
      exact Int.ofNat_le.2 (Nat.le_of_not_lt hlt)

variable (hmode : config.heapOverridden = false)

include hmode

/-- A break inside what the heap has already: the sum cannot have wrapped around. -/
theorem sound_of_kept (hasks : ¬ r.heap.Asks call) : r.Sound config base call := by
  have hrun := sbrk_kept hmode hasks
  obtain ⟨hle, haddr⟩ := not_or.1 hasks
  have hbase := (h.base hmode).resolve_left haddr
  have hneed : (r.heap.need call).toNat ≤ r.heap.granted.toNat := by
    rw [← h.actual]
    exact Nat.le_of_not_lt hle
  have hwithin := h.within
  rw [obtained_of_grown hmode, ← h.moved] at hwithin
  have hexact : r.heap.Exact call := by
    have hadd : (r.heap.need call).toNat = (r.heap.dataSize.toNat + call.incr.toNat) % 2 ^ 64 :=
      toNat_add ..
    rw [exact_iff, toInt_eq_toNat_cond]
    split <;> omega
  have hstart : r.heap.heapAddr + r.heap.dataSize
      = config.heapStart base + BitVec.ofInt 64 r.moved := by
    rw [heapStart_of_grown hmode, hbase, h.dataSize_eq]
  have hmoved := h.exact_iff_moved.1 hexact
  refine (sound_of_ok hrun hstart .inl).2 ⟨hmoved, ?_, fun _ => .inr hbase⟩
  rw [obtained_of_grown hmode, ← hmoved]
  exact Int.ofNat_le.2 hneed

theorem sound_iff_refused (hasks : r.heap.Asks call)
    (hr : (r.heap.answer call).result ≠ resultOk) : r.Sound config base call
      ↔ (r.heap.answer call).addr = 0 ∨ (r.heap.answer call).addr = base := by
  rw [sound_of_error (sbrk_refused hmode hasks hr) rfl rfl]
  constructor
  · intro horder
    exact horder.base hmode
  · intro haddr
    exact ⟨h.moved, h.within, fun _ => haddr⟩

theorem sound_iff_granted (hbase : call.GivesBase base) (hasks : r.heap.Asks call)
    (hr : (r.heap.answer call).result = resultOk) : r.Sound config base call
      ↔ r.heap.Exact call ∧ alignUp (r.heap.need call).toNat (2 ^ 25) < 2 ^ 32 := by
  have haddr : (r.heap.answer call).addr = base := hbase _ hr
  have hstart : (r.heap.answer call).addr + r.heap.dataSize
      = config.heapStart base + BitVec.ofInt 64 r.moved := by
    rw [heapStart_of_grown hmode, haddr, h.dataSize_eq]
  have hsize : ((r.heap.size call).setWidth 32).toNat
      = alignUp (r.heap.need call).toNat (2 ^ 25) % 2 ^ 64 % 2 ^ 32 := by
    rw [toNat_setWidth, toNat_size call h.aligned]
  have hobtained (n : Int) : n ≤ config.obtained ⟨r.heap.need call, r.heap.size call,
      (r.heap.answer call).addr, (r.heap.size call).setWidth 32⟩
        ↔ n ≤ ((r.heap.size call).setWidth 32).toNat := by
    rw [obtained_of_grown hmode]
  rw [sound_of_ok (sbrk_granted hmode hasks hr) hstart
    (fun hle => .inr ⟨hmode, _, hr, (hobtained _).1 hle⟩), h.exact_iff_moved]
  constructor
  · intro horder
    have hwithin := (hobtained _).1 horder.within
    rw [← horder.moved, hsize, Int.ofNat_le, le_alignUp_mod_iff] at hwithin
    exact ⟨horder.moved, hwithin⟩
  · rintro ⟨hmoved, hfits⟩
    refine ⟨hmoved, (hobtained _).2 ?_, fun _ => .inr haddr⟩
    rw [← hmoved, hsize, Int.ofNat_le, le_alignUp_mod_iff]
    exact hfits

omit hmode

theorem SbrkRun.Inv.sound_iff (hbase : call.GivesBase base) :
    r.Sound config base call ↔ call.InRange config base r.heap := by
  unfold SbrkCall.InRange
  cases hmode : config.heapOverridden with
  | true =>
    exact sound_iff_overridden h hmode
  | false =>
    rw [if_neg Bool.false_ne_true]
    by_cases hasks : r.heap.Asks call
    · rw [forall_prop_of_true hasks]
      split
      · rename_i hr
        exact sound_iff_granted h hmode hbase hasks hr
      · rename_i hr
        exact sound_iff_refused h hmode hasks hr
    · exact iff_of_true (sound_of_kept h hmode hasks) fun h' => absurd h' hasks

theorem SbrkRun.Inv.books_after (hrange : call.InRange config base r.heap) :
    let heap := (r.after config call).heap
    heap.actualDataSize.toNat = heap.granted.toNat ∧ 2 ^ 25 ∣ heap.actualDataSize.toNat := by
  intro heap
  unfold SbrkCall.InRange at hrange
  cases hmode : config.heapOverridden with
  | true =>
    have hrun := sbrk_overridden r.heap call hmode
    by_cases hlt : config.heapSize < r.heap.need call
    · rw [if_pos hlt] at hrun
      rw [show heap = _ from congrArg SbrkRun.heap (after_of_error hrun)]
      exact ⟨h.actual, h.aligned⟩
    · rw [if_neg hlt] at hrun
      rw [show heap = _ from congrArg SbrkRun.heap (after_of_ok hrun)]
      exact ⟨h.actual, h.aligned⟩
  | false =>
    rw [hmode] at hrange
    by_cases hasks : r.heap.Asks call
    · by_cases hr : (r.heap.answer call).result = resultOk
      · have hfits := hrange hasks
        rw [if_pos hr] at hfits
        have hsize := toNat_size call h.aligned
        rw [Nat.mod_eq_of_lt (Nat.lt_trans hfits.2 (by decide))] at hsize
        rw [show heap = _ from congrArg SbrkRun.heap (after_of_ok (sbrk_granted hmode hasks hr))]
        refine ⟨?_, ?_⟩
        · rw [toNat_setWidth, hsize, Nat.mod_eq_of_lt hfits.2]
        · rw [hsize]
          exact dvd_alignUp _ _
      · rw [show heap = _ from congrArg SbrkRun.heap (after_of_error (sbrk_refused hmode hasks hr))]
        exact ⟨h.actual, h.aligned⟩
    · rw [show heap = _ from congrArg SbrkRun.heap (after_of_ok (sbrk_kept hmode hasks))]
      exact ⟨h.actual, h.aligned⟩

/-- The step: a call in range keeps what is known. -/
theorem SbrkRun.Inv.after (hbase : call.GivesBase base)
    (hrange : call.InRange config base r.heap) : (r.after config call).Inv config base := by
  obtain ⟨hactual, haligned⟩ := h.books_after hrange
  exact ⟨((h.sound_iff hbase).2 hrange).inOrder, hactual, haligned⟩

end Inv

theorem SbrkRun.Inv.start (config : HeapConfig) (base : BitVec 64) :
    SbrkRun.start.Inv config base := by
  refine ⟨⟨rfl, Int.natCast_nonneg _, fun _ => .inl rfl⟩, rfl, Nat.dvd_zero _⟩

end Calls

/-- The runs whose calls are all in range. -/
def sbrkSystemInRange (config : HeapConfig) (base : BitVec 64) : System SbrkRun SbrkCall :=
  (sbrkSystem config base).restrict fun r call _ => call.InRange config base r.heap

/-- **The break.** In a run whose calls are all in range the break is in order after every call, and
a further call is sound exactly if it is in range. -/
theorem sbrk_sound_iff {r : SbrkRun} (hr : (sbrkSystemInRange config base).Reachable r) :
    r.InOrder config base ∧ ∀ call : SbrkCall, call.GivesBase base →
      (r.Sound config base call ↔ call.InRange config base r.heap) := by
  have hinv : r.Inv config base := by
    refine hr.invariant ?_ ?_
    · rintro _ rfl
      exact .start config base
    · rintro r call _ h ⟨⟨hbase, rfl⟩, hrange⟩
      exact h.after hbase hrange
  exact ⟨hinv.toInOrder, fun call hbase => hinv.sound_iff hbase⟩

/-- A heap that the kernel grows. -/
def grownHeap : HeapConfig := ⟨false, 0, 0⟩

/-- A call that the kernel gives all that it asks for. -/
def sbrkBy (incr : BitVec 64) : SbrkCall := ⟨incr, fun _ => ⟨resultOk, 0x8000000⟩⟩

theorem sbrkBy_givesBase (incr : BitVec 64) : (sbrkBy incr).GivesBase 0x8000000 := fun _ _ => rfl

/-- The heap after `sbrk(0x1000)` and `sbrk(-0x800)`. -/
def shrunkHeap : SbrkRun :=
  (SbrkRun.start.after grownHeap (sbrkBy 0x1000)).after grownHeap (sbrkBy (-0x800))

theorem shrunkHeap_sound : shrunkHeap.InOrder grownHeap 0x8000000 ∧
    shrunkHeap.Sound grownHeap 0x8000000 (sbrkBy 0x3000000) := by
  have hstart : (sbrkSystemInRange grownHeap 0x8000000).Reachable .start := .init rfl
  have hgrown := hstart.step (sbrkBy 0x1000) ⟨⟨sbrkBy_givesBase _, rfl⟩, by decide +kernel⟩
  have hshrunk := hgrown.step (sbrkBy (-0x800)) ⟨⟨sbrkBy_givesBase _, rfl⟩, by decide +kernel⟩
  obtain ⟨horder, hiff⟩ := sbrk_sound_iff hshrunk
  exact ⟨horder, (hiff (sbrkBy 0x3000000) (sbrkBy_givesBase _)).2 (by decide +kernel)⟩

/-- A break below the base and a break that 32 bits do not reach: both calls succeed, the first with
`data_size` at the top of the address space, the second with a heap of no bytes. -/
theorem outOfRange_not_sound :
    sbrk grownHeap (sbrkBy (-1)) .initial = .ok 0x8000000 ⟨-1, 0, 0x8000000, 0⟩ ∧
    ¬ SbrkRun.start.Sound grownHeap 0x8000000 (sbrkBy (-1)) ∧
    sbrk grownHeap (sbrkBy 0xFE000001) .initial
      = .ok 0x8000000 ⟨0xFE000001, 0x100000000, 0x8000000, 0⟩ ∧
    ¬ SbrkRun.start.Sound grownHeap 0x8000000 (sbrkBy 0xFE000001) := by
  have hstart := SbrkRun.Inv.start grownHeap 0x8000000
  refine ⟨rfl, ?_, rfl, ?_⟩
  · rw [hstart.sound_iff (sbrkBy_givesBase _)]
    decide +kernel
  · rw [hstart.sound_iff (sbrkBy_givesBase _)]
    decide +kernel

end LibTransistor
