import LibTransistor.Display.RoundTrip
import LibTransistor.Display.Surface

/-!
# Replies of any content

What the transactions of `lib/display/graphic_buffer_queue.c` make of a reply when nothing is known
about the 0x210 bytes in the buffer. `parcel_load` compares the size in the header with the payload,
and not the offset with the buffer; of the functions that read the values, `igbp_connect` alone asks
before each part whether it has come.

* `IgbpFunction.read` — what a function reads after its transaction, with everything that it stores
  through its pointers.
* `ReplyChecked` — the load stays inside of the buffer, and a function that succeeds has read no
  more than what was loaded: its output does not depend on what was on the stack before.

**When a reply is checked** (`reply_checked_iff`): the exact condition on the header and the number
of bytes behind it, for each function.
-/

namespace LibTransistor

open Fallible BitVec

/-! ## The functions -/

/-- The functions that read values from a reply. -/
inductive IgbpFunction
  | requestBuffer | dequeueBuffer | queueBuffer | connect

/-- What a function stores through its pointers. -/
inductive ReplyOutput
  | requested (status : BitVec 32)
  | dequeued (slot : BitVec 32) (fence : List Byte) (status : BitVec 32)
  | output (qbo : QueueBufferOutput) (status : BitVec 32)
  deriving DecidableEq

namespace IgbpFunction

/-- What a function does with the response. -/
def read : IgbpFunction → ParcelM ReplyOutput
  | requestBuffer => do
    let status ← readRequestReply
    return .requested status
  | dequeueBuffer => do
    let reply ← readDequeueReply
    return .dequeued reply.1 reply.2.1 reply.2.2
  | queueBuffer => do
    let reply ← readQueueReply
    return .output reply.1 reply.2
  | connect => do
    let reply ← readConnectReply
    return .output reply.1 reply.2

/-- A function from the moment on when `vi_transact_parcel` has filled the buffer. -/
def receive (f : IgbpFunction) (outBuffer : Mem Byte) : ParcelM ReplyOutput := do
  parcelLoad outBuffer
  f.read

end IgbpFunction

/-! ## Checked replies -/

/-- `sizeof(out_buffer)` in `binder_transact_parcel`. -/
def outBufferSize : Nat := 0x210

/-- The bytes that `parcel_load` copies are bytes of the buffer. -/
def LoadInside (outBuffer : Mem Byte) (response : Parcel) : Prop :=
  Ends (parcelLoad outBuffer response)
    (fun _ q => ∀ i < q.dataSize.toNat, q.dataOffset.toNat + i < outBufferSize)
    (fun e _ => e ≠ .outOfBounds)

/-- A function fails, or outputs what has been loaded whatever the response held before. -/
def ReadInside (f : IgbpFunction) (outBuffer : Mem Byte) (response : Parcel) : Prop :=
  Ends (f.receive outBuffer response)
    (fun out q => q.readHead ≤ q.writeHead ∧
      ∀ stale, outcome (f.receive outBuffer stale) = .ok out)
    (fun e _ => e ≠ .outOfBounds)

def ReplyChecked (f : IgbpFunction) (outBuffer : Mem Byte) (response : Parcel) : Prop :=
  LoadInside outBuffer response ∧ ReadInside f outBuffer response

/-! ## The condition -/

/-- The bytes that the header points at are bytes of the buffer. -/
def RangeInside (outBuffer : Mem Byte) : Prop :=
  wordAt outBuffer 0 = 0 ∨
    (wordAt outBuffer 4).toNat + (wordAt outBuffer 0).toNat ≤ outBufferSize

/-- Of a payload with `size` bytes of data, the data has all that the function reads. A function
that finds out that it has not, fails. -/
def IgbpFunction.Covered (payload : Mem Byte) (size : Nat) : IgbpFunction → Prop
  | requestBuffer =>
    if wordAt payload 0 = 0 then 8 ≤ size else wordAt payload 4 = 0x16C → 0x17C ≤ size
  | dequeueBuffer => 52 ≤ size
  | queueBuffer => size < 16 ∨ 20 ≤ size
  | connect => True

/-! ## Reading from a position -/

/-- The parcel with the reading head at `k`. -/
def Parcel.seek (q : Parcel) (k : Nat) : Parcel := { q with readHead := BitVec.ofNat 64 k }

section Seek

variable (q : Parcel) {k : Nat}

theorem parcelReadInplace_seek (k n : Nat) :
    parcelReadInplace (BitVec.ofNat 64 n) (q.seek k)
      = .ok (BitVec.ofNat 64 k) (q.seek (k + n)) := by
  rw [parcelReadInplace_run]
  unfold Parcel.advance Parcel.seek
  rw [ofNat_add]

theorem parcelReadU32_seek (h : k + 4 ≤ payloadSize) :
    parcelReadU32 (q.seek k) = .ok (wordAt q.payload k) (q.seek (k + 4)) := by
  have hsize : payloadSize = 0x200 := rfl
  have hk : (BitVec.ofNat 64 k).toNat = k := Nat.mod_eq_of_lt (by omega)
  unfold parcelReadU32
  rw [bind_of_ok (parcelReadInplace_seek q k 4)]
  unfold loadPayload32
  rw [hk, failIf_bind_of_not (by omega), get_bind_run]
  rfl

theorem fenceUnflatten_seek (h : k + 44 ≤ payloadSize) :
    fenceUnflatten (q.seek k) = .ok (q.payload.read k 44) (q.seek (k + 44)) := by
  have hsize : payloadSize = 0x200 := rfl
  have hk : (BitVec.ofNat 64 k).toNat = k := Nat.mod_eq_of_lt (by omega)
  unfold fenceUnflatten
  rw [bind_of_ok (parcelReadInplace_seek q k 44)]
  unfold loadPayload
  rw [hk, failIf_bind_of_not (by omega)]
  rfl

theorem toNat_readRemaining_seek (h : k ≤ q.writeHead.toNat) :
    (parcelReadRemaining (q.seek k)).toNat = q.writeHead.toNat - k := by
  have hk : (BitVec.ofNat 64 k).toNat = k := Nat.mod_eq_of_lt (by omega)
  show (q.writeHead - BitVec.ofNat 64 k).toNat = _
  rw [toNat_sub_of_le (le_def.2 (by omega)), hk]

end Seek

/-! ## What each function reads -/

/-- The four words of a `queue_buffer_output_t`. -/
def outputAt (m : Mem Byte) : QueueBufferOutput :=
  ⟨wordAt m 0, wordAt m 4, wordAt m 8, wordAt m 12⟩

theorem queueBufferOutputUnflatten_of_lt {q : Parcel} (h : q.writeHead.toNat < 16) :
    queueBufferOutputUnflatten (q.seek 0) = .error (.result Err.parcelDataUnderrun) (q.seek 0) := by
  have hsize : parcelReadRemaining (q.seek 0) < 16 := by
    rw [lt_def, toNat_readRemaining_seek q (Nat.zero_le _)]
    exact h
  unfold queueBufferOutputUnflatten
  rw [get_bind_run, failIf_bind_of hsize]

theorem queueBufferOutputUnflatten_of_le {q : Parcel} (h : 16 ≤ q.writeHead.toNat) :
    queueBufferOutputUnflatten (q.seek 0) = .ok (outputAt q.payload) (q.seek 16) := by
  have hsize : ¬ parcelReadRemaining (q.seek 0) < 16 := by
    rw [lt_def, toNat_readRemaining_seek q (Nat.zero_le _)]
    exact Nat.not_lt.2 h
  unfold queueBufferOutputUnflatten
  rw [get_bind_run, failIf_bind_of_not hsize,
    bind_of_ok (parcelReadU32_seek q (by decide)), bind_of_ok (parcelReadU32_seek q (by decide))]
  rfl

namespace IgbpFunction

/-- How far a function reads when it succeeds. -/
def reads (payload : Mem Byte) : IgbpFunction → Nat
  | requestBuffer => if wordAt payload 0 = 0 then 8 else 0x17C
  | dequeueBuffer => 52
  | queueBuffer => 20
  | connect => 20

/-- What it then outputs. -/
def values (payload : Mem Byte) : IgbpFunction → ReplyOutput
  | requestBuffer => .requested (wordAt payload (if wordAt payload 0 = 0 then 4 else 0x178))
  | dequeueBuffer => .dequeued (wordAt payload 0) (payload.read 4 44) (wordAt payload 48)
  | queueBuffer => .output (outputAt payload) (wordAt payload 16)
  | connect => .output (outputAt payload) (wordAt payload 16)

/-- The errors that a function finds in a payload with `size` bytes of data. -/
def refusal (payload : Mem Byte) (size : Nat) : IgbpFunction → Option ResultT
  | requestBuffer =>
    if wordAt payload 0 ≠ 0 ∧ wordAt payload 4 ≠ 0x16C then
      some Err.displayGraphicBufferLengthMismatch
    else none
  | dequeueBuffer => none
  | queueBuffer => if size < 16 then some Err.parcelDataUnderrun else none
  | connect => if size < 20 then some Err.parcelDataUnderrun else none

theorem covered_iff (f : IgbpFunction) (payload : Mem Byte) (size : Nat) :
    f.Covered payload size ↔ (f.refusal payload size = none → f.reads payload ≤ size) := by
  cases f with
  | requestBuffer =>
    simp only [Covered, refusal, reads]
    by_cases hnull : wordAt payload 0 = 0
    · rw [if_pos hnull, if_pos hnull, if_neg fun h => h.1 hnull]
      simp
    · rw [if_neg hnull, if_neg hnull]
      by_cases hlength : wordAt payload 4 = 0x16C
      · rw [if_neg fun h => h.2 hlength]
        simp only [hlength]
      · rw [if_pos ⟨hnull, hlength⟩]
        exact iff_of_true (fun h => absurd h hlength) fun h => nomatch h
  | dequeueBuffer => simp [Covered, refusal, reads]
  | queueBuffer =>
    simp only [Covered, refusal, reads]
    split_ifs with h <;> simp [h]
  | connect =>
    simp only [Covered, refusal, reads]
    split_ifs with h
    · simp
    · simpa using h

theorem readRequestReply_seek (q : Parcel) :
    readRequestReply (q.seek 0)
      = if wordAt q.payload 0 = 0 then .ok (wordAt q.payload 4) (q.seek 8)
        else if wordAt q.payload 4 = 0x16C then .ok (wordAt q.payload 0x178) (q.seek 0x17C)
        else .error (.result Err.displayGraphicBufferLengthMismatch) (q.seek 8) := by
  unfold readRequestReply
  rw [bind_of_ok (parcelReadU32_seek q (by decide))]
  by_cases hnull : wordAt q.payload 0 = 0
  · rw [if_neg (by simp [hnull]), if_pos hnull, parcelReadU32_seek q (by decide)]
  · rw [if_pos hnull, if_neg hnull, bind_of_ok (parcelReadU32_seek q (by decide))]
    by_cases hlength : wordAt q.payload 4 = 0x16C
    · rw [failIf_bind_of_not (by simpa using hlength), if_pos hlength,
        bind_of_ok (parcelReadU32_seek q (by decide)),
        bind_of_ok (parcelReadInplace_seek q 12 0x16C), parcelReadU32_seek q (by decide)]
    · rw [failIf_bind_of (by simpa using hlength), if_neg hlength]

theorem readDequeueReply_seek (q : Parcel) :
    readDequeueReply (q.seek 0)
      = .ok (wordAt q.payload 0, q.payload.read 4 44, wordAt q.payload 48) (q.seek 52) := by
  unfold readDequeueReply
  rw [bind_of_ok (parcelReadU32_seek q (by decide)),
    bind_of_ok (fenceUnflatten_seek q (by decide))]
  rfl

/-- A function fails with the error that it finds, or reads as far as it goes. -/
theorem read_seek (f : IgbpFunction) (q : Parcel) :
    Ends (f.read (q.seek 0))
      (fun out t => f.refusal q.payload q.writeHead.toNat = none ∧ out = f.values q.payload ∧
        t = q.seek (f.reads q.payload))
      (fun e _ => ∃ r, f.refusal q.payload q.writeHead.toNat = some r ∧ e = .result r) := by
  cases f with
  | requestBuffer =>
    have hread := readRequestReply_seek q
    simp only [read, refusal, values, reads]
    by_cases hnull : wordAt q.payload 0 = 0
    · rw [if_pos hnull] at hread
      rw [bind_of_ok hread, if_neg fun h => h.1 hnull, if_pos hnull, if_pos hnull]
      exact ⟨rfl, rfl, rfl⟩
    · rw [if_neg hnull] at hread
      by_cases hlength : wordAt q.payload 4 = 0x16C
      · rw [if_pos hlength] at hread
        rw [bind_of_ok hread, if_neg fun h => h.2 hlength, if_neg hnull, if_neg hnull]
        exact ⟨rfl, rfl, rfl⟩
      · rw [if_neg hlength] at hread
        rw [bind_of_error hread]
        exact ⟨_, if_pos ⟨hnull, hlength⟩, rfl⟩
  | dequeueBuffer =>
    simp only [read]
    rw [bind_of_ok (readDequeueReply_seek q)]
    exact ⟨rfl, rfl, rfl⟩
  | queueBuffer =>
    simp only [read, readQueueReply, refusal, bind_assoc]
    by_cases hsize : q.writeHead.toNat < 16
    · rw [bind_of_error (queueBufferOutputUnflatten_of_lt hsize), if_pos hsize]
      exact ⟨_, rfl, rfl⟩
    · rw [bind_of_ok (queueBufferOutputUnflatten_of_le (Nat.not_lt.1 hsize)),
        if_neg hsize]
      exact ⟨rfl, rfl, rfl⟩
  | connect =>
    simp only [read, readConnectReply, refusal, bind_assoc]
    by_cases hsize : q.writeHead.toNat < 16
    · rw [bind_of_error (queueBufferOutputUnflatten_of_lt hsize), if_pos (by omega)]
      exact ⟨_, rfl, rfl⟩
    · have hremaining : parcelReadRemaining (q.seek 16) < 4 ↔ q.writeHead.toNat < 20 := by
        rw [lt_def, toNat_readRemaining_seek q (Nat.not_lt.1 hsize)]
        show _ < 4 ↔ _
        omega
      rw [bind_of_ok (queueBufferOutputUnflatten_of_le (Nat.not_lt.1 hsize)), get_bind_run]
      by_cases hstatus : q.writeHead.toNat < 20
      · rw [failIf_bind_of (hremaining.2 hstatus), if_pos hstatus]
        exact ⟨_, rfl, rfl⟩
      · rw [failIf_bind_of_not (mt hremaining.1 hstatus),
          bind_of_ok (parcelReadU32_seek q (by decide)), if_neg hstatus]
        exact ⟨rfl, rfl, rfl⟩

theorem values_congr {f : IgbpFunction} {m m' : Mem Byte} {size : Nat}
    (h : ∀ i < f.reads m, m' i = m i) (href : f.refusal m size = none) :
    f.refusal m' size = none ∧ f.values m' = f.values m := by
  have hword : ∀ i, i + 4 ≤ f.reads m → wordAt m' i = wordAt m i :=
    fun i hi => wordAt_congr fun j hj => h _ (by omega)
  cases f with
  | requestBuffer =>
    simp only [reads, refusal, values] at hword href ⊢
    have hnull : wordAt m' 0 = wordAt m 0 := hword 0 (by split_ifs <;> decide)
    have hlength : wordAt m' 4 = wordAt m 4 := hword 4 (by split_ifs <;> decide)
    rw [hnull, hlength]
    refine ⟨href, congrArg _ (hword _ ?_)⟩
    split_ifs <;> decide
  | dequeueBuffer =>
    simp only [reads, values] at h hword ⊢
    have hfence : m'.read 4 44 = m.read 4 44 := Mem.read_congr fun i hi => h _ (by omega)
    rw [hword 0 (by decide), hword 48 (by decide), hfence]
    exact ⟨rfl, rfl⟩
  | queueBuffer | connect =>
    simp only [reads, values, outputAt] at hword ⊢
    rw [hword 0 (by decide), hword 4 (by decide), hword 8 (by decide), hword 12 (by decide),
      hword 16 (by decide)]
    exact ⟨href, rfl⟩

end IgbpFunction

/-! ## When a reply is checked -/

section Checked

variable {outBuffer : Mem Byte} {response : Parcel}

theorem parcelLoad_of_lt (h : payloadSize < (wordAt outBuffer 0).toNat) :
    ∃ q, parcelLoad outBuffer response = .error (.result Err.parcelDataTooBig) q := by
  unfold parcelLoad
  rw [modify_bind_run]
  exact ⟨_, failIf_bind_of h⟩

theorem loadInside_iff (h : (wordAt outBuffer 0).toNat ≤ payloadSize) :
    LoadInside outBuffer response ↔ RangeInside outBuffer := by
  unfold LoadInside RangeInside
  rw [parcelLoad_of_le h, ← toNat_inj]
  show (∀ i < (wordAt outBuffer 0).toNat, (wordAt outBuffer 4).toNat + i < outBufferSize) ↔
    (wordAt outBuffer 0).toNat = 0 ∨ _
  constructor
  · intro hall
    by_cases hzero : (wordAt outBuffer 0).toNat = 0
    · exact .inl hzero
    · have hlast := hall ((wordAt outBuffer 0).toNat - 1) (by omega)
      exact .inr (by omega)
  · omega

theorem loaded_payload_of_lt (stale : Parcel) {i : Nat} (h : i < (wordAt outBuffer 0).toNat) :
    (stale.loaded outBuffer).payload i = (response.loaded outBuffer).payload i := by
  set data := outBuffer.read (wordAt outBuffer 4).toNat (wordAt outBuffer 0).toNat with hdata
  have hlength : i < data.length := by rwa [Mem.length_read]
  have hcell : ∀ q : Parcel, (q.loaded outBuffer).payload i = data[i] := by
    intro q
    have hwrite := Mem.write_add q.payload 0 data hlength
    rwa [Nat.zero_add] at hwrite
  rw [hcell, hcell]

variable (f : IgbpFunction)

theorem receive_of_le (h : (wordAt outBuffer 0).toNat ≤ payloadSize)
    (q : Parcel) : f.receive outBuffer q = f.read ((q.loaded outBuffer).seek 0) := by
  unfold IgbpFunction.receive
  rw [bind_of_ok (parcelLoad_of_le h q)]
  rfl

/-- A function that has read nothing behind the data outputs the same for every response. -/
theorem outcome_receive (h : (wordAt outBuffer 0).toNat ≤ payloadSize)
    (href : f.refusal (response.loaded outBuffer).payload (wordAt outBuffer 0).toNat = none)
    (hreads : f.reads (response.loaded outBuffer).payload ≤ (wordAt outBuffer 0).toNat)
    (stale : Parcel) :
    outcome (f.receive outBuffer stale) = .ok (f.values (response.loaded outBuffer).payload) := by
  have hhead : (stale.loaded outBuffer).writeHead.toNat = (wordAt outBuffer 0).toNat :=
    toNat_setWidth_of_le (by decide)
  obtain ⟨hstale, hvalues⟩ := IgbpFunction.values_congr
    (fun i hi => loaded_payload_of_lt stale (Nat.lt_of_lt_of_le hi hreads)) href
  have hspec := f.read_seek (stale.loaded outBuffer)
  rw [receive_of_le f h]
  cases hrun : f.read ((stale.loaded outBuffer).seek 0) with
  | ok out t =>
    rw [hrun] at hspec
    obtain ⟨-, hout, -⟩ := hspec
    rw [← hvalues, ← hout]
    rfl
  | error e t =>
    rw [hrun] at hspec
    obtain ⟨r, hr, -⟩ := hspec
    rw [hhead, hstale] at hr
    nomatch hr

theorem reads_lt (payload : Mem Byte) : f.reads payload < 2 ^ 64 := by
  cases f with
  | requestBuffer =>
    simp only [IgbpFunction.reads]
    split_ifs <;> decide
  | dequeueBuffer | queueBuffer | connect => exact of_decide_eq_true rfl

theorem readInside_iff (h : (wordAt outBuffer 0).toNat ≤ payloadSize) :
    ReadInside f outBuffer response ↔
      f.Covered (response.loaded outBuffer).payload (wordAt outBuffer 0).toNat := by
  have hhead : (response.loaded outBuffer).writeHead.toNat = (wordAt outBuffer 0).toNat :=
    toNat_setWidth_of_le (by decide)
  have hspec := f.read_seek (response.loaded outBuffer)
  have hstale := @outcome_receive outBuffer response f h
  rw [hhead] at hspec
  unfold ReadInside
  rw [f.covered_iff, receive_of_le f h]
  cases hrun : f.read ((response.loaded outBuffer).seek 0) with
  | ok out t =>
    rw [hrun] at hspec
    obtain ⟨href, hout, ht⟩ := hspec
    have hle : t.readHead ≤ t.writeHead ↔
        f.reads (response.loaded outBuffer).payload ≤ (wordAt outBuffer 0).toNat := by
      rw [ht]
      show (BitVec.ofNat 64 (f.reads _)).toNat ≤ _ ↔ _
      rw [toNat_ofNat, Nat.mod_eq_of_lt (reads_lt f _)]
      rfl
    show (t.readHead ≤ t.writeHead ∧ ∀ stale, outcome (f.receive outBuffer stale) = .ok out) ↔ _
    rw [hle]
    constructor
    · rintro ⟨hreads, -⟩ -
      exact hreads
    · intro hreads
      rw [hout]
      exact ⟨hreads href, hstale href (hreads href)⟩
  | error e t =>
    rw [hrun] at hspec
    obtain ⟨r, hr, rfl⟩ := hspec
    rw [hr]
    exact iff_of_true (fun heq => nomatch heq) fun heq => nomatch heq

end Checked

/-- **A reply is checked exactly when** the size in its header is refused, or the header points into
the buffer and the data covers all that the function reads without a look at the size: both values
of `igbp_request_buffer`, the three of `igbp_dequeue_buffer`, and the status of
`igbp_queue_buffer`. -/
theorem reply_checked_iff (f : IgbpFunction) (outBuffer : Mem Byte) (response : Parcel) :
    ReplyChecked f outBuffer response ↔
      payloadSize < (wordAt outBuffer 0).toNat ∨ (RangeInside outBuffer ∧
        f.Covered (response.loaded outBuffer).payload (wordAt outBuffer 0).toNat) := by
  unfold ReplyChecked
  by_cases hsize : payloadSize < (wordAt outBuffer 0).toNat
  · obtain ⟨q, hload⟩ := @parcelLoad_of_lt outBuffer response hsize
    have hreceive : f.receive outBuffer response = .error (.result Err.parcelDataTooBig) q :=
      bind_of_error hload
    unfold LoadInside ReadInside
    rw [hload, hreceive]
    exact iff_of_true ⟨ParcelError.noConfusion, ParcelError.noConfusion⟩ (.inl hsize)
  · rw [loadInside_iff (Nat.not_lt.1 hsize), readInside_iff f (Nat.not_lt.1 hsize)]
    exact ⟨.inr, fun h => h.resolve_left hsize⟩

/-- A parcel on the stack. -/
def stackParcel (garbage : Byte) : Parcel where
  dataSize := 0
  dataOffset := 0
  objectsSize := 0
  objectsOffset := 0
  payload := fun _ => garbage
  readHead := 0
  writeHead := 0
  writingFinalized := false

/-- A reply with the three values that `igbp_dequeue_buffer` reads. -/
theorem slotReply_checked : ReplyChecked .dequeueBuffer
    (flattenReply (fun _ => 0) (le32 1 ++ (List.replicate 44 0 ++ le32 0))) (stackParcel 0x41) := by
  refine (reply_checked_iff _ _ _).2 (.inr ⟨.inr ?_, ?_⟩)
  · decide
  · show 52 ≤ _
    decide

/-- A reply of zeroes: the header of a parcel without data. -/
def emptyReply : Mem Byte := fun _ => 0

/-- From a parcel without data, `igbp_dequeue_buffer` outputs a slot and a status that are what the
stack held. -/
theorem emptyReply_unchecked :
    ¬ ReplyChecked .dequeueBuffer emptyReply (stackParcel 0x41) ∧
      ∃ q fence, IgbpFunction.receive .dequeueBuffer emptyReply (stackParcel 0x41)
        = .ok (.dequeued 0x41414141 fence 0x41414141) q ∧ q.writeHead < q.readHead := by
  refine ⟨fun h => ?_, _, _, rfl, by decide⟩
  have hcovered := (readInside_iff .dequeueBuffer (by decide)).1 h.2
  have hsize : 52 ≤ (wordAt emptyReply 0).toNat := hcovered
  exact absurd hsize (by decide)

end LibTransistor
