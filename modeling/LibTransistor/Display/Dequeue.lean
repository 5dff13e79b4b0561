import LibTransistor.Display.Agreement
import LibTransistor.Display.Replies

/-!
# Dequeued images

`surface_dequeue_buffer` takes the slot from the reply of the other side. Here the replies are
buffers of any content (`ReplyEnv`), and the question is whether the image that the caller gets lies
in the memory of the surface, and whether a call that fails leaves the surface as it was
(`DequeueSafe`).

**When a call is safe** (`dequeue_safe_iff`). The slot is stored in the surface before the status is
looked at, and is compared with nothing. A call is safe when the reply cannot be loaded, when the
slot is 0 or 1 and its buffer is known or can be had, and otherwise only when the slot in the reply
is the one that the surface has already.
-/

namespace LibTransistor

open Fallible

/-! ## The functions with replies of any content -/

/-- What the other side does at each point of time, and what the parcel for the reply held. -/
structure ReplyEnv where
  transact : Nat → IgbpRequest → Outcome (Mem Byte)
  response : Nat → Parcel

/-- The surface and the time. -/
structure Client where
  surface : Surface
  clock : Nat

abbrev ClientM := EStateM ParcelError Client

namespace ReplyEnv

variable (env : ReplyEnv)

/-- What is read from the reply, or why there is nothing to read. -/
def answer {α : Type} (n : Nat) (q : IgbpRequest) (reader : ParcelM α) : Except ParcelError α :=
  match env.transact n q with
  | .transport r _ => .error (.result r)
  | .reply outBuffer => outcome ((parcelLoad outBuffer >>= fun _ => reader) (env.response n))

/-- `binder_transact_parcel` and the reading of its reply. -/
def igbpTransact {α : Type} (q : IgbpRequest) (reader : ParcelM α) : ClientM α := do
  let c ← get
  modify fun c => { c with clock := c.clock + 1 }
  runPure (env.answer c.clock q reader)

/-- The functions of `surface.c` with these replies. -/
abbrev binder : Binder Client where
  surface := Client.surface
  setSurface x c := { c with surface := x }
  transact := env.igbpTransact

end ReplyEnv

/-! ## Safe calls -/

/-- The size of `gpu_buffer_memory`, and of the part of it that belongs to a slot. -/
def gpuBufferSize : Nat := 0x780000

def imageSize : Nat := 0x3C0000

/-- The image of a call that succeeds is one of the two, and a call that fails has changed neither
the slot nor the state. No access outside of `has_requested` is made. -/
def SafeEnd (x : Surface) (r : EStateM.Result ParcelError Client (BitVec 64)) : Prop :=
  Ends r
    (fun image c => (c.surface.currentSlot = 0 ∨ c.surface.currentSlot = 1) ∧
      ∃ offset : BitVec 64, image = x.gpuBufferMemory + offset ∧
        offset.toNat + imageSize ≤ gpuBufferSize)
    (fun e c => e ≠ .outOfBounds ∧ c.surface.currentSlot = x.currentSlot ∧
      c.surface.state = x.state)

def DequeueSafe (env : ReplyEnv) (c : Client) : Prop :=
  SafeEnd c.surface (env.binder.surfaceDequeueBuffer c)

namespace ReplyEnv

variable (env : ReplyEnv)

/-- The payload of the response, if there is a reply and `parcel_load` does not refuse it. -/
def payload (n : Nat) (q : IgbpRequest) : Option (Mem Byte) :=
  match env.transact n q with
  | .transport _ _ => none
  | .reply outBuffer =>
    if (wordAt outBuffer 0).toNat ≤ payloadSize then
      some ((env.response n).loaded outBuffer).payload
    else none

/-- The reply to the request for the buffer of a slot is one that `igbp_request_buffer` accepts. -/
def BufferServed (n : Nat) (slot : BitVec 32) : Prop :=
  ∃ m, env.payload n (.requestBuffer slot) = some m ∧ (wordAt m 0 = 0 ∨ wordAt m 4 = 0x16C)

/-- The slot is one of the two, and its buffer is known or can be had. -/
def SlotGranted (c : Client) (slot status : BitVec 32) : Prop :=
  status = 0 ∧ ∃ h : slot.toNat < 2,
    c.surface.hasRequested ⟨slot.toNat, h⟩ = true ∨ env.BufferServed (c.clock + 1) slot

/-- What the reply says about the slot is granted, or changes nothing. -/
def ReplyHarmless (c : Client) : Prop :=
  ∀ m, env.payload c.clock dequeueRequest = some m →
    env.SlotGranted c (wordAt m 0) (wordAt m 48) ∨
      (wordAt m 0 = c.surface.currentSlot ∧ (wordAt m 48 = 0 → (wordAt m 0).toNat < 2))

end ReplyEnv

/-! ## What is read from a reply -/

section Answers

variable {env : ReplyEnv} {n : Nat} {q : IgbpRequest} {α : Type}

theorem answer_of_none (reader : ParcelM α) (h : env.payload n q = none) :
    ∃ r, env.answer n q reader = .error (.result r) := by
  unfold ReplyEnv.answer
  unfold ReplyEnv.payload at h
  cases houtcome : env.transact n q with
  | transport r hr => exact ⟨r, rfl⟩
  | reply outBuffer =>
    simp only [houtcome] at h
    by_cases hsize : (wordAt outBuffer 0).toNat ≤ payloadSize
    · rw [if_pos hsize] at h
      nomatch h
    · obtain ⟨p, hload⟩ := @parcelLoad_of_lt outBuffer (env.response n) (Nat.not_le.1 hsize)
      exact ⟨_, congrArg outcome (bind_of_error hload)⟩

theorem answer_of_some (reader : ParcelM α) {m : Mem Byte} (h : env.payload n q = some m) :
    ∃ p : Parcel, p.payload = m ∧ env.answer n q reader = outcome (reader (p.seek 0)) := by
  unfold ReplyEnv.answer
  unfold ReplyEnv.payload at h
  cases houtcome : env.transact n q with
  | transport r hr =>
    simp only [houtcome] at h
    nomatch h
  | reply outBuffer =>
    simp only [houtcome] at h
    by_cases hsize : (wordAt outBuffer 0).toNat ≤ payloadSize
    · rw [if_pos hsize] at h
      exact ⟨_, Option.some.inj h, congrArg outcome (bind_of_ok (parcelLoad_of_le hsize _))⟩
    · rw [if_neg hsize] at h
      nomatch h

theorem answer_readDequeueReply {m : Mem Byte} (h : env.payload n q = some m) :
    env.answer n q readDequeueReply = .ok (wordAt m 0, m.read 4 44, wordAt m 48) := by
  obtain ⟨p, rfl, hanswer⟩ := answer_of_some readDequeueReply h
  rw [hanswer, IgbpFunction.readDequeueReply_seek]
  rfl

theorem answer_readRequestReply (env : ReplyEnv) (n : Nat) (slot : BitVec 32) :
    (env.BufferServed n slot ∧
      ∃ status, env.answer n (.requestBuffer slot) readRequestReply = .ok status) ∨
    (¬ env.BufferServed n slot ∧
      ∃ r, env.answer n (.requestBuffer slot) readRequestReply = .error (.result r)) := by
  cases hpayload : env.payload n (.requestBuffer slot) with
  | none =>
    refine .inr ⟨fun ⟨m, hm, _⟩ => ?_, answer_of_none _ hpayload⟩
    rw [hpayload] at hm
    nomatch hm
  | some m =>
    obtain ⟨p, rfl, hanswer⟩ := answer_of_some readRequestReply hpayload
    rw [IgbpFunction.readRequestReply_seek] at hanswer
    by_cases hnull : wordAt p.payload 0 = 0
    · rw [if_pos hnull] at hanswer
      exact .inl ⟨⟨_, hpayload, .inl hnull⟩, _, hanswer⟩
    · rw [if_neg hnull] at hanswer
      by_cases hlength : wordAt p.payload 4 = 0x16C
      · rw [if_pos hlength] at hanswer
        exact .inl ⟨⟨_, hpayload, .inr hlength⟩, _, hanswer⟩
      · rw [if_neg hlength] at hanswer
        refine .inr ⟨fun ⟨m, hm, hserved⟩ => ?_, _, hanswer⟩
        obtain rfl := Option.some.inj (hpayload.symm.trans hm)
        exact hserved.elim hnull hlength

end Answers

/-! ## When a call is safe -/

section Safe

variable {env : ReplyEnv} {c : Client} {slot : BitVec 32}

theorem eq_zero_or_one_of_lt (h : slot.toNat < 2) : slot = 0 ∨ slot = 1 := by
  rw [← BitVec.toNat_inj, ← BitVec.toNat_inj]
  show slot.toNat = 0 ∨ slot.toNat = 1
  omega

theorem imageOf_inside (x : Surface) (h : x.currentSlot.toNat < 2) :
    ∃ offset : BitVec 64, imageOf x = x.gpuBufferMemory + offset ∧
      offset.toNat + imageSize ≤ gpuBufferSize := by
  refine ⟨_, rfl, ?_⟩
  rcases eq_zero_or_one_of_lt h with hslot | hslot <;> rw [hslot] <;> decide

theorem requestBuffer_ends (env : ReplyEnv) (c : Client) (h : slot.toNat < 2) :
    Ends (env.binder.surfaceRequestBuffer slot c)
      (fun _ c' => (c.surface.hasRequested ⟨slot.toNat, h⟩ = true ∨ env.BufferServed c.clock slot) ∧
        c'.surface.currentSlot = c.surface.currentSlot ∧
        c'.surface.gpuBufferMemory = c.surface.gpuBufferMemory)
      (fun e c' => ¬ (c.surface.hasRequested ⟨slot.toNat, h⟩ = true ∨
          env.BufferServed c.clock slot) ∧ e ≠ .outOfBounds ∧ c'.surface = c.surface) := by
  have hindex : slotIndex slot c = .ok ⟨slot.toNat, h⟩ c := by
    unfold slotIndex
    rw [dif_pos h]
    rfl
  unfold Binder.surfaceRequestBuffer
  rw [bind_of_ok hindex, get_bind_run]
  by_cases hrequested : c.surface.hasRequested ⟨slot.toNat, h⟩ = true
  · rw [if_pos hrequested]
    exact ⟨.inl hrequested, rfl, rfl⟩
  · rw [if_neg hrequested]
    have hrun : env.binder.igbpRequestBuffer slot c
        = runPure (env.answer c.clock (.requestBuffer slot) readRequestReply)
          { c with clock := c.clock + 1 } := rfl
    rcases answer_readRequestReply env c.clock slot with
      ⟨hserved, status, hanswer⟩ | ⟨hserved, r, hanswer⟩
    · rw [hanswer] at hrun
      rw [bind_of_ok hrun]
      exact ⟨.inr hserved, rfl, rfl⟩
    · rw [hanswer] at hrun
      rw [bind_of_error hrun]
      exact ⟨fun hor => hor.elim hrequested hserved, ParcelError.noConfusion, rfl⟩

/-- The surface with the slot from a reply. -/
def Client.holding (c : Client) (slot : BitVec 32) : Client :=
  { c with surface := { c.surface with currentSlot := slot } }

/-- From the reply on: the slot has been stored when the status is looked at. -/
theorem surfaceDequeued_safe_iff {status : BitVec 32} :
    SafeEnd c.surface (env.binder.surfaceDequeued slot status { c with clock := c.clock + 1 }) ↔
      env.SlotGranted c slot status ∨
        (slot = c.surface.currentSlot ∧ (status = 0 → slot.toNat < 2)) := by
  set d := { c with clock := c.clock + 1 }.holding slot
  have hstored : env.binder.surfaceDequeued slot status { c with clock := c.clock + 1 }
      = (failIf (status ≠ 0) (.result Err.surfaceDequeueBufferFailed) >>= fun _ =>
        env.binder.surfaceRequestBuffer slot >>= fun _ =>
          env.binder.modifySurface (fun x => { x with state := .dequeued }) >>= fun _ =>
            get >>= fun c => pure (imageOf c.surface) : ClientM _) d := rfl
  rw [hstored]
  by_cases hstatus : status = 0
  · rw [failIf_bind_of_not (not_not_intro hstatus)]
    by_cases hslot : slot.toNat < 2
    · have hends := requestBuffer_ends env d hslot
      cases hrun : env.binder.surfaceRequestBuffer slot d with
      | ok u c' =>
        rw [hrun] at hends
        obtain ⟨hgranted, hcurrent, hmemory⟩ := hends
        have hlt : c'.surface.currentSlot.toNat < 2 := hcurrent ▸ hslot
        obtain ⟨offset, himage, hoffset⟩ :=
          imageOf_inside { c'.surface with state := .dequeued } hlt
        rw [bind_of_ok hrun]
        refine iff_of_true ⟨eq_zero_or_one_of_lt hlt, offset, ?_, hoffset⟩
          (.inl ⟨hstatus, hslot, hgranted⟩)
        exact himage.trans (congrArg (· + offset) hmemory)
      | error e c' =>
        rw [hrun] at hends
        obtain ⟨hgranted, he, hsurface⟩ := hends
        have hnot : ¬ env.SlotGranted c slot status := fun h => hgranted h.2.2
        rw [bind_of_error hrun]
        show e ≠ .outOfBounds ∧ c'.surface.currentSlot = _ ∧ c'.surface.state = _ ↔ _
        rw [hsurface, or_iff_right hnot]
        exact ⟨fun h => ⟨h.2.1, fun _ => hslot⟩, fun h => ⟨he, h.1, rfl⟩⟩
    · have hindex : slotIndex slot d = .error .outOfBounds d := by
        unfold slotIndex
        rw [dif_neg hslot]
        rfl
      have hrun : env.binder.surfaceRequestBuffer slot d = .error .outOfBounds d := bind_of_error hindex
      rw [bind_of_error hrun]
      refine iff_of_false (fun h => h.1 rfl) ?_
      rintro (⟨-, hlt, -⟩ | ⟨-, hlt⟩)
      · exact hslot hlt
      · exact hslot (hlt hstatus)
  · have hnot : ¬ env.SlotGranted c slot status := fun h => hstatus h.1
    rw [failIf_bind_of hstatus, or_iff_right hnot]
    exact ⟨fun h => ⟨h.2.1, fun h0 => absurd h0 hstatus⟩,
      fun h => ⟨ParcelError.noConfusion, h.1, rfl⟩⟩

end Safe

/-- **A call is safe exactly when** the reply is harmless. -/
theorem dequeue_safe_iff (env : ReplyEnv) (c : Client) (hstate : c.surface.state = .queued) :
    DequeueSafe env c ↔ env.ReplyHarmless c := by
  have hrun : env.binder.surfaceDequeueBuffer c
      = (runPure (env.answer c.clock dequeueRequest readDequeueReply) >>= fun r =>
        env.binder.surfaceDequeued r.1 r.2.2 : ClientM _) { c with clock := c.clock + 1 } := by
    unfold Binder.surfaceDequeueBuffer
    rw [get_bind_run, failIf_bind_of_not (not_not_intro hstate)]
    rfl
  unfold DequeueSafe ReplyEnv.ReplyHarmless
  rw [hrun]
  cases hpayload : env.payload c.clock dequeueRequest with
  | none =>
    obtain ⟨r, hanswer⟩ := answer_of_none readDequeueReply hpayload
    rw [hanswer]
    exact iff_of_true ⟨ParcelError.noConfusion, rfl, rfl⟩ fun m hm => nomatch hm
  | some m =>
    rw [runPure_bind_of_ok (answer_readDequeueReply hpayload), surfaceDequeued_safe_iff]
    constructor
    · rintro h m' hm'
      obtain rfl := Option.some.inj hm'
      exact h
    · exact fun h => h m rfl

/-- The other side answers everything with this slot and this status. -/
def answeringSlot (slot status : BitVec 32) : ReplyEnv where
  transact := fun _ _ =>
    .reply (flattenReply (fun _ => 0) (le32 slot ++ (List.replicate 44 0 ++ le32 status)))
  response := fun _ => stackParcel 0x41

/-- A surface that knows the buffers of both slots and has drawn into slot 0. -/
def drawnClient : Client :=
  ⟨⟨7, .queued, fun _ => true, 0, 0x10000000⟩, 0⟩

/-- The slots are used in turn. -/
theorem otherSlot_safe : drawnClient.surface.state = .queued ∧
    DequeueSafe (answeringSlot 1 0) drawnClient := by
  refine ⟨rfl, (dequeue_safe_iff (answeringSlot 1 0) drawnClient rfl).2 fun m hm => .inl ?_⟩
  obtain rfl := Option.some.inj hm
  exact ⟨by decide, by decide, .inl rfl⟩

/-- A third slot is looked up behind the end of `has_requested`. An answer with an error and another
slot leaves the surface with that slot. -/
theorem thirdSlot_unsafe :
    (∃ c, (answeringSlot 2 0).binder.surfaceDequeueBuffer drawnClient = .error .outOfBounds c) ∧
      ¬ DequeueSafe (answeringSlot 2 0) drawnClient ∧
      ¬ DequeueSafe (answeringSlot 1 0xFFFFFFED) drawnClient := by
  have hthird : (answeringSlot 2 0).binder.surfaceDequeueBuffer drawnClient = .error .outOfBounds
      ⟨{ drawnClient.surface with currentSlot := 2 }, 1⟩ := rfl
  refine ⟨⟨_, hthird⟩, fun h => ?_, fun h => ?_⟩
  · exact h.1 rfl
  · exact absurd h.2.1 (by decide)

end LibTransistor
