import LibTransistor.Display.RoundTrip
import LibTransistor.Display.Surface
import LibTransistor.Lib.Runs

/-!
# A surface and its buffer queue

A surface keeps in its state whether it has a slot dequeued. The buffer queue on the other side of a
binder knows as well; the two have to agree (`Agrees`).

`surface_dequeue_buffer` makes two transactions when a slot is used the first time. If the second
fails, the slot has been dequeued and the surface is still in the state from before
(`surface_disagrees`). In a run without such a call they agree in every state (`surface_agrees`).
-/

namespace LibTransistor

open Fallible Mem

/-! ## Replies are read as they were written -/

section Replies

variable {q : Parcel} {bytes : List Byte}

theorem flattenReply_flattened (m : Mem Byte) (bytes : List Byte) :
    Flattened (flattenReply m bytes) bytes := by
  set file := le32 (BitVec.ofNat 32 bytes.length) ++ (le32 0x10 ++ (le32 0 ++
    (le32 (BitVec.ofNat 32 (0x10 + bytes.length)) ++ bytes)))
  have hread : (flattenReply m bytes).read 0 file.length = file := read_write_self m 0 file
  obtain ⟨hsize, hread⟩ := read_eq_append hread
  obtain ⟨hoffset, hread⟩ := read_eq_append hread
  obtain ⟨-, hread⟩ := read_eq_append hread
  exact ⟨wordAt_eq hsize, wordAt_eq hoffset, (read_eq_append hread).2⟩

theorem IgbpRequest.length_bytes (q : IgbpRequest) (x : q.Reply) :
    (q.bytes x).length ≤ payloadSize := by
  cases q with
  | requestBuffer slot =>
    obtain ⟨buffer, status⟩ := x
    cases buffer with
    | none => simp [bytes, RequestReply.bytes, payloadSize]
    | some b =>
      have hfits := b.fits
      simp only [bytes, RequestReply.bytes, payloadSize, List.length_append, length_le32]
      omega
  | dequeueBuffer =>
    simp [bytes, DequeueReply.bytes, payloadSize, DequeueReply.length_fence x]
  | queueBuffer | connect => simp [bytes, OutputReply.bytes, payloadSize]
  | setPreallocatedBuffer => exact PlainReply.fits x

theorem Parcel.Remains.readLast {w : BitVec 32} (h : q.Remains (le32 w)) :
    parcelReadU32 q = .ok w (q.advance 4#64) := by
  exact h.readU32

theorem Parcel.Remains.toNat_readRemaining (h : q.Remains bytes) :
    (parcelReadRemaining q).toNat = bytes.length := by
  have hwrite := h.writeHead
  have hle : q.readHead ≤ q.writeHead := BitVec.le_def.2 (by omega)
  rw [parcelReadRemaining, BitVec.toNat_sub_of_le hle]
  omega

theorem fenceUnflatten_run {fence bs : List Byte} (h : q.Remains (fence ++ bs))
    (hfence : fence.length = 44) : fenceUnflatten q = .ok fence (q.advance 44#64) := by
  have hwrite := h.writeHead
  have hfits := h.fits
  rw [List.length_append] at hwrite
  unfold fenceUnflatten
  rw [bind_of_ok (parcelReadInplace_run _ q)]
  unfold loadPayload
  rw [failIf_bind_of_not (by omega)]
  have hread := (read_eq_append h.payload).1
  rw [hfence] at hread
  show EStateM.Result.ok (q.payload.read q.readHead.toNat 44) _ = _
  rw [hread]

theorem readDequeueReply_run {x : DequeueReply} (h : q.Remains x.bytes) :
    ∃ q', readDequeueReply q = .ok (x.slot, x.fence, x.status) q' := by
  have hfence : (q.advance 4#64).Remains (x.fence ++ le32 x.status) := h.advance rfl
  have hstatus : ((q.advance 4#64).advance 44#64).Remains (le32 x.status) :=
    hfence.advance x.length_fence.symm
  refine ⟨((q.advance 4#64).advance 44#64).advance 4#64, ?_⟩
  unfold readDequeueReply
  rw [bind_of_ok h.readU32, bind_of_ok (fenceUnflatten_run hfence x.length_fence),
    bind_of_ok hstatus.readLast]
  rfl

variable {x : OutputReply}

theorem queueBufferOutputUnflatten_run (h : q.Remains x.bytes) :
    ∃ q', queueBufferOutputUnflatten q = .ok x.toQueueBufferOutput q' ∧
      q'.Remains (le32 x.status) := by
  have hsize : ¬ parcelReadRemaining q < 16 := by
    rw [BitVec.lt_def, h.toNat_readRemaining]
    simp [OutputReply.bytes]
  have h₁ : (q.advance 4#64).Remains _ := h.advance rfl
  have h₂ : ((q.advance 4#64).advance 4#64).Remains _ := h₁.advance rfl
  have h₃ : (((q.advance 4#64).advance 4#64).advance 4#64).Remains _ := h₂.advance rfl
  have h₄ : ((((q.advance 4#64).advance 4#64).advance 4#64).advance 4#64).Remains _ := h₃.advance rfl
  refine ⟨_, ?_, h₄⟩
  unfold queueBufferOutputUnflatten
  rw [get_bind_run, failIf_bind_of_not hsize, bind_of_ok h.readU32, bind_of_ok h₁.readU32,
    bind_of_ok h₂.readU32, bind_of_ok h₃.readU32]
  rfl

theorem readQueueReply_run (h : q.Remains x.bytes) :
    ∃ q', readQueueReply q = .ok (x.toQueueBufferOutput, x.status) q' := by
  obtain ⟨q', hrun, hstatus⟩ := queueBufferOutputUnflatten_run h
  exact ⟨_, (bind_of_ok hrun).trans (bind_of_ok hstatus.readLast)⟩

theorem readConnectReply_run (h : q.Remains x.bytes) :
    ∃ q', readConnectReply q = .ok (x.toQueueBufferOutput, x.status) q' := by
  obtain ⟨q', hrun, hstatus⟩ := queueBufferOutputUnflatten_run h
  have hsize : ¬ parcelReadRemaining q' < 4 := by
    rw [BitVec.lt_def, hstatus.toNat_readRemaining]
    simp
  refine ⟨q'.advance 4#64, (bind_of_ok hrun).trans ?_⟩
  rw [get_bind_run, failIf_bind_of_not hsize]
  exact bind_of_ok hstatus.readLast

/-- There is no buffer, or one of the length that is expected. -/
def RequestReply.Matches (x : RequestReply) : Prop := ∀ b ∈ x.buffer, b.length = 0x16C

theorem readRequestReply_of_matches {x : RequestReply} (h : q.Remains x.bytes) (hx : x.Matches) :
    ∃ q', readRequestReply q = .ok x.status q' := by
  obtain ⟨buffer, status⟩ := x
  cases buffer with
  | none =>
    have hstatus : (q.advance 4#64).Remains (le32 status) := h.advance rfl
    refine ⟨(q.advance 4#64).advance 4#64, (bind_of_ok h.readU32).trans ?_⟩
    exact hstatus.readLast
  | some b =>
    have hlength : b.length = 0x16C := hx b rfl
    have h₁ : (q.advance 4#64).Remains _ := h.advance rfl
    have h₂ : ((q.advance 4#64).advance 4#64).Remains _ := h₁.advance rfl
    have h₃ : (((q.advance 4#64).advance 4#64).advance 4#64).Remains _ := h₂.advance rfl
    have hflat : (0x16C#64).toNat = b.flat.length := by
      rw [b.length_flat, hlength]
      rfl
    have hstatus := h₃.advance hflat
    refine ⟨((((q.advance 4#64).advance 4#64).advance 4#64).advance 0x16C#64).advance 4#64,
      (bind_of_ok h.readU32).trans ?_⟩
    rw [if_pos b.nonNull_ne, bind_of_ok h₁.readU32, failIf_bind_of_not (not_not_intro hlength),
      bind_of_ok h₂.readU32, bind_of_ok (parcelReadInplace_run _ _)]
    exact hstatus.readLast

theorem readRequestReply_of_not_matches {x : RequestReply} (h : q.Remains x.bytes)
    (hx : ¬ x.Matches) :
    ∃ q', readRequestReply q = .error (.result Err.displayGraphicBufferLengthMismatch) q' := by
  obtain ⟨buffer, status⟩ := x
  cases buffer with
  | none => exact absurd (fun b hb => by cases hb) hx
  | some b =>
    have hlength : b.length ≠ 0x16C := fun hb => hx fun b' hb' => by cases hb'; exact hb
    have h₁ : (q.advance 4#64).Remains _ := h.advance rfl
    refine ⟨(q.advance 4#64).advance 4#64, (bind_of_ok h.readU32).trans ?_⟩
    rw [if_pos b.nonNull_ne, bind_of_ok h₁.readU32]
    exact failIf_bind_of hlength

end Replies

/-! ## Transactions -/

section Transactions

variable {env : BinderEnv} {w : SurfaceWorld} {q : IgbpRequest} {α : Type} {reader : ParcelM α}

/-- A transaction without an answer. -/
def SurfaceWorld.unanswered (w : SurfaceWorld) : SurfaceWorld := { w with clock := w.clock + 1 }

/-- A transaction with an answer. -/
def SurfaceWorld.answered (w : SurfaceWorld) (q : IgbpRequest) (x : q.Reply) : SurfaceWorld :=
  { w with clock := w.clock + 1, queue := w.queue.answer q x }

theorem igbpTransact_transport {r : ResultT} {hr : r ≠ resultOk}
    (h : env.transact w.clock q = .transport r hr) :
    igbpTransact env q reader w = .error (.result r) w.unanswered := by
  have hvi : viTransactParcel env q w = .error (.result r) w.unanswered := by
    unfold viTransactParcel
    rw [get_bind_run, h]
    rfl
  unfold igbpTransact binderTransactParcel
  rw [bind_of_error]
  rw [get_bind_run, bind_of_error hvi]

variable {x : q.Reply}

variable (h : env.transact w.clock q = .reply x)
include h

theorem viTransactParcel_reply :
    viTransactParcel env q w
      = .ok (flattenReply (env.outBuffer w.clock) (q.bytes x)) (w.answered q x) := by
  unfold viTransactParcel
  rw [get_bind_run, h]
  rfl

theorem binderTransactParcel_reply :
    ∃ p, binderTransactParcel env q w = .ok p (w.answered q x) ∧ p.Remains (q.bytes x) := by
  obtain ⟨p, hload, hp⟩ := parcelLoad_run (flattenReply_flattened (env.outBuffer w.clock) (q.bytes x))
    (q.length_bytes x) (env.response w.clock)
  refine ⟨p, ?_, hp⟩
  unfold binderTransactParcel
  rw [get_bind_run, bind_of_ok (viTransactParcel_reply h),
    bind_of_ok (withLocal_eq_ok (r := ((), p)).2 ⟨hload, rfl⟩)]
  rfl

theorem igbpTransact_reply {a : α}
    (hread : ∀ p : Parcel, p.Remains (q.bytes x) → ∃ p', reader p = .ok a p') :
    igbpTransact env q reader w = .ok a (w.answered q x) := by
  obtain ⟨p, hrun, hp⟩ := binderTransactParcel_reply h
  obtain ⟨p', hread⟩ := hread p hp
  unfold igbpTransact
  rw [bind_of_ok hrun, bind_of_ok (withLocal_eq_ok (r := (a, p')).2 ⟨hread, rfl⟩)]
  rfl

/-- The reader fails on the reply, which does not undo what the other side has done. -/
theorem igbpTransact_error {e : ParcelError}
    (hread : ∀ p : Parcel, p.Remains (q.bytes x) → ∃ p', reader p = .error e p') :
    igbpTransact env q reader w = .error e (w.answered q x) := by
  obtain ⟨p, hrun, hp⟩ := binderTransactParcel_reply h
  obtain ⟨p', hread⟩ := hread p hp
  unfold igbpTransact
  rw [bind_of_ok hrun, bind_of_error (withLocal_of_error hread _)]

end Transactions

/-! ## Agreement -/

/-- A slot is dequeued exactly if the surface is in the state for it, and it is the slot of the
surface. -/
structure Agrees (w : SurfaceWorld) : Prop where
  dequeued_iff : (∃ slot, w.queue.dequeued slot = true) ↔ w.surface.state = .dequeued
  slot_eq : ∀ slot, w.queue.dequeued slot = true → slot = w.surface.currentSlot

/-- What the agreement is about. -/
def SurfaceWorld.view (w : SurfaceWorld) : SurfaceState × BitVec 32 × BufferQueue :=
  (w.surface.state, w.surface.currentSlot, w.queue)

section Agreement

variable {env : BinderEnv} {w t : SurfaceWorld}

theorem Agrees.of_view (h : Agrees w) (ht : t.view = w.view) : Agrees t := by
  obtain ⟨hstate, hrest⟩ := Prod.mk.inj ht
  obtain ⟨hslot, hqueue⟩ := Prod.mk.inj hrest
  constructor
  · rw [hqueue, hstate]
    exact h.dequeued_iff
  · rw [hqueue, hslot]
    exact h.slot_eq

theorem Agrees.dequeued_eq_false (h : Agrees w) (hstate : w.surface.state ≠ .dequeued)
    (slot : BitVec 32) : w.queue.dequeued slot = false := by
  rw [← Bool.not_eq_true]
  exact fun hslot => hstate (h.dequeued_iff.1 ⟨slot, hslot⟩)

theorem Agrees.of_free (hfree : ∀ slot, w.queue.dequeued slot = false)
    (hstate : w.surface.state ≠ .dequeued) : Agrees w :=
  ⟨⟨fun ⟨slot, hslot⟩ => absurd hslot (by rw [hfree]; decide), fun h => absurd h hstate⟩,
    fun slot hslot => absurd hslot (by rw [hfree]; decide)⟩

theorem Agrees.of_dequeued
    (hslot : ∀ slot, w.queue.dequeued slot = true ↔ slot = w.surface.currentSlot)
    (hstate : w.surface.state = .dequeued) : Agrees w :=
  ⟨iff_of_true ⟨_, (hslot _).2 rfl⟩ hstate, fun slot => (hslot slot).1⟩

theorem not_agrees (slot : BitVec 32) (hslot : w.queue.dequeued slot = true)
    (hstate : w.surface.state ≠ .dequeued) : ¬ Agrees w :=
  fun h => hstate (h.dequeued_iff.1 ⟨slot, hslot⟩)

/-- The slot is one of the two, and its buffer is known or can be had. -/
def RequestServed (env : BinderEnv) (clock : Nat) (hasRequested : Fin 2 → Bool)
    (slot : BitVec 32) : Prop :=
  ∃ h : slot.toNat < 2, hasRequested ⟨slot.toNat, h⟩ = true ∨
    ∃ y, env.transact clock (.requestBuffer slot) = .reply y ∧ RequestReply.Matches y

/-- The request for a buffer succeeds exactly if it is served. Either way it changes nothing that
the agreement is about. -/
theorem surfaceRequestBuffer_ends (env : BinderEnv) (w : SurfaceWorld) (slot : BitVec 32) :
    Ends (env.binder.surfaceRequestBuffer slot w)
      (fun _ t => RequestServed env w.clock w.surface.hasRequested slot ∧ t.view = w.view)
      (fun _ t => ¬ RequestServed env w.clock w.surface.hasRequested slot ∧ t.view = w.view) := by
  unfold Binder.surfaceRequestBuffer
  by_cases hslot : slot.toNat < 2
  · have hindex : slotIndex slot w = .ok ⟨slot.toNat, hslot⟩ w := by
      unfold slotIndex
      rw [dif_pos hslot]
      rfl
    rw [bind_of_ok hindex, get_bind_run]
    by_cases hrequested : w.surface.hasRequested ⟨slot.toNat, hslot⟩ = true
    · rw [if_pos hrequested]
      exact ⟨⟨hslot, .inl hrequested⟩, rfl⟩
    · rw [if_neg hrequested]
      cases houtcome : env.transact w.clock (.requestBuffer slot) with
      | transport r hr =>
        have hrun : env.binder.igbpRequestBuffer slot w = _ := igbpTransact_transport houtcome
        rw [bind_of_error hrun]
        refine ⟨?_, rfl⟩
        rintro ⟨_, h | ⟨y, hy, -⟩⟩
        · exact hrequested h
        · rw [houtcome] at hy
          cases hy
      | reply y =>
        by_cases hmatches : RequestReply.Matches y
        · have hrun : env.binder.igbpRequestBuffer slot w = _ :=
            igbpTransact_reply houtcome fun p hp => readRequestReply_of_matches hp hmatches
          rw [bind_of_ok hrun]
          exact ⟨⟨hslot, .inr ⟨y, houtcome, hmatches⟩⟩, rfl⟩
        · have hrun : env.binder.igbpRequestBuffer slot w = _ :=
            igbpTransact_error houtcome fun p hp => readRequestReply_of_not_matches hp hmatches
          rw [bind_of_error hrun]
          refine ⟨?_, rfl⟩
          rintro ⟨_, h | ⟨y', hy, hy'⟩⟩
          · exact hrequested h
          · rw [houtcome] at hy
            cases hy
            exact hmatches hy'
  · have hindex : slotIndex slot w = .error .outOfBounds w := by
      unfold slotIndex
      rw [dif_neg hslot]
      rfl
    rw [bind_of_error hindex]
    exact ⟨fun h => hslot h.1, rfl⟩

/-- The transaction that dequeues a slot. -/
abbrev dequeueRequest : IgbpRequest := .dequeueBuffer 1 1280 720 false 0xB00

theorem answer_dequeue (queue : BufferQueue) (x : DequeueReply) :
    queue.answer dequeueRequest x =
      if x.status = 0 then ⟨Function.update queue.dequeued x.slot true⟩ else queue := rfl

theorem answer_queue (queue : BufferQueue) (slot : BitVec 32) (x : OutputReply) :
    queue.answer (.queueBuffer slot) x =
      if x.status = 0 then ⟨Function.update queue.dequeued slot false⟩ else queue := rfl

/-- If a slot is dequeued, the request for its buffer is served. -/
def DequeueServed (env : BinderEnv) (w : SurfaceWorld) : Prop :=
  w.surface.state = .queued → ∀ x : DequeueReply, env.transact w.clock dequeueRequest = .reply x →
    x.status = 0 → RequestServed env (w.clock + 1) w.surface.hasRequested x.slot

/-- From the answer on: a slot that has been dequeued is reported if its buffer can be had. -/
theorem surfaceDequeued_agrees_iff {slot status : BitVec 32} (hstate : w.surface.state = .queued)
    (hqueue : w.queue.dequeued = if status = 0 then Function.update (fun _ => false) slot true
      else fun _ => false) :
    Agrees (final (env.binder.surfaceDequeued slot status w)) ↔
      (status = 0 → RequestServed env w.clock w.surface.hasRequested slot) := by
  set w₁ : SurfaceWorld := { w with surface := { w.surface with currentSlot := slot } }
  have hrun : env.binder.surfaceDequeued slot status w = (failIf (status ≠ 0) _ >>= _ : SurfaceM _) w₁ := rfl
  have hqueued : SurfaceState.queued ≠ .dequeued := by decide
  rw [hrun]
  by_cases hstatus : status = 0
  · have hslot : ∀ slot', w₁.queue.dequeued slot' = true ↔ slot' = slot := by
      intro slot'
      rw [hqueue, if_pos hstatus, Function.update_apply]
      simp
    have hends := surfaceRequestBuffer_ends env w₁ slot
    rw [failIf_bind_of_not (not_not_intro hstatus)]
    cases hrequest : env.binder.surfaceRequestBuffer slot w₁ with
    | ok a t =>
      rw [hrequest] at hends
      obtain ⟨hserved, hview⟩ := hends
      obtain ⟨-, hrest⟩ := Prod.mk.inj hview
      obtain ⟨hcurrent, hqueue'⟩ := Prod.mk.inj hrest
      rw [bind_of_ok hrequest]
      refine iff_of_true (Agrees.of_dequeued (fun slot' => ?_) rfl) fun _ => hserved
      show t.queue.dequeued slot' = true ↔ slot' = t.surface.currentSlot
      rw [hqueue', hcurrent]
      exact hslot slot'
    | error e t =>
      rw [hrequest] at hends
      obtain ⟨hserved, hview⟩ := hends
      obtain ⟨hstate', hrest⟩ := Prod.mk.inj hview
      obtain ⟨-, hqueue'⟩ := Prod.mk.inj hrest
      rw [bind_of_error hrequest]
      refine iff_of_false (not_agrees slot ?_ ?_) fun h => hserved (h hstatus)
      · show t.queue.dequeued slot = true
        rw [hqueue']
        exact (hslot slot).2 rfl
      · show t.surface.state ≠ .dequeued
        rw [hstate']
        exact hstate ▸ hqueued
  · rw [failIf_bind_of hstatus]
    refine iff_of_true (Agrees.of_free (fun slot' => ?_) ?_) fun h => absurd h hstatus
    · show w.queue.dequeued slot' = false
      rw [hqueue, if_neg hstatus]
    · exact hstate ▸ hqueued

/-- **One call of `surface_dequeue_buffer`** keeps the agreement exactly if it is served. -/
theorem dequeue_agrees_iff (env : BinderEnv) (hw : Agrees w) :
    Agrees (final (env.binder.surfaceDequeueBuffer w)) ↔ DequeueServed env w := by
  have hcall : env.binder.surfaceDequeueBuffer w = (failIf (w.surface.state ≠ .queued) _ >>= fun _ =>
    env.binder.igbpDequeueBuffer 1280 720 1 0xB00 false >>= fun r =>
      env.binder.surfaceDequeued r.1 r.2.2 :
      SurfaceM _) w := rfl
  rw [hcall]
  by_cases hstate : w.surface.state = .queued
  · rw [failIf_bind_of_not (not_not_intro hstate)]
    have hfree : w.queue.dequeued = fun _ => false :=
      funext (hw.dequeued_eq_false (by rw [hstate]; decide))
    cases houtcome : env.transact w.clock dequeueRequest with
    | transport r hr =>
      have hrun : env.binder.igbpDequeueBuffer 1280 720 1 0xB00 false w = _ :=
        igbpTransact_transport houtcome
      rw [bind_of_error hrun]
      refine iff_of_true (hw.of_view rfl) fun _ x hx => ?_
      rw [houtcome] at hx
      cases hx
    | reply x =>
      have hrun : env.binder.igbpDequeueBuffer 1280 720 1 0xB00 false w
          = .ok (DequeueReply.slot x, DequeueReply.fence x, DequeueReply.status x)
            (w.answered dequeueRequest x) :=
        igbpTransact_reply houtcome fun p hp => readDequeueReply_run hp
      rw [bind_of_ok hrun]
      refine (surfaceDequeued_agrees_iff (w := w.answered dequeueRequest x) hstate ?_).trans ?_
      · show (w.queue.answer dequeueRequest x).dequeued = _
        rw [answer_dequeue, apply_ite BufferQueue.dequeued, hfree]
      · constructor
        · intro h _ x' hx' hstatus
          rw [houtcome] at hx'
          cases hx'
          exact h hstatus
        · intro h hstatus
          exact h hstate x houtcome hstatus
  · rw [failIf_bind_of hstate]
    exact iff_of_true hw fun h => absurd h hstate

/-- **One call of `surface_queue_buffer`** keeps the agreement. -/
theorem queue_agrees (env : BinderEnv) (hw : Agrees w) :
    Agrees (final (env.binder.surfaceQueueBuffer w)) := by
  unfold Binder.surfaceQueueBuffer
  rw [get_bind_run]
  by_cases hstate : w.surface.state = .dequeued
  · rw [failIf_bind_of_not (not_not_intro hstate)]
    cases houtcome : env.transact w.clock (.queueBuffer w.surface.currentSlot) with
    | transport r hr =>
      have hrun : env.binder.igbpQueueBuffer w.surface.currentSlot w = _ := igbpTransact_transport houtcome
      rw [bind_of_error hrun]
      exact hw.of_view rfl
    | reply x =>
      have hrun : env.binder.igbpQueueBuffer w.surface.currentSlot w
          = .ok (OutputReply.toQueueBufferOutput x, OutputReply.status x) (w.answered _ x) :=
        igbpTransact_reply houtcome fun p hp => readQueueReply_run hp
      rw [bind_of_ok hrun]
      by_cases hstatus : OutputReply.status x = 0
      · rw [failIf_bind_of_not (not_not_intro hstatus)]
        refine Agrees.of_free (fun slot => ?_) SurfaceState.noConfusion
        show (w.queue.answer (.queueBuffer w.surface.currentSlot) x).dequeued slot = false
        rw [answer_queue, if_pos hstatus]
        show Function.update w.queue.dequeued w.surface.currentSlot false slot = false
        rw [Function.update_apply]
        split_ifs with hslot
        · rfl
        · rw [← Bool.not_eq_true]
          exact fun h => hslot (hw.slot_eq slot h)
      · rw [failIf_bind_of hstatus]
        refine hw.of_view ?_
        show (w.surface.state, w.surface.currentSlot,
          w.queue.answer (.queueBuffer w.surface.currentSlot) x) = _
        rw [answer_queue, if_neg hstatus]
        rfl
  · rw [failIf_bind_of hstate]
    exact hw

end Agreement

/-! ## Creation -/

section Creation

variable {env : BinderEnv} {q : IgbpRequest} {α : Type} {reader : ParcelM α}

/-- What `surface_create` has set up, or leaves to the other side. -/
def SurfaceWorld.start (w : SurfaceWorld) : BufferQueue × (Fin 2 → Bool) :=
  (w.queue, w.surface.hasRequested)

theorem leaves_igbpTransact (hq : ∀ queue x, BufferQueue.answer queue q x = queue) :
    Leaves SurfaceWorld.start (igbpTransact env q reader) := by
  intro w
  cases houtcome : env.transact w.clock q with
  | transport r hr =>
    rw [igbpTransact_transport houtcome]
    rfl
  | reply x =>
    have hstart : (w.answered q x).start = w.start := by
      show (w.queue.answer q x, w.surface.hasRequested) = _
      rw [hq]
      rfl
    obtain ⟨p, hrun, -⟩ := binderTransactParcel_reply houtcome
    unfold igbpTransact
    rw [bind_of_ok hrun]
    cases hread : reader p with
    | ok a p' =>
      rw [bind_of_ok (withLocal_eq_ok (r := (a, p')).2 ⟨hread, rfl⟩)]
      exact hstart
    | error e p' =>
      rw [bind_of_error (withLocal_of_error hread _)]
      exact hstart

theorem leaves_deviceCall : Leaves SurfaceWorld.start (deviceCall env) :=
  .get_bind fun _ => .bind (.modify fun _ => rfl) fun _ => .failIf _

theorem leaves_igbpSetPreallocatedBuffer (slot : BitVec 32) :
    Leaves SurfaceWorld.start (igbpSetPreallocatedBuffer env slot) :=
  .bind leaves_deviceCall fun _ => .bind leaves_deviceCall fun _ =>
    leaves_igbpTransact fun _ _ => rfl

/-- A surface that has been created is queued and has requested nothing, and nothing has been
dequeued. -/
theorem surfaceCreate_ends (env : BinderEnv) (layerId : BitVec 64) (w : SurfaceWorld) :
    Ends (surfaceCreate env layerId w)
      (fun _ t => t.surface.state = .queued ∧ t.start = (w.queue, fun _ => false))
      (fun _ t => t.surface.state = .invalid) := by
  have hstep : ∀ {β γ : Type} {x : SurfaceM β} {f : β → SurfaceM γ} {Q : γ → SurfaceWorld → Prop}
      {t : SurfaceWorld}, Leaves SurfaceWorld.start x → t.start = (w.queue, fun _ => false) →
      (∀ b u, u.start = (w.queue, fun _ => false) → Ends (f b u) Q fun _ _ => True) →
      Ends ((x >>= f) t) Q fun _ _ => True := by
    intro β γ x f Q t hx ht hf
    have hkeeps : Keeps (fun u => u.start = (w.queue, fun _ => false)) x :=
      .of_leaves hx fun s u hu hs => hu.trans hs
    exact ((hkeeps.ends ht).imp (fun _ _ h => h) fun _ _ _ => trivial).bind hf
  refine Ends.onFail (F := fun _ _ => True) ?_ fun e t _ => rfl
  refine hstep (leaves_igbpTransact fun _ _ => rfl) rfl fun status t ht => ?_
  refine hstep (.failIf _) ht fun _ t ht => ?_
  refine hstep (.modify fun _ => rfl) ht fun _ t ht => ?_
  refine hstep leaves_deviceCall ht fun _ t ht => ?_
  refine hstep leaves_deviceCall ht fun _ t ht => ?_
  refine hstep (leaves_igbpSetPreallocatedBuffer 0) ht fun _ t ht => ?_
  refine hstep (leaves_igbpSetPreallocatedBuffer 1) ht fun _ t ht => ?_
  exact ⟨rfl, ht⟩

/-- The other side and the driver grant everything that `surface_create` asks for. -/
structure BinderEnv.Creates (env : BinderEnv) : Prop where
  device : ∀ n, env.device n = resultOk
  connect : ∀ n, ∃ x, env.transact n (.connect 2 false) = .reply x ∧ OutputReply.status x = 0
  setPreallocatedBuffer : ∀ n slot, ∃ x, env.transact n (.setPreallocatedBuffer slot) = .reply x

theorem surfaceCreate_of_creates (henv : env.Creates) (layerId : BitVec 64) (w : SurfaceWorld) :
    ∃ t, surfaceCreate env layerId w = .ok () t := by
  have hdevice : ∀ v, Ends (deviceCall env v) (fun _ _ => True) fun _ _ => False := by
    intro v
    unfold deviceCall
    rw [get_bind_run, modify_bind_run, failIf_of_not (not_not_intro (henv.device v.clock))]
    trivial
  have hconnect : ∀ v, Ends (env.binder.igbpConnect 2 false v) (fun r _ => r.2 = 0)
      fun _ _ => False := by
    intro v
    obtain ⟨x, hx, hstatus⟩ := henv.connect v.clock
    have hrun : env.binder.igbpConnect 2 false v = .ok (_, OutputReply.status x) _ :=
      igbpTransact_reply hx fun p hp => readConnectReply_run hp
    rw [hrun]
    exact hstatus
  have hset : ∀ slot v, Ends (igbpSetPreallocatedBuffer env slot v) (fun _ _ => True)
      fun _ _ => False := by
    intro slot v
    refine (hdevice v).bind fun _ t _ => (hdevice t).bind fun _ u _ => ?_
    obtain ⟨x, hx⟩ := henv.setPreallocatedBuffer u.clock slot
    have hrun : igbpTransact env (.setPreallocatedBuffer slot) (pure ()) u = .ok () _ :=
      igbpTransact_reply hx fun p _ => ⟨p, rfl⟩
    rw [hrun]
    trivial
  have hends : Ends (surfaceCreate env layerId w) (fun _ _ => True) fun _ _ => False := by
    refine Ends.onFail ?_ fun _ _ h => h
    refine (hconnect _).bind fun status t hstatus => ?_
    refine Ends.failIf_bind (fun h => h hstatus) fun _ => ?_
    refine (hdevice _).bind fun _ _ _ => (hdevice _).bind fun _ _ _ => ?_
    exact (hset 0 _).bind fun _ _ _ => (hset 1 _).bind fun _ _ _ => trivial
  cases hrun : surfaceCreate env layerId w with
  | ok a t => exact ⟨t, rfl⟩
  | error e t =>
    rw [hrun] at hends
    exact hends.elim

end Creation

/-! ## Runs -/

/-- The calls, each with what happens during it. -/
inductive SurfaceCall
  | dequeue (env : BinderEnv)
  | queue (env : BinderEnv)

namespace SurfaceCall

def exec : SurfaceCall → SurfaceWorld → SurfaceWorld
  | dequeue env, w => final (env.binder.surfaceDequeueBuffer w)
  | queue env, w => final (env.binder.surfaceQueueBuffer w)

def Served : SurfaceCall → SurfaceWorld → Prop
  | dequeue env, w => DequeueServed env w
  | queue _, _ => True

end SurfaceCall

/-- A surface from its creation on. A new queue has no slot dequeued. -/
def surfaceSystem : System SurfaceWorld SurfaceCall where
  init w := ∃ env layerId w₀, w₀.queue.dequeued = (fun _ => false) ∧
    surfaceCreate env layerId w₀ = .ok () w
  step w call w' := w' = call.exec w

/-- The runs whose calls are all served. -/
def servedSurfaceSystem : System SurfaceWorld SurfaceCall :=
  surfaceSystem.restrict fun w call _ => call.Served w

theorem exec_agrees_iff {w : SurfaceWorld} (hw : Agrees w) (call : SurfaceCall) :
    Agrees (call.exec w) ↔ call.Served w := by
  cases call with
  | dequeue env => exact dequeue_agrees_iff env hw
  | queue env => exact iff_of_true (queue_agrees env hw) trivial

theorem init_agrees {w : SurfaceWorld} (hw : surfaceSystem.init w) : Agrees w := by
  obtain ⟨env, layerId, w₀, hfree, hrun⟩ := hw
  have hends := surfaceCreate_ends env layerId w₀
  rw [hrun] at hends
  obtain ⟨hstate, hstart⟩ := hends
  have hqueue : w.queue = w₀.queue := (Prod.mk.inj hstart).1
  apply Agrees.of_free
  · intro slot
    rw [hqueue, hfree]
  · rw [hstate]
    decide

/-- **A surface and its buffer queue agree** in every state of every run whose calls are all served;
and a call from there keeps the agreement exactly if it is served. -/
theorem surface_agrees {w : SurfaceWorld} (hw : servedSurfaceSystem.Reachable w) :
    Agrees w ∧ ∀ call : SurfaceCall, Agrees (call.exec w) ↔ call.Served w := by
  have hagrees : Agrees w := by
    refine System.Reachable.invariant ?_ ?_ hw
    · intro s hs
      exact init_agrees hs
    · rintro s call s' hs ⟨rfl, hserved⟩
      exact (exec_agrees_iff hs call).2 hserved
  exact ⟨hagrees, exec_agrees_iff hagrees⟩

/-- Everything is granted, with slot 0 for every dequeue. The outcome of the requests for a buffer
is given. -/
def BinderEnv.sample (request : Outcome RequestReply) : BinderEnv where
  transact _ q :=
    match q with
    | .requestBuffer _ => request
    | .dequeueBuffer .. => .reply ⟨0, List.replicate 44 0, 0, rfl⟩
    | .queueBuffer _ => .reply ⟨⟨1280, 720, 0, 0⟩, 0⟩
    | .connect .. => .reply ⟨⟨1280, 720, 0, 0⟩, 0⟩
    | .setPreallocatedBuffer _ => .reply ⟨[], Nat.zero_le _⟩
  outBuffer _ := fun _ => 0
  response _ := zeroParcel
  device _ := resultOk
  gpuBufferMemory := 0x1000

theorem exists_created : ∃ w, surfaceSystem.init w ∧ w.surface.state = .queued ∧
    w.surface.hasRequested = fun _ => false := by
  have hcreates : (BinderEnv.sample (.reply ⟨none, 0⟩)).Creates :=
    ⟨fun _ => rfl, fun _ => ⟨_, rfl, rfl⟩, fun _ _ => ⟨_, rfl⟩⟩
  let w₀ : SurfaceWorld := ⟨⟨0, .invalid, fun _ => false, 0, 0⟩, ⟨fun _ => false⟩, 0⟩
  obtain ⟨w, hw⟩ := surfaceCreate_of_creates hcreates 0 w₀
  have hends := surfaceCreate_ends (.sample (.reply ⟨none, 0⟩)) 0 w₀
  rw [hw] at hends
  exact ⟨w, ⟨_, 0, w₀, rfl, hw⟩, hends.1, (Prod.mk.inj hends.2).2⟩

theorem surface_agrees_first :
    ∃ w, servedSurfaceSystem.Reachable w ∧ Agrees w ∧
      Agrees ((SurfaceCall.dequeue (.sample (.reply ⟨none, 0⟩))).exec w) := by
  obtain ⟨w, hinit, -, -⟩ := exists_created
  have hw : servedSurfaceSystem.Reachable w := .init hinit
  have h := surface_agrees hw
  refine ⟨w, hw, h.1, (h.2 _).2 fun _ x hx _ => ?_⟩
  cases hx
  exact ⟨by decide, .inr ⟨_, rfl, fun b hb => by cases hb⟩⟩

/-- The first dequeue, when the request for the buffer gets no answer. -/
theorem surface_disagrees : ∃ w, surfaceSystem.Reachable w ∧ ¬ Agrees w := by
  obtain ⟨w, hinit, hstate, hrequested⟩ := exists_created
  have hlost : (1 : ResultT) ≠ resultOk := by decide
  refine ⟨_, (System.Reachable.init hinit).step (.dequeue (.sample (.transport 1 hlost))) rfl, ?_⟩
  rw [exec_agrees_iff (init_agrees hinit)]
  intro hserved
  obtain ⟨hslot, h | ⟨y, hy, -⟩⟩ := hserved hstate _ rfl rfl
  · rw [hrequested] at h
    cases h
  · cases hy

end LibTransistor
