import LibTransistor.Ipc.MarshalBounds

/-!
# The arrays in which a message is staged

`ipc_pack_request` and `ipc_pack_response` put the move handles and the data section together in two
local arrays, `handle_t move_handles[16]` and `uint32_t buffer[0x220 >> 2]`, before
`ipc_pack_message` sees either. `ipcPackRequest` keeps the arrays to itself; here they are part of
the state, a `PackFrame`, so that what was stored in them is there to look at on every way out.

`packInFrame_ends` ties the two.

`staging_in_bounds_iff` says which requests and responses stay inside both arrays. The handles are
counted by `ipc_pack_message`, when they are all in the array: sixteen fit, and more are stored
behind it. The data section of a session has at most 132 words; in a domain it may have 144.
-/

namespace LibTransistor

open Fallible Cursor

/-! ## The frame of a packer -/

/-- The local arrays, and the buffer the message is packed into. -/
structure PackFrame where
  moveHandles : Cursor Handle
  data : Cursor Word
  marshal : Cursor Word

abbrev InFrame := EStateM ResultT PackFrame

namespace PackFrame

/-- On entry the arrays hold anything. -/
def entry (handles : Mem Handle) (stack m : Mem Word) : PackFrame :=
  ⟨⟨handles, 0⟩, ⟨stack, 0⟩, ⟨m, 0⟩⟩

def onMoveHandles (x : EStateM ResultT (Cursor Handle) Unit) : InFrame Unit :=
  zoom moveHandles (fun c f => { f with moveHandles := c }) x

def onData (x : EStateM ResultT (Cursor Word) Unit) : InFrame Unit :=
  zoom data (fun c f => { f with data := c }) x

def onMarshal {α : Type} (x : Marshal α) : InFrame α :=
  zoom marshal (fun c f => { f with marshal := c }) x

theorem leaves_onMarshal {α : Type} (x : Marshal α) :
    Leaves (fun f => (f.moveHandles, f.data)) (onMarshal x) := by
  exact .zoom fun _ _ => rfl

theorem tracks_onMarshal {α : Type} (x : Marshal α) :
    Tracks marshal (onMarshal x >>= fun _ => pure ()) (x >>= fun _ => pure ()) := by
  have hx : Tracks marshal (onMarshal x) x := .zoom fun _ _ => rfl
  exact hx.bind fun _ _ => rfl

end PackFrame

open PackFrame

/-- `Staging.pack` in a frame. -/
def Staging.packInFrame (g : Staging) : InFrame Unit := do
  failIf (g.type &&& ~~~0xFFFF#32 ≠ 0#32) Err.invalidRequestType
  failIf (g.rawDataSize % 4 ≠ 0) Err.invalidRawDataSize
  onMoveHandles g.moveHandles
  onData g.data
  let f ← get
  let _ ← onMarshal (ipcPackMessage (g.message (f.moveHandles.buffer.read 0 f.moveHandles.h)
    (f.data.buffer.read 0 f.data.h)))
  pure ()

/-- `ipc_pack_request`. -/
def packRequestInFrame (rq : IpcRequest) (object : IpcObject) : InFrame Unit :=
  (rq.staging object).packInFrame

/-- `ipc_pack_response`. -/
def packResponseInFrame (w : World) (rs : IpcResponse) (o : ObjPtr) : InFrame Unit :=
  (rs.staging w o).packInFrame

namespace Staging

variable {g : Staging}

theorem packInFrame_refused (h : ¬ (g.type &&& ~~~0xFFFF#32 = 0#32 ∧ g.rawDataSize % 4 = 0))
    (f : PackFrame) : ∃ e, g.packInFrame f = .error e f ∧
      ∀ handles stack c, g.pack handles stack c = .error e c := by
  unfold packInFrame pack
  by_cases htype : g.type &&& ~~~0xFFFF#32 ≠ 0#32
  · exact ⟨_, failIf_bind_of htype, fun _ _ _ => failIf_bind_of htype⟩
  · have hsize : g.rawDataSize % 4 ≠ 0 := fun hsize => h ⟨not_not.1 htype, hsize⟩
    simp only [failIf_bind_of_not htype]
    exact ⟨_, failIf_bind_of hsize, fun _ _ _ => failIf_bind_of hsize⟩

/-- What stands in the arrays when the function returns, whatever it returns, and that it returns
what `pack` does, with the same message. -/
theorem packInFrame_run (htype : g.type &&& ~~~0xFFFF#32 = 0#32) (hsize : g.rawDataSize % 4 = 0)
    (handles : Mem Handle) (stack m : Mem Word) :
    let f := final (g.packInFrame (entry handles stack m))
    (f.moveHandles = final (g.moveHandles ⟨handles, 0⟩) ∧
      f.data = if succeeded (g.moveHandles ⟨handles, 0⟩) then final (g.data ⟨stack, 0⟩)
        else ⟨stack, 0⟩) ∧
    Ends (g.packInFrame (entry handles stack m))
      (fun u f => g.pack handles stack ⟨m, 0⟩ = .ok u f.marshal)
      (fun e f => g.pack handles stack ⟨m, 0⟩ = .error e f.marshal) := by
  unfold packInFrame pack
  simp only [failIf_bind_of_not (not_not.2 htype), failIf_bind_of_not (not_not.2 hsize)]
  cases hh : g.moveHandles ⟨handles, 0⟩ with
  | error e c =>
    have hstaged : onMoveHandles g.moveHandles (entry handles stack m) =
      .error e ⟨c, ⟨stack, 0⟩, ⟨m, 0⟩⟩ := zoom_of_error hh
    rw [bind_of_error hstaged, bind_of_error (withLocal_of_error hh _)]
    exact ⟨⟨rfl, rfl⟩, rfl⟩
  | ok u c =>
    have hstaged : onMoveHandles g.moveHandles (entry handles stack m) =
      .ok u ⟨c, ⟨stack, 0⟩, ⟨m, 0⟩⟩ := zoom_of_ok hh
    rw [bind_of_ok hstaged, bind_of_ok (withLocal_eq_ok (r := (u, c)).2 ⟨hh, rfl⟩)]
    cases hd : g.data ⟨stack, 0⟩ with
    | error e data =>
      have hstaged : onData g.data ⟨c, ⟨stack, 0⟩, ⟨m, 0⟩⟩ = .error e ⟨c, data, ⟨m, 0⟩⟩ :=
        zoom_of_error hd
      rw [bind_of_error hstaged, bind_of_error (withLocal_of_error hd _)]
      exact ⟨⟨rfl, rfl⟩, rfl⟩
    | ok v data =>
      have hstaged : onData g.data ⟨c, ⟨stack, 0⟩, ⟨m, 0⟩⟩ = .ok v ⟨c, data, ⟨m, 0⟩⟩ :=
        zoom_of_ok hd
      rw [bind_of_ok hstaged, bind_of_ok (withLocal_eq_ok (r := (v, data)).2 ⟨hd, rfl⟩)]
      -- packing the message leaves both arrays alone
      refine ⟨Prod.mk.inj ((leaves_onMarshal _).bind (fun _ => .pure ()) _), ?_⟩
      exact tracks_onMarshal _ ⟨c, data, ⟨m, 0⟩⟩

/-- **The frame keeps the function.** In a frame the packers return what they return with arrays of
their own, and pack the same message. -/
theorem packInFrame_ends (g : Staging) (handles : Mem Handle) (stack m : Mem Word) :
    Ends (g.packInFrame (entry handles stack m))
      (fun u f => g.pack handles stack ⟨m, 0⟩ = .ok u f.marshal)
      (fun e f => g.pack handles stack ⟨m, 0⟩ = .error e f.marshal) := by
  by_cases h : g.type &&& ~~~0xFFFF#32 = 0#32 ∧ g.rawDataSize % 4 = 0
  · exact (packInFrame_run h.1 h.2 handles stack m).2
  · obtain ⟨e, hframe, hlocal⟩ := packInFrame_refused h (entry handles stack m)
    rw [hframe]
    exact hlocal handles stack ⟨m, 0⟩

end Staging

/-! ## Bounds -/

/-- The function stores to `move_handles` and `buffer` only below their sizes, 16 and `0x220 >> 2`,
on every way out. -/
def InBounds (x : InFrame Unit) : Prop := ∀ handles stack m,
  (∀ i, 16 ≤ i → (final (x (entry handles stack m))).moveHandles.buffer i = handles i) ∧
  ∀ i, 136 ≤ i → (final (x (entry handles stack m))).data.buffer i = stack i

/-- One array after the other: the data section is staged if the handles could be. -/
theorem Staging.inBounds_packInFrame_iff {g : Staging} : InBounds g.packInFrame ↔
    (g.type &&& ~~~0xFFFF#32 = 0#32 → g.rawDataSize % 4 = 0 → Confined 16 g.moveHandles ∧
      ((∃ handles, succeeded (g.moveHandles ⟨handles, 0⟩) = true) → Confined 136 g.data)) := by
  constructor
  · intro h htype hsize
    refine ⟨fun handles i hi => ?_, fun hok stack i hi => ?_⟩
    · have hframe := (h handles (fun _ => 0#32) (fun _ => 0#32)).1 i hi
      rw [(packInFrame_run htype hsize _ _ _).1.1] at hframe
      exact hframe
    · obtain ⟨handles, hok⟩ := hok
      have hframe := (h handles stack (fun _ => 0#32)).2 i hi
      rw [(packInFrame_run htype hsize _ _ _).1.2, if_pos hok] at hframe
      exact hframe
  · intro h handles stack m
    by_cases hpass : g.type &&& ~~~0xFFFF#32 = 0#32 ∧ g.rawDataSize % 4 = 0
    · obtain ⟨hhandles, hdata⟩ := h hpass.1 hpass.2
      refine ⟨fun i hi => ?_, fun i hi => ?_⟩
      · rw [(packInFrame_run hpass.1 hpass.2 _ _ _).1.1]
        exact hhandles handles i hi
      · rw [(packInFrame_run hpass.1 hpass.2 _ _ _).1.2]
        split_ifs with hok
        · exact hdata ⟨handles, hok⟩ stack i hi
        · rfl
    · obtain ⟨e, hrefused, -⟩ := packInFrame_refused hpass (entry handles stack m)
      rw [hrefused]
      exact ⟨fun _ _ => rfl, fun _ _ => rfl⟩

/-! ## Requests -/

namespace IpcRequest

variable (rq : IpcRequest) (object : IpcObject)

/-- The handles that are stored before the function returns, in order: up to the first object that
cannot be sent to a session, or all of them. -/
def stagedHandles : List Handle :=
  if object.inDomain then rq.moveHandles
  else if rq.objects.all (! ·.inDomain) then rq.objects.map (·.session) ++ rq.moveHandles
  else (rq.objects.takeWhile (! ·.inDomain)).map (·.session)

/-- The words of the command that are stored. -/
def stagedPayload : List Word :=
  if rq.closeObject then []
  else [sfci, 0#32, rq.requestId, 0#32] ++ if rq.rawDataSize > 0x200 then [] else rq.rawData

/-- The words that are stored behind the domain header. -/
def stagedBehindHeader : List Word :=
  rq.stagedPayload ++
    if rq.closeObject ∨ rq.rawDataSize > 0x200 then []
    else (rq.objects.takeWhile fun tobject => tobject.domain = object.domain).map (·.objectId)

variable {rq object}

theorem final_stageMoveHandles (c : Cursor Handle) :
    final (stageMoveHandles rq object.inDomain c) = c.append (rq.stagedHandles object) := by
  unfold stagedHandles
  cases hd : object.inDomain with
  | true =>
    show final (emitAll rq.moveHandles c) = c.append rq.moveHandles
    rw [emitAll_run]
    rfl
  | false =>
    exact storesWhile_stageObjectHandles.final_emitAll _ _ c

theorem stagePayload_run (hclose : ¬ rq.closeObject = true) (hsize : rq.rawDataSize ≤ 0x200)
    (toDomain : Bool) (c : Cursor Word) :
    stagePayload rq toDomain c = .ok () (c.append rq.payload) := by
  unfold stagePayload payload
  rw [if_neg hclose, if_neg hclose]
  simp only [bind_of_ok (emit_run _ _)]
  rw [failIf_bind_of_not (by omega), emitAll_run]
  simp only [append_append, List.cons_append, List.nil_append]

theorem stagedPayload_eq (hsize : rq.rawDataSize ≤ 0x200) : rq.stagedPayload = rq.payload := by
  rw [stagedPayload, payload, if_neg (by omega : ¬ rq.rawDataSize > 0x200)]

theorem final_stagePayload (toDomain : Bool) (c : Cursor Word) :
    final (stagePayload rq toDomain c) = c.append rq.stagedPayload := by
  by_cases hclose : rq.closeObject = true
  · have hguards : Leaves id (do
        failIf (toDomain = false) Err.cantCloseSessionsLikeDomainObjects
        failIf (¬ rq.WellFormedClose) Err.malformedCloseRequest :
          EStateM ResultT (Cursor Word) Unit) := (Leaves.failIf _).bind fun _ => Leaves.failIf _
    unfold stagePayload stagedPayload
    rw [if_pos hclose, if_pos hclose, append_nil]
    exact hguards c
  by_cases hsize : rq.rawDataSize > 0x200
  · unfold stagePayload stagedPayload
    rw [if_neg hclose, if_neg hclose, if_pos hsize]
    simp only [bind_of_ok (emit_run _ _)]
    rw [failIf_bind_of hsize]
    simp only [final, append_append, List.cons_append, List.nil_append]
  · rw [stagePayload_run hclose (by omega), stagedPayload_eq (by omega)]
    rfl

/-- The rest of the data section, once the command is in place: the payload size goes into the first
word, and the ids follow. -/
theorem final_stage_ids (object : IpcObject) (m : Mem Word) (w₀ : Word) (ws : List Word)
    (f : Nat → Word → Word) (tobjects : List IpcObject) :
    ∃ w₁, final ((do
      let h ← head
      modifyAt 0 (f h)
      stageObjectIds object tobjects : EStateM ResultT (Cursor Word) Unit)
        ((⟨m, 0⟩ : Cursor Word).append (w₀ :: ws))) =
      (⟨m, 0⟩ : Cursor Word).append (w₁ :: (ws ++
        (tobjects.takeWhile fun tobject => tobject.domain = object.domain).map (·.objectId))) := by
  have hmod : (modifyAt 0 (f (ws.length + 1)) : EStateM ResultT (Cursor Word) Unit)
      ((⟨m, 0⟩ : Cursor Word).append (w₀ :: ws)) =
        .ok () ((⟨m, 0⟩ : Cursor Word).append (f (ws.length + 1) w₀ :: ws)) :=
    modifyAt_run [] w₀ ws _ ⟨m, 0⟩
  refine ⟨f (ws.length + 1) w₀, ?_⟩
  rw [bind_of_ok (head_run _), append_h, Nat.zero_add, List.length_cons, bind_of_ok hmod,
    (storesWhile_stageObjectIds object).final_eq, append_append]
  rfl

theorem stageDomainHeader_run (object : IpcObject) (hlen : rq.objects.length ≤ 8) (m : Mem Word) :
    ∃ w₀, stageDomainHeader rq object ⟨m, 0⟩ =
      .ok () ((⟨m, 0⟩ : Cursor Word).append (w₀ :: object.objectId :: m.read 2 2)) := by
  refine ⟨(if rq.closeObject then 2#32 else 1#32) ||| (BitVec.ofNat 32 rq.objects.length <<< 8), ?_⟩
  unfold stageDomainHeader
  rw [failIf_bind_of_not (by omega), bind_of_ok (emit_run _ _), bind_of_ok (emit_run _ _),
    append_append, skip_append]
  rfl

theorem final_stageRequestData_domain (hd : object.inDomain = true) (hlen : rq.objects.length ≤ 8)
    (m : Mem Word) : ∃ w₀, final (stageRequestData rq object object.inDomain ⟨m, 0⟩) =
      (⟨m, 0⟩ : Cursor Word).append
        ((w₀ :: object.objectId :: m.read 2 2) ++ rq.stagedBehindHeader object) := by
  obtain ⟨w₀, hheader⟩ := stageDomainHeader_run object hlen m
  rw [hd]
  unfold stageRequestData
  simp only [if_true]
  rw [bind_of_ok hheader, bind_of_ok (head_run _)]
  -- what follows a command that was stored
  obtain ⟨w₁, hids⟩ := final_stage_ids object m w₀ (object.objectId :: m.read 2 2 ++ rq.payload)
    (fun h x => x ||| (BitVec.ofNat 32 ((h - 4) * 4) <<< 16)) rq.objects
  have hpayload : final (stagePayload rq true
      ((⟨m, 0⟩ : Cursor Word).append (w₀ :: object.objectId :: m.read 2 2))) = _ :=
    final_stagePayload true _
  cases hrun : stagePayload rq true
      ((⟨m, 0⟩ : Cursor Word).append (w₀ :: object.objectId :: m.read 2 2)) with
  | error e c =>
    rw [hrun] at hpayload
    have hshort : rq.closeObject = true ∨ rq.rawDataSize > 0x200 := by
      by_contra hlong
      rw [not_or] at hlong
      rw [stagePayload_run hlong.1 (by omega)] at hrun
      cases hrun
    refine ⟨w₀, ?_⟩
    rw [bind_of_error hrun, stagedBehindHeader, if_pos hshort, List.append_nil, ← append_append]
    exact hpayload
  | ok u c =>
    obtain ⟨hsize, hclose, rfl⟩ := stagePayload_eq_ok hrun
    have hstaged : rq.stagedBehindHeader object = rq.payload ++
        (rq.objects.takeWhile fun tobject => tobject.domain = object.domain).map (·.objectId) := by
      rw [stagedBehindHeader, stagedPayload_eq hsize]
      split_ifs with hshort
      · -- a request to close, which has no objects
        have hnone : rq.objects = [] := (hclose (hshort.resolve_right (by omega))).2.2.2.2.2.2.2
        rw [hnone]
        rfl
      · rfl
    refine ⟨w₁, ?_⟩
    rw [bind_of_ok hrun, append_append, hstaged]
    exact hids

theorem final_stageRequestData_session (hd : object.inDomain = false) (m : Mem Word) :
    final (stageRequestData rq object object.inDomain ⟨m, 0⟩) =
      (⟨m, 0⟩ : Cursor Word).append rq.stagedPayload := by
  rw [hd]
  show final ((stagePayload rq false >>= fun _ => pure ()) ⟨m, 0⟩) = _
  have hpayload : final (stagePayload rq false ⟨m, 0⟩) = _ := final_stagePayload false _
  cases hrun : stagePayload rq false ⟨m, 0⟩ with
  | error e c =>
    rw [hrun] at hpayload
    rw [bind_of_error hrun]
    exact hpayload
  | ok u c =>
    rw [hrun] at hpayload
    rw [bind_of_ok hrun]
    exact hpayload

theorem length_stagedPayload_le : rq.stagedPayload.length ≤ 132 := by
  have hwords := rq.rawData_words
  unfold stagedPayload
  split_ifs
  · exact Nat.zero_le _
  · simp
  · simp only [List.length_append, List.length_cons, List.length_nil]
    omega

variable (rq object) in
/-- What a request must be like for its staging to stay in bounds. -/
structure StagingFits : Prop where
  /-- At most 16 handles are stored. -/
  handles : (rq.stagedHandles object).length ≤ 16
  /-- In a domain, raw data and ids have 128 words between them. -/
  data : object.inDomain = true → rq.closeObject = false → rq.objects.length ≤ 8 →
    rq.rawDataSize ≤ 0x200 → rq.rawDataSize / 4 +
      (rq.objects.takeWhile fun tobject => tobject.domain = object.domain).length ≤ 128

theorem length_stagedBehindHeader (hopen : rq.closeObject = false)
    (hsize : rq.rawDataSize ≤ 0x200) : (rq.stagedBehindHeader object).length =
      4 + rq.rawDataSize / 4 +
        (rq.objects.takeWhile fun tobject => tobject.domain = object.domain).length := by
  have hlong : ¬ (rq.closeObject = true ∨ rq.rawDataSize > 0x200) := by
    rw [hopen]
    simp only [Bool.false_eq_true, false_or]
    omega
  rw [stagedBehindHeader, if_neg hlong, stagedPayload_eq hsize, payload, hopen,
    if_neg Bool.false_ne_true]
  simp only [List.length_append, List.length_cons, List.length_nil, List.length_map,
    rq.rawData_words]

theorem confined_stageRequestData_iff :
    Confined 136 (stageRequestData rq object object.inDomain) ↔
      (object.inDomain = true → rq.closeObject = false → rq.objects.length ≤ 8 →
        rq.rawDataSize ≤ 0x200 → rq.rawDataSize / 4 +
          (rq.objects.takeWhile fun tobject => tobject.domain = object.domain).length ≤ 128) := by
  by_cases hd : object.inDomain = true
  swap
  · -- a session has no header and no ids
    have hsession := Bool.eq_false_iff.2 hd
    refine iff_of_true ?_ fun h => absurd h hd
    refine confined_of_le (fun m => congrArg Cursor.buffer (final_stageRequestData_session hsession m))
      fun _ => ?_
    exact length_stagedPayload_le.trans (by decide)
  by_cases hlen : rq.objects.length ≤ 8
  swap
  · -- refused before anything is stored
    refine iff_of_true (fun m i _ => ?_) fun _ _ h => absurd h hlen
    have hrefused : stageDomainHeader rq object ⟨m, 0⟩ = .error Err.tooManyObjects ⟨m, 0⟩ :=
      failIf_bind_of (by omega)
    rw [stageRequestData, if_pos hd, bind_of_error hrefused]
    rfl
  choose w₀ hfinal using final_stageRequestData_domain hd hlen
  have hheader : ∀ m, (w₀ m :: object.objectId :: m.read 2 2).length = 4 := fun m => by
    rw [List.length_cons, List.length_cons, Mem.length_read]
  rw [confined_iff_of_le (fun m => congrArg Cursor.buffer (hfinal m)) hheader (by decide)]
  by_cases hshort : rq.closeObject = true ∨ rq.rawDataSize > 0x200
  · have hle : rq.stagedPayload.length ≤ 132 := length_stagedPayload_le
    rw [stagedBehindHeader, if_pos hshort, List.append_nil]
    refine iff_of_true (by omega) fun _ hopen _ hsize => ?_
    rcases hshort with hclose | hlong
    · exact absurd (hclose.symm.trans hopen) (by decide)
    · omega
  · rw [not_or, Bool.not_eq_true] at hshort
    have hsize : rq.rawDataSize ≤ 0x200 := by omega
    rw [length_stagedBehindHeader hshort.1 hsize]
    constructor
    · intro h _ _ _ _
      omega
    · intro h
      have := h hd hshort.1 hlen hsize
      omega

theorem confined_stageMoveHandles_iff :
    Confined 16 (stageMoveHandles rq object.inDomain) ↔ (rq.stagedHandles object).length ≤ 16 := by
  have hfinal : ∀ m, (final (stageMoveHandles rq object.inDomain ⟨m, 0⟩)).buffer =
      m.write 0 ([] ++ rq.stagedHandles object) := fun m =>
    congrArg Cursor.buffer (final_stageMoveHandles _)
  rw [confined_iff_of_le hfinal (fun _ => rfl) (Nat.zero_le 16), List.length_nil, Nat.zero_add]

theorem inBounds_packRequestInFrame_iff : InBounds (packRequestInFrame rq object) ↔
    (rq.type &&& ~~~0xFFFF#32 = 0#32 → rq.rawDataSize % 4 = 0 → rq.StagingFits object) := by
  refine Staging.inBounds_packInFrame_iff.trans (imp_congr_right fun _ => imp_congr_right fun _ => ?_)
  refine (and_congr confined_stageMoveHandles_iff
    (imp_congr_right fun _ => confined_stageRequestData_iff)).trans ?_
  constructor
  · rintro ⟨hhandles, hdata⟩
    refine ⟨hhandles, fun hd => hdata ⟨fun _ => 0#32, ?_⟩ hd⟩
    -- the handles of a request to a domain are not looked at
    show succeeded (stageMoveHandles rq object.inDomain ⟨fun _ => 0#32, 0⟩) = true
    rw [hd]
    show succeeded (emitAll rq.moveHandles (⟨fun _ => 0#32, 0⟩ : Cursor Handle)) = true
    rw [emitAll_run]
    rfl
  · rintro ⟨hhandles, hdata⟩
    exact ⟨hhandles, fun _ => hdata⟩

end IpcRequest

/-! ## Responses -/

namespace IpcResponse

variable (rs : IpcResponse) (w : World) (o : ObjPtr)

/-- The handles that are stored before the function returns, in order. -/
def stagedHandles : List Handle :=
  if (w.object o).isDomainObject then rs.moveHandles
  else if rs.objects.all (sendable w) then rs.objects.map (clientHandle w) ++ rs.moveHandles
  else (rs.objects.takeWhile (sendable w)).map (clientHandle w)

/-- The words of the command that are stored. -/
def stagedPayload : List Word :=
  [sfco, 0#32, rs.resultCode, 0#32] ++ if rs.rawDataSize > 0x200 then [] else rs.rawData

/-- The words of the data section that are stored. -/
def stagedData : List Word :=
  if (w.object o).isDomainObject then
    if rs.objects.length > 8 then []
    else [BitVec.ofNat 32 rs.objects.length, 0#32, 0#32, 0#32] ++
      (rs.objects.takeWhile (ownedBy w (w.object o))).map (fun o' => (w.object o').domainId) ++
        if rs.objects.all (ownedBy w (w.object o)) then rs.stagedPayload else []
  else rs.stagedPayload

/-- What a response must be like for its staging to stay in bounds. -/
structure StagingFits : Prop where
  /-- At most 16 handles are stored. -/
  handles : (rs.stagedHandles w o).length ≤ 16
  /-- In a domain, raw data and ids have 128 words between them. -/
  data : (w.object o).isDomainObject = true → rs.objects.length ≤ 8 →
    rs.objects.all (ownedBy w (w.object o)) = true → rs.rawDataSize ≤ 0x200 →
      rs.rawDataSize / 4 + rs.objects.length ≤ 128

variable {rs w o}

theorem final_stageResponseHandles (c : Cursor Handle) :
    final (stageResponseHandles w rs (w.object o).isDomainObject c) =
      c.append (rs.stagedHandles w o) := by
  unfold stagedHandles
  cases hd : (w.object o).isDomainObject with
  | true =>
    show final (emitAll rs.moveHandles c) = c.append rs.moveHandles
    rw [emitAll_run]
    rfl
  | false =>
    exact (storesWhile_stageClientHandles w).final_emitAll _ _ c

/-- The command header and the raw data, behind whatever is there. -/
theorem final_stage_command (c : Cursor Word) :
    final ((do
      emitAll [sfco, 0#32, rs.resultCode, 0#32]
      failIf (rs.rawDataSize > 0x200) Err.invalidRawDataSize
      emitAll rs.rawData : EStateM ResultT (Cursor Word) Unit) c) = c.append rs.stagedPayload := by
  unfold stagedPayload
  rw [bind_of_ok (emitAll_run _ _)]
  by_cases hsize : rs.rawDataSize > 0x200
  · rw [failIf_bind_of hsize, if_pos hsize]
    rfl
  · rw [failIf_bind_of_not hsize, if_neg hsize, emitAll_append]
    rfl

theorem final_stageResponseData (c : Cursor Word) :
    final (stageResponseData w rs (w.object o) (w.object o).isDomainObject c) =
      c.append (rs.stagedData w o) := by
  unfold stageResponseData stagedData
  cases hd : (w.object o).isDomainObject with
  | true =>
    simp only [if_true]
    by_cases hlen : rs.objects.length > 8
    · rw [failIf_bind_of hlen, if_pos hlen, append_nil]
      rfl
    rw [failIf_bind_of_not hlen, bind_of_ok (emitAll_run _ _), if_neg hlen]
    by_cases hall : rs.objects.all (ownedBy w (w.object o)) = true
    · rw [bind_of_ok ((storesWhile_stageDomainIds w _).of_all hall _), append_append, if_pos hall,
        List.takeWhile_eq_self_iff.2 (List.all_eq_true.1 hall)]
      exact (final_stage_command _).trans (append_append _ _ _)
    · obtain ⟨e, he⟩ := (storesWhile_stageDomainIds w (w.object o)).of_not_all hall
        (c.append [BitVec.ofNat 32 rs.objects.length, 0#32, 0#32, 0#32])
      rw [bind_of_error he, append_append, if_neg hall, List.append_nil]
      rfl
  | false => exact final_stage_command c

theorem length_stagedPayload_le : rs.stagedPayload.length ≤ 132 := by
  have hwords := rs.rawData_words
  unfold stagedPayload
  rw [List.length_append]
  split_ifs
  · simp
  · simp only [List.length_cons, List.length_nil]
    omega

theorem length_stagedPayload (hsize : rs.rawDataSize ≤ 0x200) :
    rs.stagedPayload.length = 4 + rs.rawDataSize / 4 := by
  rw [stagedPayload, if_neg (by omega), List.length_append, rs.rawData_words]
  rfl

theorem length_stagedData_le_iff : (rs.stagedData w o).length ≤ 136 ↔
    ((w.object o).isDomainObject = true → rs.objects.length ≤ 8 →
      rs.objects.all (ownedBy w (w.object o)) = true → rs.rawDataSize ≤ 0x200 →
        rs.rawDataSize / 4 + rs.objects.length ≤ 128) := by
  have hpayload : rs.stagedPayload.length ≤ 132 := length_stagedPayload_le
  unfold stagedData
  by_cases hd : (w.object o).isDomainObject = true
  swap
  · rw [if_neg hd]
    exact iff_of_true (by omega) fun h => absurd h hd
  by_cases hlen : rs.objects.length > 8
  · rw [if_pos hd, if_pos hlen]
    exact iff_of_true (Nat.zero_le _) fun _ h => by omega
  rw [if_pos hd, if_neg hlen]
  by_cases hall : rs.objects.all (ownedBy w (w.object o)) = true
  · rw [if_pos hall, List.takeWhile_eq_self_iff.2 (List.all_eq_true.1 hall)]
    simp only [List.length_append, List.length_cons, List.length_nil, List.length_map]
    by_cases hsize : rs.rawDataSize ≤ 0x200
    · rw [length_stagedPayload hsize]
      constructor
      · intro h _ _ _ _
        omega
      · intro h
        have := h hd (by omega) hall hsize
        omega
    · have hshort : rs.stagedPayload.length = 4 := by
        rw [stagedPayload, if_pos (by omega)]
        rfl
      exact iff_of_true (by omega) fun _ _ _ h => absurd h hsize
  · have hprefix := (List.takeWhile_sublist (ownedBy w (w.object o)) (l := rs.objects)).length_le
    rw [if_neg hall]
    simp only [List.length_append, List.length_cons, List.length_nil, List.length_map]
    exact iff_of_true (by omega) fun _ _ h => absurd h hall

theorem inBounds_packResponseInFrame_iff : InBounds (packResponseInFrame w rs o) ↔
    (rs.type &&& ~~~0xFFFF#32 = 0#32 → rs.rawDataSize % 4 = 0 → rs.StagingFits w o) := by
  have hhandles : ∀ m, (final (stageResponseHandles w rs (w.object o).isDomainObject ⟨m, 0⟩)).buffer =
      m.write 0 ([] ++ rs.stagedHandles w o) := fun m =>
    congrArg Cursor.buffer (final_stageResponseHandles _)
  have hdata : ∀ m, (final (stageResponseData w rs (w.object o) (w.object o).isDomainObject
      ⟨m, 0⟩)).buffer = m.write 0 ([] ++ rs.stagedData w o) := fun m =>
    congrArg Cursor.buffer (final_stageResponseData _)
  refine Staging.inBounds_packInFrame_iff.trans (imp_congr_right fun _ => imp_congr_right fun _ => ?_)
  refine (and_congr (confined_iff_of_le hhandles (fun _ => rfl) (Nat.zero_le 16))
    (imp_congr_right fun _ => confined_iff_of_le hdata (fun _ => rfl) (Nat.zero_le 136))).trans ?_
  rw [List.length_nil, Nat.zero_add, Nat.zero_add, length_stagedData_le_iff]
  constructor
  · rintro ⟨hhandles, hdata⟩
    refine ⟨hhandles, fun hd => hdata ⟨fun _ => 0#32, ?_⟩ hd⟩
    show succeeded (stageResponseHandles w rs (w.object o).isDomainObject ⟨fun _ => 0#32, 0⟩) = true
    rw [hd]
    show succeeded (emitAll rs.moveHandles (⟨fun _ => 0#32, 0⟩ : Cursor Handle)) = true
    rw [emitAll_run]
    rfl
  · rintro ⟨hhandles, hdata⟩
    exact ⟨hhandles, fun _ => hdata⟩

end IpcResponse

/-! ## Both -/

/-- **Staging and its arrays.** A message stays inside both arrays, on every way out, exactly if it
is refused before either is touched or its staging fits. -/
theorem staging_in_bounds_iff (rq : IpcRequest) (object : IpcObject) (w : World) (rs : IpcResponse)
    (o : ObjPtr) :
    (InBounds (packRequestInFrame rq object) ↔
      (rq.type &&& ~~~0xFFFF#32 = 0#32 → rq.rawDataSize % 4 = 0 → rq.StagingFits object)) ∧
    (InBounds (packResponseInFrame w rs o) ↔
      (rs.type &&& ~~~0xFFFF#32 = 0#32 → rs.rawDataSize % 4 = 0 → rs.StagingFits w o)) :=
  ⟨IpcRequest.inBounds_packRequestInFrame_iff, IpcResponse.inBounds_packResponseInFrame_iff⟩

/-- A request over a session with one move handle too many. -/
def seventeenHandles : IpcRequest :=
  { ipcDefaultRequest with moveHandles := List.replicate 17 7#32 }

/-- A request to a domain with as much raw data as may be sent, and an object. -/
def fullDomainRequest : IpcRequest := { fullRequest with objects := [⟨3, 0xD0, false⟩] }

/-- Handles, an object and raw data are staged in bounds, in a session and in a domain, and so is a
response with them; a handle or a word too many is not. -/
theorem everyPart_in_bounds : InBounds (packRequestInFrame everyPart ⟨-1, 0x11, false⟩) ∧
    InBounds (packRequestInFrame sendDomainObject ⟨0, 0xD0, false⟩) ∧
    InBounds (packResponseInFrame domainWorld replyObject (.user 2)) ∧
    ¬ InBounds (packRequestInFrame seventeenHandles ⟨-1, 0x11, false⟩) ∧
    ¬ InBounds (packRequestInFrame fullDomainRequest ⟨0, 0xD0, false⟩) := by
  have hiff := fun rq object =>
    (staging_in_bounds_iff rq object domainWorld replyObject (.user 2)).1
  have hresponse := (staging_in_bounds_iff everyPart ⟨-1, 0x11, false⟩ domainWorld replyObject
    (.user 2)).2
  refine ⟨(hiff _ _).2 fun _ _ => ⟨by decide, fun h => absurd h (by decide)⟩,
    (hiff _ _).2 fun _ _ => ⟨by decide, fun _ _ _ _ => by decide⟩,
    hresponse.2 fun _ _ => ⟨by decide +kernel, fun _ _ _ _ => by decide⟩, fun h => ?_, fun h => ?_⟩
  · exact absurd ((hiff _ _).1 h (by decide) (by decide)).handles (by decide)
  · have hfits := ((hiff _ _).1 h (by decide) (by decide)).data
    exact absurd (hfits (by decide) (by decide) (by decide) (by decide)) (by decide)

/-- An empty frame. -/
def zeroFrame : PackFrame := entry (fun _ => 0#32) (fun _ => 0#32) (fun _ => 0#32)

/-- The seventeenth handle is stored behind `move_handles` before the request is refused for it, and
the id of an object behind `buffer` in a request that is packed. -/
theorem staging_overruns :
    (succeeded (packRequestInFrame seventeenHandles ⟨-1, 0x11, false⟩ zeroFrame) = false ∧
      (final (packRequestInFrame seventeenHandles ⟨-1, 0x11, false⟩ zeroFrame)).moveHandles.buffer 16
        = 7#32) ∧
    succeeded (packRequestInFrame fullDomainRequest ⟨0, 0xD0, false⟩ zeroFrame) = true ∧
      (final (packRequestInFrame fullDomainRequest ⟨0, 0xD0, false⟩ zeroFrame)).data.buffer 136
        = 3#32 := by
  refine ⟨⟨by decide +kernel, by decide +kernel⟩, by decide +kernel, by decide +kernel⟩

end LibTransistor
