import LibTransistor.Lib.Runs
import LibTransistor.Loader.Nro
import Mathlib.Algebra.Ring.Int.Defs

/-!
# Programs that are loaded and unloaded

What `nro_load` and `nro_execute` do, call by call: the events of a call, and how it ends, depend on
which of the calls to the `ro` service fails first (`nroRegister_ends`, `nroExecute_ends`).

**When everything is undone** (`nro_undone_iff`). The NRR of each call that returns has been
unregistered and its program unloaded exactly if, whenever an NRR is registered, the program is
loaded and the NRR unregistered: `nro_load` gives up as soon as something fails, and its caller then
unloads nothing. The number of loaded programs is right in every case.
-/

namespace LibTransistor

open Fallible List

variable {s : NroState}

/-! ## What a call does -/

/-- What an event adds to the number of loaded programs whose unloading has not succeeded. -/
def NroEvent.balance : NroEvent → Int
  | .loadNro _ _ _ _ _ r => if r = resultOk then 1 else 0
  | .unloadNro _ _ r => if r = resultOk then -1 else 0
  | _ => 0

/-- The number of programs that have been loaded and not been unloaded with success. -/
def outstanding (es : List NroEvent) : Int := (es.map NroEvent.balance).sum

theorem outstanding_append (es es' : List NroEvent) :
    outstanding (es ++ es') = outstanding es + outstanding es' := by
  unfold outstanding
  rw [map_append, sum_append]

/-- From `s` to `t` some events have happened, and the number of loaded programs is still right. -/
structure NroState.Did (s t : NroState) (es : List NroEvent) : Prop where
  events : t.events = s.events ++ es
  loaded : t.loadedCount = s.loadedCount + outstanding es

section Calls

variable {t u : NroState} {es es' : List NroEvent} (a : NroAnswers) (loadBase : BitVec 64)
  (inSize : BitVec 32) (h : NroHeader)

theorem NroState.Did.trans (hs : s.Did t es) (ht : t.Did u es') : s.Did u (es ++ es') := by
  refine ⟨?_, ?_⟩
  · rw [ht.events, hs.events, append_assoc]
  · rw [ht.loaded, hs.loaded, outstanding_append, Int.add_assoc]

theorem NroState.Did.nil (hevents : t.events = s.events) (hloaded : t.loadedCount = s.loadedCount) :
    s.Did t [] := by
  refine ⟨?_, ?_⟩
  · rw [hevents, append_nil]
  · exact hloaded.trans (Int.add_zero _).symm

/-- The events of `nroPrepare`. -/
def prepareEvents : List NroEvent :=
  [.stored (h.nrr loadBase) 4, .stored (h.nrr loadBase + 0x338) 4,
    .stored (h.nrr loadBase + 0x340) 4, .stored (h.nrr loadBase + 0x344) 4,
    .hashed loadBase h.nroSize.toNat, .stored (h.nrr loadBase + 0x350) 32]

/-- The events of `nroRegister` up to the program's registration. -/
def loadEvents : List NroEvent :=
  let bss := loadBase + h.nroSize.signExtend 64
  [.loadNrr (h.nrr loadBase) 0x1000 resultOk, .stored bss h.bssSize.toNat,
    .loadNro a.nroBase loadBase (h.nroSize.signExtend 64) bss (h.bssSize.setWidth 64) a.loadNro]

theorem outstanding_loadEvents :
    outstanding (loadEvents a loadBase h) = if a.loadNro = resultOk then 1 else 0 := by
  simp [outstanding, loadEvents, NroEvent.balance]

theorem nroPrepare_run (s : NroState) :
    ∃ t, nroPrepare a loadBase h s = .ok () t ∧ s.Did t (prepareEvents loadBase h) := by
  refine ⟨_, rfl, ?_, (Int.add_zero _).symm⟩
  simp only [append_assoc]
  rfl

theorem checkResult_of_ne {r : ResultT} (hr : r ≠ resultOk) (s : NroState) :
    checkResult r s = .error (.result r) s := failIf_of hr s

theorem checkResult_ok (s : NroState) : checkResult resultOk s = .ok () s :=
  failIf_of_not (not_not.2 rfl) s

theorem recordNro_bind_run {β : Type} {e : NroEvent} {f : Unit → NroM β} :
    (recordNro e >>= f) s = f () { s with events := s.events ++ [e] } := rfl

theorem storeBytes_bind_run {β : Type} {addr : BitVec 64} {bytes : List Byte} {f : Unit → NroM β} :
    (storeBytes addr bytes >>= f) s = f ()
      { s with
        mem := s.mem.write addr.toNat bytes
        events := s.events ++ [.stored addr bytes.length] } := rfl

/-- How `nroRegister` ends: after the first call that fails, if there is one. -/
theorem nroRegister_ends (s : NroState) :
    Ends (nroRegister a loadBase h s)
      (fun _ t => a.loadNrr = resultOk ∧ a.loadNro = resultOk ∧ a.unloadNrr = resultOk ∧
        t.nroBase = a.nroBase ∧ t.nroLoadBase = loadBase ∧
        s.Did t (loadEvents a loadBase h ++ [.unloadNrr (h.nrr loadBase) resultOk]))
      (fun e t => ∃ r, e = .result r ∧ r ≠ resultOk ∧
        ((a.loadNrr = r ∧ s.Did t [.loadNrr (h.nrr loadBase) 0x1000 r]) ∨
        (a.loadNrr = resultOk ∧ a.loadNro = r ∧ s.Did t (loadEvents a loadBase h)) ∨
        (a.loadNrr = resultOk ∧ a.loadNro = resultOk ∧ a.unloadNrr = r ∧
          s.Did t (loadEvents a loadBase h ++ [.unloadNrr (h.nrr loadBase) r])))) := by
  have hload : outstanding (loadEvents a loadBase h) = _ := outstanding_loadEvents a loadBase h
  unfold nroRegister
  rw [recordNro_bind_run]
  by_cases hnrr : a.loadNrr = resultOk
  · rw [hnrr, bind_of_ok (checkResult_ok _), storeBytes_bind_run, recordNro_bind_run]
    by_cases hnro : a.loadNro = resultOk
    · rw [hnro, bind_of_ok (checkResult_ok _), modify_bind_run, recordNro_bind_run]
      rw [if_pos hnro] at hload
      by_cases hunload : a.unloadNrr = resultOk
      · rw [hunload]
        refine ⟨rfl, rfl, rfl, rfl, rfl, ?_, ?_⟩
        · simp only [loadEvents, hnro, append_assoc, length_replicate]
          rfl
        · rw [outstanding_append, hload]
          rfl
      · rw [checkResult_of_ne hunload]
        refine ⟨_, rfl, hunload, .inr (.inr ⟨rfl, rfl, rfl, ?_, ?_⟩)⟩
        · simp only [loadEvents, hnro, append_assoc, length_replicate]
          rfl
        · rw [outstanding_append, hload]
          rfl
    · rw [bind_of_error (checkResult_of_ne hnro _)]
      rw [if_neg hnro] at hload
      refine ⟨_, rfl, hnro, .inr (.inl ⟨rfl, rfl, ?_, ?_⟩)⟩
      · simp only [append_assoc, length_replicate]
        rfl
      · rw [hload]
        exact (Int.add_zero _).symm
  · rw [bind_of_error (checkResult_of_ne hnrr _)]
    exact ⟨_, rfl, hnrr, .inl ⟨rfl, rfl, (Int.add_zero _).symm⟩⟩

theorem nroLoad_refused (hs : ¬ s.Accepts loadBase inSize) :
    ∃ r, nroLoad a loadBase inSize s = .error (.result r) s := by
  have hends : Ends (nroCheck loadBase inSize s) (fun _ _ => True)
      (fun e t => ∃ r, e = .result r ∧ t = s) := by
    refine Ends.failIf_bind (fun _ => ⟨1, rfl, rfl⟩) fun _ => ?_
    generalize BitVec.setWidth 64 _ = needed
    exact Ends.failIf_bind (fun _ => ⟨2, rfl, rfl⟩) fun _ => True.intro
  cases hrun : nroCheck loadBase inSize s with
  | ok h t => exact absurd (nroCheck_eq_ok.1 hrun).1 hs
  | error e t =>
    rw [hrun] at hends
    obtain ⟨r, rfl, rfl⟩ := hends
    exact ⟨r, bind_of_error hrun⟩

theorem nroLoad_accepted (hs : s.Accepts loadBase inSize) :
    ∃ t, s.Did t (prepareEvents loadBase (s.header loadBase)) ∧
      nroLoad a loadBase inSize s = nroRegister a loadBase (s.header loadBase) t := by
  obtain ⟨t, hrun, ht⟩ := nroPrepare_run a loadBase (s.header loadBase) s
  refine ⟨t, ht, ?_⟩
  unfold nroLoad
  rw [bind_of_ok (nroCheck_eq_ok.2 ⟨hs, rfl, rfl⟩), bind_of_ok hrun]

theorem rescanHeap_ends (h : s.Did t es) (heap : Option HeapBlock) :
    Ends (rescanHeap heap t) (fun _ u => s.Did u es)
      (fun e u => e = .exited ∧ ∃ es, s.Did u es) := by
  cases heap with
  | none => exact ⟨rfl, es, h⟩
  | some heap => exact ⟨h.events, h.loaded⟩

theorem nroUnload_ends (s : NroState) :
    Ends (nroUnload a s)
      (fun _ t => s.Did t [.unloadNro s.nroBase s.nroLoadBase a.unloadNro])
      (fun e t => e = .exited ∧ ∃ es, s.Did t es) := by
  unfold nroUnload
  rw [get_bind_run, recordNro_bind_run, modify_bind_run]
  refine Ends.bind (rescanHeap_ends ⟨?_, ?_⟩ a.getHeap) fun _ _ ht => ht
  · split_ifs <;> rfl
  · unfold outstanding NroEvent.balance
    by_cases hr : a.unloadNro = resultOk
    · simp only [hr]
      rfl
    · rw [if_pos hr]
      simp only [map_cons, if_neg hr]
      exact (Int.add_zero _).symm

theorem nroStart_ends (s : NroState) :
    Ends (nroStart a s)
      (fun _ t => s.Did t [] ∧ t.nroBase = s.nroBase ∧ t.nroLoadBase = s.nroLoadBase)
      (fun e t => e = .exited ∧ ∃ es, s.Did t es) := by
  unfold nroStart
  by_cases hmake : a.makeBlock ≠ 0
  · rw [if_pos hmake]
    exact ⟨.nil rfl rfl, rfl, rfl⟩
  · rw [if_neg hmake, modify_bind_run]
    refine Ends.failIf_bind (fun _ => ?_) fun _ => ?_
    · exact ⟨rfl, [], .nil rfl rfl⟩
    · exact ⟨.nil rfl rfl, rfl, rfl⟩

theorem nroRun_ends (s : NroState) :
    Ends (nroRun a s)
      (fun _ t => s.Did t [.unloadNro s.nroBase s.nroLoadBase a.unloadNro])
      (fun e t => e = .exited ∧ ∃ es, s.Did t es) := by
  refine Ends.bind (nroStart_ends a s) ?_
  rintro ret t ⟨ht, hbase, hload⟩
  refine Ends.bind ((nroUnload_ends a t).imp (fun _ _ hu => hu) ?_) ?_
  · rintro e u ⟨he, es, hu⟩
    exact ⟨he, es, ht.trans hu⟩
  · intro r u hu
    rw [hbase, hload] at hu
    exact ht.trans hu

end Calls

/-! ## What has been undone -/

/-- The event is a call of `ro_unload_nro` for a program. -/
def NroEvent.unloads (nroBase loadBase : BitVec 64) : NroEvent → Bool
  | .unloadNro nroBase' loadBase' _ => nroBase' = nroBase && loadBase' = loadBase
  | _ => false

/-- For every NRR that is registered, `ro_unload_nrr` is called later. -/
def NrrsUnloaded : List NroEvent → Prop
  | [] => True
  | .loadNrr nrr _ r :: es => (r = resultOk → ∃ r', .unloadNrr nrr r' ∈ es) ∧ NrrsUnloaded es
  | _ :: es => NrrsUnloaded es

/-- For every program that is loaded, `ro_unload_nro` is called later, once. -/
def NrosUnloadedOnce : List NroEvent → Prop
  | [] => True
  | .loadNro nroBase loadBase _ _ _ r :: es =>
    (r = resultOk → es.countP (NroEvent.unloads nroBase loadBase) = 1) ∧ NrosUnloadedOnce es
  | _ :: es => NrosUnloadedOnce es

def Undone (es : List NroEvent) : Prop := NrrsUnloaded es ∧ NrosUnloadedOnce es

section Execute

variable {a : NroAnswers} {loadBase : BitVec 64} {inSize : BitVec 32}

/-- The condition on a call: it is refused, or the NRR is not registered, or the program is loaded and
the NRR unregistered. -/
def NroState.Balanced (s : NroState) (a : NroAnswers) (loadBase : BitVec 64)
    (inSize : BitVec 32) : Prop :=
  s.Accepts loadBase inSize → a.loadNrr = resultOk →
    a.loadNro = resultOk ∧ a.unloadNrr = resultOk

theorem undone_prepareEvents_append (loadBase : BitVec 64) (h : NroHeader) (es : List NroEvent) :
    Undone (prepareEvents loadBase h ++ es) ↔ Undone es := Iff.rfl

theorem undone_loadEvents_append (a : NroAnswers) (loadBase : BitVec 64) (h : NroHeader)
    {es : List NroEvent} (hes : Undone es) :
    Undone (loadEvents a loadBase h ++ es) ↔
      (∃ r, .unloadNrr (h.nrr loadBase) r ∈ es) ∧
      (a.loadNro = resultOk → es.countP (NroEvent.unloads a.nroBase loadBase) = 1) := by
  simp [Undone, loadEvents, NrrsUnloaded, NrosUnloadedOnce, hes.1, hes.2]

/-- **What a call does.** If it returns, everything is undone exactly if the call is balanced. It only
exits after a balanced load. -/
theorem nroExecute_ends (a : NroAnswers) (loadBase : BitVec 64) (inSize : BitVec 32)
    (s : NroState) :
    Ends (nroExecute a loadBase inSize s)
      (fun _ t => ∃ es, s.Did t es ∧ (Undone es ↔ s.Balanced a loadBase inSize))
      (fun _ t => (∃ es, s.Did t es) ∧ s.Balanced a loadBase inSize) := by
  unfold nroExecute
  by_cases hs : s.Accepts loadBase inSize
  · obtain ⟨t, ht, hload⟩ := nroLoad_accepted a loadBase inSize hs
    have hends := nroRegister_ends a loadBase (s.header loadBase) t
    have hbalanced : s.Balanced a loadBase inSize ↔
        (a.loadNrr = resultOk → a.loadNro = resultOk ∧ a.unloadNrr = resultOk) :=
      forall_prop_of_true hs
    rw [hload, hbalanced]
    cases hrun : nroRegister a loadBase (s.header loadBase) t with
    | ok _ u =>
      rw [hrun] at hends
      obtain ⟨hnrr, hnro, hunload, hbase, hloadBase, hu⟩ := hends
      refine (nroRun_ends a u).imp (fun ret v hv => ?_) ?_
      · rw [hbase, hloadBase] at hv
        refine ⟨_, ht.trans (hu.trans hv), iff_of_true ?_ fun _ => ⟨hnro, hunload⟩⟩
        have hrest : Undone [.unloadNrr ((s.header loadBase).nrr loadBase) resultOk,
            .unloadNro a.nroBase loadBase a.unloadNro] := ⟨trivial, trivial⟩
        rw [undone_prepareEvents_append]
        refine (undone_loadEvents_append _ _ _ hrest).2 ⟨⟨resultOk, mem_cons_self⟩, fun _ => ?_⟩
        simp [NroEvent.unloads]
      · rintro e v ⟨-, es, hv⟩
        exact ⟨⟨_, (ht.trans hu).trans hv⟩, fun _ => ⟨hnro, hunload⟩⟩
    | error e u =>
      rw [hrun] at hends
      obtain ⟨r, rfl, hr, ⟨hnrr, hu⟩ | ⟨hnrr, hnro, hu⟩ | ⟨hnrr, hnro, hunload, hu⟩⟩ := hends
      · refine ⟨_, ht.trans hu, iff_of_true ?_ fun h => absurd (hnrr ▸ h) hr⟩
        exact ⟨⟨fun h => absurd h hr, trivial⟩, trivial⟩
      · refine ⟨_, ht.trans hu, iff_of_false ?_ fun h => hr (hnro ▸ (h hnrr).1)⟩
        have hnone : Undone [] := ⟨trivial, trivial⟩
        rw [undone_prepareEvents_append, ← append_nil (loadEvents _ _ _),
          undone_loadEvents_append _ _ _ hnone]
        rintro ⟨⟨r', hmem⟩, -⟩
        exact not_mem_nil hmem
      · refine ⟨_, ht.trans hu, iff_of_false ?_ fun h => hr (hunload ▸ (h hnrr).2)⟩
        have hrest : Undone [.unloadNrr ((s.header loadBase).nrr loadBase) r] := ⟨trivial, trivial⟩
        rw [undone_prepareEvents_append, undone_loadEvents_append _ _ _ hrest]
        rintro ⟨-, hcount⟩
        exact absurd (hcount hnro) Nat.zero_ne_one
  · obtain ⟨r, hload⟩ := nroLoad_refused a loadBase inSize hs
    rw [hload]
    exact ⟨[], .nil rfl rfl, iff_of_true ⟨trivial, trivial⟩ fun h => absurd h hs⟩

end Execute

/-! ## Sequences of calls -/

/-- A call of `nro_execute`, and the memory in which it is made. -/
structure NroCall where
  answers : NroAnswers
  memory : Mem Byte
  loadBase : BitVec 64
  inSize : BitVec 32

/-- The loader between calls. -/
structure NroRun where
  state : NroState
  /-- The events of each call that has returned. -/
  traces : List (List NroEvent)
  exited : Bool

namespace NroRun

variable (r : NroRun) (c : NroCall)

/-- The loader before the first call. -/
def start (mem : Mem Byte) (heap : HeapBlock) : NroRun where
  state := ⟨mem, heap, 0, 0, 0, 0, 0, []⟩
  traces := []
  exited := false

/-- The state in which a call is made. -/
def entering : NroState := { r.state with mem := c.memory }

/-- Nothing is called once the loader has exited. -/
def exec (c : NroCall) (r : NroRun) : NroRun :=
  if r.exited then r
  else match nroExecute c.answers c.loadBase c.inSize (r.entering c) with
    | .ok _ t => ⟨t, r.traces ++ [t.events.drop r.state.events.length], false⟩
    | .error _ t => ⟨t, r.traces, true⟩

/-- Each call that has returned has undone what it did, and the number of loaded programs is that of
the ones whose unloading has not succeeded. -/
def AllUndone : Prop :=
  (∀ es ∈ r.traces, Undone es) ∧ r.state.loadedCount = outstanding r.state.events

/-- The condition on a call. -/
def Admits : Prop :=
  r.exited = false → (r.entering c).Balanced c.answers c.loadBase c.inSize

variable {r c}

theorem start_allUndone (mem : Mem Byte) (heap : HeapBlock) : (start mem heap).AllUndone :=
  ⟨nofun, rfl⟩

theorem exec_allUndone_iff (hr : r.AllUndone) : (exec c r).AllUndone ↔ r.Admits c := by
  unfold exec Admits
  by_cases hexited : r.exited = true
  · rw [hexited]
    exact iff_of_true hr nofun
  rw [if_neg hexited, forall_prop_of_true (Bool.not_eq_true _ ▸ hexited)]
  have hends := nroExecute_ends c.answers c.loadBase c.inSize (r.entering c)
  have hcount {t : NroState} {es : List NroEvent} (ht : (r.entering c).Did t es) :
      t.loadedCount = outstanding t.events := by
    rw [ht.loaded, ht.events, outstanding_append]
    exact congrArg (· + outstanding es) hr.2
  cases hrun : nroExecute c.answers c.loadBase c.inSize (r.entering c) with
  | ok ret t =>
    rw [hrun] at hends
    obtain ⟨es, ht, hundone⟩ := hends
    have htrace : t.events.drop r.state.events.length = es := by
      rw [ht.events]
      exact drop_left
    rw [← hundone]
    constructor
    · intro h
      have hes := h.1 _ (mem_append_right _ (mem_singleton_self _))
      rw [htrace] at hes
      exact hes
    · intro h
      refine ⟨fun es' hes' => ?_, hcount ht⟩
      rcases mem_append.1 hes' with hold | hnew
      · exact hr.1 es' hold
      · rw [mem_singleton.1 hnew, htrace]
        exact h
  | error e t =>
    rw [hrun] at hends
    obtain ⟨⟨es, ht⟩, hbalanced⟩ := hends
    exact iff_of_true ⟨hr.1, hcount ht⟩ hbalanced

end NroRun

/-- **When everything is undone.** For every heap, every sequence of calls and all answers, it is in
every state that is reached exactly if every call, when it is made, is balanced. -/
theorem nro_undone_iff (mem : Mem Byte) (heap : HeapBlock) (calls : List NroCall) :
    System.Throughout NroRun.exec NroRun.AllUndone (.start mem heap) calls ↔
      System.Allowed NroRun.exec NroRun.Admits (.start mem heap) calls := by
  have hlegal : System.Allowed NroRun.exec (fun _ _ => True) (.start mem heap) calls :=
    System.Allowed.of_forall (fun _ _ => trivial) _ _
  exact System.throughout_iff_allowed (I := fun _ => True) (fun _ _ _ _ => trivial)
    (fun _ _ _ hr _ => NroRun.exec_allUndone_iff hr) trivial (NroRun.start_allUndone mem heap) hlegal

/-- A program is executed and `ro_load_nro` returns `r`, everything else succeeds. -/
def executing (r : ResultT) : NroCall where
  answers := {
    sha256 := fun _ _ => 0
    loadNrr := resultOk
    loadNro := r
    nroBase := 0x8000000
    unloadNrr := resultOk
    makeBlock := 0
    entry := 0
    memory := fun _ => 0
    destroyBlock := 0
    unloadNro := resultOk
    getHeap := some smallHeap }
  memory := (storedNro 0x2000).mem
  loadBase := 0x10000000
  inSize := 0x1000

theorem twoPrograms_undone :
    System.Throughout NroRun.exec NroRun.AllUndone (.start (fun _ => 0) smallHeap)
      [executing resultOk, executing resultOk] :=
  (nro_undone_iff _ _ _).2 ⟨fun _ _ _ => ⟨rfl, rfl⟩, fun _ _ _ => ⟨rfl, rfl⟩, trivial⟩

/-- If the program cannot be loaded its NRR stays registered. -/
theorem failedLoad_not_undone :
    ¬ System.Throughout NroRun.exec NroRun.AllUndone (.start (fun _ => 0) smallHeap)
      [executing 1] := by
  intro hundone
  have haccepts : (storedNro 0x2000).Accepts 0x10000000 0x1000 := by
    refine ⟨?_, ?_⟩
    · constructor <;> decide
    · decide
  have hafter : (NroRun.exec (executing 1) (.start (fun _ => 0) smallHeap)).AllUndone :=
    hundone [executing 1] prefix_rfl
  have hadmits := (NroRun.exec_allUndone_iff (NroRun.start_allUndone _ _)).1 hafter
  exact absurd (hadmits rfl haccepts rfl).1 (by decide)

end LibTransistor
