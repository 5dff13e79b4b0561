import LibTransistor.Service.Books

/-!
# Counts and handles are honest

Clients initialise `sm`, `bsd`, `nv`, `gpu`, `vi`, `display` and `hid` in any order, and finalise
what was initialised. Each call is to be honest (`Honest`): an initialisation returns `RESULT_OK`
exactly if it counted and the resources are there, one that fails has changed nothing, and the
handles of a module are closed once when its count returns to zero.

Three things stand in the way (`Call.Served` excludes them); in every run without these, all calls
are honest (`services_honest`).

* The last `hid_finalize` clears the variable before it closes the handle in it, so the handle of
  the shared memory stays open.
* `hid_init` jumps to its label for failures with `r` still `RESULT_OK` if there is no block of
  memory to map at.
* `gpu_initialize` returns `nv_result` if a device file is negative, which is `RESULT_OK` if the
  driver says that all is well.
-/

namespace LibTransistor.Service

open Fallible Ledger List Function

variable {env : Env} {s t : State} {m : Module}

/-! ## Honest calls -/

/-- What a function returns. -/
def resultOf (x : ServiceM Unit) (s : State) : ResultT :=
  match x s with
  | .ok _ _ => resultOk
  | .error r _ => r

/-- The modules that are initialised with `m`, itself included. -/
def Module.uses : Module → List Module
  | .gpu => [.gpu, .nv]
  | .display => [.display, .vi, .gpu, .nv]
  | .hid => [.hid, .hidIpc]
  | m => [m]

/-- The resources of `m` are there, and the process holds the handles. -/
def Module.Held (m : Module) (s : State) : Prop :=
  ∀ m' ∈ m.uses, m'.Complete s.vars ∧ ∀ h ∈ m'.own s.vars, h ∈ held s.ledger

structure InitHonest (i : Init) (env : Env) (s : State) : Prop where
  /-- `RESULT_OK` is returned exactly if the module was counted and its resources are there. -/
  ok_iff : resultOf (i.run env) s = resultOk ↔
    (final (i.run env s)).count i.module = s.count i.module + 1 ∧
      i.module.Held (final (i.run env s))
  /-- A failure changes no count and no handle. -/
  failed : resultOf (i.run env) s ≠ resultOk → (final (i.run env s)).count = s.count ∧
    (held (final (i.run env s)).ledger).Perm (held s.ledger)

/-- What is asked of a call in `s`. -/
structure Honest (s : State) (call : Call) : Prop where
  init : ∀ i env, call = .init i env → InitHonest i env s
  /-- Nothing is closed that is not open, and what is open belongs to a module that is initialised. -/
  owns : Owns (call.exec s).ledger ((call.exec s).holdings [])
  /-- A module whose count returns to zero closes its handles, each once. -/
  closed : ∀ m, 0 < s.count m → (call.exec s).count m = 0 → ∀ h ∈ m.own s.vars,
    (call.exec s).ledger.count (.disposed h) = s.ledger.count (.disposed h) + 1 ∧
      h ∉ held (call.exec s).ledger

/-! ## Runs -/

/-- A run: its state, and for each module the initialisations that returned `RESULT_OK` and were not
finalised. -/
structure ServiceRun where
  state : State
  inits : Module → Nat

variable (config : LoaderConfig)

def ServiceRun.start : ServiceRun := ⟨.initial config, fun _ => 0⟩

def ServiceRun.after (r : ServiceRun) : Call → ServiceRun
  | .init i env => ⟨final (i.run env r.state), Function.update r.inits i.module
      (r.inits i.module + if resultOf (i.run env) r.state = resultOk then 1 else 0)⟩
  | .finalize m env => ⟨final (m.finalize env r.state), Function.update r.inits m (r.inits m - 1)⟩

/-- The modules that clients use. -/
def Module.tracked : List Module := [.sm, .bsd, .nv, .gpu, .vi, .display, .hid]

/-- Only what was initialised is finalised. -/
def ServiceRun.Permits (r : ServiceRun) : Call → Prop
  | .init i _ => i.module ∈ Module.tracked
  | .finalize m _ => 0 < r.inits m

def serviceSystem : System ServiceRun Call where
  init r := r = .start config
  step r call r' := r.Permits call ∧ r' = r.after call

/-- The driver and the kernel serve the first initialisations of `gpu` and `hid` as these expect,
and `hid` is not finalised for the last time. -/
def Call.Served (s : State) : Call → Prop
  | .init .gpu env => s.count .gpu = 0 → env.OpensDevices
  | .init .display env => s.count .display = 0 → s.count .gpu = 0 → env.OpensDevices
  | .init .hid env => s.count .hid = 0 → env.FindsBlocks
  | .init _ _ => True
  | .finalize .hid _ => s.count .hid ≠ 1
  | .finalize _ _ => True

/-! ## What is known between calls -/

/-- How often other modules have initialised `m`. -/
def State.nested (s : State) : Module → Int
  | .nv => if 0 < s.count .gpu then 1 else 0
  | .gpu | .vi => if 0 < s.count .display then 1 else 0
  | .hidIpc => if 0 < s.count .hid then 1 else 0
  | _ => 0

theorem nested_nonneg (s : State) (m : Module) : 0 ≤ s.nested m := by
  cases m <;> simp only [State.nested] <;> omega

structure ServiceRun.Inv (r : ServiceRun) : Prop where
  books : Books [] r.state
  counts : ∀ m, r.state.count m = r.inits m + r.state.nested m
  tracked : ∀ m, 0 < r.inits m → m ∈ Module.tracked

/-- From `s` to `t` clients initialise `m` another `k` times. -/
def Shift (m : Module) (k : Int) (s t : State) : Prop :=
  ∀ m', t.count m' - t.nested m' = s.count m' - s.nested m' + bump m k m'

theorem shift_of_bump {k : Int} (hm : m ≠ .gpu ∧ m ≠ .display ∧ m ≠ .hid)
    (h : ∀ m', t.count m' = s.count m' + bump m k m') : Shift m k s t := by
  have hgpu : t.count .gpu = s.count .gpu := by rw [h, bump_of_ne hm.1.symm, Int.add_zero]
  have hdisplay : t.count .display = s.count .display := by
    rw [h, bump_of_ne hm.2.1.symm, Int.add_zero]
  have hhid : t.count .hid = s.count .hid := by rw [h, bump_of_ne hm.2.2.symm, Int.add_zero]
  have hnested : t.nested = s.nested := by
    funext m'
    cases m' <;> simp only [State.nested, hgpu, hdisplay, hhid]
  intro m'
  rw [hnested, h]
  omega

/-- What an initialisation of a module adds to the counts. -/
def Module.opening (s : State) : Module → Module → Int
  | .gpu => gpuShare s
  | .display => fun m =>
      bump .display 1 m + if s.count .display = 0 then gpuShare s m + bump .vi 1 m else 0
  | .hid => fun m => bump .hid 1 m + if s.count .hid = 0 then bump .hidIpc 1 m else 0
  | m => bump m 1

/-- What a finalisation adds to the counts, the last one of `hid` apart. -/
def Module.closing (s : State) : Module → Module → Int
  | .gpu => fun m => bump .gpu (-1) m + if s.count .gpu = 1 then bump .nv (-1) m else 0
  | .display => fun m => bump .display (-1) m + if s.count .display = 1 then
      bump .vi (-1) m + (bump .gpu (-1) m + if s.count .gpu = 1 then bump .nv (-1) m else 0) else 0
  | m => bump m (-1)

theorem shift_opening (h : ∀ m', t.count m' = s.count m' + m.opening s m') : Shift m 1 s t := by
  have hgpu := h .gpu
  have hdisplay := h .display
  have hhid := h .hid
  cases m with
  | gpu | display | hid =>
    intro m'
    rw [h]
    simp only [Module.opening, gpuShare, bump, reduceCtorEq, if_true, if_false]
      at hgpu hdisplay hhid
    cases m' <;> simp only [State.nested, Module.opening, gpuShare, bump, reduceCtorEq, if_true,
      if_false] <;> omega
  | _ => exact shift_of_bump (by decide) h

theorem shift_closing (hpos : 0 < s.count m) (hhid : m = .hid → s.count .hid ≠ 1)
    (h : ∀ m', t.count m' = s.count m' + m.closing s m') : Shift m (-1) s t := by
  have hgpu := h .gpu
  have hdisplay := h .display
  have hhid' := h .hid
  cases m with
  | gpu | display | hid =>
    intro m'
    rw [h]
    simp only [Module.closing, bump, reduceCtorEq, if_true, if_false, true_imp_iff]
      at hgpu hdisplay hhid' hhid
    cases m' <;> simp only [State.nested, Module.closing, bump, reduceCtorEq, if_true,
      if_false] <;> omega
  | _ => exact shift_of_bump (by decide) h

/-! ## One call -/

section Calls

variable {r : ServiceRun}

theorem ServiceRun.Inv.nested_le (h : r.Inv) (m : Module) : r.state.nested m ≤ r.state.count m := by
  have := h.counts m
  omega

theorem ServiceRun.Inv.uses_pos (h : r.Inv) (hpos : 0 < r.state.count m) :
    ∀ m' ∈ m.uses, 0 < r.state.count m' := by
  have hnv := h.nested_le .nv
  have hgpu := h.nested_le .gpu
  have hvi := h.nested_le .vi
  have hipc := h.nested_le .hidIpc
  simp only [State.nested] at hnv hgpu hvi hipc
  cases m <;> simp only [Module.uses, forall_mem_cons, not_mem_nil, false_imp_iff,
    implies_true, and_true] <;> omega

theorem ServiceRun.Inv.held (h : r.Inv) (hpos : 0 < r.state.count m) : m.Held r.state := by
  intro m' hm'
  have hpos' := h.uses_pos hpos m' hm'
  refine ⟨h.books.complete m' not_mem_nil hpos', fun a ha => h.books.owns.mem_iff.2 ?_⟩
  refine mem_flatMap.2 ⟨m', m'.mem_all, ?_⟩
  rw [share_of_pos not_mem_nil hpos']
  exact ha

theorem init_books (h : r.Inv) {i : Init} (hi : i.module ∈ Module.tracked)
    (hserved : (Call.init i env).Served r.state) :
    Initialises [] (i.module.opening r.state) (i.run env) r.state := by
  cases i with
  | sm => exact smInit_books h.books not_mem_nil
  | bsd requireOverride service =>
    exact service_ends h.books (m := .bsd) (by decide) not_mem_nil fun s _ =>
      bsdBody_opens requireOverride service s
  | nv => exact nvInit_books h.books not_mem_nil
  | gpu => exact gpuInitialize_books h.books not_mem_nil hserved
  | vi => exact viInit_books h.books not_mem_nil
  | display =>
    refine displayInit_books h.books not_mem_nil not_mem_nil hserved fun hpos => ?_
    exact h.uses_pos hpos .nv (by decide)
  | hid => exact hidInit_books h.books not_mem_nil not_mem_nil hserved
  | hidIpc | am | audio | ro | nifm | time | bpc => exact absurd hi (by decide)

theorem finalize_released (h : r.Inv) (hpos : 0 < r.inits m)
    (hserved : (Call.finalize m env).Served r.state) :
    Finalises [] (m.closing r.state) (m.finalize env) r.state := by
  have hcount : 0 < r.state.count m := by
    have := h.counts m
    have := nested_nonneg r.state m
    omega
  have hused := h.uses_pos hcount
  have hm := h.tracked m hpos
  cases m with
  | sm => exact finalize_books (closes_ipcClose .sm) h.books not_mem_nil hcount
  | bsd => exact finalize_books closes_bsd h.books not_mem_nil hcount
  | nv => exact nvFinalize_books h.books not_mem_nil hcount
  | gpu => exact gpuFinalize_books env h.books not_mem_nil hcount (hused .nv (by decide))
  | vi => exact viFinalize_books h.books not_mem_nil hcount
  | display =>
    exact displayFinalize_books h.books not_mem_nil not_mem_nil hcount
      (hused .vi (by decide)) (hused .gpu (by decide)) (hused .nv (by decide))
  | hid =>
    refine finalizeOnce_of_run (fun hone => absurd hone hserved) fun _ => ?_
    exact ⟨h.books.more hcount (by omega), .counted _ _ _⟩
  | hidIpc | am | audio | ro | nifm | time | bpc => exact absurd hm (by decide)

theorem Kept.held_perm (hs : Books [] s) (ht : Books [] t) (h : Kept s t fun _ => 0) :
    (held t.ledger).Perm (held s.ledger) := by
  have hholdings : t.holdings [] = s.holdings [] := by
    refine flatMap_congr fun m _ => ?_
    have hcount : t.count m = s.count m := by rw [h.count, Int.add_zero]
    by_cases hpos : 0 < s.count m
    · rw [share_of_pos not_mem_nil hpos, share_of_pos not_mem_nil (hcount ▸ hpos)]
      exact (h.agree m hpos).own_eq
    · have hzero : s.count m = 0 := by
        have := hs.count m
        omega
      rw [share_of_count hzero, share_of_count (hcount.trans hzero)]
  exact ht.owns.held.trans (hholdings ▸ hs.owns.held.symm)

theorem Released.closed_once {δ : Module → Int} (hs : Books [] s) (ht : Books [] t)
    (h : Released s t δ) (hδ : ∀ m, t.count m ≤ s.count m) (hpos : 0 < s.count m)
    (hzero : t.count m = 0) {a : Handle} (ha : a ∈ m.own s.vars) :
    t.ledger.count (.disposed a) = s.ledger.count (.disposed a) + 1 ∧ a ∉ held t.ledger := by
  have hperm := hs.owns.perm (holdings_perm s [] m)
  have hshare : s.share [] m = m.own s.vars := share_of_pos not_mem_nil hpos
  have hmem : a ∈ held s.ledger := by
    rw [hperm.mem_iff, hshare]
    exact mem_append_left _ ha
  have hgone : a ∉ held t.ledger := by
    intro hheld
    obtain ⟨m', -, hm'⟩ := mem_flatMap.1 (ht.owns.mem_iff.1 hheld)
    have hpos' : 0 < t.count m' := by
      by_contra hle
      rw [share_of_count (by have := ht.count m'; omega)] at hm'
      exact absurd hm' not_mem_nil
    have hne : m' ≠ m := by
      rintro rfl
      omega
    rw [share_of_pos not_mem_nil hpos', h.vars] at hm'
    refine disjoint_of_nodup_append hperm.nodup (hshare ▸ ha) ?_
    refine mem_flatMap.2 ⟨m', (mem_erase_of_ne hne).2 m'.mem_all, ?_⟩
    rw [share_of_pos not_mem_nil (by have := hδ m'; omega)]
    exact hm'
  refine ⟨?_, hgone⟩
  obtain ⟨xs, hxs⟩ := h.closed
  have hacquired : t.ledger.count (.acquired a) = s.ledger.count (.acquired a) := by
    have hnone : ((xs.map Event.disposed).reverse).count (.acquired a) = 0 :=
      count_eq_zero.2 (by simp)
    rw [hxs, count_append, hnone, Nat.zero_add]
  have hsbalance := hs.owns.proper.count_acquired a
  have htbalance := ht.owns.proper.count_acquired a
  have hone := count_eq_one_of_mem hs.owns.proper.nodup hmem
  have hnone := count_eq_zero.2 hgone
  omega

theorem opening_nonneg (s : State) (m m' : Module) : 0 ≤ m.opening s m' := by
  have hgpu := gpuShare_nonneg s m'
  have hvi := bump_nonneg .vi m'
  have hipc := bump_nonneg .hidIpc m'
  have hself := bump_nonneg m m'
  cases m <;> simp only [Module.opening] <;> omega

theorem opening_self (s : State) (m : Module) : m.opening s m = 1 := by
  cases m <;> simp [Module.opening, gpuShare, bump]

theorem closing_nonpos (s : State) (m m' : Module) : m.closing s m' ≤ 0 := by
  have hgpu := bump_nonneg .gpu m'
  have hnv := bump_nonneg .nv m'
  have hvi := bump_nonneg .vi m'
  have hself := bump_nonneg m m'
  cases m <;> simp only [Module.closing, bump_neg] <;> omega

theorem ServiceRun.Inv.of_shift {k : Int} {inits : Module → Nat} (h : r.Inv) (hbooks : Books [] t)
    (hshift : Shift m k r.state t) (hm : m ∈ Module.tracked)
    (hinits : ∀ m', (inits m' : Int) = r.inits m' + bump m k m') : ServiceRun.Inv ⟨t, inits⟩ := by
  refine ⟨hbooks, fun m' => ?_, fun m' hpos => ?_⟩
  · have := h.counts m'
    have := hshift m'
    have := hinits m'
    simp only
    omega
  · by_cases hm' : m' = m
    · rw [hm']
      exact hm
    · have hsame := hinits m'
      rw [bump_of_ne hm'] at hsame
      exact h.tracked m' (by simp only at hpos; omega)

section Init

variable {i : Init}

theorem resultOf_of_ok {x : ServiceM Unit} (h : x s = .ok () t) : resultOf x s = resultOk := by
  unfold resultOf
  rw [h]

theorem resultOf_of_error {x : ServiceM Unit} {e : ResultT} (h : x s = .error e t) :
    resultOf x s = e := by
  unfold resultOf
  rw [h]

theorem after_of_ok (hrun : i.run env r.state = .ok () t) : r.after (.init i env)
    = ⟨t, Function.update r.inits i.module (r.inits i.module + 1)⟩ := by
  show ServiceRun.mk (final (i.run env r.state)) (Function.update _ _ (_ + if _ then 1 else 0)) = _
  rw [resultOf_of_ok hrun, hrun]
  rfl

theorem after_of_error {e : ResultT} (hrun : i.run env r.state = .error e t) (he : e ≠ resultOk) :
    r.after (.init i env) = ⟨t, r.inits⟩ := by
  show ServiceRun.mk (final (i.run env r.state)) (Function.update _ _ (_ + if _ then 1 else 0)) = _
  rw [resultOf_of_error hrun, if_neg he, hrun, Nat.add_zero, update_eq_self]
  rfl

theorem init_ok (h : r.Inv) (hi : i.module ∈ Module.tracked) (hrun : i.run env r.state = .ok () t)
    (hbooks : Books [] t) (hkept : Kept r.state t (i.module.opening r.state)) :
    (r.after (.init i env)).Inv ∧ Honest r.state (.init i env) := by
  have hfinal : final (i.run env r.state) = t := by
    rw [hrun]
    rfl
  have hexec : (Call.init i env).exec r.state = t := hfinal
  have hafter : ServiceRun.Inv
      ⟨t, Function.update r.inits i.module (r.inits i.module + 1)⟩ := by
    refine h.of_shift hbooks (shift_opening hkept.count) hi fun m' => ?_
    by_cases hm' : m' = i.module
    · subst hm'
      rw [update_self, bump_self]
      rfl
    · rw [update_of_ne hm', bump_of_ne hm', Int.add_zero]
  have hcount : t.count i.module = r.state.count i.module + 1 := by
    rw [hkept.count, opening_self]
  have hresult := resultOf_of_ok hrun
  refine ⟨after_of_ok hrun ▸ hafter, ?_, ?_, ?_⟩
  · rintro _ _ ⟨⟩
    refine ⟨?_, fun hfailed => absurd hresult hfailed⟩
    rw [hfinal]
    refine iff_of_true hresult ⟨hcount, hafter.held ?_⟩
    show 0 < t.count i.module
    have := h.books.count i.module
    omega
  · rw [hexec]
    exact hbooks.owns
  · rw [hexec]
    intro m hpos hzero
    have := hkept.count m
    have := opening_nonneg r.state i.module m
    omega

theorem init_failed {e : ResultT} (h : r.Inv) (hrun : i.run env r.state = .error e t)
    (he : e ≠ resultOk) (hbooks : Books [] t) (hkept : Kept r.state t fun _ => 0) :
    (r.after (.init i env)).Inv ∧ Honest r.state (.init i env) := by
  have hfinal : final (i.run env r.state) = t := by
    rw [hrun]
    rfl
  have hexec : (Call.init i env).exec r.state = t := hfinal
  have hcount : t.count = r.state.count := by
    funext m
    rw [hkept.count, Int.add_zero]
  have hnested : t.nested = r.state.nested := by
    unfold State.nested
    rw [hcount]
  have hresult := resultOf_of_error hrun
  refine ⟨?_, ?_, ?_, ?_⟩
  · rw [after_of_error hrun he]
    refine ⟨hbooks, fun m => ?_, h.tracked⟩
    rw [hcount, hnested]
    exact h.counts m
  · rintro _ _ ⟨⟩
    refine ⟨?_, fun _ => ?_⟩
    · rw [hresult, hfinal, hcount]
      refine iff_of_false he fun hraised => ?_
      omega
    · rw [hfinal]
      exact ⟨hcount, hkept.held_perm h.books hbooks⟩
  · rw [hexec]
    exact hbooks.owns
  · rw [hexec, hcount]
    intro m hpos hzero
    omega

end Init

theorem finalize_step (h : r.Inv) (hpos : 0 < r.inits m)
    (hserved : (Call.finalize m env).Served r.state) :
    (r.after (.finalize m env)).Inv ∧ Honest r.state (.finalize m env) := by
  obtain ⟨t, hrun, hbooks, hreleased⟩ := finalize_released h hpos hserved
  have hexec : (Call.finalize m env).exec r.state = t := by
    show final (m.finalize env r.state) = t
    rw [hrun]
    rfl
  have hcount : 0 < r.state.count m := by
    have := h.counts m
    have := nested_nonneg r.state m
    omega
  have hhid : m = .hid → r.state.count .hid ≠ 1 := by
    rintro rfl
    exact hserved
  refine ⟨?_, ?_, ?_, ?_⟩
  · show ServiceRun.Inv ⟨(Call.finalize m env).exec r.state, Function.update r.inits m _⟩
    rw [hexec]
    refine h.of_shift hbooks (shift_closing hcount hhid hreleased.count)
      (h.tracked m hpos) fun m' => ?_
    by_cases hm' : m' = m
    · subst hm'
      rw [update_self, bump_self]
      omega
    · rw [update_of_ne hm', bump_of_ne hm', Int.add_zero]
  · rintro _ _ ⟨⟩
  · rw [hexec]
    exact hbooks.owns
  · rw [hexec]
    intro m' hpos' hzero a ha
    refine hreleased.closed_once h.books hbooks (fun m'' => ?_) hpos' hzero ha
    have := hreleased.count m''
    have := closing_nonpos r.state m m''
    omega

end Calls

/-! ## Runs -/

theorem start_inv : (ServiceRun.start config).Inv := by
  refine ⟨⟨?_, fun _ _ hpos => absurd hpos (Int.lt_irrefl 0), fun _ => Int.le_refl _, ?_⟩, ?_, ?_⟩
  · exact .nil
  · exact ⟨rfl, fun _ => rfl, fun _ => rfl⟩
  · intro m
    cases m <;> rfl
  · intro m hpos
    exact absurd hpos (Nat.lt_irrefl 0)

/-- The runs in which the defects do not show. -/
def servedSystem : System ServiceRun Call :=
  (serviceSystem config).restrict fun r call _ => call.Served r.state

/-- **Init counts and handles are honest** in every run whose calls are served. -/
theorem services_honest (config : LoaderConfig) {r : ServiceRun}
    (h : (servedSystem config).Reachable r) {call : Call} (hpermits : r.Permits call)
    (hserved : call.Served r.state) : Honest r.state call := by
  have hstep {r : ServiceRun} (h : r.Inv) {call : Call} (hpermits : r.Permits call)
      (hserved : call.Served r.state) : (r.after call).Inv ∧ Honest r.state call := by
    cases call with
    | init i env =>
      have hends := init_books h hpermits hserved
      unfold Initialises at hends
      cases hrun : i.run env r.state with
      | ok a t =>
        rw [hrun] at hends
        exact init_ok h hpermits hrun hends.1 hends.2
      | error e t =>
        rw [hrun] at hends
        exact init_failed h hrun hends.1 hends.2.1 hends.2.2
    | finalize m env => exact finalize_step h hpermits hserved
  have hinv : r.Inv := by
    refine h.invariant ?_ ?_
    · rintro r rfl
      exact start_inv config
    · rintro r call r' hr ⟨⟨hpermits, rfl⟩, hserved⟩
      exact (hstep hr hpermits hserved).1
  exact (hstep hinv hpermits hserved).2

/-- A run in which `display` is initialised, and finalised again. -/
theorem displayFinalize_honest :
    0 < ((ServiceRun.start .zero).after (.init .display .obliging)).inits .display ∧
      Honest ((ServiceRun.start .zero).after (.init .display .obliging)).state
        (.finalize .display .obliging) := by
  have hopens : Env.obliging.OpensDevices := fun _ _ _ => Int.le_refl 0
  have htracked : Module.display ∈ Module.tracked := by decide
  have hone : 0 < ((ServiceRun.start .zero).after (.init .display .obliging)).inits .display := by
    decide +kernel
  refine ⟨hone, services_honest .zero ?_ hone trivial⟩
  exact .step (.init .display .obliging) (.init rfl) ⟨⟨htracked, rfl⟩, fun _ _ => hopens⟩

/-- `svcQueryMemory` fails. -/
def Env.noBlock : Env := { Env.obliging with emptyBlock := fun _ => 0 }

/-- The driver answers with a device file of `-1` and no error. -/
def Env.noDevice : Env := { Env.obliging with
  send := fun request _ =>
    (resultOk, fun n => if request = .nvOpen ∧ n = 0 then BitVec.allOnes 32 else 0) }

/-- The last `hid_finalize` leaves a handle open, and two initialisations return `RESULT_OK` without
having initialised anything. -/
theorem services_not_honest :
    (∃ r, (serviceSystem .zero).Reachable r ∧ r.Permits (.finalize .hid .obliging) ∧
      ¬ Honest r.state (.finalize .hid .obliging)) ∧
    ¬ Honest (State.initial .zero) (.init .hid .noBlock) ∧
    ¬ Honest (State.initial .zero) (.init .gpu .noDevice) := by
  have htracked : Module.hid ∈ Module.tracked := by decide
  refine ⟨⟨(ServiceRun.start .zero).after (.init .hid .obliging), ?_, ?_, fun h => ?_⟩,
    fun h => ?_, fun h => ?_⟩
  · exact .step (.init .hid .obliging) (.init rfl) ⟨htracked, rfl⟩
  · show 0 < ((ServiceRun.start .zero).after (.init .hid .obliging)).inits .hid
    decide +kernel
  · -- the handle of the shared memory
    have hclosed := h.closed .hid (by decide +kernel) (by decide +kernel) 4 (by decide +kernel)
    exact absurd hclosed.1 (by decide +kernel)
  · have hok := (h.init .hid .noBlock rfl).ok_iff.1 (by decide +kernel)
    exact absurd hok.1 (by decide +kernel)
  · have hok := (h.init .gpu .noDevice rfl).ok_iff.1 (by decide +kernel)
    exact absurd hok.1 (by decide +kernel)

end LibTransistor.Service
