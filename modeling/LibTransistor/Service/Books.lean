import LibTransistor.Service.SmBalance

/-!
# Books of the service modules

The books are in order (`Books`) if the handles that the process holds are those of the modules that
are initialised, each of which has everything that it needs. `busy` are the modules whose
initialisation is under way: they count as initialised already, but what they have is not in the
books yet.

Every change is about one module (`Books.of_change`): the shares of the other modules stay as they
are. Initialisations end with one more on the count of the module and of those that it uses, or with
nothing changed (`nvInit_books` and so on); finalisations take it back.
-/

namespace LibTransistor.Service

open Fallible Ledger List

variable {δ δ' : Module → Int} {m' : Module}

variable {env : Env} {s t u : State} {m : Module} {busy busy' : List Module}

/-! ## Variables of a module -/

/-- The variables of `m` are the same. -/
structure Vars.Agree (m : Module) (w w' : Vars) : Prop where
  object : ∀ v, v.module = m → w'.object v = w.object v
  handle : ∀ v, v.module = m → w'.handle v = w.handle v
  gpu : m = .gpu → w'.devices.nvasFd = w.devices.nvasFd ∧ w'.devices.nvmapFd = w.devices.nvmapFd
  hid : m = .hid → w'.devices.sharedMemory = w.devices.sharedMemory

namespace Vars.Agree

variable {w w' w'' : Vars}

theorem refl (m : Module) (w : Vars) : Agree m w w :=
  ⟨fun _ _ => rfl, fun _ _ => rfl, fun _ => ⟨rfl, rfl⟩, fun _ => rfl⟩

theorem trans (h : Agree m w w') (h' : Agree m w' w'') : Agree m w w'' where
  object v hv := (h'.object v hv).trans (h.object v hv)
  handle v hv := (h'.handle v hv).trans (h.handle v hv)
  gpu hm := ⟨(h'.gpu hm).1.trans (h.gpu hm).1, (h'.gpu hm).2.trans (h.gpu hm).2⟩
  hid hm := (h'.hid hm).trans (h.hid hm)

theorem own_eq (h : Agree m w w') : m.own w' = m.own w := by
  have hobject := h.object
  have hhandle := h.handle
  cases m <;> simp (disch := decide) only [Module.own, bsdMemory, hobject, hhandle]

theorem complete_iff (h : Agree m w w') : m.Complete w' ↔ m.Complete w := by
  have hobject := h.object
  have hhandle := h.handle
  have hgpu := h.gpu
  have hhid := h.hid
  cases m with
  | vi | am =>
    simp (disch := decide) only [Module.Complete, Module.objects, hhandle, forall_mem_cons,
      not_mem_nil, false_imp_iff, hobject]
  | gpu => simp only [Module.Complete, (hgpu rfl).1, (hgpu rfl).2]
  | hid => simp (disch := decide) only [Module.Complete, hhandle, hhid]
  | _ => simp (disch := decide) only [Module.Complete, hobject, hhandle]

theorem of_accounts (haccounts : t.accounts = s.accounts)
    (hgpu : m = .gpu → t.devices.nvasFd = s.devices.nvasFd ∧ t.devices.nvmapFd = s.devices.nvmapFd)
    (hhid : m = .hid → t.devices.sharedMemory = s.devices.sharedMemory) :
    Agree m s.vars t.vars := by
  simp only [State.accounts, Prod.mk.injEq] at haccounts
  obtain ⟨-, -, hobject, hhandle, -, -⟩ := haccounts
  exact ⟨fun v _ => congrFun hobject v, fun v _ => congrFun hhandle v, hgpu, hhid⟩

end Vars.Agree

theorem ObjectVar.module_of_mem {v : ObjectVar} (hv : v ∈ m.objects) : v.module = m := by
  cases m <;> cases v <;> simp_all [Module.objects, ObjectVar.module]

theorem HandleVar.module_of_mem {v : HandleVar} {config : LoaderConfig}
    (hv : v ∈ m.writes config) : v.module = m := by
  cases m with
  | bsd | nv =>
    rw [mem_singleton.1 hv]
    rfl
  | vi | am =>
    simp only [Module.writes] at hv
    split at hv
    · exact absurd hv not_mem_nil
    · rw [mem_singleton.1 hv]
      rfl
  | _ => exact absurd hv not_mem_nil

/-! ## Shares -/

/-- All modules. -/
def Module.all : List Module :=
  [.sm, .bsd, .nv, .gpu, .vi, .display, .hid, .hidIpc, .am, .audio, .ro, .nifm, .time, .bpc]

theorem Module.mem_all (m : Module) : m ∈ all := by
  cases m <;> decide

/-- The handles of `m` that are in the books. -/
def State.share (s : State) (busy : List Module) (m : Module) : List Handle :=
  if m ∉ busy ∧ 0 < s.count m then m.own s.vars else []

/-- The handles of all modules. -/
def State.holdings (s : State) (busy : List Module) : List Handle :=
  Module.all.flatMap (s.share busy)

theorem share_of_count (h : s.count m = 0) : s.share busy m = [] :=
  if_neg fun hpos => by omega

theorem share_of_busy (h : m ∈ busy) : s.share busy m = [] := if_neg fun hfree => hfree.1 h

theorem share_of_pos (hm : m ∉ busy) (h : 0 < s.count m) : s.share busy m = m.own s.vars :=
  if_pos ⟨hm, h⟩

theorem holdings_perm (s : State) (busy : List Module) (m : Module) :
    (s.holdings busy).Perm (s.share busy m ++ (Module.all.erase m).flatMap (s.share busy)) :=
  (perm_cons_erase (Module.mem_all m)).flatMap_right _

/-- What is said of other modules when one of them changes. -/
structure Others (m : Module) (busy busy' : List Module) (s t : State) : Prop where
  count : ∀ m' ≠ m, t.count m' = s.count m'
  mem : ∀ m' ≠ m, (m' ∈ busy' ↔ m' ∈ busy)
  agree : ∀ m' ≠ m, m' ∉ busy → 0 < s.count m' → Vars.Agree m' s.vars t.vars

theorem Others.share_eq (h : Others m busy busy' s t) (hm : m' ≠ m) :
    t.share busy' m' = s.share busy m' := by
  have hcount := h.count m' hm
  have hmem := h.mem m' hm
  by_cases hin : m' ∉ busy ∧ 0 < s.count m'
  · rw [share_of_pos hin.1 hin.2, share_of_pos (fun hb => hin.1 (hmem.1 hb)) (hcount ▸ hin.2)]
    exact (h.agree m' hm hin.1 hin.2).own_eq
  · unfold State.share
    rw [if_neg hin, if_neg fun hin' => hin ⟨fun hb => hin'.1 (hmem.2 hb), hcount ▸ hin'.2⟩]

/-! ## Books -/

/-- The handles that are held are those of the modules that are initialised, and these are
complete. -/
structure Books (busy : List Module) (s : State) : Prop where
  owns : Owns s.ledger (s.holdings busy)
  complete : ∀ m ∉ busy, 0 < s.count m → m.Complete s.vars
  count : ∀ m, 0 ≤ s.count m
  clean : Clean s

theorem Books.count_eq_zero (h : Books busy s) (hle : s.count m ≤ 0) : s.count m = 0 :=
  Int.le_antisymm hle (h.count m)

/-- The step of every initialisation and finalisation: only the share of `m` has to be accounted
for. -/
theorem Books.of_change (h : Books busy s) (hothers : Others m busy busy' s t)
    (hcount : 0 ≤ t.count m) (hcomplete : m ∉ busy' → 0 < t.count m → m.Complete t.vars)
    (hclean : Clean t) (howns : ∀ rest, Owns s.ledger (s.share busy m ++ rest) →
      Owns t.ledger (t.share busy' m ++ rest)) : Books busy' t := by
  refine ⟨?_, ?_, ?_, hclean⟩
  · have hrest : (Module.all.erase m).flatMap (t.share busy')
        = (Module.all.erase m).flatMap (s.share busy) := by
      refine flatMap_congr fun m' hm' => hothers.share_eq ?_
      rintro rfl
      exact absurd hm' (by cases m' <;> decide)
    have hs := h.owns.perm (holdings_perm s busy m)
    refine (howns _ hs).perm ?_
    rw [← hrest]
    exact (holdings_perm t busy' m).symm
  · intro m' hm' hpos
    by_cases heq : m' = m
    · subst heq
      exact hcomplete hm' hpos
    · rw [hothers.mem m' heq] at hm'
      rw [hothers.count m' heq] at hpos
      exact (hothers.agree m' heq hm' hpos).complete_iff.2 (h.complete m' hm' hpos)
  · intro m'
    by_cases heq : m' = m
    · subst heq
      exact hcount
    · rw [hothers.count m' heq]
      exact h.count m'

theorem Books.of_same (h : Books busy s) (hsame : Same [] [] s t) (hledger : t.ledger = s.ledger) :
    Books busy t := by
  have hholdings : t.holdings busy = s.holdings busy := by
    unfold State.holdings State.share
    rw [hsame.count, hsame.vars_eq]
  refine ⟨?_, ?_, ?_, ?_⟩
  · rw [hledger, hholdings]
    exact h.owns
  · rw [hsame.count, hsame.vars_eq]
    exact h.complete
  · rw [hsame.count]
    exact h.count
  · exact h.clean.unchanged hsame

/-! ## Counts -/

/-- `k` for one module. -/
def bump (m : Module) (k : Int) (m' : Module) : Int := if m' = m then k else 0

theorem bump_self (m : Module) (k : Int) : bump m k m = k := if_pos rfl

theorem bump_of_ne (h : m' ≠ m) (k : Int) : bump m k m' = 0 := if_neg h

theorem bump_neg (m m' : Module) : bump m (-1) m' = -bump m 1 m' := by
  unfold bump
  split <;> rfl

theorem counted_count (s : State) (m : Module) (k : Int) (m' : Module) :
    (s.counted m k).count m' = s.count m' + bump m k m' := by
  by_cases h : m' = m
  · subst h
    rw [bump_self]
    exact State.counted_self
  · rw [bump_of_ne h, Int.add_zero]
    exact Function.update_of_ne h _ _

/-- The counts move by `δ`, and the modules that were initialised keep their variables. -/
structure Kept (s t : State) (δ : Module → Int) : Prop where
  count : ∀ m, t.count m = s.count m + δ m
  agree : ∀ m, 0 < s.count m → Vars.Agree m s.vars t.vars

/-- A module is counted, and is not in the books before and after. -/
theorem Books.counted (h : Books busy s) {k : Int} (hmem : ∀ m' ≠ m, (m' ∈ busy' ↔ m' ∈ busy))
    (hcount : 0 ≤ s.count m + k) (hs : s.share busy m = [])
    (ht : (s.counted m k).share busy' m = [])
    (hcomplete : m ∉ busy' → 0 < s.count m + k → m.Complete s.vars) :
    Books busy' (s.counted m k) := by
  refine h.of_change ⟨?_, hmem, fun m' _ _ _ => .refl m' _⟩ ?_ ?_ ?_ ?_
  · intro m' hm'
    rw [counted_count, bump_of_ne hm', Int.add_zero]
  · rw [State.counted_self]
    exact hcount
  · intro hm hpos
    rw [State.counted_self] at hpos
    exact hcomplete hm hpos
  · exact h.clean.of_same rfl rfl rfl
  · intro rest
    rw [hs, ht]
    exact id

theorem Books.more (h : Books busy s) {k : Int} (hpos : 0 < s.count m) (hpos' : 0 < s.count m + k) :
    Books busy (s.counted m k) := by
  refine h.of_change (m := m) ⟨?_, fun _ _ => Iff.rfl, fun m' _ _ _ => .refl m' _⟩ ?_ ?_ ?_ ?_
  · intro m' hm'
    rw [counted_count, bump_of_ne hm', Int.add_zero]
  · rw [State.counted_self]
    omega
  · intro hm _
    exact h.complete m hm hpos
  · exact h.clean.of_same rfl rfl rfl
  · intro rest hs
    have hshare : (s.counted m k).share busy m = s.share busy m := by
      by_cases hm : m ∈ busy
      · rw [share_of_busy hm, share_of_busy hm]
      · rw [share_of_pos hm hpos, share_of_pos hm (State.counted_self ▸ hpos')]
        rfl
    rw [hshare]
    exact hs

namespace Kept

theorem congr (h : Kept s t δ) (hδ : ∀ m, δ' m = δ m) : Kept s t δ' :=
  ⟨fun m => by rw [hδ, h.count], h.agree⟩

theorem trans (h : Kept s t δ) (hcount : ∀ m, u.count m = t.count m + δ' m)
    (hagree : ∀ m, 0 < s.count m → Vars.Agree m t.vars u.vars) : Kept s u fun m => δ m + δ' m := by
  refine ⟨fun m => ?_, fun m hpos => (h.agree m hpos).trans (hagree m hpos)⟩
  rw [hcount, h.count, Int.add_assoc]

theorem of_agree (h : Kept s t δ) (hcount : u.count = t.count)
    (hagree : ∀ m, 0 < s.count m → Vars.Agree m t.vars u.vars) : Kept s u δ :=
  ⟨fun m => (congrFun hcount m).trans (h.count m), fun m hpos => (h.agree m hpos).trans (hagree m hpos)⟩

theorem of_same (h : Kept s t δ) (hsame : Same [] [] t u) : Kept s u δ := by
  refine h.of_agree hsame.count fun m _ => ?_
  rw [hsame.vars_eq]
  exact .refl m _

theorem followed (h : Kept s t δ) (hδ : ∀ m, 0 ≤ δ m) (h' : Kept t u δ') :
    Kept s u fun m => δ m + δ' m := by
  refine h.trans h'.count fun m hpos => h'.agree m ?_
  have := h.count m
  have := hδ m
  omega

theorem failed (h : Kept s t δ) (hδ : ∀ m, 0 ≤ δ m) (h' : Kept t u fun _ => 0) : Kept s u δ :=
  (h.followed hδ h').congr fun _ => (Int.add_zero _).symm

end Kept

theorem bump_nonneg (m m' : Module) : 0 ≤ bump m 1 m' := by
  unfold bump
  split <;> omega

theorem Kept.counted (s : State) (m : Module) (k : Int) : Kept s (s.counted m k) (bump m k) :=
  ⟨counted_count s m k, fun m' _ => .refl m' _⟩

/-- A failure: the books are in order, and the counts have moved by `δ` since `s`. -/
def Failed (busy : List Module) (s : State) (δ : Module → Int) (r : ResultT) (t : State) : Prop :=
  r ≠ resultOk ∧ Books busy t ∧ Kept s t δ

/-- An initialisation that moves the counts by `δ`, or fails and leaves them. -/
def Initialises (busy : List Module) (δ : Module → Int) (x : ServiceM Unit) (s : State) : Prop :=
  Ends (x s) (fun _ t => Books busy t ∧ Kept s t δ) (Failed busy s fun _ => 0)

variable {x : ServiceM Unit}

/-- One initialisation calls another. -/
theorem Initialises.bind {k : Unit → ServiceM Unit} {Q : Unit → State → Prop}
    (hx : Initialises busy δ' x t) (hkept : Kept s t δ) (hδ : ∀ m, 0 ≤ δ m)
    (hk : ∀ u, Books busy u → Kept s u (fun m => δ m + δ' m) → Ends (k () u) Q (Failed busy s δ)) :
    Ends ((call x >>= k) t) Q (Failed busy s δ) := by
  refine Ends.bind (call_ends (hx.imp (fun _ _ hq => hq) ?_)) ?_
  · rintro r u ⟨hr, hbooks, hkept'⟩
    exact ⟨hr, hbooks, hkept.failed hδ hkept'⟩
  · rintro ⟨⟩ u ⟨hbooks, hkept'⟩
    exact hk u hbooks (hkept.followed hδ hkept')

/-! ## Modules that hold handles -/

theorem Around.agree {config : LoaderConfig} (h : Around m.objects (m.writes config) s t)
    (hm : m' ≠ m) (hpos : 0 < s.count m') : Vars.Agree m' s.vars t.vars where
  object v hv := by
    by_cases hsm : v = .sm
    · subst hsm
      subst hv
      exact h.sm hpos
    · refine h.object v (fun hmem => hm ?_) hsm
      rw [← hv, ObjectVar.module_of_mem hmem]
  handle v hv := by
    refine h.handle v fun hmem => hm ?_
    rw [← hv, HandleVar.module_of_mem hmem]
  gpu _ := by
    have hdevices : t.vars.devices = s.vars.devices := h.devices
    rw [hdevices]
    exact ⟨rfl, rfl⟩
  hid _ := by
    have hdevices : t.vars.devices = s.vars.devices := h.devices
    rw [hdevices]

/-- The initialisations that hold handles of their own. -/
theorem service_ends {body : ServiceM Unit} (h : Books busy s) (hm : m ≠ .sm) (hfree : m ∉ busy)
    (hbody : ∀ s, Clean s → m.Opens body s) :
    Initialises busy (bump m 1) (initOnce m (withSm env body)) s := by
  have hclean : Clean (s.counted m 1) := h.clean.of_same rfl rfl rfl
  have hsm : 0 ≤ (s.counted m 1).count .sm := by
    rw [counted_sm hm]
    exact h.count .sm
  refine initOnce_ends ?_ ?_ fun r t ht => ht
  · intro hpos
    exact ⟨h.more hpos (by omega), .counted s m 1⟩
  intro hle
  have hzero := h.count_eq_zero hle
  have hagree {t : State} (haround : Around m.objects (m.writes s.config) (s.counted m 1) t)
      {m' : Module} (hm' : m' ≠ m) (hpos : 0 < s.count m') : Vars.Agree m' s.vars t.vars := by
    refine haround.agree hm' ?_
    rw [counted_count, bump_of_ne hm', Int.add_zero]
    exact hpos
  have hne {m' : Module} (hpos : 0 < s.count m') : m' ≠ m := by
    rintro rfl
    omega
  -- of all modules, only `m` can change: the count of `sm` is back when the body ends
  refine (withSm_opens hclean hsm hm hbody).imp ?_ ?_
  · rintro _ t ⟨haround, hcomplete, hs, new, huse, howns⟩
    have hcount (m' : Module) : t.count m' = s.count m' + bump m 1 m' := by
      rw [haround.count, counted_count]
    refine ⟨h.of_change ⟨?_, fun _ _ => Iff.rfl, fun m' hm' _ => hagree haround hm'⟩
      ?_ (fun _ _ => hcomplete) ?_ ?_, hcount, fun m' hpos => hagree haround (hne hpos) hpos⟩
    · intro m' hm'
      rw [hcount, bump_of_ne hm', Int.add_zero]
    · rw [hcount, bump_self]
      omega
    · exact hclean.of_writes m haround.config haround.borrowed haround.handle
    · intro rest hrest
      rw [share_of_count hzero] at hrest
      rw [share_of_pos hfree (by rw [hcount, bump_self]; omega)]
      exact huse.owns howns hrest
  · rintro r t ⟨hr, haround, hs, new, huse, howns⟩
    have hcount (m' : Module) : (t.counted m (-1)).count m' = s.count m' + 0 := by
      have hback : (t.counted m (-1)).count = s.count := State.counted_back haround.count
      rw [hback, Int.add_zero]
    refine ⟨hr, h.of_change ⟨?_, fun _ _ => Iff.rfl, fun m' hm' _ => hagree haround hm'⟩
      ?_ ?_ ?_ ?_, hcount, fun m' hpos => hagree haround (hne hpos) hpos⟩
    · intro m' _
      rw [hcount, Int.add_zero]
    · rw [hcount]
      omega
    · intro _ hpos
      rw [hcount] at hpos
      omega
    · exact hclean.of_writes m haround.config haround.borrowed haround.handle
    · intro rest hrest
      rw [share_of_count hzero] at hrest
      rw [share_of_count (by rw [hcount]; omega)]
      exact huse.owns howns hrest

theorem Vars.Agree.of_sm (hsm : m' = .sm → t.object .sm = s.object .sm)
    (hobject : ∀ v ≠ .sm, t.object v = s.object v) (hhandle : t.handle = s.handle)
    (hdevices : t.devices = s.devices) : Vars.Agree m' s.vars t.vars where
  object v hv := by
    by_cases h : v = .sm
    · subst h
      exact hsm hv.symm
    · exact hobject v h
  handle v _ := congrFun hhandle v
  gpu _ := ⟨congrArg Devices.nvasFd hdevices, congrArg Devices.nvmapFd hdevices⟩
  hid _ := congrArg Devices.sharedMemory hdevices

/-- The session of `sm` that a successful `sm_init` opens, if it is the first. -/
theorem SmOpened.books {hs : List Handle} (hopened : SmOpened s t hs) (h : Books busy s)
    (hfree : .sm ∉ busy) : Books busy t ∧ Kept s t (bump .sm 1) := by
  have hnonneg := h.count .sm
  have hcount (m' : Module) : t.count m' = s.count m' + bump .sm 1 m' := by
    rw [hopened.count, counted_count]
  have hone : t.count .sm = s.count .sm + 1 := hcount .sm
  have hothers (m' : Module) (hm' : m' ≠ .sm) : Vars.Agree m' s.vars t.vars :=
    .of_sm (fun h => absurd h hm') hopened.object hopened.handle hopened.devices
  have hclean : Clean t := h.clean.of_same hopened.config hopened.borrowed hopened.handle
  have hkept (m' : Module) (hpos : 0 < s.count m') : Vars.Agree m' s.vars t.vars := by
    refine .of_sm ?_ hopened.object hopened.handle hopened.devices
    rintro rfl
    rcases hopened.sessions with ⟨-, -, hobject⟩ | ⟨hle, -⟩
    · exact hobject
    · omega
  refine ⟨h.of_change ⟨?_, fun _ _ => Iff.rfl, fun m' hm' _ _ => hothers m' hm'⟩ ?_ ?_
    hclean ?_, hcount, hkept⟩
  · intro m' hm'
    rw [hcount, bump_of_ne hm', Int.add_zero]
  · omega
  · intro _ _
    rcases hopened.sessions with ⟨-, hpos, -⟩ | ⟨-, a, -, hzero, -, hobject⟩
    · exact (hkept .sm hpos).complete_iff.2 (h.complete .sm hfree hpos)
    · show (t.object .sm).IsSession
      rw [hobject]
      exact ⟨rfl, fun _ => hzero⟩
  · intro rest hrest
    rw [hopened.ledger, share_of_pos hfree (by omega)]
    rcases hopened.sessions with ⟨rfl, hpos, -⟩ | ⟨hle, a, rfl, hzero, hfresh, hobject⟩
    · rw [share_of_pos hfree hpos] at hrest
      rw [(hkept .sm hpos).own_eq]
      exact hrest
    · rw [share_of_count (by omega)] at hrest
      have hown : Module.sm.own t.vars = [a] := by
        show (t.object .sm).owned = [a]
        rw [hobject, h.clean.borrowed]
        exact owned_session hzero
      rw [hown]
      exact hrest.acquire fun hmem => hfresh (hrest.mem_iff.2 hmem)

theorem smInit_books (h : Books busy s) (hfree : .sm ∉ busy) :
    Initialises busy (bump .sm 1) (smInit env) s := by
  refine (smInit_ends env s).imp ?_ ?_
  · rintro _ t ⟨hs, hopened⟩
    exact hopened.books h hfree
  · rintro r t ⟨hr, hsame, hle, hborrowed, hledger⟩
    have hzero := h.count_eq_zero hle
    have hothers (m' : Module) (hm' : m' ≠ .sm) : Vars.Agree m' s.vars t.vars :=
      .of_sm (fun h => absurd h hm') (fun v hv => hsame.object v (by simpa using hv))
        hsame.handle_eq hsame.devices
    refine ⟨hr, h.of_change ⟨fun m' _ => congrFun hsame.count m', fun _ _ => Iff.rfl,
      fun m' hm' _ _ => hothers m' hm'⟩ ?_ ?_ ?_ ?_, ?_, ?_⟩
    · rw [hsame.count]
      exact h.count .sm
    · intro _ hpos
      rw [hsame.count] at hpos
      omega
    · exact h.clean.of_same hsame.config hborrowed hsame.handle_eq
    · intro rest hrest
      rw [share_of_count hzero] at hrest
      rw [hledger, share_of_count ((congrFun hsame.count .sm).trans hzero)]
      exact hrest
    · intro m'
      rw [hsame.count, Int.add_zero]
    · intro m' hpos
      refine hothers m' ?_
      rintro rfl
      omega

/-! ## Finalisation -/

/-- What finalisations do: the counts move by `δ`, and handles are closed. -/
structure Released (s t : State) (δ : Module → Int) : Prop where
  count : ∀ m, t.count m = s.count m + δ m
  vars : t.vars = s.vars
  closed : ∃ xs : List Handle, t.ledger = (xs.map Event.disposed).reverse ++ s.ledger

/-- A finalisation that moves the counts by `δ`. -/
def Finalises (busy : List Module) (δ : Module → Int) (x : ServiceM Unit) (s : State) : Prop :=
  ∃ t, x s = .ok () t ∧ Books busy t ∧ Released s t δ

theorem Released.trans (h : Released s t δ) (h' : Released t u δ') :
    Released s u fun m => δ m + δ' m := by
  obtain ⟨xs, hxs⟩ := h.closed
  obtain ⟨ys, hys⟩ := h'.closed
  refine ⟨fun m => ?_, h'.vars.trans h.vars, xs ++ ys, ?_⟩
  · rw [h'.count, h.count, Int.add_assoc]
  · rw [hys, hxs, map_append, reverse_append, append_assoc]

theorem Kept.released (h : Kept s t δ) (h' : Released t u δ') : Kept s u fun m => δ m + δ' m := by
  refine h.trans h'.count fun m _ => ?_
  rw [h'.vars]
  exact .refl m _

theorem Released.of_same (hsame : Same [] [] s t) (hledger : t.ledger = s.ledger) :
    Released s t fun _ => 0 := by
  refine ⟨fun m => ?_, hsame.vars_eq, [], hledger⟩
  rw [hsame.count, Int.add_zero]

theorem Released.counted (s : State) (m : Module) (k : Int) :
    Released s (s.counted m k) (bump m k) := ⟨counted_count s m k, rfl, [], rfl⟩

/-- **A finalisation of a module that holds handles.** -/
theorem finalize_books (hx : Closes x m.own) (h : Books busy s) (hfree : m ∉ busy)
    (hpos : 0 < s.count m) : Finalises busy (bump m (-1)) (finalizeOnce m x) s := by
  obtain ⟨t, hrun, hsame, hledger⟩ := finalizeOnce_run hx m s
  have hcount (m' : Module) : t.count m' = s.count m' + bump m (-1) m' := by
    rw [hsame.count, counted_count]
  have hvars : t.vars = s.vars := hsame.vars_eq
  refine ⟨t, hrun, ?_, hcount, hvars, _, hledger⟩
  refine h.of_change (m := m) ⟨?_, fun _ _ => Iff.rfl, ?_⟩ ?_ ?_ ?_ ?_
  · intro m' hm'
    rw [hcount, bump_of_ne hm', Int.add_zero]
  · intro m' _ _ _
    rw [hvars]
    exact .refl m' _
  · rw [hcount, bump_self]
    omega
  · intro hm _
    rw [hvars]
    exact h.complete m hm hpos
  · exact Clean.unchanged (s := s.counted m (-1)) (h.clean.of_same rfl rfl rfl) hsame
  · intro rest hrest
    rw [share_of_pos hfree hpos] at hrest
    rw [hledger]
    by_cases hone : s.count m = 1
    · rw [if_pos hone, share_of_count (by rw [hcount, bump_self]; omega)]
      exact hrest.disposeAll (.refl _)
    · rw [if_neg hone, share_of_pos hfree (by rw [hcount, bump_self]; omega), hvars]
      exact hrest

theorem finalize_takes_back {r : ResultT} (hx : Closes x m.own)
    (h : Books busy s) (hfree : m ∉ busy') (hδ : ∀ m', 0 ≤ δ m')
    (ht : Failed busy' s (fun m' => δ m' + bump m 1 m') r t) :
    Failed busy' s δ r (final (finalizeOnce m x t)) := by
  obtain ⟨hr, hbooks, hkept⟩ := ht
  have hpos : 0 < t.count m := by
    have := h.count m
    have := hδ m
    rw [hkept.count, bump_self]
    omega
  obtain ⟨u, hrun, hu, hreleased⟩ := finalize_books hx hbooks hfree hpos
  rw [hrun]
  refine ⟨hr, hu, (hkept.released hreleased).congr fun m' => ?_⟩
  rw [bump_neg]
  omega

/-! ## Modules that use others -/

/-- **An initialisation that calls others.** While the body runs, the module is not in the books. -/
theorem composite_ends {body : ServiceM Unit} (h : Books busy s)
    (hbody : s.count m = 0 → ∀ u, Books (m :: busy) u → Kept s u (bump m 1) →
      Ends (body u) (fun _ t => Books busy t ∧ Kept s t fun m' => bump m 1 m' + δ m')
        (Failed (m :: busy) s (bump m 1))) :
    Initialises busy (fun m' => bump m 1 m' + if s.count m = 0 then δ m' else 0)
      (initOnce m body) s := by
  have hmem : ∀ m' ≠ m, (m' ∈ m :: busy ↔ m' ∈ busy) := fun m' hm' => by simp [hm']
  refine initOnce_ends (F := fun r t => r ≠ resultOk ∧ s.count m = 0 ∧ Books (m :: busy) t ∧
    Kept s t (bump m 1)) ?_ ?_ ?_
  · intro hpos
    refine ⟨h.more hpos (by omega), (Kept.counted s m 1).congr fun m' => ?_⟩
    rw [if_neg (by omega), Int.add_zero]
  · intro hle
    have hzero := h.count_eq_zero hle
    have hentered : Books (m :: busy) (s.counted m 1) :=
      h.counted hmem (by omega) (share_of_count hzero) (share_of_busy mem_cons_self)
        fun hm => absurd mem_cons_self hm
    refine (hbody hzero _ hentered (.counted s m 1)).imp ?_ ?_
    · rintro _ t ⟨hbooks, hkept⟩
      exact ⟨hbooks, hkept.congr fun m' => by rw [if_pos hzero]⟩
    · rintro r t ⟨hr, hbooks, hkept⟩
      exact ⟨hr, hzero, hbooks, hkept⟩
  · rintro r t ⟨hr, hzero, hbooks, hkept⟩
    have hone : t.count m = 1 := by
      rw [hkept.count, bump_self, hzero]
      rfl
    refine ⟨hr, ?_, ?_⟩
    · refine hbooks.counted (fun m' hm' => (hmem m' hm').symm) (by omega)
        (share_of_busy mem_cons_self) (share_of_count ?_) fun _ hpos => absurd hpos (by omega)
      rw [State.counted_self]
      omega
    · refine (hkept.trans (counted_count t m (-1)) fun m' _ => .refl m' _).congr fun m' => ?_
      rw [bump_neg]
      omega

theorem Released.congr (h : Released s t δ) (hδ : ∀ m, δ' m = δ m) :
    Released s t δ' := ⟨fun m => by rw [hδ, h.count], h.vars, h.closed⟩

/-- A finalisation of a module that holds no handles, which calls others if it is the last one. -/
theorem composite_finalize (h : Books busy s) (hown : ∀ w, m.own w = []) (hpos : 0 < s.count m)
    (hδ : δ m = 0) (hx : Books busy (s.counted m (-1)) → Finalises busy δ x (s.counted m (-1))) :
    Finalises busy (fun m' => bump m (-1) m' + if s.count m = 1 then δ m' else 0)
      (finalizeOnce m x) s := by
  refine finalizeOnce_of_run ?_ ?_
  · intro hone
    have hnone (t : State) : t.share busy m = [] := by
      unfold State.share
      rw [hown, ite_self]
    obtain ⟨t, hrun, hbooks, hreleased⟩ := hx (h.counted (fun _ _ => Iff.rfl) (by omega) (hnone _)
      (hnone _) fun _ hpos => absurd hpos (by omega))
    refine ⟨t, hrun, ?_, hbooks, ((Released.counted s m (-1)).trans hreleased).congr fun m' => ?_⟩
    · rw [hreleased.count, State.counted_self, hδ, hone]
      rfl
    · rw [if_pos hone]
  · intro hmore
    refine ⟨h.more hpos (by omega), (Released.counted s m (-1)).congr fun m' => ?_⟩
    rw [if_neg hmore, Int.add_zero]

/-- A module without handles of its own enters the books once it is complete. -/
theorem Books.settle (h : Books (m :: busy) s) (hcomplete : m.Complete s.vars)
    (hown : m.own s.vars = []) : Books busy s := by
  have hnone : s.share busy m = [] := by
    unfold State.share
    rw [hown, ite_self]
  refine h.of_change ⟨fun _ _ => rfl, fun m' hm' => by simp [hm'], fun m' _ _ _ => .refl m' _⟩
    (h.count m) (fun _ _ => hcomplete) h.clean ?_
  intro rest hrest
  rw [hnone]
  rw [share_of_busy mem_cons_self] at hrest
  exact hrest

theorem Books.of_devices (h : Books busy s) (hm : m ∈ busy) (haccounts : t.accounts = s.accounts)
    (hagree : ∀ m' ≠ m, Vars.Agree m' s.vars t.vars) : Books busy t := by
  simp only [State.accounts, Prod.mk.injEq] at haccounts
  obtain ⟨hconfig, hcount, hobject, hhandle, -, hledger⟩ := haccounts
  refine h.of_change ⟨fun m' _ => congrFun hcount m', fun _ _ => Iff.rfl,
    fun m' hm' _ _ => hagree m' hm'⟩ ?_ (fun hfree => absurd hm hfree) ?_ ?_
  · rw [hcount]
    exact h.count m
  · exact h.clean.of_same hconfig (congrArg _ (congrFun hobject .sm)) hhandle
  · intro rest hrest
    rw [share_of_busy hm] at hrest ⊢
    rw [hledger]
    exact hrest

/-! ## `gpu` -/

/-- The driver gives out no negative device file. -/
def Env.OpensDevices (env : Env) : Prop :=
  ∀ n, (env.send .nvOpen n).1 = resultOk → (env.send .nvOpen n).2 1 = 0 →
    0 ≤ ((env.send .nvOpen n).2 0).toInt

theorem ipcSend_ends (env : Env) (request : Request) (o : ServiceObject) (s : State) :
    Ends (ipcSend env request o s) (fun reply _ => ∃ n, env.send request n = (resultOk, reply))
      (fun r _ => r ≠ resultOk) := by
  refine .failIf_bind (fun _ => by decide) fun _ => ?_
  refine .failIf_bind (fun hr => hr) fun hr => ?_
  exact ⟨s.clock, Prod.ext (not_not.1 hr) rfl⟩

theorem tryIpcSend_run (env : Env) (request : Request) (o : ServiceObject) (s : State) :
    ∃ answer t, tryIpcSend env request o s = .ok answer t ∧
      (∀ r, answer = .error r → r ≠ resultOk) ∧
      ∀ reply, answer = .ok reply → ∃ n, env.send request n = (resultOk, reply) := by
  have hsend := ipcSend_ends env request o s
  unfold tryIpcSend
  cases hrun : ipcSend env request o s with
  | error r t =>
    rw [hrun] at hsend
    refine ⟨.error r, t, rfl, fun r' hr' => ?_, fun _ hok => (by cases hok)⟩
    cases hr'
    exact hsend
  | ok reply t =>
    rw [hrun] at hsend
    refine ⟨.ok reply, t, rfl, fun _ hr => (by cases hr), fun reply' hok => ?_⟩
    cases hok
    exact hsend

theorem nvOpen_ends (hfds : env.OpensDevices) (s : State) :
    Ends (nvOpen env s) (fun fd t => fd.toInt < 0 → t.nvResult ≠ resultOk) (fun _ _ => False) := by
  obtain ⟨answer, t, htry, herror, hok⟩ := tryIpcSend_run env .nvOpen (s.object .nv) s
  unfold nvOpen
  rw [get_bind_run, bind_of_ok htry]
  cases answer with
  | error r => exact fun _ => herror r rfl
  | ok reply =>
    obtain ⟨n, hn⟩ := hok reply rfl
    show Ends ((if reply 1 ≠ 0 then _ else pure (reply 0) : ServiceM (BitVec 32)) t) _ _
    by_cases hstatus : reply 1 = 0
    · have hfd := hfds n
      rw [hn] at hfd
      have hnonneg : 0 ≤ (reply 0).toInt := hfd rfl hstatus
      rw [if_neg (not_not_intro hstatus)]
      exact fun hneg => absurd hneg (by omega)
    · have hfailed : Err.nvOpenFailed ≠ resultOk := by decide
      rw [if_pos hstatus]
      exact fun _ => hfailed

/-- What is stored of a device file that could not be opened is negative, so `gpu` fails. -/
theorem gpuOpen_ends {store : BitVec 32 → Devices → Devices} (hfds : env.OpensDevices) (s : State) :
    Ends (gpuOpen env store s)
      (fun _ t => t.accounts = s.accounts ∧ ∃ fd, 0 ≤ fd.toInt ∧ t.devices = store fd s.devices)
      (fun r t => r ≠ resultOk ∧ t.accounts = s.accounts ∧
        ∃ fd, t.devices = store fd s.devices) := by
  have hopen := nvOpen_ends hfds s
  have hquiet := (quiet_nvOpen : Quiet (nvOpen env)) s
  unfold gpuOpen
  cases hrun : nvOpen env s with
  | error r t =>
    rw [hrun] at hopen
    exact hopen.elim
  | ok fd t =>
    rw [hrun] at hopen hquiet
    obtain ⟨haccounts, hdevices⟩ := Prod.mk.inj hquiet
    have hstore : store fd t.devices = store fd s.devices := congrArg (store fd) hdevices
    rw [bind_of_ok hrun, modify_bind_run, get_bind_run]
    by_cases hfd : fd.toInt < 0
    · rw [failIf_of hfd]
      exact ⟨hopen hfd, haccounts, fd, hstore⟩
    · rw [failIf_of_not hfd]
      exact ⟨haccounts, fd, by omega, hstore⟩

theorem nvClose_run (env : Env) (fd : Devices → BitVec 32) (s : State) :
    ∃ t, nvClose env fd s = .ok () t ∧ Same [] [] s t ∧ t.ledger = s.ledger := by
  obtain ⟨answer, t, htry, -⟩ := tryIpcSend_run env (.nvClose (fd s.devices)) (s.object .nv) s
  have hrun : ∃ u, nvClose env fd s = .ok () u := by
    unfold nvClose
    rw [get_bind_run, bind_of_ok htry]
    cases answer <;> exact ⟨_, rfl⟩
  obtain ⟨u, hu⟩ := hrun
  have hquiet := (quiet_nvClose : Quiet (nvClose env fd)).same s
  rw [hu] at hquiet
  exact ⟨u, hu, hquiet⟩

theorem nvInit_books (h : Books busy s) (hfree : .nv ∉ busy) :
    Initialises busy (bump .nv 1) (nvInit env) s :=
  service_ends h (by decide) hfree fun s _ => nvBody_opens s

theorem nvFinalize_books (h : Books busy s) (hfree : .nv ∉ busy) (hpos : 0 < s.count .nv) :
    Finalises busy (bump .nv (-1)) nvFinalize s :=
  finalize_books closes_nv h hfree hpos

/-- What `gpu` adds to the counts. -/
def gpuShare (s : State) (m : Module) : Int :=
  bump .gpu 1 m + if s.count .gpu = 0 then bump .nv 1 m else 0

theorem gpuShare_nonneg (s : State) (m : Module) : 0 ≤ gpuShare s m := by
  have := bump_nonneg .gpu m
  have := bump_nonneg .nv m
  unfold gpuShare
  split <;> omega

theorem gpuInitialize_books (h : Books busy s) (hnv : .nv ∉ busy)
    (hfds : s.count .gpu = 0 → env.OpensDevices) :
    Initialises busy (gpuShare s) (gpuInitialize env) s := by
  refine composite_ends h fun hzero u hu hkept => ?_
  have hfds := hfds hzero
  have hnv' : .nv ∉ Module.gpu :: busy := by simpa using hnv
  refine (nvInit_books hu hnv').bind hkept (bump_nonneg _) fun t hbooks hkept' => ?_
  -- a device file is stored
  have hstored {v w : State} {δ : Module → Int} (hv : Books (.gpu :: busy) v ∧ Kept s v δ)
      (haccounts : w.accounts = v.accounts)
      (hshared : w.devices.sharedMemory = v.devices.sharedMemory) :
      Books (.gpu :: busy) w ∧ Kept s w δ := by
    have hagree (m : Module) (hm : m ≠ .gpu) : Vars.Agree m v.vars w.vars :=
      .of_accounts haccounts (fun hgpu => absurd hgpu hm) fun _ => hshared
    refine ⟨hv.1.of_devices mem_cons_self haccounts hagree, ?_⟩
    refine hv.2.of_agree (Prod.mk.inj (Prod.mk.inj haccounts).2).1 fun m hpos => hagree m ?_
    rintro rfl
    omega
  refine Ends.onFail ?_ fun r v => finalize_takes_back closes_nv h hnv' (bump_nonneg _)
  have ht := And.intro hbooks hkept'
  refine Ends.bind ((gpuOpen_ends hfds t).imp (fun _ _ hq => hq) ?_) ?_
  · rintro r v ⟨hr, haccounts, fd, hdevices⟩
    exact ⟨hr, hstored ht haccounts (by rw [hdevices])⟩
  rintro ⟨⟩ v ⟨haccounts, fd, hfd, hdevices⟩
  have hv := hstored ht haccounts (by rw [hdevices])
  refine Ends.onFail ((gpuOpen_ends hfds v).imp ?_ fun _ _ he => he) ?_
  · rintro _ w ⟨haccounts', fd', hfd', hdevices'⟩
    have hw := hstored hv haccounts' (by rw [hdevices'])
    refine ⟨hw.1.settle ⟨?_, ?_⟩ rfl, hw.2⟩
    · show 0 ≤ w.devices.nvasFd.toInt
      rw [hdevices', hdevices]
      exact hfd
    · show 0 ≤ w.devices.nvmapFd.toInt
      rw [hdevices']
      exact hfd'
  · rintro r w ⟨hr, haccounts', fd', hdevices'⟩
    have hw := hstored hv haccounts' (by rw [hdevices'])
    obtain ⟨x, hrun, hsame, hledger⟩ := nvClose_run env Devices.nvasFd w
    rw [hrun]
    exact ⟨hr, hw.1.of_same hsame hledger, hw.2.of_same hsame⟩

theorem gpuFinalize_books (env : Env) (h : Books busy s) (hnv : .nv ∉ busy)
    (hpos : 0 < s.count .gpu) (hused : 0 < s.count .nv) :
    Finalises busy (fun m => bump .gpu (-1) m + if s.count .gpu = 1 then bump .nv (-1) m else 0)
      (gpuFinalize env) s := by
  refine composite_finalize h (fun _ => rfl) hpos rfl fun hgpu => ?_
  obtain ⟨t, hrun, hsame, hledger⟩ := nvClose_run env Devices.nvmapFd (s.counted .gpu (-1))
  obtain ⟨u, hrun', hsame', hledger'⟩ := nvClose_run env Devices.nvasFd t
  have hpos' : 0 < u.count .nv := by
    rw [hsame'.count, hsame.count, counted_count, bump_of_ne (by decide)]
    omega
  obtain ⟨v, hrun'', hbooks, hreleased⟩ :=
    nvFinalize_books ((hgpu.of_same hsame hledger).of_same hsame' hledger') hnv hpos'
  refine ⟨v, ?_, hbooks, ((Released.of_same hsame hledger).trans
    ((Released.of_same hsame' hledger').trans hreleased)).congr fun m => ?_⟩
  · rw [bind_of_ok hrun, bind_of_ok hrun']
    exact hrun''
  · omega

/-! ## `display` -/

theorem viInit_books (h : Books busy s) (hfree : .vi ∉ busy) :
    Initialises busy (bump .vi 1) (viInit env) s :=
  service_ends h (by decide) hfree fun _ hs => viBody_opens hs.vi

theorem viFinalize_books (h : Books busy s) (hfree : .vi ∉ busy) (hpos : 0 < s.count .vi) :
    Finalises busy (bump .vi (-1)) viFinalize s :=
  finalize_books closes_vi h hfree hpos

theorem viOpenDisplay_ends (env : Env) (s : State) :
    Ends (viOpenDisplay env s) (fun _ t => Same [] [] s t ∧ t.ledger = s.ledger)
      (fun r t => r ≠ resultOk ∧ Same [] [] s t ∧ t.ledger = s.ledger) := by
  have hsend := ipcSend_ends env .other (s.object .iads) s
  have hquiet := (quiet_ipcSend env .other (s.object .iads)).same s
  unfold viOpenDisplay
  rw [get_bind_run, discard_eq_bind]
  cases hrun : ipcSend env .other (s.object .iads) s with
  | ok reply t =>
    rw [hrun] at hquiet
    rw [bind_of_ok hrun]
    exact hquiet
  | error r t =>
    rw [hrun] at hsend hquiet
    rw [bind_of_error hrun]
    exact ⟨hsend, hquiet⟩

theorem viCloseDisplay_run (env : Env) (s : State) :
    ∃ t, viCloseDisplay env s = .ok () t ∧ Same [] [] s t ∧ t.ledger = s.ledger := by
  obtain ⟨answer, t, htry, -⟩ := tryIpcSend_run env .other (s.object .imds) s
  have hquiet := (quiet_tryIpcSend env .other (s.object .imds)).same s
  rw [htry] at hquiet
  refine ⟨t, ?_, hquiet⟩
  unfold viCloseDisplay
  rw [get_bind_run, discard_eq_bind, bind_of_ok htry]
  rfl

/-- `display_init` initialises `gpu` and `vi` too, if it is the first. -/
theorem displayInit_books (h : Books busy s) (hnv : .nv ∉ busy) (hvi : .vi ∉ busy)
    (hfds : s.count .display = 0 → s.count .gpu = 0 → env.OpensDevices)
    (hused : 0 < s.count .gpu → 0 < s.count .nv) :
    Initialises busy (fun m => bump .display 1 m +
      if s.count .display = 0 then gpuShare s m + bump .vi 1 m else 0) (displayInit env) s := by
  refine composite_ends h fun hzero u hu hkept => ?_
  have hnv' : .nv ∉ Module.display :: busy := by simpa using hnv
  have hvi' : .vi ∉ Module.display :: busy := by simpa using hvi
  have hgpu : u.count .gpu = s.count .gpu := by
    rw [hkept.count, bump_of_ne (by decide), Int.add_zero]
  have hgpuInit : Initialises (.display :: busy) (gpuShare s) (gpuInitialize env) u := by
    have hinit := gpuInitialize_books hu hnv' fun hfirst => hfds hzero (hgpu ▸ hfirst)
    unfold gpuShare at hinit ⊢
    rwa [hgpu] at hinit
  refine hgpuInit.bind hkept (bump_nonneg _) fun t hbooks ht => ?_
  have hnonneg (m : Module) : 0 ≤ bump .display 1 m + gpuShare s m :=
    Int.add_nonneg (bump_nonneg _ m) (gpuShare_nonneg s m)
  -- the states in which `gpu_finalize` is called if something fails
  have hundo (r : ResultT) (v : State)
      (hv : Failed (.display :: busy) s (fun m => bump .display 1 m + gpuShare s m) r v) :
      Failed (.display :: busy) s (bump .display 1) r (final (gpuFinalize env v)) := by
    obtain ⟨hr, hbooks, hkept⟩ := hv
    have hcountgpu := hkept.count .gpu
    have hcountnv := hkept.count .nv
    have hgpu := h.count .gpu
    have hnv := h.count .nv
    simp only [gpuShare, bump, reduceCtorEq, if_true, if_false] at hcountgpu hcountnv
    obtain ⟨w, hrun, hbooks', hreleased⟩ := gpuFinalize_books env hbooks hnv' (by
      split at hcountgpu <;> omega) (by split at hcountnv <;> omega)
    rw [hrun]
    refine ⟨hr, hbooks', (hkept.released hreleased).congr fun m => ?_⟩
    simp only [gpuShare, bump_neg]
    split <;> omega
  refine Ends.onFail ?_ hundo
  refine (viInit_books hbooks hvi').bind ht hnonneg fun v hbooks' hv => ?_
  refine Ends.onFail ((viOpenDisplay_ends env v).imp ?_ fun _ _ he => he) ?_
  · rintro _ w ⟨hsame, hledger⟩
    refine ⟨(hbooks'.of_same hsame hledger).settle trivial rfl, ?_⟩
    exact (hv.of_same hsame).congr fun m => (Int.add_assoc ..).symm
  · rintro r w ⟨hr, hsame, hledger⟩
    exact finalize_takes_back closes_vi h hvi' hnonneg
      ⟨hr, hbooks'.of_same hsame hledger, hv.of_same hsame⟩

theorem displayFinalize_books (h : Books busy s) (hnv : .nv ∉ busy) (hvi : .vi ∉ busy)
    (hpos : 0 < s.count .display) (hviUsed : 0 < s.count .vi) (hgpuUsed : 0 < s.count .gpu)
    (hnvUsed : 0 < s.count .nv) :
    Finalises busy (fun m => bump .display (-1) m + if s.count .display = 1 then bump .vi (-1) m +
      (bump .gpu (-1) m + if s.count .gpu = 1 then bump .nv (-1) m else 0) else 0)
      (displayFinalize env) s := by
  refine composite_finalize h (fun _ => rfl) hpos (by simp [bump]) fun hdisplay => ?_
  obtain ⟨t, hrun, hsame, hledger⟩ := viCloseDisplay_run env (s.counted .display (-1))
  have hcount (m : Module) : t.count m = s.count m + bump .display (-1) m := by
    rw [hsame.count, counted_count]
  have hcountVi : t.count .vi = s.count .vi := by simp [hcount, bump]
  obtain ⟨u, hrun', hu, hreleased⟩ :=
    viFinalize_books (hdisplay.of_same hsame hledger) hvi (by omega)
  have hcountGpu : u.count .gpu = s.count .gpu := by simp [hreleased.count, hcount, bump]
  have hcountNv : u.count .nv = s.count .nv := by simp [hreleased.count, hcount, bump]
  obtain ⟨v, hrun'', hbooks, hreleased'⟩ := gpuFinalize_books env hu hnv (by omega) (by omega)
  refine ⟨v, ?_, hbooks,
    ((Released.of_same hsame hledger).trans (hreleased.trans hreleased')).congr fun m => ?_⟩
  · rw [bind_of_ok hrun, bind_of_ok hrun']
    exact hrun''
  · rw [hcountGpu]
    omega

/-! ## `hid` -/

theorem hidIpcInit_books (h : Books busy s) (hfree : .hidIpc ∉ busy) :
    Initialises busy (bump .hidIpc 1) (hidIpcInit env) s :=
  service_ends h (by decide) hfree fun s _ => hidIpcBody_opens s

/-- `t` differs from `s` only in what belongs to `hid`. -/
structure HidOnly (s t : State) : Prop where
  config : t.config = s.config
  count : t.count = s.count
  object : t.object = s.object
  handle : ∀ v ≠ .sharedMemory, t.handle v = s.handle v
  nvasFd : t.devices.nvasFd = s.devices.nvasFd
  nvmapFd : t.devices.nvmapFd = s.devices.nvmapFd

namespace HidOnly

theorem of_same (h : Same [] [.sharedMemory] s t) : HidOnly s t where
  config := h.config
  count := h.count
  object := funext fun v => h.object v not_mem_nil
  handle v hv := h.handle v (by simpa using hv)
  nvasFd := congrArg Devices.nvasFd h.devices
  nvmapFd := congrArg Devices.nvmapFd h.devices

theorem trans (h : HidOnly s t) (h' : HidOnly t u) : HidOnly s u where
  config := h'.config.trans h.config
  count := h'.count.trans h.count
  object := h'.object.trans h.object
  handle v hv := (h'.handle v hv).trans (h.handle v hv)
  nvasFd := h'.nvasFd.trans h.nvasFd
  nvmapFd := h'.nvmapFd.trans h.nvmapFd

theorem agree (h : HidOnly s t) (hm : m ≠ .hid) : Vars.Agree m s.vars t.vars where
  object v _ := congrFun h.object v
  handle v hv := by
    refine h.handle v ?_
    rintro rfl
    exact hm hv.symm
  gpu _ := ⟨h.nvasFd, h.nvmapFd⟩
  hid hhid := absurd hhid hm

theorem clean (h : HidOnly s t) (hs : Clean s) : Clean t where
  borrowed := (congrArg _ (congrFun h.object .sm)).trans hs.borrowed
  vi hname := (h.handle .viDomain (by decide)).trans (hs.vi (h.config ▸ hname))
  am hname := (h.handle .amDomain (by decide)).trans (hs.am (h.config ▸ hname))

theorem books (h : HidOnly s t) (hs : Books (.hid :: busy) s)
    (hmem : ∀ m' ≠ .hid, (m' ∈ busy' ↔ m' ∈ busy))
    (hcomplete : .hid ∉ busy' → Module.hid.Complete t.vars)
    (howns : OwnsSince s.ledger t.ledger (t.share busy' .hid)) : Books busy' t := by
  refine hs.of_change ⟨fun m' _ => congrFun h.count m', ?_,
    fun m' hm' _ _ => h.agree hm'⟩ ?_ (fun hfree _ => hcomplete hfree) (h.clean hs.clean) ?_
  · intro m' hm'
    rw [hmem m' hm']
    simp [hm']
  · rw [h.count]
    exact hs.count .hid
  · intro rest hrest
    exact howns.owns hrest

end HidOnly

/-- `find_empty_memory_block` finds a block. -/
def Env.FindsBlocks (env : Env) : Prop := ∀ n, env.emptyBlock n ≠ 0

theorem hidMap_ends (hblocks : env.FindsBlocks) (s : State) :
    Ends (hidMap env s)
      (fun _ t => HidOnly s t ∧ t.handle = s.handle ∧ t.ledger = s.ledger ∧
        t.devices.sharedMemory ≠ 0)
      (fun r t => r ≠ resultOk ∧ HidOnly s t ∧ t.handle = s.handle ∧ t.ledger = s.ledger) := by
  refine .failIf_bind (fun hnull => absurd hnull (hblocks _)) fun _ => ?_
  rw [tick_bind_run]
  by_cases hr : env.map (s.clock + 1) = resultOk
  · rw [failIf_of_not (not_not_intro hr)]
    exact ⟨⟨rfl, rfl, rfl, fun _ _ => rfl, rfl, rfl⟩, rfl, rfl, hblocks _⟩
  · rw [failIf_of hr]
    exact ⟨hr, ⟨rfl, rfl, rfl, fun _ _ => rfl, rfl, rfl⟩, rfl, rfl⟩

theorem hidInit_books (h : Books busy s) (hfree : .hid ∉ busy) (hipc : .hidIpc ∉ busy)
    (hblocks : s.count .hid = 0 → env.FindsBlocks) :
    Initialises busy (fun m => bump .hid 1 m +
      if s.count .hid = 0 then bump .hidIpc 1 m else 0) (hidInit env) s := by
  refine composite_ends h fun hzero u hu hkept => ?_
  have hblocks := hblocks hzero
  have hipc' : .hidIpc ∉ Module.hid :: busy := by simpa using hipc
  refine (hidIpcInit_books hu hipc').bind hkept (bump_nonneg _) fun t hbooks ht => ?_
  have hcount : 0 < t.count .hid := by
    rw [ht.count, hzero, bump_self, bump_of_ne (by decide)]
    decide
  -- the states in which `hid_ipc_finalize` is called if something fails
  have hundo (r : ResultT) (v : State) (hv : r ≠ resultOk ∧ HidOnly t v ∧
      OwnsSince t.ledger v.ledger []) :
      Failed (.hid :: busy) s (bump .hid 1) r (final (hidIpcFinalize v)) := by
    obtain ⟨hr, honly, howns⟩ := hv
    have hkept : Kept s v fun m => bump .hid 1 m + bump .hidIpc 1 m := by
      refine ht.of_agree honly.count fun m hpos => honly.agree ?_
      rintro rfl
      omega
    refine finalize_takes_back closes_hidIpc h hipc' (bump_nonneg _) ⟨hr, ?_, hkept⟩
    exact honly.books hbooks (fun m' hm' => by simp [hm']) (fun hm => absurd mem_cons_self hm) howns
  refine Ends.onFail ?_ hundo
  refine Ends.bind ((hidIpcGetSharedMemoryHandle_acquires t t.ledger [] (.refl _)).imp
    (fun _ _ hq => hq) ?_) ?_
  · rintro r v ⟨hr, hsame, howns⟩
    exact ⟨hr, .of_same hsame, howns⟩
  rintro ⟨⟩ v ⟨hsame, hhandle, howns⟩
  rw [append_nil] at howns
  refine Ends.onFail ((hidMap_ends hblocks v).imp ?_ fun _ _ he => he) ?_
  · rintro _ w ⟨honly, hhandles, hledger, hblock⟩
    have hall := (HidOnly.of_same hsame).trans honly
    have hown : Module.hid.own w.vars = Module.hid.own v.vars := congrArg handles (congrFun hhandles _)
    have hpos : 0 < w.count .hid := by
      rw [hall.count]
      exact hcount
    refine ⟨hall.books hbooks (fun _ _ => Iff.rfl) (fun _ => ⟨?_, hblock⟩) ?_, ?_⟩
    · show w.handle .sharedMemory ≠ 0
      rw [hhandles]
      exact hhandle
    · rw [share_of_pos hfree hpos, hown, hledger]
      exact howns
    · refine ht.of_agree hall.count fun m hpos => hall.agree ?_
      rintro rfl
      omega
  · rintro r w ⟨hr, honly, hhandles, hledger⟩
    have hheld : OwnsSince t.ledger w.ledger (handles (w.handle .sharedMemory) ++ []) := by
      rw [append_nil, hledger, hhandles]
      exact howns
    obtain ⟨hsame', howns'⟩ := (closes_var .sharedMemory).owns hheld (.refl _)
    exact ⟨hr, ((HidOnly.of_same hsame).trans honly).trans (.of_same hsame'.of_nil), howns'⟩

end LibTransistor.Service
