import LibTransistor.Service.Model

/-!
# What the service modules acquire and give back

* `Acquires` — a function that succeeds has acquired the handles in its variables, on top of
  whatever is held already, and one that fails has acquired nothing.
* `Closes` — a function that gives back the handles in its variables.
* `Acquires.stairs` — one step of a staircase of labels: an acquisition, the rest, and behind the
  label for the rest what gives the acquisition back.
-/

namespace LibTransistor.Service

open Fallible Ledger List Function

variable {base : List (Event Handle)} {xs : List Handle} {r : ResultT} {v : ObjectVar}

/-! ## What is in the variables -/

/-- The variables that resources are kept in. -/
structure Vars where
  object : ObjectVar → ServiceObject
  handle : HandleVar → Handle
  devices : Devices

def State.vars (s : State) : Vars := ⟨s.object, s.handle, s.devices⟩

/-- The handle that is closed with `h`, if it is one. -/
def handles (h : Handle) : List Handle := if h = 0 then [] else [h]

/-- The handle that is closed with an object. -/
def ServiceObject.owned (o : ServiceObject) : List Handle :=
  if o.isBorrowed || o.inDomain then [] else handles o.session

/-- `t` differs from `s` in some of the variables that handles are kept in, and in what is not about
handles. -/
structure Same (vs : List ObjectVar) (hs : List HandleVar) (s t : State) : Prop where
  config : t.config = s.config
  count : t.count = s.count
  object : ∀ v ∉ vs, t.object v = s.object v
  handle : ∀ v ∉ hs, t.handle v = s.handle v
  devices : t.devices = s.devices
  ports : t.ports = s.ports

namespace Same

variable {vs vs' : List ObjectVar} {hs hs' : List HandleVar} {s t u : State}

theorem refl (s : State) : Same vs hs s s := ⟨rfl, rfl, fun _ _ => rfl, fun _ _ => rfl, rfl, rfl⟩

theorem trans (h : Same vs hs s t) (h' : Same vs hs t u) : Same vs hs s u where
  config := h'.config.trans h.config
  count := h'.count.trans h.count
  object v hv := (h'.object v hv).trans (h.object v hv)
  handle v hv := (h'.handle v hv).trans (h.handle v hv)
  devices := h'.devices.trans h.devices
  ports := h'.ports.trans h.ports

theorem mono (h : Same vs hs s t) (hvs : vs ⊆ vs') (hhs : hs ⊆ hs') : Same vs' hs' s t where
  config := h.config
  count := h.count
  object v hv := h.object v fun hmem => hv (hvs hmem)
  handle v hv := h.handle v fun hmem => hv (hhs hmem)
  devices := h.devices
  ports := h.ports

theorem of_nil (h : Same [] [] s t) : Same vs hs s t :=
  h.mono (nil_subset _) (nil_subset _)

theorem handle_eq (h : Same vs [] s t) : t.handle = s.handle :=
  funext fun v => h.handle v not_mem_nil

theorem vars_eq (h : Same [] [] s t) : t.vars = s.vars := by
  have hobject : t.object = s.object := funext fun v => h.object v not_mem_nil
  unfold State.vars
  rw [hobject, h.handle_eq, h.devices]

end Same

/-! ## Giving back -/

/-- `x` gives back the handles of `own`, and changes no variable. -/
def Closes (x : ServiceM Unit) (own : Vars → List Handle) : Prop :=
  ∀ s, ∃ t, x s = .ok () t ∧ Same [] [] s t ∧
    t.ledger = ((own s.vars).map Event.disposed).reverse ++ s.ledger

theorem Closes.bind {x y : ServiceM Unit} {own own' : Vars → List Handle} (hx : Closes x own)
    (hy : Closes y own') : Closes (x >>= fun _ => y) fun w => own w ++ own' w := by
  intro s
  obtain ⟨t, hrun, hsame, hledger⟩ := hx s
  obtain ⟨u, hrun', hsame', hledger'⟩ := hy t
  refine ⟨u, (bind_of_ok hrun).trans hrun', hsame.trans hsame', ?_⟩
  rw [hledger', hledger, hsame.vars_eq, map_append, reverse_append, append_assoc]

theorem Closes.owns {x : ServiceM Unit} {own : Vars → List Handle} (hx : Closes x own) {s : State}
    {ys : List Handle} (h : OwnsSince base s.ledger xs) (hp : xs.Perm (own s.vars ++ ys)) :
    Same [] [] s (final (x s)) ∧ OwnsSince base (final (x s)).ledger ys := by
  obtain ⟨t, hrun, hsame, hledger⟩ := hx s
  rw [hrun]
  refine ⟨hsame, ?_⟩
  show OwnsSince base t.ledger ys
  rw [hledger]
  exact h.disposeAll hp

theorem closes_svcCloseHandle (h : Handle) : Closes (svcCloseHandle h) fun _ => handles h := by
  intro s
  refine ⟨_, rfl, ⟨rfl, rfl, fun _ _ => rfl, fun _ _ => rfl, rfl, rfl⟩, ?_⟩
  unfold handles
  split <;> rfl

theorem closes_var (v : HandleVar) : Closes (closeVar v) fun w => handles (w.handle v) := fun s => closes_svcCloseHandle (s.handle v) s

theorem closes_ipcClose (v : ObjectVar) : Closes (ipcClose v) fun w => (w.object v).owned := by
  intro s
  show ∃ t, ipcClose v s = .ok () t ∧ Same [] [] s t ∧
    t.ledger = (((s.object v).owned).map Event.disposed).reverse ++ s.ledger
  unfold ipcClose ServiceObject.owned
  rw [get_bind_run]
  cases (s.object v).isBorrowed with
  | true => exact ⟨s, rfl, .refl s, rfl⟩
  | false =>
    cases (s.object v).inDomain with
    | true => exact ⟨_, rfl, ⟨rfl, rfl, fun _ _ => rfl, fun _ _ => rfl, rfl, rfl⟩, rfl⟩
    | false => exact closes_svcCloseHandle _ s

/-! ## Acquiring -/

/-- `x` acquires the handles of `own` on top of those that are owned, and its variables satisfy `Q`.
If it fails, it does not return `RESULT_OK`, and it has acquired nothing. -/
def Acquires {α : Type} (vs : List ObjectVar) (hs : List HandleVar) (x : ServiceM α)
    (Q : α → Vars → Prop) (own : α → Vars → List Handle) (s : State) : Prop :=
  ∀ base xs, OwnsSince base s.ledger xs → Ends (x s)
    (fun a t => Same vs hs s t ∧ Q a t.vars ∧ OwnsSince base t.ledger (own a t.vars ++ xs))
    (fun r t => r ≠ resultOk ∧ Same vs hs s t ∧ OwnsSince base t.ledger xs)

/-- The handles that are acquired if the result is `RESULT_OK`. -/
def ifOk (own : Vars → List Handle) (r : ResultT) (w : Vars) : List Handle :=
  if r = resultOk then own w else []

theorem ifOk_of_ne {own : Vars → List Handle} {w : Vars} (hr : r ≠ resultOk) :
    ifOk own r w = [] := if_neg hr

namespace Acquires

variable {α β : Type} {vs vs' : List ObjectVar} {hs hs' : List HandleVar} {x : ServiceM α}
  {Q Q' : α → Vars → Prop} {own own' : α → Vars → List Handle} {s : State}

theorem imp (h : Acquires vs hs x Q own s) (hQ : ∀ a w, Q a w → Q' a w)
    (hown : ∀ a w, Q a w → (own a w).Perm (own' a w)) : Acquires vs hs x Q' own' s := by
  intro base xs hbase
  refine (h base xs hbase).imp ?_ fun _ _ he => he
  rintro a t ⟨hsame, hq, howns⟩
  exact ⟨hsame, hQ a t.vars hq, howns.perm ((hown a t.vars hq).append_right xs)⟩

theorem weaken (h : Acquires vs hs x Q own s) (hQ : ∀ a w, Q a w → Q' a w) :
    Acquires vs hs x Q' own s := h.imp hQ fun _ _ _ => .refl _

theorem mono (h : Acquires vs hs x Q own s) (hvs : vs ⊆ vs') (hhs : hs ⊆ hs') :
    Acquires vs' hs' x Q own s := by
  intro base xs hbase
  refine (h base xs hbase).imp ?_ ?_
  · rintro a t ⟨hsame, hq, howns⟩
    exact ⟨hsame.mono hvs hhs, hq, howns⟩
  · rintro r t ⟨hr, hsame, howns⟩
    exact ⟨hr, hsame.mono hvs hhs, howns⟩

theorem pure {a : α} (hq : Q a s.vars) (hown : own a s.vars = []) :
    Acquires vs hs (pure a) Q own s := by
  intro base xs hbase
  show Same vs hs s s ∧ Q a s.vars ∧ OwnsSince base s.ledger (own a s.vars ++ xs)
  rw [hown]
  exact ⟨.refl s, hq, hbase⟩

theorem throw (hr : r ≠ resultOk) : Acquires vs hs (throw r) Q own s :=
  fun _ _ hbase => ⟨hr, .refl s, hbase⟩

/-- What is acquired from a state `s` has come to, as seen from `s`. -/
theorem after {t : State} {base} (h : Acquires vs hs x Q own t)
    (hsame : Same vs hs s t) (howns : OwnsSince base t.ledger xs) :
    Ends (x t)
      (fun a u => Same vs hs s u ∧ Q a u.vars ∧ OwnsSince base u.ledger (own a u.vars ++ xs))
      (fun r u => r ≠ resultOk ∧ Same vs hs s u ∧ OwnsSince base u.ledger xs) :=
  (h base xs howns).imp (fun _ _ hq => ⟨hsame.trans hq.1, hq.2⟩)
    fun _ _ he => ⟨he.1, hsame.trans he.2.1, he.2.2⟩

theorem bind {f : α → ServiceM β} {R : β → Vars → Prop} {ownR : β → Vars → List Handle}
    (h : Acquires vs hs x Q (fun _ _ => []) s)
    (hf : ∀ a t, Same vs hs s t → Q a t.vars → Acquires vs hs (f a) R ownR t) :
    Acquires vs hs (x >>= f) R ownR s := by
  intro base xs hbase
  refine (h base xs hbase).bind ?_
  rintro a t ⟨hsame, hq, howns⟩
  exact (hf a t hsame hq).after hsame howns

theorem failIf_bind {c : Prop} [Decidable c] {f : Unit → ServiceM α} (hr : c → r ≠ resultOk)
    (hf : ¬ c → Acquires vs hs (f ()) Q own s) : Acquires vs hs (failIf c r >>= f) Q own s :=
  fun base xs hbase => .failIf_bind (fun hc => ⟨hr hc, .refl s, hbase⟩) fun hc => hf hc base xs hbase

theorem of_ite {c : Prop} [Decidable c] {y : ServiceM α} (hx : Acquires vs hs x Q own s)
    (hy : Acquires vs hs y Q own s) : Acquires vs hs (if c then x else y) Q own s := by
  split
  · exact hx
  · exact hy

theorem of_step {y : ServiceM α} {t : State} (hrun : x s = y t) (hsame : Same vs hs s t)
    (hledger : t.ledger = s.ledger) (h : Acquires vs hs y Q own t) : Acquires vs hs x Q own s := by
  intro base xs hbase
  rw [hrun]
  exact h.after hsame (hledger ▸ hbase)

theorem attempt {x : ServiceM Unit} {Q : Unit → Vars → Prop} {own : Vars → List Handle}
    (h : Acquires vs hs x Q (fun _ => own) s) :
    Acquires vs hs (attempt x) (fun r w => r = resultOk → Q () w) (ifOk own) s := by
  intro base xs hbase
  have hx := h base xs hbase
  unfold Service.attempt
  cases hrun : x s with
  | ok a t =>
    rw [hrun] at hx
    obtain ⟨hsame, hq, howns⟩ := hx
    exact ⟨hsame, fun _ => hq, howns⟩
  | error r t =>
    rw [hrun] at hx
    obtain ⟨hr, hsame, howns⟩ := hx
    exact ⟨hsame, fun hok => absurd hok hr, by rwa [ifOk_of_ne hr]⟩

theorem orElse {x y : ServiceM ResultT} {c : ResultT → Prop} [DecidablePred c]
    {Q : ResultT → Vars → Prop} {own : Vars → List Handle} (hx : Acquires vs hs x Q (ifOk own) s)
    (hc : ∀ r, c r → r ≠ resultOk) (hy : ∀ t, Acquires vs hs y Q (ifOk own) t) :
    Acquires vs hs (x >>= fun r => if c r then y else Pure.pure r) Q (ifOk own) s := by
  intro base xs hbase
  refine (hx base xs hbase).bind ?_
  rintro r t ⟨hsame, hq, howns⟩
  by_cases hr : c r
  · rw [if_pos hr]
    rw [ifOk_of_ne (hc r hr)] at howns
    exact (hy t).after hsame howns
  · rw [if_neg hr]
    exact ⟨hsame, hq, howns⟩

theorem check {x : ServiceM ResultT} {fail : ResultT → ServiceM Unit} {Q : ResultT → Vars → Prop}
    {own : Vars → List Handle} (hx : Acquires vs hs x Q (ifOk own) s)
    (hfail : ∀ r t, r ≠ resultOk → Acquires vs hs (fail r) (fun _ => Q resultOk) (fun _ => own) t) :
    Acquires vs hs (x >>= fun r => if r ≠ resultOk then fail r else Pure.pure ())
      (fun _ => Q resultOk) (fun _ => own) s := by
  intro base xs hbase
  refine (hx base xs hbase).bind ?_
  rintro r t ⟨hsame, hq, howns⟩
  by_cases hr : r = resultOk
  · subst hr
    exact ⟨hsame, hq, howns⟩
  · rw [if_pos hr]
    rw [ifOk_of_ne hr] at howns
    exact (hfail r t hr).after hsame howns

theorem bind_closes {x y : ServiceM Unit} {Q : Unit → Vars → Prop} {own own' : Vars → List Handle}
    (hx : Acquires vs hs x Q (fun _ w => own w ++ own' w) s) (hy : Closes y own') :
    Acquires vs hs (x >>= fun _ => y) Q (fun _ => own) s := by
  intro base xs hbase
  refine (hx base xs hbase).bind ?_
  rintro ⟨⟩ t ⟨hsame, hq, howns⟩
  obtain ⟨u, hrun, hsame', hledger⟩ := hy t
  have hperm : (own t.vars ++ own' t.vars ++ xs).Perm (own' t.vars ++ (own t.vars ++ xs)) := by
    rw [append_assoc]
    exact perm_append_comm_assoc ..
  rw [hrun]
  refine ⟨hsame.trans hsame'.of_nil, ?_, ?_⟩
  · rw [hsame'.vars_eq]
    exact hq
  · rw [hsame'.vars_eq, hledger]
    exact howns.disposeAll hperm

/-- **A step of a staircase.** What the first part acquires stays in its variables and is given back
if the rest fails. -/
theorem stairs {x rest cleanup : ServiceM Unit} {Q R : Unit → Vars → Prop}
    {own ownR : Vars → List Handle} (hvs : vs' ⊆ vs) (hhs : hs' ⊆ hs)
    (hx : Acquires vs hs x Q (fun _ => own) s)
    (hrest : ∀ t, Same vs hs s t → Q () t.vars → Acquires vs' hs' rest R (fun _ => ownR) t)
    (hown : ∀ t u, Same vs' hs' t u → own u.vars = own t.vars)
    (hkeep : ∀ t u, Same vs' hs' t u → Q () t.vars → Q () u.vars) (hclean : Closes cleanup own) :
    Acquires vs hs (x >>= fun _ => onFail rest cleanup) (fun a w => Q () w ∧ R a w)
      (fun _ w => ownR w ++ own w) s := by
  intro base xs hbase
  refine (hx base xs hbase).bind ?_
  rintro ⟨⟩ t ⟨hsame, hq, howns⟩
  refine Ends.onFail ((hrest t hsame hq base _ howns).imp ?_ fun _ _ he => he) ?_
  · rintro _ u ⟨hsame', hr, howns'⟩
    refine ⟨hsame.trans (hsame'.mono hvs hhs), ⟨hkeep t u hsame' hq, hr⟩, ?_⟩
    rw [append_assoc, hown t u hsame']
    exact howns'
  · rintro r u ⟨hr, hsame', howns'⟩
    replace howns' : OwnsSince base u.ledger (own u.vars ++ xs) := by
      rw [hown t u hsame']
      exact howns'
    obtain ⟨hsame'', howns''⟩ := hclean.owns howns' (.refl _)
    exact ⟨hr, hsame.trans ((hsame'.mono hvs hhs).trans hsame''.of_nil), howns''⟩

variable {rest : ServiceM Unit} {R : Unit → Vars → Prop} {ownR : Vars → List Handle}

theorem stairs_object {x : ServiceM Unit} {P : ServiceObject → Prop} (hv : v ∉ vs)
    (hx : Acquires [v] [] x (fun _ w => P (w.object v)) (fun _ w => (w.object v).owned) s)
    (hrest : ∀ t, Same (v :: vs) hs s t → P (t.object v) →
      Acquires vs hs rest R (fun _ => ownR) t) :
    Acquires (v :: vs) hs (x >>= fun _ => onFail rest (ipcClose v))
      (fun a w => P (w.object v) ∧ R a w) (fun _ w => ownR w ++ (w.object v).owned) s := by
  have hsub : [v] ⊆ v :: vs := by simp
  refine stairs (subset_cons_self ..) (List.Subset.refl _)
    (hx.mono hsub (nil_subset _)) hrest ?_ ?_ (closes_ipcClose v)
  · intro t u hsame
    exact congrArg ServiceObject.owned (hsame.object v hv)
  · intro t u hsame hp
    show P (u.object v)
    rw [hsame.object v hv]
    exact hp

end Acquires

/-! ## Kernel and IPC -/

variable {env : Env} {s : State}

theorem tick_bind_run {α : Type} {f : Nat → ServiceM α} :
    (tick >>= f) s = f s.clock { s with clock := s.clock + 1 } := rfl

theorem same_tick : Same [] [] s { s with clock := s.clock + 1 } :=
  ⟨rfl, rfl, fun _ _ => rfl, fun _ _ => rfl, rfl, rfl⟩

theorem same_setHandle (v : HandleVar) (h : Handle) :
    Same [] [v] s { s with handle := Function.update s.handle v h } := by
  refine ⟨rfl, rfl, fun _ _ => rfl, fun v' hv' => ?_, rfl, rfl⟩
  rw [mem_singleton] at hv'
  exact update_of_ne hv' _ _

theorem same_setObject (v : ObjectVar) (o : ServiceObject) :
    Same [v] [] s { s with object := Function.update s.object v o } := by
  refine ⟨rfl, rfl, fun v' hv' => ?_, fun _ _ => rfl, rfl, rfl⟩
  rw [mem_singleton] at hv'
  exact update_of_ne hv' _ _

/-- What is known about handles. -/
def State.accounts (s : State) :=
  (s.config, s.count, s.object, s.handle, s.ports, s.ledger)

/-- A function that leaves handles and devices alone. -/
def Quiet {α : Type} (x : ServiceM α) : Prop :=
  Leaves (fun s : State => (s.accounts, s.devices)) x

theorem Quiet.accounts {α : Type} {x : ServiceM α} (h : Quiet x) : Leaves State.accounts x :=
  fun s => (Prod.mk.inj (h s)).1

theorem Quiet.same {α : Type} {x : ServiceM α} (h : Quiet x) (s : State) :
    Same [] [] s (final (x s)) ∧ (final (x s)).ledger = s.ledger := by
  have hs := h s
  simp only [State.accounts, Prod.mk.injEq] at hs
  obtain ⟨⟨hconfig, hcount, hobject, hhandle, hports, hledger⟩, hdevices⟩ := hs
  exact ⟨⟨hconfig, hcount, fun v _ => congrFun hobject v, fun v _ => congrFun hhandle v, hdevices,
    hports⟩, hledger⟩

theorem quiet_ipcSend (env : Env) (request : Request) (o : ServiceObject) :
    Quiet (ipcSend env request o) := by
  refine .get_bind fun s => .bind (.failIf _) fun _ => .bind (fun _ => rfl) fun time => ?_
  exact .bind (.failIf _) fun _ => .pure _

theorem quiet_tryIpcSend (env : Env) (request : Request) (o : ServiceObject) :
    Quiet (tryIpcSend env request o) := by
  intro s
  have hs := quiet_ipcSend env request o s
  unfold tryIpcSend
  cases hrun : ipcSend env request o s with
  | ok reply t =>
    rw [hrun] at hs
    exact hs
  | error r t =>
    rw [hrun] at hs
    exact hs

theorem newHandle_run (env : Env) (s : State) :
    newHandle env s = .ok (env.create s.clock (held s.ledger)) { s with
      clock := s.clock + 1
      ledger := if (env.create s.clock (held s.ledger)).1 = resultOk then
        .acquired (env.create s.clock (held s.ledger)).2 :: s.ledger else s.ledger } := by
  show (if (env.create s.clock (held s.ledger)).1 = resultOk then _ else _ : ServiceM _) _ = _
  split <;> rfl

theorem newHandle_ends {E : ResultT → State → Prop} (h : OwnsSince base s.ledger xs) :
    Ends (newHandle env s) (fun p t => Same [] [] s t ∧
      (p.1 ≠ resultOk ∧ OwnsSince base t.ledger xs ∨
        p.1 = resultOk ∧ p.2 ≠ 0 ∧ OwnsSince base t.ledger (p.2 :: xs))) E := by
  rw [newHandle_run]
  refine ⟨⟨rfl, rfl, fun _ _ => rfl, fun _ _ => rfl, rfl, rfl⟩, ?_⟩
  by_cases hr : (env.create s.clock (held s.ledger)).1 = resultOk
  · obtain ⟨hzero, hfresh⟩ := env.create_fresh _ _ hr
    refine .inr ⟨hr, hzero, ?_⟩
    rw [if_pos hr]
    exact h.acquire hfresh
  · refine .inl ⟨hr, ?_⟩
    rw [if_neg hr]
    exact h

theorem ipcSend_acquires (env : Env) (request : Request) (o : ServiceObject) (s : State) :
    Acquires [] [] (ipcSend env request o) (fun _ _ => True) (fun _ _ => []) s := by
  refine .of_step get_bind_run (.refl s) rfl ?_
  refine .failIf_bind (fun _ => by decide) fun _ => ?_
  refine .of_step tick_bind_run same_tick rfl ?_
  exact .failIf_bind id fun _ => .pure trivial rfl

theorem ipcSendHandle_acquires (env : Env) (o : ServiceObject) (s : State) :
    Acquires [] [] (ipcSendHandle env o) (fun h _ => h ≠ 0) (fun h _ => [h]) s := by
  refine .of_step get_bind_run (.refl s) rfl ?_
  refine .failIf_bind (fun _ => by decide) fun _ => ?_
  intro base xs hbase
  refine (newHandle_ends hbase).bind ?_
  rintro ⟨r, h⟩ t ⟨hsame, ⟨hr, howns⟩ | ⟨hr, hzero, howns⟩⟩
  · exact .failIf_bind (fun _ => ⟨hr, hsame, howns⟩) fun hok => absurd hr hok
  · exact .failIf_bind (fun hok => absurd hr hok) fun _ => ⟨hsame, hzero, howns⟩

theorem svcCreateTransferMemory_acquires (env : Env) (v : HandleVar) (s : State) :
    Acquires [] [v] (svcCreateTransferMemory env v) (fun _ w => w.handle v ≠ 0)
      (fun _ w => handles (w.handle v)) s := by
  intro base xs hbase
  refine (newHandle_ends hbase).bind ?_
  rintro ⟨r, h⟩ t ⟨hsame, hcases⟩
  show Ends (failIf (r ≠ resultOk) r { t with handle := Function.update t.handle v h }) _ _
  have hset := hsame.of_nil.trans (same_setHandle v h)
  rcases hcases with ⟨hr, howns⟩ | ⟨hr, hzero, howns⟩
  · rw [failIf_of hr]
    exact ⟨hr, hset, howns⟩
  · rw [failIf_of_not (not_not_intro hr)]
    have hv : Function.update t.handle v h v = h := update_self ..
    refine ⟨hset, ?_, ?_⟩
    · show Function.update t.handle v h v ≠ 0
      rw [hv]
      exact hzero
    · show OwnsSince base t.ledger (handles (Function.update t.handle v h v) ++ xs)
      rw [hv, handles, if_neg hzero]
      exact howns

theorem registerMemory_acquires {v : HandleVar} {o : ObjectVar} {setErrno : Word → State → State}
    {failure : ResultT} (hfailure : failure ≠ resultOk)
    (hsame : ∀ e t, Same [] [] t (setErrno e t) ∧ (setErrno e t).ledger = t.ledger) (s : State) :
    Acquires [] [v] (registerMemory env v o setErrno failure)
      (fun _ w => w.handle v ≠ 0) (fun _ w => handles (w.handle v)) s := by
  suffices h : Acquires [] [v] (registerMemory env v o setErrno failure)
      (fun _ w => w.handle v ≠ 0 ∧ True) (fun _ w => [] ++ handles (w.handle v)) s from
    h.weaken fun _ _ hq => hq.1
  refine .stairs (List.Subset.refl _) (nil_subset _)
    (svcCreateTransferMemory_acquires env v s) ?_ ?_ ?_ (closes_var v)
  · intro t _ _
    refine .of_step get_bind_run (.refl t) rfl ?_
    refine (ipcSend_acquires env .other (t.object o) t).bind fun response u _ _ => ?_
    split
    · obtain ⟨hu, hledger⟩ := hsame (response 0) u
      exact .of_step modify_bind_run hu hledger (.throw hfailure)
    · exact .pure trivial rfl
  · intro t u hu
    exact congrArg handles (hu.handle v not_mem_nil)
  · intro t u hu hv
    show u.handle v ≠ 0
    rw [hu.handle v not_mem_nil]
    exact hv

/-! ## Objects -/

/-- The loader has overridden the service of that name. -/
def Overridden (config : LoaderConfig) (name : List Byte) : Prop :=
  (config.serviceOverrides.find? (·.serviceName = str2u64 name)).isSome = true

instance Overridden.decidable (config : LoaderConfig) (name : List Byte) :
    Decidable (Overridden config name) := inferInstanceAs (Decidable (_ = true))

/-- An object that is a session of its own, or a borrowed one. -/
structure ServiceObject.IsSession (o : ServiceObject) : Prop where
  objectId : o.objectId = -1
  session : o.isBorrowed = false → o.session ≠ 0

section Objects

variable {o : ServiceObject} {d : HandleVar} {h : Handle}

theorem ServiceObject.not_inDomain (ho : o.objectId = -1) : o.inDomain = false := by
  unfold inDomain
  rw [ho]
  decide

theorem ServiceObject.owned_of_domain (ho : o.ref = .domain d) : o.owned = [] := by
  unfold owned session
  rw [ho]
  split <;> rfl

theorem ServiceObject.owned_of_session (ho : o.objectId = -1) (hb : o.isBorrowed = false) :
    o.owned = handles o.session := by
  unfold owned
  rw [hb, not_inDomain ho, if_neg (by decide)]

theorem owned_session (hzero : h ≠ 0) : (ServiceObject.mk (-1) (.session h) false).owned = [h] := by
  exact if_neg hzero

theorem owned_borrowed (ho : o.isBorrowed = true) : o.owned = [] := by
  unfold ServiceObject.owned
  rw [ho]
  rfl

theorem setObject_acquires (out : ObjectVar) (ho : o.owned = []) (s : State) :
    Acquires [out] [] (setObject out o) (fun _ w => w.object out = o)
      (fun _ w => (w.object out).owned) s := by
  intro base xs hbase
  have hout : Function.update s.object out o out = o := update_self ..
  refine ⟨same_setObject out o, hout, ?_⟩
  show OwnsSince base s.ledger ((Function.update s.object out o out).owned ++ xs)
  rw [hout, ho]
  exact hbase

theorem sendHandle_setObject_acquires (env : Env) (o : ServiceObject) (out : ObjectVar)
    (s : State) : Acquires [out] []
      (ipcSendHandle env o >>= fun h => setObject out ⟨-1, .session h, false⟩)
      (fun _ w => (w.object out).IsSession ∧ (w.object out).isBorrowed = false)
      (fun _ w => (w.object out).owned) s := by
  intro base xs hbase
  refine Ends.bind ((ipcSendHandle_acquires env o s base xs hbase).imp (fun _ _ hq => hq) ?_) ?_
  · rintro r t ⟨hr, hsame, howns⟩
    exact ⟨hr, hsame.of_nil, howns⟩
  · rintro h t ⟨hsame, hzero, howns⟩
    have hout : Function.update t.object out ⟨-1, .session h, false⟩ out
        = ⟨-1, .session h, false⟩ := update_self ..
    refine ⟨hsame.of_nil.trans (same_setObject out _), ?_, ?_⟩
    · show (Function.update t.object out _ out).IsSession ∧
        (Function.update t.object out _ out).isBorrowed = false
      rw [hout]
      exact ⟨⟨rfl, fun _ => hzero⟩, rfl⟩
    · show OwnsSince base t.ledger ((Function.update t.object out _ out).owned ++ xs)
      rw [hout, owned_session hzero]
      exact howns

theorem getObject_session {iface out : ObjectVar} (ho : (s.object iface).objectId = -1) :
    Acquires [out] [] (getObject env iface out) (fun _ w => (w.object out).IsSession)
      (fun _ w => (w.object out).owned) s := by
  refine .of_step get_bind_run (.refl s) rfl ?_
  unfold ipcSendObject
  rw [ServiceObject.not_inDomain ho]
  exact (sendHandle_setObject_acquires env _ out s).weaken fun _ _ hq => hq.1

theorem getObject_domain {iface out : ObjectVar} (ho : (s.object iface).ref = .domain d) :
    Acquires [out] [] (getObject env iface out) (fun _ w => (w.object out).ref = .domain d)
      (fun _ w => (w.object out).owned) s := by
  refine .of_step get_bind_run (.refl s) rfl ?_
  unfold ipcSendObject
  cases hdomain : (s.object iface).inDomain with
  | true =>
    refine ((ipcSend_acquires env .other _ s).mono (nil_subset _) (nil_subset _)).bind ?_
    intro reply t _ _
    have howned : (ServiceObject.mk (reply 0) (s.object iface).ref false).owned = [] :=
      ServiceObject.owned_of_domain ho
    refine (setObject_acquires out howned t).weaken ?_
    rintro _ w hw
    rw [hw]
    exact ho
  | false =>
    rw [if_neg Bool.false_ne_true]
    -- the low half of the pointer is no handle
    have htarget : s.target (s.object iface) = 0 := by
      unfold State.target
      rw [ho, hdomain]
      rfl
    intro base xs hbase
    have hsend : ipcSendHandle env (s.object iface) s = .error invalidHandle s := by
      unfold ipcSendHandle
      rw [get_bind_run]
      exact failIf_bind_of htarget
    rw [bind_of_error hsend]
    exact ⟨by decide, .refl s, hbase⟩

/-- A service that is looked up is a session, borrowed exactly if the loader overrides it. -/
theorem smGetServiceEx_acquires (env : Env) (out : ObjectVar) (name : List Byte)
    (requireOverride : Bool) (s : State) :
    Acquires [out] [] (smGetServiceEx env out name requireOverride)
      (fun _ w => (w.object out).IsSession ∧
        ((w.object out).isBorrowed = true ↔ Overridden s.config name))
      (fun _ w => (w.object out).owned) s := by
  refine .of_step get_bind_run (.refl s) rfl ?_
  refine .failIf_bind (fun _ => by decide) fun _ => ?_
  refine .failIf_bind (fun _ => by decide) fun _ => ?_
  refine .of_step modify_bind_run (same_setObject out _) rfl ?_
  unfold Overridden
  split
  · rename_i override hfind
    refine (setObject_acquires out (owned_borrowed rfl) _).weaken ?_
    rintro _ w hw
    rw [hw, hfind]
    exact ⟨⟨rfl, fun hb => absurd hb.symm Bool.false_ne_true⟩, by simp⟩
  · rename_i hfind
    refine .failIf_bind (fun _ => by decide) fun _ => ?_
    refine (sendHandle_setObject_acquires env _ out _).weaken ?_
    rintro _ w ⟨hsession, hborrowed⟩
    rw [hborrowed, hfind]
    exact ⟨hsession, by simp⟩

theorem smGetService_acquires (env : Env) (out : ObjectVar) (name : List Char) (s : State) :
    Acquires [out] [] (smGetService env out name) (fun _ w => (w.object out).IsSession)
      (fun _ w => (w.object out).owned) s :=
  (smGetServiceEx_acquires env out _ false s).weaken fun _ _ hq => hq.1

/-- The handle of a session goes over to the domain that it becomes, also if that fails. A borrowed
session is refused, and the domain is left as it was. -/
theorem ipcConvertToDomain_ends {hs : List HandleVar} (hsession : (s.object v).IsSession)
    (hd : (s.object v).isBorrowed = false → d ∈ hs)
    (hclean : (s.object v).isBorrowed = true → s.handle d = 0)
    (howns : OwnsSince base s.ledger ((s.object v).owned ++ xs)) :
    Ends (ipcConvertToDomain env v d s)
      (fun _ t => Same [v] hs s t ∧ ((t.object v).ref = .domain d ∧ t.handle d ≠ 0) ∧
        OwnsSince base t.ledger (handles (t.handle d) ++ xs))
      (fun r t => r ≠ resultOk ∧ Same [v] hs s t ∧
        OwnsSince base t.ledger (handles (t.handle d) ++ xs)) := by
  refine .failIf_bind (fun hborrowed => ?_) fun hborrowed => ?_
  · rw [owned_borrowed hborrowed] at howns
    rw [hclean hborrowed]
    exact ⟨by decide, .refl s, howns⟩
  have hborrowed : (s.object v).isBorrowed = false := Bool.eq_false_iff.2 hborrowed
  rw [ServiceObject.owned_of_session hsession.objectId hborrowed] at howns
  refine .failIf_bind (fun h => absurd hsession.objectId h) fun _ => ?_
  -- the state in which the request is sent
  let u : State := { s with
    handle := Function.update s.handle d (s.object v).session
    object := Function.update s.object v { s.object v with ref := .domain d } }
  have hu : Same [v] hs s u :=
    ((same_setHandle d _).mono (nil_subset _) (by simpa using hd hborrowed)).trans
      ((same_setObject v _).mono (List.Subset.refl _) (nil_subset _))
  have hhandle : u.handle d = (s.object v).session := update_self ..
  refine (?_ : Ends ((ipcSend env .other (s.object v) >>= _) u) _ _)
  refine Ends.bind ((ipcSend_acquires env .other (s.object v) u base _ howns).imp
    (fun _ _ hq => hq) ?_) ?_
  · rintro r t ⟨hr, hsame, howns'⟩
    rw [hsame.handle d not_mem_nil, hhandle]
    exact ⟨hr, hu.trans hsame.of_nil, howns'⟩
  · rintro reply t ⟨hsame, -, howns'⟩
    refine ⟨hu.trans (hsame.of_nil.trans ((same_setObject v _).mono (List.Subset.refl _)
      (nil_subset _))), ⟨?_, ?_⟩, ?_⟩
    · show (Function.update t.object v ⟨reply 0, .domain d, false⟩ v).ref = _
      rw [update_self]
    · rw [hsame.handle d not_mem_nil, hhandle]
      exact hsession.session hborrowed
    · rw [hsame.handle d not_mem_nil, hhandle]
      exact howns'

theorem domain_acquires {name : List Char} {vs : List ObjectVar} {hs : List HandleVar}
    {rest : ServiceM Unit} {R : Unit → Vars → Prop} {ownR : Vars → List Handle} (hv : v ∉ vs)
    (hd : ¬ Overridden s.config (serviceName name) → d ∈ hs)
    (hclean : Overridden s.config (serviceName name) → s.handle d = 0)
    (hrest : ∀ t, (t.object v).ref = .domain d → Acquires vs [] rest R (fun _ => ownR) t) :
    Acquires (v :: vs) hs
      (do
        smGetService env v name
        onFail (do
          ipcConvertToDomain env v d
          onFail rest (ipcClose v)) (ipcCloseDomain d))
      (fun a w => ((w.object v).ref = .domain d ∧ w.handle d ≠ 0) ∧ R a w)
      (fun _ w => ownR w ++ ((w.object v).owned ++ handles (w.handle d))) s := by
  intro base xs hbase
  have hv' : [v] ⊆ v :: vs := by simp
  have hvs : vs ⊆ v :: vs := subset_cons_self ..
  refine Ends.bind ((smGetServiceEx_acquires env v _ false s base xs hbase).imp
    (fun _ _ hq => hq) ?_) ?_
  · rintro r t ⟨hr, hsame, howns⟩
    exact ⟨hr, hsame.mono hv' (nil_subset _), howns⟩
  rintro ⟨⟩ t ⟨hsame, ⟨hsession, hoverridden⟩, howns⟩
  have hst : Same (v :: vs) hs s t := hsame.mono hv' (nil_subset _)
  have hd' : (t.object v).isBorrowed = false → d ∈ hs := by
    intro hborrowed
    refine hd fun hname => ?_
    exact absurd (hoverridden.2 hname) (Bool.eq_false_iff.1 hborrowed)
  have hclean' : (t.object v).isBorrowed = true → t.handle d = 0 := fun hborrowed =>
    (hsame.handle d not_mem_nil).trans (hclean (hoverridden.1 hborrowed))
  -- while the rest runs, the handle is in `d`, and `v` is an object of the domain
  have hinner : Ends ((ipcConvertToDomain env v d >>= fun _ => onFail rest (ipcClose v)) t)
      (fun a u => Same (v :: vs) hs t u ∧
        (((u.object v).ref = .domain d ∧ u.handle d ≠ 0) ∧ R a u.vars) ∧
        OwnsSince base u.ledger
          (ownR u.vars ++ ((u.object v).owned ++ handles (u.handle d)) ++ xs))
      (fun r u => r ≠ resultOk ∧ Same (v :: vs) hs t u ∧
        OwnsSince base u.ledger (handles (u.handle d) ++ xs)) := by
    refine Ends.bind ((ipcConvertToDomain_ends hsession hd' hclean' howns).imp
      (fun _ _ hq => hq) ?_) ?_
    · rintro r u ⟨hr, hsame', howns'⟩
      exact ⟨hr, hsame'.mono hv' (List.Subset.refl _), howns'⟩
    rintro ⟨⟩ u ⟨hsame', ⟨href, hzero⟩, howns'⟩
    have htu : Same (v :: vs) hs t u := hsame'.mono hv' (List.Subset.refl _)
    have hnone {w : State} (hw : Same vs [] u w) : (w.object v).owned = [] := by
      rw [hw.object v hv]
      exact ServiceObject.owned_of_domain href
    refine Ends.onFail ((hrest u href base _ howns').imp ?_ fun _ _ he => he) ?_
    · rintro a w ⟨hsame'', hr, howns''⟩
      refine ⟨htu.trans (hsame''.mono hvs (nil_subset _)), ?_, ?_⟩
      · rw [hsame''.object v hv, hsame''.handle d not_mem_nil]
        exact ⟨⟨href, hzero⟩, hr⟩
      · rw [hnone hsame'', hsame''.handle d not_mem_nil, append_assoc]
        exact howns''
    · rintro r w ⟨hr, hsame'', howns''⟩
      have hperm : (handles (u.handle d) ++ xs).Perm
          ((w.object v).owned ++ (handles (u.handle d) ++ xs)) := by
        rw [hnone hsame'']
        exact .refl _
      obtain ⟨hsame₃, howns₃⟩ := (closes_ipcClose v).owns howns'' hperm
      refine ⟨hr, htu.trans ((hsame''.mono hvs (nil_subset _)).trans hsame₃.of_nil), ?_⟩
      rw [hsame₃.handle d not_mem_nil, hsame''.handle d not_mem_nil]
      exact howns₃
  refine Ends.onFail (hinner.imp ?_ fun _ _ he => he) ?_
  · rintro a u ⟨hsame', hr, howns'⟩
    exact ⟨hst.trans hsame', hr, howns'⟩
  · rintro r u ⟨hr, hsame', howns'⟩
    obtain ⟨hsame'', howns''⟩ := (closes_var d).owns howns' (.refl _)
    exact ⟨hr, hst.trans (hsame'.trans hsame''.of_nil), howns''⟩

end Objects

end LibTransistor.Service
