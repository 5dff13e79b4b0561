import LibTransistor.Service.Spec

/-!
# Counting initialisations, and `sm` in between

`initOnce` and `finalizeOnce` open and close a module when its count leaves zero and returns to it.
An initialisation needs `sm` for its lookups only, and brackets them with `sm_init` and
`sm_finalize`.

* `finalizeOnce_run` — a finalisation closes what the module holds exactly if its count was one.
* `withSm_ends` — what runs between the two calls ends as it would by itself, the count of `sm` is
  the same, and a session that was opened for it is closed (`SmUse`).
-/

namespace LibTransistor.Service

open Fallible Ledger List Function

variable {x : ServiceM Unit} {hs : List Handle}

variable {env : Env} {s t : State} {m : Module}

/-! ## Counts -/

/-- The state with `k` more on the count of `m`. -/
def State.counted (s : State) (m : Module) (k : Int) : State :=
  { s with count := Function.update s.count m (s.count m + k) }

theorem State.counted_self {k : Int} : (s.counted m k).count m = s.count m + k :=
  update_self ..

theorem initOnce_run {body : ServiceM Unit} (m : Module) (s : State) :
    initOnce m body s = if s.count m > 0 then .ok () (s.counted m 1)
      else onFail body (addCount m (-1)) (s.counted m 1) := by
  show (if s.count m > 0 then pure () else _ : ServiceM Unit) (s.counted m 1) = _
  split <;> rfl

/-- Only the first initialisation runs the body, and a failure takes the count back. -/
theorem initOnce_ends {body : ServiceM Unit} {Q : Unit → State → Prop}
    {E F : ResultT → State → Prop} (hmore : 0 < s.count m → Q () (s.counted m 1))
    (hfirst : s.count m ≤ 0 → Ends (body (s.counted m 1)) Q F)
    (hfail : ∀ r t, F r t → E r (t.counted m (-1))) : Ends (initOnce m body s) Q E := by
  rw [initOnce_run]
  split
  · exact hmore ‹_›
  · exact Ends.onFail (hfirst (by omega)) hfail

/-- Only the last finalisation runs the body, which leaves the count at zero. -/
theorem finalizeOnce_of_run {P : State → Prop}
    (hlast : s.count m = 1 → ∃ t, x (s.counted m (-1)) = .ok () t ∧ t.count m = 0 ∧ P t)
    (hmore : s.count m ≠ 1 → P (s.counted m (-1))) : ∃ t, finalizeOnce m x s = .ok () t ∧ P t := by
  have hrun : finalizeOnce m x s = (if (s.counted m (-1)).count m = 0 then (do
      x
      modify fun s => { s with count := Function.update s.count m 0 })
    else pure () : ServiceM Unit) (s.counted m (-1)) := rfl
  rw [hrun, State.counted_self]
  by_cases hone : s.count m = 1
  · obtain ⟨t, hx, hcount, ht⟩ := hlast hone
    rw [if_pos (by omega), bind_of_ok hx]
    refine ⟨t, ?_, ht⟩
    show EStateM.Result.ok () { t with count := Function.update t.count m 0 } = _
    rw [← hcount, update_eq_self]
  · rw [if_neg (by omega)]
    exact ⟨_, rfl, hmore hone⟩

/-- **A finalisation** closes what the module holds exactly if the count was one. -/
theorem finalizeOnce_run {own : Vars → List Handle} (hx : Closes x own) (m : Module) (s : State) :
    ∃ t, finalizeOnce m x s = .ok () t ∧ Same [] [] (s.counted m (-1)) t ∧
      t.ledger = ((if s.count m = 1 then own s.vars else []).map Event.disposed).reverse
        ++ s.ledger := by
  refine finalizeOnce_of_run ?_ ?_
  · intro hone
    obtain ⟨t, hrun, hsame, hledger⟩ := hx (s.counted m (-1))
    refine ⟨t, hrun, ?_, hsame, ?_⟩
    · rw [hsame.count, State.counted_self]
      omega
    · rw [if_pos hone]
      exact hledger
  · intro hone
    rw [if_neg hone]
    exact ⟨.refl _, rfl⟩

theorem call_ends {Q : Unit → State → Prop} {E : ResultT → State → Prop}
    (h : Ends (x s) Q fun r t => r ≠ resultOk ∧ E r t) :
    Ends (call x s) Q fun r t => r ≠ resultOk ∧ E r t := by
  unfold call
  cases hrun : x s with
  | ok a t =>
    rw [hrun] at h
    rw [bind_of_ok (attempt_of_ok hrun)]
    exact h
  | error r t =>
    rw [hrun] at h
    rw [bind_of_ok (attempt_of_error hrun), failIf_of h.1]
    exact h

theorem State.counted_back {k : Int} (ht : t.count = (s.counted m k).count) :
    (t.counted m (-k)).count = s.count := by
  show Function.update t.count m (t.count m + -k) = s.count
  rw [ht, State.counted_self, Int.add_neg_cancel_right]
  show Function.update (Function.update s.count m _) m _ = _
  rw [update_idem, update_eq_self]

/-! ## `sm` -/

/-- What `sm_init` has done in `s`, with the sessions `hs` that it opened, one or none. -/
structure SmOpened (s t : State) (hs : List Handle) : Prop where
  config : t.config = s.config
  count : t.count = (s.counted .sm 1).count
  object : ∀ v ≠ .sm, t.object v = s.object v
  handle : t.handle = s.handle
  devices : t.devices = s.devices
  ports : t.ports = hs ++ s.ports
  ledger : t.ledger = hs.map Event.acquired ++ s.ledger
  sessions : hs = [] ∧ 0 < s.count .sm ∧ t.object .sm = s.object .sm ∨
    s.count .sm ≤ 0 ∧ ∃ h, hs = [h] ∧ h ≠ 0 ∧ h ∉ held s.ledger ∧
      t.object .sm = ⟨-1, .session h, (s.object .sm).isBorrowed⟩

theorem SmOpened.borrowed (h : SmOpened s t hs) :
    (t.object .sm).isBorrowed = (s.object .sm).isBorrowed := by
  rcases h.sessions with ⟨-, -, hobject⟩ | ⟨-, h, -, -, -, hobject⟩ <;> rw [hobject]

theorem smConnect_ends (env : Env) (s : State) :
    Ends (smConnect env s)
      (fun _ t => ∃ h, h ≠ 0 ∧ h ∉ held s.ledger ∧ Same [.sm] [] { s with ports := h :: s.ports } t ∧
        t.object .sm = ⟨-1, .session h, (s.object .sm).isBorrowed⟩ ∧
        t.ledger = .acquired h :: s.ledger)
      (fun r t => r ≠ resultOk ∧ Same [.sm] [] s t ∧
        (t.object .sm).isBorrowed = (s.object .sm).isBorrowed ∧ t.ledger = s.ledger) := by
  have hrun := newHandle_run env s
  obtain ⟨⟨r, h⟩, hcreate⟩ : ∃ p, p = env.create s.clock (held s.ledger) := ⟨_, rfl⟩
  have hfresh := env.create_fresh s.clock (held s.ledger)
  rw [← hcreate] at hrun hfresh
  unfold smConnect
  rw [bind_of_ok hrun]
  have hset : Same [.sm] [] s { s with
      object := Function.update s.object .sm ⟨-1, .session h, (s.object .sm).isBorrowed⟩ } :=
    same_setObject .sm _
  have hsm : Function.update s.object .sm ⟨-1, .session h, (s.object .sm).isBorrowed⟩ .sm =
    ⟨-1, .session h, (s.object .sm).isBorrowed⟩ := update_self ..
  have hkept := congrArg ServiceObject.isBorrowed hsm
  refine (?_ : Ends ((failIf (r ≠ resultOk) r >>= _) { s with
      clock := s.clock + 1
      ledger := if r = resultOk then .acquired h :: s.ledger else s.ledger
      object := Function.update s.object .sm ⟨-1, .session h, (s.object .sm).isBorrowed⟩ }) _ _)
  by_cases hr : r = resultOk
  · obtain ⟨hzero, hmem⟩ := hfresh hr
    rw [failIf_bind_of_not (not_not_intro hr), if_pos hr]
    exact ⟨h, hzero, hmem, ⟨rfl, rfl, hset.object, fun _ _ => rfl, rfl, rfl⟩, hsm, rfl⟩
  · rw [failIf_bind_of hr, if_neg hr]
    exact ⟨hr, ⟨rfl, rfl, hset.object, fun _ _ => rfl, rfl, rfl⟩, hkept, rfl⟩

theorem smInit_ends (env : Env) (s : State) :
    Ends (smInit env s) (fun _ t => ∃ hs, SmOpened s t hs)
      (fun r t => r ≠ resultOk ∧ Same [.sm] [] s t ∧ s.count .sm ≤ 0 ∧
        (t.object .sm).isBorrowed = (s.object .sm).isBorrowed ∧ t.ledger = s.ledger) := by
  refine initOnce_ends (F := fun r t => r ≠ resultOk ∧ Same [.sm] [] (s.counted .sm 1) t ∧
    s.count .sm ≤ 0 ∧ (t.object .sm).isBorrowed = (s.object .sm).isBorrowed ∧
    t.ledger = s.ledger) ?_ ?_ ?_
  · intro hpos
    exact ⟨[], rfl, rfl, fun _ _ => rfl, rfl, rfl, rfl, rfl, .inl ⟨rfl, hpos, rfl⟩⟩
  · intro hzero
    refine (smConnect_ends env (s.counted .sm 1)).imp ?_ ?_
    · rintro _ t ⟨h, hnonzero, hfresh, hsame, hsm, hledger⟩
      refine ⟨[h], hsame.config, hsame.count, ?_, ?_, hsame.devices, hsame.ports, hledger,
        .inr ⟨hzero, h, rfl, hnonzero, hfresh, hsm⟩⟩
      · intro v hv
        exact hsame.object v (by simpa using hv)
      · exact hsame.handle_eq
    · rintro r t ⟨hr, hsame, hborrowed, hledger⟩
      exact ⟨hr, hsame, hzero, hborrowed, hledger⟩
  · rintro r t ⟨hr, hsame, hzero, hborrowed, hledger⟩
    exact ⟨hr, ⟨hsame.config, State.counted_back hsame.count, hsame.object, hsame.handle,
      hsame.devices, hsame.ports⟩, hzero, hborrowed, hledger⟩

/-- How `t` compares to `s` around a use of `sm`: a session of `sm` is kept if there was one. -/
structure Around (vs : List ObjectVar) (hs : List HandleVar) (s t : State) : Prop where
  config : t.config = s.config
  count : t.count = s.count
  object : ∀ v ∉ vs, v ≠ .sm → t.object v = s.object v
  handle : ∀ v ∉ hs, t.handle v = s.handle v
  devices : t.devices = s.devices
  borrowed : (t.object .sm).isBorrowed = (s.object .sm).isBorrowed
  sm : 0 < s.count .sm → t.object .sm = s.object .sm

/-- The events of a use of `sm`: those of `new`, and around them the sessions `hs` of `sm`, one or
none, that are opened and closed. -/
structure SmUse (s t : State) (hs : List Handle) (new : List (Event Handle)) : Prop where
  sessions : hs = [] ∨ s.count .sm = 0 ∧ ∃ h, hs = [h]
  fresh : ∀ h ∈ hs, h ∉ held s.ledger
  untouched : ∀ a ∈ hs ++ held s.ledger, .acquired a ∉ new
  ports : t.ports = hs ++ s.ports
  ledger : t.ledger = hs.map Event.disposed ++ (new ++ (hs.map Event.acquired ++ s.ledger))

theorem SmUse.owns {xs ys : List Handle} {new : List (Event Handle)} (h : SmUse s t hs new)
    (hnew : Owns new xs) (hs' : Owns s.ledger ys) : Owns t.ledger (xs ++ ys) := by
  have hheld : held (hs.map Event.acquired ++ s.ledger) = hs ++ held s.ledger := by
    rcases h.sessions with rfl | ⟨-, a, rfl⟩ <;> rfl
  have hopened : Owns (hs.map Event.acquired ++ s.ledger) (hs ++ ys) := by
    rcases h.sessions with rfl | ⟨-, a, rfl⟩
    · exact hs'
    · refine hs'.acquire fun hmem => ?_
      exact h.fresh a mem_cons_self (hs'.mem_iff.2 hmem)
  have hused := hnew.append hopened (by
    rw [hheld]
    exact h.untouched)
  have hclosed := hused.disposeAll (perm_append_comm_assoc ..)
  have hreverse : (hs.map Event.disposed).reverse = hs.map Event.disposed := by
    rcases h.sessions with rfl | ⟨-, a, rfl⟩ <;> rfl
  rw [h.ledger, ← hreverse]
  exact hclosed

theorem SmOpened.close {vs : List ObjectVar} {hvs : List HandleVar} {u : State}
    (hopened : SmOpened s t hs) (hcount : 0 ≤ s.count .sm)
    (hborrowed : (s.object .sm).isBorrowed = false) (hsame : Same vs hvs t u) (hsm : .sm ∉ vs) :
    ∃ w, smFinalize u = .ok () w ∧ Around vs hvs s w ∧ w.vars = u.vars ∧
      w.ports = hs ++ s.ports ∧ w.ledger = hs.map Event.disposed ++ u.ledger := by
  obtain ⟨w, hrun, hw, hledger⟩ := finalizeOnce_run (closes_ipcClose .sm) .sm u
  have hcount' : u.count = (s.counted .sm 1).count := hsame.count.trans hopened.count
  have hone : u.count .sm = s.count .sm + 1 :=
    (congrFun hcount' .sm).trans State.counted_self
  have hobject : w.object = u.object := funext fun v => hw.object v not_mem_nil
  have hsession : u.object .sm = t.object .sm := hsame.object .sm hsm
  have hdisposed : (if u.count .sm = 1 then (u.object .sm).owned else []) = hs := by
    rcases hopened.sessions with ⟨rfl, hpos, -⟩ | ⟨hzero, h, rfl, hnonzero, -, hobj⟩
    · exact if_neg (by omega)
    · rw [if_pos (by omega), hsession, hobj, hborrowed]
      exact owned_session hnonzero
  refine ⟨w, hrun, ⟨?_, ?_, ?_, ?_, ?_, ?_, ?_⟩, hw.vars_eq, ?_, ?_⟩
  · exact hw.config.trans (hsame.config.trans hopened.config)
  · exact hw.count.trans (State.counted_back hcount')
  · intro v hv hne
    rw [hobject]
    exact (hsame.object v hv).trans (hopened.object v hne)
  · intro v hv
    exact (hw.handle v not_mem_nil).trans ((hsame.handle v hv).trans
      (congrFun hopened.handle v))
  · exact hw.devices.trans (hsame.devices.trans hopened.devices)
  · rw [hobject, hsession]
    exact hopened.borrowed
  · intro hpos
    rw [hobject, hsession]
    rcases hopened.sessions with ⟨-, -, hobj⟩ | ⟨hzero, -⟩
    · exact hobj
    · omega
  · exact hw.ports.trans (hsame.ports.trans hopened.ports)
  · have hreverse : (hs.map Event.disposed).reverse = hs.map Event.disposed := by
      rcases hopened.sessions with ⟨rfl, -⟩ | ⟨-, h, rfl, -⟩ <;> rfl
    rw [hledger, ← hreverse]
    exact congrArg (fun l => (l.map Event.disposed).reverse ++ u.ledger) hdisposed

/-- **What runs between `sm_init` and `sm_finalize`** ends as it would by itself. -/
theorem withSm_ends {vs : List ObjectVar} {hvs : List HandleVar} {rest : ServiceM Unit}
    {Q : Vars → Prop} {own : Vars → List Handle} (hcount : 0 ≤ s.count .sm)
    (hborrowed : (s.object .sm).isBorrowed = false) (hsm : .sm ∉ vs)
    (hrest : ∀ t, t.config = s.config → t.handle = s.handle →
      (t.object .sm).isBorrowed = false → Acquires vs hvs rest (fun _ => Q) (fun _ => own) t) :
    Ends (withSm env rest s)
      (fun _ t => Around vs hvs s t ∧ Q t.vars ∧ ∃ hs new, SmUse s t hs new ∧ Owns new (own t.vars))
      (fun r t => r ≠ resultOk ∧ Around vs hvs s t ∧ ∃ hs new, SmUse s t hs new ∧ Owns new []) := by
  refine Ends.bind (call_ends ((smInit_ends env s).imp (fun _ _ hq => hq) ?_)) ?_
  · rintro r t ⟨hr, hsame, hzero, hkept, hledger⟩
    refine ⟨hr, ⟨hsame.config, hsame.count, ?_, fun v _ => hsame.handle v not_mem_nil,
      hsame.devices, hkept,
      fun hpos => absurd hzero (by omega)⟩, [], [], ⟨.inl rfl, ?_, ?_, hsame.ports, hledger⟩, .nil⟩
    · intro v _ hv
      exact hsame.object v (by simpa using hv)
    · exact fun _ hmem => absurd hmem not_mem_nil
    · exact fun _ _ => not_mem_nil
  rintro ⟨⟩ t ⟨hs, hopened⟩
  -- what follows from the events of `rest`, once the session is closed again
  have huse {u w : State} {xs : List Handle} (howns : OwnsSince t.ledger u.ledger xs)
      (hports : w.ports = hs ++ s.ports)
      (hledger : w.ledger = hs.map Event.disposed ++ u.ledger) :
      ∃ new, SmUse s w hs new ∧ Owns new xs := by
    obtain ⟨new, hu, hnew, hbase⟩ := howns
    refine ⟨new, ⟨?_, ?_, ?_, hports, ?_⟩, hnew⟩
    · rcases hopened.sessions with ⟨rfl, -⟩ | ⟨hzero, h, rfl, -⟩
      · exact .inl rfl
      · exact .inr ⟨by omega, h, rfl⟩
    · rcases hopened.sessions with ⟨rfl, -⟩ | ⟨-, h, rfl, -, hfresh, -⟩
      · exact fun _ hmem => absurd hmem not_mem_nil
      · rintro h' hmem
        rw [mem_singleton.1 hmem]
        exact hfresh
    · have hheld : held t.ledger = hs ++ held s.ledger := by
        rw [hopened.ledger]
        rcases hopened.sessions with ⟨rfl, -⟩ | ⟨-, h, rfl, -⟩ <;> rfl
      rw [← hheld]
      exact hbase
    · rw [hledger, hu, hopened.ledger]
  have hkept : (t.object .sm).isBorrowed = false := hopened.borrowed.trans hborrowed
  refine Ends.bind (Ends.onFail
    (hrest t hopened.config hopened.handle hkept t.ledger [] (.refl _)) ?_) ?_
  · rintro r u ⟨hr, hsame, howns⟩
    obtain ⟨w, hrun, haround, -, hports, hledger⟩ := hopened.close hcount hborrowed hsame hsm
    rw [hrun]
    obtain ⟨new, husew⟩ := huse howns hports hledger
    exact ⟨hr, haround, hs, new, husew⟩
  · rintro ⟨⟩ u ⟨hsame, hq, howns⟩
    obtain ⟨w, hrun, haround, hvars, hports, hledger⟩ := hopened.close hcount hborrowed hsame hsm
    rw [append_nil] at howns
    obtain ⟨new, husew⟩ := huse howns hports hledger
    rw [hrun]
    refine ⟨haround, ?_, hs, new, ?_⟩
    · rw [hvars]
      exact hq
    · rw [hvars]
      exact husew

end LibTransistor.Service
