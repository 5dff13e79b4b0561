import LibTransistor.Fs.Resolution

/-!
# Paths that cannot be resolved

When the walk along a path fails, the call that asked for it gives up. This file counts what the
call has acquired by then and what it has given back.

`lookup` hands an inode over before the name of its entry is allocated, and the entry is counted
only after that. So an inode is lost when the lookup succeeds and the allocation fails, and in no
other case (`failed_call_clean_iff`).
-/

namespace LibTransistor

open Fallible Ledger List

variable {δ : Type} {env : FsEnv δ}

/-! ## What a walk has acquired -/

/-- Since state `s`, a walk has acquired its own entries and the inodes `lost`, and given the others
back. -/
structure Point.Tallied (s : FsState δ) (x : Point δ) (lost : List InodeId) : Prop where
  cwd : x.state.cwd = s.cwd
  recursion : x.state.cwdRecursion = s.cwdRecursion
  ledger : ∃ l, x.state.ledger = l ++ s.ledger ∧ Tally l (inodes x.own ++ lost) ∧
    ∀ id, .acquired id ∈ l → id.time < x.state.clock

section Walk

variable {s : FsState δ} {dirs : List (Traversal δ)} {x y : Point δ} {r : ResultT} {p : Place δ}
variable {path : List (List Byte)} {lost : List InodeId}

theorem Point.Tallied.missed {st : FsState δ} {k : Nat} {own : List (Traversal δ)}
    {top : Traversal δ} (h : Point.Tallied s ⟨st, k, own⟩ []) (hr : r ≠ resultOk) :
    Point.Tallied s ⟨st.looked top.inode r, k, own⟩ [] := by
  obtain ⟨l, hl, htally, hpast⟩ := h.ledger
  refine ⟨h.cwd, h.recursion, .used top.inode.id :: l, ?_, htally.use _, fun id hid => ?_⟩
  · show (if r = resultOk then _ else _) ++ _ :: st.ledger = _
    rw [if_neg hr, show st.ledger = l ++ s.ledger from hl]
    rfl
  · have htime : id.time < st.clock := hpast id (by simpa using hid)
    show id.time < st.clock + 2
    omega

theorem Point.Tallied.acquired {st : FsState δ} {k : Nat} {own : List (Traversal δ)}
    {top : Traversal δ} (h : Point.Tallied s ⟨st, k, own⟩ []) :
    ∃ l, (st.looked top.inode resultOk).ledger = l ++ s.ledger ∧
      Tally l (inodes own ++ [.found st.clock]) ∧
      ∀ id, .acquired id ∈ l → id.time < (st.looked top.inode resultOk).clock := by
  obtain ⟨l, hl, htally, hpast⟩ := h.ledger
  have hnew : .acquired (.found st.clock) ∉ Event.used top.inode.id :: l := fun hmem =>
    Nat.lt_irrefl _ (hpast (.found st.clock) (by simpa using hmem))
  refine ⟨.acquired (.found st.clock) :: .used top.inode.id :: l, ?_, ?_, fun id hid => ?_⟩
  · show (if resultOk = resultOk then _ else _) ++ _ :: st.ledger = _
    rw [show st.ledger = l ++ s.ledger from hl]
    rfl
  · rw [append_nil] at htally
    exact (htally.use _).acquire hnew
  · show id.time < st.clock + 2
    rcases mem_cons.1 hid with heq | hmem
    · cases heq
      exact Nat.lt_add_of_pos_right (by decide)
    · have htime : id.time < st.clock := hpast id (by simpa using hmem)
      omega

theorem Visited.tallied {segment : List Byte} (h : Visited env dirs segment x r y)
    (hx : x.IsAt dirs p) (ht : x.Tallied s []) (rest : List (List Byte)) :
    (r = resultOk → y.Tallied s []) ∧ (r ≠ resultOk → ∃ lost, y.Tallied s lost ∧
      (lost = [] ↔ resolve env x.state.clock (segment :: rest) p ≠ .error (.noMemory true))) := by
  cases h with
  | stay => exact ⟨fun _ => ht, fun hr => absurd rfl hr⟩
  | root => exact ⟨fun _ => ht, fun hr => absurd rfl hr⟩
  | unborrow => exact ⟨fun _ => ⟨ht.cwd, ht.recursion, ht.ledger⟩, fun hr => absurd rfl hr⟩
  | pop =>
    refine ⟨fun _ => ?_, fun hr => absurd rfl hr⟩
    obtain ⟨l, hl, htally, hpast⟩ := ht.ledger
    refine ⟨ht.cwd, ht.recursion, _ :: l, congrArg (List.cons _) hl, ?_, fun id hid => ?_⟩
    · rw [append_nil, inodes_append] at htally
      rw [append_nil]
      exact htally.disposeAll perm_append_comm
    · exact hpast id (by simpa using hid)
  | tooDeep h hdeep =>
    rw [hx] at hdeep
    refine ⟨fun _ => ht, fun _ => ⟨[], ht, iff_of_true rfl ?_⟩⟩
    rw [resolve_tooDeep rest h hdeep]
    simp
  | @noMemory st k own top r data h hdeep htop hlookup hmalloc =>
    rw [hx.top htop] at hlookup
    rw [hx] at hdeep
    have hresolve := (resolve_name rest h hdeep hlookup).trans (if_pos hmalloc)
    refine ⟨fun hr => absurd hr ne_resultOk_of_noMemory, fun _ => ?_⟩
    by_cases hr : r = resultOk
    · subst hr
      refine ⟨[.found st.clock], ⟨ht.cwd, ht.recursion, ht.acquired⟩, iff_of_false (by simp) ?_⟩
      exact not_not.2 (hresolve.trans (by simp))
    · refine ⟨[], ht.missed hr, iff_of_true rfl ?_⟩
      rw [hresolve]
      simp [hr]
  | missing h hdeep htop hlookup hr hmalloc =>
    rw [hx.top htop] at hlookup
    rw [hx] at hdeep
    refine ⟨fun hok => absurd hok hr, fun _ => ⟨[], ht.missed hr, iff_of_true rfl ?_⟩⟩
    rw [resolve_name rest h hdeep hlookup, if_neg (by simp [hmalloc]), if_pos hr]
    simp
  | found =>
    refine ⟨fun _ => ⟨ht.cwd, ht.recursion, ?_⟩, fun hr => absurd rfl hr⟩
    rw [inodes_append, append_nil]
    exact ht.acquired

/-- The walk loses an inode exactly when it is stopped behind a successful lookup. -/
theorem Followed.tallied (h : Followed env dirs path x r y) (hx : x.IsAt dirs p)
    (ht : x.Tallied s []) (hr : r ≠ resultOk) :
    ∃ lost, y.Tallied s lost ∧
      (lost = [] ↔ resolve env x.state.clock path p ≠ .error (.noMemory true)) := by
  induction h generalizing p with
  | done => exact absurd rfl hr
  | fails h hr => exact (h.tallied hx ht _).2 hr
  | next h _ ih =>
    rcases h.resolves hx _ with ⟨-, q, hq, heq⟩ | ⟨hne, -⟩
    · rw [heq]
      exact ih hq ((h.tallied hx ht []).1 rfl) hr
    · exact absurd rfl hne

end Walk

/-! ## The calls -/

def PathCall.path : PathCall → CString
  | .realpath path _ => path
  | .open path _ => path
  | .opendir path => path
  | .chdir path => path

theorem PathCall.run_of_error {call : PathCall} {s s' : FsState δ} {e : FsError}
    (h : trnFsTraverse env call.path s = .error e s') : call.run env s = .error e s' := by
  cases call with
  | realpath path given => exact bind_of_error (bind_of_error h)
  | «open» path flags => exact bind_of_error (bind_of_error h)
  | opendir path => exact bind_of_error (bind_of_error h)
  | chdir path => exact bind_of_error h

/-- Between `s` and `s'` each inode that was acquired was released once, and the current directory
is the same. -/
structure FsState.NothingLeft (s s' : FsState δ) : Prop where
  released : ∃ l, s'.ledger = l ++ s.ledger ∧
    ∀ id, .acquired id ∈ l → l.count (.disposed id) = 1
  cwd : s'.cwd = s.cwd
  recursion : s'.cwdRecursion = s.cwdRecursion

/-- What is left when the walk has given back the entries of its own. -/
theorem Point.Tallied.nothingLeft_iff {s : FsState δ} {y : Point δ} {lost : List InodeId}
    (h : y.Tallied s lost) : s.NothingLeft (y.state.released (inodes y.own)) ↔ lost = [] := by
  obtain ⟨l, hl, htally, -⟩ := h.ledger
  have hfinal := htally.disposeAll (List.Perm.refl _)
  have hledger : (y.state.released (inodes y.own)).ledger =
      (((inodes y.own).map Event.disposed).reverse ++ l) ++ s.ledger := by
    rw [append_assoc, ← hl]
    rfl
  constructor
  · rintro ⟨⟨l', hl', honce⟩, -, -⟩
    rw [hledger] at hl'
    cases append_cancel_right hl'
    cases lost with
    | nil => rfl
    | cons id lost =>
      obtain ⟨hacquired, hzero⟩ := hfinal.not_disposed mem_cons_self
      rw [honce id hacquired] at hzero
      cases hzero
  · rintro rfl
    exact ⟨⟨_, hledger, fun id hid => hfinal.disposed_once hid⟩, h.cwd, h.recursion⟩

theorem PathCall.run_of_unresolved (env : FsEnv δ) {s : FsState δ} {p : Place δ} (call : PathCall)
    {u : Unresolved} (hs : s.InDirs p.entries)
    (hu : resolve env s.clock (segments call.path.bytes) (p.startOf call.path) = .error u) :
    ∃ (y : Point δ) (lost : List InodeId),
      call.run env s = .error (.result u.code) (y.state.released (inodes y.own)) ∧
      y.Tallied s lost ∧ (lost = [] ↔ u ≠ .noMemory true) := by
  obtain ⟨t, r, y, ht, hfollowed, hrun⟩ := traverse_run env hs call.path
  have hstart := Point.start_isAt s p call.path
  have htallied : (Point.start s p.entries call.path).Tallied s [] :=
    ⟨rfl, rfl, [], rfl, Tally.nil, fun id hid => absurd hid not_mem_nil⟩
  rcases hfollowed.resolves hstart with ⟨-, q, -, hresolve⟩ | ⟨hr, u', hu', hresolve⟩
  · cases hu.symm.trans hresolve
  · cases hu.symm.trans hresolve
    obtain ⟨lost, hlost, hiff⟩ := hfollowed.tallied hstart htallied hr
    rw [if_neg hr, hu'] at hrun
    refine ⟨y, lost, call.run_of_error hrun, hlost, hiff.trans ?_⟩
    show resolve env s.clock _ _ ≠ _ ↔ _
    rw [hu]
    simp

/-- **Failed calls.** In every state, a call whose path cannot be resolved returns the code of the
reason; and it leaves nothing behind exactly when the reason is not an allocation that failed behind
a successful lookup. -/
theorem failed_call_clean_iff (env : FsEnv δ) (s : FsState δ) (p : Place δ) (call : PathCall)
    (u : Unresolved) (hs : s.InDirs p.entries)
    (hu : resolve env s.clock (segments call.path.bytes) (p.startOf call.path) = .error u) :
    ∃ s', call.run env s = .error (.result u.code) s' ∧
      (s.NothingLeft s' ↔ u ≠ .noMemory true) := by
  obtain ⟨y, lost, hrun, hlost, hiff⟩ := PathCall.run_of_unresolved env call hs hu
  exact ⟨_, hrun, hlost.nothingLeft_iff.trans hiff⟩

/-- `a/b/c/d/e`, one level too deep for `fourLevels`. -/
def fifthLevel : CString :=
  ⟨[0x61#8, slash, 0x62#8, slash, 0x63#8, slash, 0x64#8, slash, 0x65#8], by decide⟩

theorem fifthLevel_clean : ∃ s', (PathCall.opendir fifthLevel).run fourLevels fourLevelsRoot =
    .error (.result Err.unimplemented) s' ∧ (fourLevelsRoot.NothingLeft s' ↔
      Unresolved.lookup Err.unimplemented ≠ .noMemory true) :=
  failed_call_clean_iff fourLevels fourLevelsRoot rootPlace (.opendir fifthLevel)
    (.lookup Err.unimplemented) fourLevelsRoot_inDirs rfl

/-- The first lookup of `/a/../b` succeeds and the allocation behind it fails. -/
theorem upAndDown_loses : ∃ s', (PathCall.opendir upAndDown).run outOfMemory fourLevelsRoot =
    .error (.result Err.outOfMemory) s' ∧ ¬ fourLevelsRoot.NothingLeft s' := by
  obtain ⟨y, lost, hrun, hlost, hiff⟩ := PathCall.run_of_unresolved outOfMemory
    (.opendir upAndDown) fourLevelsRoot_inDirs rfl
  refine ⟨_, hrun, fun hleft => ?_⟩
  exact absurd rfl (hiff.1 (hlost.nothingLeft_iff.1 hleft))

end LibTransistor
