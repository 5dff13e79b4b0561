import LibTransistor.Fd.Operations

/-!
# References to files

Every slot that holds a file and every caller that got one and has not put it yet owns one of the
file's references. The count of a file never falls below the number of owners, so a file that
anybody owns is not released.

**The invariant** (`Accounted`). Between any two lines of an operation, each reference is in a slot,
with a caller or in the hands of an operation that is under way; the count is the number of
references taken and not given back, which is at least that. It may be more: `fd_create_file`
overwrites slots without giving their references back.

Each line keeps the invariant while references move from one hand to another (`Accounted.takeRef`,
`Accounted.swap`, `Accounted.put`, `Accounted.allocate`).
-/

namespace LibTransistor

open RefEvent List BitVec Function

/-! ## The invariant -/

/-- Every reference is in a slot or in some hands, or was lost, and the files that have any are
allocated and have their number as the count. -/
structure Accounted (s : FdState) (hands : List FilePtr) : Prop where
  disciplined : Disciplined s.log
  covered : ∀ p, holders s.files p + hands.count p ≤ outstanding s.log p
  alive : ∀ p, 0 < outstanding s.log p → s.live p.addr = some p.serial
  counted : ∀ p, 0 < outstanding s.log p →
    (s.mem p.addr).refcount.toNat = outstanding s.log p
  serial_lt : ∀ p, .taken p ∈ s.log → p.serial < s.serials

namespace Accounted

variable {s : FdState} {hands hands' : List FilePtr} {p q : FilePtr} {i : Slot}

theorem addr_ne (h : Accounted s hands) (hp : 0 < outstanding s.log p)
    (hq : 0 < outstanding s.log q) (hne : p ≠ q) : q.addr ≠ p.addr := by
  intro haddr
  have hserial := (h.alive p hp).symm.trans (haddr ▸ h.alive q hq)
  apply hne
  obtain ⟨a, n⟩ := p
  obtain ⟨b, k⟩ := q
  simp only [Option.some.injEq] at hserial haddr
  rw [hserial, haddr]

theorem pos_of_slot (h : Accounted s hands) (hf : s.files i = some p) :
    0 < outstanding s.log p := by
  have hcov := h.covered p
  have hpos := holders_pos hf
  omega

theorem pos_of_hand (h : Accounted s hands) (hp : p ∈ hands) : 0 < outstanding s.log p := by
  have hcov := h.covered p
  have hpos := count_pos_iff.2 hp
  omega

theorem forget (h : Accounted s hands) (hle : ∀ p, hands'.count p ≤ hands.count p) :
    Accounted s hands' :=
  { h with covered := fun p => le_trans (Nat.add_le_add_left (hle p) _) (h.covered p) }

theorem setLock (h : Accounted s hands) (i : Slot) (lock : Int) :
    Accounted (s.setLock i lock) hands :=
  { h with covered := by rw [FdState.files_setLock]; exact h.covered }

/-- What a slot held comes to hand, and what is stored leaves it. -/
theorem swap {f : Option FilePtr} (h : Accounted s (f.toList ++ hands)) (i : Slot) :
    Accounted (s.setFile i f) ((s.files i).toList ++ hands) := by
  refine { h with covered := fun p => ?_ }
  have hcov := h.covered p
  have hupd := holders_update s.files i f p
  rw [count_append] at hcov ⊢
  rw [FdState.files_setFile]
  show _ ≤ outstanding s.log p
  omega

theorem takeRef (h : Accounted s hands) (hpos : 0 < outstanding s.log p)
    (hlt : outstanding s.log p < 2 ^ 31) : Accounted (s.takeRef p) (p :: hands) := by
  have hout : ∀ q, outstanding (s.takeRef p).log q =
      outstanding s.log q + if p = q then 1 else 0 :=
    fun q => h.disciplined.balanced.outstanding_taken
  have hold : ∀ q, 0 < outstanding (s.takeRef p).log q → 0 < outstanding s.log q := by
    intro q hq
    rw [hout] at hq
    split_ifs at hq with hpq
    · rwa [← hpq]
    · exact hq
  refine ⟨h.disciplined.take hpos, fun q => ?_, fun q hq => h.alive q (hold q hq), fun q hq => ?_,
    fun q hq => ?_⟩
  · have hcov := h.covered q
    rw [hout, count_cons]
    simp only [beq_iff_eq]
    show holders s.files q + _ ≤ _
    omega
  · rw [hout]
    by_cases hpq : p = q
    · subst hpq
      have hcount := h.counted p hpos
      show (Function.update s.mem p.addr _ p.addr).refcount.toNat = _
      rw [update_self, if_pos rfl, toNat_add]
      simp only [toNat_ofNat]
      omega
    · show (Function.update s.mem p.addr _ q.addr).refcount.toNat = _
      rw [update_of_ne (h.addr_ne hpos (hold q hq) hpq), if_neg hpq]
      exact h.counted q (hold q hq)
  · rcases mem_cons.1 hq with heq | hmem
    · cases heq
      exact h.serial_lt p (taken_mem_of_pos hpos)
    · exact h.serial_lt q hmem

theorem refcount_eq_one (h : Accounted s hands) (hpos : 0 < outstanding s.log p) :
    (s.mem p.addr).refcount = 1#32 ↔ outstanding s.log p = 1 := by
  rw [← h.counted p hpos, ← toNat_inj]
  rfl

theorem outstanding_giveRef (s : FdState) (p q : FilePtr) :
    outstanding (s.giveRef p).log q = outstanding s.log q - if p = q then 1 else 0 :=
  outstanding_given

/-- A file whose last reference is given back has none left; the others keep theirs. -/
theorem ne_of_last (hone : outstanding s.log p = 1) (hq : 0 < outstanding (s.giveRef p).log q) :
    p ≠ q ∧ 0 < outstanding s.log q := by
  rw [outstanding_giveRef] at hq
  by_cases hpq : p = q
  · rw [← hpq, hone, if_pos rfl] at hq
    exact absurd hq (Nat.lt_irrefl 0)
  · rw [if_neg hpq] at hq
    exact ⟨hpq, hq⟩

theorem giveRef_counted (h : Accounted s hands) (hpos : 0 < outstanding s.log p)
    (hq : 0 < outstanding (s.giveRef p).log q) :
    ((s.giveRef p).mem q.addr).refcount.toNat = outstanding (s.giveRef p).log q := by
  rw [outstanding_giveRef] at hq ⊢
  by_cases hpq : p = q
  · subst hpq
    have hcount := h.counted p hpos
    show (Function.update s.mem p.addr _ p.addr).refcount.toNat = _
    rw [update_self, if_pos rfl, toNat_sub]
    simp only [toNat_ofNat]
    omega
  · rw [if_neg hpq] at hq ⊢
    show (Function.update s.mem p.addr _ q.addr).refcount.toNat = _
    rw [update_of_ne (h.addr_ne hpos hq hpq)]
    exact h.counted q hq

theorem giveRef_covered (h : Accounted s (p :: hands)) (q : FilePtr) :
    holders s.files q + hands.count q ≤ outstanding (s.giveRef p).log q := by
  have hcov := h.covered q
  rw [count_cons] at hcov
  simp only [beq_iff_eq] at hcov
  rw [outstanding_giveRef]
  omega

theorem free_alive (h : Accounted s hands) (hpos : 0 < outstanding s.log p)
    (hone : outstanding s.log p = 1) (hq : 0 < outstanding (s.giveRef p).log q) :
    Function.update s.live p.addr none q.addr = some q.serial := by
  obtain ⟨hpq, hq⟩ := ne_of_last hone hq
  rw [update_of_ne (h.addr_ne hpos hq hpq)]
  exact h.alive q hq

theorem giveRef_serial_lt (h : Accounted s hands) (hq : .taken q ∈ (s.giveRef p).log) :
    q.serial < s.serials :=
  h.serial_lt q (by simpa [FdState.giveRef] using hq)

/-- `fd_file_put` gives one reference back, and releases the file with the last one. -/
theorem put (h : Accounted s (p :: hands)) : Accounted (s.put p) hands := by
  have hpos := h.pos_of_hand mem_cons_self
  unfold FdState.put
  by_cases hone : (s.mem p.addr).refcount = 1#32
  · rw [if_pos hone]
    have hone' := (h.refcount_eq_one hpos).1 hone
    refine ⟨h.disciplined.release hone', fun q => ?_, fun q hq => ?_, fun q hq => ?_,
      fun q hq => ?_⟩
    · exact le_of_le_of_eq (h.giveRef_covered q) outstanding_released.symm
    · exact h.free_alive hpos hone' (lt_of_lt_of_eq hq outstanding_released)
    · exact (h.giveRef_counted hpos (lt_of_lt_of_eq hq outstanding_released)).trans
        outstanding_released.symm
    · exact h.giveRef_serial_lt (by simpa [FdState.callRelease, FdState.free] using hq)
  · rw [if_neg hone]
    refine ⟨h.disciplined.give hpos, h.giveRef_covered, fun q hq => ?_,
      fun q hq => h.giveRef_counted hpos hq, fun q hq => h.giveRef_serial_lt hq⟩
    rw [outstanding_giveRef] at hq
    exact h.alive q (by omega)

theorem newFile_not_taken (h : Accounted s hands) (a : Addr) : .taken (s.newFile a) ∉ s.log :=
  fun hmem => Nat.lt_irrefl s.serials (h.serial_lt _ hmem)

theorem outstanding_allocate (h : Accounted s hands) (a ops data : Addr) (q : FilePtr) :
    outstanding (s.allocate a ops data).log q =
      outstanding s.log q + if s.newFile a = q then 1 else 0 :=
  h.disciplined.balanced.outstanding_taken

theorem allocate {a : Addr} (h : Accounted s hands) (ha : s.live a = none) (ops data : Addr) :
    Accounted (s.allocate a ops data) (s.newFile a :: hands) := by
  have hnew := h.newFile_not_taken a
  have hout := h.outstanding_allocate a ops data
  -- nothing that has references is where the new file is
  have haddr : ∀ q, 0 < outstanding s.log q → q.addr ≠ a := by
    intro q hq heq
    have := h.alive q hq
    rw [heq, ha] at this
    cases this
  refine ⟨h.disciplined.create hnew, fun q => ?_, fun q hq => ?_, fun q hq => ?_, fun q hq => ?_⟩
  · have hcov := h.covered q
    rw [hout, count_cons]
    simp only [beq_iff_eq]
    show holders s.files q + _ ≤ _
    omega
  · show Function.update s.live a (some s.serials) q.addr = some q.serial
    rw [hout] at hq
    by_cases hq' : s.newFile a = q
    · rw [← hq']
      exact update_self ..
    · rw [if_neg hq'] at hq
      rw [update_of_ne (haddr q hq)]
      exact h.alive q hq
  · show (Function.update s.mem a ⟨1#32, ops, data⟩ q.addr).refcount.toNat = _
    rw [hout] at hq ⊢
    by_cases hq' : s.newFile a = q
    · rw [← hq', outstanding_eq_zero_of_not_mem hnew]
      show (Function.update s.mem a ⟨1#32, ops, data⟩ a).refcount.toNat = _
      rw [update_self, if_pos rfl]
      rfl
    · rw [if_neg hq'] at hq ⊢
      rw [update_of_ne (haddr q hq)]
      exact h.counted q hq
  · rcases mem_cons.1 hq with heq | hmem
    · cases heq
      exact Nat.lt_succ_self _
    · exact Nat.lt_succ_of_lt (h.serial_lt q hmem)

theorem discard (h : Accounted s (p :: hands)) (hone : outstanding s.log p = 1) :
    Accounted (s.discard p) hands := by
  have hpos := h.pos_of_hand mem_cons_self
  refine ⟨h.disciplined.give hpos, h.giveRef_covered, fun q hq => h.free_alive hpos hone hq,
    fun q hq => ?_, fun q hq => h.giveRef_serial_lt hq⟩
  obtain ⟨hpq, hq'⟩ := ne_of_last hone hq
  refine (h.counted q hq').trans ?_
  show outstanding s.log q = outstanding (s.giveRef p).log q
  rw [outstanding_giveRef, if_neg hpq]
  rfl

theorem fdFileGet (h : Accounted s hands) (hfew : ∀ p, outstanding s.log p < 2 ^ 31) (fd : Int) :
    Accounted (fdFileGet fd s).2 ((fdFileGet fd s).1.toList ++ hands) := by
  cases hs : slotOf fd with
  | none =>
    rw [fdFileGet_invalid hs]
    exact h
  | some i =>
    cases hf : s.files i with
    | none =>
      rw [fdFileGet_empty hs hf]
      exact (h.setLock i 1).setLock i 0
    | some p =>
      rw [fdFileGet_some hs hf]
      exact ((h.setLock i 1).takeRef (h.pos_of_slot hf) (hfew p)).setLock i 0

theorem fdClose (h : Accounted s hands) (fd : Int) : Accounted (fdClose fd s).2 hands := by
  cases hs : slotOf fd with
  | none =>
    rw [fdClose_invalid hs]
    exact h
  | some i =>
    have hswap := (h.setLock i 1).swap (f := none) i
    rw [FdState.files_setLock] at hswap
    cases hf : s.files i with
    | none =>
      rw [hf] at hswap
      rw [fdClose_empty hs hf]
      exact hswap
    | some p =>
      rw [hf] at hswap
      rw [fdClose_some hs hf]
      exact (hswap.setLock i 0).put

theorem replace {f : FilePtr} (h : Accounted s (f :: hands)) (j : Slot) :
    Accounted (s.replace j f) hands := by
  have hswap := ((h.setLock j 1).swap (f := some f) j).setLock j 0
  rw [FdState.files_setLock] at hswap
  unfold FdState.replace
  cases hf : s.files j with
  | none =>
    rw [hf] at hswap
    exact hswap
  | some old =>
    rw [hf] at hswap
    exact hswap.put

theorem dup2 (h : Accounted s hands) (hfew : ∀ p, outstanding s.log p < 2 ^ 31)
    (oldfd newfd : Int) : Accounted (dup2 oldfd newfd s).2 hands := by
  by_cases hvalid : slotOf oldfd = none ∨ slotOf newfd = none
  · rw [dup2_invalid hvalid]
    exact h
  obtain ⟨⟨i, ho⟩, ⟨j, hn⟩⟩ : (∃ i, slotOf oldfd = some i) ∧ ∃ j, slotOf newfd = some j := by
    simpa [Option.ne_none_iff_exists'] using not_or.1 hvalid
  by_cases heq : oldfd = newfd
  · subst heq
    rw [dup2_same ho]
    exact h
  have hget := h.fdFileGet hfew oldfd
  cases hr : LibTransistor.fdFileGet oldfd s with
  | mk r s' =>
    rw [hr] at hget
    cases r with
    | none =>
      rw [dup2_none ho hn heq hr]
      exact hget
    | some f =>
      rw [dup2_some ho hn heq hr]
      exact hget.replace j

theorem fdCreateFile (h : Accounted s hands) (fops data : Addr) {block : Option Addr}
    (hblock : ∀ a, block = some a → s.live a = none) :
    Accounted (fdCreateFile fops data block s).2 hands := by
  by_cases hops : fops = 0#64
  · rw [fdCreateFile_einval hops]
    exact h
  cases block with
  | none =>
    rw [fdCreateFile_enomem hops]
    exact h
  | some a =>
    have hnew := h.allocate (hblock a rfl) fops data
    rw [fdCreateFile_run data a s hops]
    split_ifs with hlt
    · -- what the slot held is lost
      have hswap := hnew.swap (f := some (s.newFile a)) ⟨probe s.fds 10 none, hlt⟩
      exact hswap.forget fun p => by rw [count_append]; exact Nat.le_add_left _ _
    · refine hnew.discard ?_
      rw [h.outstanding_allocate, outstanding_eq_zero_of_not_mem (h.newFile_not_taken a),
        if_pos rfl]

end Accounted

/-! ## Runs -/

/-- No file has as many as `2 ^ 31` references that were taken and not given back. -/
def FdWorld.FewReferences (w : FdWorld) : Prop := ∀ p, outstanding w.table.log p < 2 ^ 31

/-- The runs in which there are never too many references for an `int`. -/
def fdRuns : System FdWorld FdOp := fdSystem.restrict fun _ _ w' => w'.FewReferences

/-- A slot or a caller has the file. -/
def FdWorld.Owned (w : FdWorld) (p : FilePtr) : Prop :=
  (∃ i, (w.table.fds i).file = some p) ∨ p ∈ w.held

variable {w : FdWorld}

theorem accounted_initial (h : w.Initial) : Accounted w.table w.held := by
  have hzero : ∀ p, outstanding w.table.log p = 0 := fun p => by rw [h.log]; rfl
  refine ⟨by rw [h.log]; exact .nil, fun p => ?_, fun p hp => ?_, fun p hp => ?_, fun p hp => ?_⟩
  · have hfiles : ∀ i, w.table.files i ≠ some p := fun i hi => by
      unfold FdState.files at hi
      rw [h.fds i] at hi
      cases hi
    have hnone : holders w.table.files p = 0 := by
      unfold holders
      rw [Finset.card_eq_zero, Finset.filter_eq_empty_iff]
      exact fun i _ => hfiles i
    rw [hnone, h.held]
    exact Nat.zero_le _
  · rw [hzero] at hp
    exact absurd hp (Nat.lt_irrefl 0)
  · rw [hzero] at hp
    exact absurd hp (Nat.lt_irrefl 0)
  · rw [h.log] at hp
    cases hp

theorem accounted_exec {op : FdOp} (h : Accounted w.table w.held) (hfew : w.FewReferences)
    (hop : op.Allowed w) : Accounted (op.exec w).table (op.exec w).held := by
  cases op with
  | createFile fops data block =>
    refine h.fdCreateFile fops data fun a ha => ?_
    rw [ha] at hop
    exact hop
  | fileGet fd => exact h.fdFileGet hfew fd
  | filePut file =>
    cases file with
    | none => exact h
    | some p =>
      have hcons : Accounted w.table (p :: w.held.erase p) :=
        h.forget fun q => le_of_eq ((perm_cons_erase hop).count_eq q).symm
      show Accounted (fdFilePut (some p) w.table).2 (w.held.erase p)
      rw [fdFilePut_run]
      exact hcons.put
  | close fd => exact h.fdClose fd
  | dup2 oldfd newfd => exact h.dup2 hfew oldfd newfd

theorem accounted_of_reachable (hw : fdRuns.Reachable w) :
    Accounted w.table w.held ∧ w.FewReferences := by
  refine hw.invariant (P := fun w => Accounted w.table w.held ∧ w.FewReferences) ?_ ?_
  · intro w hinit
    refine ⟨accounted_initial hinit, fun p => ?_⟩
    rw [hinit.log]
    exact Nat.two_pow_pos 31
  · rintro w op _ ⟨h, hfew⟩ ⟨⟨hop, rfl⟩, hfew'⟩
    exact ⟨accounted_exec h hfew hop, hfew'⟩

/-- **No use after release.** In every state of every run, a file that a slot or a caller has is
not released and not freed, and its count is at least the number of its owners; and no file is
released twice. -/
theorem no_use_after_release {w : FdWorld} (hw : fdRuns.Reachable w) :
    (∀ p, w.Owned p → .released p ∉ w.table.log ∧ w.table.live p.addr = some p.serial ∧
      ((holders w.table.files p + w.held.count p : Nat) : Int) ≤
        (w.table.mem p.addr).refcount.toInt) ∧ ∀ p, w.table.log.count (.released p) ≤ 1 := by
  obtain ⟨h, hfew⟩ := accounted_of_reachable hw
  refine ⟨fun p hp => ?_, h.disciplined.count_released_le⟩
  have hpos : 0 < outstanding w.table.log p := by
    rcases hp with ⟨i, hi⟩ | hheld
    · exact h.pos_of_slot hi
    · exact h.pos_of_hand hheld
  refine ⟨fun hr => ?_, h.alive p hpos, ?_⟩
  · rw [(h.disciplined.outstanding_eq_zero hr).2] at hpos
    exact Nat.lt_irrefl 0 hpos
  · have hcount := h.counted p hpos
    have hlt := hfew p
    rw [toInt_eq_toNat_of_lt (by omega), hcount]
    exact Int.ofNat_le.2 (h.covered p)

theorem reachable_exec (hw : fdRuns.Reachable w) (op : FdOp) (hop : op.Allowed w)
    (hlen : (op.exec w).table.log.length < 2 ^ 31) : fdRuns.Reachable (op.exec w) :=
  .step op hw ⟨⟨hop, rfl⟩, fun p => lt_of_le_of_lt (outstanding_le_length _ p) hlen⟩

/-- A file is created, got by a caller and duplicated, and its first descriptor is closed. -/
def sharedFile : FdWorld :=
  (FdOp.close 10).exec ((FdOp.dup2 10 3).exec ((FdOp.fileGet 10).exec
    ((FdOp.createFile 1 0 (some 0x1000)).exec .empty)))

theorem sharedFile_kept : fdRuns.Reachable sharedFile ∧ sharedFile.Owned ⟨0x1000, 0⟩ ∧
    .released ⟨0x1000, 0⟩ ∉ sharedFile.table.log ∧
    2 ≤ (sharedFile.table.mem 0x1000).refcount.toInt := by
  have hw : fdRuns.Reachable sharedFile := by
    have h₁ := reachable_exec (.init FdWorld.initial_empty) (.createFile 1 0 (some 0x1000)) rfl
      (by decide +kernel)
    have h₂ := reachable_exec h₁ (.fileGet 10) trivial (by decide +kernel)
    have h₃ := reachable_exec h₂ (.dup2 10 3) trivial (by decide +kernel)
    exact reachable_exec h₃ (.close 10) trivial (by decide +kernel)
  have hp : sharedFile.Owned ⟨0x1000, 0⟩ := .inr (by decide +kernel)
  obtain ⟨hr, -, hcount⟩ := (no_use_after_release hw).1 _ hp
  exact ⟨hw, hp, hr, le_trans (by decide +kernel) hcount⟩

end LibTransistor
