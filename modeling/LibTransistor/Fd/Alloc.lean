import LibTransistor.Fd.Operations
import Mathlib.Data.Nat.Find

/-!
# Allocating a descriptor

`fd_create_file` is to put the new file into the first empty slot from 10 on (`Allocates`). Its loop
compares every slot with the one probed before it, since a compare-exchange that fails stores what
it found into `expected`.

`allocates_iff` says when that makes no difference: slot 10 is empty, or there is no empty slot and
no two neighbours hold the same file. `run_allocates_iff` is the same for each `fd_create_file` of a
run.
-/

namespace LibTransistor

/-! ## The specification -/

/-- The empty slot with the smallest index from 10 on. -/
structure FirstFree (fds : Slot → Fd) (i : Slot) : Prop where
  ge : 10 ≤ i.val
  empty : (fds i).file = none
  first : ∀ j : Slot, 10 ≤ j.val → j < i → (fds j).file ≠ none

/-- Every slot from 10 on is occupied. -/
def Full (fds : Slot → Fd) : Prop := ∀ i : Slot, 10 ≤ i.val → (fds i).file ≠ none

/-- `fd_create_file` returns the first empty slot and changes that slot only, and it returns
`-ENOSYS` and leaves the table alone exactly when there is none. -/
structure Allocates (fops data a : Addr) (s : FdState) : Prop where
  first : ∀ i, FirstFree s.fds i →
    (fdCreateFile fops data (some a) s).1 = i.val ∧
      (fdCreateFile fops data (some a) s).2.fds = (s.setFile i (some (s.newFile a))).fds
  full : (fdCreateFile fops data (some a) s).1 = -Errno.enosys ∧
    (fdCreateFile fops data (some a) s).2.fds = s.fds ↔ Full s.fds

/-- Slot 10 is empty, or all slots are taken and no two neighbours point at the same file. -/
def ProbeFinds (fds : Slot → Fd) : Prop :=
  (fds 10).file = none ∨ Full fds ∧
    ∀ i j : Slot, 10 ≤ i.val → j.val = i.val + 1 → samePtr (fds j).file (fds i).file = false

theorem exists_firstFree {fds : Slot → Fd} (h : ¬ Full fds) : ∃ i, FirstFree fds i := by
  classical
  have hex : ∃ n, ∃ hn : n < 1024, 10 ≤ n ∧ (fds ⟨n, hn⟩).file = none := by
    simp only [Full, not_forall, not_not] at h
    obtain ⟨i, hi, hnone⟩ := h
    exact ⟨i.val, i.isLt, hi, hnone⟩
  obtain ⟨hn, hge, hnone⟩ := Nat.find_spec hex
  refine ⟨⟨Nat.find hex, hn⟩, hge, hnone, fun j hj hlt hfree => ?_⟩
  exact Nat.find_min hex hlt ⟨j.isLt, hj, hfree⟩

/-! ## The loop -/

section Probe

variable {fds : Slot → Fd}

theorem samePtr_of_ne_none {p q : Option FilePtr} (hp : p = none) (hq : q ≠ none) :
    samePtr p q = false := by
  cases q with
  | none => exact absurd rfl hq
  | some q =>
    subst hp
    rfl

theorem probe_of_free (h : (fds 10).file = none) : probe fds 10 none = 10 := by
  unfold probe
  have h' : (fds ⟨10, by decide⟩).file = none := h
  rw [dif_pos (by decide), h']
  rfl

theorem probe_of_occupied (h : (fds 10).file ≠ none) :
    probe fds 10 none = probe fds 11 (fds 10).file := by
  rw [probe, dif_pos (by decide), if_neg]
  · rfl
  · have h' : (fds ⟨10, by decide⟩).file ≠ none := h
    cases hf : (fds ⟨10, by decide⟩).file with
    | none => exact absurd hf h'
    | some p => simp [samePtr]

theorem samePtr_of_probe {i j : Slot} (hr : probe fds (i.val + 1) (fds i).file = j.val) :
    ∃ k : Slot, i ≤ k ∧ j.val = k.val + 1 ∧ samePtr (fds j).file (fds k).file = true := by
  -- from the back of the table, since the loop moves towards it
  induction hn : 1024 - i.val generalizing i with
  | zero => omega
  | succ n ih =>
    rw [probe] at hr
    split_ifs at hr with hlt hsame
    · refine ⟨i, Fin.le_refl i, hr.symm, ?_⟩
      have hj : (⟨i.val + 1, hlt⟩ : Slot) = j := Fin.ext hr
      rw [← hj]
      exact hsame
    · obtain ⟨k, hk, hjk, hsame'⟩ := ih (i := ⟨i.val + 1, hlt⟩) hr (by simp only; omega)
      exact ⟨k, Fin.le_trans (Fin.le_def.2 (Nat.le_succ i.val)) hk, hjk, hsame'⟩
    · omega

theorem probe_of_distinct {i : Slot}
    (h : ∀ k j : Slot, i ≤ k → j.val = k.val + 1 → samePtr (fds j).file (fds k).file = false) :
    ¬ probe fds (i.val + 1) (fds i).file < 1024 := by
  intro hlt
  obtain ⟨k, hk, hj, hsame⟩ := samePtr_of_probe (j := ⟨_, hlt⟩) rfl
  rw [h k _ hk hj] at hsame
  cases hsame

theorem probe_of_same {i k j : Slot} (hk : i ≤ k) (hj : j.val = k.val + 1)
    (hsame : samePtr (fds j).file (fds k).file = true) :
    probe fds (i.val + 1) (fds i).file < 1024 := by
  induction hn : 1024 - i.val generalizing i with
  | zero => omega
  | succ n ih =>
    have hk' : i.val ≤ k.val := hk
    have hlt : i.val + 1 < 1024 := by omega
    rw [probe]
    split_ifs with hs
    · exact hlt
    · refine ih (i := ⟨i.val + 1, hlt⟩) ?_ (by simp only; omega)
      -- slot `k` is not `i`, where the comparison has just failed
      rcases Nat.lt_or_eq_of_le hk' with hgt | heq
      · exact Fin.le_def.2 hgt
      · have hik : i = k := Fin.ext heq
        have hij : (⟨i.val + 1, hlt⟩ : Slot) = j := Fin.ext (by simp only; omega)
        rw [hij, hik] at hs
        exact absurd hsame hs

end Probe

/-! ## When the first empty slot is found -/

section Create

variable {fops data a : Addr} {s : FdState}

theorem create_of_lt (data a : Addr) (hops : fops ≠ 0#64) (h : probe s.fds 10 none < 1024) :
    (fdCreateFile fops data (some a) s).1 = (probe s.fds 10 none : Nat) ∧
      (fdCreateFile fops data (some a) s).2.fds =
        (s.setFile ⟨probe s.fds 10 none, h⟩ (some (s.newFile a))).fds := by
  rw [fdCreateFile_run data a s hops, dif_pos h]
  exact ⟨rfl, rfl⟩

theorem create_of_not_lt (data a : Addr) (hops : fops ≠ 0#64) (h : ¬ probe s.fds 10 none < 1024) :
    (fdCreateFile fops data (some a) s).1 = -Errno.enosys ∧
      (fdCreateFile fops data (some a) s).2.fds = s.fds := by
  rw [fdCreateFile_run data a s hops, dif_neg h]
  exact ⟨rfl, rfl⟩

theorem natCast_ne_enosys (n : Nat) : (n : Int) ≠ -Errno.enosys := by
  unfold Errno.enosys
  omega

theorem full_of_allocates (hops : fops ≠ 0#64) (h : Allocates fops data a s)
    (h10 : (s.fds 10).file ≠ none) : Full s.fds := by
  by_contra hnot
  obtain ⟨i, hi⟩ := exists_firstFree hnot
  have hres := (h.first i hi).1
  by_cases hlt : probe s.fds 10 none < 1024
  · -- the slot found would be empty, and the one in front of it is not
    rw [(create_of_lt data a hops hlt).1, probe_of_occupied h10] at hres
    have hr : probe s.fds ((10 : Slot).val + 1) (s.fds 10).file = i.val := Int.ofNat.inj hres
    obtain ⟨k, hk, hik, hsame⟩ := samePtr_of_probe hr
    have hne := hi.first k hk (Fin.lt_def.2 (by omega))
    rw [samePtr_of_ne_none hi.empty hne] at hsame
    cases hsame
  · rw [(create_of_not_lt data a hops hlt).1] at hres
    exact natCast_ne_enosys i.val hres.symm

theorem allocates_of_free (hops : fops ≠ 0#64) (h10 : (s.fds 10).file = none) :
    Allocates fops data a s := by
  have hp := probe_of_free h10
  have hlt : probe s.fds 10 none < 1024 := by omega
  obtain ⟨hres, hfds⟩ := create_of_lt data a hops hlt
  constructor
  · intro i hi
    have h10i : i = ⟨probe s.fds 10 none, hlt⟩ := by
      by_contra hne
      refine hi.first 10 (Nat.le_refl 10) (Fin.lt_def.2 ?_) h10
      have hge := hi.ge
      have hval : i.val ≠ probe s.fds 10 none := fun h => hne (Fin.ext h)
      rw [hp] at hval
      exact Nat.lt_of_le_of_ne hge (Ne.symm hval)
    rw [hres, hfds, h10i]
    exact ⟨rfl, rfl⟩
  · constructor
    · rintro ⟨herr, -⟩
      exact absurd (hres.symm.trans herr) (natCast_ne_enosys _)
    · intro hfull
      exact absurd h10 (hfull 10 (Nat.le_refl 10))

theorem allocates_of_distinct (hops : fops ≠ 0#64) (hfull : Full s.fds)
    (hdistinct : ∀ i j : Slot, 10 ≤ i.val → j.val = i.val + 1 →
      samePtr (s.fds j).file (s.fds i).file = false) : Allocates fops data a s := by
  have hnot : ¬ probe s.fds 10 none < 1024 := by
    rw [probe_of_occupied (hfull 10 (Nat.le_refl 10))]
    exact probe_of_distinct (i := 10) hdistinct
  constructor
  · intro i hi
    exact absurd hi.empty (hfull i hi.ge)
  · exact ⟨fun _ => hfull, fun _ => create_of_not_lt data a hops hnot⟩

theorem allocates_iff (hops : fops ≠ 0#64) : Allocates fops data a s ↔ ProbeFinds s.fds := by
  constructor
  · intro h
    by_cases h10 : (s.fds 10).file = none
    · exact .inl h10
    have hfull := full_of_allocates hops h h10
    refine .inr ⟨hfull, fun i j hi hij => ?_⟩
    by_contra hsame
    have hlt : probe s.fds 10 none < 1024 := by
      rw [probe_of_occupied h10]
      exact probe_of_same (i := 10) hi hij (by simpa using hsame)
    have hres := (create_of_lt data a hops hlt).1
    exact natCast_ne_enosys _ (hres.symm.trans (h.full.2 hfull).1)
  · rintro (h10 | ⟨hfull, hdistinct⟩)
    · exact allocates_of_free hops h10
    · exact allocates_of_distinct hops hfull hdistinct

end Create

/-! ## Runs -/

namespace FdOp

/-- `P` holds of every `fd_create_file` of a run that gets as far as the table, in the state it
starts from. -/
def EachCreate (P : Addr → Addr → Addr → FdState → Prop) : List FdOp → FdWorld → Prop
  | [], _ => True
  | .createFile fops data (some a) :: ops, w =>
    (fops ≠ 0#64 → P fops data a w.table) ∧
      EachCreate P ops ((FdOp.createFile fops data (some a)).exec w)
  | op :: ops, w => EachCreate P ops (op.exec w)

theorem eachCreate_congr {P Q : Addr → Addr → Addr → FdState → Prop}
    (h : ∀ fops data a s, fops ≠ 0#64 → (P fops data a s ↔ Q fops data a s)) (ops : List FdOp)
    (w : FdWorld) : EachCreate P ops w ↔ EachCreate Q ops w := by
  induction ops generalizing w with
  | nil => exact Iff.rfl
  | cons op ops ih =>
    cases op with
    | createFile fops data block =>
      cases block with
      | none => exact ih _
      | some a =>
        exact and_congr ⟨fun hp hne => (h fops data a w.table hne).1 (hp hne),
          fun hq hne => (h fops data a w.table hne).2 (hq hne)⟩ (ih _)
    | fileGet _ | filePut _ | close _ | dup2 _ _ => exact ih _

end FdOp

/-- **Allocation in a run.** Every `fd_create_file` of a run allocates as it should exactly when
each of them finds slot 10 empty, or the table full and no two neighbours with the same file. -/
theorem run_allocates_iff (ops : List FdOp) (w : FdWorld) :
    FdOp.EachCreate Allocates ops w ↔ FdOp.EachCreate (fun _ _ _ s => ProbeFinds s.fds) ops w :=
  FdOp.eachCreate_congr (fun _ _ _ _ hops => allocates_iff hops) ops w

/-- The first file goes to slot 10, and the second to slot 12: slot 11 is compared with the first
file. -/
theorem secondFile_skips_slot :
    fdSystem.Reachable ((FdOp.createFile 1 0 (some 0x1000)).exec .empty) ∧
    FirstFree ((FdOp.createFile 1 0 (some 0x1000)).exec .empty).table.fds 11 ∧
    (fdCreateFile 1 0 (some 0x2000) ((FdOp.createFile 1 0 (some 0x1000)).exec .empty).table).1 = 12 ∧
    ¬ FdOp.EachCreate Allocates [.createFile 1 0 (some 0x1000), .createFile 1 0 (some 0x2000)]
      .empty := by
  have hreach : fdSystem.Reachable ((FdOp.createFile 1 0 (some 0x1000)).exec .empty) :=
    .step (.createFile 1 0 (some 0x1000)) (.init FdWorld.initial_empty) ⟨rfl, rfl⟩
  have hfree : FirstFree ((FdOp.createFile 1 0 (some 0x1000)).exec .empty).table.fds 11 :=
    ⟨by decide, by decide +kernel, by decide +kernel⟩
  have hres : (fdCreateFile 1 0 (some 0x2000)
      ((FdOp.createFile 1 0 (some 0x1000)).exec .empty).table).1 = 12 := by decide +kernel
  refine ⟨hreach, hfree, hres, fun h => ?_⟩
  have hfirst := ((h.2.1 (by decide)).first 11 hfree).1
  rw [hres] at hfirst
  exact absurd hfirst (by decide)

end LibTransistor
