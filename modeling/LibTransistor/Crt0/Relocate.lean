import LibTransistor.Lib.AddressSpace
import LibTransistor.Lib.Runs

/-!
# Relocating the module itself

`relocate` in `lib/crt0_common.c`, the first thing that a program does: it looks for the relocation
table in its own dynamic section and patches itself. The static variables that it sets are next to
the memory, not in it. `return true` is a failure here.

* `scanDynamic`, `patchTable` — the two loops; `relocate_eq_ok_iff` says what they accept and leave.
* `RelocationExact` — if the function returns false, everything is where it should be.

**Relocation is exact** (`relocation_exact_iff`) exactly if an accepted image names its table, has
nothing else in it from the start, and does not contradict itself. The code checks none of these:
`found_rela` is not looked at after the loop, the table is read while it is patched, and a second
`DT_INIT_ARRAY` is accepted if the first one was null.
-/

namespace LibTransistor

open Fallible List

/-! ## The dynamic section -/

/-- The tags that are told apart. -/
inductive DynTag
  | hash
  | strtab
  | symtab
  | rela
  | relasz
  | relaent
  | strsz
  | syment
  | symbolic
  | initArray
  | finiArray
  | initArraysz
  | finiArraysz
  | flags
  | relacount
  | unknown
  deriving DecidableEq

def DynTag.values : List (BitVec 64 × DynTag) :=
  [(4, hash), (5, strtab), (6, symtab), (7, rela), (8, relasz), (9, relaent), (10, strsz),
    (11, syment), (16, symbolic), (25, initArray), (26, finiArray), (27, initArraysz),
    (28, finiArraysz), (30, flags), (0x6ffffff9, relacount)]

structure Elf64Dyn where
  dTag : BitVec 64
  dVal : BitVec 64
  deriving DecidableEq

def Elf64Dyn.tag (e : Elf64Dyn) : DynTag := (DynTag.values.lookup e.dTag).getD .unknown

structure Elf64Rela where
  rOffset : BitVec 64
  rRelocType : BitVec 32
  rSymbol : BitVec 32
  rAddend : BitVec 64

/-- `R_AARCH64_RELATIVE`, without a symbol. -/
def Elf64Rela.Relative (r : Elf64Rela) : Prop := r.rRelocType = 0x403 ∧ r.rSymbol = 0

instance (r : Elf64Rela) : Decidable r.Relative := inferInstanceAs (Decidable (_ ∧ _))

variable (m : AddressSpace)

def dynAt (a : BitVec 64) : Elf64Dyn := ⟨m.load64 a, m.load64 (a + 8)⟩

/-- `rela_base[i]`. -/
def relaAddress (relaBase : BitVec 64) (i : Nat) : BitVec 64 := relaBase + BitVec.ofNat 64 i * 0x18

def relaAt (a : BitVec 64) : Elf64Rela :=
  ⟨m.load64 a, m.load32 (a + 8), m.load32 (a + 0xc), m.load64 (a + 0x10)⟩

/-! ## `relocate` -/

inductive RelocateFailure
  /-- `return true`. -/
  | refused
  /-- The end of the dynamic section has not been reached yet. -/
  | running

structure Crt0State where
  mem : AddressSpace
  initArray : BitVec 64
  finiArray : BitVec 64
  initArraySize : BitVec 64
  finiArraySize : BitVec 64
  /-- The tags that `dbg_printf` has reported. -/
  unknownTags : List (BitVec 64)

/-- The static variables as they are loaded. -/
def Crt0State.start : Crt0State := ⟨m, 0, 0, -1, -1, []⟩

/-- The local variables. -/
structure RelaLocals where
  relaOffset : BitVec 64
  relaSize : BitVec 64
  relaEnt : BitVec 64
  relaCount : BitVec 64
  foundRela : Bool

/-- `if(x != unset) return true; x = v;` for a static variable. -/
def setOnce (unset : BitVec 64) (x : Crt0State → BitVec 64) (put : Crt0State → Crt0State) :
    EStateM RelocateFailure Crt0State Unit := do
  failIf (x (← get) ≠ unset) .refused
  modify put

section Relocate

variable (aslrBase : BitVec 64)

/-- The body of the first loop. -/
def handleDynamic (dynamic : Elf64Dyn) (l : RelaLocals) :
    EStateM RelocateFailure Crt0State RelaLocals := do
  match dynamic.tag with
  | .hash | .strtab | .symtab | .strsz | .syment | .symbolic | .flags => return l
  | .rela =>
    failIf (l.foundRela = true) .refused
    return { l with relaOffset := dynamic.dVal, foundRela := true }
  | .relasz => return { l with relaSize := dynamic.dVal }
  | .relaent => return { l with relaEnt := dynamic.dVal }
  | .initArray =>
    setOnce 0 Crt0State.initArray fun s => { s with initArray := aslrBase + dynamic.dVal }
    return l
  | .finiArray =>
    setOnce 0 Crt0State.finiArray fun s => { s with finiArray := aslrBase + dynamic.dVal }
    return l
  | .initArraysz =>
    setOnce (-1) Crt0State.initArraySize fun s => { s with initArraySize := dynamic.dVal }
    return l
  | .finiArraysz =>
    setOnce (-1) Crt0State.finiArraySize fun s => { s with finiArraySize := dynamic.dVal }
    return l
  | .relacount => return { l with relaCount := dynamic.dVal }
  | .unknown =>
    modify fun s => { s with unknownTags := s.unknownTags ++ [dynamic.dTag] }
    return l

/-- `while(dynamic->d_tag > 0)`. -/
def scanDynamic : Nat → BitVec 64 → RelaLocals → EStateM RelocateFailure Crt0State RelaLocals
  | 0, _, _ => throw .running
  | fuel + 1, dynamic, l => do
    let e := dynAt (← get).mem dynamic
    if 0 < e.dTag.toInt then do
      let l ← handleDynamic aslrBase e l
      scanDynamic fuel (dynamic + 0x10) l
    else return l

/-- The store for an entry of the table. -/
def patchEntry (relaBase : BitVec 64) (i : Nat) (m : AddressSpace) : AddressSpace :=
  let rela := relaAt m (relaAddress relaBase i)
  m.store64 (aslrBase + rela.rOffset) (aslrBase + rela.rAddend)

/-- The second loop, over the indices that are left. -/
def patchTable (relaBase : BitVec 64) : List Nat → EStateM RelocateFailure Crt0State Unit
  | [] => pure ()
  | i :: is => do
    let rela := relaAt (← get).mem (relaAddress relaBase i)
    failIf (rela.rRelocType ≠ 0x403) .refused
    failIf (rela.rSymbol ≠ 0) .refused
    modify fun s => { s with mem := patchEntry aslrBase relaBase i s.mem }
    patchTable relaBase is

/-- `dynamic` before the first loop, by way of the module header. -/
def dynamicStart (m : AddressSpace) : BitVec 64 :=
  let modHeader := aslrBase + (m.load32 (aslrBase + 4)).setWidth 64
  modHeader + (m.load32 (modHeader + 4)).setWidth 64

def relocate (fuel : Nat) : EStateM RelocateFailure Crt0State Unit := do
  let l ← scanDynamic aslrBase fuel (dynamicStart aslrBase (← get).mem) ⟨0, 0, 0, 0, false⟩
  failIf (l.relaEnt ≠ 0x18) .refused
  failIf (l.relaSize ≠ l.relaCount * l.relaEnt) .refused
  patchTable aslrBase (aslrBase + l.relaOffset) (List.range l.relaCount.toNat)

end Relocate

/-! ## What it is for -/

/-- The entries from an address on, up to the first one with a tag that is not positive. -/
def IsDynamic (m : AddressSpace) : BitVec 64 → List Elf64Dyn → Prop
  | a, [] => (dynAt m a).dTag.toInt ≤ 0
  | a, e :: es => dynAt m a = e ∧ 0 < e.dTag.toInt ∧ IsDynamic m (a + 0x10) es

instance IsDynamic.decidable (m : AddressSpace) :
    (a : BitVec 64) → (es : List Elf64Dyn) → Decidable (IsDynamic m a es)
  | a, [] => inferInstanceAs (Decidable ((dynAt m a).dTag.toInt ≤ 0))
  | a, _ :: es =>
    haveI := IsDynamic.decidable m (a + 0x10) es
    inferInstanceAs (Decidable (_ ∧ _ ∧ _))

section Exact

variable (m : AddressSpace) (aslrBase : BitVec 64) (es : List Elf64Dyn)

/-- The values of the entries with a tag. -/
def valuesOf (k : DynTag) : List (BitVec 64) := (es.filter fun e => e.tag = k).map Elf64Dyn.dVal

/-- The last one counts. -/
def lastOf (k : DynTag) : BitVec 64 := (valuesOf es k).getLastD 0

/-- The number of relocations. -/
def relaCount : Nat := (lastOf es .relacount).toNat

/-- The table that `DT_RELA` names. -/
def relaTable : BitVec 64 := aslrBase + lastOf es .rela

/-- An entry of the table, before anything is patched. -/
def relaEntry (i : Nat) : Elf64Rela := relaAt m (relaAddress (relaTable aslrBase es) i)

/-- What the entry patches. -/
def relaTarget (i : Nat) : BitVec 64 := aslrBase + (relaEntry m aslrBase es i).rOffset

/-- The targets are disjoint and overlap neither the table nor the dynamic section. -/
structure TargetsApart : Prop where
  targets : ∀ i < relaCount es, ∀ j < relaCount es, i ≠ j →
    Disjoint (span (relaTarget m aslrBase es i) 8) (span (relaTarget m aslrBase es j) 8)
  table : ∀ i < relaCount es, ∀ j < relaCount es,
    Disjoint (span (relaTarget m aslrBase es i) 8)
      (span (relaAddress (relaTable aslrBase es) j) 0x18)
  dynamic : ∀ i < relaCount es, ∀ k ≤ es.length,
    Disjoint (span (relaTarget m aslrBase es i) 8)
      (span (dynamicStart aslrBase m + BitVec.ofNat 64 k * 0x10) 0x10)

/-- The memory differs only at the targets, and these point into the module. -/
structure Patched (m' : AddressSpace) : Prop where
  targets : ∀ i < relaCount es,
    m'.load64 (relaTarget m aslrBase es i) = aslrBase + (relaEntry m aslrBase es i).rAddend
  rest : ∀ x, (∀ i < relaCount es, x ∉ span (relaTarget m aslrBase es i) 8) → m' x = m x

/-- A variable is what the dynamic section says. -/
structure IsGiven (unset : BitVec 64) (vs : List (BitVec 64)) (x : BitVec 64) : Prop where
  missing : vs = [] → x = unset
  given : ∀ v ∈ vs, x = v

/-- Everything is where it should be. -/
structure Relocated (t : Crt0State) : Prop where
  named : relaCount es ≠ 0 → valuesOf es .rela ≠ []
  relative : ∀ i < relaCount es, (relaEntry m aslrBase es i).Relative
  patched : TargetsApart m aslrBase es → Patched m aslrBase es t.mem
  initArray : IsGiven 0 ((valuesOf es .initArray).map (aslrBase + ·)) t.initArray
  finiArray : IsGiven 0 ((valuesOf es .finiArray).map (aslrBase + ·)) t.finiArray
  initArraySize : IsGiven (-1) (valuesOf es .initArraysz) t.initArraySize
  finiArraySize : IsGiven (-1) (valuesOf es .finiArraysz) t.finiArraySize

/-- If the function returns false, everything is where it should be. -/
def RelocationExact : Prop :=
  ∀ fuel t, relocate aslrBase fuel (.start m) = .ok () t →
    ∃ es, IsDynamic m (dynamicStart aslrBase m) es ∧ Relocated m aslrBase es t

end Exact

/-! ## The first loop -/

section Scan

variable (m : AddressSpace) (aslrBase : BitVec 64) {es pre : List Elf64Dyn} {e : Elf64Dyn}

/-- The local variables after some entries. -/
def localsAfter (es : List Elf64Dyn) : RelaLocals :=
  ⟨lastOf es .rela, lastOf es .relasz, lastOf es .relaent, lastOf es .relacount,
    valuesOf es .rela ≠ []⟩

/-- `init_array` or `fini_array`, and the size of it. -/
def arrayAfter (es : List Elf64Dyn) (k : DynTag) : BitVec 64 :=
  ((valuesOf es k).map (aslrBase + ·)).getLastD 0

@[inherit_doc arrayAfter]
def arraySizeAfter (es : List Elf64Dyn) (k : DynTag) : BitVec 64 := (valuesOf es k).getLastD (-1)

/-- The static variables after some entries. -/
def staticsAfter (es : List Elf64Dyn) : Crt0State where
  mem := m
  initArray := arrayAfter aslrBase es .initArray
  finiArray := arrayAfter aslrBase es .finiArray
  initArraySize := arraySizeAfter es .initArraysz
  finiArraySize := arraySizeAfter es .finiArraysz
  unknownTags := (es.filter fun e => e.tag = .unknown).map Elf64Dyn.dTag

/-- An entry that sets what is set already. -/
def IsRepeated (pre : List Elf64Dyn) (e : Elf64Dyn) : Prop :=
  match e.tag with
  | .rela => valuesOf pre .rela ≠ []
  | .initArray => arrayAfter aslrBase pre .initArray ≠ 0
  | .finiArray => arrayAfter aslrBase pre .finiArray ≠ 0
  | .initArraysz => arraySizeAfter pre .initArraysz ≠ -1
  | .finiArraysz => arraySizeAfter pre .finiArraysz ≠ -1
  | _ => False

instance (pre : List Elf64Dyn) (e : Elf64Dyn) : Decidable (IsRepeated aslrBase pre e) := by
  unfold IsRepeated
  split <;> infer_instance

theorem setOnce_eq_ok {unset : BitVec 64} {x : Crt0State → BitVec 64} {put : Crt0State → Crt0State}
    {s t : Crt0State} : setOnce unset x put s = .ok () t ↔ ¬ x s ≠ unset ∧ t = put s := by
  unfold setOnce
  rw [get_bind_run, failIf_bind_eq_ok]
  exact and_congr_right fun _ => (pure_eq_ok).trans (and_iff_right rfl)

theorem valuesOf_concat (k : DynTag) :
    valuesOf (es ++ [e]) k = valuesOf es k ++ if e.tag = k then [e.dVal] else [] := by
  unfold valuesOf
  by_cases h : e.tag = k <;> simp [h]

theorem handleDynamic_eq_ok {l : RelaLocals} {t : Crt0State} :
    handleDynamic aslrBase e (localsAfter es) (staticsAfter m aslrBase es) = .ok l t ↔
      ¬ IsRepeated aslrBase es e ∧ l = localsAfter (es ++ [e]) ∧
        t = staticsAfter m aslrBase (es ++ [e]) := by
  unfold handleDynamic IsRepeated
  cases h : e.tag
  all_goals
    simp only [modify_bind_run, unit_bind_eq_ok, failIf_eq_ok, setOnce_eq_ok, pure_eq_ok]
    simp [localsAfter, staticsAfter, lastOf, arrayAfter, arraySizeAfter, valuesOf_concat, h]

/-- No entry sets what those before it have set. -/
def NoneRepeated (pre es : List Elf64Dyn) : Prop :=
  System.Allowed (fun e pre => pre ++ [e]) (fun pre e => ¬ IsRepeated aslrBase pre e) pre es

instance : Decidable (NoneRepeated aslrBase pre es) := inferInstanceAs (Decidable (System.Allowed ..))

/-- **The scan** accepts a dynamic section that it reaches the end of, unless an entry is
repeated. -/
theorem scanDynamic_eq_ok {fuel : Nat} {a : BitVec 64} {l : RelaLocals} {t : Crt0State} :
    scanDynamic aslrBase fuel a (localsAfter pre) (staticsAfter m aslrBase pre) = .ok l t ↔
      ∃ es, IsDynamic m a es ∧ es.length < fuel ∧ NoneRepeated aslrBase pre es ∧
        l = localsAfter (pre ++ es) ∧ t = staticsAfter m aslrBase (pre ++ es) := by
  induction fuel generalizing a pre with
  | zero =>
    refine iff_of_false (fun h => ?_) (fun ⟨es, _, hlt, _⟩ => Nat.not_lt_zero _ hlt)
    cases h
  | succ fuel ih =>
    unfold scanDynamic
    rw [get_bind_run]
    have hmem : (staticsAfter m aslrBase pre).mem = m := rfl
    rw [hmem]
    by_cases hpos : 0 < (dynAt m a).dTag.toInt
    · rw [if_pos hpos, bind_eq_ok]
      constructor
      · rintro ⟨l', u, hentry, hrest⟩
        obtain ⟨hnew, rfl, rfl⟩ := (handleDynamic_eq_ok m aslrBase).1 hentry
        obtain ⟨es, hes, hlt, hnone, hl, ht⟩ := ih.1 hrest
        rw [append_assoc] at hl ht
        exact ⟨_ :: es, ⟨rfl, hpos, hes⟩, Nat.succ_lt_succ hlt, ⟨hnew, hnone⟩, hl, ht⟩
      · rintro ⟨es, hes, hlt, hnone, rfl, rfl⟩
        cases es with
        | nil => exact absurd hpos (Int.not_lt.2 hes)
        | cons e es =>
          obtain ⟨rfl, -, hes⟩ := hes
          refine ⟨_, _, (handleDynamic_eq_ok m aslrBase).2 ⟨hnone.1, rfl, rfl⟩, ?_⟩
          refine ih.2 ⟨es, hes, Nat.lt_of_succ_lt_succ hlt, hnone.2, ?_⟩
          rw [append_assoc]
          exact ⟨rfl, rfl⟩
    · rw [if_neg hpos, pure_eq_ok]
      constructor
      · rintro ⟨rfl, rfl⟩
        refine ⟨[], Int.not_lt.1 hpos, Nat.succ_pos _, trivial, ?_⟩
        rw [append_nil]
        exact ⟨rfl, rfl⟩
      · rintro ⟨es, hes, -, -, hl, ht⟩
        cases es with
        | nil =>
          rw [append_nil] at hl ht
          exact ⟨hl, ht⟩
        | cons e es =>
          obtain ⟨rfl, hpos', -⟩ := hes
          exact absurd hpos' hpos

theorem isDynamic_unique {a : BitVec 64} {es' : List Elf64Dyn} (h : IsDynamic m a es)
    (h' : IsDynamic m a es') : es = es' := by
  induction es generalizing a es' with
  | nil =>
    cases es' with
    | nil => rfl
    | cons e' es' =>
      obtain ⟨rfl, hpos, -⟩ := h'
      exact absurd hpos (Int.not_lt.2 h)
  | cons e es ih =>
    obtain ⟨rfl, hpos, hes⟩ := h
    cases es' with
    | nil => exact absurd hpos (Int.not_lt.2 h')
    | cons e' es' =>
      obtain ⟨rfl, -, hes'⟩ := h'
      rw [ih hes hes']

end Scan

/-! ## The second loop -/

section Patch

variable {m m' : AddressSpace} {aslrBase relaBase a : BitVec 64} {es : List Elf64Dyn}

/-- Every entry is relative when it is its turn. -/
def RelativeInTurn (aslrBase relaBase : BitVec 64) (m : AddressSpace) (is : List Nat) : Prop :=
  System.Allowed (patchEntry aslrBase relaBase)
    (fun m i => (relaAt m (relaAddress relaBase i)).Relative) m is

instance {is : List Nat} : Decidable (RelativeInTurn aslrBase relaBase m is) :=
  inferInstanceAs (Decidable (System.Allowed ..))

/-- The memory after the patches. -/
def patchAll (aslrBase relaBase : BitVec 64) (m : AddressSpace) (is : List Nat) : AddressSpace :=
  System.after (patchEntry aslrBase relaBase) m is

theorem patchTable_eq_ok {is : List Nat} {s t : Crt0State} :
    patchTable aslrBase relaBase is s = .ok () t ↔
      RelativeInTurn aslrBase relaBase s.mem is ∧
        t = { s with mem := patchAll aslrBase relaBase s.mem is } := by
  induction is generalizing s with
  | nil =>
    show (pure () : EStateM _ _ _) s = _ ↔ _
    rw [pure_eq_ok]
    exact ⟨fun h => ⟨trivial, h.2⟩, fun h => ⟨rfl, h.2⟩⟩
  | cons i is ih =>
    unfold patchTable
    rw [get_bind_run, failIf_bind_eq_ok, failIf_bind_eq_ok, modify_bind_run, ih, not_not, not_not]
    constructor
    · rintro ⟨htype, hsymbol, hrest, rfl⟩
      exact ⟨⟨⟨htype, hsymbol⟩, hrest⟩, rfl⟩
    · rintro ⟨⟨⟨htype, hsymbol⟩, hrest⟩, rfl⟩
      exact ⟨htype, hsymbol, hrest, rfl⟩

theorem relaAt_congr (h : ∀ x ∈ span a 0x18, m x = m' x) : relaAt m a = relaAt m' a := by
  have hpart (k n : BitVec 64) (hk : k.toNat + n.toNat ≤ (0x18 : BitVec 64).toNat) :
      ∀ x ∈ span (a + k) n, m x = m' x :=
    fun x hx => h x (AddressSpace.span_add_subset hk hx)
  have hoffset : ∀ x ∈ span a 8, m x = m' x := by
    have h0 := hpart 0 8 (by decide)
    rwa [add_zero] at h0
  unfold relaAt
  rw [AddressSpace.load64_congr hoffset, AddressSpace.load32_congr (hpart 8 4 (by decide)),
    AddressSpace.load32_congr (hpart 0xc 4 (by decide)),
    AddressSpace.load64_congr (hpart 0x10 8 (by decide))]

/-- **Patches that keep apart.** After some of them, their targets point into the module, and the
rest is as it was. -/
theorem patchAll_apart (h : TargetsApart m aslrBase es) {n : Nat} (hn : n ≤ relaCount es) :
    (∀ i < n, (patchAll aslrBase (relaTable aslrBase es) m (List.range n)).load64
        (relaTarget m aslrBase es i) = aslrBase + (relaEntry m aslrBase es i).rAddend) ∧
      ∀ x, (∀ i < n, x ∉ span (relaTarget m aslrBase es i) 8) →
        patchAll aslrBase (relaTable aslrBase es) m (List.range n) x = m x := by
  induction n with
  | zero => exact ⟨fun i hi => absurd hi (Nat.not_lt_zero i), fun _ _ => rfl⟩
  | succ n ih =>
    obtain ⟨htargets, hrest⟩ := ih (Nat.le_of_succ_le hn)
    have hstep : patchAll aslrBase (relaTable aslrBase es) m (List.range (n + 1)) =
        patchEntry aslrBase (relaTable aslrBase es) n
          (patchAll aslrBase (relaTable aslrBase es) m (List.range n)) := by
      unfold patchAll System.after
      rw [range_succ, foldl_append]
      rfl
    rw [hstep]
    generalize patchAll aslrBase (relaTable aslrBase es) m (List.range n) = p at htargets hrest
    -- The entry itself has not been touched.
    have hentry : relaAt p (relaAddress (relaTable aslrBase es) n) = relaEntry m aslrBase es n := by
      refine relaAt_congr fun x hx => hrest x fun i hi hx' => ?_
      exact Set.disjoint_left.1 (h.table i (by omega) n hn) hx' hx
    have hstore : patchEntry aslrBase (relaTable aslrBase es) n p =
        p.store64 (relaTarget m aslrBase es n) (aslrBase + (relaEntry m aslrBase es n).rAddend) := by
      unfold patchEntry
      rw [hentry]
      rfl
    rw [hstore]
    constructor
    · intro i hi
      rcases Nat.lt_succ_iff_lt_or_eq.1 hi with hi | rfl
      · rw [← htargets i hi]
        refine AddressSpace.load64_congr fun x hx => p.store64_of_notMem _ fun hx' => ?_
        exact Set.disjoint_left.1 (h.targets i (by omega) n hn (Nat.ne_of_lt hi)) hx hx'
      · exact p.load64_store64 _
    · intro x hx
      rw [p.store64_of_notMem _ (hx n (Nat.lt_succ_self n))]
      exact hrest x fun i hi => hx i (Nat.lt_succ_of_lt hi)

end Patch

/-! ## The whole function -/

section Whole

variable {m : AddressSpace} {aslrBase : BitVec 64} {es : List Elf64Dyn}

/-- What the function accepts. -/
structure Accepted (m : AddressSpace) (aslrBase : BitVec 64) (es : List Elf64Dyn) : Prop where
  once : NoneRepeated aslrBase [] es
  ent : lastOf es .relaent = 0x18
  size : lastOf es .relasz = lastOf es .relacount * 0x18
  table : RelativeInTurn aslrBase (relaTable aslrBase es) m (List.range (relaCount es))

/-- The state that it leaves. -/
def relocatedState (m : AddressSpace) (aslrBase : BitVec 64) (es : List Elf64Dyn) : Crt0State :=
  { staticsAfter m aslrBase es with
    mem := patchAll aslrBase (relaTable aslrBase es) m (List.range (relaCount es)) }

theorem relocate_eq_ok_iff {fuel : Nat} {t : Crt0State} :
    relocate aslrBase fuel (.start m) = .ok () t ↔
      ∃ es, IsDynamic m (dynamicStart aslrBase m) es ∧ es.length < fuel ∧ Accepted m aslrBase es ∧
        t = relocatedState m aslrBase es := by
  have hscan {l : RelaLocals} {u : Crt0State} :
      scanDynamic aslrBase fuel (dynamicStart aslrBase m) (localsAfter [])
        (staticsAfter m aslrBase []) = .ok l u ↔ _ := scanDynamic_eq_ok m aslrBase
  unfold relocate
  rw [get_bind_run, bind_eq_ok]
  constructor
  · rintro ⟨l, u, hl, hrest⟩
    obtain ⟨es, hes, hlt, hnone, rfl, rfl⟩ := hscan.1 hl
    rw [failIf_bind_eq_ok, failIf_bind_eq_ok, patchTable_eq_ok, not_not, not_not] at hrest
    obtain ⟨hent, hsize, htable, rfl⟩ := hrest
    have hent' : lastOf es .relaent = 0x18 := hent
    have hsize' : lastOf es .relasz = lastOf es .relacount * lastOf es .relaent := hsize
    rw [hent'] at hsize'
    exact ⟨es, hes, hlt, ⟨hnone, hent', hsize', htable⟩, rfl⟩
  · rintro ⟨es, hes, hlt, hacc, rfl⟩
    refine ⟨_, _, hscan.2 ⟨es, hes, hlt, hacc.once, rfl, rfl⟩, ?_⟩
    rw [failIf_bind_eq_ok, failIf_bind_eq_ok, patchTable_eq_ok, not_not, not_not]
    refine ⟨hacc.ent, ?_, hacc.table, rfl⟩
    show lastOf es .relasz = lastOf es .relacount * lastOf es .relaent
    rw [hacc.ent]
    exact hacc.size

theorem isGiven_getLastD_iff {unset : BitVec 64} {vs : List (BitVec 64)} :
    IsGiven unset vs (vs.getLastD unset) ↔ ∀ u ∈ vs, ∀ v ∈ vs, u = v := by
  constructor
  · intro h u hu v hv
    exact (h.given u hu).symm.trans (h.given v hv)
  · intro h
    refine ⟨fun hnil => by rw [hnil]; rfl, fun v hv => ?_⟩
    have hne := ne_nil_of_mem hv
    rw [getLastD_eq_getLast?, getLast?_eq_some_getLast hne]
    exact h _ (getLast_mem hne) v hv

/-- What is asked of an image that is accepted: it names its table, there is nothing but
relocations in the table from the start, and it gives each array once. -/
structure ImageSound (m : AddressSpace) (aslrBase : BitVec 64) (es : List Elf64Dyn) : Prop where
  named : relaCount es ≠ 0 → valuesOf es .rela ≠ []
  relative : ∀ i < relaCount es, (relaEntry m aslrBase es i).Relative
  single : ∀ k ∈ [DynTag.initArray, .finiArray, .initArraysz, .finiArraysz],
    ∀ u ∈ valuesOf es k, ∀ v ∈ valuesOf es k, u = v

theorem isGiven_arrayAfter_iff {k : DynTag} :
    IsGiven 0 ((valuesOf es k).map (aslrBase + ·)) (arrayAfter aslrBase es k) ↔
      ∀ u ∈ valuesOf es k, ∀ v ∈ valuesOf es k, u = v := by
  unfold arrayAfter
  rw [isGiven_getLastD_iff]
  simp only [forall_mem_map, add_right_inj]

theorem relocated_iff :
    Relocated m aslrBase es (relocatedState m aslrBase es) ↔ ImageSound m aslrBase es := by
  constructor
  · intro h
    refine ⟨h.named, h.relative, ?_⟩
    simp only [forall_mem_cons, not_mem_nil, false_imp_iff, implies_true, and_true]
    exact ⟨isGiven_arrayAfter_iff.1 h.initArray, isGiven_arrayAfter_iff.1 h.finiArray,
      isGiven_getLastD_iff.1 h.initArraySize, isGiven_getLastD_iff.1 h.finiArraySize⟩
  · intro h
    have hsingle := h.single
    simp only [forall_mem_cons, not_mem_nil, false_imp_iff, implies_true,
      and_true] at hsingle
    obtain ⟨hinit, hfini, hinitSize, hfiniSize⟩ := hsingle
    refine ⟨h.named, h.relative, fun hapart => ?_, isGiven_arrayAfter_iff.2 hinit,
      isGiven_arrayAfter_iff.2 hfini, isGiven_getLastD_iff.2 hinitSize,
      isGiven_getLastD_iff.2 hfiniSize⟩
    obtain ⟨htargets, hrest⟩ := patchAll_apart hapart (Nat.le_refl _)
    exact ⟨htargets, hrest⟩

theorem RelocationExact.sound (h : RelocationExact m aslrBase)
    (hes : IsDynamic m (dynamicStart aslrBase m) es) (hacc : Accepted m aslrBase es) :
    ImageSound m aslrBase es := by
  have hrun := relocate_eq_ok_iff.2 ⟨es, hes, Nat.lt_succ_self _, hacc, rfl⟩
  obtain ⟨es', hes', hrelocated⟩ := h _ _ hrun
  rw [isDynamic_unique m hes' hes] at hrelocated
  exact relocated_iff.1 hrelocated

end Whole

/-- **Relocation is exact.** For every image and every load base, what the function leaves when it
returns false is right exactly if an image that it accepts is sound. -/
theorem relocation_exact_iff (m : AddressSpace) (aslrBase : BitVec 64) :
    RelocationExact m aslrBase ↔
      ∀ es, IsDynamic m (dynamicStart aslrBase m) es → Accepted m aslrBase es →
        ImageSound m aslrBase es := by
  constructor
  · intro h es hes hacc
    exact h.sound hes hacc
  · intro h fuel t hrun
    obtain ⟨es, hes, -, hacc, rfl⟩ := relocate_eq_ok_iff.1 hrun
    exact ⟨es, hes, relocated_iff.2 (h es hes hacc)⟩

/-- A module at 0x8000000 that begins with an entry of a table, with the dynamic section at 0x40. -/
def tableImage (es : List Elf64Dyn) : AddressSpace :=
  .ofWords 0x8000000 ([0x2000000000, 0x403, 0x30, 0, 0x2000000000, 0, 0, 0] ++
    es.flatMap fun e => [e.dTag, e.dVal])

/-- A dynamic section with the name of the table. -/
def namedTable : List Elf64Dyn := [⟨7, 0⟩, ⟨8, 0x18⟩, ⟨9, 0x18⟩, ⟨0x6ffffff9, 1⟩]

/-- One without it. -/
def unnamedTable : List Elf64Dyn := [⟨8, 0x18⟩, ⟨9, 0x18⟩, ⟨0x6ffffff9, 1⟩]

theorem namedTable_relocated :
    Accepted (tableImage namedTable) 0x8000000 namedTable ∧
      RelocationExact (tableImage namedTable) 0x8000000 := by
  have hes : IsDynamic (tableImage namedTable)
      (dynamicStart 0x8000000 (tableImage namedTable)) namedTable := by decide +kernel
  refine ⟨⟨by decide +kernel, by decide +kernel, by decide +kernel, by decide +kernel⟩, ?_⟩
  refine (relocation_exact_iff _ _).2 fun es hes' _ => ?_
  rw [isDynamic_unique _ hes' hes]
  refine ⟨fun _ => by decide, fun i hi => ?_, fun k hk u hu => ?_⟩
  · have hone : relaCount namedTable = 1 := by decide
    obtain rfl : i = 0 := by omega
    decide +kernel
  · have hnone : ∀ k ∈ [DynTag.initArray, .finiArray, .initArraysz, .finiArraysz],
      valuesOf namedTable k = [] := by decide
    rw [hnone k hk] at hu
    exact absurd hu not_mem_nil

/-- Without the name, the start of the module is taken for the table. -/
theorem unnamedTable_not_exact : ¬ RelocationExact (tableImage unnamedTable) 0x8000000 := by
  intro h
  have hes : IsDynamic (tableImage unnamedTable)
      (dynamicStart 0x8000000 (tableImage unnamedTable)) unnamedTable := by decide +kernel
  have hacc : Accepted (tableImage unnamedTable) 0x8000000 unnamedTable :=
    ⟨by decide +kernel, by decide +kernel, by decide +kernel, by decide +kernel⟩
  exact (h.sound hes hacc).named (by decide) (by decide)

end LibTransistor
