import LibTransistor.Lib.Loop
import LibTransistor.Loader.Upload

/-!
# The command line

`func_args` in `projects/ace_loader/server.c`, and `nro_arg_name` and `nro_add_arg` in `nro.c`. The
parameter of the command is cut into strings in place, and each is copied to `nro_args`, behind
those before it. A store behind the end of `nro_args` or `nro_argv` is a failure of its own.

The line is split into the text up to its first blank, and the runs of other characters in the rest
(`funcArgs_splits`).
-/

namespace LibTransistor

open Fallible List Mem Function

/-! ## `nro.c` -/

def nroMaxArgBuf : Nat := 0x1000

def nroMaxArgs : Nat := 16

inductive ArgsError
  /-- A byte is stored behind `nro_args`, or a pointer behind `nro_argv`. -/
  | outOfBounds
  | running
  deriving DecidableEq

structure ArgsState where
  /-- The memory of the parameter. -/
  mem : Mem Byte
  par : Nat
  nroArgc : Nat
  /-- Offsets in `nro_args`, or NULL. -/
  nroArgv : Mem (Option Nat)
  nroArgs : Mem Byte
  /-- `nro_argoffs - nro_args`. -/
  nroArgoffs : Nat

abbrev ArgsM := EStateM ArgsError ArgsState

/-- `*par`. -/
def ArgsState.char (s : ArgsState) : Byte := s.mem s.par

/-- `par++`. -/
def ArgsState.next (s : ArgsState) : ArgsState := { s with par := s.par + 1 }

section Model

variable (fuel : Nat)

/-- `strcpy` and `strlen` look for the terminator in some bytes. -/
def nroAddArg (text : Nat) : ArgsM Unit := do
  let s ← get
  if s.nroArgc = nroMaxArgs then pure ()
  else do
    let bytes ← (stringAt (s.mem.read text fuel)).elim (throw .running) pure
    failIf (nroMaxArgBuf < s.nroArgoffs + (bytes.length + 1) ∨ nroMaxArgs < s.nroArgc + 1)
      .outOfBounds
    set { s with
      nroArgs := s.nroArgs.write s.nroArgoffs (bytes ++ [0])
      nroArgv := Function.update (Function.update s.nroArgv s.nroArgc (some s.nroArgoffs))
        (s.nroArgc + 1) none
      nroArgoffs := s.nroArgoffs + (bytes.length + 1)
      nroArgc := s.nroArgc + 1 }

def nroArgName (text : Nat) : ArgsM Unit := do
  modify fun s => { s with nroArgc := 0, nroArgoffs := 0 }
  nroAddArg fuel text

/-! ## `server.c` -/

/-- `while(*par && p(*par)) par++`. -/
def advance (p : Byte → Bool) : ArgsM Unit :=
  whileLoop .running (fun s => s.char ≠ 0 ∧ p s.char) (modify .next) fuel

/-- `*par = 0; par++`. -/
def cut : ArgsM Unit := modify fun s => { s.next with mem := Function.update s.mem s.par 0 }

/-- The loop over the arguments. -/
def parseArgs : Nat → ArgsM Unit
  | 0 => throw .running
  | n + 1 => do
    if (← get).char = 0 then pure ()
    else do
      advance fuel (· == 0x20)
      if (← get).char = 0 then pure ()
      else do
        let arg := (← get).par
        advance fuel (· != 0x20)
        if (← get).char = 0 then nroAddArg fuel arg
        else do
          cut
          nroAddArg fuel arg
          parseArgs n

/-- Without a parameter, the arguments are printed. -/
def funcArgs : Option Nat → ArgsM Unit
  | none => pure ()
  | some par => do
    modify fun s => { s with par := par }
    advance fuel (· != 0x20)
    if (← get).char ≠ 0 then do
      cut
      nroArgName fuel par
      parseArgs fuel fuel
    else nroArgName fuel par

end Model

/-! ## What it is for -/

/-- The runs of characters that are not blanks. -/
def argWords (text : List Byte) : List (List Byte) := (text.splitOnP (· == 0x20)).filter (· ≠ [])

/-- The strings of a command line. -/
def argTexts (text : List Byte) : List (List Byte) :=
  text.takeWhile (· != 0x20) :: argWords ((text.dropWhile (· != 0x20)).drop 1)

/-- `m` has a string at `p`. -/
def StringIn (m : Mem Byte) (p : Nat) (text : List Byte) : Prop :=
  m.read p (text.length + 1) = text ++ [0]

/-- **The arguments of a program.** Each pointer is to a copy in `nro_args`, the copies follow one
another, and the last pointer is NULL. -/
structure ArgsState.Describes (s : ArgsState) (ts : List (List Byte)) : Prop where
  argc : s.nroArgc = ts.length
  null : s.nroArgv ts.length = none
  copies : ∃ offs : Nat → Nat,
    (∀ i t, ts[i]? = some t → s.nroArgv i = some (offs i) ∧ StringIn s.nroArgs (offs i) t ∧
      offs i + (t.length + 1) ≤ nroMaxArgBuf) ∧
    ∀ i j t, ts[i]? = some t → i < j → j < ts.length → offs i + (t.length + 1) ≤ offs j

/-! ## Words -/

section Words

variable {us vs : List Byte}

theorem argWords_skip (hus : ∀ b ∈ us, b = 0x20) : argWords (us ++ vs) = argWords vs := by
  induction us with
  | nil => rfl
  | cons b us ih =>
    rw [hus b mem_cons_self, ← ih fun c hc => hus c (mem_cons_of_mem b hc)]
    rfl

theorem argWords_of_run (hne : us ≠ []) (hus : ∀ b ∈ us, b ≠ 0x20) : argWords us = [us] := by
  unfold argWords
  rw [splitOnP_eq_singleton (by simpa using hus), filter_cons_of_pos (by simpa), filter_nil]

theorem argWords_run_append (hne : us ≠ []) (hus : ∀ b ∈ us, b ≠ 0x20) :
    argWords (us ++ 0x20 :: vs) = us :: argWords vs := by
  unfold argWords
  rw [splitOnP_append_cons_of_forall_mem (by simpa using hus) _ rfl, filter_cons_of_pos (by simpa)]

theorem argTexts_of_run (hus : ∀ b ∈ us, b ≠ 0x20) : argTexts us = [us] := by
  have hname : us.takeWhile (· != 0x20) = us := takeWhile_eq_self_iff.2 (by simpa using hus)
  have hrest : us.dropWhile (· != 0x20) = [] := dropWhile_eq_nil_iff.2 (by simpa using hus)
  rw [argTexts, hname, hrest]
  rfl

theorem argTexts_run_append (hus : ∀ b ∈ us, b ≠ 0x20) :
    argTexts (us ++ 0x20 :: vs) = us :: argWords vs := by
  have hall : ∀ b ∈ us, (b != 0x20) = true := by simpa using hus
  rw [argTexts, takeWhile_append_of_pos hall, dropWhile_append_of_pos hall, takeWhile_cons_of_neg
    (by decide), append_nil]
  rfl

end Words

/-! ## The parameter -/

section Parameter

variable {m : Mem Byte} {p : Nat} {us vs text : List Byte} {s : ArgsState} {fuel : Nat}

theorem StringIn.append (us : List Byte) (h : StringIn m p (us ++ vs)) :
    StringIn m (p + us.length) vs := by
  unfold StringIn at h
  rw [← length_singleton, ← length_append, append_assoc] at h
  have hrest := (read_eq_append h).2
  rwa [length_append] at hrest

theorem StringIn.head {b : Byte} (h : StringIn m p (b :: text)) : m p = b := by
  unfold StringIn at h
  rw [read_succ] at h
  exact (cons.inj h).1

theorem StringIn.char_eq_zero_iff (h : StringIn s.mem s.par text) (h0 : 0 ∉ text) :
    s.char = 0 ↔ text = [] := by
  cases text with
  | nil => exact iff_of_true (cons.inj h).1 rfl
  | cons b text =>
    refine iff_of_false (fun hb => h0 ?_) (cons_ne_nil _ _)
    rw [← hb, ArgsState.char, h.head]
    exact mem_cons_self

/-- It stops at the end, or at the first character without the property. -/
theorem advance_run (q : Byte → Bool) (h : StringIn s.mem s.par text) (h0 : 0 ∉ text)
    (hfuel : text.length < fuel) :
    ∃ us vs, text = us ++ vs ∧ (∀ b ∈ us, q b) ∧ (∀ b ∈ vs.head?, q b = false) ∧
      advance fuel q s = .ok () { s with par := s.par + us.length } := by
  unfold advance
  induction text generalizing s fuel with
  | nil =>
    obtain ⟨fuel, rfl⟩ := Nat.exists_eq_add_of_lt hfuel
    refine ⟨[], [], rfl, by simp, by simp, whileLoop_of_not fun hc => ?_⟩
    exact hc.1 ((h.char_eq_zero_iff h0).2 rfl)
  | cons b text ih =>
    obtain ⟨fuel, rfl⟩ := Nat.exists_eq_add_of_lt hfuel
    have hb : s.char = b := h.head
    cases hq : q b with
    | true =>
      have hc : s.char ≠ 0 ∧ q s.char :=
        ⟨mt (h.char_eq_zero_iff h0).1 (cons_ne_nil b text), hb ▸ hq⟩
      have hnext : (modify .next : ArgsM Unit) s = .ok () s.next := rfl
      have hrest : StringIn s.next.mem s.next.par text := StringIn.append [b] h
      obtain ⟨us, vs, rfl, hus, hvs, hrun⟩ := ih hrest (fun h => h0 (mem_cons_of_mem b h))
        (Nat.lt_add_right fuel (Nat.lt_succ_self text.length))
      refine ⟨b :: us, vs, rfl, by simpa [hq] using hus, hvs, ?_⟩
      refine (whileLoop_of_ok (c := fun s => s.char ≠ 0 ∧ q s.char) hc hnext).trans (hrun.trans ?_)
      rw [length_cons, ← Nat.add_assoc, Nat.add_right_comm]
      rfl
    | false =>
      refine ⟨[], b :: text, rfl, by simp, by simpa using hq, whileLoop_of_not fun hc => ?_⟩
      simp [hb, hq] at hc

/-- The string in front of a character that becomes its terminator, and the one behind. -/
theorem StringIn.cut {b : Byte} (h : StringIn m p (us ++ b :: vs)) :
    StringIn (Function.update m (p + us.length) 0) p us ∧
      StringIn (Function.update m (p + us.length) 0) (p + us.length + 1) vs := by
  have hfront : m.read p us.length = us := by
    unfold StringIn at h
    rw [length_append, Nat.add_assoc, read_add] at h
    exact (append_inj (h.trans (append_assoc _ _ _)) (by simp)).1
  have hback : StringIn m (p + us.length + 1) vs := StringIn.append [b] (h.append us)
  unfold StringIn at hback ⊢
  rw [update_eq_write, read_add, read_write_of_le m _ (Nat.le_refl _), hfront, read_write_singleton,
    read_write_of_ge m (vs.length + 1) (Nat.le_refl (p + us.length + 1)), hback]
  exact ⟨rfl, rfl⟩

/-- What is up to the next blank: the whole text, or a string once the blank is overwritten. -/
theorem advance_word (h : StringIn s.mem s.par text) (h0 : 0 ∉ text) (hfuel : text.length < fuel) :
    ∃ t, (∀ b ∈ t, b ≠ 0x20) ∧ 0 ∉ t ∧
      advance fuel (· != 0x20) s = .ok () { s with par := s.par + t.length } ∧
      (text = t ∧ { s with par := s.par + t.length }.char = 0 ∨
        ∃ vs, text = t ++ 0x20 :: vs ∧ 0 ∉ vs ∧ { s with par := s.par + t.length }.char ≠ 0 ∧
          StringIn (Function.update s.mem (s.par + t.length) 0) s.par t ∧
          StringIn (Function.update s.mem (s.par + t.length) 0) (s.par + t.length + 1) vs) := by
  obtain ⟨t, vs, rfl, ht, hstop, hrun⟩ := advance_run (· != 0x20) h h0 hfuel
  rw [mem_append, not_or] at h0
  have hend := StringIn.char_eq_zero_iff (s := { s with par := s.par + t.length }) (h.append t) h0.2
  refine ⟨t, by simpa using ht, h0.1, hrun, ?_⟩
  cases vs with
  | nil => exact .inl ⟨append_nil t, hend.2 rfl⟩
  | cons b vs =>
    obtain rfl : b = 0x20 := by simpa using hstop
    exact .inr ⟨vs, rfl, fun h => h0.2 (mem_cons_of_mem _ h), mt hend.1 (cons_ne_nil _ _), h.cut⟩

end Parameter

/-! ## The arguments -/

/-- The copies. -/
def argBytes (ts : List (List Byte)) : List Byte := ts.flatMap (· ++ [0])

/-- The copies follow one another from the start of `nro_args`. -/
structure ArgsState.Stored (s : ArgsState) (ts : List (List Byte)) : Prop where
  count_le : ts.length ≤ nroMaxArgs
  argc : s.nroArgc = ts.length
  argv : ∀ i < ts.length, s.nroArgv i = some (argBytes (ts.take i)).length
  null : ts ≠ [] → s.nroArgv ts.length = none
  offs : s.nroArgoffs = (argBytes ts).length
  args : s.nroArgs.read 0 (argBytes ts).length = argBytes ts
  room : (argBytes ts).length ≤ nroMaxArgBuf

section Arguments

variable {s : ArgsState} {ts : List (List Byte)}

theorem argBytes_append (ts us : List (List Byte)) :
    argBytes (ts ++ us) = argBytes ts ++ argBytes us := flatMap_append

variable {t : List Byte}

theorem argBytes_take_succ {i : Nat} (h : ts[i]? = some t) :
    argBytes (ts.take (i + 1)) = argBytes (ts.take i) ++ (t ++ [0]) := by
  rw [take_add_one, h]
  simp [argBytes]

theorem length_argBytes_take_le (ts : List (List Byte)) {i j : Nat} (h : i ≤ j) :
    (argBytes (ts.take i)).length ≤ (argBytes (ts.take j)).length := by
  obtain ⟨k, rfl⟩ := Nat.exists_eq_add_of_le h
  rw [take_add, argBytes_append, length_append]
  exact Nat.le_add_right _ _

theorem ArgsState.Stored.describes (h : s.Stored ts) (hne : ts ≠ []) : s.Describes ts where
  argc := h.argc
  null := h.null hne
  copies := by
    refine ⟨fun i => (argBytes (ts.take i)).length, fun i t ht => ?_, fun i j t ht hij _ => ?_⟩
    · obtain ⟨hi, -⟩ := List.getElem?_eq_some_iff.1 ht
      have hsplit : argBytes ts =
          argBytes (ts.take i) ++ (t ++ [0]) ++ argBytes (ts.drop (i + 1)) := by
        rw [← argBytes_take_succ ht, ← argBytes_append, take_append_drop]
      have hargs := h.args
      have hroom := h.room
      rw [hsplit] at hargs hroom
      rw [length_append, length_append] at hroom
      have hcopy := read_mid _ _ _ hargs
      rw [length_append] at hcopy
      rw [length_append] at hroom
      exact ⟨h.argv i hi, hcopy, Nat.le_trans (Nat.le_add_right _ _) hroom⟩
    · have hle := length_argBytes_take_le ts (Nat.succ_le_of_lt hij)
      rwa [argBytes_take_succ ht, length_append, length_append] at hle

theorem nroAddArg_run {fuel arg : Nat} (hs : s.Stored ts) (ht : StringIn s.mem arg t) (h0 : 0 ∉ t)
    (hfuel : t.length < fuel) (hroom : s.nroArgoffs + t.length < nroMaxArgBuf) :
    ∃ s', nroAddArg fuel arg s = .ok () s' ∧ s'.Stored ((ts ++ [t]).take nroMaxArgs) ∧
      s'.mem = s.mem ∧ s'.par = s.par ∧ s'.nroArgoffs ≤ s.nroArgoffs + (t.length + 1) := by
  unfold nroAddArg
  rw [get_bind_run]
  by_cases hfull : s.nroArgc = nroMaxArgs
  · rw [if_pos hfull]
    refine ⟨s, rfl, ?_, rfl, rfl, Nat.le_add_right _ _⟩
    rwa [← hfull, hs.argc, take_left]
  · rw [if_neg hfull]
    have hlt : ts.length < nroMaxArgs := Nat.lt_of_le_of_ne hs.count_le (hs.argc ▸ hfull)
    have hstring : stringAt (s.mem.read arg fuel) = some t := by
      obtain ⟨k, rfl⟩ := Nat.exists_eq_add_of_le (Nat.succ_le_of_lt hfuel)
      rw [read_add, ht, append_assoc]
      exact stringAt_append_nul h0 _
    have hok : ¬ (nroMaxArgBuf < s.nroArgoffs + (t.length + 1) ∨ nroMaxArgs < s.nroArgc + 1) := by
      rw [hs.argc]
      omega
    rw [hstring]
    refine ⟨_, (bind_of_ok rfl).trans ((failIf_bind_of_not hok).trans rfl), ?_, rfl, rfl,
      Nat.le_refl _⟩
    have hbytes : argBytes (ts ++ [t]) = argBytes ts ++ (t ++ [0]) := by simp [argBytes]
    have hcount : (ts ++ [t]).length = ts.length + 1 := length_append
    have hargc := hs.argc
    rw [take_of_length_le (by omega)]
    constructor
    case count_le => omega
    case argc => exact hcount ▸ congrArg (· + 1) hs.argc
    case argv =>
      intro i hi
      rcases Nat.lt_succ_iff_lt_or_eq.1 (hcount ▸ hi) with hi | rfl
      · rw [take_append_of_le_length (Nat.le_of_lt hi), ← hs.argv i hi]
        exact (update_of_ne (by omega) _ _).trans (update_of_ne (by omega) _ _)
      · rw [take_left, ← hs.offs, ← hs.argc]
        exact (update_of_ne (by omega) _ _).trans (update_self ..)
    case null =>
      intro _
      rw [hcount, ← hs.argc]
      exact update_self ..
    case offs =>
      rw [hbytes, length_append, length_append, ← hs.offs]
      rfl
    case args =>
      rw [hbytes, length_append, read_add, Nat.zero_add, hs.offs,
        read_write_of_le _ _ (Nat.le_of_eq (Nat.zero_add _)), hs.args, read_write_self]
    case room =>
      rw [hbytes, length_append, length_append, ← hs.offs]
      show s.nroArgoffs + (t.length + 1) ≤ _
      omega

theorem ArgsState.Stored.moved (h : s.Stored ts) (m : Mem Byte) (p : Nat) :
    { s with mem := m, par := p }.Stored ts :=
  ⟨h.count_le, h.argc, h.argv, h.null, h.offs, h.args, h.room⟩

theorem ArgsState.Stored.take_append_nil (h : s.Stored ts) :
    s.Stored ((ts ++ []).take nroMaxArgs) := by
  rwa [append_nil, take_of_length_le h.count_le]

theorem take_append_take (n : Nat) (us vs : List (List Byte)) :
    (us.take n ++ vs).take n = (us ++ vs).take n := by
  rw [take_append, take_append, take_take, Nat.min_self, length_take]
  congr 2
  omega

theorem parseArgs_run {n fuel : Nat} {rest : List Byte} (hs : s.Stored ts)
    (hrest : StringIn s.mem s.par rest) (h0 : 0 ∉ rest) (hn : rest.length < n)
    (hfuel : rest.length < fuel) (hroom : s.nroArgoffs + rest.length < nroMaxArgBuf) :
    ∃ s', parseArgs fuel n s = .ok () s' ∧
      s'.Stored ((ts ++ argWords rest).take nroMaxArgs) := by
  induction n generalizing s ts rest with
  | zero => cases hn
  | succ n ih =>
    unfold parseArgs
    rw [get_bind_run]
    by_cases hnil : rest = []
    · subst hnil
      rw [if_pos ((hrest.char_eq_zero_iff h0).2 rfl)]
      exact ⟨s, rfl, hs.take_append_nil⟩
    obtain ⟨us, rest, rfl, hblank, hvis, hskip⟩ := advance_run (· == 0x20) hrest h0 hfuel
    rw [if_neg (mt (hrest.char_eq_zero_iff h0).1 hnil), bind_of_ok hskip, get_bind_run,
      argWords_skip (by simpa using hblank)]
    rw [mem_append, not_or] at h0
    rw [length_append] at hn hfuel hroom
    replace hrest := hrest.append us
    replace hs := hs.moved s.mem (s.par + us.length)
    have hend := StringIn.char_eq_zero_iff (s := { s with par := s.par + us.length }) hrest h0.2
    by_cases hnil : rest = []
    · rw [if_pos (hend.2 hnil), hnil]
      exact ⟨_, rfl, hs.take_append_nil⟩
    obtain ⟨t, hword, ht0, hskip, hcase⟩ := advance_word (s := { s with par := s.par + us.length })
      hrest h0.2 (show rest.length < fuel by omega)
    have hne : t ≠ [] := by
      rintro rfl
      obtain ⟨rfl, -⟩ | ⟨vs, rfl, -⟩ := hcase
      · exact hnil rfl
      · simp at hvis
    rw [if_neg (mt hend.1 hnil), get_bind_run, bind_of_ok hskip, get_bind_run]
    obtain ⟨rfl, hchar⟩ | ⟨vs, rfl, hvs0, hchar, hstring, hrest⟩ := hcase
    · rw [if_pos hchar, argWords_of_run hne hword]
      obtain ⟨s', hadd, hstored, -⟩ := nroAddArg_run
        (hs.moved s.mem (s.par + us.length + rest.length)) hrest ht0
        (show rest.length < fuel by omega) (show s.nroArgoffs + _ < _ by omega)
      exact ⟨s', hadd, hstored⟩
    · rw [length_append, length_cons] at hn hfuel hroom
      rw [if_neg hchar, argWords_run_append hne hword]
      obtain ⟨s', hadd, hstored, hmem, hpar, hoffs⟩ := nroAddArg_run
        (hs.moved _ (s.par + us.length + t.length + 1)) hstring ht0 (show t.length < fuel by omega)
        (show s.nroArgoffs + _ < _ by omega)
      replace hoffs : s'.nroArgoffs ≤ s.nroArgoffs + (t.length + 1) := hoffs
      obtain ⟨s'', hparse, hfinal⟩ := ih hstored (by rw [hmem, hpar]; exact hrest) hvs0 (by omega)
        (by omega) (by omega)
      rw [take_append_take, append_assoc] at hfinal
      exact ⟨s'', ((bind_of_ok rfl).trans (bind_of_ok hadd)).trans hparse, hfinal⟩

theorem nroArgName_run {fuel arg : Nat} (s : ArgsState) (ht : StringIn s.mem arg t)
    (h0 : 0 ∉ t) (hfuel : t.length < fuel) (hroom : t.length < nroMaxArgBuf) :
    ∃ s', nroArgName fuel arg s = .ok () s' ∧ s'.Stored [t] ∧ s'.mem = s.mem ∧ s'.par = s.par ∧
      s'.nroArgoffs ≤ t.length + 1 := by
  have hempty : { s with nroArgc := 0, nroArgoffs := 0 }.Stored [] :=
    ⟨Nat.zero_le _, rfl, fun i hi => absurd hi i.not_lt_zero, fun h => absurd rfl h, rfl, rfl,
      Nat.zero_le _⟩
  obtain ⟨s', hadd, hstored, hmem, hpar, hoffs⟩ := nroAddArg_run hempty ht h0 hfuel
    (by show 0 + _ < _; omega)
  exact ⟨s', (bind_of_ok rfl).trans hadd, hstored, hmem, hpar, hoffs.trans_eq (Nat.zero_add _)⟩

/-- **How a command line is split.** -/
theorem funcArgs_splits {s : ArgsState} {par fuel : Nat} {text : List Byte}
    (htext : StringIn s.mem par text) (h0 : 0 ∉ text) (hlen : text.length < recvBlockSize)
    (hfuel : recvBlockSize ≤ fuel) :
    ∃ s', funcArgs fuel (some par) s = .ok () s' ∧
      s'.Describes ((argTexts text).take nroMaxArgs) := by
  have hsize : recvBlockSize + recvBlockSize = nroMaxArgBuf := rfl
  obtain ⟨t, hword, ht0, hskip, hcase⟩ := advance_word (s := { s with par := par }) htext h0
    (show text.length < fuel by omega)
  rw [funcArgs, modify_bind_run, bind_of_ok hskip, get_bind_run]
  obtain ⟨rfl, hchar⟩ | ⟨vs, rfl, hvs0, hchar, hstring, hrest⟩ := hcase
  · rw [if_neg (not_not.2 hchar), argTexts_of_run hword]
    obtain ⟨s', hname, hstored, -⟩ := nroArgName_run { s with par := par + text.length } htext ht0
      (show text.length < fuel by omega) (by omega)
    exact ⟨s', hname, hstored.describes (cons_ne_nil _ _)⟩
  · rw [length_append, length_cons] at hlen
    rw [if_pos hchar, argTexts_run_append hword]
    obtain ⟨s₁, hname, hstored, hmem, hpar, hoffs⟩ := nroArgName_run
      { s with mem := Function.update s.mem (par + t.length) 0, par := par + t.length + 1 } hstring
      ht0 (show t.length < fuel by omega) (by omega)
    obtain ⟨s₂, hparse, hfinal⟩ := parseArgs_run hstored (by rw [hmem, hpar]; exact hrest) hvs0
      (show vs.length < fuel by omega) (show vs.length < fuel by omega) (by omega)
    exact ⟨s₂, ((bind_of_ok rfl).trans (bind_of_ok hname)).trans hparse,
      hfinal.describes (by simp [nroMaxArgs])⟩

end Arguments

/-- The parameter `" a  bc "`, at the start of the memory. -/
def commandLine : ArgsState :=
  ⟨Mem.write (fun _ => 0) 0 (ascii [' ', 'a', ' ', ' ', 'b', 'c', ' ']), 0, 0, fun _ => none,
    fun _ => 0, 0⟩

theorem commandLine_splits :
    StringIn commandLine.mem 0 (ascii [' ', 'a', ' ', ' ', 'b', 'c', ' ']) ∧
      argTexts (ascii [' ', 'a', ' ', ' ', 'b', 'c', ' ']) =
        [ascii [], ascii ['a'], ascii ['b', 'c']] ∧
      ∃ s', funcArgs recvBlockSize (some 0) commandLine = .ok () s' ∧
        s'.Describes ((argTexts (ascii [' ', 'a', ' ', ' ', 'b', 'c', ' '])).take nroMaxArgs) :=
  ⟨rfl, by decide, funcArgs_splits rfl (by decide) (by decide) (Nat.le_refl _)⟩

end LibTransistor
