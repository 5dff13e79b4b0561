import LibTransistor.Util.Hexdump
import LibTransistor.Util.Log

/-!
# `hexnum`

`hexnum` in `lib/util.c`. The digits of an `int` are stored in a buffer of 16 characters, from its
end down, until nothing is left of the number, and what is in front of them is passed to
`log_string`. A store outside of the buffer is a failure of its own.

It works for the positive numbers only (`hexnum_works_iff`). The shift copies the sign, so nothing
but `-1` is ever left of a negative number: the loop does not end, and leaves the buffer. Zero has
no digits at all. The length that is passed is wrong for every number (`hexnum_passes_outside`).
-/

namespace LibTransistor

open Fallible List Mem

/-! ## `util.c` -/

inductive HexnumError
  /-- A character is stored outside of `buf`. -/
  | outOfBounds
  | running
  deriving DecidableEq

structure HexnumState where
  /-- The stack from `buf` on. -/
  buf : Mem Byte
  i : Int
  num : BitVec 32

abbrev HexnumM := EStateM HexnumError HexnumState

/-- The size of `buf`. -/
def hexnumSize : Nat := 16

/-- `buf[i--] = c`. -/
def storeDown (c : Byte) : HexnumM Unit := do
  let s ← get
  failIf (s.i < 0 ∨ hexnumSize ≤ s.i) .outOfBounds
  modify fun s => { s with buf := Function.update s.buf s.i.toNat c, i := s.i - 1 }

/-- One round of the loop. -/
def storeDigit : HexnumM Unit := do
  let s ← get
  storeDown (nybble2hex ((s.num &&& 0xF).setWidth 8))
  modify fun s => { s with num := s.num.sshiftRight 4 }

/-- `for(; num; i--, num >>= 4)`. -/
def storeDigits (fuel : Nat) : HexnumM Unit :=
  whileLoop .running (fun s => s.num ≠ 0) storeDigit fuel

/-- The whole function, up to the call of `log_string`. -/
def hexnum (fuel : Nat) : HexnumM LogCall := do
  storeDigits fuel
  storeDown 0x78
  storeDown 0x30
  let s ← get
  return .logString (fun k => s.buf (s.i + 1 + k).toNat) (BitVec.ofInt 64 (16 - s.i))

/-- The state before the loop: `buf[15] = 0` and `i = 14`. -/
def HexnumState.start (stack : Mem Byte) (num : BitVec 32) : HexnumState :=
  ⟨Function.update stack 15 0, 14, num⟩

/-- `0x`, and the hexadecimal digits. -/
def hexText (n : Nat) : List Byte := ascii ('0' :: 'x' :: Nat.toDigits 16 n)

/-- **What `hexnum` is for.** The loop ends, nothing is stored outside of the buffer, and the string
that is passed is the number. -/
def HexnumWorks (stack : Mem Byte) (num : BitVec 32) : Prop :=
  ∃ fuel call s, hexnum fuel (.start stack num) = .ok call s ∧ call.message = hexText num.toNat

/-! ## The digits -/

/-- The digits of a number; zero has none. -/
def hexDigits (n : Nat) : List Byte := if n = 0 then [] else ascii (Nat.toDigits 16 n)

theorem nybble2hex_digitChar : ∀ d < 16,
    nybble2hex (BitVec.ofNat 8 d) = BitVec.ofNat 8 (Nat.digitChar d).toNat := by decide

theorem hexDigits_of_ne_zero {n : Nat} (h : n ≠ 0) :
    hexDigits n = hexDigits (n / 16) ++ [nybble2hex (BitVec.ofNat 8 (n % 16))] := by
  rw [nybble2hex_digitChar _ (Nat.mod_lt n (by decide))]
  unfold hexDigits
  rw [if_neg h, Nat.toDigits_eq_if (by decide)]
  by_cases hn : n < 16
  · rw [if_pos hn, if_pos (Nat.div_eq_of_lt hn), Nat.mod_eq_of_lt hn]
    rfl
  · rw [if_neg hn, if_neg (by omega)]
    exact map_append

theorem length_hexDigits_le {n k : Nat} (h : n < 16 ^ k) : (hexDigits n).length ≤ k := by
  unfold hexDigits
  split_ifs with hn
  · exact Nat.zero_le k
  · have hk : 0 < k := Nat.pos_of_ne_zero fun h0 => by subst h0; omega
    rw [ascii, length_map]
    exact (Nat.length_toDigits_le_iff (by decide) hk).2 h

theorem zero_not_mem_hexDigits (n : Nat) : 0 ∉ hexDigits n := by
  induction n using Nat.strongRecOn with
  | ind n ih =>
    by_cases h : n = 0
    · simp [hexDigits, h]
    · have hdigit : ∀ d < 16, 0 ≠ nybble2hex (BitVec.ofNat 8 d) := by decide
      rw [hexDigits_of_ne_zero h, mem_append, mem_singleton, not_or]
      exact ⟨ih (n / 16) (by omega), hdigit _ (Nat.mod_lt n (by decide))⟩

/-! ## The loop -/

/-- What is in the buffer behind character `i`: a text, its terminator, and the byte behind the
buffer. -/
structure HexnumState.Holds (s : HexnumState) (text : List Byte) (b : Byte) : Prop where
  i : s.i = 14 - text.length
  buf : s.buf.read (15 - text.length) (text.length + 2) = text ++ [0, b]

section Loop

variable {s : HexnumState} {text : List Byte} {b : Byte}

theorem storeDown_run (c : Byte) (h : s.Holds text b) (hlen : text.length ≤ 14) :
    ∃ t, storeDown c s = .ok () t ∧ t.Holds (c :: text) b ∧ t.num = s.num := by
  obtain ⟨hi, hbuf⟩ := h
  have hin : ¬ (s.i < 0 ∨ (hexnumSize : Int) ≤ s.i) := by
    unfold hexnumSize
    omega
  refine ⟨⟨Function.update s.buf s.i.toNat c, s.i - 1, s.num⟩, ?_, ⟨?_, ?_⟩, rfl⟩
  · rw [storeDown, get_bind_run, failIf_bind_of_not hin]
    rfl
  · show s.i - 1 = 14 - ((text.length + 1 : Nat) : Int)
    omega
  · rw [update_eq_write, show s.i.toNat = 15 - (c :: text).length by rw [length_cons]; omega,
      length_cons, read_write_singleton,
      show 15 - (text.length + 1) + 1 = 15 - text.length by omega, hbuf]
    rfl

theorem storeDigits_zero (fuel : Nat) (h : s.num = 0) : storeDigits (fuel + 1) s = .ok () s :=
  whileLoop_of_not (not_not.2 h)

theorem storeDigit_run (h : s.Holds text b) (hlen : text.length ≤ 14) :
    ∃ t, storeDigit s = .ok () t ∧ t.num = s.num.sshiftRight 4 ∧
      t.Holds (nybble2hex (BitVec.ofNat 8 (s.num.toNat % 16)) :: text) b := by
  have hdigit : (s.num &&& 0xF).setWidth 8 = BitVec.ofNat 8 (s.num.toNat % 16) := by
    apply BitVec.eq_of_toNat_eq
    exact congrArg (· % 2 ^ 8) (Nat.and_two_pow_sub_one_eq_mod s.num.toNat 4)
  obtain ⟨t, hrun, ht, hnum⟩ :=
    storeDown_run (nybble2hex (BitVec.ofNat 8 (s.num.toNat % 16))) h hlen
  refine ⟨{ t with num := t.num.sshiftRight 4 }, ?_, hnum ▸ rfl, ⟨ht.i, ht.buf⟩⟩
  rw [storeDigit, get_bind_run, hdigit, bind_of_ok hrun]
  rfl

/-- The digits of a number that is not negative are stored in front of the text. -/
theorem storeDigits_run (fuel : Nat) (h : s.Holds text b) (hnum : s.num.msb = false)
    (hfuel : s.num.toNat < 16 ^ fuel) (hlen : text.length + fuel ≤ 15) :
    ∃ t, storeDigits (fuel + 1) s = .ok () t ∧ t.Holds (hexDigits s.num.toNat ++ text) b := by
  induction fuel generalizing s text with
  | zero =>
    have h0 : s.num = 0 := BitVec.eq_of_toNat_eq (Nat.lt_one_iff.1 hfuel)
    exact ⟨s, storeDigits_zero 0 h0, by rw [h0]; exact h⟩
  | succ fuel ih =>
    by_cases h0 : s.num = 0
    · exact ⟨s, storeDigits_zero _ h0, by rw [h0]; exact h⟩
    have hne : s.num.toNat ≠ 0 := fun h => h0 (BitVec.eq_of_toNat_eq h)
    have hshift : (s.num.sshiftRight 4).toNat = s.num.toNat / 16 := by
      rw [BitVec.toNat_sshiftRight_of_msb_false hnum, Nat.shiftRight_eq_div_pow]
    obtain ⟨u, hstep, hu, hholds⟩ := storeDigit_run h (by omega)
    rw [← hu] at hshift
    have hmsb : u.num.msb = false := hu ▸ BitVec.msb_sshiftRight.trans hnum
    obtain ⟨t, hrun, ht⟩ := ih hholds hmsb (by omega) (by rw [length_cons]; omega)
    refine ⟨t, (whileLoop_of_ok (c := fun s : HexnumState => s.num ≠ 0) h0 hstep).trans hrun, ?_⟩
    rwa [hexDigits_of_ne_zero hne, append_assoc, ← hshift]

end Loop

/-! ## The call -/

section Calls

variable {stack : Mem Byte} {num : BitVec 32}

/-- What is passed to `log_string`: the text, its terminator, and the byte behind the buffer. -/
theorem hexnum_run (stack : Mem Byte) (num : BitVec 32) {ds : List Byte}
    (hds : ds = hexDigits num.toNat) (hnum : num.msb = false) :
    ∃ string len s, hexnum 9 (.start stack num) = .ok (.logString string len) s ∧
      string.read 0 len.toNat = 0x30 :: 0x78 :: ds ++ [0, stack 16] := by
  have hstart : (HexnumState.start stack num).Holds [] (stack 16) := ⟨rfl, rfl⟩
  have hlen : ds.length ≤ 8 := hds ▸ length_hexDigits_le num.isLt
  obtain ⟨s, hrun, hs⟩ := storeDigits_run 8 hstart hnum num.isLt (by decide)
  replace hs : s.Holds ds (stack 16) := by rwa [hds, ← append_nil (hexDigits num.toNat)]
  obtain ⟨t, hx, ht, -⟩ := storeDown_run 0x78 hs (by omega)
  obtain ⟨u, h0, ⟨hi, hbuf⟩, -⟩ := storeDown_run 0x30 ht (by rw [length_cons]; omega)
  refine ⟨_, _, u, (bind_of_ok hrun).trans ((bind_of_ok hx).trans ((bind_of_ok h0).trans rfl)), ?_⟩
  rw [length_cons, length_cons] at hi
  have hptr : ∀ k : Nat, (u.i + 1 + k).toNat = 15 - (ds.length + 2) + k := by omega
  have hcount : (BitVec.ofInt 64 (16 - u.i)).toNat = ds.length + 2 + 2 := by
    rw [show 16 - u.i = (ds.length + 2 + 2 : Nat) by omega, BitVec.ofInt_natCast,
      BitVec.toNat_ofNat, Nat.mod_eq_of_lt (by omega)]
  simp only [hptr]
  rw [hcount, read_shift]
  exact hbuf

theorem message_logString {string : Mem Byte} {len : BitVec 64} {text rest : List Byte}
    (htext : 0 ∉ text) (h : string.read 0 len.toNat = text ++ 0 :: rest) :
    (LogCall.logString string len).message = text := by
  show (string.read 0 len.toNat).takeWhile _ = text
  rw [h, takeWhile_append_of_pos, takeWhile_cons_of_neg (by decide), append_nil]
  intro b hb
  simpa using fun h0 : b = 0 => htext (h0 ▸ hb)

theorem storeDigit_keeps_sign : Keeps (fun s => s.num.msb = true) storeDigit := by
  have hstore : ∀ c, Keeps (fun s => s.num.msb = true) (storeDown c) := fun c =>
    .get_bind fun s => .bind (.failIf _) fun _ => .modify fun _ h => h
  refine .get_bind fun s => .bind (hstore _) fun _ => .modify fun t h => ?_
  exact BitVec.msb_sshiftRight.trans h

/-- A negative number stays negative, so the loop does not end. -/
theorem hexnum_ne_ok (hnum : num.msb = true) (fuel : Nat) (call : LogCall) (s : HexnumState) :
    hexnum fuel (.start stack num) ≠ .ok call s := by
  intro h
  obtain ⟨_, t, hloop, -⟩ := bind_eq_ok.1 h
  obtain ⟨hneg, hstop⟩ := whileLoop_exit storeDigit_keeps_sign hloop hnum
  simp [not_not.1 hstop] at hneg

theorem hexnum_zero (fuel : Nat) {call : LogCall} {s : HexnumState}
    (h : hexnum fuel (.start stack 0) = .ok call s) : call.message = [0x30, 0x78] := by
  obtain ⟨string, len, t, hrun, hread⟩ := hexnum_run stack 0 rfl rfl
  unfold hexnum at h hrun
  cases fuel with
  | zero => cases h
  | succ fuel =>
    rw [bind_of_ok (storeDigits_zero fuel rfl)] at h
    rw [bind_of_ok (storeDigits_zero 8 rfl), h] at hrun
    cases hrun
    exact message_logString (by decide) hread

/-- A positive number is passed with its terminator, and with the byte behind the buffer. -/
theorem hexnum_passes_outside (stack : Mem Byte) (h : 0 < num.toInt) :
    ∃ fuel string len s, hexnum fuel (.start stack num) = .ok (.logString string len) s ∧
      string.read 0 len.toNat = hexText num.toNat ++ [0, stack 16] ∧ 0 ∉ hexText num.toNat := by
  have hmsb : num.msb = false := by
    rw [BitVec.msb_eq_toInt]
    exact decide_eq_false (by omega)
  have hne : num.toNat ≠ 0 := by
    intro h0
    rw [BitVec.toInt_eq_toNat_of_msb hmsb, h0] at h
    exact absurd h (by decide)
  have htext : hexText num.toNat = 0x30 :: 0x78 :: hexDigits num.toNat := by
    rw [hexDigits, if_neg hne]
    rfl
  obtain ⟨string, len, s, hrun, hread⟩ := hexnum_run stack num rfl hmsb
  refine ⟨9, string, len, s, hrun, htext ▸ hread, ?_⟩
  rw [htext, mem_cons, mem_cons, not_or, not_or]
  exact ⟨by decide, by decide, zero_not_mem_hexDigits _⟩

/-- **The numbers that work.** -/
theorem hexnum_works_iff (stack : Mem Byte) (num : BitVec 32) :
    HexnumWorks stack num ↔ 0 < num.toInt := by
  constructor
  · rintro ⟨fuel, call, s, hrun, hmessage⟩
    by_contra hpos
    by_cases hneg : num.toInt < 0
    · exact hexnum_ne_ok (by rw [BitVec.msb_eq_toInt, decide_eq_true hneg]) fuel call s hrun
    · obtain rfl : num = 0#32 := BitVec.eq_of_toInt_eq (by rw [BitVec.toInt_zero]; omega)
      rw [hexnum_zero fuel hrun] at hmessage
      exact absurd hmessage (by decide)
  · intro hpos
    obtain ⟨fuel, string, len, s, hrun, hread, hnul⟩ := hexnum_passes_outside stack hpos
    exact ⟨fuel, _, s, hrun, message_logString hnul hread⟩

theorem hexnum_works_255 : HexnumWorks (fun _ => 0) 0xFF := (hexnum_works_iff _ _).2 (by decide)

/-- The sixteenth digit of `-1` is stored in front of the buffer. -/
theorem minusOne_leaves_buffer :
    ¬ HexnumWorks (fun _ => 0) (-1) ∧
      ∃ s, hexnum 16 (.start (fun _ => 0) (-1)) = .error .outOfBounds s := by
  refine ⟨?_, _, rfl⟩
  rintro ⟨fuel, call, s, hrun, -⟩
  exact hexnum_ne_ok (by decide) fuel call s hrun

end Calls

end LibTransistor
