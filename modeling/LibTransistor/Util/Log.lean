import LibTransistor.Lib.Bytes
import LibTransistor.Lib.Loop

/-!
# The log

`log_string` and `dbg_printf` in `lib/util.c`. Every message is appended to `log_buffer`, an array
of fixed size in the data of the program, behind those of all earlier calls, and no call looks at
how much room is left. A store behind the end of the array is a failure of its own.

The log holds every message exactly if they fit into the array, with a newline behind each and the
terminator, and no `dbg_printf` has a longer text than its own buffer takes (`log_holds_iff`).
-/

namespace LibTransistor

open Fallible List Mem

/-! ## `util.c` -/

/-- The size of `log_buffer`. -/
def logBufferSize : Nat := 0x20000

inductive LogError
  /-- A byte is stored behind the end of `log_buffer`. -/
  | outOfBounds
  deriving DecidableEq

/-- What leaves the process. -/
inductive LogOutput
  | debugString (bytes : List Byte)
  | bsdSend (fd : Int) (bytes : List Byte)
  deriving DecidableEq

structure LogState where
  /-- `log_buffer` and `log_length`. -/
  log : Cursor Byte
  /-- `bsd_log`, the socket that messages are copied to, if it is not negative. -/
  bsdLog : Int
  output : List LogOutput

abbrev LogM := EStateM LogError LogState

variable (bsdLog : Int)

/-- The buffer is part of the data of the program and starts out as zeroes. -/
def LogState.start : LogState := ⟨⟨fun _ => 0, 0⟩, bsdLog, []⟩

/-- What is done to `log_buffer` and `log_length`. -/
def onLog {α : Type} (x : EStateM LogError (Cursor Byte) α) : LogM α :=
  zoom LogState.log (fun log s => { s with log := log }) x

/-- `log_buffer[log_length++] = c`. -/
def logByte (c : Byte) : LogM Unit := onLog (Cursor.emitWithin logBufferSize .outOfBounds c)

/-- `log_buffer[log_length] = 0`. -/
def logTerminate : LogM Unit := do
  let s ← get
  failIf (logBufferSize ≤ s.log.h) .outOfBounds
  set { s with log := ⟨Function.update s.log.buffer s.log.h 0, s.log.h⟩ }

/-- The loop of `log_string` with `n` bytes to go. -/
def logBytes (string : Mem Byte) : Nat → Nat → LogM Unit
  | 0, _ => pure ()
  | n + 1, i => if string i = 0 then pure () else do
    logByte (string i)
    logBytes string n (i + 1)

/-- `bsd_send(bsd_log, log_buffer + start, log_length - start, 0)`, if there is a socket. The
result is not looked at. What a failed send dumps goes to the log by further calls. -/
def logSend (start : Nat) : LogM Unit := modify fun s =>
  if 0 ≤ s.bsdLog then
    { s with
      output := s.output ++ [.bsdSend s.bsdLog (s.log.buffer.read start (s.log.h - start))] }
  else s

variable (string : Mem Byte)

def logString (len : BitVec 64) : LogM (BitVec 32) := do
  modify fun s => { s with output := s.output ++ [.debugString (string.read 0 len.toNat)] }
  let start := (← get).log.h
  logBytes string len.toNat 0
  logByte newline
  logSend start
  logTerminate
  return 4

/-- How many characters `dbg_vsnprintf(buf, 511, ...)` keeps. -/
def printfKept : Nat := 510

/-- `dbg_printf`, given the text that the format and the arguments stand for. `stack` is what `buf`
holds before. -/
def dbgPrintf (stack : Mem Byte) (text : List Byte) : LogM (BitVec 32) := do
  let buf := stack.write 0 (text.take printfKept ++ [0])
  let ret := (text.take printfKept).length
  let _ ← logString buf (BitVec.ofNat 64 (ret + 1))
  return BitVec.ofNat 32 ret

/-! ## Sequences of calls -/

inductive LogCall
  | logString (string : Mem Byte) (len : BitVec 64)
  | dbgPrintf (stack : Mem Byte) (text : List Byte)

namespace LogCall

def run : LogCall → LogM (BitVec 32)
  | logString string len => LibTransistor.logString string len
  | dbgPrintf stack text => LibTransistor.dbgPrintf stack text

/-- The message, cut at its first NUL. -/
def message : LogCall → List Byte
  | logString string len => (string.read 0 len.toNat).takeWhile (· ≠ 0)
  | dbgPrintf _ text => text.takeWhile (· ≠ 0)

/-- What a call appends for its message. -/
def kept : LogCall → List Byte
  | logString string len => (string.read 0 len.toNat).takeWhile (· ≠ 0)
  | dbgPrintf _ text => (text.take printfKept).takeWhile (· ≠ 0)

end LogCall

/-- Calls one after the other. -/
def runLog : List LogCall → LogM Unit
  | [] => pure ()
  | call :: calls => do
    let _ ← call.run
    runLog calls

variable (calls : List LogCall)

/-- The messages one after the other, with a newline behind each. -/
def messages : List Byte := calls.flatMap fun call => call.message ++ [newline]

/-- **What the log is for.** No byte is stored behind the end of the buffer, and the buffer holds all
messages, each with a newline behind it, and then a terminator. -/
def LogHolds : Prop :=
  ∃ s, runLog calls (.start bsdLog) = .ok () s ∧ s.log.h < logBufferSize ∧
    s.log.buffer.read 0 s.log.h = messages calls ∧ s.log.buffer s.log.h = 0

/-! ## One call -/

theorem onLog_bind {α β : Type} (x : EStateM LogError (Cursor Byte) α)
    (f : α → EStateM LogError (Cursor Byte) β) :
    onLog (x >>= f) = onLog x >>= fun a => onLog (f a) :=
  zoom_bind (fun _ _ => rfl) fun _ _ _ => rfl

theorem logBytes_eq (n i : Nat) : logBytes string n i =
    onLog (Cursor.emitAllWithin logBufferSize .outOfBounds
      ((string.read i n).takeWhile (· ≠ 0))) := by
  induction n generalizing i with
  | zero => rfl
  | succ n ih =>
    rw [logBytes, read_succ]
    by_cases h : string i = 0
    · rw [if_pos h, takeWhile_cons_of_neg (by simpa using h)]
      rfl
    · rw [if_neg h, takeWhile_cons_of_pos (by simpa using h), ih, Cursor.emitAllWithin,
        onLog_bind]
      rfl

theorem logBytes_newline (n : Nat) (f : Unit → LogM (BitVec 32)) :
    (logBytes string n 0 >>= fun _ => logByte newline >>= f) =
      onLog (Cursor.emitAllWithin logBufferSize .outOfBounds
        ((string.read 0 n).takeWhile (· ≠ 0) ++ [newline])) >>= f := by
  rw [Cursor.emitAllWithin_append, Cursor.emitAllWithin_singleton, logBytes_eq, onLog_bind,
    bind_assoc]
  rfl

/-- The log holds a text. -/
structure LogState.Holds (s : LogState) (text : List Byte) : Prop where
  length : s.log.h = text.length
  fits : text.length < logBufferSize
  content : s.log.buffer.read 0 text.length = text
  terminated : s.log.buffer text.length = 0

section Call

variable {s : LogState} {text : List Byte} {string : Mem Byte} {len : BitVec 64}

theorem logTerminate_run (h : s.log.h < logBufferSize) : logTerminate s =
    .ok () { s with log := ⟨Function.update s.log.buffer s.log.h 0, s.log.h⟩ } := by
  unfold logTerminate
  rw [get_bind_run, failIf_bind_of_not (Nat.not_le.2 h)]
  rfl

theorem logTerminate_full (h : logBufferSize ≤ s.log.h) : logTerminate s = .error .outOfBounds s := by
  unfold logTerminate
  rw [get_bind_run, failIf_bind_of h]

theorem logSend_run (start : Nat) (s : LogState) :
    ∃ t, logSend start s = .ok () t ∧ t.log = s.log := by
  refine ⟨_, rfl, ?_⟩
  dsimp only
  split_ifs <;> rfl

theorem onLog_run {ws : List Byte} (h : s.log.h + ws.length ≤ logBufferSize) :
    onLog (Cursor.emitAllWithin logBufferSize .outOfBounds ws) s =
      .ok () { s with log := s.log.append ws } := zoom_of_ok (Cursor.emitAllWithin_run h)

theorem onLog_full {ws : List Byte} (hs : s.log.h ≤ logBufferSize)
    (h : logBufferSize < s.log.h + ws.length) :
    ∃ t, onLog (Cursor.emitAllWithin logBufferSize .outOfBounds ws) s = .error .outOfBounds t := by
  obtain ⟨c, hfull⟩ := Cursor.emitAllWithin_full hs h
  exact ⟨_, zoom_of_error hfull⟩

theorem logString_eq (string : Mem Byte) (len : BitVec 64) (s : LogState) :
    ∃ u : LogState, u.log = s.log ∧ logString string len s =
      (onLog (Cursor.emitAllWithin logBufferSize .outOfBounds
        ((string.read 0 len.toNat).takeWhile (· ≠ 0) ++ [newline])) >>= fun _ =>
          logSend s.log.h >>= fun _ => logTerminate >>= fun _ => pure 4) u := by
  refine ⟨{ s with output := s.output ++ [.debugString (string.read 0 len.toNat)] }, rfl, ?_⟩
  unfold logString
  rw [modify_bind_run, get_bind_run, logBytes_newline]

variable {line : List Byte}

theorem LogState.Holds.append {c : Cursor Byte} (h : s.Holds text)
    (hfits : (text ++ line).length < logBufferSize) (hc : c = s.log.append line) (t : LogState) :
    Holds { t with log := ⟨Function.update c.buffer c.h 0, c.h⟩ } (text ++ line) := by
  have hhead : c.h = (text ++ line).length := by
    rw [hc, Cursor.append_h, h.length, length_append]
  have hcell (i : Nat) (hi : i < (text ++ line).length) :
      Function.update c.buffer c.h 0 (0 + i) = s.log.buffer.write text.length line (0 + i) := by
    rw [Function.update_of_ne (by omega), hc, ← h.length]
    rfl
  refine ⟨hhead, hfits, ?_, ?_⟩
  · rw [read_congr hcell, length_append, read_add, Nat.zero_add, read_write_self]
    congr 1
    refine (read_congr fun i hi => ?_).trans h.content
    exact write_of_lt _ _ (by omega)
  · rw [← hhead]
    exact Function.update_self _ _ _

/-- A message that fits is appended, with its newline, and the log is terminated again. -/
theorem logString_run (hline : (string.read 0 len.toNat).takeWhile (· ≠ 0) ++ [newline] = line)
    (h : s.Holds text) (hfits : (text ++ line).length < logBufferSize) :
    ∃ t, logString string len s = .ok 4 t ∧ t.Holds (text ++ line) := by
  obtain ⟨u, hu, hrun⟩ := logString_eq string len s
  obtain ⟨v, hsend, hv⟩ := logSend_run s.log.h { u with log := u.log.append line }
  have hhead : v.log.h = (text ++ line).length := by
    rw [hv, Cursor.append_h, hu, h.length, length_append]
  have hroom : u.log.h + line.length ≤ logBufferSize := by
    rw [hu, h.length, ← length_append]
    exact Nat.le_of_lt hfits
  refine ⟨_, ?_, h.append hfits (hv.trans (by rw [hu])) v⟩
  rw [hrun, hline, bind_of_ok (onLog_run hroom), bind_of_ok hsend,
    bind_of_ok (logTerminate_run (hhead ▸ hfits))]
  rfl

/-- And one that does not fit is stored behind the end of the buffer. -/
theorem logString_full (hline : (string.read 0 len.toNat).takeWhile (· ≠ 0) ++ [newline] = line)
    (h : s.Holds text) (hfull : logBufferSize ≤ (text ++ line).length) :
    ∃ t, logString string len s = .error .outOfBounds t := by
  obtain ⟨u, hu, hrun⟩ := logString_eq string len s
  have hhead : u.log.h = text.length := by rw [hu, h.length]
  rw [length_append, ← hhead] at hfull
  rw [hrun, hline]
  rcases Nat.lt_or_ge logBufferSize (u.log.h + line.length) with hlt | hge
  · obtain ⟨t, hstore⟩ := onLog_full (hhead ▸ Nat.le_of_lt h.fits) hlt
    exact ⟨t, bind_of_error hstore⟩
  -- the message takes up the last byte, and only the terminator is too much
  · obtain ⟨v, hsend, hv⟩ := logSend_run s.log.h { u with log := u.log.append line }
    have hlast : logBufferSize ≤ v.log.h := by
      rw [hv]
      exact hfull
    exact ⟨v, by rw [bind_of_ok (onLog_run hge), bind_of_ok hsend,
      bind_of_error (logTerminate_full hlast)]⟩

end Call

/-! ## Calls -/

section Calls

variable {s : LogState} {text : List Byte} (call : LogCall)

/-- What a call appends. -/
def LogCall.line : List Byte := call.kept ++ [newline]

theorem printf_kept (stack : Mem Byte) (text : List Byte) :
    ((stack.write 0 (text.take printfKept ++ [0])).read 0
      (BitVec.ofNat 64 ((text.take printfKept).length + 1)).toNat).takeWhile (· ≠ 0) =
      (text.take printfKept).takeWhile (· ≠ 0) := by
  have hlength : (text.take printfKept).length + 1 < 2 ^ 64 := by
    rw [length_take]
    unfold printfKept
    omega
  have hself := read_write_self stack 0 (text.take printfKept ++ [0])
  rw [length_append] at hself
  rw [BitVec.toNat_ofNat, Nat.mod_eq_of_lt hlength]
  refine (congrArg _ hself).trans ?_
  rw [takeWhile_append]
  split_ifs with hall
  · rw [takeWhile_cons_of_neg (by decide), append_nil]
    exact (( takeWhile_prefix _).eq_of_length hall).symm
  · rfl

theorem LogCall.run_ends (h : s.Holds text) :
    ((text ++ call.line).length < logBufferSize →
      ∃ r t, call.run s = .ok r t ∧ t.Holds (text ++ call.line)) ∧
    (logBufferSize ≤ (text ++ call.line).length →
      ∃ t, call.run s = .error .outOfBounds t) := by
  cases call with
  | logString string len =>
    constructor
    · intro hfits
      obtain ⟨t, hrun, ht⟩ := logString_run rfl h hfits
      exact ⟨4, t, hrun, ht⟩
    · exact fun hfull => logString_full rfl h hfull
  | dbgPrintf stack message =>
    have hline := congrArg (· ++ [newline]) (printf_kept stack message)
    constructor
    · intro hfits
      obtain ⟨t, hrun, ht⟩ := logString_run hline h hfits
      exact ⟨_, t, bind_of_ok hrun, ht⟩
    · intro hfull
      obtain ⟨t, hrun⟩ := logString_full hline h hfull
      exact ⟨t, bind_of_error hrun⟩

variable (calls : List LogCall)

/-- What calls append. -/
def logLines : List Byte := calls.flatMap LogCall.line

/-- **A run of calls** goes on as long as everything fits. -/
theorem runLog_ends (h : s.Holds text) :
    ((text ++ logLines calls).length < logBufferSize →
      ∃ t, runLog calls s = .ok () t ∧ t.Holds (text ++ logLines calls)) ∧
    (logBufferSize ≤ (text ++ logLines calls).length →
      ∃ t, runLog calls s = .error .outOfBounds t) := by
  induction calls generalizing s text with
  | nil =>
    have hnil : text ++ logLines [] = text := append_nil text
    rw [hnil]
    exact ⟨fun _ => ⟨s, rfl, h⟩, fun hfull => absurd h.fits (Nat.not_lt.2 hfull)⟩
  | cons call calls ih =>
    have hcons : text ++ logLines (call :: calls) = text ++ call.line ++ logLines calls :=
      (append_assoc ..).symm
    rw [hcons]
    rcases Nat.lt_or_ge (text ++ call.line).length logBufferSize with hfits | hfull
    · obtain ⟨r, t, hrun, ht⟩ := (call.run_ends h).1 hfits
      have hnext : runLog (call :: calls) s = runLog calls t := bind_of_ok hrun
      rw [hnext]
      exact ih ht
    · have hlength : (text ++ call.line ++ logLines calls).length =
        (text ++ call.line).length + (logLines calls).length := length_append
      refine ⟨fun hfits => by omega, fun _ => ?_⟩
      obtain ⟨t, hrun⟩ := (call.run_ends h).2 hfull
      exact ⟨t, bind_of_error hrun⟩

/-! ## Whole messages -/

/-- The text of a `dbg_printf` is not cut. -/
def LogCall.Whole : LogCall → Prop
  | logString _ _ => True
  | dbgPrintf _ text => (text.takeWhile (· ≠ 0)).length ≤ printfKept

theorem LogCall.kept_cases :
    call.Whole ∧ call.line = call.message ++ [newline] ∨
      ¬ call.Whole ∧ call.line.length < (call.message ++ [newline]).length := by
  cases call with
  | logString string len => exact .inl ⟨trivial, rfl⟩
  | dbgPrintf stack text =>
    have hkept : (text.take printfKept).takeWhile (· ≠ 0) =
        (text.takeWhile (· ≠ 0)).take printfKept := take_takeWhile.symm
    by_cases hwhole : (text.takeWhile (· ≠ 0)).length ≤ printfKept
    · refine .inl ⟨hwhole, congrArg (· ++ [newline]) ?_⟩
      exact hkept.trans (take_of_length_le hwhole)
    · refine .inr ⟨hwhole, ?_⟩
      show ((text.take printfKept).takeWhile (· ≠ 0) ++ [newline]).length <
        (text.takeWhile (· ≠ 0) ++ [newline]).length
      rw [hkept, length_append, length_append, length_take]
      omega

theorem logLines_cases :
    (∀ call ∈ calls, call.Whole) ∧ logLines calls = messages calls ∨
      ¬ (∀ call ∈ calls, call.Whole) ∧ (logLines calls).length < (messages calls).length := by
  induction calls with
  | nil => exact .inl ⟨forall_mem_nil _, rfl⟩
  | cons call calls ih =>
    have hlines : logLines (call :: calls) = call.line ++ logLines calls := rfl
    have hmessages : messages (call :: calls) = call.message ++ [newline] ++ messages calls := rfl
    rw [forall_mem_cons, hlines, hmessages, length_append, length_append]
    rcases call.kept_cases with ⟨hwhole, heq⟩ | ⟨hcut, hlt⟩
    · rcases ih with ⟨hrest, heq'⟩ | ⟨hrest, hlt'⟩
      · exact .inl ⟨⟨hwhole, hrest⟩, by rw [heq, heq']⟩
      · refine .inr ⟨fun h => hrest h.2, ?_⟩
        rw [heq]
        omega
    · refine .inr ⟨fun h => hcut h.1, ?_⟩
      rcases ih with ⟨-, heq'⟩ | ⟨-, hlt'⟩
      · rw [heq']
        omega
      · omega

end Calls

theorem LogState.start_holds : (LogState.start bsdLog).Holds [] :=
  ⟨rfl, by decide, rfl, rfl⟩

theorem logHolds_iff_lines :
    LogHolds bsdLog calls ↔
      (logLines calls).length < logBufferSize ∧ logLines calls = messages calls := by
  obtain ⟨hok, herror⟩ := runLog_ends calls (LogState.start_holds bsdLog)
  rw [nil_append] at hok herror
  constructor
  · rintro ⟨s, hrun, -, hread, -⟩
    rcases Nat.lt_or_ge (logLines calls).length logBufferSize with hfits | hfull
    · obtain ⟨t, hrun', ht⟩ := hok hfits
      cases hrun.symm.trans hrun'
      rw [ht.length, ht.content] at hread
      exact ⟨hfits, hread⟩
    · obtain ⟨t, hrun'⟩ := herror hfull
      nomatch hrun.symm.trans hrun'
  · rintro ⟨hfits, heq⟩
    obtain ⟨t, hrun, ht⟩ := hok hfits
    refine ⟨t, hrun, ht.length ▸ ht.fits, ?_, ht.length ▸ ht.terminated⟩
    rw [ht.length, ht.content, heq]

/-- **The log holds every message exactly if they fit**: if all messages with their newlines leave
room for the terminator, and no text of a `dbg_printf` is longer than its buffer takes. -/
theorem log_holds_iff (bsdLog : Int) (calls : List LogCall) :
    LogHolds bsdLog calls ↔
      (messages calls).length < logBufferSize ∧ ∀ call ∈ calls, call.Whole := by
  rw [logHolds_iff_lines]
  rcases logLines_cases calls with ⟨hwhole, heq⟩ | ⟨hcut, hlt⟩
  · rw [heq]
    exact ⟨fun h => ⟨h.1, hwhole⟩, fun h => ⟨h.1, rfl⟩⟩
  · refine iff_of_false ?_ fun h => hcut h.2
    rintro ⟨-, heq⟩
    rw [heq] at hlt
    exact Nat.lt_irrefl _ hlt

/-- A text and a formatted one, cut at its NUL. -/
theorem twoMessages_hold : LogHolds (-1)
    [.logString (fun _ => 0x61) 3, .dbgPrintf (fun _ => 0) [0x62, 0, 0x63]] := by
  refine (log_holds_iff _ _).2 ⟨by decide, ?_⟩
  refine forall_mem_cons.2 ⟨trivial, forall_mem_cons.2 ⟨?_, forall_mem_nil _⟩⟩
  show ([0x62, 0, 0x63].takeWhile (· ≠ (0 : Byte))).length ≤ printfKept
  decide

/-- One message that is as long as the buffer: the newline is stored behind the end of it. -/
theorem longMessage_overflows :
    ¬ LogHolds (-1) [.logString (fun _ => 0x61) 0x20000] ∧
      ∃ s, runLog [.logString (fun _ => 0x61) 0x20000] (.start (-1)) = .error .outOfBounds s := by
  have hkept : (Mem.read (fun _ => (0x61 : Byte)) 0 0x20000).takeWhile (· ≠ 0) =
      Mem.read (fun _ => 0x61) 0 0x20000 := by
    refine takeWhile_eq_self_iff.2 fun c hc => ?_
    obtain ⟨i, -, rfl⟩ := mem_map.1 hc
    rfl
  have hlength : (logLines [.logString (fun _ => 0x61) 0x20000]).length = 0x20001 := by
    have hlines : logLines [.logString (fun _ => 0x61) 0x20000] =
        (Mem.read (fun _ => (0x61 : Byte)) 0 0x20000).takeWhile (· ≠ 0) ++ [newline] ++ [] := rfl
    rw [hlines, hkept, append_nil, length_append, length_read]
    rfl
  constructor
  · rw [logHolds_iff_lines, hlength]
    exact fun h => absurd h.1 (by decide)
  · refine (runLog_ends _ (LogState.start_holds (-1))).2 ?_
    rw [nil_append, hlength]
    decide

end LibTransistor
