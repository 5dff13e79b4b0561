import LibTransistor.Lib.Bytes
import LibTransistor.Lib.Scan

/-!
# The header of an HTTP response

`parse_header` in `projects/ace_loader/http.c` receives the answer of a server into a buffer and
reads its header line by line. What `bsd_recv` gives is a list of pieces of the stream, cut
anywhere.

Looking at a byte of the buffer that has not been received is the outcome `unreceived`. `strncmp`
and `sscanf` are scanners that look at one byte after the other; what the C library makes of a
sequence of digits is a parameter.

* `lineByLine` — the lines of a stream one by one, with what the code does about each.
* `ParsedAsStream` — the function returns, without a look at a byte that has not come, what the
  lines of the whole stream say.

**The first piece decides** (`header_parsed_iff`). The end of the bytes to search is computed from
the start of the line and the size of the last piece, so it is too far behind the first line; and
the search is begun again when there is no line, and not ended. So a second piece is never received,
and the header is parsed exactly if the first piece says all.
-/

namespace LibTransistor

open List

/-! ## The C library -/

def isSpace (b : Byte) : Bool := b = 0x20 || (0x09 ≤ b && b ≤ 0x0D)

def isDigit (b : Byte) : Bool := 0x30 ≤ b && b ≤ 0x39

section Model

-- The number that a sign and a sequence of digits stand for.
variable (conv : Bool → List Byte → BitVec 32)

/-- The sign of a number: whether it is a minus. -/
def scanSign : Scanner Byte Bool := do
  let minus ← Scanner.optional 0x2D
  if minus then return true
  else do
    let _plus ← Scanner.optional 0x2B
    return false

/-- `%d`. -/
def scanInt : Scanner Byte (BitVec 32) := do
  let _ ← Scanner.span isSpace
  let minus ← scanSign
  let digits ← Scanner.span isDigit
  if digits = [] then Scanner.fail else return conv minus digits

/-- `sscanf(pptr, "HTTP/%d.%d %d", ...)`: the last of the three. -/
def scanStatus : Scanner Byte (BitVec 32) := do
  Scanner.literal (ascii ['H', 'T', 'T', 'P', '/'])
  let _v1 ← scanInt conv
  Scanner.literal (ascii ['.'])
  let _v2 ← scanInt conv
  let _ ← Scanner.span isSpace
  scanInt conv

/-- `strncmp(pptr, "Content-Length:", 15)` and `sscanf(pptr + 15, "%d", ...)`. -/
def scanContentLength : Scanner Byte (BitVec 32) := do
  Scanner.literal (ascii
    ['C', 'o', 'n', 't', 'e', 'n', 't', '-', 'L', 'e', 'n', 'g', 't', 'h', ':'])
  scanInt conv

/-! ## One line -/

/-- What the function does about a line that is not empty: it returns, or goes on with a content
length. -/
inductive LineEffect
  | stop (r : BitVec 32)
  | next (contentLength : BitVec 32)
  deriving DecidableEq

/-- The line is a field when the status line has been read (`state`). -/
def lineEffect (state : Bool) (contentLength : BitVec 32) : Scanner Byte LineEffect :=
  if state then do
    let value ← (scanContentLength conv).attempt
    return .next (value.getD contentLength)
  else do
    let status ← (scanStatus conv).attempt
    return match status with
      | none => .stop (-1)
      | some res => if res = 0 then .stop (-1) else if res ≠ 200 then .stop (-res)
        else .next contentLength

/-! ## `parse_header` -/

/-- The return value and, at the end of a header, what is stored through the pointers. -/
inductive HeaderReturn
  | failed (r : BitVec 32)
  | complete (contentLength : BitVec 32) (offset got : Nat)
  deriving DecidableEq

/-- How a run is after some rounds. -/
inductive HeaderOutcome
  | returned (r : HeaderReturn) (received : Nat)
  /-- A byte is looked at that has not been received. -/
  | unreceived
  | running
  deriving DecidableEq

structure HeaderState where
  /-- The buffer up to `ptr`. -/
  received : List Byte
  /-- What `bsd_recv` is going to give. -/
  pieces : List (List Byte)
  len : Nat
  pptr : Nat
  state : Bool
  contentLength : BitVec 32

/-- The search for the end of a line, with `n` bytes to go: `none` if it comes to a byte that has
not been received, and otherwise where `tptr` stops, if it does before `eptr`. -/
def lineEnd (received : List Byte) (tptr : Nat) : Nat → Option (Option Nat)
  | 0 => some none
  | n + 1 =>
    match received[tptr]? with
    | none => none
    | some b => if b = newline then some (some tptr) else lineEnd received (tptr + 1) n

/-- The loop over the lines after a piece of `ret` bytes, for some rounds. It is left without a
return when no line is found and `tptr` is where it was. -/
def parseLines (ret : Nat) : Nat → HeaderState → HeaderOutcome ⊕ HeaderState
  | 0, _ => .inl .running
  | rounds + 1, s =>
    match lineEnd s.received s.pptr ret with
    | none => .inl .unreceived
    | some none => if ret = 0 then .inr s else parseLines ret rounds s
    | some (some tptr) =>
      if tptr - s.pptr ≤ 1 then
        .inl (.returned (if s.state then
            .complete s.contentLength (tptr + 1) (s.received.length - (tptr + 1))
          else .failed (-2)) s.received.length)
      else
        match lineEffect conv s.state s.contentLength (s.received.drop s.pptr) with
        | .found (.stop r) _ => .inl (.returned (.failed r) s.received.length)
        | .found (.next contentLength) _ =>
          parseLines ret rounds
            { s with pptr := tptr + 1, state := true, contentLength := contentLength }
        | _ => .inl .unreceived

/-- The loop over the pieces. -/
def receivePieces (rounds : Nat) : Nat → HeaderState → HeaderOutcome
  | 0, _ => .running
  | n + 1, s =>
    if s.len = 0 then .returned (.failed (-1)) s.received.length
    else match s.pieces with
      | [] => .returned (.failed (-1)) s.received.length
      | piece :: pieces =>
        if piece.length = 0 then .returned (.failed (-1)) s.received.length
        else match parseLines conv piece.length rounds
            { s with received := s.received ++ piece, pieces := pieces } with
          | .inl outcome => outcome
          | .inr s => receivePieces rounds n { s with len := s.len - piece.length }

/-- The size of the buffer. -/
def headerSize : Nat := 1024

def parseHeader (rounds : Nat) (pieces : List (List Byte)) : HeaderOutcome :=
  receivePieces conv rounds rounds ⟨[], pieces, headerSize, 0, false, 0⟩

/-! ## Line by line -/

/-- What the lines of a stream say. -/
inductive HeaderEnd
  | failed (r : BitVec 32)
  | complete (contentLength : BitVec 32) (offset : Nat)
  deriving DecidableEq

/-- What is returned, and stored, after so many bytes. -/
def HeaderEnd.toReturn (received : Nat) : HeaderEnd → HeaderReturn
  | failed r => .failed r
  | complete contentLength offset => .complete contentLength offset (received - offset)

theorem length_lt_of_upTo {p : Byte} {l as bs : List Byte} (h : Scanner.upTo p l = .found as bs) :
    bs.length < l.length := by
  rcases Scanner.upTo_cases p l with ⟨as', bs', hfound, rfl, -⟩ | ⟨hshort, -⟩
  · cases hfound.symm.trans h
    rw [length_append, length_cons]
    omega
  · exact nomatch hshort.symm.trans h

/-- The lines of a stream from `offset` on, up to an empty one. `none` if the stream ends before
that is known. What is done about a line sees the stream from there on: `sscanf` skips white space
before a number, so that the number may be in the next line. -/
def lineByLine (state : Bool) (contentLength : BitVec 32) (offset : Nat) (stream : List Byte) :
    Option HeaderEnd :=
  match _h : Scanner.upTo newline stream with
  | .found line rest =>
    if line.length ≤ 1 then
      some (if state then .complete contentLength (offset + line.length + 1) else .failed (-2))
    else
      match lineEffect conv state contentLength stream with
      | .found (.stop r) _ => some (.failed r)
      | .found (.next contentLength) _ =>
        lineByLine true contentLength (offset + line.length + 1) rest
      | _ => none
  | _ => none
termination_by stream.length
decreasing_by exact length_lt_of_upTo _h

/-- The pieces of a stream that `bsd_recv` gives one after the other. -/
structure Delivery where
  pieces : List (List Byte)
  nonempty : ∀ piece ∈ pieces, piece ≠ []
  fits : pieces.flatten.length ≤ headerSize

/-- The function returns what the lines of the stream say. -/
def ParsedAsStream (d : Delivery) : Prop :=
  ∃ rounds received e, parseHeader conv rounds d.pieces = .returned (e.toReturn received) received ∧
    lineByLine conv false 0 0 d.pieces.flatten = some e

end Model

/-! ## More of the stream -/

section Stream

variable {conv : Bool → List Byte → BitVec 32} {state : Bool} {cl : BitVec 32} {offset : Nat}
  {stream line rest : List Byte}

theorem stable_scanSign : Stable scanSign :=
  .bind (.optional _) fun _ => .ite (.pure _) (.bind (.optional _) fun _ => .pure _)

theorem stable_scanInt : Stable (scanInt conv) :=
  .bind (.span _) fun _ => .bind stable_scanSign fun _ => .bind (.span _) fun _ =>
    .ite .fail (.pure _)

theorem stable_scanStatus : Stable (scanStatus conv) :=
  .bind (.literal _) fun _ => .bind stable_scanInt fun _ => .bind (.literal _) fun _ =>
    .bind stable_scanInt fun _ => .bind (.span _) fun _ => stable_scanInt

theorem stable_lineEffect : Stable (lineEffect conv state cl) :=
  .ite (.bind (.attempt (.bind (.literal _) fun _ => stable_scanInt)) fun _ => .pure _)
    (.bind (.attempt stable_scanStatus) fun _ => .pure _)

theorem lineByLine_of_short (h : Scanner.upTo newline stream = .short) :
    lineByLine conv state cl offset stream = none := by
  rw [lineByLine]
  split
  · next hfound => exact nomatch h.symm.trans hfound
  · rfl

theorem lineByLine_of_found (h : Scanner.upTo newline stream = .found line rest) :
    lineByLine conv state cl offset stream =
      if line.length ≤ 1 then
        some (if state then .complete cl (offset + line.length + 1) else .failed (-2))
      else
        match lineEffect conv state cl stream with
        | .found (.stop r) _ => some (.failed r)
        | .found (.next contentLength) _ =>
          lineByLine conv true contentLength (offset + line.length + 1) rest
        | _ => none := by
  rw [lineByLine]
  split
  · next hfound =>
    cases h.symm.trans hfound
    rfl
  · next hnone => exact absurd h (hnone _ _)

/-- What the lines of a stream say, they say about every continuation of it. -/
theorem lineByLine_append {e : HeaderEnd} (h : lineByLine conv state cl offset stream = some e)
    (more : List Byte) : lineByLine conv state cl offset (stream ++ more) = some e := by
  induction hn : stream.length using Nat.strong_induction_on
    generalizing stream state cl offset with
  | _ n ih =>
    cases hline : Scanner.upTo newline stream with
    | short =>
      rw [lineByLine_of_short hline] at h
      nomatch h
    | mismatch =>
      rcases Scanner.upTo_cases newline stream with ⟨_, _, hfound, -⟩ | ⟨hshort, -⟩
      · exact nomatch hfound.symm.trans hline
      · exact nomatch hshort.symm.trans hline
    | found line rest =>
      rw [lineByLine_of_found hline] at h
      rw [lineByLine_of_found ((Stable.upTo newline).found hline more)]
      by_cases hempty : line.length ≤ 1
      · rw [if_pos hempty] at h ⊢
        exact h
      · rw [if_neg hempty] at h ⊢
        cases heffect : lineEffect conv state cl stream with
        | short =>
          rw [heffect] at h
          nomatch h
        | mismatch =>
          rw [heffect] at h
          nomatch h
        | found effect behind =>
          rw [heffect] at h
          rw [stable_lineEffect.found heffect more]
          cases effect with
          | stop r => exact h
          | next contentLength => exact ih _ (hn ▸ length_lt_of_upTo hline) h rfl

end Stream

/-! ## The loop over the lines -/

section Lines

variable {conv : Bool → List Byte → BitVec 32} {s : HeaderState} {received line rest : List Byte}

theorem lineEnd_of_mem {tptr n : Nat} (h : received.drop tptr = line ++ newline :: rest)
    (hline : newline ∉ line) (hn : line.length < n) :
    lineEnd received tptr n = some (some (tptr + line.length)) := by
  induction line generalizing tptr n with
  | nil =>
    obtain ⟨n, rfl⟩ : ∃ k, n = k + 1 := ⟨n - 1, by omega⟩
    have hcell : received[tptr]? = some newline := by
      have hhead := congrArg List.head? h
      rwa [head?_drop] at hhead
    rw [lineEnd, hcell]
    rfl
  | cons b line ih =>
    obtain ⟨n, rfl⟩ : ∃ k, n = k + 1 := ⟨n - 1, by omega⟩
    have hcell : received[tptr]? = some b := by
      have hhead := congrArg List.head? h
      rwa [head?_drop] at hhead
    have hrest : received.drop (tptr + 1) = line ++ newline :: rest := by
      rw [← tail_drop, h]
      rfl
    rw [mem_cons, not_or] at hline
    rw [lineEnd, hcell, length_cons]
    show (if b = newline then _ else _) = _
    rw [if_neg (Ne.symm hline.1), ih hrest hline.2 (by simpa using hn)]
    congr 2
    omega

theorem lineEnd_of_not_mem {tptr n : Nat} (h : newline ∉ received.drop tptr)
    (htptr : tptr ≤ received.length) :
    lineEnd received tptr n = if tptr + n ≤ received.length then some none else none := by
  induction n generalizing tptr with
  | zero => exact (if_pos htptr).symm
  | succ n ih =>
    rw [lineEnd]
    by_cases hlt : tptr < received.length
    · have hcell : received[tptr]? = some received[tptr] := getElem?_eq_getElem hlt
      rw [drop_eq_getElem_cons hlt, mem_cons, not_or] at h
      rw [hcell]
      show (if received[tptr] = newline then _ else _) = _
      rw [if_neg (Ne.symm h.1), ih h.2 hlt, Nat.add_right_comm, Nat.add_assoc]
    · rw [getElem?_eq_none (by omega), if_neg (by omega)]

theorem lineEnd_of_found (h : Scanner.upTo newline (s.received.drop s.pptr) = .found line rest) :
    lineEnd s.received s.pptr s.received.length = some (some (s.pptr + line.length)) ∧
      s.received.drop (s.pptr + line.length + 1) = rest ∧
      s.pptr + line.length < s.received.length := by
  rcases Scanner.upTo_cases newline (s.received.drop s.pptr) with
    ⟨line', rest', hfound, hdrop, hline⟩ | ⟨hshort, -⟩
  · cases hfound.symm.trans h
    have hlength := congrArg List.length hdrop
    rw [length_drop, length_append, length_cons] at hlength
    refine ⟨lineEnd_of_mem hdrop hline (by omega), ?_, by omega⟩
    rw [Nat.add_assoc, ← drop_drop, hdrop, drop_append, drop_eq_nil_of_le (by omega),
      Nat.add_sub_cancel_left]
    rfl
  · exact nomatch hshort.symm.trans h

/-- The state after a line that is neither empty nor the last. -/
def HeaderState.after (s : HeaderState) (line : List Byte) (contentLength : BitVec 32) :
    HeaderState :=
  { s with pptr := s.pptr + line.length + 1, state := true, contentLength := contentLength }

variable (conv) in
/-- What the lines from here on say. -/
def HeaderState.verdict (s : HeaderState) : Option HeaderEnd :=
  lineByLine conv s.state s.contentLength s.pptr (s.received.drop s.pptr)

variable (conv) in
/-- One round of the loop finds a line: the line ends the parse, is not all there, or is followed by
others. -/
theorem parseLines_of_found (h : Scanner.upTo newline (s.received.drop s.pptr) = .found line rest) :
    (∃ e, s.verdict conv = some e ∧ ∀ rounds, parseLines conv s.received.length (rounds + 1) s =
        .inl (.returned (e.toReturn s.received.length) s.received.length)) ∨
      (s.verdict conv = none ∧
        ∀ rounds, parseLines conv s.received.length (rounds + 1) s = .inl .unreceived) ∨
      ∃ t : HeaderState, t.received = s.received ∧ s.pptr < t.pptr ∧ t.pptr ≤ s.received.length ∧
        s.verdict conv = t.verdict conv ∧ ∀ rounds, parseLines conv s.received.length (rounds + 1) s =
          parseLines conv s.received.length rounds t := by
  obtain ⟨hend, hrest, hlt⟩ := lineEnd_of_found h
  unfold HeaderState.verdict
  rw [lineByLine_of_found h]
  simp only [parseLines, hend, Nat.add_sub_cancel_left]
  by_cases hempty : line.length ≤ 1
  · simp only [if_pos hempty]
    refine .inl ⟨_, rfl, fun _ => ?_⟩
    cases s.state <;> rfl
  · simp only [if_neg hempty]
    cases lineEffect conv s.state s.contentLength (s.received.drop s.pptr) with
    | short => exact .inr (.inl ⟨rfl, fun _ => rfl⟩)
    | mismatch => exact .inr (.inl ⟨rfl, fun _ => rfl⟩)
    | found effect behind =>
      cases effect with
      | stop r => exact .inl ⟨_, rfl, fun _ => rfl⟩
      | next contentLength =>
        refine .inr (.inr ⟨s.after line contentLength, rfl, ?_, hlt, ?_, fun _ => rfl⟩)
        · show s.pptr < s.pptr + line.length + 1
          omega
        · rw [← hrest]
          rfl

/-- The function returns what the lines in the first piece say. -/
theorem parseLines_of_some {e : HeaderEnd} (h : s.verdict conv = some e) :
    ∃ rounds, parseLines conv s.received.length rounds s =
      .inl (.returned (e.toReturn s.received.length) s.received.length) := by
  induction hn : s.received.length - s.pptr using Nat.strong_induction_on generalizing s with
  | _ n ih =>
    rcases Scanner.upTo_cases newline (s.received.drop s.pptr) with
      ⟨line, rest, hline, -⟩ | ⟨hshort, -⟩
    · obtain ⟨e', he', hrun⟩ | ⟨hnone, -⟩ | ⟨t, hbytes, hlt, hle, hverdict, hrun⟩ :=
        parseLines_of_found conv hline
      · cases he'.symm.trans h
        exact ⟨1, hrun 0⟩
      · cases hnone.symm.trans h
      · obtain ⟨rounds, ht⟩ := ih (t.received.length - t.pptr) (by rw [hbytes]; omega)
          (hverdict.symm.trans h) rfl
        rw [hbytes] at ht
        exact ⟨rounds + 1, (hrun rounds).trans ht⟩
    · cases (lineByLine_of_short hshort).symm.trans h

/-- Where they do not say enough, it does not return: at the first line it begins the search again,
and later the search runs into what has not been received. -/
theorem parseLines_of_none (hpptr : s.pptr ≤ s.received.length) (hret : s.received ≠ [])
    (h : s.verdict conv = none) (rounds : Nat) :
    parseLines conv s.received.length rounds s = .inl .unreceived ∨
      parseLines conv s.received.length rounds s = .inl .running := by
  induction rounds generalizing s with
  | zero => exact .inr rfl
  | succ rounds ih =>
    rcases Scanner.upTo_cases newline (s.received.drop s.pptr) with
      ⟨line, rest, hline, -⟩ | ⟨-, hnone⟩
    · obtain ⟨e, he, -⟩ | ⟨-, hrun⟩ | ⟨t, hbytes, -, hle, hverdict, hrun⟩ :=
        parseLines_of_found conv hline
      · cases he.symm.trans h
      · exact .inl (hrun rounds)
      · rw [hrun, ← hbytes]
        exact ih (hbytes ▸ hle) (hbytes ▸ hret) (hverdict.symm.trans h)
    · have hlength : s.received.length ≠ 0 := fun hzero => hret (length_eq_zero_iff.1 hzero)
      rw [parseLines, lineEnd_of_not_mem hnone hpptr]
      by_cases hfirst : s.pptr + s.received.length ≤ s.received.length
      · rw [if_pos hfirst]
        rw [if_neg hlength]
        exact ih hpptr hret h
      · rw [if_neg hfirst]
        exact .inl rfl

end Lines

/-! ## The first piece -/

section FirstPiece

variable {conv : Bool → List Byte → BitVec 32} {piece : List Byte} {pieces : List (List Byte)}

theorem parseHeader_cons (hpiece : piece ≠ []) {rounds : Nat} {outcome : HeaderOutcome}
    (h : parseLines conv piece.length (rounds + 1) ⟨piece, pieces, headerSize, 0, false, 0⟩
      = .inl outcome) : parseHeader conv (rounds + 1) (piece :: pieces) = outcome := by
  have hlength : piece.length ≠ 0 := fun hzero => hpiece (length_eq_zero_iff.1 hzero)
  unfold parseHeader
  rw [receivePieces, if_neg (show headerSize ≠ 0 by decide)]
  dsimp only
  rw [if_neg hlength, nil_append, h]

theorem parseHeader_of_some (hpiece : piece ≠ []) {e : HeaderEnd}
    (h : lineByLine conv false 0 0 piece = some e) :
    ∃ rounds, parseHeader conv rounds (piece :: pieces)
      = .returned (e.toReturn piece.length) piece.length := by
  obtain ⟨rounds, houtcome⟩ :=
    @parseLines_of_some conv ⟨piece, pieces, headerSize, 0, false, 0⟩ e h
  cases rounds with
  | zero => nomatch houtcome
  | succ rounds => exact ⟨rounds + 1, parseHeader_cons hpiece houtcome⟩

theorem parseHeader_of_none (hpiece : piece ≠ []) (h : lineByLine conv false 0 0 piece = none)
    (rounds : Nat) : parseHeader conv rounds (piece :: pieces) = .unreceived ∨
      parseHeader conv rounds (piece :: pieces) = .running := by
  cases rounds with
  | zero => exact .inr rfl
  | succ rounds =>
    have hlines := @parseLines_of_none conv ⟨piece, pieces, headerSize, 0, false, 0⟩
      (Nat.zero_le _) hpiece h (rounds + 1)
    exact hlines.imp (parseHeader_cons hpiece) (parseHeader_cons hpiece)

/-- A first piece that does not say enough keeps the function from returning. -/
theorem not_returned_of_none (hpiece : piece ≠ []) (h : lineByLine conv false 0 0 piece = none)
    (rounds : Nat) (r : HeaderReturn) (received : Nat) :
    parseHeader conv rounds (piece :: pieces) ≠ .returned r received := by
  intro hreturned
  rcases parseHeader_of_none hpiece h rounds with houtcome | houtcome
  · exact nomatch houtcome.symm.trans hreturned
  · exact nomatch houtcome.symm.trans hreturned

end FirstPiece

/-- **The header is parsed exactly if the first piece says all**: the empty line, or a status line
that ends the parse, is in it, with every byte that is looked at on the way. -/
theorem header_parsed_iff (conv : Bool → List Byte → BitVec 32) (d : Delivery) :
    ParsedAsStream conv d ↔ ∃ e, lineByLine conv false 0 0 (d.pieces.headD []) = some e := by
  obtain ⟨pieces, nonempty, fits⟩ := d
  cases pieces with
  | nil =>
    have hshort : lineByLine conv false 0 0 [] = none := lineByLine_of_short rfl
    refine iff_of_false ?_ ?_
    · rintro ⟨rounds, received, e, -, he⟩
      exact nomatch hshort.symm.trans he
    · rintro ⟨e, he⟩
      exact nomatch hshort.symm.trans he
  | cons piece pieces =>
    have hpiece : piece ≠ [] := nonempty piece mem_cons_self
    constructor
    · rintro ⟨rounds, received, e, hreturned, -⟩
      by_contra hnone
      have hfirst : lineByLine conv false 0 0 piece = none :=
        Option.eq_none_iff_forall_ne_some.2 fun e he => hnone ⟨e, he⟩
      exact not_returned_of_none hpiece hfirst rounds _ received hreturned
    · rintro ⟨e, he⟩
      obtain ⟨rounds, hreturned⟩ := parseHeader_of_some hpiece he
      exact ⟨rounds, piece.length, e, hreturned, lineByLine_append he pieces.flatten⟩

/-- The number that digits stand for. -/
def decimal (minus : Bool) (digits : List Byte) : BitVec 32 :=
  let n := digits.foldl (fun n d => 10 * n + (d.setWidth 32 - 0x30)) 0
  if minus then -n else n

/-- `HTTP/1.1 200 OK`. -/
def okLine : List Byte :=
  ascii ['H', 'T', 'T', 'P', '/', '1', '.', '1', ' ', '2', '0', '0', ' ', 'O', 'K', '\r', '\n']

/-- `Content-Length: 5`, an empty line, and the first bytes of the body. -/
def fieldLines : List Byte :=
  ascii ['C', 'o', 'n', 't', 'e', 'n', 't', '-', 'L', 'e', 'n', 'g', 't', 'h', ':', ' ', '5', '\r',
    '\n', '\r', '\n', 'a', 'b']

theorem lineByLine_okLine (rest : List Byte) :
    lineByLine decimal false 0 0 (okLine ++ rest) = lineByLine decimal true 0 17 rest := by
  have hline : Scanner.upTo newline okLine = .found (okLine.take 16) [] := by decide
  rw [lineByLine_of_found ((Stable.upTo newline).found hline rest)]
  rfl

theorem lineByLine_fieldLines :
    lineByLine decimal true 0 17 fieldLines = some (.complete 5 38) := by
  have hline : Scanner.upTo newline fieldLines = .found (fieldLines.take 18) (fieldLines.drop 19) :=
    by decide
  have hempty : Scanner.upTo newline (fieldLines.drop 19) = .found [0x0D] (ascii ['a', 'b']) := by
    decide
  rw [lineByLine_of_found hline]
  show lineByLine decimal true 5 36 _ = _
  rw [lineByLine_of_found hempty]
  rfl

/-- A response that comes in one piece. -/
def wholeResponse : Delivery where
  pieces := [okLine ++ fieldLines]
  nonempty := by decide
  fits := by decide

/-- The same response in two pieces, cut behind the status line. -/
def cutResponse : Delivery where
  pieces := [okLine, fieldLines]
  nonempty := by decide
  fits := by decide

/-- And cut inside of it. -/
def brokenLine : Delivery where
  pieces := [okLine.take 8, okLine.drop 8 ++ fieldLines]
  nonempty := by decide
  fits := by decide

/-- Each round of the loop finds the line without an end and begins again. -/
theorem parseHeader_brokenLine (rounds : Nat) :
    parseHeader decimal rounds brokenLine.pieces = .running := by
  have hloop : ∀ rounds, parseLines decimal 8 rounds
      ⟨okLine.take 8, [okLine.drop 8 ++ fieldLines], headerSize, 0, false, 0⟩
        = .inl .running := by
    intro rounds
    induction rounds with
    | zero => rfl
    | succ rounds ih =>
      exact ih
  cases rounds with
  | zero => rfl
  | succ rounds => exact parseHeader_cons (by decide) (hloop (rounds + 1))

theorem wholeResponse_parsed : ParsedAsStream decimal wholeResponse := by
  refine (header_parsed_iff decimal wholeResponse).2 ⟨.complete 5 38, ?_⟩
  exact (lineByLine_okLine fieldLines).trans lineByLine_fieldLines

/-- A piece that ends with a line makes the function look at bytes that have not come, and one that
ends inside of the first line keeps it busy for ever. -/
theorem cutResponse_unparsed :
    lineByLine decimal false 0 0 cutResponse.pieces.flatten = some (.complete 5 38) ∧
      ¬ ParsedAsStream decimal cutResponse ∧
      parseHeader decimal 2 cutResponse.pieces = .unreceived ∧
      ∀ rounds, parseHeader decimal rounds brokenLine.pieces = .running := by
  have hpiece : okLine ≠ [] := by decide
  have hfirst : lineByLine decimal false 0 0 okLine = none := by
    have happend := lineByLine_okLine []
    exact happend.trans (lineByLine_of_short rfl)
  refine ⟨(lineByLine_okLine fieldLines).trans lineByLine_fieldLines, ?_, by decide,
    parseHeader_brokenLine⟩
  rintro ⟨rounds, received, e, hreturned, -⟩
  exact not_returned_of_none hpiece hfirst rounds _ received hreturned

end LibTransistor
