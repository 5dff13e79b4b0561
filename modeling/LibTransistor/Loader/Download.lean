import LibTransistor.Lib.Bits
import LibTransistor.Loader.Http

/-!
# Downloading a file

`http_get_file` in `projects/ace_loader/http.c`, with the header parse of `Loader/Http.lean`. The
header is received into a buffer on the stack, together with the first bytes of the body; these are
copied, and the rest is received to where it belongs. What was on the stack before is given, and so
are the local variables that `parse_header` may leave unset.

**What keeps a download safe** (`DownloadSafe`, `download_safe_iff`). The number of bytes that came
with the header is never compared with the announced length. So a download is safe exactly if the
header is refused, or ends in what has been received with no more than the announced bytes behind
it. A negative status counts as a length, too.
-/

namespace LibTransistor

open Fallible List

/-! ## Receiving -/

/-- What a call of `bsd_recv` for `n` bytes gives, and what is left. -/
def takePiece (n : Nat) : List (List Byte) → List Byte × List (List Byte)
  | [] => ([], [])
  | piece :: pieces =>
    (piece.take n, if piece.drop n = [] then pieces else piece.drop n :: pieces)

theorem takePiece_flatten (n : Nat) (pieces : List (List Byte)) :
    (takePiece n pieces).1 ++ (takePiece n pieces).2.flatten = pieces.flatten := by
  cases pieces with
  | nil => rfl
  | cons piece pieces =>
    show piece.take n ++ (if piece.drop n = [] then pieces else piece.drop n :: pieces).flatten = _
    have hpiece := take_append_drop n piece
    by_cases h : piece.drop n = []
    · rw [h, append_nil] at hpiece
      rw [if_pos h, hpiece, flatten_cons]
    · rw [if_neg h, flatten_cons, ← append_assoc, hpiece, flatten_cons]

theorem length_takePiece_le (n : Nat) (pieces : List (List Byte)) :
    (takePiece n pieces).1.length ≤ n := by
  cases pieces with
  | nil => exact Nat.zero_le n
  | cons piece pieces => exact length_take_le n piece

/-! ## `http_get_file` -/

/-- The sizes of the stores to `buff`, which follow each other, and of the requests for more. -/
inductive DownloadEvent
  | stored (size : Nat)
  | requested (size : Nat)
  deriving DecidableEq

structure DownloadState where
  /-- What `bsd_recv` is going to give. -/
  pieces : List (List Byte)
  /-- What has been stored from `buff` on. -/
  buff : List Byte
  events : List DownloadEvent

inductive DownloadStop
  | returned (r : BitVec 32)
  /-- Memory is read that is not there. -/
  | fault
  | running
  deriving DecidableEq

abbrev DownloadM := EStateM DownloadStop DownloadState

/-- What the function finds. -/
structure DownloadEnv where
  /-- The results of `bsd_socket` and `bsd_connect`. -/
  socket : BitVec 32
  connect : BitVec 32
  /-- The memory from `temp` on. -/
  stack : List Byte
  wide : headerSize ≤ stack.length
  small : stack.length < 2 ^ 31
  offs : BitVec 32
  got : BitVec 32

/-- How `parse_header` returns: with the buffer, how much of it has been received, and what is left
of the stream. -/
structure HeaderRead where
  ret : HeaderReturn
  memory : List Byte
  ptr : Nat
  pieces : List (List Byte)

section Model

variable (conv : Bool → List Byte → BitVec 32)

/-- The loop of `parse_header` over the pieces, in the memory that is there. `none` if it does not
return. -/
def readHeader (rounds : Nat) : Nat → Nat → HeaderState → Option HeaderRead
  | 0, _, _ => none
  | n + 1, ptr, s =>
    if s.len = 0 then some ⟨.failed (-1), s.received, ptr, s.pieces⟩
    else
      let piece := (takePiece s.len s.pieces).1
      let pieces := (takePiece s.len s.pieces).2
      if piece = [] then some ⟨.failed (-1), s.received, ptr, pieces⟩
      else
        let memory := s.received.take ptr ++ piece ++ s.received.drop (ptr + piece.length)
        match parseLines conv piece.length rounds
            { s with received := memory, pieces := pieces } with
        | .inl (.returned ret _) => some ⟨ret, memory, ptr + piece.length, pieces⟩
        | .inl _ => none
        | .inr s => readHeader rounds n (ptr + piece.length) { s with len := s.len - piece.length }

variable (e : DownloadEnv)

/-- `parse_header(temp, sizeof(temp), ...)`. -/
def DownloadEnv.readHeader (rounds : Nat) (pieces : List (List Byte)) : Option HeaderRead :=
  LibTransistor.readHeader conv rounds rounds 0 ⟨e.stack, pieces, headerSize, 0, false, 0⟩

/-- `ret`, `offs` and `got` after `parse_header`. -/
structure HeaderResults where
  ret : BitVec 32
  offs : BitVec 32
  got : BitVec 32

def HeaderRead.results (h : HeaderRead) (e : DownloadEnv) : HeaderResults :=
  match h.ret with
  | .failed r => ⟨r, e.offs, e.got⟩
  | .complete contentLength offset _ =>
    ⟨contentLength, BitVec.ofNat 32 offset, BitVec.ofNat 32 h.ptr - BitVec.ofNat 32 offset⟩

/-- `if(got) memcpy(ptr, temp + offs, got)`. -/
def copyBody (memory : List Byte) (offs got : BitVec 32) : DownloadM Unit :=
  if got = 0 then return ()
  else do
    let n := (got.signExtend 64).toNat
    modify fun s => { s with events := s.events ++ [.stored n] }
    failIf (offs.toInt < 0 ∨ memory.length < offs.toNat + n) .fault
    modify fun s => { s with buff := s.buff ++ (memory.drop offs.toNat).take n }

/-- The loop that receives the rest of the body. -/
def receiveBody : Nat → BitVec 32 → DownloadM Unit
  | 0, _ => throw .running
  | fuel + 1, size =>
    if size = 0 then return ()
    else do
      let n := (size.signExtend 64).toNat
      let s ← get
      let bytes := (takePiece n s.pieces).1
      modify fun s => { s with
        pieces := (takePiece n s.pieces).2
        buff := s.buff ++ bytes
        events := s.events ++ [.requested n, .stored bytes.length] }
      let got := BitVec.ofNat 32 bytes.length
      failIf (got.toInt ≤ 0) (.returned (-4))
      receiveBody fuel (size - got)

variable (maxsize : BitVec 64)

/-- What is done with a header that announces something. -/
def loadBody (fuel : Nat) (memory : List Byte) (h : HeaderResults) : DownloadM (BitVec 32) := do
  failIf (maxsize < h.ret.signExtend 64) (.returned (-3))
  copyBody memory h.offs h.got
  receiveBody fuel (h.ret - h.got)
  return h.ret

/-- What follows `parse_header`. -/
def loadFile (e : DownloadEnv) (maxsize : BitVec 64) (fuel : Nat) :
    Option HeaderRead → DownloadM (BitVec 32)
  | none => throw .running
  | some h => do
    modify fun s => { s with pieces := h.pieces }
    if (h.results e).ret.toInt ≤ 0 then return (h.results e).ret
    else loadBody maxsize fuel h.memory (h.results e)

def httpGetFile (rounds : Nat) : DownloadM (BitVec 32) := do
  failIf (e.socket.toInt < 0) (.returned (-1))
  failIf (e.connect.toInt < 0) (.returned (-2))
  let s ← get
  loadFile e maxsize rounds (e.readHeader conv rounds s.pieces)

/-! ## What is safe -/

/-- No store and no request is for more than remains of `n` bytes, and no request for nothing. -/
def EventsWithin : Nat → List DownloadEvent → Prop
  | _, [] => True
  | n, .stored size :: es => size ≤ n ∧ EventsWithin (n - size) es
  | n, .requested size :: es => 0 < size ∧ size ≤ n ∧ EventsWithin n es

/-- The announced length, and where the body begins in the stream. -/
def announced : Option HeaderRead → Nat × Nat
  | some ⟨.complete contentLength offset _, _, _, _⟩ => (contentLength.toInt.toNat, offset)
  | _ => (0, 0)

/-- **A safe run.** What has been stored and requested is within the announced length, which is at
most `maxsize` if something is stored; and if the result is positive, it is the announced length and
`buff` has that much of the body. -/
structure SafeRun (maxsize : BitVec 64) (pieces : List (List Byte)) (a : Nat × Nat)
    (run : EStateM.Result DownloadStop DownloadState (BitVec 32)) : Prop where
  within : EventsWithin a.1 (final run).events
  allowed : ∀ size, .stored size ∈ (final run).events → a.1 ≤ maxsize.toNat
  stored : ∀ r t, run = .ok r t → 0 < r.toInt →
    r.toNat = a.1 ∧ t.buff.length = a.1 ∧ t.buff = (pieces.flatten.drop a.2).take a.1

/-- A download is safe at every moment. -/
def DownloadSafe (pieces : List (List Byte)) : Prop :=
  ∀ rounds, SafeRun maxsize pieces (announced (e.readHeader conv rounds pieces))
    (httpGetFile conv e maxsize rounds ⟨pieces, [], []⟩)

/-- The condition on a header: it is refused, or the body fits. -/
def HeaderRead.Fits (h : HeaderRead) (maxsize : BitVec 64) : Prop :=
  match h.ret with
  | .failed r => r.toInt ≤ 0 ∨ (maxsize.toNat : Int) < r.toInt
  | .complete contentLength offset _ =>
    contentLength.toInt ≤ 0 ∨ (maxsize.toNat : Int) < contentLength.toInt ∨
      (offset ≤ h.ptr ∧ h.ptr - offset ≤ contentLength.toNat)

end Model

/-! ## The header -/

section Header

variable {conv : Bool → List Byte → BitVec 32} {s : HeaderState} {ret rounds : Nat}

theorem lineEnd_lt {received : List Byte} {tptr n k : Nat}
    (h : lineEnd received tptr n = some (some k)) : k < received.length := by
  induction n generalizing tptr with
  | zero => cases h
  | succ n ih =>
    rw [lineEnd] at h
    cases hcell : received[tptr]? with
    | none =>
      rw [hcell] at h
      cases h
    | some b =>
      rw [hcell] at h
      dsimp only at h
      split_ifs at h
      · obtain rfl : tptr = k := by simpa using h
        exact (List.getElem?_eq_some_iff.1 hcell).1
      · exact ih h

variable (conv) in
theorem parseLines_round (hret : ret ≠ 0) (s : HeaderState) :
    (∃ o, (∀ rounds, parseLines conv ret (rounds + 1) s = .inl o) ∧ ∀ cl offset got received,
        o = .returned (.complete cl offset got) received → offset ≤ s.received.length) ∨
      ∃ t, t.received = s.received ∧
        ∀ rounds, parseLines conv ret (rounds + 1) s = parseLines conv ret rounds t := by
  simp only [parseLines]
  cases hend : lineEnd s.received s.pptr ret with
  | none => exact .inl ⟨_, fun _ => rfl, by simp⟩
  | some found =>
    cases found with
    | none => exact .inr ⟨s, rfl, fun _ => if_neg hret⟩
    | some tptr =>
      have hlt := lineEnd_lt hend
      dsimp only
      split_ifs
      · refine .inl ⟨_, fun _ => rfl, fun cl offset got received h => ?_⟩
        simp only [HeaderOutcome.returned.injEq, HeaderReturn.complete.injEq] at h
        omega
      · exact .inl ⟨_, fun _ => rfl, by simp⟩
      · cases lineEffect conv s.state s.contentLength (s.received.drop s.pptr) with
        | short => exact .inl ⟨_, fun _ => rfl, by simp⟩
        | mismatch => exact .inl ⟨_, fun _ => rfl, by simp⟩
        | found effect behind =>
          cases effect with
          | stop r => exact .inl ⟨_, fun _ => rfl, by simp⟩
          | next contentLength =>
            exact .inr ⟨{ s with pptr := tptr + 1, state := true, contentLength }, rfl, fun _ => rfl⟩

theorem parseLines_ne_inr (hret : ret ≠ 0) (t : HeaderState) :
    parseLines conv ret rounds s ≠ .inr t := by
  induction rounds generalizing s with
  | zero => simp [parseLines]
  | succ rounds ih =>
    obtain ⟨o, ho, -⟩ | ⟨s', -, hs'⟩ := parseLines_round conv hret s
    · simp [ho]
    · rw [hs']
      exact ih

theorem offset_le_of_complete (hret : ret ≠ 0) {cl : BitVec 32} {offset got received : Nat}
    (h : parseLines conv ret rounds s = .inl (.returned (.complete cl offset got) received)) :
    offset ≤ s.received.length := by
  induction rounds generalizing s with
  | zero => cases h
  | succ rounds ih =>
    obtain ⟨o, ho, hoffset⟩ | ⟨s', hbytes, hs'⟩ := parseLines_round conv hret s
    · rw [ho] at h
      exact hoffset _ _ _ _ (Sum.inl.inj h)
    · rw [hs'] at h
      exact hbytes ▸ ih h

theorem parseLines_mono (hret : ret ≠ 0) {ret' : HeaderReturn} {received : Nat} (k : Nat)
    (h : parseLines conv ret rounds s = .inl (.returned ret' received)) :
    parseLines conv ret (rounds + k) s = .inl (.returned ret' received) := by
  induction rounds generalizing s with
  | zero => cases h
  | succ rounds ih =>
    rw [Nat.add_right_comm]
    obtain ⟨o, ho, -⟩ | ⟨s', -, hs'⟩ := parseLines_round conv hret s
    · rw [ho] at h ⊢
      exact h
    · rw [hs'] at h ⊢
      exact ih h

/-- What is known about a header that has been read from a stream. -/
structure HeaderRead.From (h : HeaderRead) (e : DownloadEnv) (pieces : List (List Byte)) :
    Prop where
  length : h.memory.length = e.stack.length
  ptr : h.ptr ≤ headerSize
  stream : h.memory.take h.ptr ++ h.pieces.flatten = pieces.flatten
  offset : ∀ cl offset got, h.ret = .complete cl offset got → offset ≤ h.memory.length

section Read

variable {e : DownloadEnv} {piece : List Byte} {pieces rest : List (List Byte)} {h : HeaderRead}

/-- The state in which the first piece is parsed. -/
def DownloadEnv.received (e : DownloadEnv) (piece : List Byte) (rest : List (List Byte)) :
    HeaderState :=
  ⟨piece ++ e.stack.drop piece.length, rest, headerSize, 0, false, 0⟩

theorem readHeader_cases (htake : takePiece headerSize pieces = (piece, rest))
    (hread : e.readHeader conv rounds pieces = some h) :
    0 < rounds ∧ ((piece = [] ∧ h = ⟨.failed (-1), e.stack, 0, rest⟩) ∨
      piece ≠ [] ∧ ∃ ret n, parseLines conv piece.length rounds (e.received piece rest) =
          .inl (.returned ret n) ∧
        h = ⟨ret, piece ++ e.stack.drop piece.length, piece.length, rest⟩) := by
  cases rounds with
  | zero => cases hread
  | succ rounds =>
    refine ⟨Nat.succ_pos rounds, ?_⟩
    unfold DownloadEnv.readHeader at hread
    rw [readHeader, htake] at hread
    dsimp only at hread
    by_cases hpiece : piece = []
    · rw [if_pos hpiece] at hread
      exact .inl ⟨hpiece, (Option.some.inj hread).symm⟩
    · rw [if_neg hpiece, take_zero, nil_append, Nat.zero_add] at hread
      have hlength : piece.length ≠ 0 := fun h0 => hpiece (length_eq_zero_iff.1 h0)
      unfold DownloadEnv.received
      cases hlines : parseLines conv piece.length (rounds + 1)
          ⟨piece ++ e.stack.drop piece.length, rest, headerSize, 0, false, 0⟩ with
      | inr t => exact absurd hlines (parseLines_ne_inr hlength t)
      | inl outcome =>
        rw [hlines] at hread
        cases outcome with
        | unreceived => cases hread
        | running => cases hread
        | returned ret received =>
          exact .inr ⟨hpiece, ret, received, rfl, (Option.some.inj hread).symm⟩

theorem readHeader_from (hread : e.readHeader conv rounds pieces = some h) :
    h.From e pieces ∧ 0 < rounds := by
  have hflatten := takePiece_flatten headerSize pieces
  have hlength := length_takePiece_le headerSize pieces
  have hwide := e.wide
  generalize htake : takePiece headerSize pieces = taken at hflatten hlength
  obtain ⟨hrounds, ⟨hpiece, rfl⟩ | ⟨hpiece, ret, n, hlines, rfl⟩⟩ := readHeader_cases htake hread
  · refine ⟨⟨rfl, Nat.zero_le _, ?_, nofun⟩, hrounds⟩
    rw [hpiece] at hflatten
    exact hflatten
  · refine ⟨⟨?_, hlength, ?_, fun cl offset got hret => ?_⟩, hrounds⟩
    · rw [length_append, length_drop]
      omega
    · rw [take_left' rfl]
      exact hflatten
    · obtain rfl : ret = _ := hret
      exact offset_le_of_complete (mt length_eq_zero_iff.1 hpiece) hlines

theorem readHeader_unique {rounds' : Nat} {h' : HeaderRead}
    (hread : e.readHeader conv rounds pieces = some h)
    (hread' : e.readHeader conv rounds' pieces = some h') : h = h' := by
  generalize htake : takePiece headerSize pieces = taken
  obtain ⟨-, ⟨hpiece, rfl⟩ | ⟨hpiece, ret, n, hlines, rfl⟩⟩ := readHeader_cases htake hread
  · obtain ⟨-, ⟨-, rfl⟩ | ⟨hpiece', -⟩⟩ := readHeader_cases htake hread'
    · rfl
    · exact absurd hpiece hpiece'
  · obtain ⟨-, ⟨hpiece', -⟩ | ⟨-, ret', n', hlines', rfl⟩⟩ := readHeader_cases htake hread'
    · exact absurd hpiece' hpiece
    · have hlength := mt length_eq_zero_iff.1 hpiece
      have hmore := parseLines_mono hlength rounds' hlines
      rw [Nat.add_comm, parseLines_mono hlength rounds hlines'] at hmore
      cases hmore
      rfl

end Read

end Header

/-! ## The body -/

section Body

variable {s : DownloadState} {size : BitVec 32} {n g : Nat}

/-- The loop stays within the size that it starts with, and if it ends it has received that much. -/
theorem receiveBody_ends (fuel : Nat) (hsize : size.toNat < 2 ^ 31) (s : DownloadState) :
    Ends (receiveBody fuel size s)
      (fun _ t => (∃ es, t.events = s.events ++ es ∧ EventsWithin size.toNat es) ∧
        size.toNat ≤ s.pieces.flatten.length ∧
        t.buff = s.buff ++ s.pieces.flatten.take size.toNat)
      (fun _ t => ∃ es, t.events = s.events ++ es ∧ EventsWithin size.toNat es) := by
  induction fuel generalizing size s with
  | zero => exact ⟨[], (append_nil _).symm, trivial⟩
  | succ fuel ih =>
    unfold receiveBody
    by_cases hzero : size = 0
    · rw [if_pos hzero, hzero]
      exact ⟨⟨[], (append_nil _).symm, trivial⟩, Nat.zero_le _, (append_nil _).symm⟩
    · have hpos : 0 < size.toNat :=
        Nat.pos_of_ne_zero fun h => hzero (BitVec.eq_of_toNat_eq h)
      have hflatten := takePiece_flatten size.toNat s.pieces
      have hlength := length_takePiece_le size.toNat s.pieces
      rw [if_neg hzero, get_bind_run, modify_bind_run, Bits.toNat_signExtend_of_lt hsize]
      generalize (takePiece size.toNat s.pieces).1 = piece at hflatten hlength
      generalize (takePiece size.toNat s.pieces).2 = rest at hflatten
      refine Ends.failIf_bind (fun _ => ?_) fun hgot => ?_
      · refine ⟨_, rfl, hpos, Nat.le_refl _, hlength, trivial⟩
      · have hsub : (size - BitVec.ofNat 32 piece.length).toNat = size.toNat - piece.length := by
          rw [BitVec.toNat_sub, BitVec.toNat_ofNat]
          omega
        have hless : (size - BitVec.ofNat 32 piece.length).toNat < 2 ^ 31 := by omega
        have hrun := ih hless
          ⟨rest, s.buff ++ piece, s.events ++ [.requested size.toNat, .stored piece.length]⟩
        rw [hsub] at hrun
        refine hrun.imp ?_ ?_
        · rintro _ t ⟨⟨es, hes, hwithin⟩, hle, hbuff⟩
          have hrest : size.toNat - piece.length ≤ rest.flatten.length := hle
          refine ⟨⟨_, hes.trans (append_assoc _ _ _), hpos, Nat.le_refl _, hlength, hwithin⟩,
            ?_, ?_⟩
          · rw [← hflatten, length_append]
            omega
          · rw [hbuff, ← hflatten, take_append, take_of_length_le hlength,
              append_assoc]
        · rintro _ t ⟨es, hes, hwithin⟩
          exact ⟨_, hes.trans (append_assoc _ _ _), hpos, Nat.le_refl _, hlength, hwithin⟩

/-- The events of a copy of `n` bytes. -/
def copyEvents (n : Nat) : List DownloadEvent := if n = 0 then [] else [.stored n]

theorem eventsWithin_copyEvents {es : List DownloadEvent} (hg : g ≤ n)
    (hes : EventsWithin (n - g) es) : EventsWithin n (copyEvents g ++ es) := by
  unfold copyEvents
  by_cases hzero : g = 0
  · rw [if_pos hzero]
    rw [hzero] at hes
    exact hes
  · rw [if_neg hzero]
    exact ⟨hg, hes⟩

theorem copyBody_run {memory : List Byte} {offset : Nat} (hmemory : offset + g ≤ memory.length)
    (hsmall : memory.length < 2 ^ 31) (s : DownloadState) :
    copyBody memory (BitVec.ofNat 32 offset) (BitVec.ofNat 32 g) s = .ok ()
      { s with
        buff := s.buff ++ (memory.drop offset).take g
        events := s.events ++ copyEvents g } := by
  have hg : (BitVec.ofNat 32 g).toNat = g := by
    rw [BitVec.toNat_ofNat, Nat.mod_eq_of_lt (by omega)]
  have hoffset : (BitVec.ofNat 32 offset).toNat = offset := by
    rw [BitVec.toNat_ofNat, Nat.mod_eq_of_lt (by omega)]
  unfold copyBody copyEvents
  by_cases hzero : g = 0
  · rw [if_pos hzero, hzero, take_zero, append_nil, append_nil]
    rfl
  · have hne : BitVec.ofNat 32 g ≠ 0 := fun h => hzero (by rw [← hg, h]; rfl)
    rw [if_neg hzero, if_neg hne, modify_bind_run, Bits.toNat_signExtend_of_lt (by omega), hg, hoffset,
      Bits.toInt_ofNat_of_lt (by omega)]
    have hthere : ¬ ((offset : Int) < 0 ∨ memory.length < offset + g) := by omega
    rw [failIf_bind_of_not hthere]
    rfl

theorem receiveBody_events (fuel : Nat) (size : BitVec 32) (s : DownloadState) :
    Ends (receiveBody fuel size s) (fun _ t => s.events <+: t.events)
      (fun _ t => s.events <+: t.events) := by
  induction fuel generalizing size s with
  | zero => exact prefix_rfl
  | succ fuel ih =>
    unfold receiveBody
    by_cases hzero : size = 0
    · rw [if_pos hzero]
      exact prefix_rfl
    · rw [if_neg hzero, get_bind_run, modify_bind_run]
      have hmore : s.events <+: s.events ++ [.requested (size.signExtend 64).toNat,
          .stored (takePiece (size.signExtend 64).toNat s.pieces).1.length] :=
        prefix_append _ _
      refine Ends.failIf_bind (fun _ => hmore) fun _ => ?_
      exact (ih _ _).imp (fun _ _ h => hmore.trans h) (fun _ _ h => hmore.trans h)

theorem receiveBody_requested (fuel : Nat) (hsize : size ≠ 0) (s : DownloadState) :
    Ends (receiveBody (fuel + 1) size s)
      (fun _ t => s.events ++ [.requested (size.signExtend 64).toNat] <+: t.events)
      (fun _ t => s.events ++ [.requested (size.signExtend 64).toNat] <+: t.events) := by
  unfold receiveBody
  rw [if_neg hsize]
  have hmore : s.events ++ [.requested (size.signExtend 64).toNat] <+:
      s.events ++ [.requested (size.signExtend 64).toNat,
        .stored (takePiece (size.signExtend 64).toNat s.pieces).1.length] :=
    ⟨[_], append_assoc _ _ _⟩
  refine Ends.failIf_bind (fun _ => hmore) fun _ => ?_
  exact (receiveBody_events _ _ _).imp (fun _ _ h => hmore.trans h) (fun _ _ h => hmore.trans h)

end Body

/-! ## Both together -/

section Both

variable {e : DownloadEnv} {maxsize : BitVec 64} {pieces : List (List Byte)} {h : HeaderRead}
  {cl : BitVec 32} {offset got : Nat}

theorem loadBody_ends (hfrom : h.From e pieces) (hret : h.ret = .complete cl offset got)
    (hpos : 0 < cl.toInt) (hoffset : offset ≤ h.ptr) (hfits : h.ptr - offset ≤ cl.toNat)
    (fuel : Nat) :
    Ends (loadBody maxsize fuel h.memory (h.results e) ⟨h.pieces, [], []⟩)
      (fun r t => r = cl ∧ EventsWithin cl.toNat t.events ∧ t.buff.length = cl.toNat ∧
        t.buff = (pieces.flatten.drop offset).take cl.toNat)
      (fun _ t => EventsWithin cl.toNat t.events) := by
  have hptr : h.ptr ≤ 1024 := hfrom.ptr
  have hwide : 1024 ≤ e.stack.length := e.wide
  have hsmall := e.small
  have hresults : h.results e =
      ⟨cl, BitVec.ofNat 32 offset, BitVec.ofNat 32 (h.ptr - offset)⟩ := by
    have hgot : BitVec.ofNat 32 h.ptr - BitVec.ofNat 32 offset =
        BitVec.ofNat 32 (h.ptr - offset) := by
      apply BitVec.eq_of_toNat_eq
      rw [BitVec.toNat_sub, BitVec.toNat_ofNat, BitVec.toNat_ofNat, BitVec.toNat_ofNat]
      omega
    rw [HeaderRead.results, hret, ← hgot]
  have hcl := (Bits.toInt_of_pos hpos).2
  have hcopy : offset + (h.ptr - offset) ≤ h.memory.length := by
    rw [hfrom.length]
    omega
  have hbody : (h.memory.drop offset).take (h.ptr - offset) ++ h.pieces.flatten =
      pieces.flatten.drop offset := by
    have hlength : (h.memory.take h.ptr).length = h.ptr := by
      rw [length_take]
      omega
    rw [← hfrom.stream, drop_append_of_le_length (by omega), drop_take]
  have hcopied : ((h.memory.drop offset).take (h.ptr - offset)).length = h.ptr - offset := by
    rw [length_take, length_drop]
    omega
  have hsize : (cl - BitVec.ofNat 32 (h.ptr - offset)).toNat = cl.toNat - (h.ptr - offset) := by
    rw [BitVec.toNat_sub, BitVec.toNat_ofNat]
    omega
  have hleft : (cl - BitVec.ofNat 32 (h.ptr - offset)).toNat < 2 ^ 31 := by omega
  rw [hresults]
  refine Ends.failIf_bind (fun _ => trivial) fun _ => ?_
  rw [bind_of_ok (copyBody_run hcopy (by rw [hfrom.length]; exact hsmall) _)]
  generalize (h.memory.drop offset).take (h.ptr - offset) = copied at hbody hcopied ⊢
  refine Ends.bind ((receiveBody_ends fuel hleft _).imp (fun _ _ h => h) ?_) ?_
  · rintro _ t ⟨es, hes, hwithin⟩
    rw [hsize] at hwithin
    rw [hes]
    exact eventsWithin_copyEvents hfits hwithin
  · rintro _ t ⟨⟨es, hes, hwithin⟩, hle, hbuff⟩
    rw [hsize] at hwithin hle hbuff
    have htaken : t.buff = (pieces.flatten.drop offset).take cl.toNat := by
      have hall : copied.length ≤ cl.toNat := by omega
      rw [← hbody, take_append, take_of_length_le hall, hcopied]
      exact hbuff
    refine ⟨rfl, ?_, ?_, htaken⟩
    · rw [hes]
      exact eventsWithin_copyEvents hfits hwithin
    · have hle' : cl.toNat - (h.ptr - offset) ≤ h.pieces.flatten.length := hle
      rw [htaken, ← hbody, length_take, length_append]
      omega

/-- A body that does not fit makes the copy too large: in 64 bits a negative size is huge. -/
theorem lt_signExtend_sub {ptr n : Nat} (hptr : ptr ≤ headerSize) (hoffset : offset < 2 ^ 31)
    (hn : n < 2 ^ 31) (hbad : ¬ (offset ≤ ptr ∧ ptr - offset ≤ n)) :
    n < ((BitVec.ofNat 32 ptr - BitVec.ofNat 32 offset).signExtend 64).toNat := by
  have hptr' : ptr ≤ 1024 := hptr
  have hsub : (BitVec.ofNat 32 ptr - BitVec.ofNat 32 offset).toNat =
      if offset ≤ ptr then ptr - offset else 2 ^ 32 + ptr - offset := by
    rw [BitVec.toNat_sub, BitVec.toNat_ofNat, BitVec.toNat_ofNat]
    split_ifs <;> omega
  by_cases hle : offset ≤ ptr
  · rw [if_pos hle] at hsub
    rw [Bits.toNat_signExtend_of_lt (by omega)]
    omega
  · rw [if_neg hle] at hsub
    have hmsb : (BitVec.ofNat 32 ptr - BitVec.ofNat 32 offset).msb = true := by
      rw [BitVec.msb_eq_true_iff_two_mul_ge]
      omega
    rw [BitVec.toNat_signExtend, hmsb, if_pos rfl]
    omega

/-- What is not refused and does not fit shows in the first event. -/
theorem loadBody_not_within {r : HeaderResults} {n : Nat} (hmax : r.ret.toNat ≤ maxsize.toNat)
    (hpos : 0 < r.ret.toInt) (hbad : n < (r.got.signExtend 64).toNat ∨ (r.got = 0 ∧ n = 0))
    (fuel : Nat) (memory : List Byte) :
    ¬ EventsWithin n
      (final (loadBody maxsize (fuel + 1) memory r ⟨h.pieces, [], []⟩)).events := by
  have hret := (Bits.toInt_of_pos hpos).2
  have haccepted : ¬ maxsize < r.ret.signExtend 64 := by
    rw [BitVec.lt_def, Bits.toNat_signExtend_of_lt hret]
    omega
  -- Whatever follows, the first event is too much.
  have hfirst (d : DownloadEvent) (hd : ∀ es, ¬ EventsWithin n (d :: es))
      (t : DownloadState) (ht : [d] <+: t.events) : ¬ EventsWithin n t.events := by
    obtain ⟨es, hes⟩ := ht
    rw [← hes]
    exact hd es
  have hevents : Ends (loadBody maxsize (fuel + 1) memory r ⟨h.pieces, [], []⟩)
      (fun _ t => ¬ EventsWithin n t.events) (fun _ t => ¬ EventsWithin n t.events) := by
    unfold loadBody
    rw [failIf_bind_of_not haccepted]
    rcases hbad with hgot | ⟨hgot, rfl⟩
    · have hne : r.got ≠ 0 := fun h0 => by
        rw [h0] at hgot
        exact Nat.not_lt_zero n hgot
      have hmuch := hfirst (.stored (r.got.signExtend 64).toNat) fun es hwithin =>
        absurd hwithin.1 (Nat.not_le.2 hgot)
      have hcopy : Ends (copyBody memory r.offs r.got ⟨h.pieces, [], []⟩)
          (fun _ t => [.stored (r.got.signExtend 64).toNat] <+: t.events)
          (fun _ t => [.stored (r.got.signExtend 64).toNat] <+: t.events) := by
        unfold copyBody
        rw [if_neg hne]
        exact Ends.failIf_bind (fun _ => prefix_rfl) fun _ => prefix_rfl
      refine Ends.bind (hcopy.imp (fun _ _ ht => ht) fun _ => hmuch) fun _ t ht => ?_
      refine Ends.bind ((receiveBody_events _ _ t).imp (fun _ _ hu => ht.trans hu)
        fun _ u hu => hmuch u (ht.trans hu)) fun _ => hmuch
    · have hret0 : r.ret ≠ 0 := fun h0 => by
        rw [h0] at hpos
        exact absurd hpos (by decide)
      have hmuch := hfirst (.requested (r.ret.signExtend 64).toNat) fun es hwithin =>
        absurd (Nat.lt_of_lt_of_le hwithin.1 hwithin.2.1) (Nat.lt_irrefl 0)
      have hrequest := receiveBody_requested fuel hret0 ⟨h.pieces, [], []⟩
      have hsize : r.ret - r.got = r.ret := by
        rw [hgot]
        exact BitVec.sub_zero _
      have hnone : copyBody memory r.offs r.got ⟨h.pieces, [], []⟩ = .ok () ⟨h.pieces, [], []⟩ := by
        unfold copyBody
        rw [if_pos hgot]
        rfl
      rw [bind_of_ok hnone, hsize]
      exact Ends.bind (hrequest.imp (fun _ _ ht => ht) fun _ => hmuch) fun _ => hmuch
  exact hevents.last

theorem SafeRun.of_error {a : Nat × Nat} (stop : DownloadStop) (rest : List (List Byte)) :
    SafeRun maxsize pieces a (.error stop ⟨rest, [], []⟩) := ⟨trivial, nofun, nofun⟩

theorem SafeRun.of_not_pos {a : Nat × Nat} {r : BitVec 32} (hr : r.toInt ≤ 0)
    (rest : List (List Byte)) : SafeRun maxsize pieces a (.ok r ⟨rest, [], []⟩) := by
  refine ⟨trivial, nofun, fun r' t hrun hpos => ?_⟩
  obtain ⟨rfl, -⟩ := EStateM.Result.ok.inj hrun
  omega

theorem loadFile_some_run (e : DownloadEnv) (maxsize : BitVec 64) (fuel : Nat) (h : HeaderRead)
    (s : DownloadState) : loadFile e maxsize fuel (some h) s =
      (if (h.results e).ret.toInt ≤ 0 then pure (h.results e).ret
        else loadBody maxsize fuel h.memory (h.results e)) { s with pieces := h.pieces } := rfl

theorem loadFile_safe_iff (hfrom : h.From e pieces) (fuel : Nat) :
    SafeRun maxsize pieces (announced (some h))
      (loadFile e maxsize (fuel + 1) (some h) ⟨pieces, [], []⟩) ↔ h.Fits maxsize := by
  have hsmall := e.small
  -- A length that is refused is refused in either case.
  have hrefused (hr : (h.results e).ret.toInt ≤ 0 ∨
      (maxsize.toNat : Int) < (h.results e).ret.toInt) :
      SafeRun maxsize pieces (announced (some h))
        (loadFile e maxsize (fuel + 1) (some h) ⟨pieces, [], []⟩) := by
    rw [loadFile_some_run]
    by_cases hpos : (h.results e).ret.toInt ≤ 0
    · rw [if_pos hpos]
      exact .of_not_pos hpos _
    · have hret := Bits.toInt_of_pos (Int.not_le.1 hpos)
      have hmax : maxsize < (h.results e).ret.signExtend 64 := by
        rw [BitVec.lt_def, Bits.toNat_signExtend_of_lt hret.2]
        omega
      rw [if_neg hpos]
      unfold loadBody
      rw [failIf_bind_of hmax]
      exact .of_error _ _
  have haccepted (hpos : 0 < (h.results e).ret.toInt) :
      loadFile e maxsize (fuel + 1) (some h) ⟨pieces, [], []⟩ =
        loadBody maxsize (fuel + 1) h.memory (h.results e) ⟨h.pieces, [], []⟩ := by
    rw [loadFile_some_run, if_neg (Int.not_le.2 hpos)]
  cases hret : h.ret with
  | failed r =>
    have hresults : h.results e = ⟨r, e.offs, e.got⟩ := by rw [HeaderRead.results, hret]
    have hannounced : announced (some h) = (0, 0) := by
      cases h
      obtain rfl : _ = _ := hret
      rfl
    have hfits : h.Fits maxsize ↔ (r.toInt ≤ 0 ∨ (maxsize.toNat : Int) < r.toInt) := by
      rw [HeaderRead.Fits, hret]
    rw [hresults] at hrefused haccepted
    rw [hfits]
    refine ⟨fun hsafe => ?_, hrefused⟩
    by_contra hbad
    rw [not_or, Int.not_le] at hbad
    have hpos := Bits.toInt_of_pos hbad.1
    have hwithin := hsafe.within
    rw [hannounced, haccepted hbad.1] at hwithin
    have hmax : r.toNat ≤ maxsize.toNat := by omega
    refine loadBody_not_within hmax hbad.1 ?_ fuel _ hwithin
    by_cases hgot : e.got = 0
    · exact .inr ⟨hgot, rfl⟩
    · have hne : e.got.toNat ≠ 0 := fun h0 => hgot (BitVec.eq_of_toNat_eq h0)
      refine .inl ?_
      show 0 < (e.got.signExtend 64).toNat
      rw [BitVec.toNat_signExtend, BitVec.toNat_setWidth]
      omega
  | complete cl offset got =>
    have hresults : h.results e =
        ⟨cl, BitVec.ofNat 32 offset, BitVec.ofNat 32 h.ptr - BitVec.ofNat 32 offset⟩ := by
      rw [HeaderRead.results, hret]
    have hannounced : announced (some h) = (cl.toInt.toNat, offset) := by
      cases h
      obtain rfl : _ = _ := hret
      rfl
    have hfits : h.Fits maxsize ↔ (cl.toInt ≤ 0 ∨ (maxsize.toNat : Int) < cl.toInt ∨
        (offset ≤ h.ptr ∧ h.ptr - offset ≤ cl.toNat)) := by
      rw [HeaderRead.Fits, hret]
    rw [hfits]
    by_cases hr : cl.toInt ≤ 0 ∨ (maxsize.toNat : Int) < cl.toInt
    · rw [hresults] at hrefused
      exact iff_of_true (hrefused hr) (or_assoc.1 (.inl hr))
    rw [not_or, Int.not_le] at hr
    have hpos := Bits.toInt_of_pos hr.1
    have hmax : cl.toNat ≤ maxsize.toNat := by omega
    rw [hannounced, hpos.1, haccepted (by rw [hresults]; exact hr.1)]
    by_cases hbody : offset ≤ h.ptr ∧ h.ptr - offset ≤ cl.toNat
    · refine iff_of_true ?_ (.inr (.inr hbody))
      have hends : Ends (loadBody maxsize (fuel + 1) h.memory (h.results e) ⟨h.pieces, [], []⟩) _ _ :=
        loadBody_ends hfrom hret hr.1 hbody.1 hbody.2 (fuel + 1)
      cases hrun : loadBody maxsize (fuel + 1) h.memory (h.results e) ⟨h.pieces, [], []⟩ with
      | ok r t =>
        rw [hrun] at hends
        obtain ⟨rfl, hwithin, hstored⟩ := hends
        refine ⟨hwithin, fun _ _ => hmax, fun r' t' hrun' _ => ?_⟩
        obtain ⟨rfl, rfl⟩ := EStateM.Result.ok.inj hrun'
        exact ⟨rfl, hstored⟩
      | error stop t =>
        rw [hrun] at hends
        exact ⟨hends, fun _ _ => hmax, nofun⟩
    · refine iff_of_false (fun hsafe => ?_) (by omega)
      have hoffset := hfrom.offset cl offset got hret
      have hlength := hfrom.length
      rw [hresults] at hsafe
      refine loadBody_not_within hmax hr.1 (.inl ?_) fuel _ hsafe.within
      exact lt_signExtend_sub hfrom.ptr (by omega) hpos.2 hbody

theorem httpGetFile_safe_iff {conv : Bool → List Byte → BitVec 32} {rounds : Nat}
    (hsocket : ¬ e.socket.toInt < 0) (hconnect : ¬ e.connect.toInt < 0) :
    SafeRun maxsize pieces (announced (e.readHeader conv rounds pieces))
      (httpGetFile conv e maxsize rounds ⟨pieces, [], []⟩) ↔
      ∀ h, e.readHeader conv rounds pieces = some h → h.Fits maxsize := by
  have hrun : httpGetFile conv e maxsize rounds ⟨pieces, [], []⟩ =
      loadFile e maxsize rounds (e.readHeader conv rounds pieces) ⟨pieces, [], []⟩ := by
    unfold httpGetFile
    rw [failIf_bind_of_not hsocket, failIf_bind_of_not hconnect, get_bind_run]
  rw [hrun]
  cases hread : e.readHeader conv rounds pieces with
  | none => exact iff_of_true (.of_error _ _) nofun
  | some h =>
    obtain ⟨hfrom, hrounds⟩ := readHeader_from hread
    obtain ⟨fuel, rfl⟩ := Nat.exists_eq_add_of_lt hrounds
    rw [loadFile_safe_iff hfrom]
    constructor
    · intro hfits h' hh'
      rw [← Option.some.inj hh']
      exact hfits
    · intro hfits
      exact hfits h rfl

end Both

/-- **What keeps a download safe.** For every stream, however it is cut, and whatever is on the
stack: that the header, if one is read, is refused or announces at least what came with it. -/
theorem download_safe_iff (conv : Bool → List Byte → BitVec 32) (e : DownloadEnv)
    (maxsize : BitVec 64) (pieces : List (List Byte)) :
    DownloadSafe conv e maxsize pieces ↔
      (0 ≤ e.socket.toInt → 0 ≤ e.connect.toInt →
        ∀ rounds h, e.readHeader conv rounds pieces = some h → h.Fits maxsize) := by
  by_cases hsocket : e.socket.toInt < 0
  · refine iff_of_true (fun rounds => ?_) fun h => absurd hsocket (Int.not_lt.2 h)
    have hrun : httpGetFile conv e maxsize rounds ⟨pieces, [], []⟩ =
        .error (.returned (-1)) ⟨pieces, [], []⟩ := failIf_bind_of hsocket
    rw [hrun]
    exact .of_error _ _
  by_cases hconnect : e.connect.toInt < 0
  · refine iff_of_true (fun rounds => ?_) fun _ h => absurd hconnect (Int.not_lt.2 h)
    have hrun : httpGetFile conv e maxsize rounds ⟨pieces, [], []⟩ =
        .error (.returned (-2)) ⟨pieces, [], []⟩ := by
      unfold httpGetFile
      rw [failIf_bind_of_not hsocket, failIf_bind_of hconnect]
    rw [hrun]
    exact .of_error _ _
  rw [forall_prop_of_true (Int.not_lt.1 hsocket), forall_prop_of_true (Int.not_lt.1 hconnect)]
  exact forall_congr' fun rounds => httpGetFile_safe_iff hsocket hconnect

/-- Zeros on the stack, and a connection. -/
def zeroStack : DownloadEnv where
  socket := 3
  connect := 0
  stack := List.replicate 1024 0
  wide := Nat.le_of_eq List.length_replicate.symm
  small := by
    rw [List.length_replicate]
    decide
  offs := 0
  got := 0

/-- `Content-Length: 1`, an empty line, and two bytes. -/
def shortField : List Byte :=
  ascii ['C', 'o', 'n', 't', 'e', 'n', 't', '-', 'L', 'e', 'n', 'g', 't', 'h', ':', ' ', '1', '\r',
    '\n', '\r', '\n', 'a', 'b']

theorem wholeFile_safe :
    DownloadSafe decimal zeroStack 5 [okLine ++ fieldLines, ascii ['c', 'd', 'e']] := by
  refine (download_safe_iff _ _ _ _).2 fun _ _ rounds h hread => ?_
  have hheader : ∃ h', zeroStack.readHeader decimal 3
      [okLine ++ fieldLines, ascii ['c', 'd', 'e']] = some h' ∧ h'.ret = .complete 5 38 986 ∧
      h'.ptr = 40 := ⟨_, rfl, by decide +kernel, by decide +kernel⟩
  obtain ⟨h', hread', hret, hptr⟩ := hheader
  rw [readHeader_unique hread hread', HeaderRead.Fits, hret, hptr]
  decide

/-- A byte too many is copied, and the rest of the body is -1 bytes. -/
theorem shortField_unsafe : ¬ DownloadSafe decimal zeroStack 100 [okLine ++ shortField] := by
  have hheader : ∃ h, zeroStack.readHeader decimal 3 [okLine ++ shortField] = some h ∧
      h.ret = .complete 1 38 986 ∧ h.ptr = 40 := ⟨_, rfl, by decide +kernel, by decide +kernel⟩
  obtain ⟨h, hread, hret, hptr⟩ := hheader
  intro hsafe
  have hfits := (httpGetFile_safe_iff (by decide) (by decide)).1 (hsafe 3) h hread
  rw [HeaderRead.Fits, hret, hptr] at hfits
  revert hfits
  decide

end LibTransistor
