import LibTransistor.Lib.Bits
import LibTransistor.Lib.Runs
import LibTransistor.Loader.Nro

/-!
# Uploading a program

`server_loop` in `projects/ace_loader/server.c`. A client connects and sends either commands or a
program, which is stored in the heap and run when the client disconnects. Which of the two it is,
and how much room is left, is in one variable: `size`.

* `serverStep` — a round of the loop, with what `bsd_accept` or `bsd_recv` has given.
* `Upload` — a program, cut into the pieces in which it is received.
* `upload_executed_iff` — it is run once and as it was sent exactly if the first piece is long
  enough to recognise it, the room that is left is never the mark for commands, and the size is an
  `int`.
-/

namespace LibTransistor

open List

/-! ## Commands -/

def recvBlockSize : Nat := 2048

/-- `size` while a client sends commands. -/
def commandMode : BitVec 64 := 0xFFFFFFFF

/-- The entries of `server_commands`. -/
inductive ServerCommand
  | help
  | echo
  | exit
  | stdout
  | exec
  | meminfo
  | stats
  | reboot
  | args
  deriving DecidableEq

namespace ServerCommand

def cmd : ServerCommand → List Byte
  | help => ascii ['h', 'e', 'l', 'p']
  | echo => ascii ['e', 'c', 'h', 'o']
  | exit => ascii ['e', 'x', 'i', 't']
  | stdout => ascii ['s', 't', 'd', 'o', 'u', 't']
  | exec => ascii ['e', 'x', 'e', 'c']
  | meminfo => ascii ['m', 'e', 'm', 'i', 'n', 'f', 'o']
  | stats => ascii ['s', 't', 'a', 't', 's']
  | reboot => ascii ['r', 'e', 'b', 'o', 'o', 't']
  | args => ascii ['a', 'r', 'g', 's']

def serverCommands : List ServerCommand :=
  [help, echo, exit, stdout, exec, meminfo, stats, reboot, args]

end ServerCommand

/-- `cmd_compare` after `i` bytes: a command without its zero, and a line with it. -/
def cmdCompare (i : Nat) : List Byte → List Byte → Nat
  | [], b :: _ => if b = 0x20 ∨ b = 0 then i else 0
  | c :: cs, b :: bs => if b = 0x20 ∨ c ≠ b then 0 else cmdCompare (i + 1) cs bs
  | _, [] => 0

/-- The loop over the commands: the first that is found, with its length. -/
def findCommand (line : List Byte) : Option (ServerCommand × Nat) :=
  ServerCommand.serverCommands.findSome? fun c =>
    let len := cmdCompare 0 c.cmd line
    if len ≠ 0 then some (c, len) else none

/-- The ends of lines become zeros, up to a zero. -/
def cutLines : List Byte → List Byte
  | [] => []
  | b :: bs => if b = 0 then b :: bs else (if b = 0x0A ∨ b = 0x0D then 0 else b) :: cutLines bs

/-- What follows a command and a space. -/
def commandParameter (text : List Byte) (len : Nat) : Option (List Byte) :=
  if text[len]? = some 0x20 then some ((text.drop (len + 1)).takeWhile (· ≠ 0)) else none

/-! ## `server_loop` -/

/-- A call of `nro_execute`, with the memory in which it is made. -/
structure ExecuteCall where
  loadBase : BitVec 64
  inSize : BitVec 32
  memory : Mem Byte

structure ServerState where
  mem : Mem Byte
  heap : HeapBlock
  /-- `sockets[1]` is a client. -/
  connected : Bool
  ptr : BitVec 64
  size : BitVec 64
  /-- The programs that the loop has run. -/
  executed : List ExecuteCall
  /-- The loop has been left. -/
  stopped : Bool

/-- Memory and heap after a program or a command. -/
structure ServerEffect where
  mem : Mem Byte
  heap : HeapBlock

/-- What programs and commands do. -/
structure ServerEnv where
  nroExecute : ExecuteCall → BitVec 64 × ServerEffect
  /-- A command with its parameter; it may not return. -/
  func : ServerCommand → Option (List Byte) → ServerEffect → Option ServerEffect

/-- What `bsd_accept` and `bsd_recv` give. -/
inductive ServerEvent
  | accepted
  | acceptFailed
  | received (piece : List Byte)
  | disconnected
  | dropped

namespace ServerState

variable (env : ServerEnv) (s : ServerState)

/-- Command mode, after a piece of `ret` bytes. -/
def runCommand (ret : Nat) : ServerState :=
  let isSilent := s.mem s.ptr.toNat = 0x21
  let text := cutLines (s.mem.read s.ptr.toNat ret ++ [0])
  let mem := s.mem.write s.ptr.toNat text
  let line := if isSilent then text.drop 1 else text
  match findCommand line with
  | none => { s with mem := mem, ptr := s.heap.base }
  | some (.exit, _) => { s with mem := mem, connected := false, stopped := true }
  | some (c, len) =>
    match env.func c (commandParameter line len) ⟨mem, s.heap⟩ with
    | none => { s with mem := mem, stopped := true }
    | some effect => { s with mem := effect.mem, heap := effect.heap, ptr := effect.heap.base }

/-- A piece that belongs to a program. -/
def storePiece (ret : Nat) : ServerState :=
  let size := s.size - BitVec.ofNat 64 ret
  { s with
    size := size
    ptr := s.ptr + BitVec.ofNat 64 ret
    connected := !decide (size.toNat < recvBlockSize) }

/-- The first piece does not begin a program. -/
def NotNro (ret : Nat) : Prop := ret < 0x14 ∨ wordAt s.mem (s.ptr + 0x10).toNat ≠ nroMagic

instance (ret : Nat) : Decidable (s.NotNro ret) := inferInstanceAs (Decidable (_ ∨ _))

/-- After `bsd_recv` has stored a piece. -/
def handlePiece (ret : Nat) : ServerState :=
  let size := if s.size = s.heap.size ∧ s.NotNro ret then commandMode else s.size
  if size = commandMode then runCommand env { s with size := size } ret else s.storePiece ret

/-- After the client has disconnected. -/
def handleDisconnect : ServerState :=
  if s.size ≠ s.heap.size ∧ s.size ≠ commandMode then
    let call := ⟨s.heap.base, (s.ptr - s.heap.base).setWidth 32, s.mem⟩
    let result := env.nroExecute call
    { s with
      connected := false
      mem := result.2.mem
      heap := result.2.heap
      size := result.1
      executed := s.executed ++ [call] }
  else { s with connected := false }

end ServerState

/-- A round of the loop. It calls `bsd_recv` if there is a client, and `bsd_accept` otherwise. -/
def serverStep (env : ServerEnv) (e : ServerEvent) (s : ServerState) : ServerState :=
  if s.stopped then s
  else match s.connected, e with
    | false, .accepted => { s with connected := true, ptr := s.heap.base, size := s.heap.size }
    | false, .acceptFailed => { s with stopped := true }
    | true, .received piece =>
      { s with mem := s.mem.write s.ptr.toNat piece }.handlePiece env piece.length
    | true, .disconnected => s.handleDisconnect env
    | true, .dropped => { s with connected := false }
    | _, _ => s

/-! ## Uploads -/

/-- A program with the pieces in which it is received. -/
structure Upload where
  pieces : List (List Byte)
  nonempty : ∀ piece ∈ pieces, piece ≠ []
  small : ∀ piece ∈ pieces, piece.length ≤ recvBlockSize
  long : 0x14 ≤ pieces.flatten.length
  magic : (pieces.flatten.drop 0x10).take 4 = le32 nroMagic

namespace Upload

variable (u : Upload)

def image : List Byte := u.pieces.flatten

/-- The client connects, sends the program and disconnects. -/
def events : List ServerEvent := .accepted :: (u.pieces.map .received ++ [.disconnected])

end Upload

/-- The upload has been run, once and as it was sent. -/
def UploadExecuted (env : ServerEnv) (s : ServerState) (u : Upload) : Prop :=
  ∃ call, (System.after (serverStep env) s u.events).executed = s.executed ++ [call] ∧
    call.loadBase = s.heap.base ∧ call.inSize.toInt = (u.image.length : Int) ∧
    call.memory.read s.heap.base.toNat u.image.length = u.image

/-- The condition on an upload. -/
structure Upload.Recognised (u : Upload) (heap : HeapBlock) : Prop where
  first : 0x14 ≤ (u.pieces.headD []).length
  unmarked : ∀ pre, pre <+: u.pieces → heap.size.toNat ≠ pre.flatten.length + 0xFFFFFFFF
  length : u.image.length < 2 ^ 31

/-! ## Rounds of the loop -/

section Rounds

variable (env : ServerEnv) {s₀ s : ServerState} {pre : List (List Byte)} {piece : List Byte}

/-- Some pieces of a program have been stored, and `s₀` is the state before. -/
structure ServerState.Storing (s₀ s : ServerState) (pre : List (List Byte)) : Prop where
  running : s.stopped = false
  connected : s.connected = true
  heap : s.heap = s₀.heap
  executed : s.executed = s₀.executed
  ptr : s.ptr.toNat = s₀.heap.base.toNat + pre.flatten.length
  size : s.size.toNat + pre.flatten.length = s₀.heap.size.toNat
  stored : s.mem.read s₀.heap.base.toNat pre.flatten.length = pre.flatten

/-- The client sends commands, as far as the loop is concerned. -/
structure ServerState.Commanding (s₀ s : ServerState) : Prop where
  executed : s.executed = s₀.executed
  mode : s.stopped = true ∨ (s.connected = true ∧ s.size = commandMode)

theorem storing_accepted (hstopped : s.stopped = false) (hconnected : s.connected = false) :
    s.Storing (serverStep env .accepted s) [] := by
  have hstep : serverStep env .accepted s =
      { s with connected := true, ptr := s.heap.base, size := s.heap.size } := by
    unfold serverStep
    rw [hstopped, hconnected]
    rfl
  rw [hstep]
  exact ⟨hstopped, rfl, rfl, rfl, rfl, rfl, rfl⟩

theorem serverStep_received (hstopped : s.stopped = false) (hconnected : s.connected = true) :
    serverStep env (.received piece) s =
      { s with mem := s.mem.write s.ptr.toNat piece }.handlePiece env piece.length := by
  unfold serverStep
  rw [hstopped, hconnected]
  rfl

theorem commanding_runCommand (ret : Nat) (hexecuted : s.executed = s₀.executed)
    (hconnected : s.connected = true) (hsize : s.size = commandMode) :
    s₀.Commanding (s.runCommand env ret) := by
  unfold ServerState.runCommand
  dsimp only
  split
  · exact ⟨hexecuted, .inr ⟨hconnected, hsize⟩⟩
  · exact ⟨hexecuted, .inl rfl⟩
  · split
    · exact ⟨hexecuted, .inl rfl⟩
    · exact ⟨hexecuted, .inr ⟨hconnected, hsize⟩⟩

theorem commanding_received (h : s₀.Commanding s) (piece : List Byte) :
    s₀.Commanding (serverStep env (.received piece) s) := by
  by_cases hstopped : s.stopped = true
  · have hstep : serverStep env (.received piece) s = s := if_pos hstopped
    rw [hstep]
    exact h
  · obtain ⟨hconnected, hsize⟩ := h.mode.resolve_left hstopped
    rw [serverStep_received env (Bool.not_eq_true _ ▸ hstopped) hconnected]
    unfold ServerState.handlePiece
    rw [hsize, ite_self, if_pos rfl]
    exact commanding_runCommand env _ h.executed hconnected rfl

theorem commanding_disconnected (h : s₀.Commanding s) :
    (serverStep env .disconnected s).executed = s₀.executed := by
  by_cases hstopped : s.stopped = true
  · have hstep : serverStep env .disconnected s = s := if_pos hstopped
    rw [hstep]
    exact h.executed
  · obtain ⟨hconnected, hsize⟩ := h.mode.resolve_left hstopped
    have hstep : serverStep env .disconnected s = s.handleDisconnect env := by
      unfold serverStep
      rw [if_neg hstopped, hconnected]
    have hmark : ¬ (s.size ≠ s.heap.size ∧ s.size ≠ commandMode) := fun h => h.2 hsize
    rw [hstep, ServerState.handleDisconnect, if_neg hmark]
    exact h.executed

/-- Once the client sends commands, the upload is not run any more. -/
theorem commanding_run (h : s₀.Commanding s) (rest : List (List Byte)) :
    (System.after (serverStep env) s (rest.map .received ++ [.disconnected])).executed =
      s₀.executed := by
  induction rest generalizing s with
  | nil => exact commanding_disconnected env h
  | cons piece rest ih => exact ih (commanding_received env h piece)

/-- A piece is taken for a command if it does not begin a program, or if the room that is left is
the mark. -/
theorem commanding_of_storing (piece : List Byte) (h : s₀.Storing s pre)
    (hmark : (pre.flatten = [] ∧
        ({ s with mem := s.mem.write s.ptr.toNat piece } : ServerState).NotNro piece.length) ∨
      s₀.heap.size.toNat = pre.flatten.length + 0xFFFFFFFF) :
    s₀.Commanding (serverStep env (.received piece) s) := by
  rw [serverStep_received env h.running h.connected]
  unfold ServerState.handlePiece
  have hsize := h.size
  have hmode : (if s.size = s.heap.size ∧
      ({ s with mem := s.mem.write s.ptr.toNat piece } : ServerState).NotNro piece.length
      then commandMode else s.size) = commandMode := by
    rcases hmark with ⟨hfirst, hnot⟩ | hmark
    · rw [hfirst] at hsize
      refine if_pos ⟨?_, hnot⟩
      rw [h.heap]
      exact BitVec.eq_of_toNat_eq hsize
    · have hmark' : s.size = commandMode := by
        apply BitVec.eq_of_toNat_eq
        show s.size.toNat = 0xFFFFFFFF
        omega
      rw [hmark', ite_self]
  rw [hmode, if_pos rfl]
  exact commanding_runCommand env _ h.executed h.connected rfl

theorem storing_received (h : s₀.Storing s pre)
    (hfits : pre.flatten.length + piece.length + recvBlockSize ≤ s₀.heap.size.toNat)
    (hnro : pre.flatten = [] →
      ¬ ({ s with mem := s.mem.write s.ptr.toNat piece } : ServerState).NotNro piece.length)
    (hmark : s₀.heap.size.toNat ≠ pre.flatten.length + 0xFFFFFFFF) :
    s₀.Storing (serverStep env (.received piece) s) (pre ++ [piece]) := by
  have hsize := h.size
  have hptr := h.ptr
  have hheap := s₀.heap.fits
  have hblock : recvBlockSize = 2048 := rfl
  have hflatten : (pre ++ [piece]).flatten = pre.flatten ++ piece := by
    rw [flatten_append, flatten_singleton]
  have hkept : ¬ (s.size = s.heap.size ∧
      ({ s with mem := s.mem.write s.ptr.toNat piece } : ServerState).NotNro piece.length) := by
    rintro ⟨hsame, hnot⟩
    refine hnro ?_ hnot
    rw [h.heap] at hsame
    rw [hsame] at hsize
    exact length_eq_zero_iff.1 (by omega)
  have hunmarked : s.size ≠ commandMode := by
    intro hmode
    rw [hmode] at hsize
    have hvalue : commandMode.toNat = 0xFFFFFFFF := rfl
    omega
  rw [serverStep_received env h.running h.connected]
  unfold ServerState.handlePiece
  rw [if_neg hkept, if_neg hunmarked]
  unfold ServerState.storePiece
  have hnext : (s.size - BitVec.ofNat 64 piece.length).toNat = s.size.toNat - piece.length := by
    rw [BitVec.toNat_sub, BitVec.toNat_ofNat]
    omega
  have hnextPtr : (s.ptr + BitVec.ofNat 64 piece.length).toNat = s.ptr.toNat + piece.length := by
    rw [BitVec.toNat_add, BitVec.toNat_ofNat]
    omega
  refine ⟨h.running, ?_, h.heap, h.executed, ?_, ?_, ?_⟩
  · show (!decide ((s.size - BitVec.ofNat 64 piece.length).toNat < recvBlockSize)) = true
    rw [decide_eq_false (by omega)]
    rfl
  · rw [hflatten, length_append]
    show (s.ptr + BitVec.ofNat 64 piece.length).toNat = _
    omega
  · rw [hflatten, length_append]
    show (s.size - BitVec.ofNat 64 piece.length).toNat + _ = _
    omega
  · rw [hflatten, length_append, Mem.read_add]
    rw [hptr, Mem.read_write_of_le _ _ (Nat.le_refl _), h.stored, Mem.read_write_self]

theorem serverStep_disconnected (hstopped : s.stopped = false) (hconnected : s.connected = true) :
    serverStep env .disconnected s = s.handleDisconnect env := by
  unfold serverStep
  rw [hstopped, hconnected]
  rfl

theorem storing_disconnected (h : s₀.Storing s pre) (hne : pre.flatten ≠ [])
    (hmark : s₀.heap.size.toNat ≠ pre.flatten.length + 0xFFFFFFFF) :
    (serverStep env .disconnected s).executed =
      s₀.executed ++ [⟨s₀.heap.base, BitVec.ofNat 32 pre.flatten.length, s.mem⟩] := by
  have hsize := h.size
  have hptr := h.ptr
  have hpos := length_pos_iff.2 hne
  have hrun : s.size ≠ s.heap.size ∧ s.size ≠ commandMode := by
    refine ⟨fun hsame => ?_, fun hmode => ?_⟩
    · rw [hsame, h.heap] at hsize
      omega
    · rw [hmode] at hsize
      have hvalue : commandMode.toNat = 0xFFFFFFFF := rfl
      omega
  have hlength : (s.ptr - s₀.heap.base).setWidth 32 = BitVec.ofNat 32 pre.flatten.length := by
    apply BitVec.eq_of_toNat_eq
    rw [BitVec.toNat_setWidth, BitVec.toNat_ofNat, BitVec.toNat_sub]
    omega
  rw [serverStep_disconnected env h.running h.connected, ServerState.handleDisconnect, if_pos hrun,
    h.heap, h.executed, hlength]

theorem storing_disconnected_marked (h : s₀.Storing s pre)
    (hmark : s₀.heap.size.toNat = pre.flatten.length + 0xFFFFFFFF) :
    (serverStep env .disconnected s).executed = s₀.executed := by
  have hsize := h.size
  have hmode : s.size = commandMode := by
    apply BitVec.eq_of_toNat_eq
    show s.size.toNat = 0xFFFFFFFF
    omega
  exact commanding_disconnected env ⟨h.executed, .inr ⟨h.connected, hmode⟩⟩

/-- **The rest of a program** is run with what came before, unless the room that is left is the mark
at some point. -/
theorem storing_run (h : s₀.Storing s pre) (hne : pre.flatten ≠ []) (rest : List (List Byte))
    (hfits : (pre ++ rest).flatten.length + recvBlockSize ≤ s₀.heap.size.toNat) :
    ((∀ q, q <+: rest → s₀.heap.size.toNat ≠ (pre ++ q).flatten.length + 0xFFFFFFFF) →
      ∃ m : Mem Byte, m.read s₀.heap.base.toNat (pre ++ rest).flatten.length =
          (pre ++ rest).flatten ∧
        (System.after (serverStep env) s (rest.map .received ++ [.disconnected])).executed =
          s₀.executed ++ [⟨s₀.heap.base, BitVec.ofNat 32 (pre ++ rest).flatten.length, m⟩]) ∧
    (∀ q, q <+: rest → s₀.heap.size.toNat = (pre ++ q).flatten.length + 0xFFFFFFFF →
      (System.after (serverStep env) s (rest.map .received ++ [.disconnected])).executed =
        s₀.executed) := by
  induction rest generalizing s pre with
  | nil =>
    rw [append_nil]
    refine ⟨fun hmark => ⟨s.mem, h.stored, ?_⟩, fun q hq hmark => ?_⟩
    · have hend := hmark [] prefix_rfl
      rw [append_nil] at hend
      exact storing_disconnected env h hne hend
    · rw [prefix_nil.1 hq, append_nil] at hmark
      exact storing_disconnected_marked env h hmark
  | cons piece rest ih =>
    have hassoc : pre ++ piece :: rest = (pre ++ [piece]) ++ rest := by
      rw [append_assoc]
      rfl
    by_cases hhere : s₀.heap.size.toNat = pre.flatten.length + 0xFFFFFFFF
    · -- The piece is taken for a command.
      have hlost := commanding_run env (commanding_of_storing env piece h (.inr hhere)) rest
      refine ⟨fun hmark => ?_, fun _ _ _ => hlost⟩
      have hnow := hmark [] nil_prefix
      rw [append_nil] at hnow
      exact absurd hhere hnow
    · have hlength : pre.flatten.length + piece.length + recvBlockSize ≤ s₀.heap.size.toNat := by
        rw [flatten_append, flatten_cons, length_append, length_append] at hfits
        omega
      have hnext := storing_received env h hlength (fun hnil => absurd hnil hne) hhere
      have hne' : (pre ++ [piece]).flatten ≠ [] := by
        rw [flatten_append]
        exact append_ne_nil_of_left_ne_nil hne _
      rw [hassoc] at hfits ⊢
      obtain ⟨hrun, hlost⟩ := ih hnext hne' hfits
      refine ⟨fun hmark => hrun fun q hq => ?_, fun q hq hmark => ?_⟩
      · have hthere := hmark (piece :: q) (cons_prefix_cons.2 ⟨rfl, hq⟩)
        rw [append_assoc]
        exact hthere
      · rcases prefix_cons_iff.1 hq with rfl | ⟨q', rfl, hq'⟩
        · rw [append_nil] at hmark
          exact absurd hmark hhere
        · refine hlost q' hq' ?_
          rw [append_assoc]
          exact hmark

theorem not_notNro {first : List Byte} (rest : List Byte)
    (h : s₀.Storing s []) (hlong : 0x14 ≤ first.length) (hfits : first.length ≤ s₀.heap.size.toNat)
    (hmagic : ((first ++ rest).drop 0x10).take 4 = le32 nroMagic) :
    ¬ ({ s with mem := s.mem.write s.ptr.toNat first } : ServerState).NotNro first.length := by
  have hheap := s₀.heap.fits
  have hptr : s.ptr.toNat = s₀.heap.base.toNat := h.ptr
  have haddr : (s.ptr + 0x10).toNat = s.ptr.toNat + 0x10 := by
    rw [BitVec.toNat_add, show (0x10 : BitVec 64).toNat = 0x10 from rfl]
    omega
  have hfirst : (first.drop 0x10).take 4 = le32 nroMagic := by
    rw [drop_append_of_le_length (by omega),
      take_append_of_le_length (by rw [length_drop]; omega)] at hmagic
    exact hmagic
  have hread : (s.mem.write s.ptr.toNat first).read (s.ptr + 0x10).toNat 4 = le32 nroMagic := by
    rw [haddr, ← hfirst]
    exact Mem.read_drop (Mem.read_write_self _ _ _) (by omega)
  rintro (hshort | hother)
  · omega
  · exact hother (wordAt_eq hread)

theorem not_executed_of_lost {u : Upload}
    (hlost : (System.after (serverStep env) s u.events).executed = s.executed) :
    ¬ UploadExecuted env s u := by
  rintro ⟨call, hcall, -⟩
  have hsame := congrArg List.length (hlost.symm.trans hcall)
  rw [length_append, length_singleton] at hsame
  omega

theorem not_executed_of_command {u : Upload} {first : List Byte}
    {rest : List (List Byte)} (hstopped : s.stopped = false) (hconnected : s.connected = false)
    (hpieces : u.pieces = first :: rest)
    (hcommand : first.length < 0x14 ∨ s.heap.size.toNat = 0xFFFFFFFF) :
    ¬ UploadExecuted env s u := by
  have hstart := storing_accepted env hstopped hconnected
  have hcommanding := commanding_of_storing env first hstart
    (hcommand.imp (fun h => ⟨rfl, .inl h⟩) fun h => h.trans (Nat.zero_add _).symm)
  have hlost := commanding_run env hcommanding rest
  refine not_executed_of_lost env ?_
  rw [Upload.events, hpieces]
  exact hlost

end Rounds

/-- **What is uploaded is run.** For every program that fits the heap with a block to spare, every
way to cut it and whatever commands do: it is run once, as it was sent, exactly if it is
recognised. -/
theorem upload_executed_iff (env : ServerEnv) (s : ServerState) (u : Upload)
    (hstopped : s.stopped = false) (hconnected : s.connected = false)
    (hfits : u.image.length + recvBlockSize ≤ s.heap.size.toNat) :
    UploadExecuted env s u ↔ u.Recognised s.heap := by
  have hstart := storing_accepted env hstopped hconnected
  obtain ⟨pieces, nonempty, small, long, magic⟩ := u
  cases pieces with
  | nil => exact absurd long (by decide)
  | cons first rest =>
    have hlength : ([] : List (List Byte)).flatten.length + first.length + recvBlockSize ≤
        s.heap.size.toNat := by
      have hflatten : (first :: rest).flatten.length + recvBlockSize ≤ _ := hfits
      rw [flatten_cons, length_append] at hflatten
      rw [flatten_nil, length_nil]
      omega
    by_cases hcommand : first.length < 0x14 ∨ s.heap.size.toNat = 0xFFFFFFFF
    · refine iff_of_false (not_executed_of_command env hstopped hconnected rfl hcommand) fun hr => ?_
      rcases hcommand with hshort | hmark
      · exact absurd hr.first (Nat.not_le.2 hshort)
      · exact hr.unmarked [] nil_prefix (hmark.trans (Nat.zero_add _).symm)
    · obtain ⟨hlong, hmark⟩ := not_or.1 hcommand
      have hfirst : first.length ≤ s.heap.size.toNat := by omega
      have hnro := not_notNro rest.flatten hstart (Nat.not_lt.1 hlong) hfirst magic
      have hstored := storing_received env hstart hlength (fun _ => hnro)
        (fun h => hmark (h.trans (Nat.zero_add _)))
      have hne : ([] ++ [first]).flatten ≠ [] := by
        rw [nil_append, flatten_singleton]
        exact nonempty first mem_cons_self
      obtain ⟨hrun, hlost⟩ := storing_run env hstored hne rest hfits
      by_cases hmarked : ∃ q, q <+: rest ∧
          s.heap.size.toNat = (([] ++ [first]) ++ q).flatten.length + 0xFFFFFFFF
      · obtain ⟨q, hq, hmarked⟩ := hmarked
        refine iff_of_false (not_executed_of_lost env (hlost q hq hmarked)) fun hr => ?_
        exact hr.unmarked (first :: q) (cons_prefix_cons.2 ⟨rfl, hq⟩) hmarked
      · obtain ⟨m, hread, hexecuted⟩ := hrun fun q hq hq' => hmarked ⟨q, hq, hq'⟩
        constructor
        · rintro ⟨call, hcall, -, hsize, -⟩
          have hsame := append_cancel_left (hexecuted.symm.trans hcall)
          rw [← (List.cons.inj hsame).1] at hsize
          have hlt := BitVec.toInt_lt (x := BitVec.ofNat 32 (first :: rest).flatten.length)
          refine ⟨Nat.not_lt.1 hlong, fun q hq hq' => ?_, ?_⟩
          · rcases prefix_cons_iff.1 hq with rfl | ⟨q', rfl, hrest⟩
            · exact hmark (hq'.trans (Nat.zero_add _))
            · exact hmarked ⟨q', hrest, hq'⟩
          · have hsize' : (BitVec.ofNat 32 (first :: rest).flatten.length).toInt =
              ((first :: rest).flatten.length : Int) := hsize
            show (first :: rest).flatten.length < 2 ^ 31
            omega
        · intro hr
          exact ⟨_, hexecuted, rfl, Bits.toInt_ofNat_of_lt hr.length, hread⟩

/-- Programs and commands that change nothing. -/
def idleEnv : ServerEnv where
  nroExecute call := (0, ⟨call.memory, smallHeap⟩)
  func _ _ effect := some effect

/-- A server that waits for a client. -/
def waitingServer : ServerState where
  mem := fun _ => 0
  heap := smallHeap
  connected := false
  ptr := 0
  size := 0
  executed := []
  stopped := false

/-- A program in three pieces, cut behind the magic. -/
def piecedUpload : Upload where
  pieces := [List.replicate 0x10 0 ++ le32 nroMagic, [1, 2, 3], [4]]
  nonempty := by decide
  small := by decide
  long := by decide
  magic := by decide

theorem piecedUpload_executed :
    waitingServer.stopped = false ∧ waitingServer.connected = false ∧
      piecedUpload.image.length + recvBlockSize ≤ waitingServer.heap.size.toNat ∧
      UploadExecuted idleEnv waitingServer piecedUpload := by
  refine ⟨rfl, rfl, by decide, ?_⟩
  refine (upload_executed_iff _ _ _ rfl rfl (by decide)).2 ⟨by decide, ?_, by decide⟩
  intro pre _ hmark
  have hsmall : waitingServer.heap.size.toNat = 0x200000 := rfl
  omega

/-- The same program, cut in front of the magic. -/
def cutUpload : Upload where
  pieces := [List.replicate 0x10 0, le32 nroMagic ++ [1, 2, 3], [4]]
  nonempty := by decide
  small := by decide
  long := by decide
  magic := by decide

/-- The first piece is taken for a command, and the program is not run. -/
theorem cutUpload_not_executed :
    cutUpload.image = piecedUpload.image ∧ ¬ UploadExecuted idleEnv waitingServer cutUpload := by
  refine ⟨by decide, ?_⟩
  exact not_executed_of_command idleEnv rfl rfl rfl (.inl (by decide))

end LibTransistor
