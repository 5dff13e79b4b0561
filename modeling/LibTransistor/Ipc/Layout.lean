import LibTransistor.Ipc.Message
import Mathlib.Data.List.Induction

/-!
# What the packer writes

`ipcPackMessage` is a sequence of loops over a head. Every loop is described by the list of words it
leaves behind, and the whole function by their concatenation: a message that is accepted
(`ipcPackMessage_eq_ok`) moves the cursor by exactly those words.

* `descriptorsOf` — the descriptor lists, as a function of the buffers alone.
* `Accepted` — what the packer has checked by the time it returns `RESULT_OK`.
* `layout` — the words of the message. Where the packer skips words, the list has what the buffer
  held there.
-/

namespace LibTransistor

open Fallible Cursor List Mem

variable {c c' : Cursor Word} {bufs : List IpcBuffer} {m : Mem Word} {msg : PackMessage}
  {ws : List Word}

/-! ## The descriptor lists -/

namespace IpcBuffer

/-- The descriptors a buffer adds to a list: itself, or the null half of a paired buffer. -/
def contrib (buf : IpcBuffer) (l : Family) : List IpcBuffer :=
  if buf.type &&& 0x20#32 = 0#32 then
    if plainFamily buf.type = some l then [buf] else []
  else if buf.type = 0x21#32 then
    match l with
    | .a => [buf]
    | .x => [nullBuffer]
    | _ => []
  else if buf.type = 0x22#32 then
    match l with
    | .b => [buf]
    | .c => [nullBuffer]
    | _ => []
  else []

/-- The types `ipc_pack_message` does not refuse. -/
def Supported (buf : IpcBuffer) : Prop :=
  if buf.type &&& 0x20#32 = 0#32 then plainFamily buf.type ≠ none else buf.type = 0x21#32 ∨ buf.type = 0x22#32

end IpcBuffer

/-- The descriptor lists of a list of buffers. -/
def descriptorsOf (bufs : List IpcBuffer) : Descriptors := fun l => bufs.flatMap (·.contrib l)

theorem Descriptors.push_apply (d : Descriptors) (l l' : Family) (buf : IpcBuffer) :
    d.push l buf l' = d l' ++ if l' = l then [buf] else [] := by
  unfold Descriptors.push
  rw [Function.update_apply]
  split_ifs with h
  · rw [h]
  · rw [List.append_nil]

/-- One round: each list grows by what the buffer contributes, up to 16 entries. -/
theorem groupBuffer_eq_ok {d d' : Descriptors} {buf : IpcBuffer} (h : groupBuffer d buf = .ok d') :
    buf.Supported ∧ (∀ l, d' l = d l ++ buf.contrib l) ∧
      ((∀ l, (d l).length ≤ 16) → ∀ l, (d' l).length ≤ 16) := by
  unfold groupBuffer at h
  by_cases h20 : buf.type &&& 0x20#32 = 0#32
  · rw [if_pos h20] at h
    cases hf : plainFamily buf.type with
    | none => rw [hf] at h; cases h
    | some l =>
      simp only [hf] at h
      split_ifs at h with hlen
      cases h
      refine ⟨by simp [IpcBuffer.Supported, h20, hf], fun l' => ?_, fun hd l' => ?_⟩
      · rw [Descriptors.push_apply]
        simp [IpcBuffer.contrib, h20, hf, eq_comm]
      · rw [Descriptors.push_apply]
        split_ifs with hl
        · subst hl; simp; omega
        · simpa using hd l'
  rw [if_neg h20] at h
  by_cases h21 : buf.type = 0x21#32
  · split_ifs at h with hlen
    cases h
    refine ⟨by simp [IpcBuffer.Supported, h21], fun l' => ?_, fun hd l' => ?_⟩
    · rw [Descriptors.push_apply, Descriptors.push_apply]
      cases l' <;> simp [IpcBuffer.contrib, h21]
    · have := hd l'
      rw [Descriptors.push_apply, Descriptors.push_apply]
      cases l' <;> simp <;> omega
  rw [if_neg h21] at h
  by_cases h22 : buf.type = 0x22#32
  · split_ifs at h with hlen
    cases h
    refine ⟨by simp [IpcBuffer.Supported, h22], fun l' => ?_, fun hd l' => ?_⟩
    · rw [Descriptors.push_apply, Descriptors.push_apply]
      cases l' <;> simp [IpcBuffer.contrib, h22]
    · have := hd l'
      rw [Descriptors.push_apply, Descriptors.push_apply]
      cases l' <;> simp <;> omega
  · rw [if_neg h22] at h
    cases h

/-- The whole loop. -/
theorem groupBuffers_eq_ok {d d' : Descriptors} (h : groupBuffers d bufs = .ok d') :
    (∀ buf ∈ bufs, buf.Supported) ∧ (∀ l, d' l = d l ++ descriptorsOf bufs l) ∧
      ((∀ l, (d l).length ≤ 16) → ∀ l, (d' l).length ≤ 16) := by
  induction bufs generalizing d with
  | nil =>
    cases h
    exact ⟨by simp, by simp [descriptorsOf], fun hd => hd⟩
  | cons buf bufs ih =>
    simp only [groupBuffers] at h
    cases hb : groupBuffer d buf with
    | error e => rw [hb] at h; cases h
    | ok d₁ =>
      rw [hb] at h
      obtain ⟨hs, hc, hl⟩ := groupBuffer_eq_ok hb
      obtain ⟨hs', hc', hl'⟩ := ih h
      refine ⟨by simpa using ⟨hs, hs'⟩, fun l => ?_, fun hd => hl' (hl hd)⟩
      rw [hc' l, hc l]
      simp [descriptorsOf]

/-! ## The words of each loop -/

def xWords (i : Nat) (bufs : List IpcBuffer) : List Word :=
  (bufs.zipIdx i).flatMap fun x => [xField x.2 x.1, x.1.addr.setWidth 32]

def abWords (bufs : List IpcBuffer) : List Word :=
  bufs.flatMap fun buf => [buf.size.setWidth 32, buf.addr.setWidth 32, abField buf]

def cWords (bufs : List IpcBuffer) : List Word :=
  bufs.flatMap fun buf => [buf.addr.setWidth 32, cField buf]

/-- The C descriptors that have an entry in the length list. -/
def listed (bufs : List IpcBuffer) : List IpcBuffer := bufs.filter fun buf => buf.type &&& 0x10#32 = 0#32

/-- The length list, two lengths to a word, over a buffer that held `m`. An odd length leaves the
upper half of the last word alone. -/
def lengthWords (m : Mem Word) : Nat → List (BitVec 16) → List Word
  | _, [] => []
  | i, [v] => [setHalf false v (m i)]
  | i, v :: v' :: vs => (v' ++ v) :: lengthWords m (i + 1) vs

@[simp] theorem length_xWords (i : Nat) (bufs : List IpcBuffer) :
    (xWords i bufs).length = 2 * bufs.length := by
  simp [xWords, map_const', Nat.mul_comm]

@[simp] theorem length_abWords (bufs : List IpcBuffer) :
    (abWords bufs).length = 3 * bufs.length := by
  simp [abWords, map_const', Nat.mul_comm]

@[simp] theorem length_cWords (bufs : List IpcBuffer) : (cWords bufs).length = 2 * bufs.length := by
  simp [cWords, map_const', Nat.mul_comm]

@[simp] theorem length_lengthWords (m : Mem Word) (i : Nat) (vs : List (BitVec 16)) :
    (lengthWords m i vs).length = (vs.length + 1) / 2 := by
  fun_induction lengthWords m i vs with
  | case1 => rfl
  | case2 => simp
  | case3 i v v' vs ih => simp [ih]; omega

/-! ## What the checks let through -/

variable (buf : IpcBuffer)

/-- An X descriptor's address has 39 bits and its size 16. -/
def XOk : Prop := buf.addr >>> 39 = 0#64 ∧ buf.size >>> 16 = 0#64

/-- An A or B descriptor's address has 39 bits, its size 35, its protection two. -/
def ABOk : Prop :=
  buf.addr >>> 39 = 0#64 ∧ buf.size >>> 35 = 0#64 ∧ buf.type >>> 8 = 0#32

/-- A C descriptor's address has 48 bits and its size 16. -/
def COk : Prop := buf.addr >>> 48 = 0#64 ∧ buf.size >>> 16 = 0#64

theorem packXDescriptors_eq_ok {i : Nat} (h : packXDescriptors i bufs c = .ok () c') :
    (∀ buf ∈ bufs, XOk buf) ∧ c' = c.append (xWords i bufs) := by
  induction bufs generalizing i c with
  | nil =>
    obtain ⟨-, rfl⟩ := pure_eq_ok.1 h
    exact ⟨by simp, by simp [xWords]⟩
  | cons buf bufs ih =>
    obtain ⟨ha, h⟩ := failIf_bind_eq_ok.1 h
    obtain ⟨hs, h⟩ := failIf_bind_eq_ok.1 h
    obtain ⟨hok, rfl⟩ := ih h
    refine ⟨?_, by simp [xWords]⟩
    simpa [XOk] using ⟨⟨not_not.1 ha, not_not.1 hs⟩, hok⟩

theorem packABDescriptors_eq_ok (h : packABDescriptors bufs c = .ok () c') :
    (∀ buf ∈ bufs, ABOk buf) ∧ c' = c.append (abWords bufs) := by
  induction bufs generalizing c with
  | nil =>
    obtain ⟨-, rfl⟩ := pure_eq_ok.1 h
    exact ⟨by simp, by simp [abWords]⟩
  | cons buf bufs ih =>
    obtain ⟨ha, h⟩ := failIf_bind_eq_ok.1 h
    obtain ⟨hs, h⟩ := failIf_bind_eq_ok.1 h
    rw [bind_of_ok (emit_run _ _)] at h
    obtain ⟨hp, h⟩ := failIf_bind_eq_ok.1 h
    obtain ⟨hok, rfl⟩ := ih h
    refine ⟨?_, by simp [abWords]⟩
    simpa [ABOk] using ⟨⟨not_not.1 ha, not_not.1 hs, not_not.1 hp⟩, hok⟩

theorem packCDescriptors_eq_ok (h : packCDescriptors bufs c = .ok () c') :
    (∀ buf ∈ bufs, COk buf) ∧ c' = c.append (cWords bufs) := by
  induction bufs generalizing c with
  | nil =>
    obtain ⟨-, rfl⟩ := pure_eq_ok.1 h
    exact ⟨by simp, by simp [cWords]⟩
  | cons buf bufs ih =>
    obtain ⟨ha, h⟩ := failIf_bind_eq_ok.1 h
    obtain ⟨hs, h⟩ := failIf_bind_eq_ok.1 h
    obtain ⟨hok, rfl⟩ := ih h
    refine ⟨?_, by simp [cWords]⟩
    simpa [COk] using ⟨⟨not_not.1 ha, not_not.1 hs⟩, hok⟩

/-! ## The length list -/

/-- The lengths stored one by one from half-word `k` of the list at word `base`. -/
def writeHalves (base : Nat) : Nat → Mem Word → List (BitVec 16) → Mem Word
  | _, m, [] => m
  | k, m, v :: vs =>
    writeHalves base (k + 1)
      (Function.update m (base + k / 2) (setHalf (k % 2 = 1) v (m (base + k / 2)))) vs

/-- The lengths of the listed C descriptors, as the list stores them. -/
def lengths (bufs : List IpcBuffer) : List (BitVec 16) :=
  (listed bufs).map fun buf => buf.size.setWidth 16

/-- The loop over the length list stores half-words and counts them. -/
theorem packLengthList_eq_ok {base : Nat} {k n : Nat} (h : packLengthList base k bufs c = .ok n c') :
    n = k + (listed bufs).length ∧ c' = ⟨writeHalves base k c.buffer (lengths bufs), c.h⟩ := by
  induction bufs generalizing k c with
  | nil =>
    obtain ⟨rfl, rfl⟩ := pure_eq_ok.1 h
    exact ⟨rfl, rfl⟩
  | cons buf bufs ih =>
    unfold packLengthList at h
    split_ifs at h with h10
    · obtain ⟨-, h⟩ := failIf_bind_eq_ok.1 h
      obtain ⟨_, c₁, hm, h⟩ := bind_eq_ok.1 h
      cases hm
      obtain ⟨rfl, rfl⟩ := ih h
      simp only [listed, lengths, h10, decide_true, filter_cons_of_pos, length_cons]
      exact ⟨by omega, rfl⟩
    · obtain ⟨rfl, rfl⟩ := ih h
      simp [listed, lengths, h10]

theorem setHalf_setHalf (v v' : BitVec 16) (w : Word) :
    setHalf true v' (setHalf false v w) = v' ++ v := by
  unfold setHalf
  simp only [if_true, Bool.false_eq_true, if_false]
  rw [BitVec.setWidth_append_eq_right]

/-- Stored by halves, the lengths are the words of `lengthWords`. -/
theorem writeHalves_eq_write (base : Nat) {m₀ : Mem Word} (j : Nat) (vs : List (BitVec 16))
    (hm : ∀ i, base + j ≤ i → m i = m₀ i) :
    writeHalves base (2 * j) m vs = m.write (base + j) (lengthWords m₀ (base + j) vs) := by
  induction vs using List.twoStepInduction generalizing j m with
  | nil => simp [writeHalves, lengthWords]
  | singleton v =>
    simp only [writeHalves, lengthWords, show 2 * j / 2 = j by omega,
      show ¬ (2 * j % 2 = 1) by omega, decide_false, hm _ (Nat.le_refl _), update_eq_write]
  | cons_cons v v' vs ih _ =>
    simp only [writeHalves, show 2 * j / 2 = j by omega,
      show (2 * j + 1) / 2 = j by omega, show ¬ (2 * j % 2 = 1) by omega,
      show (2 * j + 1) % 2 = 1 by omega, decide_false, decide_true, Function.update_self,
      setHalf_setHalf, Function.update_idem, show 2 * j + 1 + 1 = 2 * (j + 1) by omega]
    have htail : ∀ i, base + (j + 1) ≤ i →
        Function.update m (base + j) (v' ++ v) i = m₀ i := by
      intro i hi
      rw [Function.update_of_ne (by omega), hm i (by omega)]
    rw [ih (j + 1) htail, update_eq_write]
    exact (write_append m (base + j) [v' ++ v] _).symm

/-! ## The whole message -/

namespace PackMessage

/-- The descriptor lists of a message. -/
def descriptors (msg : PackMessage) : Descriptors := descriptorsOf msg.buffers

def numX (msg : PackMessage) : Nat := (msg.descriptors .x).length
def numA (msg : PackMessage) : Nat := (msg.descriptors .a).length
def numB (msg : PackMessage) : Nat := (msg.descriptors .b).length
def numC (msg : PackMessage) : Nat := (msg.descriptors .c).length

/-- The words of the handle descriptor and the handles. -/
def handleSize (msg : PackMessage) : Nat :=
  if msg.handleDescriptorEnabled then
    1 + (if msg.sendPid then 2 else 0) + msg.copyHandles.length + msg.moveHandles.length
  else 0

def xAt (msg : PackMessage) : Nat := 2 + msg.handleSize
def aAt (msg : PackMessage) : Nat := msg.xAt + 2 * msg.numX
def bAt (msg : PackMessage) : Nat := msg.aAt + 3 * msg.numA
def rawDataStart (msg : PackMessage) : Nat := msg.bAt + 3 * msg.numB
def dataAt (msg : PackMessage) : Nat := alignHead msg.rawDataStart

/-- The words of the length list. -/
def lengthListSize (msg : PackMessage) : Nat := ((listed (msg.descriptors .c)).length + 1) / 2

/-- The size field: paddings, data section and length list, in words. -/
def sectionSize (msg : PackMessage) : Nat := 4 + msg.dataSection.length + msg.lengthListSize

def lengthsAt (msg : PackMessage) : Nat := msg.rawDataStart + (4 + msg.dataSection.length)
def cAt (msg : PackMessage) : Nat := msg.rawDataStart + msg.sectionSize

def written (msg : PackMessage) : Written :=
  ⟨msg.descriptors, msg.xAt, msg.aAt, msg.bAt, msg.rawDataStart, msg.dataAt, msg.cAt⟩

def handleWords (msg : PackMessage) (m : Mem Word) : List Word :=
  if msg.handleDescriptorEnabled then
    handleDescriptor msg :: (m.read 3 (if msg.sendPid then 2 else 0) ++
      (msg.copyHandles ++ msg.moveHandles))
  else []

/-- Everything between the two headers and the padding in front of the data section. -/
def middle (msg : PackMessage) (m : Mem Word) : List Word :=
  msg.handleWords m ++ xWords 0 (msg.descriptors .x) ++ abWords (msg.descriptors .a) ++
    abWords (msg.descriptors .b)

/-- The data section between its paddings, the length list and the C descriptors. -/
def back (msg : PackMessage) (m : Mem Word) : List Word :=
  m.read msg.rawDataStart (msg.dataAt - msg.rawDataStart) ++ msg.dataSection ++
  m.read (msg.dataAt + msg.dataSection.length) (4 - (msg.dataAt - msg.rawDataStart)) ++
    lengthWords m msg.lengthsAt (lengths (msg.descriptors .c)) ++ cWords (msg.descriptors .c)

/-- The words of the message, over a buffer that held `m`. -/
def layout (msg : PackMessage) (m : Mem Word) : List Word :=
  header0 msg.messageType msg.numX msg.numA msg.numB ::
    (header1 msg.numC msg.handleDescriptorEnabled ||| BitVec.ofNat 32 msg.sectionSize) ::
      (msg.middle m ++ msg.back m)

/-- What has been checked when the packer returns `RESULT_OK`. -/
structure Accepted (msg : PackMessage) : Prop where
  supported : ∀ buf ∈ msg.buffers, buf.Supported
  count_le : ∀ l, (msg.descriptors l).length ≤ 16
  copy_lt : msg.copyHandles.length < 16
  move_lt : msg.moveHandles.length < 16
  x : ∀ buf ∈ msg.descriptors .x, XOk buf
  a : ∀ buf ∈ msg.descriptors .a, ABOk buf
  b : ∀ buf ∈ msg.descriptors .b, ABOk buf
  c : ∀ buf ∈ msg.descriptors .c, COk buf

@[simp] theorem length_handleWords (msg : PackMessage) (m : Mem Word) :
    (msg.handleWords m).length = msg.handleSize := by
  unfold handleWords handleSize
  split_ifs <;> simp <;> omega

theorem length_middle (msg : PackMessage) (m : Mem Word) :
    2 + (msg.middle m).length = msg.rawDataStart := by
  simp only [middle, rawDataStart, bAt, aAt, xAt, numX, numA, numB, length_append,
    length_handleWords, length_xWords, length_abWords]
  omega

end PackMessage

theorem alignHead_le (h : Nat) : h ≤ alignHead h ∧ alignHead h < h + 4 := by
  unfold alignHead
  omega

theorem packHandleDescriptor_eq_ok (hws : ws.length = 2)
    (h : packHandleDescriptor msg ((⟨m, 0⟩ : Cursor Word).append ws) = .ok () c') :
    msg.copyHandles.length < 16 ∧ msg.moveHandles.length < 16 ∧
      c' = (⟨m, 0⟩ : Cursor Word).append (ws ++ msg.handleWords m) := by
  unfold packHandleDescriptor at h
  by_cases he : msg.handleDescriptorEnabled = true
  · rw [if_pos he] at h
    obtain ⟨hlen, h⟩ := failIf_bind_eq_ok.1 h
    rw [bind_of_ok (emit_run _ _), append_append, bind_of_ok (skip_run _ _),
      bind_of_ok (emitAll_run _ _), emitAll_run, read_append _ _ _ (by simp)] at h
    cases h
    refine ⟨by omega, by omega, ?_⟩
    simp [PackMessage.handleWords, he, hws]
  · rw [if_neg he] at h
    obtain ⟨-, rfl⟩ := pure_eq_ok.1 h
    have hnone : msg.copyHandles.length = 0 ∧ msg.moveHandles.length = 0 := by
      simp only [PackMessage.handleDescriptorEnabled] at he
      simp at he
      simp [he]
    refine ⟨by omega, by omega, ?_⟩
    simp [PackMessage.handleWords, he]

theorem packFront_eq_ok {r : Nat × Nat × Nat × Nat}
    (h : packFront msg msg.descriptors ⟨m, 0⟩ = .ok r c) :
    msg.copyHandles.length < 16 ∧ msg.moveHandles.length < 16 ∧
      (∀ buf ∈ msg.descriptors .x, XOk buf) ∧ (∀ buf ∈ msg.descriptors .a, ABOk buf) ∧
      (∀ buf ∈ msg.descriptors .b, ABOk buf) ∧ r = (1, msg.xAt, msg.aAt, msg.bAt) ∧
      c = (⟨m, 0⟩ : Cursor Word).append
        (header0 msg.messageType msg.numX msg.numA msg.numB ::
          header1 msg.numC msg.handleDescriptorEnabled :: msg.middle m) := by
  unfold packFront at h
  rw [bind_of_ok (emit_run _ _), bind_of_ok (head_run _), bind_of_ok (emit_run _ _),
    append_append] at h
  obtain ⟨_, _, hh, h⟩ := bind_eq_ok.1 h
  obtain ⟨hcopy, hmove, rfl⟩ := packHandleDescriptor_eq_ok (by simp) hh
  rw [bind_of_ok (head_run _)] at h
  obtain ⟨_, _, hx, h⟩ := bind_eq_ok.1 h
  obtain ⟨hx', rfl⟩ := packXDescriptors_eq_ok hx
  rw [bind_of_ok (head_run _)] at h
  obtain ⟨_, _, ha, h⟩ := bind_eq_ok.1 h
  obtain ⟨ha', rfl⟩ := packABDescriptors_eq_ok ha
  rw [bind_of_ok (head_run _)] at h
  obtain ⟨_, _, hb, h⟩ := bind_eq_ok.1 h
  obtain ⟨hb', rfl⟩ := packABDescriptors_eq_ok hb
  obtain ⟨rfl, rfl⟩ := pure_eq_ok.1 h
  refine ⟨hcopy, hmove, hx', ha', hb', ?_, ?_⟩
  · simp only [append_h, length_append, length_cons, length_nil,
      PackMessage.length_handleWords, length_xWords, length_abWords, PackMessage.xAt,
      PackMessage.aAt, PackMessage.bAt, PackMessage.numX, PackMessage.numA, Nat.zero_add]
  · simp [PackMessage.middle, PackMessage.numX, PackMessage.numA, PackMessage.numB,
      PackMessage.numC]

theorem skip_packLengthList {n : Nat}
    (h : packLengthList ws.length 0 bufs ((⟨m, 0⟩ : Cursor Word).append ws) = .ok n c) :
    (skip ((n + 1) / 2) : Marshal Unit) c = .ok () ((⟨m, 0⟩ : Cursor Word).append
      (ws ++ lengthWords m ws.length (lengths bufs))) := by
  obtain ⟨rfl, rfl⟩ := packLengthList_eq_ok h
  have hm : ∀ i, ws.length + 0 ≤ i → ((⟨m, 0⟩ : Cursor Word).append ws).buffer i = m i := by
    intro i hi
    exact write_of_ge (a := 0) m (by omega)
  have hw := writeHalves_eq_write ws.length 0 (lengths bufs) hm
  rw [hw, ← append_append]
  unfold skip append
  simp [lengths]

theorem packBack_eq_ok {w₀ w₁ : Word} {r : Nat × Nat × Nat} (hws : 2 + ws.length = msg.rawDataStart)
    (h : packBack msg msg.descriptors 1 ((⟨m, 0⟩ : Cursor Word).append (w₀ :: w₁ :: ws)) =
      .ok r c) :
    (∀ buf ∈ msg.descriptors .c, COk buf) ∧ r = (msg.rawDataStart, msg.dataAt, msg.cAt) ∧
      c = (⟨m, 0⟩ : Cursor Word).append
        (w₀ :: (w₁ ||| BitVec.ofNat 32 msg.sectionSize) :: (ws ++ msg.back m)) := by
  obtain ⟨hle, hlt⟩ := alignHead_le msg.rawDataStart
  -- the message grows by one section at a time; `hk` is the head behind the section
  generalize hF : w₀ :: w₁ :: ws = F at h
  have h₀ : 0 + F.length = msg.rawDataStart := by rw [← hF]; simp; omega
  unfold packBack at h
  rw [bind_of_ok (head_run _), append_h, bind_of_ok (skip_append _ _ _), h₀] at h
  generalize hF₁ : F ++ m.read msg.rawDataStart _ = F₁ at h
  have h₁ : 0 + F₁.length = msg.dataAt := by
    rw [← hF₁, length_append, length_read, PackMessage.dataAt]
    omega
  rw [bind_of_ok (head_run _), append_h, bind_of_ok (emitAll_append _ _ _),
    bind_of_ok (skip_append _ _ _), length_append, ← Nat.add_assoc, h₁] at h
  generalize hF₃ : F₁ ++ msg.dataSection ++ m.read _ _ = F₃ at h
  have h₃ : 0 + F₃.length = msg.lengthsAt := by
    rw [← hF₃, length_append, length_append, length_read, ← Nat.add_assoc,
      ← Nat.add_assoc, h₁]
    simp only [PackMessage.dataAt, PackMessage.lengthsAt]
    omega
  rw [bind_of_ok (head_run _), append_h, Nat.zero_add] at h
  obtain ⟨n, _, hl, h⟩ := bind_eq_ok.1 h
  rw [bind_of_ok (skip_packLengthList hl), bind_of_ok (head_run _), append_h] at h
  rw [Nat.zero_add] at h₃
  have h₄ : 0 + (F₃ ++ lengthWords m F₃.length (lengths (msg.descriptors .c))).length =
      msg.cAt := by
    rw [length_append, h₃, length_lengthWords]
    simp only [PackMessage.lengthsAt, PackMessage.cAt, PackMessage.sectionSize,
      PackMessage.lengthListSize, lengths, length_map]
    omega
  rw [h₄, show msg.cAt - msg.rawDataStart = msg.sectionSize by
    simp only [PackMessage.cAt]; omega] at h
  rw [h₃, ← hF₃, ← hF₁, ← hF] at h
  obtain ⟨_, _, hs, h⟩ := bind_eq_ok.1 h
  cases hs.symm.trans (modifyAt_run [w₀] w₁ _ _ ⟨m, 0⟩)
  obtain ⟨_, _, hc, h⟩ := bind_eq_ok.1 h
  obtain ⟨hok, rfl⟩ := packCDescriptors_eq_ok hc
  obtain ⟨rfl, rfl⟩ := pure_eq_ok.1 h
  exact ⟨hok, rfl, by simp [PackMessage.back, PackMessage.dataAt]⟩

/-- **What the packer writes.** An accepted message overlays its layout on the buffer. -/
theorem ipcPackMessage_eq_ok {w : Written} (h : ipcPackMessage msg ⟨m, 0⟩ = .ok w c) :
    msg.Accepted ∧ w = msg.written ∧ c = (⟨m, 0⟩ : Cursor Word).append (msg.layout m) := by
  obtain ⟨d, _, hd, h⟩ := bind_eq_ok.1 h
  obtain ⟨hg, rfl⟩ := runPure_eq_ok.1 hd
  obtain ⟨hsupp, hdesc, hcount⟩ := groupBuffers_eq_ok hg
  obtain rfl : d = msg.descriptors := funext hdesc
  obtain ⟨_, _, hf, h⟩ := bind_eq_ok.1 h
  obtain ⟨hcopy, hmove, hx, ha, hb, rfl, rfl⟩ := packFront_eq_ok hf
  obtain ⟨_, _, hk, h⟩ := bind_eq_ok.1 h
  obtain ⟨hc, rfl, rfl⟩ := packBack_eq_ok (msg.length_middle m) hk
  obtain ⟨rfl, rfl⟩ := pure_eq_ok.1 h
  exact ⟨⟨hsupp, hcount (by simp), hcopy, hmove, hx, ha, hb, hc⟩, rfl, rfl⟩

end LibTransistor
