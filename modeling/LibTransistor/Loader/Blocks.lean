import LibTransistor.Lib.Span
import LibTransistor.Loader.Config

/-!
# One block made of the pieces of the heap

`mem_make_block` and `mem_destroy_block` in `projects/ace_loader/memory.c`. The first walks through
the memory map, records the areas that can be used in the table `heap_map` and maps them behind each
other; the second unmaps what the table says. What the kernel answers is given: the memory map as a
function from addresses, and the results of the calls that map.

* `MemoryMap` — a division of the address space into regions, and what `svcQueryMemory` says about
  an address.
* `scanMemory_eq` — with such a map the walk visits each region once and ends.
* `memMakeBlock_run` — what is mapped, for every map and all answers.
* `heapBlock_made` — what has been mapped is consecutive and is what is unmapped later, areas of
  size 0 apart: the size 0 is the mark for areas that could not be mapped.
-/

namespace LibTransistor

open Fallible List Mem

/-! ## `memory.c` -/

def heapMapSize : Nat := 32

/-- `memory_info_t`, as far as it is looked at. -/
structure MemoryInfo where
  baseAddr : BitVec 64
  size : BitVec 64
  memoryType : BitVec 32
  memoryAttribute : BitVec 32
  permission : BitVec 32
  deriving DecidableEq

/-- `heap_map_t`, and the arguments of a call that maps or unmaps. -/
structure HeapMapT where
  src : BitVec 64
  dst : BitVec 64
  size : BitVec 64
  deriving DecidableEq

/-- A call of `svcMapMemory` or `svcUnmapMemory`, with what it returns. -/
inductive MemEvent
  | mapMemory (e : HeapMapT) (r : ResultT)
  | unmapMemory (e : HeapMapT) (r : ResultT)
  deriving DecidableEq

structure BlockState where
  mapBase : BitVec 64
  mapSize : BitVec 64
  heapMap : Mem HeapMapT
  heapMapCur : Nat
  /-- The calls that have been made, the latest last. -/
  events : List MemEvent

/-- Why a function does not return 0. -/
inductive MemStop
  | result (r : ResultT)
  /-- It stores behind the end of `heap_map`. -/
  | pastEnd
  /-- It is still running. -/
  | running
  deriving DecidableEq

abbrev BlockM := EStateM MemStop BlockState

def storeEntry (i : Nat) (e : HeapMapT) : BlockM Unit :=
  modify fun s => { s with heapMap := s.heapMap.write i [e] }

def callKernel (e : MemEvent) : BlockM Unit := modify fun s => { s with events := s.events ++ [e] }

/-- The loop over the memory map, with what is done at each region; it is left if that says so. -/
def scanMemory {σ : Type} (query : BitVec 64 → Option MemoryInfo)
    (visit : MemoryInfo → EStateM MemStop σ Bool) : Nat → BitVec 64 → EStateM MemStop σ Unit
  | 0, _ => throw .running
  | fuel + 1, addr =>
    match query addr with
    | none => throw (.result 1)
    | some minfo => do
      let stop ← visit minfo
      let addr := minfo.baseAddr + minfo.size
      if stop ∨ addr = 0 then return () else scanMemory query visit fuel addr

/-- `heap_map[heap_map_cur].src = src`, the same for the size, and `heap_map_cur++`. The result is
whether the table is full. -/
def addArea (src size : BitVec 64) : BlockM Bool := do
  let s ← get
  failIf (heapMapSize ≤ s.heapMapCur) .pastEnd
  storeEntry s.heapMapCur { s.heapMap s.heapMapCur with src := src, size := size }
  modify fun s => { s with heapMapCur := s.heapMapCur + 1 }
  return s.heapMapCur + 1 == heapMapSize

variable (c : HeapConfig) (minfo : MemoryInfo)

/-- The areas before and behind the overridden heap. -/
def splitArea : BlockM Bool := do
  let full ← addArea minfo.baseAddr (c.heapBase - minfo.baseAddr)
  if full then return true
  else
    addArea (c.heapBase + c.heapSize)
      ((minfo.baseAddr + minfo.size) - (c.heapBase + c.heapSize))

def MemoryInfo.Suitable : Prop :=
  minfo.permission = 3 ∧ minfo.memoryType = 5 ∧ minfo.memoryAttribute = 0

instance (minfo : MemoryInfo) : Decidable minfo.Suitable :=
  inferInstanceAs (Decidable (_ ∧ _ ∧ _))

/-- The region is split around the overridden heap. -/
def MemoryInfo.Split (c : HeapConfig) : Prop :=
  c.heapOverridden = true ∧ minfo.baseAddr ≤ c.heapBase ∧
    minfo.baseAddr + minfo.size ≥ c.heapBase + c.heapSize

instance (minfo : MemoryInfo) (c : HeapConfig) : Decidable (minfo.Split c) :=
  inferInstanceAs (Decidable (_ ∧ _ ∧ _))

def visitRegion : BlockM Bool :=
  if minfo.Suitable then
    if minfo.Split c then splitArea c minfo else addArea minfo.baseAddr minfo.size
  else return false

/-- A round of the loop that maps the areas. `r` is the result of `svcMapMemory`, and the value is
where the next area goes. -/
def mapArea (r : ResultT) (i : Nat) (map : BitVec 64) : BlockM (BitVec 64) := do
  let s ← get
  let entry := { s.heapMap i with dst := map }
  callKernel (.mapMemory entry r)
  if r ≠ resultOk then do
    storeEntry i { entry with size := 0 }
    return map
  else do
    storeEntry i entry
    return map + entry.size

/-- The loop, for `n` areas from index `i` on. -/
def mapAreas (r : Nat → ResultT) : Nat → Nat → BitVec 64 → BlockM (BitVec 64)
  | 0, _, map => return map
  | n + 1, i, map => do
    let map ← mapArea (r i) i map
    mapAreas r n (i + 1) map

/-- `r` are the results of `svcMapMemory`, call by call. -/
def memMakeBlock (query : BitVec 64 → Option MemoryInfo) (c : HeapConfig) (r : Nat → ResultT)
    (fuel : Nat) : BlockM Unit := do
  modify fun s => { s with heapMapCur := 0, mapSize := 0 }
  scanMemory query (visitRegion c) fuel 0
  let s ← get
  let map ← mapAreas r s.heapMapCur 0 s.mapBase
  modify fun s => { s with mapSize := map - s.mapBase }

def unmapArea (r : ResultT) (i : Nat) : BlockM Unit := do
  let s ← get
  if (s.heapMap i).size = 0 then return ()
  else do
    callKernel (.unmapMemory (s.heapMap i) r)
    failIf (r ≠ resultOk) (.result r)

def unmapAreas (r : Nat → ResultT) : Nat → Nat → BlockM Unit
  | 0, _ => return ()
  | n + 1, i => do
    unmapArea (r i) i
    unmapAreas r n (i + 1)

variable (r : Nat → ResultT)

def memDestroyBlock : BlockM Unit := do
  modify fun s => { s with mapSize := 0 }
  let s ← get
  unmapAreas r s.heapMapCur 0
  modify fun s => { s with heapMapCur := 0 }

/-! ## Memory maps -/

namespace MemoryInfo

/-- The region as a range. -/
def range (i : MemoryInfo) : BitVec 64 × BitVec 64 := (i.baseAddr, i.size)

end MemoryInfo

/-- A division of the address space into regions. -/
structure MemoryMap where
  infos : List MemoryInfo
  consecutive : Consecutive 0 (infos.map MemoryInfo.range)
  nonempty : ∀ i ∈ infos, i.size ≠ 0
  total : sizeSum (infos.map MemoryInfo.range) = 2 ^ 64

variable (m : MemoryMap)

/-- What `svcQueryMemory` says: the region of the address. -/
def MemoryMap.query (addr : BitVec 64) : Option MemoryInfo :=
  m.infos.find? fun i => addr ∈ span i.baseAddr i.size

/-- The regions one after the other, until the visit of one says that it is enough. -/
def visitAll {σ : Type} (visit : MemoryInfo → EStateM MemStop σ Bool) :
    List MemoryInfo → EStateM MemStop σ Unit
  | [] => return ()
  | i :: is => do
    let stop ← visit i
    if stop then return () else visitAll visit is

namespace MemoryMap

variable {m : MemoryMap} {pre post : List MemoryInfo} {i : MemoryInfo}

section Region

variable (h : m.infos = pre ++ i :: post)
include h

theorem total_split :
    sizeSum (pre.map MemoryInfo.range) + i.size.toNat +
      sizeSum (post.map MemoryInfo.range) = 2 ^ 64 := by
  rw [← m.total, h, map_append, sizeSum_append, Nat.add_assoc]
  rfl

theorem size_pos : 0 < i.size.toNat := by
  have hne := m.nonempty i (by simp [h])
  exact Nat.pos_of_ne_zero fun h0 => hne (BitVec.eq_of_toNat_eq h0)

theorem toNat_baseAddr : i.baseAddr.toNat = sizeSum (pre.map MemoryInfo.range) := by
  have hcons := m.consecutive
  rw [h, map_append] at hcons
  have hbase : i.baseAddr = _ := hcons.right.1
  have htotal := total_split h
  have hpos := size_pos h
  rw [hbase, zero_add, BitVec.toNat_ofNat, Nat.mod_eq_of_lt (by omega)]

theorem query_baseAddr : m.query i.baseAddr = some i := by
  have hdisjoint := m.consecutive.pairwise_disjoint (Nat.le_of_eq m.total)
  rw [h, map_append, pairwise_append] at hdisjoint
  have hmem : i.baseAddr ∈ span i.baseAddr i.size := mem_span_self (m.nonempty i (by simp [h]))
  have hsome : (i :: post).find? (fun j => decide (i.baseAddr ∈ span j.baseAddr j.size)) = some i :=
    find?_cons_of_pos (decide_eq_true hmem)
  have hnone : pre.find? (fun j => decide (i.baseAddr ∈ span j.baseAddr j.size)) = none := by
    refine find?_eq_none.2 fun j hj hin => ?_
    have hapart := hdisjoint.2.2 j.range (mem_map_of_mem hj) i.range mem_cons_self
    exact Set.disjoint_left.1 hapart (of_decide_eq_true hin) hmem
  unfold query
  rw [h, find?_append, hnone, hsome]
  rfl

end Region

theorem next_eq_zero (h : m.infos = pre ++ [i]) : i.baseAddr + i.size = 0 := by
  have htotal : sizeSum (pre.map MemoryInfo.range) + i.size.toNat + 0 = 2 ^ 64 := total_split h
  apply BitVec.eq_of_toNat_eq
  rw [BitVec.toNat_add, toNat_baseAddr h, ← Nat.add_zero (_ + _), htotal]
  rfl

theorem next_eq {j : MemoryInfo} (h : m.infos = pre ++ i :: j :: post) :
    i.baseAddr + i.size = j.baseAddr ∧ j.baseAddr ≠ 0 := by
  have h' : m.infos = (pre ++ [i]) ++ j :: post := by rw [h, append_assoc]; rfl
  have hbase := toNat_baseAddr h
  have hbase' := toNat_baseAddr h'
  have hpos := size_pos h
  rw [map_append, sizeSum_append] at hbase'
  have hsize : sizeSum ([i].map MemoryInfo.range) = i.size.toNat := Nat.add_zero _
  refine ⟨?_, fun h0 => ?_⟩
  · apply BitVec.eq_of_toNat_eq
    rw [BitVec.toNat_add]
    omega
  · rw [h0] at hbase'
    have hzero : (0 : BitVec 64).toNat = 0 := rfl
    omega

/-- **The walk through a memory map** visits its regions in their order, and ends. -/
theorem scanMemory_eq {σ : Type} (m : MemoryMap) (visit : MemoryInfo → EStateM MemStop σ Bool)
    {fuel : Nat} (hfuel : m.infos.length ≤ fuel) :
    scanMemory m.query visit fuel 0 = visitAll visit m.infos := by
  -- From a region on, by induction on what follows it.
  have hwalk : ∀ (post pre : List MemoryInfo) (i : MemoryInfo) (fuel : Nat),
      m.infos = pre ++ i :: post → post.length < fuel →
      scanMemory m.query visit fuel i.baseAddr = visitAll visit (i :: post) := by
    intro post
    induction post with
    | nil =>
      intro pre i fuel h hlt
      obtain ⟨fuel, rfl⟩ := Nat.exists_eq_add_of_lt hlt
      simp only [scanMemory, query_baseAddr h, next_eq_zero h, visitAll, or_true, if_true, ite_self]
    | cons j post ih =>
      intro pre i fuel h hlt
      obtain ⟨fuel, rfl⟩ := Nat.exists_eq_add_of_lt hlt
      obtain ⟨hnext, hne⟩ := next_eq h
      have hrest := ih (pre ++ [i]) j ((j :: post).length + fuel) (by simp [h]) (by simp; omega)
      simp only [scanMemory, query_baseAddr h, hnext, hne, or_false, hrest]
      rfl
  cases hinfos : m.infos with
  | nil =>
    have htotal := m.total
    rw [hinfos] at htotal
    exact absurd htotal (by decide)
  | cons i post =>
    have hbase : i.baseAddr = 0 := by
      have hcons := m.consecutive
      rw [hinfos] at hcons
      exact hcons.1
    rw [hinfos] at hfuel
    rw [← hbase]
    exact hwalk post [] i fuel hinfos hfuel

end MemoryMap

/-! ## What is recorded -/

/-- The areas that a region gives. -/
def MemoryInfo.pieces (i : MemoryInfo) : List (BitVec 64 × BitVec 64) :=
  if i.Suitable then
    if i.Split c then
      [(i.baseAddr, c.heapBase - i.baseAddr),
        (c.heapBase + c.heapSize, (i.baseAddr + i.size) - (c.heapBase + c.heapSize))]
    else [i.range]
  else []

/-- The areas of a memory map. -/
def MemoryMap.areas : List (BitVec 64 × BitVec 64) :=
  m.infos.flatMap (MemoryInfo.pieces c)

namespace HeapMapT

/-- The ranges of an entry. -/
def source (e : HeapMapT) : BitVec 64 × BitVec 64 := (e.src, e.size)

def target (e : HeapMapT) : BitVec 64 × BitVec 64 := (e.dst, e.size)

end HeapMapT

/-- The areas in the table. -/
def BlockState.areas (s : BlockState) : List (BitVec 64 × BitVec 64) :=
  (s.heapMap.read 0 s.heapMapCur).map HeapMapT.source

/-- Areas have been recorded and nothing else has been done. -/
structure BlockState.Recorded (s t : BlockState) (as : List (BitVec 64 × BitVec 64)) : Prop where
  areas : t.areas = s.areas ++ as
  mapBase : t.mapBase = s.mapBase
  events : t.events = s.events

section Record

variable {s t u : BlockState} {as bs : List (BitVec 64 × BitVec 64)}

theorem BlockState.length_areas (s : BlockState) : s.areas.length = s.heapMapCur := by
  rw [areas, length_map, length_read]

theorem BlockState.Recorded.nil (s : BlockState) : s.Recorded s [] :=
  ⟨(append_nil _).symm, rfl, rfl⟩

theorem BlockState.Recorded.trans (hs : s.Recorded t as) (ht : t.Recorded u bs) :
    s.Recorded u (as ++ bs) := by
  refine ⟨?_, ht.mapBase.trans hs.mapBase, ht.events.trans hs.events⟩
  rw [ht.areas, hs.areas, append_assoc]

theorem BlockState.Recorded.heapMapCur (h : s.Recorded t as) :
    t.heapMapCur = s.heapMapCur + as.length := by
  rw [← t.length_areas, h.areas, length_append, s.length_areas]

theorem addArea_run (src size : BitVec 64) (h : s.heapMapCur < heapMapSize) :
    ∃ t, addArea src size s = .ok (s.heapMapCur + 1 == heapMapSize) t ∧
      s.Recorded t [(src, size)] := by
  unfold addArea
  rw [get_bind_run, failIf_bind_of_not (Nat.not_le.2 h)]
  have hentry (e : HeapMapT) : (s.heapMap.write s.heapMapCur [e]).read 0 (s.heapMapCur + 1) =
      s.heapMap.read 0 s.heapMapCur ++ [e] := by
    rw [read_add, read_write_of_le _ _ (by omega), Nat.zero_add]
    exact congrArg (_ ++ ·) (read_write_self s.heapMap s.heapMapCur [e])
  refine ⟨_, rfl, (congrArg (List.map HeapMapT.source) (hentry _)).trans ?_, rfl, rfl⟩
  rw [map_append]
  rfl

/-- The visit of a region records its areas as far as there is room, and says if there is no more. -/
theorem visitRegion_run (c : HeapConfig) (i : MemoryInfo) (h : s.heapMapCur < heapMapSize) :
    ∃ t, visitRegion c i s = .ok (t.heapMapCur == heapMapSize) t ∧
      s.Recorded t ((i.pieces c).take (heapMapSize - s.heapMapCur)) := by
  unfold visitRegion MemoryInfo.pieces
  by_cases hsuitable : i.Suitable
  · rw [if_pos hsuitable, if_pos hsuitable]
    by_cases hsplit : i.Split c
    · rw [if_pos hsplit, if_pos hsplit]
      obtain ⟨t, hrun, ht⟩ := addArea_run i.baseAddr (c.heapBase - i.baseAddr) h
      have hcur : t.heapMapCur = s.heapMapCur + 1 := ht.heapMapCur
      unfold splitArea
      rw [bind_of_ok hrun]
      by_cases hfull : s.heapMapCur + 1 = heapMapSize
      · -- There is only room for the first area.
        rw [show heapMapSize - s.heapMapCur = 1 by omega]
        refine ⟨t, ?_, ht⟩
        rw [hcur, beq_iff_eq.2 hfull]
        rfl
      · rw [if_neg (by simpa using hfull), take_of_length_le]
        · obtain ⟨u, hrun', hu⟩ := addArea_run (c.heapBase + c.heapSize)
            ((i.baseAddr + i.size) - (c.heapBase + c.heapSize)) (s := t) (by omega)
          refine ⟨u, ?_, ht.trans hu⟩
          rw [hrun', hu.heapMapCur]
          rfl
        · show 2 ≤ heapMapSize - s.heapMapCur
          omega
    · rw [if_neg hsplit, if_neg hsplit]
      obtain ⟨t, hrun, ht⟩ := addArea_run i.baseAddr i.size h
      refine ⟨t, ?_, ?_⟩
      · rw [hrun, ht.heapMapCur]
        rfl
      · rw [take_of_length_le]
        · exact ht
        · exact Nat.sub_pos_of_lt h
  · rw [if_neg hsuitable, if_neg hsuitable, take_nil]
    refine ⟨s, ?_, .nil s⟩
    rw [beq_eq_false_iff_ne.2 (Nat.ne_of_lt h)]
    rfl

/-- The scan records the areas of the regions as far as there is room. -/
theorem visitAll_run (c : HeapConfig) (is : List MemoryInfo) (h : s.heapMapCur < heapMapSize) :
    ∃ t, visitAll (visitRegion c) is s = .ok () t ∧
      s.Recorded t ((is.flatMap (MemoryInfo.pieces c)).take (heapMapSize - s.heapMapCur)) := by
  induction is generalizing s with
  | nil =>
    rw [flatMap_nil, take_nil]
    exact ⟨s, rfl, .nil s⟩
  | cons i is ih =>
    obtain ⟨t, hrun, ht⟩ := visitRegion_run c i h
    have hcur := ht.heapMapCur
    rw [length_take] at hcur
    unfold visitAll
    rw [bind_of_ok hrun, flatMap_cons, take_append]
    by_cases hfull : t.heapMapCur = heapMapSize
    · rw [if_pos (beq_iff_eq.2 hfull), Nat.sub_eq_zero_of_le (n := heapMapSize - _) (by omega),
        take_zero, append_nil]
      exact ⟨t, rfl, ht⟩
    · rw [if_neg (by simpa using hfull)]
      obtain ⟨u, hrun', hu⟩ := ih (s := t) (by omega)
      refine ⟨u, hrun', ?_⟩
      rw [show heapMapSize - s.heapMapCur - (i.pieces c).length = heapMapSize - t.heapMapCur by omega]
      exact ht.trans hu

end Record

/-! ## What is mapped -/

/-- A call of `svcMapMemory`. -/
structure MapCall where
  entry : HeapMapT
  result : ResultT

namespace MapCall

def event (call : MapCall) : MemEvent := .mapMemory call.entry call.result

/-- The entry of the table after the call. -/
def left (call : MapCall) : HeapMapT :=
  if call.result ≠ resultOk then { call.entry with size := 0 } else call.entry

/-- What has been mapped with success. -/
def mapped (calls : List MapCall) : List HeapMapT :=
  (calls.filter fun call => call.result = resultOk).map entry

end MapCall

/-- The calls for some areas, with the destination of the first. -/
def mapCalls (r : Nat → ResultT) : Nat → BitVec 64 → List (BitVec 64 × BitVec 64) → List MapCall
  | _, _, [] => []
  | i, map, a :: as =>
    ⟨⟨a.1, map, a.2⟩, r i⟩ :: mapCalls r (i + 1) (if r i ≠ resultOk then map else map + a.2) as

/-- The state after some calls for the entries from index `i` on. -/
def BlockState.mapping (s : BlockState) (i : Nat) (calls : List MapCall) : BlockState :=
  { s with
    heapMap := s.heapMap.write i (calls.map MapCall.left)
    events := s.events ++ calls.map MapCall.event }

section Map

variable {r : Nat → ResultT} {i : Nat} {map : BitVec 64} {a : BitVec 64 × BitVec 64}
  {as : List (BitVec 64 × BitVec 64)} {call : MapCall} {calls : List MapCall}

theorem MapCall.mapped_cons_of_ok (h : call.result = resultOk) :
    mapped (call :: calls) = call.entry :: mapped calls := by
  simp [mapped, h]

theorem MapCall.mapped_cons_of_ne (h : call.result ≠ resultOk) :
    mapped (call :: calls) = mapped calls := by
  simp [mapped, h]

theorem mapCalls_cons : mapCalls r i map (a :: as) = ⟨⟨a.1, map, a.2⟩, r i⟩ ::
    mapCalls r (i + 1) (if r i ≠ resultOk then map else map + a.2) as := rfl

section Areas

variable (r i map as)

theorem mapCalls_source : (mapCalls r i map as).map (fun call => call.entry.source) = as := by
  induction as generalizing i map with
  | nil => rfl
  | cons a as ih =>
    rw [mapCalls_cons, map_cons, ih]
    rfl

theorem consecutive_mapped :
    Consecutive map ((MapCall.mapped (mapCalls r i map as)).map HeapMapT.target) := by
  induction as generalizing i map with
  | nil => trivial
  | cons a as ih =>
    rw [mapCalls_cons]
    by_cases hr : r i = resultOk
    · rw [MapCall.mapped_cons_of_ok hr, if_neg (not_not.2 hr)]
      exact ⟨rfl, ih _ _⟩
    · rw [MapCall.mapped_cons_of_ne hr, if_pos hr]
      exact ih _ _

theorem sizeSum_mapped_le :
    sizeSum ((MapCall.mapped (mapCalls r i map as)).map HeapMapT.target) ≤ sizeSum as := by
  have hsource : sizeSum ((MapCall.mapped (mapCalls r i map as)).map HeapMapT.target) =
      sizeSum ((MapCall.mapped (mapCalls r i map as)).map HeapMapT.source) := by
    unfold sizeSum
    rw [map_map, map_map]
    rfl
  have hsub := filter_sublist (p := fun call => decide (call.result = resultOk))
    (l := mapCalls r i map as)
  have hall := sizeSum_le_of_sublist (hsub.map fun call => call.entry.source)
  rw [mapCalls_source] at hall
  rw [hsource]
  unfold MapCall.mapped
  rw [map_map]
  exact hall

end Areas

/-- The destination behind what is mapped. -/
def mapEnd (map : BitVec 64) (calls : List MapCall) : BitVec 64 :=
  map + BitVec.ofNat 64 (sizeSum ((MapCall.mapped calls).map HeapMapT.target))

theorem mapEnd_mapCalls_cons :
    mapEnd map (mapCalls r i map (a :: as)) =
      mapEnd (if r i ≠ resultOk then map else map + a.2)
        (mapCalls r (i + 1) (if r i ≠ resultOk then map else map + a.2) as) := by
  rw [mapCalls_cons]
  unfold mapEnd
  by_cases hr : r i = resultOk
  · rw [MapCall.mapped_cons_of_ok hr, if_neg (not_not.2 hr), map_cons, sizeSum_cons,
      BitVec.add_assoc, ← BitVec.ofNat_add_ofNat]
    congr 2
    exact BitVec.ofNat_toNat _ _
  · rw [MapCall.mapped_cons_of_ne hr, if_pos hr]

variable (s : BlockState)

theorem BlockState.mapping_cons (i : Nat) (call : MapCall) (calls : List MapCall) :
    (s.mapping i [call]).mapping (i + 1) calls = s.mapping i (call :: calls) := by
  have hwrite : (s.heapMap.write i [call.left]).write (i + 1) (calls.map MapCall.left) =
      s.heapMap.write i (call.left :: calls.map MapCall.left) :=
    (write_append s.heapMap i [call.left] _).symm
  have hevents : s.events ++ [call.event] ++ calls.map MapCall.event =
      s.events ++ call.event :: calls.map MapCall.event := append_assoc _ [_] _
  simp only [mapping, map_cons, map_nil, hwrite, hevents]

theorem mapArea_run (r : ResultT) (i : Nat) (map : BitVec 64) (s : BlockState) :
    mapArea r i map s = .ok (if r ≠ resultOk then map else map + (s.heapMap i).size)
      (s.mapping i [⟨{ s.heapMap i with dst := map }, r⟩]) := by
  unfold mapArea BlockState.mapping
  by_cases hr : r ≠ resultOk
  · simp only [if_pos hr, map_cons, MapCall.left]
    rfl
  · simp only [if_neg hr, map_cons, MapCall.left]
    rfl

/-- **What is mapped**: the areas in the table, each behind those that have been mapped before. -/
theorem mapAreas_run {n : Nat} {s : BlockState}
    (hcalls : mapCalls r i map ((s.heapMap.read i n).map HeapMapT.source) = calls) :
    mapAreas r n i map s = .ok (mapEnd map calls) (s.mapping i calls) := by
  induction n generalizing i map s calls with
  | zero =>
    obtain rfl := hcalls
    simp only [read_zero, map_nil, mapCalls, BlockState.mapping, write_nil,
      append_nil]
    exact congrArg (EStateM.Result.ok · s) (BitVec.add_zero map).symm
  | succ n ih =>
    rw [read_succ, map_cons] at hcalls
    obtain rfl := hcalls
    rw [mapEnd_mapCalls_cons, mapCalls_cons, ← BlockState.mapping_cons]
    unfold mapAreas
    rw [bind_of_ok (mapArea_run (r i) i map s)]
    have hrest : (s.mapping i [⟨{ s.heapMap i with dst := map }, r i⟩]).heapMap.read (i + 1) n =
        s.heapMap.read (i + 1) n := read_write_of_ge _ _ (Nat.le_refl _)
    refine ih ?_
    rw [hrest]
    rfl

/-- Of the entries that the calls leave, those with a size are those that have been mapped. -/
theorem filter_left (calls : List MapCall) :
    (calls.map MapCall.left).filter (fun e => e.size ≠ 0) =
      (MapCall.mapped calls).filter (fun e => e.size ≠ 0) := by
  induction calls with
  | nil => rfl
  | cons call calls ih =>
    by_cases hr : call.result = resultOk
    · have hleft : call.left = call.entry := if_neg (not_not.2 hr)
      rw [map_cons, MapCall.mapped_cons_of_ok hr, hleft, filter_cons, filter_cons, ih]
    · have hleft : call.left.size = 0 := by
        unfold MapCall.left
        rw [if_pos hr]
      rw [map_cons, MapCall.mapped_cons_of_ne hr, filter_cons_of_neg, ih]
      simpa using hleft

/-! ## What is unmapped -/

/-- The state after what has a size among some entries has been unmapped. -/
def BlockState.unmapping (es : List HeapMapT) : BlockState :=
  { s with events := s.events ++ (es.filter fun e => e.size ≠ 0).map (.unmapMemory · resultOk) }

theorem BlockState.unmapping_nil : s.unmapping [] = s := by
  unfold unmapping
  rw [filter_nil, map_nil, append_nil]

theorem BlockState.unmapping_cons (e : HeapMapT) (es : List HeapMapT) :
    (s.unmapping [e]).unmapping es = s.unmapping (e :: es) := by
  unfold unmapping
  rw [append_assoc, ← map_append, ← filter_append]
  rfl

theorem unmapArea_run (i : Nat) (s : BlockState) :
    unmapArea resultOk i s = .ok () (s.unmapping [s.heapMap i]) := by
  unfold unmapArea
  rw [get_bind_run]
  by_cases hsize : (s.heapMap i).size = 0
  · have hnone : s.unmapping [s.heapMap i] = s.unmapping [] := by
      unfold BlockState.unmapping
      rw [filter_cons_of_neg (by simpa using hsize)]
    rw [if_pos hsize, hnone, BlockState.unmapping_nil]
    rfl
  · have hone : s.unmapping [s.heapMap i] =
        { s with events := s.events ++ [.unmapMemory (s.heapMap i) resultOk] } := by
      unfold BlockState.unmapping
      rw [filter_cons_of_pos (by simpa using hsize)]
      rfl
    have hok : ¬ resultOk ≠ resultOk := not_not.2 rfl
    rw [if_neg hsize, hone]
    exact failIf_of_not (e := MemStop.result resultOk) hok _

theorem unmapAreas_run {n : Nat} {s : BlockState} (hr : ∀ i, r i = resultOk) :
    unmapAreas r n i s = .ok () (s.unmapping (s.heapMap.read i n)) := by
  induction n generalizing i s with
  | zero =>
    rw [read_zero, BlockState.unmapping_nil]
    rfl
  | succ n ih =>
    rw [read_succ, ← BlockState.unmapping_cons]
    unfold unmapAreas
    rw [hr i, bind_of_ok (unmapArea_run i s)]
    exact ih

end Map

/-! ## The block -/

/-- The overridden heap, if there is one, ends below the end of the address space. -/
def HeapConfig.EndsBelow : Prop :=
  c.heapOverridden = true → c.heapBase.toNat + c.heapSize.toNat < 2 ^ 64

theorem MemoryInfo.sizeSum_pieces_le {c : HeapConfig} (hc : c.EndsBelow) {i : MemoryInfo}
    (hfits : i.baseAddr.toNat + i.size.toNat ≤ 2 ^ 64) : sizeSum (i.pieces c) ≤ i.size.toNat := by
  unfold pieces
  by_cases hsuitable : i.Suitable
  · rw [if_pos hsuitable]
    by_cases hsplit : i.Split c
    · rw [if_pos hsplit]
      obtain ⟨hoverridden, hbase, hend⟩ := hsplit
      have hbelow := hc hoverridden
      rw [BitVec.le_def] at hbase
      rw [ge_iff_le, BitVec.le_def, BitVec.toNat_add, BitVec.toNat_add] at hend
      show (c.heapBase - i.baseAddr).toNat +
        ((i.baseAddr + i.size - (c.heapBase + c.heapSize)).toNat + 0) ≤ i.size.toNat
      rw [BitVec.toNat_sub, BitVec.toNat_sub, BitVec.toNat_add, BitVec.toNat_add]
      omega
    · rw [if_neg hsplit]
      exact Nat.le_of_eq (Nat.add_zero _)
  · rw [if_neg hsuitable]
    exact Nat.zero_le _

theorem MemoryMap.sizeSum_areas_le {c : HeapConfig} (hc : c.EndsBelow) :
    sizeSum (m.areas c) ≤ 2 ^ 64 := by
  have hle : ∀ is ⊆ m.infos, sizeSum (is.flatMap (MemoryInfo.pieces c)) ≤
      sizeSum (is.map MemoryInfo.range) := by
    intro is his
    induction is with
    | nil => exact Nat.le_refl _
    | cons i is ih =>
      obtain ⟨pre, post, hsplit⟩ := append_of_mem (his mem_cons_self)
      have hbase := toNat_baseAddr hsplit
      have htotal := total_split hsplit
      have hpieces := MemoryInfo.sizeSum_pieces_le hc (i := i) (by omega)
      have hrest := ih (subset_of_cons_subset his)
      rw [flatMap_cons, sizeSum_append]
      exact Nat.add_le_add hpieces hrest
  exact Nat.le_trans (hle m.infos (List.Subset.refl _)) (Nat.le_of_eq m.total)

/-- The calls of `mem_make_block`: they map the first areas. -/
def MemoryMap.calls (map : BitVec 64) : List MapCall :=
  mapCalls r 0 map ((m.areas c).take heapMapSize)

/-- What `mem_make_block` leaves after some calls. -/
structure BlockState.Made (s t : BlockState) (calls : List MapCall) : Prop where
  entries : t.heapMap.read 0 t.heapMapCur = calls.map MapCall.left
  mapSize : t.mapSize = mapEnd s.mapBase calls - s.mapBase
  events : t.events = s.events ++ calls.map MapCall.event

theorem MemoryMap.source_calls (map : BitVec 64) :
    (m.calls c r map).map (fun call => call.entry.source) = (m.areas c).take heapMapSize :=
  mapCalls_source _ _ _ _

/-- **What `mem_make_block` does**, for every memory map and all answers. -/
theorem memMakeBlock_run {fuel : Nat} (hfuel : m.infos.length ≤ fuel) (s : BlockState) :
    ∃ t, memMakeBlock m.query c r fuel s = .ok () t ∧ s.Made t (m.calls c r s.mapBase) := by
  obtain ⟨t, hscan, ht⟩ := visitAll_run (s := { s with heapMapCur := 0, mapSize := 0 }) c m.infos
    (Nat.zero_lt_succ 31)
  have hbase : t.mapBase = s.mapBase := ht.mapBase
  have hareas : t.areas = (m.areas c).take heapMapSize := ht.areas
  have hcalls : mapCalls r 0 t.mapBase t.areas = m.calls c r s.mapBase := by
    rw [hbase, hareas]
    rfl
  have hlen : t.heapMapCur = ((m.calls c r s.mapBase).map MapCall.left).length := by
    rw [← t.length_areas, hareas, ← m.source_calls c r s.mapBase, length_map, length_map]
  have hmap := mapAreas_run hcalls
  rw [hbase] at hmap
  refine ⟨{ t.mapping 0 (m.calls c r s.mapBase) with
    mapSize := mapEnd s.mapBase (m.calls c r s.mapBase) - s.mapBase }, ?_, ?_, rfl, ?_⟩
  · unfold memMakeBlock
    rw [modify_bind_run, m.scanMemory_eq _ hfuel, bind_of_ok hscan, get_bind_run, hbase,
      bind_of_ok hmap, ← hbase]
    rfl
  · show (t.heapMap.write 0 _).read 0 t.heapMapCur = _
    rw [hlen, read_write_self]
  · show t.events ++ _ = _
    rw [ht.events]

/-- **The block.** For every memory map and all answers `mem_make_block` stays in its table, what it
has mapped is consecutive from `map_base` on and `map_size` is its size, and unmapping undoes it.
Areas of size 0 are not unmapped. -/
theorem heapBlock_made (m : MemoryMap) (c : HeapConfig) (r r' : Nat → ResultT) {fuel : Nat}
    (hfuel : m.infos.length ≤ fuel) (s : BlockState) :
    ∃ t calls, memMakeBlock m.query c r fuel s = .ok () t ∧ t.heapMapCur ≤ heapMapSize ∧
      t.events = s.events ++ calls.map MapCall.event ∧
      Consecutive s.mapBase ((MapCall.mapped calls).map HeapMapT.target) ∧
      t.mapSize.toNat = sizeSum ((MapCall.mapped calls).map HeapMapT.target) % 2 ^ 64 ∧
      (c.EndsBelow → ((MapCall.mapped calls).map HeapMapT.target).Pairwise fun d d' =>
        Disjoint (span d.1 d.2) (span d'.1 d'.2)) ∧
      ((∀ i, r' i = resultOk) → ∃ u, memDestroyBlock r' t = .ok () u ∧
        u.events = t.events ++ ((MapCall.mapped calls).filter fun e => e.size ≠ 0).map
          (.unmapMemory · resultOk)) := by
  obtain ⟨t, hrun, ht⟩ := memMakeBlock_run c r m hfuel s
  have hcons := consecutive_mapped r 0 s.mapBase ((m.areas c).take heapMapSize)
  refine ⟨t, m.calls c r s.mapBase, hrun, ?_, ht.events, hcons, ?_, fun hc => ?_, fun hr => ?_⟩
  · have hlen := congrArg List.length ht.entries
    have hcalls := congrArg List.length (m.source_calls c r s.mapBase)
    rw [length_map, length_take] at hcalls
    rw [length_read, length_map] at hlen
    omega
  · rw [ht.mapSize, mapEnd, add_sub_cancel_left, BitVec.toNat_ofNat]
  · have hmapped := sizeSum_mapped_le r 0 s.mapBase ((m.areas c).take heapMapSize)
    have htake := sizeSum_le_of_sublist (take_sublist heapMapSize (m.areas c))
    have hareas := m.sizeSum_areas_le hc
    exact hcons.pairwise_disjoint (by omega)
  · refine ⟨{ ({ t with mapSize := 0 } : BlockState).unmapping (t.heapMap.read 0 t.heapMapCur) with
      heapMapCur := 0 }, ?_, ?_⟩
    · unfold memDestroyBlock
      rw [modify_bind_run, get_bind_run, bind_of_ok (unmapAreas_run hr)]
      rfl
    · show t.events ++ _ = _
      rw [ht.entries, filter_left]

/-- No block has been made yet. -/
def noBlock : BlockState := ⟨0x100000, 0, fun _ => ⟨0, 0, 0⟩, 0, []⟩

/-- One region can be used. -/
def oneRegion : MemoryMap where
  infos := [⟨0, 0x10000, 0, 0, 0⟩, ⟨0x10000, 0x10000, 5, 0, 3⟩,
    ⟨0x20000, 0xFFFFFFFFFFFE0000, 0, 0, 0⟩]
  consecutive := ⟨rfl, rfl, rfl, trivial⟩
  nonempty := by decide
  total := by decide

/-- A heap in the middle of the region, and the first of the two areas around it cannot be mapped. -/
theorem oneRegion_made : ∃ t u, memMakeBlock oneRegion.query ⟨true, 0x14000, 0x4000⟩
      (fun i => if i = 0 then 0xD401 else resultOk) 3 noBlock = .ok () t ∧
    memDestroyBlock (fun _ => resultOk) t = .ok () u ∧ t.heapMapCur ≤ heapMapSize ∧
    ∃ calls, t.events = calls.map MapCall.event ∧
      Consecutive 0x100000 ((MapCall.mapped calls).map HeapMapT.target) ∧
      t.mapSize.toNat = sizeSum ((MapCall.mapped calls).map HeapMapT.target) % 2 ^ 64 ∧
      ((MapCall.mapped calls).map HeapMapT.target).Pairwise
        (fun d d' => Disjoint (span d.1 d.2) (span d'.1 d'.2)) ∧
      u.events = t.events ++ ((MapCall.mapped calls).filter fun e => e.size ≠ 0).map
        (.unmapMemory · resultOk) := by
  have hfuel : oneRegion.infos.length ≤ 3 := by decide
  obtain ⟨t, calls, hrun, hcur, hevents, hcons, hsize, hdisjoint, hdestroy⟩ :=
    heapBlock_made oneRegion ⟨true, 0x14000, 0x4000⟩ (fun i => if i = 0 then 0xD401 else resultOk)
      (fun _ => resultOk) hfuel noBlock
  obtain ⟨u, hu, hunmapped⟩ := hdestroy fun _ => rfl
  exact ⟨t, u, hrun, hu, hcur, calls, hevents, hcons, hsize, hdisjoint fun _ => (by decide), hunmapped⟩

/-- With the heap at the start of the region the area before it is empty: it is mapped and not
unmapped. With a heap that ends behind the last address the two areas overlap where they are mapped,
and their sizes add up to more than `map_size`. -/
theorem heapBlock_not_made :
    (∃ t u,
      memMakeBlock oneRegion.query ⟨true, 0x10000, 0x4000⟩ (fun _ => resultOk) 3 noBlock = .ok () t ∧
      memDestroyBlock (fun _ => resultOk) t = .ok () u ∧
      t.events = [.mapMemory ⟨0x10000, 0x100000, 0⟩ resultOk,
        .mapMemory ⟨0x14000, 0x100000, 0xC000⟩ resultOk] ∧
      u.events = t.events ++ [.unmapMemory ⟨0x14000, 0x100000, 0xC000⟩ resultOk]) ∧
    ∃ t, memMakeBlock oneRegion.query ⟨true, 0xFFFFFFFFFFFFF000, 0x9000⟩ (fun _ => resultOk) 3
        noBlock = .ok () t ∧
      t.events = [.mapMemory ⟨0x10000, 0x100000, 0xFFFFFFFFFFFEF000⟩ resultOk,
        .mapMemory ⟨0x8000, 0xEF000, 0x18000⟩ resultOk] ∧
      t.mapSize = 0x7000 ∧
      ¬ Disjoint (span 0x100000#64 0xFFFFFFFFFFFEF000#64) (span 0xEF000#64 0x18000#64) := by
  refine ⟨⟨_, _, rfl, rfl, by decide, by decide⟩, _, rfl, by decide, by decide, ?_⟩
  exact Set.not_disjoint_iff.2 ⟨0x100000, by decide, by decide⟩

end LibTransistor
