import LibTransistor.Loader.Blocks
import LibTransistor.Loader.Nro

/-!
# The loader's own heap stays in place

A loader that was started with an overridden heap works in it, so `mem_make_block` must not map it
away. It looks at one region at a time and leaves out the part where the heap is.

**When the heap is spared** (`heap_spared_iff`). That is enough as long as every region that can be
used and that meets the heap has all of it, and does not end with the address space: the end of such
a region is 0 in 64 bits. A heap in several regions is mapped away.
-/

namespace LibTransistor

open List

/-- The configuration of a loader with an overridden heap. -/
def overriding (heap : HeapBlock) : HeapConfig := ⟨true, heap.base, heap.size⟩

/-- No range that `mem_make_block` hands to `svcMapMemory` meets the heap. -/
def HeapSpared (m : MemoryMap) (heap : HeapBlock) (r : Nat → ResultT) (fuel : Nat)
    (s : BlockState) : Prop :=
  ∀ t events, memMakeBlock m.query (overriding heap) r fuel s = .ok () t →
    t.events = s.events ++ events → ∀ e r', .mapMemory e r' ∈ events →
      Disjoint (span e.src e.size) (span heap.base heap.size)

/-- The condition on a region that can be used, with `room` free entries in the table. The last case
is that of a heap at the end of the address space, where the second area of a region is wrong but
finds no room. -/
def MemoryInfo.Spares (i : MemoryInfo) (heap : HeapBlock) (room : Nat) : Prop :=
  Disjoint (span i.baseAddr i.size) (span heap.base heap.size) ∨
    (i.baseAddr.toNat ≤ heap.base.toNat ∧
      heap.base.toNat + heap.size.toNat ≤ i.baseAddr.toNat + i.size.toNat ∧
      (i.baseAddr.toNat + i.size.toNat < 2 ^ 64 ∨
        heap.base.toNat + heap.size.toNat = 2 ^ 64)) ∨
    (room = 1 ∧ heap.base.toNat + heap.size.toNat = 2 ^ 64 ∧
      i.baseAddr.toNat ≤ heap.base.toNat)

/-- The condition on a memory map: it holds for all regions that are reached. -/
def MemoryMap.Spares (m : MemoryMap) (heap : HeapBlock) : Prop :=
  ∀ pre i post, m.infos = pre ++ i :: post → i.Suitable →
    (pre.flatMap (MemoryInfo.pieces (overriding heap))).length < heapMapSize →
    i.Spares heap (heapMapSize - (pre.flatMap (MemoryInfo.pieces (overriding heap))).length)

/-! ## One region -/

section Region

variable {i : MemoryInfo} {heap : HeapBlock}

theorem split_overriding_iff : i.Split (overriding heap) ↔ i.baseAddr.toNat ≤ heap.base.toNat ∧
      (heap.base.toNat + heap.size.toNat) % 2 ^ 64 ≤ (i.baseAddr.toNat + i.size.toNat) % 2 ^ 64 := by
  unfold MemoryInfo.Split overriding
  rw [and_iff_right rfl, BitVec.le_def, ge_iff_le, BitVec.le_def, BitVec.toNat_add,
    BitVec.toNat_add]

theorem disjoint_before (hsplit : i.Split (overriding heap)) :
    Disjoint (span i.baseAddr (heap.base - i.baseAddr)) (span heap.base heap.size) := by
  have hbase := (split_overriding_iff.1 hsplit).1
  have hsize : (heap.base - i.baseAddr).toNat = heap.base.toNat - i.baseAddr.toNat := by
    rw [BitVec.toNat_sub]
    omega
  rw [disjoint_span_iff (by omega) heap.fits]
  omega

theorem disjoint_behind_iff (hsplit : i.Split (overriding heap)) :
    Disjoint (span (heap.base + heap.size) (i.baseAddr + i.size - (heap.base + heap.size)))
      (span heap.base heap.size) ↔ heap.base.toNat + heap.size.toNat < 2 ^ 64 ∨
        (i.baseAddr.toNat + i.size.toNat) % 2 ^ 64 ≤ heap.base.toNat := by
  have hend := (split_overriding_iff.1 hsplit).2
  have hsrc : (heap.base + heap.size).toNat = (heap.base.toNat + heap.size.toNat) % 2 ^ 64 :=
    BitVec.toNat_add _ _
  have hsize : (i.baseAddr + i.size - (heap.base + heap.size)).toNat =
      (i.baseAddr.toNat + i.size.toNat) % 2 ^ 64 -
        (heap.base.toNat + heap.size.toNat) % 2 ^ 64 := by
    rw [BitVec.toNat_sub, BitVec.toNat_add, BitVec.toNat_add]
    omega
  rw [disjoint_span_iff (by omega) heap.fits]
  omega

/-- The areas of a region that are recorded do not meet the heap exactly if the region spares it. -/
theorem forall_mem_take_pieces_iff (hfits : i.baseAddr.toNat + i.size.toNat ≤ 2 ^ 64)
    (hpos : 0 < i.size.toNat) (k : Nat) :
    (∀ a ∈ (i.pieces (overriding heap)).take k,
      Disjoint (span a.1 a.2) (span heap.base heap.size)) ↔
      (i.Suitable → 0 < k → i.Spares heap k) := by
  have hheap := heap.fits
  unfold MemoryInfo.pieces
  by_cases hsuitable : i.Suitable
  · rw [if_pos hsuitable, forall_prop_of_true hsuitable]
    by_cases hsplit : i.Split (overriding heap)
    · have hbefore := disjoint_before hsplit
      have hbehind := disjoint_behind_iff hsplit
      have harith := split_overriding_iff.1 hsplit
      rw [if_pos hsplit]
      unfold MemoryInfo.Spares
      rw [disjoint_span_iff hfits hheap]
      match k with
      | 0 => exact iff_of_true nofun nofun
      | 1 =>
        refine iff_of_true (forall_mem_singleton.2 hbefore) fun _ => ?_
        omega
      | k + 2 =>
        rw [take_of_length_le (Nat.le_add_left 2 k), forall_mem_cons,
          forall_mem_singleton]
        refine (and_iff_right hbefore).trans (hbehind.trans ?_)
        omega
    · have harith := split_overriding_iff.not.1 hsplit
      rw [if_neg hsplit]
      unfold MemoryInfo.Spares
      match k with
      | 0 => exact iff_of_true nofun nofun
      | k + 1 =>
        rw [take_of_length_le (Nat.le_add_left 1 k), forall_mem_singleton]
        unfold MemoryInfo.range
        rw [disjoint_span_iff hfits hheap]
        omega
  · rw [if_neg hsuitable, take_nil]
    exact iff_of_true nofun fun h => absurd h hsuitable

end Region

/-! ## All regions -/

theorem forall_mem_take_flatMap_iff {α β : Type} {P : β → Prop} (f : α → List β) (l : List α)
    (n : Nat) : (∀ b ∈ (l.flatMap f).take n, P b) ↔
      ∀ pre a post, l = pre ++ a :: post → ∀ b ∈ (f a).take (n - (pre.flatMap f).length), P b := by
  induction l generalizing n with
  | nil => exact iff_of_true (by simp) (by simp)
  | cons a l ih =>
    rw [flatMap_cons, take_append, forall_mem_append, ih]
    constructor
    · rintro ⟨hfirst, hrest⟩ pre a' post h
      cases pre with
      | nil =>
        obtain ⟨rfl, rfl⟩ := List.cons.inj h
        exact hfirst
      | cons c pre =>
        obtain ⟨rfl, rfl⟩ := List.cons.inj h
        rw [flatMap_cons, length_append, ← Nat.sub_sub]
        exact hrest pre a' post rfl
    · intro h
      refine ⟨h [] a l rfl, fun pre a' post heq => ?_⟩
      have hrest := h (a :: pre) a' post (by rw [heq, cons_append])
      rw [flatMap_cons, length_append, ← Nat.sub_sub] at hrest
      exact hrest

/-- **When the heap is spared.** For every memory map and every heap, whatever `svcMapMemory`
returns: exactly if the map spares it. -/
theorem heap_spared_iff (m : MemoryMap) (heap : HeapBlock) (r : Nat → ResultT) {fuel : Nat}
    (hfuel : m.infos.length ≤ fuel) (s : BlockState) :
    HeapSpared m heap r fuel s ↔ m.Spares heap := by
  obtain ⟨t, hrun, ht⟩ := memMakeBlock_run (overriding heap) r m hfuel s
  have hareas : HeapSpared m heap r fuel s ↔
      ∀ a ∈ (m.areas (overriding heap)).take heapMapSize,
        Disjoint (span a.1 a.2) (span heap.base heap.size) := by
    rw [← m.source_calls (overriding heap) r s.mapBase, forall_mem_map]
    constructor
    · intro h call hcall
      exact h t _ hrun ht.events call.entry call.result (mem_map_of_mem hcall)
    · intro h t' events hrun' hevents e r' he
      obtain rfl : t = t' := by
        rw [hrun] at hrun'
        exact (EStateM.Result.ok.inj hrun').2
      rw [ht.events] at hevents
      rw [← append_cancel_left hevents] at he
      obtain ⟨call, hcall, heq⟩ := mem_map.1 he
      obtain ⟨rfl, -⟩ := MemEvent.mapMemory.inj heq
      exact h call hcall
  rw [hareas, MemoryMap.areas, forall_mem_take_flatMap_iff]
  refine forall_congr' fun pre => forall_congr' fun i => forall_congr' fun post =>
    forall_congr' fun hinfos => ?_
  have hbase := MemoryMap.toNat_baseAddr hinfos
  have htotal := MemoryMap.total_split hinfos
  have hpos := MemoryMap.size_pos hinfos
  rw [forall_mem_take_pieces_iff (by omega) hpos, Nat.sub_pos_iff_lt]

/-- A heap of three regions, the one in the middle uncached. -/
def uncachedPage : MemoryMap where
  infos := [⟨0, 0x10000, 0, 0, 0⟩, ⟨0x10000, 0x10000, 5, 0, 3⟩, ⟨0x20000, 0x1000, 5, 8, 3⟩,
    ⟨0x21000, 0x1F000, 5, 0, 3⟩, ⟨0x40000, 0xFFFFFFFFFFFC0000, 0, 0, 0⟩]
  consecutive := ⟨rfl, rfl, rfl, rfl, rfl, trivial⟩
  nonempty := by decide
  total := by decide

/-- A heap that is one of them. -/
def firstRegion : HeapBlock := ⟨0x10000, 0x10000, by decide⟩

/-- A heap that is all of them. -/
def threeRegions : HeapBlock := ⟨0x10000, 0x30000, by decide⟩

theorem firstRegion_spared : HeapSpared uncachedPage firstRegion (fun _ => resultOk) 5 noBlock := by
  refine (heap_spared_iff uncachedPage firstRegion _ (by decide) noBlock).2 ?_
  have hall : ∀ i ∈ uncachedPage.infos, i.Suitable → ∀ room, i.Spares firstRegion room := by
    simp only [uncachedPage, forall_mem_cons]
    refine ⟨fun h => absurd h (by decide), fun _ _ => ?_, fun h => absurd h (by decide),
      fun _ _ => ?_, fun h => absurd h (by decide), nofun⟩
    · exact .inr (.inl ⟨by decide, by decide, .inl (by decide)⟩)
    · exact .inl ((disjoint_span_iff (by decide) (by decide)).2 (by decide))
  intro pre i post hinfos hsuitable _
  exact hall i (by simp [hinfos]) hsuitable _

/-- The regions around the uncached page are mapped as a whole. -/
theorem threeRegions_not_spared :
    ¬ HeapSpared uncachedPage threeRegions (fun _ => resultOk) 5 noBlock := by
  intro h
  have hfuel : uncachedPage.infos.length ≤ 5 := by decide
  obtain ⟨t, hrun, ht⟩ :=
    memMakeBlock_run (overriding threeRegions) (fun _ => resultOk) uncachedPage hfuel noBlock
  have hcall : MemEvent.mapMemory ⟨0x10000, 0x100000, 0x10000⟩ resultOk ∈
      (uncachedPage.calls (overriding threeRegions) (fun _ => resultOk) noBlock.mapBase).map
        MapCall.event := by decide
  have hdisjoint := h t _ hrun ht.events _ _ hcall
  exact absurd ((disjoint_span_iff (by decide) (by decide)).1 hdisjoint) (by decide)

end LibTransistor
