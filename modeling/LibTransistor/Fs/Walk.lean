import LibTransistor.Fs.Paths

/-!
# What a walk does, segment by segment

The arrays of the path layer as lists, and the walk along a path in terms of them. Nothing after
this file looks into `visit` or `walk` again.

* `Stack.Holds` — the first entries of an array.
* `Walk.Holds` — the array of a walk has entries borrowed from `cwd` and then entries of its own.
* `Visited` — all that one segment can do, and `visit_run`, which says that it does one of them.
* `segments`, `follow` — the loop over the bytes of a path is a loop over its segments
  (`walk_eq_follow`).
-/

namespace LibTransistor

open Fallible List

variable {δ : Type} {env : FsEnv δ}
variable {r : ResultT} {a : Stack δ} {es dirs : List (Traversal δ)}

/-! ## Arrays that hold a list -/

namespace Stack

/-- The first entries of the array are those of the list. -/
structure Holds (a : Stack δ) (es : List (Traversal δ)) : Prop where
  length_le : es.length ≤ 256
  entry : ∀ i : Fin 256, i.val < es.length → a i = es[i.val]?

variable {b : Stack δ} {e : Traversal δ} {n : Nat}

theorem Holds.get (h : a.Holds es) (he : es[n]? = some e) : a.get n = .ok e := by
  have hn : n < es.length := (List.getElem?_eq_some_iff.1 he).1
  have hlen := h.length_le
  have hentry := h.entry ⟨n, by omega⟩ hn
  unfold Stack.get
  rw [dif_pos (by omega)]
  simp only [Int.toNat_natCast]
  rw [hentry, he]

theorem Holds.set (h : a.Holds es) (hlen : es.length < 256) (e : Traversal δ) :
    ∃ a', a.set es.length e = .ok a' ∧ Stack.Holds a' (es ++ [e]) := by
  refine ⟨_, dif_pos (by omega), ⟨by rw [length_append]; exact hlen, fun i hi => ?_⟩⟩
  simp only [Int.toNat_natCast]
  rw [length_append, length_singleton] at hi
  by_cases hlast : i.val = es.length
  · have hi : i = ⟨es.length, hlen⟩ := Fin.ext hlast
    rw [hi]
    simp
  · have hne : i ≠ ⟨es.length, hlen⟩ := fun heq => hlast (congrArg Fin.val heq)
    rw [Function.update_of_ne hne, h.entry i (by omega), getElem?_append_left (by omega)]

theorem Holds.of_prefix {es' : List (Traversal δ)} (h : a.Holds (es ++ es')) : a.Holds es where
  length_le := by
    have hlen := h.length_le
    rw [length_append] at hlen
    omega
  entry i hi := by
    rw [h.entry i (by rw [length_append]; omega), getElem?_append_left hi]

theorem Holds.copy (h : b.Holds es) {r : Int} (hr : r = es.length - 1) :
    (Stack.copy a b r).Holds es where
  length_le := h.length_le
  entry i hi := by
    unfold Stack.copy
    rw [if_pos (by omega), h.entry i hi]

end Stack

/-! ## States -/

/-- The inodes of a list of entries. -/
def inodes (es : List (Traversal δ)) : List InodeId := es.map (·.inode.id)

@[simp] theorem inodes_append (es es' : List (Traversal δ)) :
    inodes (es ++ es') = inodes es ++ inodes es' := map_append

def InodeId.time : InodeId → Nat
  | .root time => time
  | .found time => time

def InodeId.isFound : InodeId → Bool
  | .root _ => false
  | .found _ => true

namespace FsState

/-- The state after the inodes `ids` were released, first to last. -/
def released (s : FsState δ) (ids : List InodeId) : FsState δ :=
  { s with ledger := (ids.map Event.disposed).reverse ++ s.ledger }

/-- The state after a lookup in `inode` with result `r`, and the allocation that comes after it. -/
def looked (s : FsState δ) (inode : Inode δ) (r : ResultT) : FsState δ :=
  { s with
    clock := s.clock + 2
    ledger := (if r = resultOk then [.acquired (.found s.clock)] else []) ++
      .used inode.id :: s.ledger }

/-- `cwd[0..cwd_recursion]` are the entries of `dirs`. -/
structure InDirs (s : FsState δ) (dirs : List (Traversal δ)) : Prop where
  holds : s.cwd.Holds dirs
  recursion : s.cwdRecursion = dirs.length - 1
  pos : 0 < dirs.length

end FsState

section Operations

variable {s : FsState δ}

theorem tick_bind_run {β : Type} {f : Nat → FsM δ β} :
    (tick >>= f) s = f s.clock { s with clock := s.clock + 1 } := rfl

theorem lookup_run {inode : Inode δ} {name : List Byte} {data : δ}
    (hq : env.lookup s.clock inode.data name = (r, data)) :
    lookup env inode name s = .ok (r, ⟨data, .found s.clock⟩)
      { s with
        clock := s.clock + 1
        ledger := (if r = resultOk then [.acquired (.found s.clock)] else []) ++
          .used inode.id :: s.ledger } := by
  unfold lookup record
  rw [modify_bind_run, tick_bind_run, hq]
  dsimp only
  split_ifs <;> rfl

theorem releaseFrom_run {front : List (Traversal δ)} (ha : a.Holds (front ++ es)) (s : FsState δ) :
    releaseFrom a front.length es.length s = .ok () (s.released (inodes es)) := by
  induction es generalizing front s with
  | nil => rfl
  | cons e es ih =>
    have hget : a.get front.length = .ok e := ha.get (by simp)
    have hnext : (front.length : Int) + 1 = ((front ++ [e]).length : Nat) := by simp
    rw [append_cons] at ha
    have htail := ih ha { s with ledger := .disposed e.inode.id :: s.ledger }
    unfold releaseFrom
    rw [hget, hnext]
    show releaseFrom a (front ++ [e]).length es.length
      { s with ledger := .disposed e.inode.id :: s.ledger } = _
    rw [htail]
    simp [FsState.released, inodes]

theorem releaseAbove_run {front : List (Traversal δ)} (ha : a.Holds (front ++ es))
    {borrowed recursion : Int} (hb : borrowed = front.length - 1)
    (hr : recursion = front.length + es.length - 1) (s : FsState δ) :
    releaseAbove a borrowed recursion s = .ok () (s.released (inodes es)) := by
  have hstart : borrowed + 1 = front.length := by omega
  have hcount : (recursion - borrowed).toNat = es.length := by omega
  unfold releaseAbove
  rw [hstart, hcount, releaseFrom_run ha]

end Operations

/-! ## The array of a walk -/

/-- The array of a walk has the first `k` entries of `cwd`, which are borrowed, and then entries of
its own. -/
structure Walk.Holds (t : Walk δ) (dirs : List (Traversal δ)) (k : Nat) (own : List (Traversal δ)) :
    Prop where
  stack : t.traverse.Holds (dirs.take k ++ own)
  recursion : t.recursion = k + own.length - 1
  borrowed : t.borrowed = k - 1
  pos : 0 < k
  le : k ≤ dirs.length
  found : ∀ id ∈ inodes own, id.isFound

section Walk

variable {s : FsState δ} {t : Walk δ} {own : List (Traversal δ)} {k : Nat}

theorem Walk.Holds.length_entries (h : t.Holds dirs k own) :
    (dirs.take k ++ own).length = k + own.length := by
  rw [length_append, length_take, Nat.min_eq_left h.le]

theorem Walk.Holds.length_le (h : t.Holds dirs k own) : k + own.length ≤ 256 := by
  rw [← h.length_entries]
  exact h.stack.length_le

theorem Walk.Holds.top (h : t.Holds dirs k own) :
    ∃ e, t.traverse.get t.recursion = .ok e ∧ (dirs.take k ++ own).getLast? = some e := by
  have hpos := h.pos
  have hlen := h.length_entries
  have hlt : k + own.length - 1 < (dirs.take k ++ own).length := by omega
  have hlast := getElem?_eq_getElem hlt
  have hrec : t.recursion = (k + own.length - 1 : Nat) := by
    rw [h.recursion]
    omega
  refine ⟨(dirs.take k ++ own)[k + own.length - 1], ?_, ?_⟩
  · rw [hrec]
    exact h.stack.get hlast
  · rw [getLast?_eq_getElem?, hlen]
    exact hlast

theorem Walk.Holds.pop {e : Traversal δ} (h : t.Holds dirs k (own ++ [e])) :
    t.traverse.get t.recursion = .ok e ∧
      ({ t with recursion := t.recursion - 1 } : Walk δ).Holds dirs k own := by
  have hlen : (dirs.take k).length = k := by rw [length_take, Nat.min_eq_left h.le]
  have hrec : t.recursion = (k + own.length : Nat) := by
    rw [h.recursion, length_append, length_singleton]
    omega
  have hstack := h.stack
  rw [← append_assoc] at hstack
  refine ⟨?_, ⟨hstack.of_prefix, ?_, h.borrowed, h.pos, h.le, fun id hid => h.found id ?_⟩⟩
  · rw [hrec]
    exact hstack.get (by simp [hlen])
  · show t.recursion - 1 = _
    omega
  · rw [inodes_append]
    exact mem_append_left _ hid

theorem Walk.Holds.unborrow (h : t.Holds dirs k []) (hk : 1 < k) :
    ({ t with borrowed := t.borrowed - 1, recursion := t.recursion - 1 } : Walk δ).Holds dirs
      (k - 1) [] := by
  have hle := h.le
  have htake : dirs.take k = dirs.take (k - 1) ++ [dirs[k - 1]] := by
    rw [← take_succ_eq_append_getElem (by omega)]
    congr
    omega
  have hstack := h.stack
  rw [append_nil, htake] at hstack
  refine ⟨by rw [append_nil]; exact hstack.of_prefix, ?_, ?_, by omega, by omega, h.found⟩
  · show t.recursion - 1 = _
    rw [h.recursion]
    omega
  · show t.borrowed - 1 = _
    rw [h.borrowed]
    omega

theorem Walk.Holds.push (h : t.Holds dirs k own) (hdeep : ¬ t.recursion + 1 ≥ 256)
    (e : Traversal δ) (he : e.inode.id.isFound) :
    ∃ a, t.traverse.set (t.recursion + 1) e = .ok a ∧
      ({ t with traverse := a, recursion := t.recursion + 1 } : Walk δ).Holds dirs k
        (own ++ [e]) := by
  have hlen := h.length_entries
  have hrec : t.recursion + 1 = (dirs.take k ++ own).length := by
    rw [h.recursion]
    omega
  obtain ⟨a, hset, hholds⟩ := h.stack.set (by omega) e
  refine ⟨a, by rw [hrec]; exact hset, ⟨?_, ?_, h.borrowed, h.pos, h.le, ?_⟩⟩
  · rw [← append_assoc]
    exact hholds
  · show t.recursion + 1 = _
    rw [hrec, hlen, length_append, length_singleton]
    omega
  · intro id hid
    rw [inodes_append] at hid
    rcases mem_append.1 hid with hmem | hmem
    · exact h.found id hmem
    · rw [mem_singleton.1 hmem]
      exact he

theorem Walk.holds_start (hs : s.InDirs dirs) (hpos : 0 < k) (hle : k ≤ dirs.length) :
    (⟨Stack.copy (fun _ => none) s.cwd s.cwdRecursion, k - 1, k - 1⟩ : Walk δ).Holds dirs k [] where
  stack := by
    have hcopy := hs.holds.copy (a := fun _ => none) hs.recursion
    rw [← take_append_drop k dirs] at hcopy
    rw [append_nil]
    exact hcopy.of_prefix
  recursion := by simp
  borrowed := rfl
  pos := hpos
  le := hle
  found id hid := by cases hid

theorem Walk.Holds.releaseAbove (ht : t.Holds dirs k own) (s : FsState δ) :
    releaseAbove t.traverse t.borrowed t.recursion s = .ok () (s.released (inodes own)) := by
  have hlen : (dirs.take k).length = k := by rw [length_take, Nat.min_eq_left ht.le]
  exact releaseAbove_run ht.stack (by rw [hlen, ht.borrowed]) (by rw [hlen, ht.recursion]) s

end Walk

theorem namesFrom_eq_ok (front : List (Traversal δ)) (ha : a.Holds (front ++ es)) :
    namesFrom a front.length es.length = .ok (es.map (·.name)) := by
  induction es generalizing front with
  | nil => rfl
  | cons e es ih =>
    have hget : a.get front.length = .ok e := ha.get (by simp)
    have hnext : (front.length : Int) + 1 = ((front ++ [e]).length : Nat) := by simp
    rw [append_cons] at ha
    rw [length_cons]
    unfold namesFrom
    rw [hget, hnext, ih _ ha]
    rfl

theorem Walk.Holds.names {t : Walk δ} {own : List (Traversal δ)} {k : Nat} (ht : t.Holds dirs k own) :
    namesFrom t.traverse 0 (t.recursion + 1).toNat = .ok ((dirs.take k ++ own).map (·.name)) := by
  have hcount : (t.recursion + 1).toNat = (dirs.take k ++ own).length := by
    rw [ht.recursion, ht.length_entries]
    omega
  rw [hcount]
  exact namesFrom_eq_ok [] ht.stack

/-! ## One segment -/

/-- Where a walk is: the state, how many entries of `cwd` it has kept, and its own entries. -/
structure Point (δ : Type) where
  state : FsState δ
  kept : Nat
  own : List (Traversal δ)

/-- The entries `traverse[0..traverse_recursion]`. -/
def Point.entries (dirs : List (Traversal δ)) (x : Point δ) : List (Traversal δ) :=
  dirs.take x.kept ++ x.own

/-- A segment that is looked up. -/
def IsName (segment : List Byte) : Prop := segment ≠ [dot, dot] ∧ segment ≠ [dot]

/-- What a segment of the path can do, with the value of `r` that it ends with. -/
inductive Visited (env : FsEnv δ) (dirs : List (Traversal δ)) (segment : List Byte) :
    Point δ → ResultT → Point δ → Prop
  | stay {x : Point δ} (h : segment = [dot]) : Visited env dirs segment x resultOk x
  | root {s : FsState δ} (h : segment = [dot, dot]) (hle : 1 ≤ dirs.length) :
      Visited env dirs segment ⟨s, 1, []⟩ resultOk ⟨s, 1, []⟩
  | unborrow {s : FsState δ} {k : Nat} (h : segment = [dot, dot]) (hk : 0 < k)
      (hle : k + 1 ≤ dirs.length) :
      Visited env dirs segment ⟨s, k + 1, []⟩ resultOk ⟨s, k, []⟩
  | pop {s : FsState δ} {k : Nat} {own : List (Traversal δ)} {e : Traversal δ}
      (h : segment = [dot, dot]) (hk : 0 < k) (hle : k ≤ dirs.length) :
      Visited env dirs segment ⟨s, k, own ++ [e]⟩ resultOk ⟨s.released [e.inode.id], k, own⟩
  | tooDeep {x : Point δ} (h : IsName segment) (hdeep : 256 ≤ (x.entries dirs).length) :
      Visited env dirs segment x Err.fsPathTooDeep x
  /-- The allocation of the name fails, whatever the lookup's result was. -/
  | noMemory {s : FsState δ} {k : Nat} {own : List (Traversal δ)} {top : Traversal δ}
      {r : ResultT} {data : δ} (h : IsName segment)
      (hdeep : (Point.entries dirs ⟨s, k, own⟩).length < 256)
      (htop : (Point.entries dirs ⟨s, k, own⟩).getLast? = some top)
      (hlookup : env.lookup s.clock top.inode.data segment = (r, data))
      (hmalloc : env.malloc (s.clock + 1) = false) :
      Visited env dirs segment ⟨s, k, own⟩ Err.outOfMemory ⟨s.looked top.inode r, k, own⟩
  | missing {s : FsState δ} {k : Nat} {own : List (Traversal δ)} {top : Traversal δ}
      {r : ResultT} {data : δ} (h : IsName segment)
      (hdeep : (Point.entries dirs ⟨s, k, own⟩).length < 256)
      (htop : (Point.entries dirs ⟨s, k, own⟩).getLast? = some top)
      (hlookup : env.lookup s.clock top.inode.data segment = (r, data)) (hr : r ≠ resultOk)
      (hmalloc : env.malloc (s.clock + 1) = true) :
      Visited env dirs segment ⟨s, k, own⟩ r ⟨s.looked top.inode r, k, own⟩
  | found {s : FsState δ} {k : Nat} {own : List (Traversal δ)} {top : Traversal δ} {data : δ}
      (h : IsName segment) (hdeep : (Point.entries dirs ⟨s, k, own⟩).length < 256)
      (htop : (Point.entries dirs ⟨s, k, own⟩).getLast? = some top)
      (hlookup : env.lookup s.clock top.inode.data segment = (resultOk, data))
      (hmalloc : env.malloc (s.clock + 1) = true) :
      Visited env dirs segment ⟨s, k, own⟩ resultOk
        ⟨s.looked top.inode resultOk, k, own ++ [⟨⟨data, .found s.clock⟩, segment⟩]⟩

section Visit

variable {s : FsState δ} {t : Walk δ} {own : List (Traversal δ)} {k : Nat}

theorem goUp_run (env : FsEnv δ) (ht : t.Holds dirs k own) (s : FsState δ) :
    ∃ t' y, goUp t s = .ok t' y.state ∧ t'.Holds dirs y.kept y.own ∧
      Visited env dirs [dot, dot] ⟨s, k, own⟩ resultOk y := by
  have hpos := ht.pos
  unfold goUp
  rcases eq_nil_or_concat own with rfl | ⟨own', e, rfl⟩
  · -- the top entry is borrowed
    have hborrowed : ¬ t.recursion > t.borrowed := by
      rw [ht.recursion, ht.borrowed]
      simp
    obtain ⟨j, rfl⟩ : ∃ j, k = j + 1 := ⟨k - 1, by omega⟩
    by_cases hj : 0 < j
    · have hroot : t.recursion > 0 := by
        rw [ht.recursion]
        omega
      rw [if_pos hroot, if_neg hborrowed]
      exact ⟨_, ⟨s, j, []⟩, rfl, ht.unborrow (by omega), .unborrow rfl hj ht.le⟩
    · obtain rfl : j = 0 := by omega
      have hroot : ¬ t.recursion > 0 := by
        rw [ht.recursion, length_nil]
        omega
      rw [if_neg hroot]
      exact ⟨_, ⟨s, 1, []⟩, rfl, ht, .root rfl ht.le⟩
  · rw [concat_eq_append] at ht ⊢
    obtain ⟨hget, ht'⟩ := ht.pop
    have hroot : t.recursion > 0 := by
      rw [ht.recursion, length_append, length_singleton]
      omega
    have hown : t.recursion > t.borrowed := by
      rw [ht.recursion, ht.borrowed, length_append, length_singleton]
      omega
    rw [if_pos hroot, if_pos hown, runPure_bind_of_ok hget]
    exact ⟨_, ⟨s.released [e.inode.id], k, own'⟩, rfl, ht', .pop rfl ht.pos ht.le⟩

theorem goDown_run {segment : List Byte} (hname : IsName segment) (ht : t.Holds dirs k own)
    (s : FsState δ) :
    ∃ t' r y, goDown env segment t s = .ok (t', r) y.state ∧ t'.Holds dirs y.kept y.own ∧
      Visited env dirs segment ⟨s, k, own⟩ r y := by
  have hlen : (Point.entries dirs ⟨s, k, own⟩).length = t.recursion + 1 := by
    have hentries := ht.length_entries
    rw [ht.recursion, Point.entries, hentries]
    omega
  unfold goDown
  by_cases hdeep : t.recursion + 1 ≥ 256
  · rw [if_pos hdeep]
    exact ⟨t, _, ⟨s, k, own⟩, rfl, ht, .tooDeep hname (by omega)⟩
  · obtain ⟨top, hget, htop⟩ := ht.top
    rcases hq : env.lookup s.clock top.inode.data segment with ⟨r, data⟩
    rw [if_neg hdeep, runPure_bind_of_ok hget, bind_of_ok (lookup_run hq)]
    dsimp only
    have hmalloc : malloc env { s with
        clock := s.clock + 1
        ledger := (if r = resultOk then [.acquired (.found s.clock)] else []) ++
          .used top.inode.id :: s.ledger } =
        .ok (env.malloc (s.clock + 1)) (s.looked top.inode r) := rfl
    rw [bind_of_ok hmalloc]
    cases hm : env.malloc (s.clock + 1) with
    | false =>
      exact ⟨t, _, ⟨s.looked top.inode r, k, own⟩, rfl, ht,
        .noMemory hname (by omega) htop hq hm⟩
    | true =>
      rw [if_neg (by decide)]
      by_cases hr : r = resultOk
      · subst hr
        obtain ⟨a, hset, ht'⟩ := ht.push hdeep ⟨⟨data, .found s.clock⟩, segment⟩ rfl
        rw [if_neg (not_not.2 rfl), runPure_bind_of_ok hset]
        exact ⟨_, _, ⟨s.looked top.inode resultOk, k, _⟩, rfl, ht',
          .found hname (by omega) htop hq hm⟩
      · rw [if_pos hr]
        exact ⟨t, r, ⟨s.looked top.inode r, k, own⟩, rfl, ht,
          .missing hname (by omega) htop hq hr hm⟩

theorem visit_run (segment : List Byte) (ht : t.Holds dirs k own) (s : FsState δ) :
    ∃ t' r y, visit env segment t s = .ok (t', r) y.state ∧ t'.Holds dirs y.kept y.own ∧
      Visited env dirs segment ⟨s, k, own⟩ r y := by
  unfold visit
  by_cases hup : segment = [dot, dot]
  · subst hup
    obtain ⟨t', y, hrun, ht', hvisited⟩ := goUp_run env ht s
    rw [if_pos rfl, bind_of_ok hrun]
    exact ⟨t', _, y, rfl, ht', hvisited⟩
  · rw [if_neg hup]
    by_cases hdot : segment = [dot]
    · rw [if_pos hdot]
      exact ⟨t, _, ⟨s, k, own⟩, rfl, ht, .stay hdot⟩
    · rw [if_neg hdot]
      exact goDown_run ⟨hup, hdot⟩ ht s

end Visit

/-! ## The segments of a path -/

variable (path : List Byte)

/-- What stands between the slashes of a path. -/
def segments : List (List Byte) := (path.splitOn slash).filter (· ≠ [])

theorem segments_of_slash : segments (slash :: path) = segments path := by
  rfl

theorem segments_dropWhile : segments (path.dropWhile (· = slash)) = segments path := by
  induction path with
  | nil => rfl
  | cons b path ih =>
    rw [dropWhile_cons]
    split_ifs with hb
    · rw [ih, of_decide_eq_true hb, segments_of_slash]
    · rfl

theorem segments_of_name {name : List Byte} (hname : name ≠ []) (hslash : slash ∉ name)
    {rest : List Byte} (hrest : rest = [] ∨ ∃ path, rest = slash :: path) :
    segments (name ++ rest) = name :: segments rest := by
  have hfree : ∀ b ∈ name, (b == slash) = false := by
    intro b hb
    rw [beq_eq_false_iff_ne]
    rintro rfl
    exact hslash hb
  rcases hrest with rfl | ⟨path, rfl⟩
  · unfold segments List.splitOn
    rw [append_nil, splitOnP_eq_singleton hfree]
    simp [hname]
  · rw [segments_of_slash]
    unfold segments List.splitOn
    rw [splitOnP_append_cons_of_forall_mem hfree _ (by simp)]
    simp [hname]

/-- The first segment is what the source scans for: behind the slashes, up to the next one. -/
theorem segments_eq :
    segments path =
      if (path.dropWhile (· = slash)).takeWhile (· ≠ slash) = [] then []
      else (path.dropWhile (· = slash)).takeWhile (· ≠ slash) ::
        segments ((path.dropWhile (· = slash)).drop
          ((path.dropWhile (· = slash)).takeWhile (· ≠ slash)).length) := by
  have hhead : ∀ b ∈ (path.dropWhile (· = slash)).head?, b ≠ slash := by
    intro b hb
    have hnot := head?_dropWhile_not (fun b => decide (b = slash)) path
    rw [Option.mem_def.1 hb] at hnot
    simpa using hnot
  rw [← segments_dropWhile]
  generalize path.dropWhile (· = slash) = trimmed at hhead ⊢
  split_ifs with hname
  · -- nothing is left but slashes
    cases trimmed with
    | nil => rfl
    | cons b rest =>
      rw [takeWhile_cons_of_pos (by simpa using hhead b rfl)] at hname
      cases hname
  · have hsplit := takeWhile_append_dropWhile (p := fun b => decide (b ≠ slash)) (l := trimmed)
    have hdrop : trimmed.drop (trimmed.takeWhile (· ≠ slash)).length =
        trimmed.dropWhile (· ≠ slash) :=
      (congrArg (List.drop (trimmed.takeWhile (· ≠ slash)).length) hsplit).symm.trans drop_left
    rw [hdrop]
    nth_rewrite 1 [← hsplit]
    refine segments_of_name hname (fun hmem => ?_) ?_
    · simpa using mem_takeWhile_imp hmem
    · cases hrest : trimmed.dropWhile (· ≠ slash) with
      | nil => exact .inl rfl
      | cons b rest =>
        have hb := head?_dropWhile_not (fun b => decide (b ≠ slash)) trimmed
        rw [hrest] at hb
        exact .inr ⟨rest, by simpa using hb⟩

/-- The `while` loop of `trn_fs_traverse` over the segments of the path. -/
def follow (env : FsEnv δ) : List (List Byte) → Walk δ → FsM δ (Walk δ × ResultT)
  | [], t => pure (t, resultOk)
  | segment :: rest, t => do
    let (t, r) ← visit env segment t
    if r ≠ resultOk then pure (t, r) else follow env rest t

theorem walk_eq_follow (t : Walk δ) (s : FsState δ) :
    walk env path t s = follow env (segments path) t s := by
  induction path, t using walk.induct generalizing s with
  | case1 t =>
    rw [walk]
    rfl
  | case2 path t hne =>
    rename_i hname
    rw [walk, if_neg hne, if_pos hname, segments_eq, if_pos hname]
    rfl
  | case3 path t hne =>
    rename_i hname ih
    rw [walk, if_neg hne, if_neg hname, segments_eq, if_neg hname, follow]
    cases hvisit : visit env ((path.dropWhile (· = slash)).takeWhile (· ≠ slash)) t s with
    | error e s₁ => rw [bind_of_error hvisit, bind_of_error hvisit]
    | ok x s₁ =>
      rw [bind_of_ok hvisit, bind_of_ok hvisit]
      dsimp only
      split_ifs
      · rfl
      · exact ih x.1 s₁

/-! ## The whole walk -/

/-- What the segments of a path can do, one after the other, until one fails. -/
inductive Followed (env : FsEnv δ) (dirs : List (Traversal δ)) :
    List (List Byte) → Point δ → ResultT → Point δ → Prop
  | done {x : Point δ} : Followed env dirs [] x resultOk x
  | fails {segment : List Byte} {rest : List (List Byte)} {x y : Point δ} {r : ResultT}
      (h : Visited env dirs segment x r y) (hr : r ≠ resultOk) :
      Followed env dirs (segment :: rest) x r y
  | next {segment : List Byte} {rest : List (List Byte)} {x y z : Point δ} {r : ResultT}
      (h : Visited env dirs segment x resultOk y) (hrest : Followed env dirs rest y r z) :
      Followed env dirs (segment :: rest) x r z

theorem Visited.clock_le {segment : List Byte} {x y : Point δ} (h : Visited env dirs segment x r y) :
    x.state.clock ≤ y.state.clock := by
  cases h with
  | stay | root | unborrow | pop | tooDeep => exact Nat.le_refl _
  | noMemory | missing | found => exact Nat.le_add_right _ 2

theorem Followed.clock_le {path : List (List Byte)} {x y : Point δ}
    (h : Followed env dirs path x r y) : x.state.clock ≤ y.state.clock := by
  induction h with
  | done => exact Nat.le_refl _
  | fails h => exact h.clock_le
  | next h _ ih => exact h.clock_le.trans ih

section Traverse

variable {s : FsState δ} {t : Walk δ} {own : List (Traversal δ)} {k : Nat}

theorem follow_run (path : List (List Byte)) (ht : t.Holds dirs k own) (s : FsState δ) :
    ∃ t' r y, follow env path t s = .ok (t', r) y.state ∧ t'.Holds dirs y.kept y.own ∧
      Followed env dirs path ⟨s, k, own⟩ r y := by
  induction path generalizing t k own s with
  | nil => exact ⟨t, _, ⟨s, k, own⟩, rfl, ht, .done⟩
  | cons segment rest ih =>
    obtain ⟨t₁, r₁, y, hvisit, ht₁, hvisited⟩ := visit_run segment ht s
    rw [follow, bind_of_ok hvisit]
    dsimp only
    by_cases hr : r₁ = resultOk
    · subst hr
      obtain ⟨t', r, z, hrun, ht', hfollowed⟩ := ih ht₁ y.state
      exact ⟨t', r, z, hrun, ht', .next hvisited hfollowed⟩
    · rw [if_pos hr]
      exact ⟨t₁, r₁, y, rfl, ht₁, .fails hvisited hr⟩

/-- Where the walk along a path starts. -/
def Point.start (s : FsState δ) (dirs : List (Traversal δ)) (path : CString) : Point δ :=
  ⟨s, if path.bytes.head? = some slash then 1 else dirs.length, []⟩

/-- **The walk along a path.** It follows the segments; when one fails it gives back the entries of
its own. -/
theorem traverse_run (env : FsEnv δ) (hs : s.InDirs dirs) (path : CString) :
    ∃ t r y, t.Holds dirs y.kept y.own ∧
      Followed env dirs (segments path.bytes) (.start s dirs path) r y ∧
      trnFsTraverse env path s =
        if r = resultOk then .ok t y.state
        else .error (.result r) (y.state.released (inodes y.own)) := by
  have hstart : (if path.bytes.head? = some slash
      then (⟨Stack.copy (fun _ => none) s.cwd s.cwdRecursion, 0, 0⟩ : Walk δ)
      else ⟨Stack.copy (fun _ => none) s.cwd s.cwdRecursion, s.cwdRecursion,
        s.cwdRecursion⟩).Holds dirs (Point.start s dirs path).kept [] := by
    unfold Point.start
    split_ifs
    · exact Walk.holds_start hs Nat.zero_lt_one hs.pos
    · have hholds := Walk.holds_start hs hs.pos (Nat.le_refl _)
      rwa [← hs.recursion] at hholds
  obtain ⟨t, r, y, hfollow, ht, hfollowed⟩ := follow_run (segments path.bytes) hstart s
  refine ⟨t, r, y, ht, hfollowed, ?_⟩
  unfold trnFsTraverse
  rw [get_bind_run]
  dsimp only
  rw [bind_of_ok ((walk_eq_follow _ _ _).trans hfollow)]
  by_cases hr : r = resultOk
  · rw [if_neg (not_not.2 hr), if_pos hr]
    rfl
  · rw [if_pos hr, if_neg hr, bind_of_ok (ht.releaseAbove y.state)]
    rfl

/-- The state after `trn_fs_chdir` has gone where the walk `t` ended, and has left the directories
`left`. -/
def FsState.movedTo (s : FsState δ) (t : Walk δ) (left : List (Traversal δ)) : FsState δ :=
  { s.released (inodes left) with
    cwd := Stack.copy s.cwd t.traverse t.recursion
    cwdRecursion := t.recursion }

theorem FsState.movedTo_inDirs (ht : t.Holds dirs k own) (s : FsState δ)
    (left : List (Traversal δ)) : (s.movedTo t left).InDirs (dirs.take k ++ own) := by
  have hpos := ht.pos
  have hlen := ht.length_entries
  have hrec : t.recursion = (dirs.take k ++ own).length - 1 := by rw [ht.recursion]; omega
  exact ⟨ht.stack.copy hrec, hrec, by omega⟩

theorem chdir_rest_run (ht : t.Holds dirs k own) (hs : s.InDirs dirs) :
    (do
      let s ← get
      releaseAbove s.cwd t.borrowed s.cwdRecursion
      modify fun s => { s with
        cwd := Stack.copy s.cwd t.traverse t.recursion
        cwdRecursion := t.recursion } : FsM δ Unit) s = .ok () (s.movedTo t (dirs.drop k)) := by
  have hle := ht.le
  have hlen : (dirs.take k).length = k := by rw [length_take, Nat.min_eq_left hle]
  have hcwd := hs.holds
  rw [← take_append_drop k dirs] at hcwd
  have hleft : releaseAbove s.cwd t.borrowed s.cwdRecursion s =
      .ok () (s.released (inodes (dirs.drop k))) := by
    refine releaseAbove_run hcwd (by rw [hlen, ht.borrowed]) ?_ s
    rw [hs.recursion, length_drop]
    omega
  rw [get_bind_run, bind_of_ok hleft]
  rfl

end Traverse

/-! ## A small filesystem -/

/-- A filesystem in which every directory has every name, down to the fourth level. -/
def fourLevels : FsEnv Nat where
  lookup _ depth _ := (if depth < 4 then resultOk else Err.unimplemented, depth + 1)
  openAsFile _ _ _ := (Err.unimplemented, 0)
  openAsDir _ _ := (Err.unimplemented, 0)
  malloc _ := true

/-- `/`. -/
def rootPath : CString := ⟨[slash], by decide⟩

/-- `/a/../b`. -/
def upAndDown : CString := ⟨[slash, 0x61#8, slash, dot, dot, slash, 0x62#8], by decide⟩

/-- `b/c/d/e`. -/
def tooDeep : CString :=
  ⟨[0x62#8, slash, 0x63#8, slash, 0x64#8, slash, 0x65#8], by decide⟩

/-- The state after `trn_fs_set_root`. -/
def fourLevelsRoot : FsState Nat where
  root := some ⟨0, .root 0⟩
  cwd := Function.update (fun _ => none) 0 (some ⟨⟨0, .root 0⟩, []⟩)
  cwdRecursion := 0
  clock := 1
  ledger := [.acquired (.root 0)]

end LibTransistor
