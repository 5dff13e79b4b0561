import LibTransistor.Fs.Walk

/-!
# Path resolution

What a path means, apart from arrays and borrowing: a place is an entry with those it was reached
through, a path is a list of segments, and `resolve` goes from place to place. `trn_fs_traverse`
returns what `resolve` returns, from every current directory (`traverse_resolves`).

Names are allocated on the way, so the walk may also run out of memory. The source looks at the
result of the allocation before that of the lookup.
-/

namespace LibTransistor

open Fallible List

variable {δ : Type} {env : FsEnv δ}

/-! ## Places -/

/-- An entry, and the entries above it, innermost first. -/
structure Place (δ : Type) where
  top : Traversal δ
  below : List (Traversal δ)

namespace Place

variable (p : Place δ)

/-- From the root to the top. -/
def entries : List (Traversal δ) := (p.top :: p.below).reverse

/-- The root is its own parent. -/
def up : Place δ → Place δ
  | ⟨top, []⟩ => ⟨top, []⟩
  | ⟨_, e :: below⟩ => ⟨e, below⟩

def down (e : Traversal δ) : Place δ := ⟨e, p.top :: p.below⟩

def root : Place δ := ⟨(p.top :: p.below).getLast (List.cons_ne_nil _ _), []⟩

/-- Where a path starts, from the directory `p`. -/
def startOf (path : CString) : Place δ :=
  if path.bytes.head? = some slash then p.root else p

variable {p : Place δ} {front : List (Traversal δ)} {e : Traversal δ}

@[simp] theorem length_entries : p.entries.length = p.below.length + 1 := by simp [entries]

theorem getLast?_entries : p.entries.getLast? = some p.top := by simp [entries]

theorem entries_down : (p.down e).entries = p.entries ++ [e] := by simp [entries, down]

theorem entries_root : p.root.entries = p.entries.take 1 := by
  have hhead := head?_reverse (l := p.top :: p.below)
  unfold entries
  rw [take_one, hhead]
  rfl

theorem entries_up (h : p.entries = front ++ [e]) (hne : front ≠ []) : p.up.entries = front := by
  obtain ⟨top, below⟩ := p
  unfold entries at h
  rw [reverse_cons] at h
  obtain ⟨hfront, -⟩ := append_inj' h rfl
  cases below with
  | nil => exact absurd hfront.symm hne
  | cons b below => exact hfront

theorem up_of_entries (h : p.entries = [e]) : p.up = p := by
  obtain ⟨top, below⟩ := p
  cases below with
  | nil => rfl
  | cons b below => simpa using congrArg List.length h

end Place

/-! ## The reference walk -/

/-- Why a path cannot be resolved. -/
inductive Unresolved
  /-- A lookup failed. -/
  | lookup (r : ResultT)
  /-- There would be a 257th entry. -/
  | tooDeep
  /-- A name could not be allocated; `found` says whether its lookup succeeded. -/
  | noMemory (found : Bool)
  deriving DecidableEq

/-- What `trn_fs_traverse` returns for it. -/
def Unresolved.code : Unresolved → ResultT
  | .lookup r => r
  | .tooDeep => Err.fsPathTooDeep
  | .noMemory _ => Err.outOfMemory

/-- Follow the segments of a path from `p` on, at the given time: each segment that is looked up
takes a lookup and an allocation. -/
def resolve (env : FsEnv δ) : Nat → List (List Byte) → Place δ → Except Unresolved (Place δ)
  | _, [], p => .ok p
  | time, segment :: rest, p =>
    if segment = [dot] then resolve env time rest p
    else if segment = [dot, dot] then resolve env time rest p.up
    else if p.entries.length + 1 > 256 then .error .tooDeep
    else
      let (r, data) := env.lookup time p.top.inode.data segment
      if env.malloc (time + 1) = false then .error (.noMemory (r = resultOk))
      else if r ≠ resultOk then .error (.lookup r)
      else resolve env (time + 2) rest (p.down ⟨⟨data, .found time⟩, segment⟩)

section Resolve

variable {time : Nat} {segment : List Byte} {p : Place δ} (rest : List (List Byte))

theorem resolve_up : resolve env time ([dot, dot] :: rest) p = resolve env time rest p.up := by
  rw [resolve, if_neg (by decide), if_pos rfl]

theorem resolve_tooDeep (h : IsName segment) (hdeep : 256 ≤ p.entries.length) :
    resolve env time (segment :: rest) p = .error .tooDeep := by
  rw [resolve, if_neg h.2, if_neg h.1, if_pos (by omega)]

theorem resolve_name (h : IsName segment) (hdeep : p.entries.length < 256) {r : ResultT} {data : δ}
    (hlookup : env.lookup time p.top.inode.data segment = (r, data)) :
    resolve env time (segment :: rest) p =
      if env.malloc (time + 1) = false then .error (.noMemory (r = resultOk))
      else if r ≠ resultOk then .error (.lookup r)
      else resolve env (time + 2) rest (p.down ⟨⟨data, .found time⟩, segment⟩) := by
  rw [resolve, if_neg h.2, if_neg h.1, if_neg (by omega), hlookup]

end Resolve

section Simulation

variable {dirs : List (Traversal δ)} {path : List (List Byte)} {x y : Point δ} {r : ResultT}
variable {p : Place δ}

/-- The walk and `resolve` have come to the same place. -/
def Point.IsAt (dirs : List (Traversal δ)) (x : Point δ) (p : Place δ) : Prop :=
  x.entries dirs = p.entries

theorem Point.IsAt.top (hx : x.IsAt dirs p) {top : Traversal δ}
    (htop : (x.entries dirs).getLast? = some top) : top = p.top := by
  rw [hx, Place.getLast?_entries] at htop
  exact (Option.some.inj htop).symm

theorem Point.IsAt.up (hx : x.IsAt dirs p) {e : Traversal δ}
    (h : x.entries dirs = y.entries dirs ++ [e]) (hpos : 0 < y.kept) (hle : y.kept ≤ dirs.length) :
    y.IsAt dirs p.up := by
  refine (Place.entries_up (hx.symm.trans h) (ne_nil_of_length_pos ?_)).symm
  rw [Point.entries, length_append, length_take]
  omega

theorem ne_resultOk_of_tooDeep : Err.fsPathTooDeep ≠ resultOk := by decide

theorem ne_resultOk_of_noMemory : Err.outOfMemory ≠ resultOk := by decide

/-- One segment of the walk is one segment of `resolve`: both fail, or both go on from the same
place. -/
theorem Visited.resolves {segment : List Byte} (h : Visited env dirs segment x r y)
    (hx : x.IsAt dirs p) (rest : List (List Byte)) :
    (r = resultOk ∧ ∃ q, y.IsAt dirs q ∧ resolve env x.state.clock (segment :: rest) p =
      resolve env y.state.clock rest q) ∨
    (r ≠ resultOk ∧ ∃ u, r = u.code ∧ resolve env x.state.clock (segment :: rest) p = .error u) := by
  cases h with
  | stay h =>
    refine .inl ⟨rfl, p, hx, ?_⟩
    rw [resolve, if_pos h]
  | root h hle =>
    obtain ⟨e, he⟩ := length_eq_one_iff.1 (show (dirs.take 1).length = 1 by
      rw [length_take, Nat.min_eq_left hle])
    have hp : p.up = p := Place.up_of_entries (by rw [← hx, Point.entries, he]; rfl)
    subst h
    exact .inl ⟨rfl, p, hx, by rw [resolve_up, hp]⟩
  | @unborrow s k h hk hle =>
    subst h
    have htake : Point.entries dirs ⟨s, k + 1, []⟩ = Point.entries dirs ⟨s, k, []⟩ ++ [dirs[k]] := by
      simpa only [Point.entries, append_nil] using take_succ_eq_append_getElem hle
    exact .inl ⟨rfl, p.up, hx.up htake hk (Nat.le_of_succ_le hle), resolve_up rest⟩
  | pop h hk hle =>
    subst h
    exact .inl ⟨rfl, p.up, hx.up (append_assoc _ _ _).symm hk hle, resolve_up rest⟩
  | tooDeep h hdeep =>
    rw [hx] at hdeep
    exact .inr ⟨ne_resultOk_of_tooDeep, .tooDeep, rfl, resolve_tooDeep rest h hdeep⟩
  | noMemory h hdeep htop hlookup hmalloc =>
    rw [hx.top htop] at hlookup
    rw [hx] at hdeep
    have hresolve := (resolve_name rest h hdeep hlookup).trans (if_pos hmalloc)
    exact .inr ⟨ne_resultOk_of_noMemory, _, rfl, hresolve⟩
  | missing h hdeep htop hlookup hr hmalloc =>
    rw [hx.top htop] at hlookup
    rw [hx] at hdeep
    refine .inr ⟨hr, .lookup r, rfl, ?_⟩
    rw [resolve_name rest h hdeep hlookup, if_neg (by simp [hmalloc]), if_pos hr]
  | found h hdeep htop hlookup hmalloc =>
    rw [hx.top htop] at hlookup
    rw [hx] at hdeep
    have hresolve := resolve_name rest h hdeep hlookup
    rw [if_neg (by simp [hmalloc])] at hresolve
    refine .inl ⟨rfl, _, ?_, hresolve⟩
    unfold Point.IsAt at hx ⊢
    rw [Place.entries_down, ← hx]
    exact (append_assoc _ _ _).symm

theorem Followed.resolves (h : Followed env dirs path x r y) (hx : x.IsAt dirs p) :
    (r = resultOk ∧ ∃ q, y.IsAt dirs q ∧ resolve env x.state.clock path p = .ok q) ∨
    (r ≠ resultOk ∧ ∃ u, r = u.code ∧ resolve env x.state.clock path p = .error u) := by
  induction h generalizing p with
  | done => exact .inl ⟨rfl, p, hx, rfl⟩
  | fails h hr =>
    rcases h.resolves hx _ with ⟨hok, -⟩ | hfail
    · exact absurd hok hr
    · exact .inr hfail
  | next h _ ih =>
    rcases h.resolves hx _ with ⟨-, q, hq, heq⟩ | ⟨hne, -⟩
    · rw [heq]
      exact ih hq
    · exact absurd rfl hne

theorem Point.start_isAt (s : FsState δ) (p : Place δ) (path : CString) :
    (Point.start s p.entries path).IsAt p.entries (p.startOf path) := by
  unfold Point.IsAt Point.start Point.entries Place.startOf
  split_ifs
  · rw [Place.entries_root, append_nil]
  · rw [take_length, append_nil]

end Simulation

/-! ## The walk of the source -/

/-- What `trn_fs_traverse` hands out in state `s` for a path that resolves to `q`. -/
structure Walk.Reached (t : Walk δ) (s : FsState δ) (q : Place δ) : Prop where
  entries : t.traverse.Holds q.entries
  recursion : t.recursion = q.below.length
  borrowed_nonneg : 0 ≤ t.borrowed
  borrowed_le : t.borrowed ≤ t.recursion
  recursion_le : t.recursion ≤ 255
  /-- The borrowed entries are those of `cwd`. -/
  borrowed : ∀ i : Fin 256, (i : Int) ≤ t.borrowed → t.traverse i = s.cwd i

theorem Walk.Holds.reached {t : Walk δ} {s : FsState δ} {dirs : List (Traversal δ)} {y : Point δ}
    {q : Place δ} (ht : t.Holds dirs y.kept y.own) (hs : s.InDirs dirs) (hy : y.IsAt dirs q) :
    t.Reached s q := by
  have hpos := ht.pos
  have hle := ht.le
  have hlen := ht.length_le
  have hrec := ht.recursion
  have hborrowed := ht.borrowed
  have hentries : (dirs.take y.kept ++ y.own).length = q.below.length + 1 := by
    rw [← Place.length_entries, ← hy]
    rfl
  rw [ht.length_entries] at hentries
  have hstack : t.traverse.Holds q.entries := hy ▸ ht.stack
  refine ⟨hstack, by omega, by omega, by omega, by omega, fun i hi => ?_⟩
  rw [ht.stack.entry i (by rw [ht.length_entries]; omega), hs.holds.entry i (by omega),
    getElem?_append_left (by rw [length_take]; omega), getElem?_take_of_lt (by omega)]

section Traverse

variable {s : FsState δ} {p : Place δ} {path : CString}

theorem traverse_at (hs : s.InDirs p.entries) {q : Place δ}
    (h : resolve env s.clock (segments path.bytes) (p.startOf path) = .ok q) :
    ∃ (t : Walk δ) (y : Point δ), trnFsTraverse env path s = .ok t y.state ∧
      t.Holds p.entries y.kept y.own ∧ y.IsAt p.entries q ∧ s.clock ≤ y.state.clock := by
  obtain ⟨t, r, y, ht, hfollowed, hrun⟩ := traverse_run env hs path
  rcases hfollowed.resolves (Point.start_isAt s p path) with
    ⟨hr, q', hq, hresolve⟩ | ⟨hr, u, hu, hresolve⟩
  · cases h.symm.trans hresolve
    rw [if_pos hr] at hrun
    exact ⟨t, y, hrun, ht, hq, hfollowed.clock_le⟩
  · cases h.symm.trans hresolve

theorem traverse_ok (hs : s.InDirs p.entries) {q : Place δ}
    (h : resolve env s.clock (segments path.bytes) (p.startOf path) = .ok q) :
    ∃ t s', trnFsTraverse env path s = .ok t s' ∧ t.Reached s q := by
  obtain ⟨t, y, hrun, ht, hq, -⟩ := traverse_at hs h
  exact ⟨t, _, hrun, ht.reached hs hq⟩

theorem traverse_error (hs : s.InDirs p.entries) {u : Unresolved}
    (h : resolve env s.clock (segments path.bytes) (p.startOf path) = .error u) :
    ∃ s', trnFsTraverse env path s = .error (.result u.code) s' := by
  obtain ⟨t, r, y, ht, hfollowed, hrun⟩ := traverse_run env hs path
  rcases hfollowed.resolves (Point.start_isAt s p path) with
    ⟨hr, q, hq, hresolve⟩ | ⟨hr, u', hu, hresolve⟩
  · cases h.symm.trans hresolve
  · cases h.symm.trans hresolve
    rw [if_neg hr, hu] at hrun
    exact ⟨_, hrun⟩

end Traverse

/-- **Path resolution.** From every current directory, `trn_fs_traverse` hands out the entries that
a path resolves to, and for a path that cannot be resolved it returns the code of the reason. -/
theorem traverse_resolves (env : FsEnv δ) (s : FsState δ) (p : Place δ) (path : CString)
    (hs : s.InDirs p.entries) :
    match resolve env s.clock (segments path.bytes) (p.startOf path) with
    | .ok q => ∃ t s', trnFsTraverse env path s = .ok t s' ∧ t.Reached s q
    | .error u => ∃ s', trnFsTraverse env path s = .error (.result u.code) s' := by
  cases h : resolve env s.clock (segments path.bytes) (p.startOf path) with
  | ok q => exact traverse_ok hs h
  | error u => exact traverse_error hs h

/-- The place of a current directory that is the root. -/
def rootPlace : Place Nat := ⟨⟨⟨0, .root 0⟩, []⟩, []⟩

theorem fourLevelsRoot_inDirs : fourLevelsRoot.InDirs rootPlace.entries := by
  refine ⟨⟨by decide, fun i hi => ?_⟩, rfl, by decide⟩
  have hzero : i = 0 := Fin.ext (Nat.lt_one_iff.1 hi)
  subst hzero
  rfl

theorem upAndDown_resolves : ∃ t s', trnFsTraverse fourLevels upAndDown fourLevelsRoot = .ok t s' ∧
    t.Reached fourLevelsRoot ⟨⟨⟨1, .found 3⟩, [0x62#8]⟩, [rootPlace.top]⟩ :=
  traverse_resolves fourLevels fourLevelsRoot rootPlace upAndDown fourLevelsRoot_inDirs

/-- No name can be allocated. -/
def outOfMemory : FsEnv Nat := { fourLevels with malloc := fun _ => false }

/-- The lookups along `/a/../b` all succeed, but the names of its entries need memory. -/
theorem upAndDown_without_memory :
    (∃ q, resolve fourLevels 1 (segments upAndDown.bytes) (rootPlace.startOf upAndDown) = .ok q) ∧
      outOfMemory.lookup = fourLevels.lookup ∧
      ∃ s', trnFsTraverse outOfMemory upAndDown fourLevelsRoot =
        .error (.result Err.outOfMemory) s' :=
  ⟨⟨_, rfl⟩, rfl, traverse_error (u := .noMemory true) fourLevelsRoot_inDirs rfl⟩

end LibTransistor
