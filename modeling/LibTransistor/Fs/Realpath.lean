import LibTransistor.Fs.Resolution

/-!
# Canonical paths

`trn_fs_realpath` joins the names of the entries that a path resolves to: each name, then a slash,
and the last slash becomes the terminator. The name of the root is empty, so the path of any other
entry starts with a slash; but the path of the root is empty, and an empty path is the current
directory.

* `Place.Valid` — the entries of a place are those that its names lead to.
* `Valid.retrace` — the names of a valid place lead back to it, from every current directory.
* `realpath_canonical_iff` — where lookups are deterministic, the result is canonical exactly for
  the paths that do not end at the root.
-/

namespace LibTransistor

open Fallible List

variable {δ : Type} {env : FsEnv δ}

/-! ## Places of a tree -/

/-- Lookups do not depend on the time. -/
def FsEnv.Deterministic (env : FsEnv δ) : Prop :=
  ∀ time time' data name, env.lookup time data name = env.lookup time' data name

/-- From the given time on, allocations succeed. -/
def FsEnv.HasMemory (env : FsEnv δ) (time : Nat) : Prop := ∀ later, time ≤ later → env.malloc later = true

/-- A name that a directory can have an entry under. -/
structure ProperName (name : List Byte) : Prop where
  ne_nil : name ≠ []
  no_slash : slash ∉ name
  no_nul : 0#8 ∉ name
  isName : IsName name

/-- The entries of a place are what lookups find from the root on. -/
inductive Place.Valid (env : FsEnv δ) (root : δ) : Place δ → Prop
  | root {e : Traversal δ} (hname : e.name = []) (hdata : e.inode.data = root) :
      Valid env root ⟨e, []⟩
  | down {p : Place δ} {e : Traversal δ} (hp : Valid env root p) (hname : ProperName e.name)
      (hlookup : env.lookup 0 p.top.inode.data e.name = (resultOk, e.inode.data)) :
      Valid env root (p.down e)

variable (s : FsState δ)

/-- The current directory is a place of the tree. -/
def FsState.StandsAt (env : FsEnv δ) (root : δ) : Prop :=
  ∃ p : Place δ, s.InDirs p.entries ∧ p.Valid env root

section Valid

variable {root : δ} {p q : Place δ} {time : Nat}

theorem Place.Valid.up (h : p.Valid env root) : p.up.Valid env root := by
  cases h with
  | root hname hdata => exact .root hname hdata
  | down hp => exact hp

theorem Place.Valid.root_eq (h : p.Valid env root) :
    ∃ e, p.root = ⟨e, []⟩ ∧ e.name = [] ∧ e.inode.data = root := by
  induction h with
  | root hname hdata => exact ⟨_, rfl, hname, hdata⟩
  | down _ _ _ ih => exact ih

theorem Place.Valid.startOf (h : p.Valid env root) (path : CString) :
    (p.startOf path).Valid env root := by
  unfold Place.startOf
  split_ifs
  · obtain ⟨e, he, hname, hdata⟩ := h.root_eq
    rw [he]
    exact .root hname hdata
  · exact h

theorem Place.Valid.of_resolve (hdet : env.Deterministic) {path : List (List Byte)}
    (hpath : ∀ segment ∈ path, segment ≠ [] ∧ slash ∉ segment ∧ 0#8 ∉ segment)
    (hp : p.Valid env root) (h : resolve env time path p = .ok q) : q.Valid env root := by
  induction path generalizing p time with
  | nil =>
    cases h
    exact hp
  | cons segment rest ih =>
    obtain ⟨hseg, hrest⟩ := forall_mem_cons.1 hpath
    by_cases hdot : segment = [dot]
    · rw [resolve, if_pos hdot] at h
      exact ih hrest hp h
    by_cases hup : segment = [dot, dot]
    · rw [hup] at h
      exact ih hrest hp.up h
    have hname : IsName segment := ⟨hup, hdot⟩
    by_cases hdeep : p.entries.length < 256
    · rcases hq : env.lookup time p.top.inode.data segment with ⟨r, data⟩
      rw [resolve_name rest hname hdeep hq] at h
      split_ifs at h with hmalloc hr
      refine ih hrest (hp.down ⟨hseg.1, hseg.2.1, hseg.2.2, hname⟩ ?_) h
      rw [hdet 0 time, hq, not_not.1 hr]
    · rw [resolve_tooDeep rest hname (by omega)] at h
      cases h

end Valid

/-! ## The segments of a C string -/

theorem mem_segments {path segment : List Byte} (h : segment ∈ segments path) :
    segment ≠ [] ∧ slash ∉ segment ∧ ∀ b ∈ segment, b ∈ path := by
  induction hlen : path.length using Nat.strong_induction_on generalizing path with
  | _ n ih =>
    rw [segments_eq] at h
    have hsub : (path.dropWhile (· = slash)).Sublist path := dropWhile_sublist _
    generalize path.dropWhile (· = slash) = trimmed at h hsub
    have hle := hsub.length_le
    split_ifs at h with hname
    · cases h
    rcases mem_cons.1 h with rfl | hmem
    · refine ⟨hname, fun hslash => ?_, fun b hb => ?_⟩
      · simpa using mem_takeWhile_imp hslash
      · exact hsub.subset ((takeWhile_sublist _).subset hb)
    · have hpos := length_pos_of_ne_nil hname
      have htake : (trimmed.takeWhile (· ≠ slash)).length ≤ trimmed.length :=
        (takeWhile_sublist _).length_le
      obtain ⟨hne, hslash, hbytes⟩ := ih _ (by rw [length_drop]; omega) hmem rfl
      exact ⟨hne, hslash, fun b hb => hsub.subset ((drop_sublist _ _).subset (hbytes b hb))⟩

theorem segments_cstring (path : CString) :
    ∀ segment ∈ segments path.bytes, segment ≠ [] ∧ slash ∉ segment ∧ 0#8 ∉ segment := by
  intro segment hmem
  obtain ⟨hne, hslash, hbytes⟩ := mem_segments hmem
  exact ⟨hne, hslash, fun hnul => path.no_nul (hbytes _ hnul)⟩

/-- The path with the given names. -/
def joined (names : List (List Byte)) : List Byte := names.flatMap (slash :: ·)

theorem joined_cons (name : List Byte) (names : List (List Byte)) :
    joined (name :: names) = slash :: (name ++ joined names) := rfl

theorem segments_joined {names : List (List Byte)} (h : ∀ name ∈ names, ProperName name) :
    segments (joined names) = names := by
  induction names with
  | nil => rfl
  | cons name names ih =>
    obtain ⟨hname, hnames⟩ := forall_mem_cons.1 h
    have hrest : joined names = [] ∨ ∃ path, joined names = slash :: path := by
      cases names with
      | nil => exact .inl rfl
      | cons next names => exact .inr ⟨_, joined_cons next names⟩
    rw [joined_cons, segments_of_slash, segments_of_name hname.ne_nil hname.no_slash hrest,
      ih hnames]

theorem no_nul_joined {names : List (List Byte)} (h : ∀ name ∈ names, ProperName name) :
    0#8 ∉ joined names := by
  intro hmem
  obtain ⟨name, hname, hnul⟩ := mem_flatMap.1 hmem
  rcases mem_cons.1 hnul with hslash | hnul
  · exact absurd hslash (by decide)
  · exact (h name hname).no_nul hnul

/-- Behind the empty name of the root, names followed by slashes are names behind slashes. -/
theorem dropLast_flatMap (names : List (List Byte)) :
    (([] :: names).flatMap fun name => name ++ [slash]).dropLast = joined names := by
  have hshift : ∀ names : List (List Byte),
      slash :: names.flatMap (fun name => name ++ [slash]) = joined names ++ [slash] := by
    intro names
    induction names with
    | nil => rfl
    | cons name names ih =>
      rw [flatMap_cons, joined_cons, append_assoc, singleton_append, ih]
      simp
  rw [flatMap_cons, nil_append, singleton_append, hshift, dropLast_concat]

/-! ## Retracing a place -/

namespace Place

/-- The names from the root on. -/
def names (p : Place δ) : List (List Byte) := p.entries.tail.map (·.name)

/-- What entries are, up to the lookups that they came from. -/
def view (p : Place δ) : List (δ × List Byte) :=
  (p.top :: p.below).map fun e => (e.inode.data, e.name)

variable {root : δ} {p q : Place δ} {e : Traversal δ}

theorem length_names (p : Place δ) : p.names.length = p.below.length := by
  simp [names]

theorem names_down : (p.down e).names = p.names ++ [e.name] := by
  have hne : p.entries ≠ [] := ne_nil_of_length_pos (by simp)
  unfold names
  rw [entries_down, tail_append_of_ne_nil hne, map_append]
  rfl

theorem view_length (h : p.view = q.view) : p.entries.length = q.entries.length := by
  simpa [view] using congrArg List.length h

theorem view_top (h : p.view = q.view) : p.top.inode.data = q.top.inode.data :=
  congrArg Prod.fst (head_eq_of_cons_eq h)

theorem view_names (h : p.view = q.view) : p.entries.map (·.name) = q.entries.map (·.name) := by
  have hnames := congrArg (fun v => (v.map Prod.snd).reverse) h
  simpa [view, entries, Function.comp_def] using hnames

theorem Valid.map_name (h : p.Valid env root) : p.entries.map (·.name) = [] :: p.names := by
  induction h with
  | root hname => exact congrArg (List.cons · []) hname
  | down _ _ _ ih =>
    rw [entries_down, map_append, ih, names_down]
    rfl

theorem Valid.properNames (h : p.Valid env root) : ∀ name ∈ p.names, ProperName name := by
  induction h with
  | root => exact fun name hname => absurd hname not_mem_nil
  | down _ hname _ ih =>
    intro name hmem
    rw [names_down] at hmem
    rcases mem_append.1 hmem with hmem | hmem
    · exact ih name hmem
    · rw [mem_singleton.1 hmem]
      exact hname

/-- **The names of a place lead back to it**, from any root entry of the tree. -/
theorem Valid.retrace (hdet : env.Deterministic) (hq : q.Valid env root)
    (hlen : q.entries.length ≤ 256) {start : Traversal δ} (hname : start.name = [])
    (hdata : start.inode.data = root) {time : Nat} (hmemory : env.HasMemory time)
    (rest : List (List Byte)) :
    ∃ q' time', time ≤ time' ∧ q'.view = q.view ∧
      resolve env time (q.names ++ rest) ⟨start, []⟩ = resolve env time' rest q' := by
  induction hq generalizing rest with
  | root hname' hdata' =>
    refine ⟨⟨start, []⟩, time, Nat.le_refl _, ?_, rfl⟩
    simp only [view, map_cons, hname, hdata, hname', hdata']
  | @down q e hq he hlookup ih =>
    rw [entries_down, length_append, length_singleton] at hlen
    obtain ⟨q', time', hle, hview, heq⟩ := ih (by omega) (e.name :: rest)
    have hdeep : q'.entries.length < 256 := by
      rw [view_length hview]
      omega
    have hfound : env.lookup time' q'.top.inode.data e.name = (resultOk, e.inode.data) := by
      rw [view_top hview, hdet time' 0, hlookup]
    have hmalloc := hmemory (time' + 1) (by omega)
    refine ⟨q'.down ⟨⟨e.inode.data, .found time'⟩, e.name⟩, time' + 2, by omega, ?_, ?_⟩
    · exact congrArg (List.cons _) hview
    · rw [names_down, append_assoc, singleton_append, heq,
        resolve_name rest he.isName hdeep hfound, if_neg (by simp [hmalloc]),
        if_neg (not_not.2 rfl)]

end Place

/-! ## `trn_fs_realpath` -/

/-- The bytes that the names of a place take up with their slashes. -/
def Place.pathSize (q : Place δ) : Nat := ((q.entries.map (·.name)).map fun n => n.length + 1).sum

/-- What is written for a place. -/
def Place.written (q : Place δ) : List Byte :=
  ((q.entries.map (·.name)).flatMap fun n => n ++ [slash]).dropLast

section Run

variable {s : FsState δ} {p q : Place δ} {path : CString}

theorem realpath_run (path : CString) (hs : s.InDirs p.entries)
    (h : resolve env s.clock (segments path.bytes) (p.startOf path) = .ok q) (given : Bool) :
    ∃ time s', s.clock ≤ time ∧ trnFsRealpath env path given s =
      if q.pathSize > 256 then .error (.result Err.fsNameTooLong) s'
      else if given = true ∨ env.malloc time = true then .ok q.written s'
      else .error (.result Err.outOfMemory) s' := by
  obtain ⟨t, y, hrun, ht, hq, hclock⟩ := traverse_at hs h
  have hnames : namesFrom t.traverse 0 (t.recursion + 1).toNat = .ok (q.entries.map (·.name)) := by
    rw [← hq]
    exact ht.names
  have hbuffer : ∃ r s', pathBuffer env q.pathSize given y.state = .ok r s' ∧
      r = if q.pathSize > 256 then Err.fsNameTooLong
        else if given = true ∨ env.malloc y.state.clock = true then resultOk else Err.outOfMemory := by
    unfold pathBuffer
    by_cases hsize : q.pathSize > 256
    · rw [if_pos hsize, if_pos hsize]
      exact ⟨_, _, rfl, rfl⟩
    · rw [if_neg hsize, if_neg hsize]
      cases given with
      | true => exact ⟨_, _, rfl, rfl⟩
      | false => exact ⟨_, _, rfl, by simp⟩
  obtain ⟨r, s₁, hr, hcode⟩ := hbuffer
  refine ⟨y.state.clock, s₁.released (inodes y.own), hclock, ?_⟩
  unfold trnFsRealpath
  rw [bind_of_ok hrun, runPure_bind_of_ok hnames]
  refine (bind_of_ok hr).trans ?_
  rw [bind_of_ok (ht.releaseAbove s₁), hcode]
  by_cases hsize : q.pathSize > 256
  · rw [if_pos hsize, if_pos hsize]
    rfl
  · rw [if_neg hsize, if_neg hsize]
    by_cases hmemory : given = true ∨ env.malloc y.state.clock = true
    · rw [if_pos hmemory, if_pos hmemory]
      rfl
    · rw [if_neg hmemory, if_neg hmemory]
      rfl

theorem realpath_ok (hs : s.InDirs p.entries) {given : Bool} {r : List Byte} {s₁ : FsState δ}
    (h : trnFsRealpath env path given s = .ok r s₁) :
    ∃ q, resolve env s.clock (segments path.bytes) (p.startOf path) = .ok q ∧ q.pathSize ≤ 256 ∧
      r = q.written := by
  cases hres : resolve env s.clock (segments path.bytes) (p.startOf path) with
  | error u =>
    obtain ⟨s', herr⟩ := traverse_error hs hres
    unfold trnFsRealpath at h
    rw [bind_of_error herr] at h
    cases h
  | ok q =>
    obtain ⟨time, s', -, hrun⟩ := realpath_run path hs hres given
    rw [hrun] at h
    split_ifs at h with hsize hmemory
    cases h
    exact ⟨q, rfl, not_lt.1 hsize, rfl⟩

theorem Place.Valid.written_eq {root : δ} (h : q.Valid env root) : q.written = joined q.names := by
  unfold Place.written
  rw [h.map_name]
  exact dropLast_flatMap q.names

end Run

/-! ## The depth at which a path ends -/

/-- How deep a path ends that starts at depth `d`, if it can be resolved. -/
def endDepth : List (List Byte) → Nat → Nat
  | [], d => d
  | segment :: rest, d =>
    if segment = [dot] then endDepth rest d
    else if segment = [dot, dot] then endDepth rest (d - 1)
    else endDepth rest (d + 1)

theorem length_below_up (p : Place δ) : p.up.below.length = p.below.length - 1 := by
  obtain ⟨top, below⟩ := p
  cases below <;> rfl

theorem endDepth_of_resolve {path : List (List Byte)} {time : Nat} {p q : Place δ}
    (h : resolve env time path p = .ok q) : q.below.length = endDepth path p.below.length := by
  induction path generalizing time p with
  | nil =>
    cases h
    rfl
  | cons segment rest ih =>
    unfold endDepth
    by_cases hdot : segment = [dot]
    · rw [resolve, if_pos hdot] at h
      rw [if_pos hdot]
      exact ih h
    by_cases hup : segment = [dot, dot]
    · rw [hup] at h
      rw [if_neg hdot, if_pos hup, ← length_below_up]
      exact ih h
    rw [if_neg hdot, if_neg hup]
    have hname : IsName segment := ⟨hup, hdot⟩
    by_cases hdeep : p.entries.length < 256
    · rcases hq : env.lookup time p.top.inode.data segment with ⟨r, data⟩
      rw [resolve_name rest hname hdeep hq] at h
      split_ifs at h with hmalloc hr
      exact ih h
    · rw [resolve_tooDeep rest hname (by omega)] at h
      cases h

/-! ## The current directory -/

/-- The current directory. -/
def FsState.dirView : Stack δ × Int := (s.cwd, s.cwdRecursion)

/-- What the walks leave alone: the root and the current directory. -/
def FsState.places : Option (Inode δ) × Stack δ × Int := (s.root, s.dirView)

section Leaves

theorem leaves_record (e : Event InodeId) :
    Leaves FsState.places (record e : FsM δ Unit) := .modify fun _ => rfl

theorem leaves_tick_bind {α : Type} {f : Nat → FsM δ α} (hf : ∀ n, Leaves FsState.places (f n)) :
    Leaves FsState.places (tick >>= f) := fun s => hf s.clock { s with clock := s.clock + 1 }

theorem leaves_releaseFrom (a : Stack δ) (start : Int) (n : Nat) :
    Leaves FsState.places (releaseFrom a start n) := by
  induction n generalizing start with
  | zero => exact .pure _
  | succ n ih => exact (Leaves.runPure _).bind fun _ => (leaves_record _).bind fun _ => ih _

theorem leaves_malloc : Leaves FsState.places (malloc env) := leaves_tick_bind fun _ => .pure _

theorem leaves_visit (segment : List Byte) (t : Walk δ) :
    Leaves FsState.places (visit env segment t) := by
  have hlookup : ∀ inode name, Leaves FsState.places (lookup env inode name) := fun inode name =>
    (leaves_record _).bind fun _ => leaves_tick_bind fun _ =>
      Leaves.ite ((leaves_record _).bind fun _ => .pure _) (.pure _)
  refine .ite (.bind ?_ fun _ => .pure _) (.ite (.pure _) (.ite (.pure _) ?_))
  · refine .ite (.ite ?_ (.pure _)) (.pure _)
    exact (Leaves.runPure _).bind fun _ => (leaves_record _).bind fun _ => .pure _
  · refine (Leaves.runPure _).bind fun trv => (hlookup _ _).bind fun x => leaves_malloc.bind fun _ => ?_
    exact .ite (.pure _) (.ite (.pure _) ((Leaves.runPure _).bind fun _ => .pure _))

theorem leaves_traverse (env : FsEnv δ) (path : CString) :
    Leaves FsState.places (trnFsTraverse env path) := by
  have hfollow : ∀ (path : List (List Byte)) (t : Walk δ),
      Leaves FsState.places (follow env path t) := by
    intro path
    induction path with
    | nil => exact fun t => .pure _
    | cons segment rest ih => exact fun t => (leaves_visit _ _).bind fun x => .ite (.pure _) (ih _)
  have hwalk : ∀ (path : List Byte) (t : Walk δ), Leaves FsState.places (walk env path t) := by
    intro path t s
    rw [walk_eq_follow]
    exact hfollow _ _ s
  refine .get_bind fun s => (hwalk _ _).bind fun x => .ite ?_ (.pure _)
  exact (leaves_releaseFrom _ _ _).bind fun _ => .throw _

variable (path : CString)

theorem leaves_realpath (given : Bool) : Leaves FsState.places (trnFsRealpath env path given) := by
  refine (leaves_traverse env path).bind fun t => (Leaves.runPure _).bind fun names => ?_
  refine Leaves.bind (.ite (.pure _) (.ite (.pure _) (leaves_malloc.bind fun _ => .pure _))) ?_
  intro r
  exact (leaves_releaseFrom _ _ _).bind fun _ => .ite (.bind (.throw _) fun _ => .pure _) (.pure _)

theorem leaves_open (flags : Int) : Leaves FsState.places (trnFsOpen env path flags) := by
  refine (leaves_traverse env path).bind fun t => (Leaves.runPure _).bind fun trv => ?_
  refine Leaves.bind ((leaves_record _).bind fun _ => leaves_tick_bind fun _ => .pure _) ?_
  intro x
  exact (leaves_releaseFrom _ _ _).bind fun _ => .ite (.bind (.throw _) fun _ => .pure _) (.pure _)

theorem leaves_opendir : Leaves FsState.places (trnFsOpendir env path) := by
  refine (leaves_traverse env path).bind fun t => (Leaves.runPure _).bind fun trv => ?_
  refine Leaves.bind ((leaves_record _).bind fun _ => leaves_tick_bind fun _ => .pure _) ?_
  intro x
  exact (leaves_releaseFrom _ _ _).bind fun _ => .ite (.bind (.throw _) fun _ => .pure _) (.pure _)

end Leaves

section Reachable

variable {s s' : FsState δ} {dirs : List (Traversal δ)} {root : δ}

theorem FsState.InDirs.of_view (h : s.InDirs dirs) (hview : s'.dirView = s.dirView) :
    s'.InDirs dirs := by
  have hcwd : s'.cwd = s.cwd := congrArg Prod.fst hview
  have hrec : s'.cwdRecursion = s.cwdRecursion := congrArg Prod.snd hview
  exact ⟨hcwd ▸ h.holds, hrec ▸ h.recursion, h.pos⟩

theorem FsState.StandsAt.of_leaves {α : Type} {x : FsM δ α} (hx : Leaves FsState.places x)
    (h : s.StandsAt env root) : (final (x s)).StandsAt env root := by
  obtain ⟨p, hs, hp⟩ := h
  exact ⟨p, hs.of_view (congrArg Prod.snd (hx s)), hp⟩

/-- `trn_fs_chdir` goes to a place of the tree. -/
theorem chdir_standsAt (hdet : env.Deterministic) (path : CString) (h : s.StandsAt env root) :
    (final (trnFsChdir env path s)).StandsAt env root := by
  obtain ⟨p, hs, hp⟩ := h
  have hkeeps := congrArg Prod.snd (leaves_traverse env path s)
  cases hres : resolve env s.clock (segments path.bytes) (p.startOf path) with
  | error u =>
    obtain ⟨s₁, herr⟩ := traverse_error hs hres
    rw [herr] at hkeeps
    unfold trnFsChdir
    rw [bind_of_error herr]
    exact ⟨p, hs.of_view hkeeps, hp⟩
  | ok q =>
    obtain ⟨t, y, hrun, ht, hq, -⟩ := traverse_at hs hres
    rw [hrun] at hkeeps
    have hin : y.state.InDirs p.entries := hs.of_view hkeeps
    have hrest := chdir_rest_run ht hin
    unfold trnFsChdir
    rw [bind_of_ok hrun, hrest]
    refine ⟨q, ?_, (hp.startOf path).of_resolve hdet (segments_cstring path) hres⟩
    rw [← hq]
    exact FsState.movedTo_inDirs ht y.state _

/-- **Every current directory is a place of the tree.** Whatever calls are made on paths, the names
of the current directory's entries lead to them from the root. -/
theorem standsAt_of_reachable (hdet : env.Deterministic)
    (hs : (fsSystem env root).Reachable s) : s.StandsAt env root := by
  refine hs.invariant (P := fun s => s.StandsAt env root) ?_ ?_
  · rintro s ⟨⟩
    refine ⟨⟨⟨⟨root, .root 0⟩, []⟩, []⟩, ⟨⟨by simp, fun i hi => ?_⟩, rfl, by simp⟩, .root rfl rfl⟩
    have hzero : i = 0 := Fin.ext (Nat.lt_one_iff.1 (by simpa using hi))
    subst hzero
    rfl
  · intro s call s' h hstep
    have hdrop : ∀ {α : Type} {x : FsM δ α}, Leaves FsState.places x →
        (final ((x >>= fun _ => pure ()) s)).StandsAt env root := fun hx =>
      h.of_leaves (hx.bind fun _ => .pure _)
    rw [show s' = final (call.run env s) from hstep]
    cases call with
    | realpath path given => exact hdrop (leaves_realpath path given)
    | «open» path flags => exact hdrop (leaves_open path flags)
    | opendir path => exact hdrop (leaves_opendir path)
    | chdir path => exact chdir_standsAt hdet path h

theorem upAndDown_standsAt :
    ((PathCall.chdir upAndDown).exec fourLevels fourLevelsRoot).StandsAt fourLevels 0 :=
  standsAt_of_reachable (fun _ _ _ _ => rfl) (.step (.chdir upAndDown) (.init rfl) rfl)

end Reachable

/-! ## Canonical paths -/

/-- A path leads to the inode with the given data. -/
def ResolvesTo (env : FsEnv δ) (s : FsState δ) (path : CString) (data : δ) : Prop :=
  ∃ t s' e, trnFsTraverse env path s = .ok t s' ∧ t.traverse.get t.recursion = .ok e ∧
    e.inode.data = data

/-- `resolved` is what a path should be resolved to, in state `s`. The current directories that it
is used from are those of the tree; the calls from there find memory for the names on the way. -/
structure Canonical (env : FsEnv δ) (root : δ) (s : FsState δ) (path resolved : CString) : Prop where
  absolute : resolved.bytes.head? = some slash
  /-- There are no `.`, `..`, empty or trailing segments. -/
  names : ∃ names, (∀ name ∈ names, ProperName name) ∧ resolved.bytes = joined names
  resolves : ∃ data, ResolvesTo env s path data ∧ ∀ s' : FsState δ, s'.StandsAt env root →
    env.HasMemory s'.clock → ResolvesTo env s' resolved data
  idempotent : ∀ (s' : FsState δ) (given : Bool), s'.StandsAt env root → env.HasMemory s'.clock →
    ∃ s'', trnFsRealpath env resolved given s' = .ok resolved.bytes s''

section Canonical

variable {root : δ} {s : FsState δ} {p q : Place δ} {path : CString}

theorem resolvesTo_of_resolve (hs : s.InDirs p.entries)
    (h : resolve env s.clock (segments path.bytes) (p.startOf path) = .ok q) :
    ResolvesTo env s path q.top.inode.data := by
  obtain ⟨t, y, hrun, ht, hq, -⟩ := traverse_at hs h
  obtain ⟨e, hget, htop⟩ := ht.top
  exact ⟨t, _, e, hrun, hget, by rw [hq.top htop]⟩

theorem resolve_joined (hdet : env.Deterministic) (hq : q.Valid env root)
    (hlen : q.entries.length ≤ 256) (hne : q.names ≠ []) {resolved : CString}
    (hbytes : resolved.bytes = joined q.names) (hp : p.Valid env root) {time : Nat}
    (hmemory : env.HasMemory time) :
    ∃ q', q'.view = q.view ∧
      resolve env time (segments resolved.bytes) (p.startOf resolved) = .ok q' := by
  have habsolute : resolved.bytes.head? = some slash := by
    obtain ⟨name, names, hnames⟩ := exists_cons_of_ne_nil hne
    rw [hbytes, hnames]
    rfl
  obtain ⟨e, hroot, hname, hdata⟩ := hp.root_eq
  obtain ⟨q', time', -, hview, heq⟩ := hq.retrace hdet hlen hname hdata hmemory []
  refine ⟨q', hview, ?_⟩
  rw [Place.startOf, if_pos habsolute, hroot, hbytes, segments_joined hq.properNames,
    ← append_nil q.names, heq]
  rfl

theorem canonical_of_valid (hdet : env.Deterministic) (hs : s.InDirs p.entries)
    (hres : resolve env s.clock (segments path.bytes) (p.startOf path) = .ok q)
    (hq : q.Valid env root) (hsize : q.pathSize ≤ 256) (hne : q.names ≠ []) {resolved : CString}
    (hbytes : resolved.bytes = joined q.names) : Canonical env root s path resolved := by
  have hlen : q.entries.length ≤ 256 := by
    obtain ⟨t, y, -, ht, hy, -⟩ := traverse_at hs hres
    rw [← hy]
    exact ht.stack.length_le
  have habsolute : resolved.bytes.head? = some slash := by
    obtain ⟨name, names, hnames⟩ := exists_cons_of_ne_nil hne
    rw [hbytes, hnames]
    rfl
  refine ⟨habsolute, ⟨q.names, hq.properNames, hbytes⟩,
    ⟨_, resolvesTo_of_resolve hs hres, ?_⟩, ?_⟩
  · rintro s' ⟨p', hs', hp'⟩ hmemory
    obtain ⟨q', hview, hres'⟩ := resolve_joined hdet hq hlen hne hbytes hp' hmemory
    rw [← Place.view_top hview]
    exact resolvesTo_of_resolve hs' hres'
  · rintro s' given ⟨p', hs', hp'⟩ hmemory
    obtain ⟨q', hview, hres'⟩ := resolve_joined hdet hq hlen hne hbytes hp' hmemory
    obtain ⟨time, s'', hle, hrun⟩ := realpath_run resolved hs' hres' given
    have hsame : q'.pathSize = q.pathSize ∧ q'.written = q.written := by
      unfold Place.pathSize Place.written
      rw [Place.view_names hview]
      exact ⟨rfl, rfl⟩
    rw [hsame.2, if_neg (by omega), if_pos (.inr (hmemory time hle)), hq.written_eq,
      ← hbytes] at hrun
    exact ⟨s'', hrun⟩

end Canonical

/-- The depth at which a path starts. -/
def FsState.startDepth (path : CString) : Nat :=
  if path.bytes.head? = some slash then 0 else s.cwdRecursion.toNat

theorem startDepth_eq {s : FsState δ} {p : Place δ} (hs : s.InDirs p.entries) (path : CString) :
    (p.startOf path).below.length = s.startDepth path := by
  have hrec := hs.recursion
  rw [Place.length_entries] at hrec
  unfold Place.startOf FsState.startDepth
  split_ifs
  · rfl
  · omega

/-- **Canonical paths.** In every current directory of every tree, if `trn_fs_realpath` succeeds
then its result is canonical exactly when the path does not end at the root. -/
theorem realpath_canonical_iff (env : FsEnv δ) (root : δ) (s : FsState δ) (path : CString)
    (given : Bool) (r : List Byte) (s₁ : FsState δ) (hdet : env.Deterministic)
    (hs : s.StandsAt env root) (hrun : trnFsRealpath env path given s = .ok r s₁) :
    ∃ resolved : CString, resolved.bytes = r ∧ (Canonical env root s path resolved ↔
      endDepth (segments path.bytes) (s.startDepth path) ≠ 0) := by
  obtain ⟨p, hin, hp⟩ := hs
  obtain ⟨q, hres, hsize, rfl⟩ := realpath_ok hin hrun
  have hq := (hp.startOf path).of_resolve hdet (segments_cstring path) hres
  have hdepth := endDepth_of_resolve hres
  rw [startDepth_eq hin] at hdepth
  rw [← hdepth, ← q.length_names, hq.written_eq]
  refine ⟨⟨joined q.names, no_nul_joined hq.properNames⟩, rfl, ?_⟩
  by_cases hne : q.names = []
  · refine iff_of_false (fun hcanonical => ?_) (by simp [hne])
    have habsolute := hcanonical.absolute
    rw [show (⟨joined q.names, _⟩ : CString).bytes = joined q.names from rfl, hne] at habsolute
    cases habsolute
  · exact iff_of_true (canonical_of_valid hdet hin hres hq hsize hne rfl) (by simpa using hne)

theorem fourLevels_deterministic : fourLevels.Deterministic := fun _ _ _ _ => rfl

theorem fourLevelsRoot_standsAt : fourLevelsRoot.StandsAt fourLevels 0 :=
  ⟨rootPlace, fourLevelsRoot_inDirs, .root rfl rfl⟩

/-- `/a/../b` is resolved to `/b`, which is canonical. -/
theorem upAndDown_canonical : ∃ resolved : CString, resolved.bytes = [slash, 0x62#8] ∧
    Canonical fourLevels 0 fourLevelsRoot upAndDown resolved := by
  obtain ⟨_, s₁, -, hrun⟩ := realpath_run upAndDown fourLevelsRoot_inDirs
    (show resolve fourLevels 1 _ _ = .ok _ from rfl) true
  obtain ⟨resolved, hbytes, hiff⟩ := realpath_canonical_iff fourLevels 0 fourLevelsRoot upAndDown
    true _ s₁ fourLevels_deterministic fourLevelsRoot_standsAt hrun
  exact ⟨resolved, hbytes, hiff.2 (by decide)⟩

/-- The path of the root is resolved to the empty path, which is the current directory. -/
theorem rootPath_not_canonical :
    (∃ s₁, trnFsRealpath fourLevels rootPath true fourLevelsRoot = .ok [] s₁) ∧
      ¬ Canonical fourLevels 0 fourLevelsRoot rootPath ⟨[], List.not_mem_nil⟩ := by
  obtain ⟨_, s₁, -, hrun⟩ := realpath_run rootPath fourLevelsRoot_inDirs
    (show resolve fourLevels 1 _ _ = .ok _ from rfl) true
  exact ⟨⟨s₁, hrun⟩, fun h => nomatch h.absolute⟩

end LibTransistor
