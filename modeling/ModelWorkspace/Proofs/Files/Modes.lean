import ModelWorkspace.Bundle

/-! Permissions. They do not change what can be read: a path is followed by which folders and names
there are, and a file is read whatever its permissions are. And to make a folder read-only, which goes
through it folder by folder, gives all in it the mode and nothing else. -/
namespace ModelWorkspace

namespace FileTree

/-- Both trees hold the same folders and files, whatever their permissions are. -/
structure SameContent (t u : FileTree) : Prop where
  current : t.current = u.current
  content : ∀ l, (t.entryAt? l).map (·.content) = (u.entryAt? l).map (·.content)

namespace SameContent

variable {t u : FileTree}

theorem hasFolder (same : SameContent t u) (l : Location) : t.hasFolder l = u.hasFolder l := by
  have content := same.content l
  unfold FileTree.hasFolder
  cases here : t.entryAt? l <;> cases there : u.entryAt? l <;> simp_all

theorem step (same : SameContent t u) (l : Location) (segment : String) :
    t.step l segment = u.step l segment := by
  have known : (t.entryAt? (l ++ [segment])).isSome = (u.entryAt? (l ++ [segment])).isSome := by
    simpa using congrArg Option.isSome (same.content (l ++ [segment]))
  simp only [FileTree.step, same.hasFolder, known]

theorem resolve (same : SameContent t u) (p : Path) : t.resolve p = u.resolve p := by
  have steps : t.step = u.step := funext fun l => funext (same.step l)
  simp only [FileTree.resolve, walk, start, same.current, steps]

theorem read (same : SameContent t u) (p : Path) : t.read p = u.read p := by
  unfold FileTree.read
  rw [same.resolve]
  cases u.resolve p with
  | error fault => rfl
  | ok l =>
    have content := same.content l
    simp only [bind, Except.bind]
    cases here : t.entryAt? l <;> cases there : u.entryAt? l <;> simp_all
    rename_i e d
    obtain ⟨m, c⟩ := e
    obtain ⟨n, c'⟩ := d
    obtain rfl : c = c' := content
    cases c <;> rfl

end SameContent

theorem lookup_map_entry (entries : List (Location × Entry)) (f : Location → Entry → Entry)
    (l : Location) :
    (entries.map fun (k, e) => (k, f k e)).lookup l = (entries.lookup l).map (f l) := by
  induction entries with
  | nil => rfl
  | cons entry rest ih =>
    obtain ⟨k, e⟩ := entry
    by_cases same : l = k
    · simp [same]
    · have other : (l == k) = false := by simp [same]
      simpa [List.lookup_cons, other] using ih

/-- There is always something at the root. -/
theorem exists_root (t : FileTree) : ∃ e, t.entryAt? [] = some e := by
  unfold entryAt?
  cases t.entries.lookup [] with
  | some e => exact ⟨e, rfl⟩
  | none => exact ⟨newFolder, rfl⟩

theorem lookup_withRoot (t : FileTree) (k : Location) : t.withRoot.entries.lookup k = t.entryAt? k := by
  unfold withRoot
  split
  · rename_i listed
    obtain ⟨root, found⟩ := Option.isSome_iff_exists.1 listed
    unfold entryAt?
    by_cases top : k = []
    · rw [top, found]
    · have below : k.isEmpty = false := by simpa using top
      cases t.entries.lookup k <;> simp [below]
  · rename_i unlisted
    have none : t.entries.lookup [] = none := Option.not_isSome_iff_eq_none.1 unlisted
    rw [put, if_neg unlisted, List.lookup_append, entryAt?]
    by_cases top : k = []
    · simp [top, none]
    · have below : k.isEmpty = false := by simpa using top
      have other : (k == []) = false := by simpa using top
      cases t.entries.lookup k <;> simp [List.lookup_cons, below, other]

theorem isSome_lookup_withRoot (t : FileTree) : (t.withRoot.entries.lookup []).isSome = true := by
  obtain ⟨root, there⟩ := t.exists_root
  rw [lookup_withRoot, there]
  rfl

theorem withRoot_of_listed {t : FileTree} (listed : (t.entries.lookup []).isSome = true) :
    t.withRoot = t := if_pos listed

theorem withRoot_withRoot (t : FileTree) : t.withRoot.withRoot = t.withRoot :=
  withRoot_of_listed (isSome_lookup_withRoot t)

theorem current_withRoot (t : FileTree) : t.withRoot.current = t.current := by
  unfold withRoot
  split
  · rfl
  · rename_i unlisted
    rw [put, if_neg unlisted]

theorem eq_nil_or_listed_of_withRoot {t : FileTree} {k : Location}
    (listed : k ∈ t.withRoot.entries.map (·.1)) : k = [] ∨ k ∈ t.entries.map (·.1) := by
  unfold withRoot at listed
  split at listed
  · exact .inr listed
  · rename_i unlisted
    rw [put, if_neg unlisted, List.map_append, List.mem_append] at listed
    obtain listed | top := listed
    · exact .inr listed
    · exact .inl (List.mem_singleton.1 top)

/-- The tree where all at a location and below it has a mode. -/
def setModes (t : FileTree) (l : Location) (mode : Nat) : FileTree :=
  { t with
    entries :=
      t.withRoot.entries.map fun (k, e) => (k, if l.isPrefixOf k then { e with mode } else e) }

/-- What stands at or below the location gets the mode, and nothing else changes. -/
theorem entryAt?_setModes (t : FileTree) (l : Location) (mode : Nat) (k : Location) :
    (t.setModes l mode).entryAt? k =
      (t.entryAt? k).map fun e => if l.isPrefixOf k then { e with mode } else e := by
  have found := lookup_map_entry t.withRoot.entries
    (fun k e => if l.isPrefixOf k then { e with mode } else e) k
  rw [lookup_withRoot] at found
  rw [entryAt?, setModes, found]
  cases here : t.entryAt? k with
  | some e => rfl
  | none =>
    have below : k ≠ [] := by
      rintro rfl
      obtain ⟨root, there⟩ := t.exists_root
      cases here.symm.trans there
    simp [below]

theorem sameContent_setModes (t : FileTree) (l : Location) (mode : Nat) :
    SameContent (t.setModes l mode) t := by
  refine ⟨rfl, fun k => ?_⟩
  rw [entryAt?_setModes, Option.map_map]
  congr 1
  funext e
  simp only [Function.comp_apply]
  split <;> rfl

/-- The modes that have been set stay when they are set again. -/
theorem setModes_setModes (t : FileTree) (l : Location) (mode : Nat) :
    (t.setModes l mode).setModes l mode = t.setModes l mode := by
  have listed : ((t.setModes l mode).entries.lookup []).isSome = true := by
    have found := lookup_map_entry t.withRoot.entries
      (fun k e => if l.isPrefixOf k then { e with mode } else e) []
    rw [setModes, found, Option.isSome_map, isSome_lookup_withRoot]
  rw [setModes, withRoot_of_listed listed]
  simp only [setModes, List.map_map]
  congr 1
  refine List.map_congr_left fun entry _ => ?_
  simp only [Function.comp_apply]
  split <;> rfl

/-! ### From folder to folder -/

section Walk

variable {t : FileTree} {k l : Location}

theorem le_depth (listed : k ∈ t.entries.map (·.1)) : k.length ≤ t.depth := by
  unfold depth
  generalize t.entries = entries at listed ⊢
  induction entries with
  | nil => cases listed
  | cons entry rest ih =>
    rw [List.map_cons, List.mem_cons] at listed
    rw [List.map_cons, List.foldr_cons]
    obtain rfl | listed := listed
    · exact Nat.le_max_left ..
    · exact Nat.le_trans (ih listed) (Nat.le_max_right ..)

/-- The walk stays below the location where it begins. -/
theorem prefix_of_mem_contentsFirst {depth : Nat} (mem : k ∈ t.contentsFirst depth l) : l <+: k := by
  induction depth generalizing l with
  | zero => exact List.mem_singleton.1 mem ▸ List.prefix_rfl
  | succ depth ih =>
    rw [contentsFirst, List.mem_append, List.mem_flatMap, List.mem_singleton] at mem
    obtain ⟨name, -, mem⟩ | rfl := mem
    · exact (List.prefix_append ..).trans (ih mem)
    · exact List.prefix_rfl

theorem self_mem_contentsFirst (t : FileTree) (depth : Nat) (l : Location) :
    l ∈ t.contentsFirst depth l := by
  cases depth with
  | zero => exact List.mem_singleton_self l
  | succ depth => exact List.mem_append_right _ (List.mem_singleton_self l)

/-- The walk comes to all that is listed below the location, if it goes as far down. -/
theorem mem_contentsFirst {depth : Nat} (listed : k ∈ t.entries.map (·.1)) (below : l <+: k)
    (deep : k.length ≤ l.length + depth) : k ∈ t.contentsFirst depth l := by
  induction depth generalizing l with
  | zero => exact below.eq_of_length_le deep ▸ List.mem_singleton_self l
  | succ depth ih =>
    obtain ⟨rest, rfl⟩ := below
    cases rest with
    | nil =>
      rw [List.append_nil]
      exact self_mem_contentsFirst t _ l
    | cons name rest =>
      have named : name ∈ t.namesIn l := by
        rw [namesIn, List.mem_eraseDups, List.mem_filterMap]
        refine ⟨_, List.mem_filter.2 ⟨listed, ?_⟩, ?_⟩
        · exact List.isPrefixOf_iff_prefix.2 (List.prefix_append ..)
        · rw [List.drop_left, List.head?_cons]
      have next : l ++ [name] <+: l ++ name :: rest := ⟨rest, List.append_assoc ..⟩
      refine List.mem_append_left _ (List.mem_flatMap.2 ⟨name, named, ih next ?_⟩)
      rw [List.length_append, List.length_cons] at deep
      rw [List.length_append, List.length_append, List.length_cons, List.length_singleton]
      omega

/-- The walk comes to exactly what is listed below the location. -/
theorem mem_contentsFirst_iff (listed : k ∈ t.withRoot.entries.map (·.1)) :
    k ∈ t.contentsFirst t.depth l ↔ l <+: k := by
  refine ⟨prefix_of_mem_contentsFirst, fun below => ?_⟩
  obtain rfl | listed := eq_nil_or_listed_of_withRoot listed
  · rw [List.prefix_nil.1 below]
    exact self_mem_contentsFirst t _ []
  · exact mem_contentsFirst listed below (Nat.le_trans (le_depth listed) (Nat.le_add_left ..))

end Walk

section SetMode

variable {t : FileTree}

theorem setMode_withRoot (t : FileTree) (l : Location) (mode : Nat) :
    t.withRoot.setMode l mode = t.setMode l mode := by
  rw [setMode, withRoot_withRoot, setMode, current_withRoot]

/-- With its root listed, a tree that is changed place by place is changed in all these places. -/
theorem foldl_setMode (listed : (t.entries.lookup []).isSome = true) (mode : Nat)
    (places : List Location) :
    places.foldl (fun t k => t.setMode k mode) t =
      { t with
        entries := t.entries.map fun (k, e) => (k, if k ∈ places then { e with mode } else e) } := by
  induction places generalizing t with
  | nil => simp
  | cons l places ih =>
    have first : t.setMode l mode = { t with
        entries := t.entries.map fun (k, e) => (k, if k = l then { e with mode } else e) } := by
      rw [setMode, withRoot_of_listed listed]
    have still := lookup_map_entry t.entries (fun k e => if k = l then { e with mode } else e) []
    rw [List.foldl_cons, first, ih (by rw [still, Option.isSome_map, listed])]
    simp only [List.map_map]
    congr 1
    refine List.map_congr_left fun entry _ => ?_
    by_cases here : entry.1 = l
    · simp [here]
    · simp [here]

/-- Folder by folder, all at and below the location is changed. -/
theorem foldl_setMode_contentsFirst (t : FileTree) (l : Location) (mode : Nat) :
    (t.contentsFirst t.depth l).foldl (fun t k => t.setMode k mode) t = t.setModes l mode := by
  have start : (t.contentsFirst t.depth l).foldl (fun t k => t.setMode k mode) t =
      (t.contentsFirst t.depth l).foldl (fun t k => t.setMode k mode) t.withRoot := by
    have some := self_mem_contentsFirst t t.depth l
    cases places : t.contentsFirst t.depth l with
    | nil => cases places ▸ some
    | cons first rest => rw [List.foldl_cons, List.foldl_cons, setMode_withRoot]
  rw [start, foldl_setMode (isSome_lookup_withRoot t), setModes, current_withRoot]
  congr 1
  refine List.map_congr_left fun (k, e) mem => ?_
  have covered := mem_contentsFirst_iff (l := l) (List.mem_map_of_mem mem)
  simp only [covered, List.isPrefixOf_iff_prefix]

theorem makeReadOnly_of_resolve {p : Path} {l : Location} (leads : t.resolve p = .ok l) :
    t.makeReadOnly p = .ok (t.setModes l readOnlyMode) := by
  rw [makeReadOnly, leads, ← foldl_setMode_contentsFirst]
  rfl

end SetMode

end FileTree

theorem Bundle.read_enforceReadOnly (b : Bundle) (files : FileTree) (p q : Path) :
    (b.enforceReadOnly files p).read q = files.read q := by
  unfold enforceReadOnly
  split
  · cases leads : files.resolve p with
    | error fault =>
      rw [FileTree.makeReadOnly, leads]
      rfl
    | ok l =>
      rw [FileTree.makeReadOnly_of_resolve leads]
      exact (FileTree.sameContent_setModes files l readOnlyMode).read q
  · rfl

end ModelWorkspace
