import ModelWorkspace.Proofs.Files.Containment
import ModelWorkspace.Proofs.Files.Modes
import ModelWorkspace.Workbench.Basic

/-! Bundled folders that become read-only. Whether a path is in the bundle is decided by its text, and
what becomes read-only by where it leads in the tree; the two agree, so all that changes is the mode
of what stands at that place and below it, and that is within the bundle. -/
namespace ModelWorkspace

/-- Nothing that stands at the location or below it can be written. -/
def FileTree.IsReadOnlyFrom (t : FileTree) (l : Location) : Prop :=
  ∀ k e, l <+: k → t.entryAt? k = some e → e.mode = readOnlyMode

theorem FileTree.isReadOnlyFrom_setModes (t : FileTree) (l : Location) :
    (t.setModes l readOnlyMode).IsReadOnlyFrom l := by
  intro k e below there
  rw [entryAt?_setModes] at there
  obtain ⟨d, -, rfl⟩ := Option.map_eq_some_iff.1 there
  rw [if_pos (List.isPrefixOf_iff_prefix.2 below)]

namespace Bundle

variable {b : Bundle} {files : FileTree} {p : Path} {l : Location}

theorem enforceReadOnly_of_resolve (inside : b.contains p = true) (leads : files.resolve p = .ok l) :
    b.enforceReadOnly files p = files.setModes l readOnlyMode := by
  rw [enforceReadOnly, if_pos inside, FileTree.makeReadOnly_of_resolve leads]

theorem enforceReadOnly_of_not (outside : b.contains p = false ∨ ∀ l, files.resolve p ≠ .ok l) :
    b.enforceReadOnly files p = files := by
  unfold enforceReadOnly FileTree.makeReadOnly
  obtain outside | nowhere := outside
  · rw [outside, if_neg Bool.false_ne_true]
  · cases leads : files.resolve p with
    | error fault =>
      split <;> rfl
    | ok l => exact absurd leads (nowhere l)

/-- A bundled path that leads somewhere becomes read-only, and any other changes nothing. -/
theorem enforceReadOnly_cases (b : Bundle) (files : FileTree) (p : Path) :
    (∃ l, b.contains p = true ∧ files.resolve p = .ok l ∧
      b.enforceReadOnly files p = files.setModes l readOnlyMode) ∨
    b.enforceReadOnly files p = files := by
  cases inside : b.contains p with
  | false => exact .inr (enforceReadOnly_of_not (.inl inside))
  | true =>
    cases leads : files.resolve p with
    | ok l => exact .inl ⟨l, rfl, rfl, enforceReadOnly_of_resolve inside leads⟩
    | error fault =>
      have nowhere : ∀ l, files.resolve p ≠ .ok l := fun l other => nomatch leads.symm.trans other
      exact .inr (enforceReadOnly_of_not (.inr nowhere))

theorem sameContent_enforceReadOnly (b : Bundle) (files : FileTree) (p : Path) :
    FileTree.SameContent (b.enforceReadOnly files p) files := by
  obtain ⟨l, -, -, same⟩ | same := enforceReadOnly_cases b files p
  · rw [same]
    exact FileTree.sameContent_setModes files l readOnlyMode
  · rw [same]
    exact ⟨rfl, fun _ => rfl⟩

theorem enforceReadOnly_enforceReadOnly (b : Bundle) (files : FileTree) (p : Path) :
    b.enforceReadOnly (b.enforceReadOnly files p) p = b.enforceReadOnly files p := by
  obtain ⟨l, inside, leads, same⟩ | same := enforceReadOnly_cases b files p
  · have again := (sameContent_enforceReadOnly b files p).resolve p
    rw [enforceReadOnly_of_resolve inside (again.trans leads), same, FileTree.setModes_setModes]
  · rw [same, same]

end Bundle

/-- Where the editor accepts a model folder, it is asked for it with the bundled folder read-only. -/
theorem Workbench.updateFolders_of_replaced {w : Workbench} {name : String} {path : Path}
    (replaced : (w.replaceModelFolder name path).2 = true) :
    ∃ count, ({ w with files := w.bundle.enforceReadOnly w.files path } : Workbench).updateFolders
      0 count [Folder.model name path] = some (w.replaceModelFolder name path).1 := by
  unfold replaceModelFolder at replaced ⊢
  refine ⟨if w.folders.toList.isEmpty then 0 else 1, ?_⟩
  dsimp only at replaced ⊢
  split at replaced
  · rename_i updated
    rw [updated]
  · cases replaced

theorem Workbench.files_updateFolders {w u : Workbench} {start count : Nat} {insert : List Folder}
    (updated : w.updateFolders start count insert = some u) : u.files = w.files := by
  unfold updateFolders at updated
  split at updated
  · cases updated
  · obtain ⟨folders, -, rfl⟩ := Option.map_eq_some_iff.1 updated
    rfl

/-- To enforce that a bundled folder is read-only gives what stands at its place and below it the mode
for that, and leaves the modes of all else. Only modes change, and only within the root of the bundle;
and none does where the path is not bundled or leads nowhere, or if it was enforced before. So a
bundled folder that the editor is asked for is read-only by then, with all that is in it, and stays so
when it is accepted. -/
theorem Bundle.read_only_covers_folder {b : Bundle} (absolute : b.root.isAbsolute = true)
    (files : FileTree) (p : Path) :
    (b.contains p = true → ∀ l, files.resolve p = .ok l → ∀ k, (b.enforceReadOnly files p).entryAt? k =
      (files.entryAt? k).map fun e => ⟨if l <+: k then readOnlyMode else e.mode, e.content⟩) ∧
    (∀ k e d, files.entryAt? k = some e → (b.enforceReadOnly files p).entryAt? k = some d →
      d.mode ≠ e.mode → b.root.place files.current <+: k) ∧
    FileTree.SameContent (b.enforceReadOnly files p) files ∧
    (b.contains p = false ∨ (∀ l, files.resolve p ≠ .ok l) → b.enforceReadOnly files p = files) ∧
    b.enforceReadOnly (b.enforceReadOnly files p) p = b.enforceReadOnly files p ∧
    ∀ (w : Workbench) name l, w.bundle = b → w.files = files → b.contains p = true →
      files.resolve p = .ok l → (w.replaceModelFolder name p).2 = true →
      (∃ (count : Nat) (v : Workbench), v.files.IsReadOnlyFrom l ∧
        v.updateFolders 0 count [Folder.model name p] = some (w.replaceModelFolder name p).1) ∧
      (w.replaceModelFolder name p).1.files.resolve p = .ok l ∧
      (w.replaceModelFolder name p).1.files.IsReadOnlyFrom l := by
  refine ⟨fun inside l leads k => ?_, fun k e d before after changed => ?_,
    sameContent_enforceReadOnly b files p, enforceReadOnly_of_not,
    enforceReadOnly_enforceReadOnly b files p, ?_⟩
  · rw [enforceReadOnly_of_resolve inside leads, FileTree.entryAt?_setModes]
    congr 1
    funext e
    simp only [List.isPrefixOf_iff_prefix]
    split <;> rfl
  · obtain ⟨l, inside, leads, same⟩ | same := enforceReadOnly_cases b files p
    · rw [same, FileTree.entryAt?_setModes, before, Option.map_some, Option.some.injEq] at after
      subst after
      have within := ((Path.isWithin_iff_place absolute p files.current).1 inside).2
      rw [← FileTree.resolve_eq_place leads] at within
      -- Only what is below the place of the path has changed.
      refine within.trans ?_
      by_contra beside
      rw [if_neg (mt List.isPrefixOf_iff_prefix.1 beside)] at changed
      exact changed rfl
    · rw [same, before] at after
      cases after
      exact absurd rfl changed
  · rintro w name l rfl rfl inside leads replaced
    obtain ⟨count, asked⟩ := Workbench.updateFolders_of_replaced replaced
    have own := Workbench.files_updateFolders asked
    have readOnly := enforceReadOnly_of_resolve inside leads
    refine ⟨⟨count, _, ?_, asked⟩, ?_, ?_⟩
    · rw [readOnly]
      exact FileTree.isReadOnlyFrom_setModes w.files l
    · rw [own, (sameContent_enforceReadOnly w.bundle w.files p).resolve, leads]
    · rw [own, readOnly]
      exact FileTree.isReadOnlyFrom_setModes w.files l

/-- A bundle with one folder, and a folder beside it. -/
def folderInBundle : Workbench where
  files := {
    entries := [(["x"], FileTree.newFolder), (["b"], FileTree.newFolder),
      (["b", "m"], FileTree.newFolder), (["b", "m", "f"], ⟨fileMode, .text ""⟩)] }
  bundle := ⟨⟨"/b"⟩⟩

/-- A path that goes through a folder beside the bundle, and back. -/
theorem Bundle.read_only_covers_folder_detour :
    let files := folderInBundle.bundle.enforceReadOnly folderInBundle.files ⟨"/x/..//b/./m/"⟩
    files.entryAt? ["b", "m", "f"] = some ⟨readOnlyMode, .text ""⟩ ∧
      files.entryAt? ["b"] = some FileTree.newFolder ∧
      (folderInBundle.replaceModelFolder "m" ⟨"/x/..//b/./m/"⟩).1.files.IsReadOnlyFrom ["b", "m"] := by
  have inside : folderInBundle.bundle.contains ⟨"/x/..//b/./m/"⟩ = true := by decide
  have leads : folderInBundle.files.resolve ⟨"/x/..//b/./m/"⟩ = .ok ["b", "m"] := by decide
  obtain ⟨covers, -, -, -, -, opened⟩ := read_only_covers_folder
    (b := folderInBundle.bundle) (by decide) folderInBundle.files ⟨"/x/..//b/./m/"⟩
  have set := covers inside _ leads
  refine ⟨(set _).trans (by decide), (set _).trans (by decide), ?_⟩
  exact (opened folderInBundle "m" _ rfl rfl inside leads (by decide)).2.2

end ModelWorkspace
