import ModelWorkspace.Project.Metadata
import ModelWorkspace.Proofs.Project.Declaring
import ModelWorkspace.Proofs.Project.Versions

/-! What discovery makes of the folders of a workspace. Each folder ends up among the projects or among
the others, in the order of the folders, a project is exactly what a sound declaration makes, and no
core project is left out of the versions. -/
namespace ModelWorkspace.Project

/-! ### Two lists out of one -/

/-- A list and the two that it is divided into, each with its entries in the order of the whole. -/
inductive DividesInto {α : Type} : List α → List α → List α → Prop
  | nil : DividesInto [] [] []
  | left (a : α) {whole left right : List α} (rest : DividesInto whole left right) :
      DividesInto (a :: whole) (a :: left) right
  | right (a : α) {whole left right : List α} (rest : DividesInto whole left right) :
      DividesInto (a :: whole) left (a :: right)

section Folders

variable {files : FileTree}

theorem ofFolder_of_ok {folder : Path} {p : Project} (found : ofFolder files folder = .ok p) :
    Metadata.ofFolder files folder = { toProject := p } := by
  rw [Metadata.ofFolder, found]

theorem ofFolder_of_error {folder : Path} {reason : Reason}
    (found : ofFolder files folder = .error reason) :
    Metadata.ofFolder files folder = .refused folder reason := by
  rw [Metadata.ofFolder, found]

theorem path_ofFolder (folder : Path) : (Metadata.ofFolder files folder).path = folder := by
  cases found : ofFolder files folder with
  | ok p => rw [ofFolder_of_ok found, (ofFolder_eq_ok_iff.1 found).1]
  | error reason => rw [ofFolder_of_error found, Metadata.refused]

theorem find_cons_of_ok {folder : Path} {p : Project} (found : ofFolder files folder = .ok p)
    (folders : List Path) :
    find files (folder :: folders) =
      ⟨p :: (find files folders).projects, (find files folders).invalid⟩ := by
  simp [find, readAll, found, Except.toOption]

theorem find_cons_of_error {folder : Path} {reason : Reason}
    (found : ofFolder files folder = .error reason) (folders : List Path) :
    find files (folder :: folders) =
      ⟨(find files folders).projects, (folder, reason) :: (find files folders).invalid⟩ := by
  simp [find, readAll, found, Except.toOption]

theorem divides_find (folders : List Path) :
    DividesInto (folders.map (Metadata.ofFolder files))
      ((find files folders).projects.map fun p => { toProject := p })
      ((find files folders).invalid.map fun entry => .refused entry.1 entry.2) := by
  induction folders with
  | nil => exact .nil
  | cons folder folders ih =>
    cases found : ofFolder files folder with
    | ok p =>
      rw [find_cons_of_ok found, List.map_cons, List.map_cons, ofFolder_of_ok found]
      exact .left _ ih
    | error reason =>
      rw [find_cons_of_error found, List.map_cons, List.map_cons, ofFolder_of_error found]
      exact .right _ ih

theorem ofFolder_of_mem_projects {folders : List Path} {p : Project}
    (mem : p ∈ (find files folders).projects) :
    Metadata.ofFolder files p.path = { toProject := p } := by
  obtain ⟨folder, -, found⟩ := mem_find.1 mem
  rw [(ofFolder_eq_ok_iff.1 found).1, ofFolder_of_ok found]

theorem ofFolder_of_mem_invalid {folders : List Path} {entry : Path × Reason}
    (mem : entry ∈ (find files folders).invalid) :
    Metadata.ofFolder files entry.1 = .refused entry.1 entry.2 := by
  induction folders with
  | nil => cases mem
  | cons folder folders ih =>
    cases found : ofFolder files folder with
    | ok p =>
      rw [find_cons_of_ok found] at mem
      exact ih mem
    | error reason =>
      rw [find_cons_of_error found] at mem
      obtain rfl | mem := List.mem_cons.1 mem
      · exact ofFolder_of_error found
      · exact ih mem

/-- A project was found exactly if there is a declaration in its folder that it is read from. -/
theorem mem_find_iff {folders : List Path} {p : Project} :
    p ∈ (find files folders).projects ↔
      p.path ∈ folders ∧ ∃ d v, declaration? files p.path = some d ∧ p.IsReadFrom d v := by
  rw [mem_find]
  constructor
  · rintro ⟨folder, there, found⟩
    obtain ⟨rfl, read⟩ := ofFolder_eq_ok_iff.1 found
    exact ⟨there, read⟩
  · rintro ⟨there, read⟩
    exact ⟨p.path, there, ofFolder_eq_ok_iff.2 ⟨rfl, read⟩⟩

theorem map_modelVersion?_find (folders : List Path) :
    let cores := (find files folders).projects.filter isCore
    cores.map modelVersion? = (cores.filterMap modelVersion?).map some := by
  intro cores
  rw [List.map_filterMap_some_eq_filter_map_isSome, List.filter_eq_self.2]
  intro version mem
  obtain ⟨p, core, rfl⟩ := List.mem_map.1 mem
  obtain ⟨v, -, read⟩ := declares_of_mem_find (List.mem_filter.1 core).1
  rw [read, Option.isSome_some]

end Folders

/-- The metadata of the folders are divided into those of the projects and those of the other folders,
each with its own path. A project is what its declaration makes it, has no reason against it, and is
found wherever a declaration makes one; any other folder has a reason and nothing else. Each core
project declares a version, and the first one of each precedence is counted. -/
theorem discovery_loses_nothing (files : FileTree) (folders : List Path) :
    let found := find files folders
    DividesInto (folders.map (Metadata.ofFolder files))
        (found.projects.map fun p => { toProject := p })
        (found.invalid.map fun entry => .refused entry.1 entry.2) ∧
      (∀ folder, (Metadata.ofFolder files folder).path = folder) ∧
      (∀ p, p ∈ found.projects ↔
        p.path ∈ folders ∧ ∃ d v, declaration? files p.path = some d ∧ p.IsReadFrom d v) ∧
      (∀ p ∈ found.projects, (Metadata.ofFolder files p.path).reason = none) ∧
      (∀ entry ∈ found.invalid, Metadata.ofFolder files entry.1 =
        { path := entry.1, name := "", version := "", space := "", description := "",
          reason := some entry.2 }) ∧
      ∃ declared : List Version,
        (found.projects.filter isCore).map modelVersion? = declared.map some ∧
          KeepsFirsts found.modelVersions declared := by
  refine ⟨divides_find folders, path_ofFolder, fun p => mem_find_iff, fun p mem => ?_,
    fun entry mem => ofFolder_of_mem_invalid mem, _, map_modelVersion?_find folders,
    keepsFirsts_addVersions _⟩
  rw [ofFolder_of_mem_projects mem]

/-- Two core projects whose versions differ in their builds, and a folder whose version has two numbers
only. -/
def threeFolders : FileTree where
  entries := [(["p"], FileTree.newFolder), (["p", "package.json"], packageEntry "Ed-Fi" " 4.0.0-a+b "),
    (["q"], FileTree.newFolder), (["q", "package.json"], packageEntry "EdFi" "4.0.0-a+c"),
    (["r"], FileTree.newFolder), (["r", "package.json"], packageEntry "EdFi" "4.0-a")]

/-- A folder that is listed twice is found twice, and the versions are one. -/
theorem discovery_loses_nothing_twice :
    let found := find threeFolders [⟨"/r"⟩, ⟨"/p"⟩, ⟨"/q"⟩, ⟨"/p"⟩]
    let core : Project := ⟨⟨"/p"⟩, "Ed-Fi", "4.0.0-a+b", "EdFi", ""⟩
    let other : Project := ⟨⟨"/q"⟩, "EdFi", "4.0.0-a+c", "EdFi", ""⟩
    found = ⟨[core, other, core], [(⟨"/r"⟩, .badVersion)]⟩ ∧
      (∃ d v, declaration? threeFolders ⟨"/p"⟩ = some d ∧ core.IsReadFrom d v) ∧
      (Metadata.ofFolder threeFolders ⟨"/p"⟩).reason = none ∧
      Metadata.ofFolder threeFolders ⟨"/r"⟩ = .refused ⟨"/r"⟩ .badVersion ∧
      found.modelVersions.map Version.text = ["4.0.0-a+b"] := by
  intro found core other
  have p : ofFolder threeFolders ⟨"/p"⟩ = .ok core := by decide +kernel
  have q : ofFolder threeFolders ⟨"/q"⟩ = .ok other := by decide +kernel
  have r : ofFolder threeFolders ⟨"/r"⟩ = .error .badVersion := by decide +kernel
  have whole : found = ⟨[core, other, core], [(⟨"/r"⟩, .badVersion)]⟩ := by
    change find _ _ = _
    rw [find_cons_of_error r, find_cons_of_ok p, find_cons_of_ok q, find_cons_of_ok p]
    rfl
  obtain ⟨-, -, projects, sound, refused, -⟩ :=
    discovery_loses_nothing threeFolders [⟨"/r"⟩, ⟨"/p"⟩, ⟨"/q"⟩, ⟨"/p"⟩]
  have mem : core ∈ found.projects := whole ▸ List.mem_cons_self
  have last : (⟨"/r"⟩, .badVersion) ∈ found.invalid := whole ▸ List.mem_cons_self
  refine ⟨whole, ((projects core).1 mem).2, sound core mem, refused _ last, ?_⟩
  rw [whole]
  decide +kernel

end ModelWorkspace.Project
