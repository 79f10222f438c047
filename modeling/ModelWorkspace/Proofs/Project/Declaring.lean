import ModelWorkspace.Project.Declaration
import ModelWorkspace.Proofs.Files.Paths

/-! What a folder declares: what its package file says, if that names a project and a version of it. A
folder that declares a project is there. -/
namespace ModelWorkspace.Project

theorem declaration?_eq_some_iff {files : FileTree} {folder : Path} {d : Declaration} :
    declaration? files folder = some d ↔ ∃ text, files.read (folder.join packageFile) = .ok text ∧
      Declaration.ofPackage? text = some d ∧ d.isComplete = true := by
  unfold declaration?
  split
  · rename_i text read
    simp [read, Option.filter_eq_some_iff]
  · rename_i fault read
    simp [read]

/-- A model folder declares a project. -/
theorem isSome_of_modelName? {files : FileTree} {folder : Path} {name : String}
    (named : modelName? files folder = some name) :
    (declaration? files folder).isSome = true := by
  unfold modelName? at named
  split at named
  · assumption
  · cases named

theorem resolve_of_declaration? {files : FileTree} {folder : Path} (given : folder.text ≠ "")
    (declared : (declaration? files folder).isSome = true) :
    ∃ l, files.resolve folder = .ok l := by
  obtain ⟨d, declared⟩ := Option.isSome_iff_exists.1 declared
  obtain ⟨text, read, -⟩ := declaration?_eq_some_iff.1 declared
  exact FileTree.resolve_of_read_join given (by decide) read

/-- A package file that declares a project. -/
def packageEntry (name version : String) : Entry := ⟨fileMode, .text
  ("\x7b\"modelProject\":\x7b\"projectName\":\"" ++ name ++
    "\",\"projectVersion\":\"" ++ version ++ "\"\x7d\x7d")⟩

end ModelWorkspace.Project
