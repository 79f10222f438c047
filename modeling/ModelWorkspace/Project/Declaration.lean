import ModelWorkspace.FileTree
import ModelWorkspace.Json.Reader
import ModelWorkspace.Json.Record

/-! The declaration that makes a folder a project: the project record of its package file. -/
namespace ModelWorkspace.Project

open ModelWorkspace.Json (Tree)

/-- What a package file says about its project. -/
structure Declaration where
  name : String := ""
  version : String := ""
  description : String := ""
  deriving DecidableEq

def packageFile : Path := ⟨"package.json"⟩

/-- Reads the record of a project. Fields that are left out are empty. -/
def Declaration.ofTree? (t : Tree) : Option Declaration := do
  match ← t.record? [["projectName"], ["projectVersion"], ["projectDescription"]] true with
  | [name, version, description] =>
    return {
      name := ← Json.withDefault "" Tree.string? name
      version := ← Json.withDefault "" Tree.string? version
      description := ← Json.withDefault "" Tree.string? description }
  | _ => none

/-- Reads the text of a package file. Its project record goes by a new and an old name. -/
def Declaration.ofPackage? (text : String) : Option Declaration := do
  match ← (← Tree.read text.toList).record? [["modelProject", "metaEdProject"]] false with
  | [project] => ← Json.optional Declaration.ofTree? project
  | _ => none

def Declaration.isComplete (d : Declaration) : Bool := d.name != "" && d.version != ""

/-- The declaration in a folder, if there is one with a name and a version. -/
def declaration? (files : FileTree) (folder : Path) : Option Declaration :=
  match files.read (folder.join packageFile) with
  | .ok text => (Declaration.ofPackage? text).filter Declaration.isComplete
  | .error _ => none

/-- The name of the project in a folder: the name of the folder. -/
def modelName? (files : FileTree) (folder : Path) : Option String :=
  if (declaration? files folder).isSome then folder.fileName? else none

end ModelWorkspace.Project
