import ModelWorkspace.Project.Declaration
import ModelWorkspace.Version.Reader

/-! Projects. The name of a project gives the namespace of its model; the core model has a namespace
of its own, all others are extensions. -/
namespace ModelWorkspace

/-- A folder that holds a project. -/
structure Project where
  path : Path
  name : String
  version : String
  space : String
  description : String
  deriving DecidableEq

namespace Project

/-- Why a folder is no project. -/
inductive Reason
  | noDeclaration
  | badName
  | badVersion
  deriving DecidableEq

def Reason.message : Reason → String
  | .noDeclaration =>
    "Workspace folder does not have a package.json file with both modelProject.projectName and modelProject.projectVersion definitions."
  | .badName =>
    "modelProject.projectName definition must begin with an uppercase character. All other characters must be alphanumeric only."
  | .badVersion =>
    "modelProject.projectVersion is not a valid version declaration. Version declarations must follow the semver.org standard."

def coreSpace : String := "EdFi"

def extensionSuffix : String := "EXTENSION"

def isUpper (c : Char) : Bool := 'A' ≤ c && c ≤ 'Z'

def isAlphanumeric (c : Char) : Bool := isUpper c || ('a' ≤ c && c ≤ 'z') || ('0' ≤ c && c ≤ '9')

/-- The namespace that a name gives: without hyphens and white space it has to be alphanumeric and
to begin with an upper-case letter. -/
def spaceOf? (name : String) : Option String :=
  match name.toList.filter fun c => c != '-' && !Text.isBlank c with
  | [] => none
  | c :: rest =>
    if isUpper c && rest.all isAlphanumeric then some (String.ofList (c :: rest)) else none

def ofDeclaration (folder : Path) (d : Declaration) : Except Reason Project :=
  match spaceOf? d.name with
  | none => .error .badName
  | some space =>
    let version := Text.trim d.version.toList
    if (Version.ofChars? version).isSome then
      .ok ⟨folder, d.name, String.ofList version, space, d.description⟩
    else .error .badVersion

def ofFolder (files : FileTree) (folder : Path) : Except Reason Project :=
  match declaration? files folder with
  | none => .error .noDeclaration
  | some d => ofDeclaration folder d

def isCore (p : Project) : Bool := p.space == coreSpace

def isExtension (p : Project) : Bool := !p.isCore

def suffix (p : Project) : String := if p.isExtension then extensionSuffix else ""

def modelVersion? (p : Project) : Option Version := Version.normalize? p.version

end Project

end ModelWorkspace
