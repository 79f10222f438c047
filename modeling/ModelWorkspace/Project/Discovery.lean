import ModelWorkspace.Project.Basic

/-! The projects of a workspace, and the folders that are none. -/
namespace ModelWorkspace.Project

/-- The projects among folders and the other folders with their reasons, both in their order. -/
structure Found where
  projects : List Project := []
  invalid : List (Path × Reason) := []
  deriving DecidableEq

def readAll (files : FileTree) (folders : List Path) : List (Path × Except Reason Project) :=
  folders.map fun folder => (folder, ofFolder files folder)

def find (files : FileTree) (folders : List Path) : Found where
  projects := (readAll files folders).filterMap fun (_, found) => found.toOption
  invalid := (readAll files folders).filterMap fun
    | (folder, .error reason) => some (folder, reason)
    | _ => none

def allValid (files : FileTree) (folders : List Path) : Bool :=
  (readAll files folders).all fun (_, found) => found.isOk

def addVersion (versions : List Version) (v : Version) : List Version :=
  if versions.any (·.sameAs v) then versions else versions ++ [v]

/-- The versions that the core projects declare, the first of each precedence. -/
def Found.modelVersions (found : Found) : List Version :=
  ((found.projects.filter isCore).filterMap modelVersion?).foldl addVersion []

end ModelWorkspace.Project
