import ModelWorkspace.Project.Basic

/-! What is known of a folder that was read: the data of its project, or the reason why it is none. -/
namespace ModelWorkspace.Project

/-- The data of a project, which are empty texts in a folder that is none for a reason. -/
structure Metadata extends Project where
  reason : Option Reason := none
  deriving DecidableEq

namespace Metadata

def refused (folder : Path) (reason : Reason) : Metadata where
  path := folder
  name := ""
  version := ""
  space := ""
  description := ""
  reason := some reason

def ofFolder (files : FileTree) (folder : Path) : Metadata :=
  match Project.ofFolder files folder with
  | .ok p => { toProject := p }
  | .error reason => refused folder reason

def isValid (m : Metadata) : Bool := m.reason.isNone

def isExtension (m : Metadata) : Bool := m.isValid && m.toProject.isExtension

def suffix (m : Metadata) : String := if m.isExtension then extensionSuffix else ""

def modelVersion? (m : Metadata) : Option Version :=
  if m.isValid then m.toProject.modelVersion? else none

end Metadata

end ModelWorkspace.Project
