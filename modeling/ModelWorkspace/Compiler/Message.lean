import ModelWorkspace.Project.Discovery
import ModelWorkspace.Workbench.Basic

/-! The message to the compiler: the projects of the workspace, with the one core model among them
and the platform that it is built for. -/
namespace ModelWorkspace

/-- The input of one call of the compiler. -/
structure Message where
  projects : List Project
  platform : Version
  model : Version
  extendedAccess : Bool
  artifactDirectory : Path
  deployDirectory : Path
  deriving DecidableEq

/-- Why there is no message. -/
inductive MessageError
  | noProjects (bundle : Path)
  | modelCount (found : Nat) (bundle : Path)
  | incompatible (platform : Version) (folder : Path)
  | invalidPlatform (text : String)
  deriving DecidableEq

def MessageError.message : MessageError → String
  | .noProjects bundle =>
    s!"A model project is required in the workspace. Bundled versions are at {bundle.text}"
  | .modelCount found bundle =>
    s!"Exactly one core model project is required in the workspace, found {found}. Bundled versions are at {bundle.text}"
  | .incompatible platform folder =>
    s!"Platform version {platform.text} in settings requires the model project at {folder.text}"
  | .invalidPlatform text => s!"Platform version `{text}` in settings is not a valid version"

namespace Message

/-- The folder of the last project that takes what the compiler makes. -/
def artifactFolder : Path := ⟨"ModelOutput"⟩

def foreignFoldersNotice : String :=
  "There are non-model projects in the workspace. They will be ignored"

def extensionCount (m : Message) : Nat := m.projects.countP (·.isExtension)

def projectPaths (m : Message) : List Path := m.projects.map (·.path)

/-- The configured platform version; the default one while none is configured. -/
def configuredPlatform (settings : Setting.Store) : Except MessageError Version :=
  let text :=
    if settings.platformVersion.isEmpty then Catalogue.defaultPlatform.text
    else settings.platformVersion
  match Version.normalize? text with
  | some v => .ok v
  | none => .error (.invalidPlatform text)

def coreVersion (bundle : Bundle) (found : Project.Found) : Except MessageError Version :=
  match found.modelVersions with
  | [v] => .ok v
  | versions => .error (.modelCount versions.length bundle.root)

def ofFound (settings : Setting.Store) (bundle : Bundle) (found : Project.Found) :
    Except MessageError Message := do
  if found.projects.isEmpty then throw (.noProjects bundle.root)
  let model ← coreVersion bundle found
  let platform ← configuredPlatform settings
  if !Catalogue.isCompatible model platform then
    throw (.incompatible platform
      (bundle.folder (Catalogue.recommendedFolder (Catalogue.rangeFor platform))))
  return {
    projects := found.projects
    platform, model
    extendedAccess := settings.extendedAccess
    artifactDirectory :=
      match found.projects.getLast? with
      | some p => p.path.join artifactFolder
      | none => ⟨""⟩
    deployDirectory := ⟨settings.deploymentDirectory⟩ }

def found (w : Workbench) : Project.Found := Project.find w.files w.folders.paths

/-- The message about the workspace, without a word to the user. -/
def ofWorkbench (w : Workbench) : Except MessageError Message :=
  ofFound w.settings w.bundle (found w)

/-- Tells the user about folders that are no projects, as long as there are others. -/
def mentionForeignFolders (w : Workbench) : Workbench :=
  if (found w).projects.isEmpty || (found w).invalid.isEmpty then w
  else w.inform foreignFoldersNotice

/-- The message about the workspace. The user is told what stands in the way. -/
def create (w : Workbench) : Workbench × Except MessageError Message :=
  match ofWorkbench w with
  | .ok m => (mentionForeignFolders w, .ok m)
  | .error e => ((mentionForeignFolders w).notify .error e.message, .error e)

end Message

end ModelWorkspace
