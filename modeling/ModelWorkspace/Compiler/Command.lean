import ModelWorkspace.Compiler.Message

/-! The commands of the user. Each stops before anything is called, with a notice that says why, or
calls the compiler or the deployer once. -/
namespace ModelWorkspace

/-- Why a command stopped. -/
inductive CommandError
  | licenseNotAccepted
  | directoryUnset
  | directoryInvalid (path : Path)
  | nothingToDeploy
  | configuration (e : MessageError)
  deriving DecidableEq

namespace Command

/-- The folders that a deployment directory holds side by side. -/
def deploymentFolders : String × String := ("Ed-Fi-ODS", "Ed-Fi-ODS-Implementation")

end Command

namespace CommandError

def message : CommandError → String
  | licenseNotAccepted => "You must first accept the license agreement in workspace settings."
  | directoryUnset => "To deploy, set the deployment directory in workspace settings."
  | directoryInvalid path =>
    s!"Deployment directory {path.text} must contain the {Command.deploymentFolders.1} and {Command.deploymentFolders.2} folders."
  | nothingToDeploy => "No extension to deploy."
  | configuration e => e.message

def level : CommandError → Level
  | directoryUnset | nothingToDeploy => .info
  | _ => .error

end CommandError

/-- The input of one deployment. -/
structure Deployment where
  message : Message
  deployCore : Bool
  suppressDelete : Bool
  deriving DecidableEq

namespace Command

def checkDirectory (files : FileTree) (directory : Path) : Except CommandError Unit :=
  if files.isFolder (directory.join ⟨deploymentFolders.1⟩) &&
      files.isFolder (directory.join ⟨deploymentFolders.2⟩) then .ok ()
  else .error (.directoryInvalid directory)

def refuse {α : Type} (w : Workbench) (e : CommandError) : Workbench × Except CommandError α :=
  (w.notify e.level e.message, .error e)

/-- The message about the workspace, where its errors are errors of the command. -/
def createMessage (w : Workbench) : Workbench × Except CommandError Message :=
  match Message.create w with
  | (w, .ok m) => (w, .ok m)
  | (w, .error e) => (w, .error (.configuration e))

def prepareBuild (w : Workbench) : Workbench × Except CommandError Message :=
  if w.settings.acceptedLicense then createMessage w else refuse w .licenseNotAccepted

/-- The deployment of a message. Without extended access an extension is needed. -/
def deploymentOf (w : Workbench) (m : Message) : Workbench × Except CommandError Deployment :=
  if !w.settings.extendedAccess && m.projects.length ≤ 1 then refuse w .nothingToDeploy
  else (w, .ok ⟨m, w.settings.extendedAccess, w.settings.suppressDeleteOnDeploy⟩)

def prepareDeploy (w : Workbench) : Workbench × Except CommandError Deployment :=
  if !w.settings.acceptedLicense then refuse w .licenseNotAccepted
  else if w.settings.deploymentDirectory.isEmpty then refuse w .directoryUnset
  else
    match checkDirectory w.files ⟨w.settings.deploymentDirectory⟩ with
    | .error e => refuse w e
    | .ok () =>
      match createMessage w with
      | (w, .ok m) => deploymentOf w m
      | (w, .error e) => (w, .error e)

def buildingNotice : String := "Building..."

def builtNotice (success : Bool) : String :=
  if success then
    s!"Build succeeded: find results in the '{Message.artifactFolder.text}' folder."
  else "Build failed, see the Problems window."

def deployingNotice : String := "Deploying..."

def deployedNotice (success : Bool) (target : Path) : String :=
  if success then s!"Deploy succeeded: find results under '{target.text}'."
  else
    "Deploy failed, see the Problems window and check the deployment directory in settings."

end Command

/-- The versions that the user is told about. -/
structure About where
  version : String
  platform : String
  model : String
  deriving DecidableEq

namespace About

def toolingVersion : String := "0.3.6-alpha"

def of (settings : Setting.Store) : About :=
  ⟨toolingVersion, settings.platformVersion, settings.modelVersion⟩

/-- The line shown to the user. A version that is not set is left out. -/
def text (a : About) : String :=
  s!"modelsync {a.version}" ++
    (if a.platform.isEmpty then "" else s!", platform {a.platform}") ++
    (if a.model.isEmpty then "" else s!", model {a.model}")

end About

end ModelWorkspace
