import ModelWorkspace.Project.Declaration
import ModelWorkspace.Workbench.Basic

/-! The cascade from the platform version over the model version and the model directory to the
model folder. Each handler is a list of stages that it still has to go through. A stage is done in
one go and may put further stages in front; `pause` is where all others get their turn. -/
namespace ModelWorkspace.Cascade

/-- A stage of a handler. -/
inductive Stage
  | pause
  /-- The model version follows the platform version. -/
  | forwardModelVersion
  /-- The model directory follows the model version. -/
  | forwardModelDirectory
  /-- Looks whether the model folder can follow the model directory. -/
  | openModelDirectory
  | replaceModelFolder (name : String) (path : Path)
  /-- The end of an attempt to open the model directory: whether the folders changed. -/
  | answer (opened : Bool)
  deriving DecidableEq

def onPlatformVersion : List Stage := [.pause, .forwardModelVersion]

def syncModelDirectory : List Stage := [.pause, .forwardModelDirectory, .pause]

/-- The handler of a change of the model version. Its pauses let a change of the platform version
land first. -/
def onModelVersion : List Stage := [.pause, .pause] ++ syncModelDirectory

def syncModelFolder : List Stage := [.pause, .openModelDirectory]

/-- The handler of a change of the model directory. Its pauses let the two steps before it land. -/
def onModelDirectory : List Stage := [.pause, .pause, .pause, .pause] ++ syncModelFolder

/-- The model version that the configured platform version asks for, if another one is configured. -/
def pendingModelVersion? (w : Workbench) : Option Version := do
  let model ← Catalogue.defaultModelVersion (← w.settings.platform?)
  if w.settings.model?.any (·.sameAs model) then none else some model

/-- The bundled folder of the configured model version, or the default one while none is readable. -/
def modelPath (w : Workbench) : Path :=
  match w.settings.model? with
  | some model => w.bundle.pathFor model
  | none => w.bundle.defaultPath

/-- The name of the configured model directory, if it is a project that may be opened. -/
def openable? (w : Workbench) : Option (String × Path) :=
  let path : Path := ⟨w.settings.modelDirectory⟩
  if path.text.isEmpty then none
  else if w.bundle.contains path || w.settings.extendedAccess then
    (Project.modelName? w.files path).map (·, path)
  else none

def updateNotice : String :=
  "Updating the workspace model project. Please wait for restart message."

/-- Does a stage: the workbench after it, and the stages to go through next. -/
def Stage.perform (w : Workbench) : Stage → Workbench × List Stage
  | .pause => (w, [])
  | .forwardModelVersion =>
    match pendingModelVersion? w with
    | some model => (w.tryWrite .modelVersion model.text, [.pause])
    | none => (w, [])
  | .forwardModelDirectory => (w.tryWrite .modelDirectory (modelPath w).text, [])
  | .openModelDirectory =>
    match openable? w with
    | some (name, path) => (w.inform updateNotice, [.pause, .replaceModelFolder name path])
    | none => (w, [.answer false])
  | .replaceModelFolder name path =>
    let (w, opened) := w.replaceModelFolder name path
    (w, [.pause, .answer opened])
  | .answer _ => (w, [])

end ModelWorkspace.Cascade
