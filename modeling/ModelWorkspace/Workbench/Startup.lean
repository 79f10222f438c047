import ModelWorkspace.Workbench.Cascade

/-! The repair of settings and folders before anything follows the settings. Settings that cannot
be used are reset; a workspace whose folders were all closed gets its model folder back. Where the
folders of a workspace come into being the editor restarts, and start-up ends. -/
namespace ModelWorkspace.Startup

/-- A stage of start-up. -/
inductive Stage
  | inspect
  | cascade (s : Cascade.Stage)
  /-- Puts the default folder into an editor without a workspace. -/
  | openDefaultFolder
  /-- Puts the default folder in the place of the model folder. -/
  | resetFolder
  | resetSettings
  /-- The end of start-up: whether the editor restarts. -/
  | done (restarting : Bool)
  deriving DecidableEq

/-- Whether the settings name no model version, or no model directory that exists. -/
def isUnusable (w : Workbench) : Bool :=
  w.settings.modelVersion.isEmpty || w.settings.modelDirectory.isEmpty ||
    !w.files.exists? ⟨w.settings.modelDirectory⟩

def modifyNotice : String := "Modifying the workspace. Please wait for restart message."

def switchNotice : String := "Switching model projects. Please wait for restart message."

def openDefault (w : Workbench) : Workbench :=
  (w.replaceModelFolder Catalogue.defaultFolderName w.bundle.defaultPath).1

/-- Writes the default model directory, model version and platform version. -/
def writeDefaults (w : Workbench) : Workbench :=
  ((w.tryWrite .modelDirectory w.bundle.defaultPath.text).tryWrite
    .modelVersion Catalogue.defaultModel.text).tryWrite
    .platformVersion Catalogue.defaultPlatform.text

/-- Does a stage: the workbench after it, and the stages to go through next. -/
def Stage.perform (w : Workbench) : Stage → Workbench × List Stage
  | .inspect =>
    if isUnusable w then
      match w.folders.folders? with
      | none => (w.inform modifyNotice, [.cascade .pause, .openDefaultFolder])
      | some _ =>
        (w.inform switchNotice,
          [.cascade .pause, .resetFolder, .cascade .pause, .resetSettings, .cascade .pause,
            .done false])
    else if w.folders.folders? = some [] then
      (w.inform modifyNotice,
        (Cascade.syncModelDirectory ++ Cascade.syncModelFolder).map .cascade)
    else (w, [.done false])
  | .cascade (.answer opened) => (w, [.done opened])
  | .cascade s =>
    let (w, next) := s.perform w
    (w, next.map .cascade)
  | .openDefaultFolder => (openDefault w, [.done true])
  | .resetFolder => (openDefault w, [])
  | .resetSettings => (writeDefaults w, [])
  | .done _ => (w, [])

end ModelWorkspace.Startup
