import ModelWorkspace.Bundle
import ModelWorkspace.Folder
import ModelWorkspace.Notice
import ModelWorkspace.Setting.View

/-! The workbench: what the tooling shares with the editor. Files, settings, the folders of the
workspace, the bundled models and the notices shown so far. -/
namespace ModelWorkspace

/-- The state that all parts of the tooling work on. -/
structure Workbench where
  files : FileTree := {}
  settings : Setting.Store := {}
  folders : FolderList := {}
  bundle : Bundle
  /-- Whether the editor refuses to change the folders for the tooling. -/
  refusesFolders : Bool := false
  notices : NoticeLog := []

namespace Workbench

open Json (Value)

def notify (w : Workbench) (level : Level) (text : String) : Workbench :=
  { w with notices := w.notices ++ [⟨level, text⟩] }

/-- Shows a notice that nothing is wrong with. -/
def inform (w : Workbench) (text : String) : Workbench := w.notify .info text

def write (w : Workbench) (key : Setting.Key) (value : Value) : Except Setting.StoreError Workbench :=
  match w.settings.set w.files key value with
  | .ok (files, settings) => .ok { w with files, settings }
  | .error e => .error e

/-- Writes a text into a setting. A write that fails changes nothing. -/
def tryWrite (w : Workbench) (key : Setting.Key) (text : String) : Workbench :=
  match w.write key (.string text) with
  | .ok w => w
  | .error _ => w

def updateFolders (w : Workbench) (start count : Nat) (insert : List Folder) : Option Workbench :=
  if w.refusesFolders then none
  else (w.folders.update start count insert).map fun folders => { w with folders }

/-- Puts the model folder in the first place, or into a workspace without folders. A bundled folder
becomes read-only first; a refusal is shown to the user. Says whether the folders changed. -/
def replaceModelFolder (w : Workbench) (name : String) (path : Path) : Workbench × Bool :=
  let w := { w with files := w.bundle.enforceReadOnly w.files path }
  let count := if w.folders.toList.isEmpty then 0 else 1
  match w.updateFolders 0 count [Folder.model name path] with
  | some w => (w, true)
  | none =>
    (w.notify .error s!"Could not open the model project at {path.text} in the workspace.", false)

end Workbench

end ModelWorkspace
