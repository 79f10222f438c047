import ModelWorkspace.Path

/-! The folders of a workspace. One of them may be tagged as the model folder; a model folder that
is inserted takes the tag from the others. -/
namespace ModelWorkspace

/-- A folder of the workspace. -/
structure Folder where
  name : String
  path : Path
  isModel : Bool := false
  deriving DecidableEq

def Folder.model (name : String) (path : Path) : Folder := ⟨name, path, true⟩

def Folder.untag (f : Folder) : Folder := { f with isModel := false }

/-- The folders in their order, or none while no workspace is open. -/
structure FolderList where
  folders? : Option (List Folder) := none
  deriving DecidableEq

namespace FolderList

/-- The folders; a workspace that is not open has none. -/
def toList (l : FolderList) : List Folder := l.folders?.getD []

def paths (l : FolderList) : List Path := l.toList.map (·.path)

def model? (l : FolderList) : Option Folder := l.toList.find? (·.isModel)

def containsPath (l : FolderList) (p : Path) : Bool := l.toList.any fun f => f.path.same p

def splice (folders : List Folder) (start count : Nat) (insert : List Folder) : List Folder :=
  let others := fun f : Folder => if insert.any (·.isModel) then f.untag else f
  (folders.take start).map others ++ insert ++ (folders.drop (start + count)).map others

/-- Replaces a range of the folders, or refuses if the range is not there. A workspace that is not
open becomes open. -/
def update (l : FolderList) (start count : Nat) (insert : List Folder) : Option FolderList :=
  if start + count ≤ l.toList.length then some ⟨some (splice l.toList start count insert)⟩
  else none

theorem update_eq_none_iff (l : FolderList) (start count : Nat) (insert : List Folder) :
    l.update start count insert = none ↔ l.toList.length < start + count := by
  unfold update
  split <;> simp <;> omega

theorem toList_update {l m : FolderList} {start count : Nat} {insert : List Folder}
    (h : l.update start count insert = some m) :
    m.toList = splice l.toList start count insert := by
  unfold update at h
  split at h
  · cases h
    rfl
  · cases h

end FolderList

end ModelWorkspace
