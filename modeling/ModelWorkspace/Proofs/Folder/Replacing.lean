import ModelWorkspace.Proofs.Cascade.Stages
import ModelWorkspace.Proofs.Folder.Tags

/-! The folder that gives way to the model folder. It is the first one, whichever folder has the tag; so
nothing but the old model folder is lost exactly where that is the first. -/
namespace ModelWorkspace

open FolderList (tagged)

theorem untag_of_isModel_eq_false {f : Folder} (plain : f.isModel = false) : f.untag = f := by
  cases f
  cases plain
  rfl

theorem map_untag_of_tagged_eq_nil {folders : List Folder} (plain : tagged folders = []) :
    folders.map Folder.untag = folders := by
  induction folders with
  | nil => rfl
  | cons f rest ih =>
    have parts : f.isModel = false ∧ tagged rest = [] := by
      cases model : f.isModel with
      | true => simp [tagged, model] at plain
      | false => exact ⟨rfl, by simpa [tagged, model] using plain⟩
    rw [List.map_cons, untag_of_isModel_eq_false parts.1, ih parts.2]

/-- In a list with one tagged folder the folders before and behind it have no tag. -/
theorem plain_of_tagged_eq {before behind : List Folder} {old : Folder}
    (one : tagged (before ++ old :: behind) = [old]) (model : old.isModel = true) :
    tagged before = [] ∧ tagged behind = [] := by
  have whole : tagged (old :: behind) = old :: tagged behind := by simp [tagged, model]
  have count := congrArg List.length one
  rw [FolderList.tagged_append, whole, List.length_append, List.length_cons,
    List.length_singleton] at count
  constructor
  · exact List.eq_nil_of_length_eq_zero (by omega)
  · exact List.eq_nil_of_length_eq_zero (by omega)

/-- What follows the first folder of such a list, without a tag. -/
theorem map_untag_drop_one {before behind : List Folder} {old : Folder}
    (one : tagged (before ++ old :: behind) = [old]) (model : old.isModel = true) :
    ((before ++ old :: behind).drop 1).map Folder.untag =
      (before ++ [old.untag]).drop 1 ++ behind := by
  obtain ⟨front, back⟩ := plain_of_tagged_eq one model
  have whole : (before ++ old :: behind).map Folder.untag = (before ++ [old.untag]) ++ behind := by
    rw [List.map_append, List.map_cons, map_untag_of_tagged_eq_nil front,
      map_untag_of_tagged_eq_nil back, List.append_assoc, List.singleton_append]
  rw [List.map_drop, whole, List.drop_append_of_le_length (by simp)]

/-- A new folder at the end is not made up for by the loss of the first one. -/
theorem drop_one_concat_eq_iff {folders : List Folder} {f : Folder} (new : f ∉ folders) :
    (folders ++ [f]).drop 1 = folders ↔ folders = [] := by
  cases folders with
  | nil => simp
  | cons first rest =>
    simp only [List.cons_append, List.drop_succ_cons, List.drop_zero, reduceCtorEq, iff_false]
    intro same
    apply new
    rw [← same]
    exact List.mem_append_right _ List.mem_cons_self

namespace Workbench

variable {w : Workbench} (name : String) (path : Path)

theorem replaceModelFolder_accepted (allowed : w.refusesFolders = false) :
    (w.replaceModelFolder name path).2 = true := by
  unfold replaceModelFolder updateFolders
  simp only [allowed, Bool.false_eq_true, if_false]
  cases update : w.folders.update 0 (if w.folders.toList.isEmpty then 0 else 1)
      [Folder.model name path] with
  | some folders => rfl
  | none =>
    rw [FolderList.update_eq_none_iff] at update
    cases folders : w.folders.toList <;> simp [folders] at update

/-- The list accepts every new model folder, and shows it in front, with the only tag. Where there were
no folders it is alone. Where one folder had the tag, the first folder gives way and the others
follow, the old model folder without its tag; so the old model folder is all that is lost if it stood
in front, and only then unless another folder is the same as it. -/
theorem replaces_first_folder (allowed : w.refusesFolders = false) :
    (w.replaceModelFolder name path).2 = true ∧
    tagged (w.replaceModelFolder name path).1.folders.toList = [Folder.model name path] ∧
    (w.folders.toList = [] →
      (w.replaceModelFolder name path).1.folders.folders? = some [Folder.model name path]) ∧
    ∀ before old behind, w.folders.toList = before ++ old :: behind →
      tagged w.folders.toList = [old] →
      (w.replaceModelFolder name path).1.folders.folders? =
        some (Folder.model name path :: ((before ++ [old.untag]).drop 1 ++ behind)) ∧
      (before = [] → (w.replaceModelFolder name path).1.folders.folders? =
        some (Folder.model name path :: behind)) ∧
      (old.untag ∉ before →
        ((w.replaceModelFolder name path).1.folders.folders? =
          some (Folder.model name path :: (before ++ behind)) ↔ before = [])) := by
  have folders := Cascade.folders_replaceModelFolder allowed name path
  refine ⟨replaceModelFolder_accepted name path allowed, ?_, ?_, ?_⟩
  · rw [FolderList.toList, folders, Option.getD_some, Cascade.otherFolders,
      ← List.singleton_append, FolderList.tagged_append, FolderList.tagged_map_untag]
    rfl
  · intro none
    rw [folders, Cascade.otherFolders, none]
    rfl
  · intro before old behind list one
    have model : old.isModel = true := by
      have mem : old ∈ tagged w.folders.toList := by
        rw [one]
        exact List.mem_cons_self
      exact (List.mem_filter.1 mem).2
    rw [list] at one
    rw [folders, Cascade.otherFolders, list, map_untag_drop_one one model]
    refine ⟨rfl, ?_, fun new => ?_⟩
    · rintro rfl
      rfl
    · rw [Option.some_inj, List.cons_inj_right, List.append_left_inj]
      exact drop_one_concat_eq_iff new

/-- The old model folder gives way in front of two plain folders. -/
theorem replaces_first_folder_tagged :
    let w : Workbench := {
      folders := ⟨some [Folder.model "m" ⟨"/b/m"⟩, ⟨"x", ⟨"/x"⟩, false⟩, ⟨"y", ⟨"/y"⟩, false⟩]⟩
      bundle := ⟨⟨"/b"⟩⟩ }
    w.refusesFolders = false ∧ tagged w.folders.toList = [Folder.model "m" ⟨"/b/m"⟩] ∧
      (w.replaceModelFolder "n" ⟨"/b/n"⟩).1.folders.folders? =
        some [Folder.model "n" ⟨"/b/n"⟩, ⟨"x", ⟨"/x"⟩, false⟩, ⟨"y", ⟨"/y"⟩, false⟩] := by
  refine ⟨rfl, by decide, ?_⟩
  exact ((replaces_first_folder "n" ⟨"/b/n"⟩ rfl).2.2.2 [] _ _ rfl (by decide)).2.1 rfl

/-- Where the model folder stands behind another folder, that one is lost, and the old model folder
stays. -/
theorem folder_in_front_is_lost :
    ¬ ∀ (w : Workbench) (name : String) (path : Path) (before behind : List Folder) (old : Folder),
      w.refusesFolders = false → w.folders.toList = before ++ old :: behind →
      tagged w.folders.toList = [old] →
      (w.replaceModelFolder name path).1.folders.toList =
        Folder.model name path :: (before ++ behind) := by
  intro keeps
  have kept := keeps
    { folders := ⟨some [⟨"x", ⟨"/x"⟩, false⟩, Folder.model "m" ⟨"/b/m"⟩]⟩, bundle := ⟨⟨"/b"⟩⟩ }
    "n" ⟨"/b/n"⟩ [⟨"x", ⟨"/x"⟩, false⟩] [] (Folder.model "m" ⟨"/b/m"⟩) rfl rfl (by decide)
  exact absurd kept (by decide)

end Workbench

end ModelWorkspace
