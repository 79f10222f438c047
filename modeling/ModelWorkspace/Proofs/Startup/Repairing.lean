import Mathlib.Logic.Relation
import ModelWorkspace.Proofs.Session.Home
import ModelWorkspace.Proofs.Setting.Rewriting
import ModelWorkspace.Proofs.Startup.Announcing

/-! Repairs that are made again. A workbench is settled where start-up leaves settings and folders alone
each time that it is gone through. One passage without a restart leads there, but for a workspace that
has lost its folders and whose model version has no folder in the bundle: there the model directory
is lost before anything is known of the new one, and only the next passage resets it. -/
namespace ModelWorkspace.Startup

/-- Start-up, gone through once. -/
def Again (w u : Workbench) : Prop := ∃ log restarting, Alone w [.inspect] log u restarting

/-- The default folder is in front and the default settings are set. -/
structure IsReset (w : Workbench) : Prop where
  allowed : w.refusesFolders = false
  folders : w.folders.folders? =
    some (Folder.model Catalogue.defaultFolderName w.bundle.defaultPath :: Cascade.otherFolders w)
  directory : w.settings.values.has .modelDirectory (.string w.bundle.defaultPath.text) = true
  model : w.settings.values.has .modelVersion (.string Catalogue.defaultModel.text) = true
  platform : w.settings.values.has .platformVersion (.string Catalogue.defaultPlatform.text) = true

/-- Start-up has nothing to do, nothing that it has not done, or nothing that it can do. -/
inductive IsSettled (w : Workbench) : Prop
  | healthy (usable : isUnusable w = false) (kept : w.folders.folders? ≠ some [])
  | reset (reset : IsReset w)
  | lost (usable : isUnusable w = false) (empty : w.folders.folders? = some [])
      (followed : w.settings.values.has .modelDirectory (.string (Cascade.modelPath w).text) = true)
      (stuck : Cascade.openable? w = none)

section Resetting

variable {w : Workbench}

theorem openDefault_frame (w : Workbench) : (openDefault w).settings = w.settings ∧
    (openDefault w).bundle = w.bundle ∧ (openDefault w).refusesFolders = w.refusesFolders := by
  have frame := Cascade.replaceModelFolder_frame w Catalogue.defaultFolderName w.bundle.defaultPath
  exact ⟨frame.1, frame.2.2⟩

theorem writeDefaults_frame (w : Workbench) : (writeDefaults w).bundle = w.bundle ∧
    (writeDefaults w).folders = w.folders ∧
    (writeDefaults w).refusesFolders = w.refusesFolders := by
  simp only [writeDefaults, Cascade.tryWrite_frame, and_self]

theorem folders_openDefault (allowed : w.refusesFolders = false) :
    (openDefault w).folders.folders? =
      some (Folder.model Catalogue.defaultFolderName w.bundle.defaultPath ::
        Cascade.otherFolders w) :=
  Cascade.folders_replaceModelFolder allowed _ _

theorem otherFolders_openDefault (w : Workbench) :
    Cascade.otherFolders (openDefault w) = Cascade.otherFolders w :=
  Cascade.otherFolders_replaceModelFolder w _ _

/-- The defaults are all there after they were written. -/
theorem isReset_writeDefaults (allowed : w.refusesFolders = false)
    (writable : (openDefault w).IsWritable) : IsReset (writeDefaults (openDefault w)) := by
  obtain ⟨-, bundle, refuses⟩ := openDefault_frame w
  obtain ⟨bundle', folders, refuses'⟩ := writeDefaults_frame (openDefault w)
  have later := Workbench.isWritable_tryWrite writable .modelDirectory
    (openDefault w).bundle.defaultPath.text
  refine ⟨(refuses'.trans refuses).trans allowed, ?_, ?_, ?_, ?_⟩
  · rw [Cascade.otherFolders, folders, bundle', bundle, folders_openDefault allowed,
      ← otherFolders_openDefault, Cascade.otherFolders]
  · rw [bundle', writeDefaults, Workbench.has_tryWrite_of_ne (by decide),
      Workbench.has_tryWrite_of_ne (by decide)]
    exact Workbench.has_tryWrite writable _ _
  · rw [writeDefaults, Workbench.has_tryWrite_of_ne (by decide)]
    exact Workbench.has_tryWrite later _ _
  · exact Workbench.has_tryWrite (Workbench.isWritable_tryWrite later _ _) _ _

namespace IsReset

theorem writeDefaults_eq (reset : IsReset w) : writeDefaults w = w := by
  unfold writeDefaults
  rw [Workbench.tryWrite_of_has reset.directory, Workbench.tryWrite_of_has reset.model,
    Workbench.tryWrite_of_has reset.platform]

theorem folders_openDefault (reset : IsReset w) : (openDefault w).folders = w.folders := by
  have same := (Startup.folders_openDefault reset.allowed).trans reset.folders.symm
  exact congrArg FolderList.mk same

theorem openDefault (reset : IsReset w) : IsReset (openDefault w) := by
  obtain ⟨settings, bundle, refuses⟩ := openDefault_frame w
  refine ⟨refuses.trans reset.allowed, ?_, ?_, ?_, ?_⟩
  · rw [otherFolders_openDefault, bundle, reset.folders_openDefault]
    exact reset.folders
  · rw [settings, bundle]
    exact reset.directory
  · rw [settings]
    exact reset.model
  · rw [settings]
    exact reset.platform

theorem inform (reset : IsReset w) (text : String) : IsReset (w.inform text) :=
  ⟨reset.allowed, reset.folders, reset.directory, reset.model, reset.platform⟩

end IsReset

end Resetting

/-! ### The model directory follows the model version -/

section Following

variable {w : Workbench}

theorem forwarded_frame (w : Workbench) : (forwarded w).bundle = w.bundle ∧
    (forwarded w).folders = w.folders ∧ (forwarded w).refusesFolders = w.refusesFolders :=
  Cascade.tryWrite_frame w _ _

theorem get?_forwarded {key : Setting.Key} (other : key ≠ .modelDirectory) (w : Workbench) :
    (forwarded w).settings.get? key = w.settings.get? key :=
  Cascade.get?_tryWrite other w _

@[simp] theorem modelPath_inform (w : Workbench) (text : String) :
    Cascade.modelPath (w.inform text) = Cascade.modelPath w := by
  simp only [Cascade.modelPath, Workbench.inform, Workbench.notify]

theorem modelPath_forwarded (w : Workbench) :
    Cascade.modelPath (forwarded w) = Cascade.modelPath w := by
  simp only [Cascade.modelPath, (forwarded_frame w).1,
    Setting.Store.model?_congr (get?_forwarded (by decide) w)]

theorem forwarded_inform (w : Workbench) (text : String) :
    forwarded (w.inform text) = (forwarded w).inform text := by
  simp only [forwarded, modelPath_inform, Workbench.tryWrite_inform]

theorem has_forwarded (writable : w.IsWritable) :
    (forwarded w).settings.values.has .modelDirectory
      (.string (Cascade.modelPath (forwarded w)).text) = true := by
  rw [modelPath_forwarded]
  exact Workbench.has_tryWrite writable _ _

/-- Settings that could be used still can be if the folder that they now lead to is there. -/
theorem isUnusable_forwarded (usable : isUnusable w = false) (writable : w.IsWritable) :
    isUnusable (forwarded w) = !(forwarded w).files.exists? (Cascade.modelPath w) := by
  have version : (forwarded w).settings.modelVersion = w.settings.modelVersion :=
    Setting.Store.text_congr (get?_forwarded (by decide) w)
  have directory : (forwarded w).settings.modelDirectory = (Cascade.modelPath w).text :=
    Workbench.text_tryWrite writable _ _
  have given : w.settings.modelVersion.isEmpty = false := by
    simp only [isUnusable, Bool.or_eq_false_iff] at usable
    exact usable.1.1
  have nonempty : (Cascade.modelPath w).text.isEmpty = false := by
    simpa using Cascade.text_modelPath_ne w
  simp only [isUnusable, version, directory, given, nonempty, Bool.false_or]

/-- A workspace that has lost its folders gets back what can be opened once the model directory has
followed the model version, or only has that done and shown. -/
theorem restore_cases {u : Workbench} {log : List (Workbench × Stage)} {restarting : Bool}
    (allowed : w.refusesFolders = false) (usable : isUnusable w = false)
    (empty : w.folders.folders? = some []) (passage : Alone w [.inspect] log u restarting) :
    (Cascade.openable? (forwarded w) = none ∧ restarting = false ∧
        u = (forwarded w).inform modifyNotice) ∨
      ∃ name path, Cascade.openable? (forwarded w) = some (name, path) ∧ restarting = true ∧
        u.settings = (forwarded w).settings ∧
        u.folders.folders? = some [Folder.model name path] := by
  obtain ⟨_, _, _, rfl, rfl, -, attempt⟩ := (passage_restore_iff usable empty).1 passage
  obtain ⟨-, folders, refuses⟩ := forwarded_frame w
  rw [forwarded_inform] at attempt
  obtain ⟨_, rfl, ⟨stuck, rfl, rfl, -⟩ | ⟨name, path, _, found, rfl, rfl, rfl, -⟩⟩ :=
    passage_attempt_iff.1 attempt
  · exact .inl ⟨stuck, rfl, rfl⟩
  · have accepts : (((forwarded w).inform modifyNotice).inform
        Cascade.updateNotice).refusesFolders = false := refuses.trans allowed
    have others : Cascade.otherFolders (((forwarded w).inform modifyNotice).inform
        Cascade.updateNotice) = [] := by
      have same := (congrArg FolderList.folders? folders).trans empty
      rw [Cascade.otherFolders, FolderList.toList]
      exact congrArg (fun list : Option (List Folder) =>
        ((list.getD []).drop 1).map Folder.untag) same
    refine .inr ⟨name, path, found, ?_, (Cascade.replaceModelFolder_frame _ name path).1, ?_⟩
    · rw [replaceModelFolder_answer, accepts, Bool.not_false]
    · rw [Cascade.folders_replaceModelFolder accepts, others]

end Following

/-! ### One passage, and all that follow it -/

section Settling

variable {w u v : Workbench} {log later : List (Workbench × Stage)} {restarting : Bool}

/-- What is settled stays so, with the same settings and folders. -/
theorem IsSettled.step (settled : IsSettled w) (passage : Alone w [.inspect] log u restarting) :
    restarting = false ∧ u.settings = w.settings ∧ u.folders = w.folders ∧ IsSettled u := by
  cases settled with
  | healthy usable kept =>
    obtain ⟨-, rfl, rfl⟩ := (passage_healthy_iff usable kept).1 passage
    exact ⟨rfl, rfl, rfl, .healthy usable kept⟩
  | reset reset =>
    cases usable : isUnusable w with
    | false =>
      have kept : w.folders.folders? ≠ some [] := by simp [reset.folders]
      obtain ⟨-, rfl, rfl⟩ := (passage_healthy_iff usable kept).1 passage
      exact ⟨rfl, rfl, rfl, .healthy usable kept⟩
    | true =>
      obtain ⟨_, _, rfl, rfl, rfl, -, rfl⟩ := (passage_reset_iff usable reset.folders).1 passage
      have again := reset.inform switchNotice
      rw [again.openDefault.writeDefaults_eq]
      exact ⟨rfl, (openDefault_frame _).1, again.folders_openDefault, .reset again.openDefault⟩
  | lost usable empty followed stuck =>
    obtain ⟨_, _, _, rfl, rfl, -, attempt⟩ := (passage_restore_iff usable empty).1 passage
    have same : forwarded w = w := Workbench.tryWrite_of_has followed
    rw [forwarded_inform, same] at attempt
    obtain ⟨_, rfl, ⟨-, rfl, rfl, -⟩ | ⟨name, path, _, found, -⟩⟩ := passage_attempt_iff.1 attempt
    · rw [← modelPath_inform w modifyNotice] at followed
      exact ⟨rfl, rfl, rfl, .lost usable empty followed stuck⟩
    · cases stuck.symm.trans found

theorem IsSettled.run (settled : IsSettled w) (run : Relation.ReflTransGen Again w u) :
    u.settings = w.settings ∧ u.folders = w.folders ∧ IsSettled u := by
  induction run with
  | refl => exact ⟨rfl, rfl, settled⟩
  | tail _ again ih =>
    obtain ⟨log, restarting, passage⟩ := again
    obtain ⟨-, settings, folders, settled⟩ := ih.2.2.step passage
    exact ⟨settings.trans ih.1, folders.trans ih.2.1, settled⟩

/-- The workspace has lost its folders, and its model directory was led to a folder that is not
there. -/
def IsStranded (w u : Workbench) : Prop :=
  isUnusable w = false ∧ w.folders.folders? = some [] ∧
    u.files.exists? (Cascade.modelPath w) = false

/-- A passage that brings nothing back settles the workbench if the bundled folder is there. -/
theorem isSettled_or_isStranded_of_lost (usable : isUnusable w = false)
    (empty : w.folders.folders? = some []) (writable : w.IsWritable)
    (stuck : Cascade.openable? (forwarded w) = none) (text : String) :
    (¬ IsStranded w ((forwarded w).inform text) ∧ IsSettled ((forwarded w).inform text)) ∨
      (IsStranded w ((forwarded w).inform text) ∧
        isUnusable ((forwarded w).inform text) = true) := by
  have there := isUnusable_forwarded usable writable
  cases found : (forwarded w).files.exists? (Cascade.modelPath w) with
  | true =>
    refine .inl ⟨fun stranded => ?_, .lost (there.trans (congrArg not found)) ?_ ?_ stuck⟩
    · cases found.symm.trans stranded.2.2
    · exact (congrArg FolderList.folders? (forwarded_frame w).2.1).trans empty
    · rw [modelPath_inform]
      exact has_forwarded writable
  | false => exact .inr ⟨⟨usable, empty, found⟩, there.trans (congrArg not found)⟩

/-- One passage without a restart settles a workbench, or strands it. -/
theorem isSettled_or_isStranded (allowed : w.refusesFolders = false)
    (passage : Alone w [.inspect] log u false)
    (written : ∀ entry ∈ log, entry.1.IsWritable) :
    (¬ IsStranded w u ∧ IsSettled u) ∨
      (IsStranded w u ∧ isUnusable u = true ∧ u.folders.folders? = some [] ∧
        u.refusesFolders = false) := by
  cases usable : isUnusable w with
  | true =>
    refine .inl ⟨fun stranded => ?_, ?_⟩
    · cases usable.symm.trans stranded.1
    cases folders : w.folders.folders? with
    | none =>
      obtain ⟨_, -, -, -, announced⟩ := (passage_closed_iff usable folders).1 passage
      cases announced
    | some list =>
      obtain ⟨_, _, rfl, rfl, rfl, rfl, -⟩ := (passage_reset_iff usable folders).1 passage
      have writable := written (openDefault (w.inform switchNotice), .resetSettings) (by simp)
      exact .reset (isReset_writeDefaults (w := w.inform switchNotice) allowed writable)
  | false =>
    by_cases empty : w.folders.folders? = some []
    · obtain ⟨_, _, _, -, -, entries, -⟩ := (passage_restore_iff usable empty).1 passage
      have writable : w.IsWritable := written (w, .inspect) (entries ▸ List.mem_cons_self)
      obtain ⟨stuck, -, rfl⟩ | ⟨name, path, -, announced, -⟩ :=
        restore_cases allowed usable empty passage
      · obtain ⟨-, folders, refuses⟩ := forwarded_frame w
        refine (isSettled_or_isStranded_of_lost usable empty writable stuck modifyNotice).imp_right ?_
        rintro ⟨stranded, unusable⟩
        exact ⟨stranded, unusable, (congrArg FolderList.folders? folders).trans empty,
          refuses.trans allowed⟩
      · cases announced
    · obtain ⟨-, rfl, -⟩ := (passage_healthy_iff usable empty).1 passage
      exact .inl ⟨fun stranded => empty stranded.2.1, .healthy usable empty⟩

/-- Gone through a second time after no restart, start-up announces none either, and leaves settings
and folders alone unless the first time has stranded the workspace. In any case it leaves them
alone from the third time on, and never announces a restart. -/
theorem repairs_settle (allowed : w.refusesFolders = false)
    (first : Alone w [.inspect] log u false) (second : Alone u [.inspect] later v restarting)
    (written : ∀ entry ∈ log ++ later, entry.1.IsWritable) :
    restarting = false ∧
    (v.settings = u.settings ∧ v.folders = u.folders ↔ ¬ IsStranded w u) ∧
    ∀ x, Relation.ReflTransGen Again v x → x.settings = v.settings ∧ x.folders = v.folders ∧
      ∀ log y restarting, Alone x [.inspect] log y restarting → restarting = false := by
  have settles (settled : IsSettled v) : ∀ x, Relation.ReflTransGen Again v x →
      x.settings = v.settings ∧ x.folders = v.folders ∧
      ∀ log y restarting, Alone x [.inspect] log y restarting → restarting = false := by
    intro x run
    obtain ⟨settings, folders, settled⟩ := settled.run run
    exact ⟨settings, folders, fun log y restarting passage => (settled.step passage).1⟩
  obtain ⟨safe, settled⟩ | ⟨stranded, unusable, empty, allowed⟩ :=
    isSettled_or_isStranded allowed first fun entry mem =>
      written entry (List.mem_append_left _ mem)
  · obtain ⟨answer, settings, folders, settled⟩ := settled.step second
    exact ⟨answer, iff_of_true ⟨settings, folders⟩ safe, settles settled⟩
  · obtain ⟨_, _, rfl, rfl, rfl, rfl, answer⟩ := (passage_reset_iff unusable empty).1 second
    have writable := written (openDefault (u.inform switchNotice), .resetSettings) (by simp)
    have reset := isReset_writeDefaults (w := u.inform switchNotice) allowed writable
    refine ⟨answer, iff_of_false (fun same => ?_) (not_not.2 stranded), settles (.reset reset)⟩
    have folders := reset.folders
    rw [same.2, empty] at folders
    cases folders

end Settling

/-! ### Settings in memory -/

/-- Settings that are in memory only stay there, and files can be read as before. -/
theorem inMemory_perform {start w : Workbench} (kept : start.InMemory w) (s : Stage) :
    start.InMemory (s.perform w).1 := by
  cases s with
  | inspect =>
    have informed : start.InMemory (w.inform modifyNotice) ∧ start.InMemory (w.inform switchNotice) :=
      ⟨⟨kept.memory, kept.reads⟩, ⟨kept.memory, kept.reads⟩⟩
    simp only [Stage.perform]
    split
    · split
      · exact informed.1
      · exact informed.2
    · split
      · exact informed.1
      · exact kept
  | cascade s =>
    rw [fst_perform_cascade]
    exact Cascade.inMemory_perform kept s
  | openDefaultFolder | resetFolder => exact Cascade.inMemory_replaceModelFolder kept _ _
  | resetSettings => exact ((kept.tryWrite _ _).tryWrite _ _).tryWrite _ _
  | done restarting => exact kept

/-- Into settings in memory every write of start-up succeeds. -/
theorem isWritable_of_passage {w u : Workbench} {stages : List Stage}
    {log : List (Workbench × Stage)} {restarting : Bool}
    (passage : Alone w stages log u restarting) (memory : w.settings.file = none) :
    (∀ entry ∈ log, entry.1.IsWritable) ∧ u.settings.file = none := by
  induction passage with
  | done => exact ⟨List.forall_mem_nil _, memory⟩
  | pause meanwhile _ ih => exact ih (meanwhile ▸ memory)
  | @stage w _ s _ _ _ _ _ ih =>
    have kept : w.InMemory w := ⟨memory, fun _ => rfl⟩
    obtain ⟨rest, last⟩ := ih (inMemory_perform kept s).memory
    exact ⟨List.forall_mem_cons.2 ⟨Workbench.isWritable_of_memory memory, rest⟩, last⟩

/-- A workspace without folders, next to an empty folder and a bundle that is not there. -/
def lostFolders (values : Setting.Values) : Workbench where
  files := { entries := [(["mine"], FileTree.newFolder)] }
  settings := { values }
  folders := ⟨some []⟩
  bundle := ⟨⟨"/b"⟩⟩

/-- Settings that were reset are reset again to the same ones. -/
theorem repairs_settle_reset :
    ∃ log u later v, Alone (lostFolders []) [.inspect] log u false ∧
      Alone u [.inspect] later v false ∧ v.settings = u.settings ∧ v.folders = u.folders := by
  have unusable : isUnusable (lostFolders []) = true := by decide
  have first : Alone (lostFolders []) [.inspect] _ _ false :=
    (passage_reset_iff unusable rfl).2 ⟨_, _, rfl, rfl, rfl, rfl, rfl⟩
  obtain ⟨later, v, restarting, second⟩ := exists_passage (fun v => ⟨v, rfl⟩)
    (writeDefaults (openDefault ((lostFolders []).inform switchNotice)))
  obtain ⟨written, memory⟩ := isWritable_of_passage first rfl
  obtain ⟨rfl, same, -⟩ := repairs_settle rfl first second
    (List.forall_mem_append.2 ⟨written, (isWritable_of_passage second memory).1⟩)
  obtain ⟨settings, folders⟩ := same.2 fun stranded => by
    cases unusable.symm.trans stranded.1
  exact ⟨_, _, _, _, first, second, settings, folders⟩

/-- Where the bundle has no folder for the model version, the second passage resets what the first one
has left. -/
theorem second_repair_resets :
    ¬ ∀ w log u later v restarting, w.refusesFolders = false →
      Alone w [.inspect] log u false → Alone u [.inspect] later v restarting →
      (∀ entry ∈ log ++ later, entry.1.IsWritable) →
      v.settings = u.settings ∧ v.folders = u.folders ∧ restarting = false := by
  intro idempotent
  have first : Alone (lostFolders [(.modelVersion, .string "3.1.0"),
      (.modelDirectory, .string "/mine")]) [.inspect] _ _ false :=
    (passage_restore_iff (by decide +kernel) rfl).2 ⟨_, _, _, rfl, rfl, rfl,
      passage_attempt_iff.2 ⟨_, rfl, .inl ⟨by decide +kernel, rfl, rfl, rfl⟩⟩⟩
  have second : Alone (forwarded ((lostFolders [(.modelVersion, .string "3.1.0"),
      (.modelDirectory, .string "/mine")]).inform modifyNotice)) [.inspect] _ _ false :=
    (passage_reset_iff (by decide +kernel) rfl).2 ⟨_, _, rfl, rfl, rfl, rfl, rfl⟩
  obtain ⟨written, memory⟩ := isWritable_of_passage first rfl
  obtain ⟨-, folders, -⟩ := idempotent _ _ _ _ _ _ rfl first second
    (List.forall_mem_append.2 ⟨written, (isWritable_of_passage second memory).1⟩)
  exact absurd (congrArg (fun l : FolderList => l.toList.length) folders) (by decide +kernel)

end ModelWorkspace.Startup
