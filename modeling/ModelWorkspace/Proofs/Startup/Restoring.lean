import ModelWorkspace.Proofs.Startup.Repairing

/-! What a workspace gets back that has lost its folders. The model directory follows the model version
first and is opened after that; so the folder that comes back is the bundled one of the version,
whatever directory was configured. -/
namespace ModelWorkspace.Startup

section Restoring

variable {w u : Workbench} {log : List (Workbench × Stage)} {restarting : Bool}

theorem settings_of_restore (allowed : w.refusesFolders = false) (usable : isUnusable w = false)
    (empty : w.folders.folders? = some []) (passage : Alone w [.inspect] log u restarting) :
    u.settings = (forwarded w).settings := by
  obtain ⟨-, -, rfl⟩ | ⟨name, path, -, -, settings, -⟩ := restore_cases allowed usable empty passage
  · rfl
  · exact settings

theorem openable?_of_admitted (given : w.settings.modelDirectory ≠ "")
    (admitted : w.bundle.contains ⟨w.settings.modelDirectory⟩ = true ∨
      w.settings.extendedAccess = true) :
    Cascade.openable? w = (Project.modelName? w.files ⟨w.settings.modelDirectory⟩).map
      (·, ⟨w.settings.modelDirectory⟩) := by
  have nonempty : w.settings.modelDirectory.isEmpty = false := by simpa using given
  simp only [Cascade.openable?, nonempty, Bool.or_eq_true, admitted, Bool.false_eq_true, if_false,
    if_true]

theorem modelPath_of_model? {version : Version} (readable : w.settings.model? = some version) :
    Cascade.modelPath w = w.bundle.pathFor version := by
  rw [Cascade.modelPath, readable]

/-- Settings whose model version can be read and whose model directory declares a project are usable. -/
theorem usable_of_modelName? {version : Version} {name : String}
    (readable : w.settings.model? = some version) (given : w.settings.modelDirectory ≠ "")
    (declares : Project.modelName? w.files ⟨w.settings.modelDirectory⟩ = some name) :
    isUnusable w = false := by
  have there : w.files.exists? ⟨w.settings.modelDirectory⟩ = true :=
    Cascade.exists_of_declaration? given (Project.isSome_of_modelName? declares)
  simp [isUnusable, Cascade.modelVersion_ne_of_model? readable, given, there]

/-- A write that changes the model directory leads to the bundled folder of the version. -/
theorem openable?_forwarded {after : Workbench}
    (written : w.write .modelDirectory (.string (Cascade.modelPath w).text) = .ok after) :
    (forwarded w).settings.modelDirectory = (Cascade.modelPath w).text ∧
      Cascade.openable? (forwarded w) =
        (Project.modelName? (forwarded w).files (Cascade.modelPath w)).map
          (·, Cascade.modelPath w) := by
  have directory : (forwarded w).settings.modelDirectory = (Cascade.modelPath w).text := by
    rw [forwarded, Workbench.tryWrite_of_write written]
    obtain ⟨has, rfl⟩ | ⟨files, rfl⟩ := Workbench.write_cases written
    · exact Setting.Store.text_of_has has
    · exact Setting.Store.text_commit w.settings _ _
  have whole : (⟨(Cascade.modelPath w).text⟩ : Path) = Cascade.modelPath w := by
    cases Cascade.modelPath w
    rfl
  have given : (forwarded w).settings.modelDirectory ≠ "" := by
    rw [directory]
    exact Cascade.text_modelPath_ne w
  have within : (forwarded w).bundle.contains ⟨(forwarded w).settings.modelDirectory⟩ = true := by
    rw [directory, whole, (forwarded_frame w).1]
    exact Cascade.contains_modelPath w
  refine ⟨directory, ?_⟩
  rw [openable?_of_admitted given (.inl within), directory, whole]

/-- A model directory that stays where it is comes back if it is a project that may be opened. -/
theorem restore_of_stays {name : String} (allowed : w.refusesFolders = false)
    (usable : isUnusable w = false) (empty : w.folders.folders? = some [])
    (passage : Alone w [.inspect] log u restarting)
    (found : Cascade.openable? w = some (name, ⟨w.settings.modelDirectory⟩))
    (stays : forwarded w = w) :
    restarting = true ∧
      u.folders.folders? = some [Folder.model name ⟨w.settings.modelDirectory⟩] ∧
      u.settings.modelDirectory = w.settings.modelDirectory := by
  obtain ⟨stuck, -⟩ | ⟨name', path', found', answer, settings, folders⟩ :=
    restore_cases allowed usable empty passage
  · rw [stays, found] at stuck
    cases stuck
  · rw [stays, found] at found'
    cases found'
    exact ⟨answer, folders, by rw [settings, stays]⟩

/-- A model directory that is written anew leads to the bundled folder of the version, and this comes
back if it is a project. -/
theorem restore_of_moves {after : Workbench} (allowed : w.refusesFolders = false)
    (usable : isUnusable w = false) (empty : w.folders.folders? = some [])
    (passage : Alone w [.inspect] log u restarting)
    (written : w.write .modelDirectory (.string (Cascade.modelPath w).text) = .ok after) :
    u.settings.modelDirectory = (Cascade.modelPath w).text ∧
      ((Project.modelName? after.files (Cascade.modelPath w) = none ∧ restarting = false ∧
          u.folders.folders? = some []) ∨
        ∃ other, Project.modelName? after.files (Cascade.modelPath w) = some other ∧
          restarting = true ∧
          u.folders.folders? = some [Folder.model other (Cascade.modelPath w)]) := by
  obtain ⟨directory, opens⟩ := openable?_forwarded written
  have moves : forwarded w = after := by rw [forwarded, Workbench.tryWrite_of_write written]
  have kept : (forwarded w).folders = w.folders := (forwarded_frame w).2.1
  refine ⟨by rw [settings_of_restore allowed usable empty passage, directory], ?_⟩
  obtain ⟨stuck, answer, rfl⟩ | ⟨name, path, found, answer, -, folders⟩ :=
    restore_cases allowed usable empty passage
  · rw [opens, moves, Option.map_eq_none_iff] at stuck
    exact .inl ⟨stuck, answer, (congrArg FolderList.folders? kept).trans empty⟩
  · rw [opens, moves] at found
    obtain ⟨other, declared, same⟩ := Option.map_eq_some_iff.1 found
    obtain ⟨rfl, rfl⟩ := Prod.mk.inj same
    exact .inr ⟨other, declared, answer, folders⟩

/-- A workspace has lost its folders, and its settings name a model version and a project that may be
opened. Start-up brings this project back, and leaves the model directory on it, exactly if it is the
bundled folder of the model version, or the model directory cannot be written. Otherwise the model
directory is on that bundled folder afterwards, and this is what is brought back, if it is a project. -/
theorem restores_configured_folder {version : Version} {name : String}
    (allowed : w.refusesFolders = false) (empty : w.folders.folders? = some [])
    (readable : w.settings.model? = some version) (given : w.settings.modelDirectory ≠ "")
    (declares : Project.modelName? w.files ⟨w.settings.modelDirectory⟩ = some name)
    (admitted : w.bundle.contains ⟨w.settings.modelDirectory⟩ = true ∨
      w.settings.extendedAccess = true) :
    (∃ log u restarting, Alone w [.inspect] log u restarting) ∧
    ∀ log u restarting, Alone w [.inspect] log u restarting →
      ((restarting = true ∧
          u.folders.folders? = some [Folder.model name ⟨w.settings.modelDirectory⟩] ∧
          u.settings.modelDirectory = w.settings.modelDirectory) ↔
        (w.bundle.pathFor version).text = w.settings.modelDirectory ∨
          ∃ e, w.write .modelDirectory (.string (w.bundle.pathFor version).text) = .error e) ∧
      (∀ after, w.write .modelDirectory (.string (w.bundle.pathFor version).text) = .ok after →
        u.settings.modelDirectory = (w.bundle.pathFor version).text ∧
        ((Project.modelName? after.files (w.bundle.pathFor version) = none ∧ restarting = false ∧
            u.folders.folders? = some []) ∨
          ∃ other, Project.modelName? after.files (w.bundle.pathFor version) = some other ∧
            restarting = true ∧
            u.folders.folders? = some [Folder.model other (w.bundle.pathFor version)])) := by
  have usable := usable_of_modelName? readable given declares
  have path := modelPath_of_model? readable
  have found : Cascade.openable? w = some (name, ⟨w.settings.modelDirectory⟩) := by
    rw [openable?_of_admitted given admitted, declares, Option.map_some]
  refine ⟨exists_passage (fun v => ⟨v, rfl⟩) w, fun log u restarting passage => ?_⟩
  have stays := restore_of_stays allowed usable empty passage found
  have moves (after : Workbench)
      (written : w.write .modelDirectory (.string (Cascade.modelPath w).text) = .ok after) :=
    restore_of_moves allowed usable empty passage written
  rw [path] at moves
  refine ⟨⟨fun kept => ?_, ?_⟩, moves⟩
  · cases written : w.write .modelDirectory (.string (w.bundle.pathFor version).text) with
    | error e => exact .inr ⟨e, rfl⟩
    | ok after => exact .inl ((moves after written).1.symm.trans kept.2.2)
  · rintro (same | ⟨e, refused⟩)
    · have has : w.settings.values.has .modelDirectory
          (.string (w.bundle.pathFor version).text) = true :=
        Workbench.has_of_text same.symm (same ▸ given)
      exact stays (by rw [forwarded, path, Workbench.tryWrite_of_has has])
    · exact stays (by rw [forwarded, path, Workbench.tryWrite, refused])

end Restoring

/-- A workspace that has lost its folders, with a project of the user beside the bundled one. -/
def closedModel (directory : String) : Workbench where
  files := {
    entries := [(["b"], FileTree.newFolder), (["b", "ed-fi-model-4.0"], FileTree.newFolder),
      (["b", "ed-fi-model-4.0", "package.json"], Project.packageEntry "Ed-Fi" "4.0.0"),
      (["mine"], FileTree.newFolder),
      (["mine", "package.json"], Project.packageEntry "Ed-Fi" "4.0.0")] }
  settings := { values := [(.modelVersion, .string "4.0.0"), (.modelDirectory, .string directory),
    (.extendedAccess, .bool true)] }
  folders := ⟨some []⟩
  bundle := ⟨⟨"/b"⟩⟩

theorem model?_closedModel (directory : String) :
    (closedModel directory).settings.model? = some (Catalogue.release 4 0 0) := by
  have read : Version.normalize? "4.0.0" = some (Catalogue.release 4 0 0) := by decide +kernel
  exact read

/-- The bundled folder of the model version comes back. -/
theorem restores_configured_folder_bundled :
    ∃ log u, Alone (closedModel "/b/ed-fi-model-4.0") [.inspect] log u true ∧
      u.folders.folders? = some [Folder.model "ed-fi-model-4.0" ⟨"/b/ed-fi-model-4.0"⟩] ∧
      u.settings.modelDirectory = "/b/ed-fi-model-4.0" := by
  have declares : Project.modelName? (closedModel "/b/ed-fi-model-4.0").files
      ⟨(closedModel "/b/ed-fi-model-4.0").settings.modelDirectory⟩ = some "ed-fi-model-4.0" := by
    decide +kernel
  obtain ⟨⟨log, u, restarting, passage⟩, restores⟩ := restores_configured_folder rfl rfl
    (model?_closedModel "/b/ed-fi-model-4.0") (by decide) declares (.inr rfl)
  obtain ⟨rfl, folders, directory⟩ := (restores log u restarting passage).1.2
    (.inl (by decide +kernel))
  exact ⟨log, u, passage, folders, directory⟩

/-- A project of the user gives way to the bundled one, though extended access admits it. -/
theorem configured_folder_gives_way :
    ¬ ∀ (w : Workbench) (version : Version) (name : String), w.refusesFolders = false →
      w.folders.folders? = some [] → w.settings.model? = some version →
      w.settings.modelDirectory ≠ "" →
      Project.modelName? w.files ⟨w.settings.modelDirectory⟩ = some name →
      (w.bundle.contains ⟨w.settings.modelDirectory⟩ = true ∨ w.settings.extendedAccess = true) →
      ∀ log u restarting, Alone w [.inspect] log u restarting →
        restarting = true ∧
        u.folders.folders? = some [Folder.model name ⟨w.settings.modelDirectory⟩] ∧
        u.settings.modelDirectory = w.settings.modelDirectory := by
  intro restores
  have usable : isUnusable (closedModel "/mine") = false := by decide +kernel
  obtain ⟨log, u, restarting, passage⟩ := exists_passage (fun v => ⟨v, rfl⟩) (closedModel "/mine")
  obtain ⟨-, -, directory⟩ := restores _ _ "mine" rfl rfl (model?_closedModel "/mine") (by decide)
    (by decide +kernel) (.inr rfl) log u restarting passage
  rw [settings_of_restore rfl usable rfl passage] at directory
  exact absurd directory (by decide +kernel)

end ModelWorkspace.Startup
