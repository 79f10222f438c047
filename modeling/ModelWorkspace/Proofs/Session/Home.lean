import ModelWorkspace.Proofs.Cascade.Convergence
import ModelWorkspace.Proofs.Files.Paths

/-! Where a session is at home: at the bundled folder of its model version, with the first folder of the
workspace on it. Over a complete bundle the followers only lead from one bundled folder to another,
so whatever they have come to, the settings can be used and the model directory can be opened. -/
namespace ModelWorkspace

open Cascade (Role Stage)

/-- Only notices are new. -/
def Workbench.OnlyNotices (w v : Workbench) : Prop := ∃ notices, v = { w with notices }

namespace Workbench.OnlyNotices

variable {u v w : Workbench}

theorem refl (w : Workbench) : w.OnlyNotices w := ⟨w.notices, rfl⟩

theorem trans (first : u.OnlyNotices v) (second : v.OnlyNotices w) : u.OnlyNotices w := by
  obtain ⟨n, rfl⟩ := first
  obtain ⟨m, rfl⟩ := second
  exact ⟨m, rfl⟩

end Workbench.OnlyNotices

namespace Cascade

/-- The model directory is the bundled folder of the model version. -/
def AtModel (w : Workbench) : Prop :=
  ∃ v, w.settings.model? = some v ∧ w.settings.modelDirectory = (w.bundle.pathFor v).text

/-- The first folder is the one that the model directory names. -/
def PointsAtDirectory (w : Workbench) : Prop :=
  ∃ first others, w.folders.folders? = some (first :: others) ∧
    first.path.text = w.settings.modelDirectory

/-- Every bundled folder of the catalogue holds a project. -/
def HasModels (w : Workbench) : Prop :=
  ∀ entry ∈ Catalogue.modelFolders, (Project.declaration? w.files (w.bundle.folder entry.2)).isSome

/-- Whatever the followers have come to: a model version can be read, the model directory is one of
the bundled folders, each of which holds a project, and there is a folder. -/
structure Housed (w : Workbench) : Prop where
  allowed : w.refusesFolders = false
  models : HasModels w
  version : ∃ v, w.settings.model? = some v
  directory : ∃ entry ∈ Catalogue.modelFolders,
    w.settings.modelDirectory = (w.bundle.folder entry.2).text
  folders : ∃ first others, w.folders.folders? = some (first :: others)

theorem exists_folder_of_modelFolderFor (v : Version) :
    ∃ entry ∈ Catalogue.modelFolders, Catalogue.modelFolderFor v = entry.2 := by
  unfold Catalogue.modelFolderFor
  cases found : Catalogue.lookup Catalogue.modelFolders v with
  | none => exact ⟨(Catalogue.release 4 0 0, Catalogue.baselineFolder), by decide, rfl⟩
  | some folder =>
    obtain ⟨key, mem, -⟩ := Catalogue.mem_of_lookup found
    exact ⟨(key, folder), mem, rfl⟩

/-- The second follower leads to a bundled folder. -/
theorem exists_folder_of_modelPath (w : Workbench) :
    ∃ entry ∈ Catalogue.modelFolders, modelPath w = w.bundle.folder entry.2 := by
  unfold modelPath
  split
  · rename_i v _
    obtain ⟨entry, mem, same⟩ := exists_folder_of_modelFolderFor v
    exact ⟨entry, mem, congrArg w.bundle.folder same⟩
  · exact ⟨(Catalogue.release 4 0 0, Catalogue.baselineFolder), by decide, rfl⟩

theorem text_modelPath_ne (w : Workbench) : (modelPath w).text ≠ "" := by
  obtain ⟨entry, mem, leads⟩ := exists_folder_of_modelPath w
  rw [leads]
  exact Path.text_join_ne w.bundle.root (Catalogue.isStep_modelFolder entry mem)

theorem contains_modelPath (w : Workbench) : w.bundle.contains (modelPath w) = true := by
  obtain ⟨entry, mem, leads⟩ := exists_folder_of_modelPath w
  rw [leads]
  exact Path.isWithin_join w.bundle.root (Catalogue.isStep_modelFolder entry mem)

/-- A folder with a declaration is there. -/
theorem exists_of_declaration? {files : FileTree} {folder : Path} (given : folder.text ≠ "")
    (declared : (Project.declaration? files folder).isSome = true) :
    files.exists? folder = true := by
  obtain ⟨l, leads⟩ := Project.resolve_of_declaration? given declared
  simp [FileTree.exists?, leads, Except.isOk, Except.toBool]

theorem modelVersion_ne_of_model? {s : Setting.Store} {v : Version} (read : s.model? = some v) :
    s.modelVersion ≠ "" := by
  intro empty
  have none : Version.normalize? "" = none := by decide
  rw [Setting.Store.model?, empty, none] at read
  cases read

theorem followsModel_of_atModel {w : Workbench} (home : AtModel w) : FollowsModel w := by
  obtain ⟨v, read, directory⟩ := home
  rw [FollowsModel, directory, modelPath, read]

theorem atModel_of_followsModel {w : Workbench} (read : ∃ v, w.settings.model? = some v)
    (follows : FollowsModel w) : AtModel w := by
  obtain ⟨v, read⟩ := read
  rw [FollowsModel, modelPath, read] at follows
  exact ⟨v, read, follows⟩

theorem housed_of_home {w : Workbench} (allowed : w.refusesFolders = false) (models : HasModels w)
    (home : AtModel w) (points : PointsAtDirectory w) : Housed w := by
  refine ⟨allowed, models, home.imp fun v at_ => at_.1, ?_, ?_⟩
  · obtain ⟨v, -, directory⟩ := home
    obtain ⟨entry, mem, same⟩ := exists_folder_of_modelFolderFor v
    exact ⟨entry, mem, directory.trans (congrArg (fun name => (w.bundle.folder name).text) same)⟩
  · obtain ⟨first, others, folders, -⟩ := points
    exact ⟨first, others, folders⟩

namespace Housed

variable {w : Workbench}

theorem directory_ne (housed : Housed w) : w.settings.modelDirectory ≠ "" := by
  obtain ⟨entry, mem, directory⟩ := housed.directory
  rw [directory]
  exact Path.text_join_ne w.bundle.root (Catalogue.isStep_modelFolder entry mem)

/-- The model directory can be opened at all times. -/
theorem openable (housed : Housed w) :
    ∃ name, openable? w = some (name, ⟨w.settings.modelDirectory⟩) := by
  obtain ⟨entry, mem, directory⟩ := housed.directory
  have step := Catalogue.isStep_modelFolder entry mem
  have path : (⟨w.settings.modelDirectory⟩ : Path) = w.bundle.folder entry.2 := by rw [directory]
  have nonempty : w.settings.modelDirectory.isEmpty = false := by simpa using housed.directory_ne
  have within : w.bundle.contains (w.bundle.folder entry.2) = true :=
    Path.isWithin_join w.bundle.root step
  have name : Project.modelName? w.files (w.bundle.folder entry.2) = some entry.2 := by
    rw [Project.modelName?, housed.models entry mem, if_pos rfl]
    exact Path.fileName?_join w.bundle.root step
  refine ⟨entry.2, ?_⟩
  simp only [openable?, nonempty, Bool.false_eq_true, if_false, path, within, name, Bool.true_or,
    if_true, Option.map_some]

theorem exists_directory (housed : Housed w) :
    w.files.exists? ⟨w.settings.modelDirectory⟩ = true := by
  obtain ⟨entry, mem, directory⟩ := housed.directory
  have step := Catalogue.isStep_modelFolder entry mem
  have path : (⟨w.settings.modelDirectory⟩ : Path) = w.bundle.folder entry.2 := by rw [directory]
  rw [path]
  exact exists_of_declaration? (Path.text_join_ne w.bundle.root step) (housed.models entry mem)

/-- Start-up finds nothing to repair. -/
theorem usable (housed : Housed w) : Startup.isUnusable w = false := by
  have version : w.settings.modelVersion ≠ "" := by
    obtain ⟨v, read⟩ := housed.version
    exact modelVersion_ne_of_model? read
  simp [Startup.isUnusable, version, housed.directory_ne, housed.exists_directory]

theorem congr {v : Workbench} (housed : Housed w)
    (version : v.settings.get? .modelVersion = w.settings.get? .modelVersion)
    (directory : v.settings.get? .modelDirectory = w.settings.get? .modelDirectory)
    (folders : v.folders = w.folders) (bundle : v.bundle = w.bundle)
    (refuses : v.refusesFolders = w.refusesFolders)
    (projects : ∀ folder,
      Project.declaration? v.files folder = Project.declaration? w.files folder) : Housed v where
  allowed := refuses.trans housed.allowed
  models entry mem := by
    rw [projects, bundle]
    exact housed.models entry mem
  version := by
    rw [Setting.Store.model?_congr version]
    exact housed.version
  directory := by
    rw [Setting.Store.modelDirectory, Setting.Store.text_congr directory, bundle]
    exact housed.directory
  folders := folders ▸ housed.folders

theorem notices {v : Workbench} (housed : Housed w) (only : w.OnlyNotices v) : Housed v := by
  obtain ⟨notices, rfl⟩ := only
  exact housed.congr rfl rfl rfl rfl rfl fun _ => rfl

/-- The stages of the cascade lead from home to home, as far as that goes. -/
theorem perform (housed : Housed w) (writable : w.IsWritable) {s : Stage}
    (projects : ∀ folder, Project.declaration? (s.perform w).1.files folder =
      Project.declaration? w.files folder) : Housed (s.perform w).1 := by
  obtain ⟨bundle, refuses⟩ := perform_frame w s
  cases s with
  | pause | answer _ => exact housed
  | forwardModelVersion =>
    simp only [Stage.perform] at projects bundle refuses ⊢
    cases pending : pendingModelVersion? w with
    | none => exact housed
    | some asked =>
      rw [pending] at projects bundle refuses
      obtain ⟨platform, -, default⟩ := default_of_pendingModelVersion? pending
      have same {key : Setting.Key} (other : key ≠ .modelVersion) :=
        get?_tryWrite other w asked.text
      refine ⟨refuses.trans housed.allowed, fun entry mem => ?_, ⟨asked, ?_⟩, ?_, ?_⟩
      · rw [projects, bundle]
        exact housed.models entry mem
      · rw [Setting.Store.model?, Setting.Store.modelVersion, Workbench.text_tryWrite writable]
        exact Catalogue.normalize?_default default
      · rw [Setting.Store.modelDirectory, Setting.Store.text_congr (same (by decide)), bundle]
        exact housed.directory
      · rw [(tryWrite_frame w .modelVersion asked.text).2.1]
        exact housed.folders
  | forwardModelDirectory =>
    obtain ⟨entry, mem, leads⟩ := exists_folder_of_modelPath w
    have frame := tryWrite_frame w .modelDirectory (modelPath w).text
    refine ⟨refuses.trans housed.allowed, fun entry mem => ?_, ?_, ⟨entry, mem, ?_⟩, ?_⟩
    · rw [projects, bundle]
      exact housed.models entry mem
    · simp only [Stage.perform]
      rw [Setting.Store.model?_congr (get?_tryWrite (by decide) w _)]
      exact housed.version
    · rw [bundle, ← leads]
      exact Workbench.text_tryWrite writable .modelDirectory _
    · simp only [Stage.perform, frame.2.1]
      exact housed.folders
  | openModelDirectory =>
    have parts : (Stage.openModelDirectory.perform w).1.settings = w.settings ∧
        (Stage.openModelDirectory.perform w).1.folders = w.folders := by
      simp only [Stage.perform]
      split <;> exact ⟨rfl, rfl⟩
    exact housed.congr (by rw [parts.1]) (by rw [parts.1]) parts.2 bundle refuses projects
  | replaceModelFolder name path =>
    have settings : (w.replaceModelFolder name path).1.settings = w.settings :=
      (replaceModelFolder_frame w name path).1
    refine ⟨refuses.trans housed.allowed, fun entry mem => ?_, ?_, ?_, ?_⟩
    · rw [projects, bundle]
      exact housed.models entry mem
    · simp only [Stage.perform, settings]
      exact housed.version
    · rw [bundle]
      simp only [Stage.perform, settings]
      exact housed.directory
    · exact ⟨_, _, folders_replaceModelFolder housed.allowed name path⟩

/-- So do those who write the platform version. -/
theorem write (housed : Housed w) {after : Workbench} {value : Json.Value}
    (written : w.write .platformVersion value = .ok after)
    (projects : ∀ folder, Project.declaration? after.files folder =
      Project.declaration? w.files folder) : Housed after := by
  obtain ⟨-, rfl⟩ | ⟨files, rfl⟩ := Workbench.write_cases written
  · exact housed
  · refine housed.congr ?_ ?_ rfl rfl rfl projects <;>
      rw [Setting.Store.get?_commit, if_neg (by decide)]

end Housed

theorem pointsAtDirectory_congr {w v : Workbench} (folders : v.folders = w.folders)
    (directory : v.settings.get? .modelDirectory = w.settings.get? .modelDirectory)
    (points : PointsAtDirectory w) : PointsAtDirectory v := by
  rw [PointsAtDirectory, folders, Setting.Store.modelDirectory, Setting.Store.text_congr directory]
  exact points

theorem pointsAtDirectory_replace {w : Workbench} (allowed : w.refusesFolders = false) (name : String) :
    PointsAtDirectory (w.replaceModelFolder name ⟨w.settings.modelDirectory⟩).1 := by
  refine ⟨_, _, folders_replaceModelFolder allowed name _, ?_⟩
  rw [(replaceModelFolder_frame w name _).1]
  rfl

end Cascade

namespace Host

open Cascade (Housed PointsAtDirectory)

/-- What holds of the workbench while the followers of a session are at work, or on their way out. -/
structure AtHome (start w : Workbench) : Prop where
  steady : start.Steady w
  housed : Housed w

theorem AtHome.projects {start w after : Workbench} (home : AtHome start w)
    (steady : start.Steady after) (folder : Path) :
    Project.declaration? after.files folder = Project.declaration? w.files folder :=
  (steady.projects folder).trans (home.steady.projects folder).symm

theorem AtHome.advance {start w after : Workbench} {f g : Setting.Follower Stage}
    (home : AtHome start w) (steady : start.Steady after) (advance : Advance w f after g) :
    AtHome start after := by
  cases advance with
  | perform phase =>
    exact ⟨steady, home.housed.perform home.steady.writable (home.projects steady)⟩
  | _ => exact home

theorem AtHome.write {start w after : Workbench} {value : Json.Value} (home : AtHome start w)
    (steady : start.Steady after) (written : w.write .platformVersion value = .ok after) :
    AtHome start after :=
  ⟨steady, home.housed.write written (home.projects steady)⟩

/-! ### Duties of a session -/

theorem Meanwhile.mono {role : Role} {inner outer : Setting.Key → Prop} {w after : Workbench}
    (change : Meanwhile role inner w after) (more : ∀ key, inner key → outer key) :
    Meanwhile role outer w after := by
  cases change with
  | nothing => exact .nothing
  | stage different own => exact .stage different own
  | write allowed written => exact .write (more _ allowed) written

/-- Laws that hold whoever writes hold while only some do, and more may be known of the workbench. -/
theorem Duty.Laws.restrict {d : Duty} {inner outer : Setting.Key → Prop} {P Q : Workbench → Prop}
    (laws : d.Laws outer P) (more : ∀ key, inner key → outer key) (known : ∀ w, Q w → P w) :
    d.Laws inner Q where
  fresh := laws.fresh
  begins := laws.begins
  stays own sound before now := laws.stays own sound (known _ before) (known _ now)
  called own sound before now := laws.called own sound (known _ before) (known _ now)
  served own sound before now := laws.served own sound (known _ before) (known _ now)
  others change before now := laws.others (change.mono more) (known _ before) (known _ now)

/-- What the third follower is about to open is where the model directory is. -/
def aimingDuty : Duty where
  role := .directory
  sound := fun w s => ∀ name path, s = .replaceModelFolder name path →
    path = ⟨w.settings.modelDirectory⟩
  serving := directoryDuty.serving
  settled := fun _ => True

/-- So it leads the first folder there. -/
def pointingDuty : Duty := { aimingDuty with settled := PointsAtDirectory }

/-- It aims there whatever else happens, also where extended access comes and goes: of a new model
directory it has still to read. -/
theorem laws_aimingDuty (outside : Setting.Key → Prop) (Q : Workbench → Prop) :
    aimingDuty.Laws outside Q where
  fresh := fun w s mem name path same => by
    subst same
    revert mem
    simp [aimingDuty, Role.handler, Cascade.onModelDirectory, Cascade.syncModelFolder]
  begins := ⟨.openModelDirectory, by decide, rfl⟩
  stays := fun {w s} own _ _ _ => by
    refine ⟨fun t sound name path is => ?_, id⟩
    rw [Cascade.settings_perform_of_directory own]
    exact sound name path is
  called := fun {w s} own _ _ _ t mem name path is => by
    rw [Cascade.settings_perform_of_directory own]
    subst is
    cases s with
    | openModelDirectory =>
      simp only [Cascade.Stage.perform] at mem
      split at mem
      · rename_i found
        obtain ⟨rfl, rfl⟩ : name = _ ∧ path = _ := by simpa using mem
        exact (Cascade.openable?_eq_some found).1
      · simp at mem
    | replaceModelFolder _ _ => simp [Cascade.Stage.perform] at mem
    | _ => cases own <;> cases mem
  served := fun _ _ _ _ _ => .inr trivial
  others := fun {w after} _ _ _ same => by
    have text : after.settings.modelDirectory = w.settings.modelDirectory :=
      Setting.Store.text_congr same
    refine ⟨fun t sound name path is => ?_, id⟩
    rw [text]
    exact sound name path is

theorem laws_modelDuty_atHome (start : Workbench) :
    modelDuty.Laws (· = .platformVersion) (AtHome start) :=
  (laws_modelDuty start).restrict (fun _ same => same ▸ nofun) fun _ home => home.steady

theorem laws_pointingDuty (start : Workbench) :
    pointingDuty.Laws (· = .platformVersion) (AtHome start) := by
  have laws := laws_aimingDuty (· = .platformVersion) (AtHome start)
  refine ⟨laws.fresh, laws.begins, fun {w s} own sound before now => ?_, laws.called,
    fun {w s} own sound before now serving => ?_, fun {w after} change before now same => ?_⟩
  · refine ⟨(laws.stays own sound before now).1, fun settled => ?_⟩
    cases s with
    | pause | answer _ => exact settled
    | openModelDirectory =>
      refine Cascade.pointsAtDirectory_congr ?_ ?_ settled <;>
      · simp only [Cascade.Stage.perform]
        split <;> rfl
    | replaceModelFolder name path =>
      obtain rfl := sound name path rfl
      exact Cascade.pointsAtDirectory_replace before.housed.allowed name
    | _ => cases own
  · cases s with
    | openModelDirectory =>
      obtain ⟨name, found⟩ := before.housed.openable
      simp only [Cascade.Stage.perform, found]
      exact .inl ⟨_, List.mem_cons_of_mem _ (List.mem_cons_self ..), rfl⟩
    | replaceModelFolder name path =>
      obtain rfl := sound name path rfl
      exact .inr (Cascade.pointsAtDirectory_replace before.housed.allowed name)
    | _ => cases serving
  · exact ⟨(laws.others change before now same).1,
      Cascade.pointsAtDirectory_congr change.folders same⟩

end Host

end ModelWorkspace
