import ModelWorkspace.Proofs.Cascade.Duty
import ModelWorkspace.Proofs.Catalogue.Defaults
import ModelWorkspace.Proofs.Project.Declaring

/-! The cascade converges. Whenever its three followers have come to rest, the model version follows
the platform version, the model directory the model version, and the model folder the model
directory, as far as these were changed and nobody else wrote what the followers write. -/
namespace ModelWorkspace

open Cascade (Role Stage)

/-- Since the start writes succeed, and the folders have kept the projects that they held. -/
structure Workbench.Steady (start w : Workbench) : Prop where
  writable : w.IsWritable
  projects : ∀ folder,
    Project.declaration? w.files folder = Project.declaration? start.files folder

theorem Workbench.InMemory.steady {start w : Workbench} (kept : start.InMemory w) :
    start.Steady w := by
  refine ⟨isWritable_of_memory kept.memory, fun folder => ?_⟩
  rw [Project.declaration?, kept.reads, Project.declaration?]

namespace Cascade

/-! ### What is brought about -/

/-- The model version is the one that the platform version asks for, if it asks for one. -/
def FollowsPlatform (w : Workbench) : Prop :=
  ∀ platform model, w.settings.platform? = some platform →
    Catalogue.defaultModelVersion platform = some model →
    ∃ v, w.settings.model? = some v ∧ v.sameAs model = true

/-- The model directory is the bundled folder of the model version. -/
def FollowsModel (w : Workbench) : Prop := w.settings.modelDirectory = (modelPath w).text

/-- The first folder is the model folder at the model directory, if that can be opened there, and no
other folder is tagged. -/
def FollowsDirectory (w : Workbench) : Prop :=
  w.refusesFolders = false → ∀ name path, openable? w = some (name, path) →
    w.folders.folders? = some (Folder.model name path :: otherFolders w)

theorem followsPlatform_congr {w v : Workbench}
    (platform : v.settings.get? .platformVersion = w.settings.get? .platformVersion)
    (model : v.settings.get? .modelVersion = w.settings.get? .modelVersion)
    (follows : FollowsPlatform w) : FollowsPlatform v := by
  rw [FollowsPlatform, Setting.Store.platform?_congr platform, Setting.Store.model?_congr model]
  exact follows

theorem followsPlatform_of_pendingModelVersion? {w : Workbench}
    (pending : pendingModelVersion? w = none) : FollowsPlatform w := by
  intro platform model configured default
  simp only [pendingModelVersion?, configured, default, bind, Option.bind] at pending
  split at pending
  · rename_i same
    exact (Option.any_eq_true _ _).1 same
  · cases pending

/-- The version that is asked for is the one that the platform version starts with. -/
theorem default_of_pendingModelVersion? {w : Workbench} {asked : Version}
    (pending : pendingModelVersion? w = some asked) :
    ∃ platform, w.settings.platform? = some platform ∧
      Catalogue.defaultModelVersion platform = some asked := by
  simp only [pendingModelVersion?, bind, Option.bind_eq_some_iff] at pending
  obtain ⟨platform, configured, model, default, asks⟩ := pending
  split at asks
  · cases asks
  · obtain rfl : model = asked := by simpa using asks
    exact ⟨platform, configured, default⟩

/-- The first follower writes the version that is asked for, unless it is there already. -/
theorem followsPlatform_forward {w : Workbench} (writable : w.IsWritable) :
    FollowsPlatform (Stage.forwardModelVersion.perform w).1 := by
  simp only [Stage.perform]
  cases pending : pendingModelVersion? w with
  | none => exact followsPlatform_of_pendingModelVersion? pending
  | some asked =>
    intro platform model configured default
    obtain ⟨platform', configured', default'⟩ := default_of_pendingModelVersion? pending
    have kept : (w.tryWrite .modelVersion asked.text).settings.platform? = w.settings.platform? :=
      Setting.Store.platform?_congr (get?_tryWrite (by decide) w asked.text)
    obtain rfl : platform' = platform := by
      simpa [configured'] using kept.symm.trans configured
    obtain rfl : asked = model := by simpa [default'] using default
    refine ⟨asked, ?_, asked.sameAs_self⟩
    rw [Setting.Store.model?, Setting.Store.modelVersion, Workbench.text_tryWrite writable]
    exact Catalogue.normalize?_default default

theorem modelPath_congr {w v : Workbench}
    (model : v.settings.get? .modelVersion = w.settings.get? .modelVersion)
    (bundle : v.bundle = w.bundle) : modelPath v = modelPath w := by
  rw [modelPath, Setting.Store.model?_congr model, bundle, modelPath]

theorem followsModel_congr {w v : Workbench}
    (model : v.settings.get? .modelVersion = w.settings.get? .modelVersion)
    (directory : v.settings.get? .modelDirectory = w.settings.get? .modelDirectory)
    (bundle : v.bundle = w.bundle) (follows : FollowsModel w) : FollowsModel v := by
  rw [FollowsModel, modelPath_congr model bundle, Setting.Store.modelDirectory,
    Setting.Store.text_congr directory]
  exact follows

theorem followsModel_forward {w : Workbench} (writable : w.IsWritable) :
    FollowsModel (Stage.forwardModelDirectory.perform w).1 := by
  have path : modelPath (w.tryWrite .modelDirectory (modelPath w).text) = modelPath w :=
    modelPath_congr (get?_tryWrite (by decide) w _) (tryWrite_frame w _ _).1
  simp only [Stage.perform]
  rw [FollowsModel, path]
  exact Workbench.text_tryWrite writable .modelDirectory _

theorem openable?_congr {w v : Workbench}
    (directory : v.settings.get? .modelDirectory = w.settings.get? .modelDirectory)
    (access : v.settings.get? .extendedAccess = w.settings.get? .extendedAccess)
    (bundle : v.bundle = w.bundle)
    (projects : ∀ folder,
      Project.declaration? v.files folder = Project.declaration? w.files folder) :
    openable? v = openable? w := by
  have text : v.settings.modelDirectory = w.settings.modelDirectory :=
    Setting.Store.text_congr directory
  have flag : v.settings.extendedAccess = w.settings.extendedAccess :=
    Setting.Store.flag_congr access
  have name : ∀ folder, Project.modelName? v.files folder = Project.modelName? w.files folder :=
    fun folder => by rw [Project.modelName?, projects, Project.modelName?]
  simp only [openable?, text, flag, bundle, name]

theorem followsDirectory_congr {w v : Workbench} (found : openable? v = openable? w)
    (folders : v.folders = w.folders) (refuses : v.refusesFolders = w.refusesFolders)
    (follows : FollowsDirectory w) : FollowsDirectory v := by
  rw [FollowsDirectory, found, otherFolders, folders, refuses]
  exact follows

theorem followsDirectory_replace {w : Workbench} {name : String} {path : Path}
    (found : openable? w = some (name, path))
    (projects : ∀ folder, Project.declaration? (w.replaceModelFolder name path).1.files folder =
      Project.declaration? w.files folder) :
    FollowsDirectory (w.replaceModelFolder name path).1 := by
  intro allowed name' path' found'
  obtain ⟨settings, -, bundle, refuses⟩ := replaceModelFolder_frame w name path
  have same : openable? (w.replaceModelFolder name path).1 = openable? w :=
    openable?_congr (by rw [settings]) (by rw [settings]) bundle projects
  obtain ⟨rfl, rfl⟩ : name = name' ∧ path = path' := by
    simpa [found] using same.symm.trans found'
  rw [otherFolders_replaceModelFolder]
  exact folders_replaceModelFolder (refuses.symm.trans allowed) name path

end Cascade

namespace Host

open Cascade (FollowsPlatform FollowsModel FollowsDirectory)

/-! ### Three duties -/

def platformDuty : Duty where
  role := .platform
  sound := fun _ _ => True
  serving := (· == .forwardModelVersion)
  settled := FollowsPlatform

def modelDuty : Duty where
  role := .model
  sound := fun _ _ => True
  serving := (· == .forwardModelDirectory)
  settled := FollowsModel

/-- The duty of the third follower. What it is about to open is what can be opened now. -/
def directoryDuty : Duty where
  role := .directory
  sound := fun w s => ∀ name path, s = .replaceModelFolder name path →
    Cascade.openable? w = some (name, path)
  serving := fun
    | .openModelDirectory | .replaceModelFolder .. => true
    | _ => false
  settled := FollowsDirectory

/-- The first follower does its duty while nobody else writes the model version. -/
theorem laws_platformDuty (start : Workbench) :
    platformDuty.Laws (· ≠ .modelVersion) start.Steady where
  fresh := fun _ _ _ => trivial
  begins := ⟨.forwardModelVersion, by decide, rfl⟩
  stays := fun {w s} own _ before _ => by
    refine ⟨fun _ _ => trivial, fun settled => ?_⟩
    cases s with
    | pause => exact settled
    | forwardModelVersion => exact Cascade.followsPlatform_forward before.writable
    | _ => cases own
  called := fun _ _ _ _ _ _ => trivial
  served := fun {w s} _ _ before _ serving => by
    obtain rfl : s = .forwardModelVersion := by simpa [platformDuty] using serving
    exact .inr (Cascade.followsPlatform_forward before.writable)
  others := fun {w after} change _ _ same => by
    refine ⟨fun _ _ => trivial, Cascade.followsPlatform_congr same ?_⟩
    refine change.get?_eq (fun free => free rfl) fun other different writes => ?_
    cases other <;> first | exact different rfl | cases writes

/-- The second follower does its duty while nobody else writes the model directory. -/
theorem laws_modelDuty (start : Workbench) :
    modelDuty.Laws (· ≠ .modelDirectory) start.Steady where
  fresh := fun _ _ _ => trivial
  begins := ⟨.forwardModelDirectory, by decide, rfl⟩
  stays := fun {w s} own _ before _ => by
    refine ⟨fun _ _ => trivial, fun settled => ?_⟩
    cases s with
    | pause => exact settled
    | forwardModelDirectory => exact Cascade.followsModel_forward before.writable
    | _ => cases own
  called := fun _ _ _ _ _ _ => trivial
  served := fun {w s} _ _ before _ serving => by
    obtain rfl : s = .forwardModelDirectory := by simpa [modelDuty] using serving
    exact .inr (Cascade.followsModel_forward before.writable)
  others := fun {w after} change _ _ same => by
    refine ⟨fun _ _ => trivial, Cascade.followsModel_congr same ?_ change.frame.1⟩
    refine change.get?_eq (fun free => free rfl) fun other different writes => ?_
    cases other <;> first | exact different rfl | cases writes

theorem openable?_perform {start w : Workbench} {s : Cascade.Stage}
    (own : s.isFor .directory = true) (before : start.Steady w)
    (now : start.Steady (s.perform w).1) :
    Cascade.openable? (s.perform w).1 = Cascade.openable? w := by
  have settings := Cascade.settings_perform_of_directory own w
  refine Cascade.openable?_congr (by rw [settings]) (by rw [settings])
    (Cascade.perform_frame w s).1 fun folder => ?_
  rw [now.projects, before.projects]

/-- The third follower does its duty while extended access stays as it is. -/
theorem laws_directoryDuty (start : Workbench) :
    directoryDuty.Laws (· ≠ .extendedAccess) start.Steady where
  fresh := fun w s mem name path same => by
    subst same
    revert mem
    simp [directoryDuty, Role.handler, Cascade.onModelDirectory, Cascade.syncModelFolder]
  begins := ⟨.openModelDirectory, by decide, rfl⟩
  stays := fun {w s} own sound before now => by
    have same := openable?_perform own before now
    refine ⟨fun t sound name path is => same.trans (sound name path is), fun settled => ?_⟩
    cases s with
    | pause | answer _ => exact settled
    | openModelDirectory =>
      refine Cascade.followsDirectory_congr same ?_ (Cascade.perform_frame w _).2 settled
      simp only [Cascade.Stage.perform]
      split <;> rfl
    | replaceModelFolder name path =>
      exact Cascade.followsDirectory_replace (sound name path rfl) fun folder =>
        (now.projects folder).trans (before.projects folder).symm
    | _ => cases own
  called := fun {w s} own sound before now t mem name path is => by
    refine (openable?_perform own before now).trans ?_
    subst is
    cases s with
    | openModelDirectory =>
      simp only [Cascade.Stage.perform] at mem
      split at mem
      · rename_i found
        obtain ⟨rfl, rfl⟩ : name = _ ∧ path = _ := by simpa using mem
        exact found
      · simp at mem
    | replaceModelFolder _ _ => simp [Cascade.Stage.perform] at mem
    | _ => cases own <;> cases mem
  served := fun {w s} own sound before now serving => by
    cases s with
    | openModelDirectory =>
      have same := openable?_perform own before now
      simp only [Cascade.Stage.perform] at same ⊢
      split
      · exact .inl ⟨_, List.mem_cons_of_mem _ (List.mem_cons_self ..), rfl⟩
      · rename_i nothing
        refine .inr fun _ name path found => ?_
        cases nothing.symm.trans found
    | replaceModelFolder name path =>
      exact .inr (Cascade.followsDirectory_replace (sound name path rfl) fun folder =>
        (now.projects folder).trans (before.projects folder).symm)
    | _ => cases serving
  others := fun {w after} change before now same => by
    have access : after.settings.get? .extendedAccess = w.settings.get? .extendedAccess := by
      refine change.get?_eq (fun free => free rfl) fun other _ writes => ?_
      cases other <;> cases writes
    have found : Cascade.openable? after = Cascade.openable? w :=
      Cascade.openable?_congr same access change.frame.1 fun folder =>
        (now.projects folder).trans (before.projects folder).symm
    exact ⟨fun t sound name path is => found.trans (sound name path is),
      Cascade.followsDirectory_congr found change.folders change.frame.2⟩

/-! ### Whole runs -/

theorem isCascade_of_unwritten {first : Nat} {outside : Setting.Key → Prop} {moves : List Move}
    (fits : ∀ m ∈ moves, m.IsCascade first outside) {key : Setting.Key}
    (unwritten : ∀ value, Move.write key value ∉ moves) :
    ∀ m ∈ moves, m.IsCascade first (· ≠ key) := by
  intro m mem
  cases m with
  | write other value =>
    rintro rfl
    exact unwritten value mem
  | _ => exact fits _ mem

theorem otherFolders_of_run {start : Host} {token : Nat} {outside : Setting.Key → Prop}
    (live : start.isCancelled token = false) {moves : List Move} {h : Host}
    (run : (start.followCascade token).suspend.run? moves = some h)
    (fits : ∀ m ∈ moves, m.IsCascade start.tasks.length outside) :
    Cascade.otherFolders h.bench = Cascade.otherFolders start.bench := by
  obtain ⟨-, f, -, same⟩ := (atWork_followCascade live).invariant .directory
    (Q := fun _ => True) (P := fun _ w _ => Cascade.otherFolders w = Cascade.otherFolders start.bench)
    (fun _ _ => congrArg Cascade.otherFolders (followCascade_frame start token).2.1)
    (fun _ _ _ _ _ _ _ _ _ _ _ _ advance same => by
      cases advance with
      | @perform s rest phase => exact (Cascade.otherFolders_perform _ s).trans same
      | _ => exact same)
    (fun _ _ _ _ _ _ _ _ change same => by rw [Cascade.otherFolders, change.folders]; exact same)
    moves h run fits fun _ _ _ _ _ => trivial
  exact same

/-- Where the settings are in memory only, writes succeed at all times, and the folders keep their
projects. -/
theorem steady_of_memory {start : Host} {token : Nat} {outside : Setting.Key → Prop}
    (live : start.isCancelled token = false) (memory : start.bench.settings.file = none)
    {moves : List Move} (fits : ∀ m ∈ moves, m.IsCascade start.tasks.length outside) :
    (start.followCascade token).suspend.Throughout moves start.bench.Steady := by
  intro before after h split run
  have bench : (start.followCascade token).suspend.bench = start.bench :=
    (followCascade_frame start token).2.1
  obtain ⟨-, f, -, kept⟩ := (atWork_followCascade live).invariant .directory
    (Q := fun _ => True) (P := fun _ w _ => start.bench.InMemory w)
    (fun _ _ => by rw [bench]; exact ⟨memory, fun _ => rfl⟩)
    (fun _ _ _ _ _ _ _ _ _ _ _ _ advance kept => by
      cases advance with
      | @perform s rest phase => exact Cascade.inMemory_perform kept s
      | _ => exact kept)
    (fun _ _ _ _ _ _ _ _ change kept => by
      cases change with
      | nothing => exact kept
      | @stage other s different own => exact Cascade.inMemory_perform kept s
      | write allowed written => exact kept.write written)
    before h run (fun m mem => fits m (by rw [split]; exact List.mem_append_left _ mem))
    fun _ _ _ _ _ => trivial
  exact kept.steady

/-- Once the followers wait, the cascade has converged, in whatever order they and those who write
settings from outside took their turns: the model version is the one that a changed platform version
asks for, unless it was written from outside; the model directory is the bundled folder of a changed
model version, unless it was written from outside; and the first folder is the model folder at a
changed model directory, if that can be opened, while the folders behind it have only lost a tag. -/
theorem cascade_converges {start : Host} {token : Nat} (live : start.isCancelled token = false)
    {moves : List Move} {h : Host}
    (run : (start.followCascade token).suspend.run? moves = some h)
    (fits : ∀ m ∈ moves, m.IsCascade start.tasks.length (· ≠ .extendedAccess))
    (always : (start.followCascade token).suspend.Throughout moves start.bench.Steady)
    (quiet : h.isQuiet start.tasks.length = true) :
    let changed := h.bench.settings.feed.since start.bench.settings.feed.size
    (.platformVersion ∈ changed → (∀ value, .write .modelVersion value ∉ moves) →
      FollowsPlatform h.bench) ∧
    (.modelVersion ∈ changed → (∀ value, .write .modelDirectory value ∉ moves) →
      FollowsModel h.bench) ∧
    (.modelDirectory ∈ changed → FollowsDirectory h.bench ∧
      Cascade.otherFolders h.bench = Cascade.otherFolders start.bench) := by
  refine ⟨fun changed unwritten => ?_, fun changed unwritten => ?_, fun changed => ⟨?_, ?_⟩⟩
  · exact (laws_platformDuty start.bench).settled_of_run live run
      (isCascade_of_unwritten fits unwritten) always quiet changed
  · exact (laws_modelDuty start.bench).settled_of_run live run
      (isCascade_of_unwritten fits unwritten) always quiet changed
  · exact (laws_directoryDuty start.bench).settled_of_run live run fits always quiet changed
  · exact otherFolders_of_run live run fits

/-- A workspace with one bundled model, and two folders that are none. -/
def twoFolders : Host where
  bench := {
    files := {
      entries := [(["b", "ed-fi-model-3.0"], FileTree.newFolder), (["b"], FileTree.newFolder),
        (["b", "ed-fi-model-3.0", "package.json"], Project.packageEntry "A" "3.0.0")] }
    folders := ⟨some [⟨"ext", ⟨"/ext"⟩, true⟩, ⟨"own", ⟨"/own"⟩, true⟩]⟩
    bundle := ⟨⟨"/b"⟩⟩ }

def someOrder : List (Role × Nat) :=
  [(1, 1, 1), (2, 2, 2), (2, 1, 1), (1, 2, 2), (2, 1, 1), (1, 1, 1), (1, 2, 1), (1, 1, 2), (2, 2, 1),
    (1, 1, 1), (1, 1, 1), (1, 1, 1), (1, 1, 2), (1, 1, 2), (1, 1, 2)].flatMap
      fun (platform, model, directory) =>
        [(.platform, platform), (.model, model), (.directory, directory)]

/-- The platform version is written, and all else follows. -/
theorem cascade_converges_twoFolders :
    ∃ h, (twoFolders.followCascade 0).suspend.run?
        (.write .platformVersion (.string "3.0.0") :: roleTurns 1 someOrder) = some h ∧
      FollowsPlatform h.bench ∧ FollowsModel h.bench ∧ FollowsDirectory h.bench ∧
      Cascade.otherFolders h.bench = [⟨"own", ⟨"/own"⟩, false⟩] := by
  have reached : ((twoFolders.followCascade 0).suspend.run?
      (.write .platformVersion (.string "3.0.0") :: roleTurns 1 someOrder)).any (fun h =>
        h.isQuiet 1 && [.platformVersion, .modelVersion, .modelDirectory].all
          (h.bench.settings.feed.since 0).contains) = true := by decide +kernel
  obtain ⟨h, run, holds⟩ := (Option.any_eq_true _ _).1 reached
  simp only [Bool.and_eq_true, List.all_cons, List.contains_iff_mem] at holds
  obtain ⟨quiet, platform, model, directory, -⟩ := holds
  have unwritten (key : Setting.Key) (other : key ≠ .platformVersion) (value : Json.Value) :
      .write key value ∉ Move.write .platformVersion (.string "3.0.0") :: roleTurns 1 someOrder := by
    intro mem
    obtain same | mem := List.mem_cons.1 mem
    · cases same
      exact other rfl
    · obtain same | ⟨role, same⟩ := mem_roleTurns mem <;> cases same
  have fits : ∀ m ∈ Move.write .platformVersion (.string "3.0.0") :: roleTurns 1 someOrder,
      m.IsCascade 1 (· ≠ .extendedAccess) := by
    intro m mem
    obtain rfl | mem := List.mem_cons.1 mem
    · exact nofun
    · obtain rfl | ⟨role, rfl⟩ := mem_roleTurns mem
      · trivial
      · exact ⟨role, rfl⟩
  obtain ⟨first, second, third⟩ := cascade_converges rfl run fits (steady_of_memory rfl rfl fits) quiet
  exact ⟨h, run, first platform (unwritten _ nofun), second model (unwritten _ nofun),
    (third directory).1, (third directory).2⟩

end Host

end ModelWorkspace
