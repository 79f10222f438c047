import ModelWorkspace.Proofs.Files.Modes
import ModelWorkspace.Proofs.Setting.Following
import ModelWorkspace.Proofs.Setting.Writing
import ModelWorkspace.Workbench.Cascade

/-! What the stages of the cascade do to a workbench. Three followers share the work, each with a role
of its own; every stage writes at most one setting, and only one role touches the folders. -/
namespace ModelWorkspace.Cascade

open Json (Value)

/-- The roles of the followers, in the order in which they start. -/
inductive Role
  | platform
  | model
  | directory
  deriving DecidableEq

namespace Role

def key : Role → Setting.Key
  | platform => .platformVersion
  | model => .modelVersion
  | directory => .modelDirectory

def handler : Role → List Stage
  | platform => onPlatformVersion
  | model => onModelVersion
  | directory => onModelDirectory

/-- How many followers start before it. -/
def seat : Role → Nat
  | platform => 0
  | model => 1
  | directory => 2

/-- The setting that the follower writes, if it writes one. -/
def target? : Role → Option Setting.Key
  | platform => some .modelVersion
  | model => some .modelDirectory
  | directory => none

theorem key_ne_of_target? {role : Role} {key : Setting.Key} (writes : role.target? = some key) :
    role.key ≠ key := by
  rintro rfl
  cases role <;> cases writes

theorem key_injective : Function.Injective key := by
  intro a b same
  cases a <;> cases b <;> first | rfl | cases same

theorem seat_injective : Function.Injective seat := by
  intro a b same
  cases a <;> cases b <;> first | rfl | cases same

end Role

namespace Stage

def isFor : Stage → Role → Bool
  | pause, _ => true
  | forwardModelVersion, role => role == .platform
  | forwardModelDirectory, role => role == .model
  | openModelDirectory, role => role == .directory
  | replaceModelFolder .., role => role == .directory
  | answer _, role => role == .directory

/-- The setting that the stage writes, if it writes one. -/
def target? : Stage → Option Setting.Key
  | forwardModelVersion => some .modelVersion
  | forwardModelDirectory => some .modelDirectory
  | _ => none

end Stage

theorem target?_of_isFor {s : Stage} {role : Role} {key : Setting.Key} (own : s.isFor role = true)
    (writes : s.target? = some key) : role.target? = some key := by
  cases s <;> cases role <;> simp_all [Stage.isFor, Stage.target?, Role.target?]

theorem isFor_handler {s : Stage} {role : Role} (mem : s ∈ role.handler) : s.isFor role = true := by
  revert s
  cases role <;> decide

theorem isFor_perform {w : Workbench} {s t : Stage} {role : Role} (own : s.isFor role = true)
    (next : t ∈ (s.perform w).2) : t.isFor role = true := by
  cases s with
  | pause => simp [Stage.perform] at next
  | forwardModelVersion =>
    simp only [Stage.perform] at next
    split at next
    · obtain rfl : t = .pause := by simpa using next
      rfl
    · simp at next
  | forwardModelDirectory => simp [Stage.perform] at next
  | openModelDirectory =>
    simp only [Stage.perform] at next
    split at next
    · obtain rfl | rfl : t = .pause ∨ t = .replaceModelFolder _ _ := by simpa using next
      · rfl
      · exact own
    · obtain rfl : t = .answer false := by simpa using next
      exact own
  | replaceModelFolder name path =>
    obtain rfl | rfl : t = .pause ∨ t = .answer _ := by simpa [Stage.perform] using next
    · rfl
    · exact own
  | answer opened => simp [Stage.perform] at next

/-! ### What stages leave alone -/

theorem tryWrite_frame (w : Workbench) (key : Setting.Key) (t : String) :
    (w.tryWrite key t).bundle = w.bundle ∧ (w.tryWrite key t).folders = w.folders ∧
      (w.tryWrite key t).refusesFolders = w.refusesFolders := by
  obtain same | written := w.tryWrite_cases key t
  · rw [same]
    exact ⟨rfl, rfl, rfl⟩
  · obtain ⟨-, same⟩ | ⟨files, same⟩ := Workbench.write_cases written <;>
      · rw [same]
        exact ⟨rfl, rfl, rfl⟩

/-- An attempt to write changes one setting at most, and raises its event if it does. -/
theorem settings_tryWrite (w : Workbench) (key : Setting.Key) (t : String) :
    (w.tryWrite key t).settings = w.settings ∨
      ∃ value, (w.tryWrite key t).settings = w.settings.commit key value := by
  obtain same | written := w.tryWrite_cases key t
  · exact .inl (congrArg Workbench.settings same)
  · obtain ⟨-, same⟩ | ⟨files, same⟩ := Workbench.write_cases written
    · exact .inl (congrArg Workbench.settings same)
    · exact .inr ⟨_, congrArg Workbench.settings same⟩

theorem get?_tryWrite {key other : Setting.Key} (different : other ≠ key) (w : Workbench)
    (t : String) : (w.tryWrite key t).settings.get? other = w.settings.get? other := by
  obtain same | ⟨value, committed⟩ := settings_tryWrite w key t
  · rw [same]
  · rw [committed, Setting.Store.get?_commit, if_neg different]

/-- To put the model folder in its place leaves settings, bundle and editor alone, and may only make
the folder read-only. -/
theorem replaceModelFolder_frame (w : Workbench) (name : String) (path : Path) :
    (w.replaceModelFolder name path).1.settings = w.settings ∧
      (w.replaceModelFolder name path).1.files = w.bundle.enforceReadOnly w.files path ∧
      (w.replaceModelFolder name path).1.bundle = w.bundle ∧
      (w.replaceModelFolder name path).1.refusesFolders = w.refusesFolders := by
  unfold Workbench.replaceModelFolder Workbench.updateFolders
  cases refuses : w.refusesFolders with
  | true => simp [Workbench.notify]
  | false =>
    simp only [Bool.false_eq_true, if_false]
    cases w.folders.update 0 (if w.folders.toList.isEmpty then 0 else 1)
      [Folder.model name path] <;> simp [Workbench.notify]

/-- The folders behind the first one, without the tag. -/
def otherFolders (w : Workbench) : List Folder := (w.folders.toList.drop 1).map Folder.untag

theorem folders_replaceModelFolder {w : Workbench} (allowed : w.refusesFolders = false)
    (name : String) (path : Path) :
    (w.replaceModelFolder name path).1.folders.folders? =
      some (Folder.model name path :: otherFolders w) := by
  unfold otherFolders
  unfold Workbench.replaceModelFolder Workbench.updateFolders
  simp only [allowed, Bool.false_eq_true, if_false]
  cases folders : w.folders.toList with
  | nil => simp [FolderList.update, FolderList.splice, folders]
  | cons first others =>
    simp [FolderList.update, FolderList.splice, folders, Folder.model]

theorem folders_replaceModelFolder_of_refuses {w : Workbench} (refuses : w.refusesFolders = true)
    (name : String) (path : Path) : (w.replaceModelFolder name path).1.folders = w.folders := by
  simp [Workbench.replaceModelFolder, Workbench.updateFolders, refuses, Workbench.notify]

/-- What is found to be opened is the configured model directory, may be opened, and declares a
project. -/
theorem openable?_eq_some {w : Workbench} {name : String} {path : Path}
    (found : openable? w = some (name, path)) :
    path = ⟨w.settings.modelDirectory⟩ ∧ path.text ≠ "" ∧
      (w.bundle.contains path = true ∨ w.settings.extendedAccess = true) ∧
      Project.modelName? w.files path = some name := by
  simp only [openable?] at found
  split at found
  · cases found
  · rename_i given
    split at found
    · rename_i admitted
      obtain ⟨name, declares, same⟩ := Option.map_eq_some_iff.1 found
      obtain ⟨rfl, rfl⟩ := Prod.mk.inj same
      exact ⟨rfl, by simpa using given, by simpa using admitted, declares⟩
    · cases found

theorem untag_comp_untag : Folder.untag ∘ Folder.untag = Folder.untag := rfl

theorem otherFolders_replaceModelFolder (w : Workbench) (name : String) (path : Path) :
    otherFolders (w.replaceModelFolder name path).1 = otherFolders w := by
  cases refuses : w.refusesFolders with
  | true => rw [otherFolders, folders_replaceModelFolder_of_refuses refuses, otherFolders]
  | false =>
    rw [otherFolders, FolderList.toList, folders_replaceModelFolder refuses, Option.getD_some,
      List.drop_one, List.tail_cons, otherFolders, List.map_map, untag_comp_untag]

theorem read_replaceModelFolder (w : Workbench) (name : String) (path q : Path) :
    (w.replaceModelFolder name path).1.files.read q = w.files.read q := by
  rw [(replaceModelFolder_frame w name path).2.1, Bundle.read_enforceReadOnly]

/-- A stage leaves the settings alone, or commits a value to the one that it writes. -/
theorem settings_perform (w : Workbench) (s : Stage) :
    (s.perform w).1.settings = w.settings ∨
      ∃ key value, s.target? = some key ∧
        (s.perform w).1.settings = w.settings.commit key value := by
  cases s with
  | pause => exact .inl rfl
  | forwardModelVersion =>
    simp only [Stage.perform]
    split
    · rename_i model _
      exact (settings_tryWrite w .modelVersion model.text).imp_right
        fun ⟨value, committed⟩ => ⟨_, value, rfl, committed⟩
    · exact .inl rfl
  | forwardModelDirectory =>
    exact (settings_tryWrite w .modelDirectory (modelPath w).text).imp_right
      fun ⟨value, committed⟩ => ⟨_, value, rfl, committed⟩
  | openModelDirectory =>
    simp only [Stage.perform]
    split <;> exact .inl rfl
  | replaceModelFolder name path => exact .inl (replaceModelFolder_frame w name path).1
  | answer opened => exact .inl rfl

/-- What the third follower does leaves the settings alone. -/
theorem settings_perform_of_directory {s : Stage} (own : s.isFor .directory = true) (w : Workbench) :
    (s.perform w).1.settings = w.settings := by
  obtain same | ⟨key, value, writes, -⟩ := settings_perform w s
  · exact same
  · cases target?_of_isFor own writes

/-- A follower raises no event of the setting that it reacts to. -/
theorem mem_since_perform {w : Workbench} {s : Stage} {role : Role} {position : Nat}
    (own : s.isFor role = true) (seen : position ≤ w.settings.feed.size) :
    role.key ∈ (s.perform w).1.settings.feed.since position ↔
      role.key ∈ w.settings.feed.since position := by
  obtain same | ⟨key, value, writes, committed⟩ := settings_perform w s
  · rw [same]
  · have other := Role.key_ne_of_target? (target?_of_isFor own writes)
    rw [committed, Setting.Store.feed_commit, Setting.Feed.since_raise seen, List.mem_append,
      List.mem_singleton, or_iff_left other]

theorem size_perform (w : Workbench) (s : Stage) :
    w.settings.feed.size ≤ (s.perform w).1.settings.feed.size := by
  obtain same | ⟨key, value, -, committed⟩ := settings_perform w s
  · exact Nat.le_of_eq (congrArg (·.feed.size) same.symm)
  · rw [committed, Setting.Store.feed_commit, Setting.Feed.size_raise]
    exact Nat.le_succ _

/-- No stage changes where the bundled models are, or whether the editor refuses. -/
theorem perform_frame (w : Workbench) (s : Stage) :
    (s.perform w).1.bundle = w.bundle ∧ (s.perform w).1.refusesFolders = w.refusesFolders := by
  cases s with
  | pause => exact ⟨rfl, rfl⟩
  | forwardModelVersion =>
    simp only [Stage.perform]
    split
    · rename_i model _
      have frame := tryWrite_frame w .modelVersion model.text
      exact ⟨frame.1, frame.2.2⟩
    · exact ⟨rfl, rfl⟩
  | forwardModelDirectory =>
    have frame := tryWrite_frame w .modelDirectory (modelPath w).text
    exact ⟨frame.1, frame.2.2⟩
  | openModelDirectory =>
    simp only [Stage.perform]
    split <;> exact ⟨rfl, rfl⟩
  | replaceModelFolder name path => exact (replaceModelFolder_frame w name path).2.2
  | answer opened => exact ⟨rfl, rfl⟩

theorem inMemory_replaceModelFolder {start w : Workbench} (kept : start.InMemory w) (name : String)
    (path : Path) : start.InMemory (w.replaceModelFolder name path).1 where
  memory := by rw [(replaceModelFolder_frame w name path).1, kept.memory]
  reads q := (read_replaceModelFolder w name path q).trans (kept.reads q)

/-- Where the settings are in memory only, stages leave them there, and change nothing that can be
read. -/
theorem inMemory_perform {start w : Workbench} (kept : start.InMemory w) (s : Stage) :
    start.InMemory (s.perform w).1 := by
  cases s with
  | pause | answer _ => exact kept
  | forwardModelVersion =>
    simp only [Stage.perform]
    split
    · exact kept.tryWrite _ _
    · exact kept
  | forwardModelDirectory => exact kept.tryWrite _ _
  | openModelDirectory =>
    simp only [Stage.perform]
    split
    · exact ⟨kept.memory, kept.reads⟩
    · exact kept
  | replaceModelFolder name path => exact inMemory_replaceModelFolder kept name path

theorem otherFolders_perform (w : Workbench) (s : Stage) :
    otherFolders (s.perform w).1 = otherFolders w := by
  cases s with
  | pause | answer _ => rfl
  | forwardModelVersion =>
    simp only [Stage.perform]
    split
    · rw [otherFolders, (tryWrite_frame w .modelVersion _).2.1, otherFolders]
    · rfl
  | forwardModelDirectory =>
    simp only [Stage.perform]
    rw [otherFolders, (tryWrite_frame w .modelDirectory _).2.1, otherFolders]
  | openModelDirectory =>
    simp only [Stage.perform]
    split <;> rfl
  | replaceModelFolder name path => exact otherFolders_replaceModelFolder w name path

theorem folders_perform {w : Workbench} {s : Stage} {role : Role} (own : s.isFor role = true)
    (different : role ≠ .directory) : (s.perform w).1.folders = w.folders := by
  cases s with
  | pause => rfl
  | forwardModelVersion =>
    simp only [Stage.perform]
    split
    · exact (tryWrite_frame w .modelVersion _).2.1
    · rfl
  | forwardModelDirectory => exact (tryWrite_frame w .modelDirectory (modelPath w).text).2.1
  | _ => exact absurd (by simpa [Stage.isFor] using own) different

end ModelWorkspace.Cascade
