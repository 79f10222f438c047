import ModelWorkspace.Proofs.Folder.Replacing
import ModelWorkspace.Proofs.Startup.Passages

/-! When start-up announces a restart. The editor restarts where its folders are changed, so the answer
that it does should rest on a change that the editor has accepted. It does for settings that can be
used; without a workspace nobody looks at what the editor says. -/
namespace ModelWorkspace.Startup

/-- What a stage asks the editor for, if it asks it to change the folders: the workbench after it, and
whether the editor has accepted. -/
def request? (w : Workbench) : Stage → Option (Workbench × Bool)
  | .cascade (.replaceModelFolder name path) => some (w.replaceModelFolder name path)
  | .openDefaultFolder | .resetFolder =>
    some (w.replaceModelFolder Catalogue.defaultFolderName w.bundle.defaultPath)
  | _ => none

/-- Whether a stage asked the editor to change the folders, and the editor accepted. -/
def isAccepted (entry : Workbench × Stage) : Bool := (request? entry.1 entry.2).any (·.2)

theorem replaces_of_request? {w : Workbench} {s : Stage} {result : Workbench × Bool}
    (asked : request? w s = some result) :
    ∃ name path, result = w.replaceModelFolder name path ∧ (s.perform w).1 = result.1 := by
  cases s with
  | cascade s =>
    cases s with
    | replaceModelFolder name path =>
      obtain rfl := Option.some.inj asked
      exact ⟨name, path, rfl, rfl⟩
    | _ => cases asked
  | openDefaultFolder | resetFolder =>
    obtain rfl := Option.some.inj asked
    exact ⟨_, _, rfl, rfl⟩
  | _ => cases asked

/-- No other stage touches the folders. -/
theorem folders_perform_of_request?_eq_none {w : Workbench} {s : Stage}
    (asked : request? w s = none) : (s.perform w).1.folders = w.folders := by
  cases s with
  | inspect =>
    simp only [Stage.perform]
    split
    · split <;> rfl
    · split <;> rfl
  | cascade s =>
    cases s with
    | replaceModelFolder name path => cases asked
    | answer opened | pause => rfl
    | forwardModelVersion =>
      rw [fst_perform_cascade]
      exact Cascade.folders_perform (show Cascade.Stage.isFor _ .platform = true from rfl) (by decide)
    | forwardModelDirectory =>
      rw [fst_perform_cascade]
      exact Cascade.folders_perform (show Cascade.Stage.isFor _ .model = true from rfl) (by decide)
    | openModelDirectory =>
      simp only [fst_perform_cascade, Cascade.Stage.perform]
      split <;> rfl
  | openDefaultFolder | resetFolder => cases asked
  | resetSettings => simp only [Stage.perform, writeDefaults, Cascade.tryWrite_frame]
  | done restarting => rfl

section Answers

variable (w : Workbench) (name : String) (path : Path)

theorem replaceModelFolder_answer : (w.replaceModelFolder name path).2 = !w.refusesFolders := by
  cases refuses : w.refusesFolders with
  | false => exact w.replaceModelFolder_accepted name path refuses
  | true => simp [Workbench.replaceModelFolder, Workbench.updateFolders, refuses]

@[simp] theorem isAccepted_replaceModelFolder :
    isAccepted (w, .cascade (.replaceModelFolder name path)) = !w.refusesFolders :=
  replaceModelFolder_answer w name path

@[simp] theorem isAccepted_openDefaultFolder :
    isAccepted (w, .openDefaultFolder) = !w.refusesFolders :=
  replaceModelFolder_answer w _ _

@[simp] theorem isAccepted_inspect : isAccepted (w, .inspect) = false := rfl

@[simp] theorem isAccepted_forwardModelDirectory :
    isAccepted (w, .cascade .forwardModelDirectory) = false := rfl

@[simp] theorem isAccepted_openModelDirectory :
    isAccepted (w, .cascade .openModelDirectory) = false := rfl

@[simp] theorem isAccepted_answer (opened : Bool) :
    isAccepted (w, .cascade (.answer opened)) = false := rfl

end Answers

/-- What the editor has not accepted leaves the folders as they are. -/
theorem folders_perform_of_not_isAccepted {w : Workbench} {s : Stage}
    (refused : isAccepted (w, s) = false) : (s.perform w).1.folders = w.folders := by
  cases asked : request? w s with
  | none => exact folders_perform_of_request?_eq_none asked
  | some result =>
    obtain ⟨name, path, rfl, same⟩ := replaces_of_request? asked
    have refuses : w.refusesFolders = true := by
      simpa [isAccepted, asked, replaceModelFolder_answer] using refused
    rw [same]
    exact Cascade.folders_replaceModelFolder_of_refuses refuses name path

variable {others : Workbench → Workbench → Prop} {w u : Workbench}
  {log : List (Workbench × Stage)} {restarting : Bool}

/-- An attempt to open the model directory tells the truth. -/
theorem isAccepted_of_attempt (attempt : Passage others w
    (Cascade.syncModelFolder.map .cascade) log u restarting) :
    restarting = true ↔ ∃ entry ∈ log, isAccepted entry = true := by
  obtain ⟨v, -, ⟨-, -, rfl, rfl⟩ | ⟨name, path, x, -, -, -, rfl, rfl⟩⟩ :=
    passage_attempt_iff.1 attempt
  · simp
  · simp [replaceModelFolder_answer]

/-- With settings that can be used, start-up announces a restart exactly if the editor accepted a
change of the folders meanwhile. With others, it announces one exactly if there was no workspace. So
a restart is announced and not coming exactly where there was none, and the editor refused to open
the default folder in it. -/
theorem restarts_of_accepted (passage : Passage others w [.inspect] log u restarting) :
    (isUnusable w = false → (restarting = true ↔ ∃ entry ∈ log, isAccepted entry = true)) ∧
    (isUnusable w = true → (restarting = true ↔ w.folders.folders? = none)) ∧
    ((restarting = true ∧ ∀ entry ∈ log, isAccepted entry = false) ↔
      isUnusable w = true ∧ w.folders.folders? = none ∧
        ∃ x, (x, .openDefaultFolder) ∈ log ∧ x.refusesFolders = true) := by
  cases usable : isUnusable w with
  | false =>
    have truth : restarting = true ↔ ∃ entry ∈ log, isAccepted entry = true := by
      by_cases empty : w.folders.folders? = some []
      · obtain ⟨x, y, later, -, -, rfl, attempt⟩ := (passage_restore_iff usable empty).1 passage
        simpa using isAccepted_of_attempt attempt
      · obtain ⟨rfl, -, rfl⟩ := (passage_healthy_iff usable empty).1 passage
        simp
    refine ⟨fun _ => truth, nofun, iff_of_false ?_ fun ⟨other, _⟩ => nomatch other⟩
    rintro ⟨announced, nothing⟩
    obtain ⟨entry, mem, accepted⟩ := truth.1 announced
    exact absurd accepted (by rw [nothing entry mem]; decide)
  | true =>
    cases folders : w.folders.folders? with
    | none =>
      obtain ⟨x, -, rfl, -, rfl⟩ := (passage_closed_iff usable folders).1 passage
      simp
    | some folders' =>
      obtain ⟨x, y, -, -, -, rfl, rfl⟩ := (passage_reset_iff usable folders).1 passage
      simp

/-- An editor without a workspace. It may refuse to open one. -/
def withoutWorkspace (refusesFolders : Bool) : Workbench where
  bundle := ⟨⟨"/b"⟩⟩
  refusesFolders

theorem passage_withoutWorkspace (refuses : Bool) :
    ∃ log u, Alone (withoutWorkspace refuses) [.inspect] log u true ∧
      ∀ x, (x, .openDefaultFolder) ∈ log ↔ x = (withoutWorkspace refuses).inform modifyNotice := by
  refine ⟨_, _, (passage_closed_iff rfl rfl).2 ⟨_, rfl, rfl, rfl, rfl⟩, fun x => ?_⟩
  simp

/-- The default folder is accepted by an editor that refuses nothing. -/
theorem restarts_of_accepted_opened :
    ∃ log u, Alone (withoutWorkspace false) [.inspect] log u true ∧
      ¬ ∀ entry ∈ log, isAccepted entry = false := by
  obtain ⟨log, u, passage, opens⟩ := passage_withoutWorkspace false
  refine ⟨log, u, passage, fun nothing => ?_⟩
  obtain ⟨-, -, x, mem, refuses⟩ := (restarts_of_accepted passage).2.2.1 ⟨rfl, nothing⟩
  obtain rfl := (opens x).1 mem
  cases refuses

/-- An editor that refuses to open the default folder has its restart announced all the same. -/
theorem announced_restart_is_not_coming :
    ¬ ∀ others w log u, Passage others w [.inspect] log u true →
      ∃ entry ∈ log, isAccepted entry = true := by
  intro coming
  have passage : Alone (withoutWorkspace true) [.inspect] _ _ true :=
    (passage_closed_iff rfl rfl).2 ⟨_, rfl, rfl, rfl, rfl⟩
  obtain ⟨entry, mem, accepted⟩ := coming _ _ _ _ passage
  obtain rfl | rfl : entry = _ ∨ entry = _ := by simpa using mem
  · cases accepted
  · simp [withoutWorkspace, Workbench.inform, Workbench.notify] at accepted

end ModelWorkspace.Startup
