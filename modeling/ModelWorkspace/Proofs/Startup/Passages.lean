import ModelWorkspace.Proofs.Cascade.Stages
import ModelWorkspace.Workbench.Startup

/-! Passages through the stages of start-up, from its look at the settings to its answer. There are four
kinds of them, by what that look finds, and each has a form of its own: what is done, in which
order, and where the others get their turns in between. -/
namespace ModelWorkspace.Startup

/-- A stage that is done on the workbench. The others give way, or are the end. -/
def Stage.isWork : Stage → Bool
  | .cascade .pause | .done _ => false
  | _ => true

theorem fst_perform_cascade (w : Workbench) (s : Cascade.Stage) :
    (Stage.perform w (.cascade s)).1 = (s.perform w).1 := by
  cases s with
  | answer opened => rfl
  | _ => simp only [Stage.perform]

/-- The stages of start-up, one after the other, until one of them is the end. Where it pauses the
others have their turns. The log has each stage that is done with the workbench before it. -/
inductive Passage (others : Workbench → Workbench → Prop) :
    Workbench → List Stage → List (Workbench × Stage) → Workbench → Bool → Prop
  | done {w : Workbench} {restarting : Bool} {rest : List Stage} :
      Passage others w (.done restarting :: rest) [] w restarting
  | pause {w v u : Workbench} {rest : List Stage} {log : List (Workbench × Stage)}
      {restarting : Bool} (meanwhile : others w v) (passage : Passage others v rest log u restarting) :
      Passage others w (.cascade .pause :: rest) log u restarting
  | stage {w u : Workbench} {s : Stage} {rest : List Stage} {log : List (Workbench × Stage)}
      {restarting : Bool} (works : s.isWork = true)
      (passage : Passage others (s.perform w).1 ((s.perform w).2 ++ rest) log u restarting) :
      Passage others w (s :: rest) ((w, s) :: log) u restarting

/-- A passage in which the others leave everything as it is. -/
abbrev Alone : Workbench → List Stage → List (Workbench × Stage) → Workbench → Bool → Prop :=
  Passage Eq

section Passages

variable {others : Workbench → Workbench → Prop} {w u : Workbench} {s : Stage} {rest : List Stage}
  {log : List (Workbench × Stage)} {restarting answer : Bool}

theorem passage_done_iff :
    Passage others w (.done answer :: rest) log u restarting ↔
      log = [] ∧ u = w ∧ restarting = answer := by
  constructor
  · intro passage
    cases passage with
    | done => exact ⟨rfl, rfl, rfl⟩
    | stage works => cases works
  · rintro ⟨rfl, rfl, rfl⟩
    exact .done

theorem passage_pause_iff :
    Passage others w (.cascade .pause :: rest) log u restarting ↔
      ∃ v, others w v ∧ Passage others v rest log u restarting := by
  constructor
  · intro passage
    cases passage with
    | pause meanwhile passage => exact ⟨_, meanwhile, passage⟩
    | stage works => cases works
  · rintro ⟨v, meanwhile, passage⟩
    exact .pause meanwhile passage

theorem passage_stage_iff (works : s.isWork = true) :
    Passage others w (s :: rest) log u restarting ↔
      ∃ later, log = (w, s) :: later ∧
        Passage others (s.perform w).1 ((s.perform w).2 ++ rest) later u restarting := by
  constructor
  · intro passage
    cases passage with
    | done => cases works
    | pause => cases works
    | stage _ passage => exact ⟨_, rfl, passage⟩
  · rintro ⟨later, rfl, passage⟩
    exact .stage works passage

/-! ### What the look at the settings leads to -/

/-- Without a workspace, unusable settings bring the default folder and the end. -/
theorem passage_closed_iff (unusable : isUnusable w = true) (closed : w.folders.folders? = none) :
    Passage others w [.inspect] log u restarting ↔
      ∃ x, others (w.inform modifyNotice) x ∧ log = [(w, .inspect), (x, .openDefaultFolder)] ∧
        u = openDefault x ∧ restarting = true := by
  rw [passage_stage_iff rfl]
  simp only [Stage.perform, unusable, closed, if_true, List.cons_append, List.nil_append,
    passage_pause_iff, passage_stage_iff (s := .openDefaultFolder) rfl, passage_done_iff]
  constructor
  · rintro ⟨_, rfl, x, turn, _, rfl, rfl, rfl, rfl⟩
    exact ⟨x, turn, rfl, rfl, rfl⟩
  · rintro ⟨x, turn, rfl, rfl, rfl⟩
    exact ⟨_, rfl, x, turn, _, rfl, rfl, rfl, rfl⟩

/-- In a workspace, unusable settings bring the default folder and the default settings, whatever
becomes of the folder. -/
theorem passage_reset_iff {folders : List Folder} (unusable : isUnusable w = true)
    (isOpen : w.folders.folders? = some folders) :
    Passage others w [.inspect] log u restarting ↔
      ∃ x y, others (w.inform switchNotice) x ∧ others (openDefault x) y ∧
        others (writeDefaults y) u ∧
        log = [(w, .inspect), (x, .resetFolder), (y, .resetSettings)] ∧ restarting = false := by
  rw [passage_stage_iff rfl]
  simp only [Stage.perform, unusable, isOpen, if_true, List.cons_append, List.nil_append,
    passage_pause_iff, passage_stage_iff (s := .resetFolder) rfl,
    passage_stage_iff (s := .resetSettings) rfl, passage_done_iff]
  constructor
  · rintro ⟨_, rfl, x, turn, _, rfl, y, turn', _, rfl, v, last, rfl, rfl, rfl⟩
    exact ⟨x, y, turn, turn', last, rfl, rfl⟩
  · rintro ⟨x, y, turn, turn', last, rfl, rfl⟩
    exact ⟨_, rfl, x, turn, _, rfl, y, turn', _, rfl, u, last, rfl, rfl, rfl⟩

/-- The workbench on which the model directory follows the model version. -/
def forwarded (w : Workbench) : Workbench :=
  w.tryWrite .modelDirectory (Cascade.modelPath w).text

/-- In a workspace that has lost its folders, the model directory follows the model version before
the attempt to open it. -/
theorem passage_restore_iff (usable : isUnusable w = false)
    (empty : w.folders.folders? = some []) :
    Passage others w [.inspect] log u restarting ↔
      ∃ x y later, others (w.inform modifyNotice) x ∧ others (forwarded x) y ∧
        log = (w, .inspect) :: (x, .cascade .forwardModelDirectory) :: later ∧
        Passage others y (Cascade.syncModelFolder.map .cascade) later u restarting := by
  rw [passage_stage_iff rfl]
  simp only [Stage.perform, usable, empty, if_true, if_false, Bool.false_eq_true,
    Cascade.syncModelDirectory, List.map_cons, List.map_nil, List.cons_append, List.nil_append,
    List.append_nil, passage_pause_iff, Cascade.Stage.perform,
    passage_stage_iff (s := .cascade .forwardModelDirectory) rfl]
  constructor
  · rintro ⟨_, rfl, x, turn, later, rfl, y, turn', passage⟩
    exact ⟨x, y, later, turn, turn', rfl, passage⟩
  · rintro ⟨x, y, later, turn, turn', rfl, passage⟩
    exact ⟨_, rfl, x, turn, later, rfl, y, turn', passage⟩

/-- What can be used, and has folders or no workspace, is left alone. -/
theorem passage_healthy_iff (usable : isUnusable w = false)
    (kept : w.folders.folders? ≠ some []) :
    Passage others w [.inspect] log u restarting ↔
      log = [(w, .inspect)] ∧ u = w ∧ restarting = false := by
  rw [passage_stage_iff rfl]
  simp only [Stage.perform, usable, kept, if_false, Bool.false_eq_true, List.cons_append,
    passage_done_iff]
  constructor
  · rintro ⟨_, rfl, rfl, rfl, rfl⟩
    exact ⟨rfl, rfl, rfl⟩
  · rintro ⟨rfl, rfl, rfl⟩
    exact ⟨_, rfl, rfl, rfl, rfl⟩

/-- The attempt to open the model directory answers for start-up: the editor restarts exactly if the
attempt changed the folders. -/
theorem passage_attempt_iff :
    Passage others w (Cascade.syncModelFolder.map .cascade) log u restarting ↔
      ∃ v, others w v ∧
        ((Cascade.openable? v = none ∧ u = v ∧ restarting = false ∧
            log = [(v, .cascade .openModelDirectory), (v, .cascade (.answer false))]) ∨
          ∃ name path x, Cascade.openable? v = some (name, path) ∧
            others (v.inform Cascade.updateNotice) x ∧
            others (x.replaceModelFolder name path).1 u ∧
            restarting = (x.replaceModelFolder name path).2 ∧
            log = [(v, .cascade .openModelDirectory),
              (x, .cascade (.replaceModelFolder name path)),
              (u, .cascade (.answer (x.replaceModelFolder name path).2))]) := by
  simp only [Cascade.syncModelFolder, List.map_cons, List.map_nil, passage_pause_iff,
    passage_stage_iff (s := .cascade .openModelDirectory) rfl, Stage.perform,
    Cascade.Stage.perform]
  refine exists_congr fun v => and_congr_right fun _ => ?_
  cases found : Cascade.openable? v with
  | none =>
    simp only [List.map_cons, List.map_nil, List.cons_append, List.nil_append,
      passage_stage_iff (s := .cascade (.answer _)) rfl, Stage.perform, passage_done_iff]
    constructor
    · rintro ⟨_, rfl, _, rfl, rfl, rfl, rfl⟩
      exact .inl ⟨trivial, rfl, rfl, rfl⟩
    · rintro (⟨-, rfl, rfl, rfl⟩ | ⟨_, _, _, other, -⟩)
      · exact ⟨_, rfl, _, rfl, rfl, rfl, rfl⟩
      · cases other
  | some asked =>
    obtain ⟨name, path⟩ := asked
    simp only [List.map_cons, List.map_nil, List.cons_append, List.nil_append, passage_pause_iff,
      passage_stage_iff (s := .cascade (.replaceModelFolder _ _)) rfl,
      passage_stage_iff (s := .cascade (.answer _)) rfl, Stage.perform, Cascade.Stage.perform,
      passage_done_iff]
    constructor
    · rintro ⟨_, rfl, x, turn, _, rfl, y, last, _, rfl, rfl, rfl, rfl⟩
      exact .inr ⟨name, path, x, rfl, turn, last, rfl, rfl⟩
    · rintro (⟨other, -⟩ | ⟨_, _, x, same, turn, last, rfl, rfl⟩)
      · cases other
      · cases same
        exact ⟨_, rfl, x, turn, _, rfl, u, last, _, rfl, rfl, rfl, rfl⟩

theorem exists_attempt (turn : ∀ v, ∃ x, others v x) (w : Workbench) :
    ∃ log u restarting,
      Passage others w (Cascade.syncModelFolder.map .cascade) log u restarting := by
  obtain ⟨v, begins⟩ := turn w
  cases found : Cascade.openable? v with
  | none =>
    exact ⟨_, _, _, passage_attempt_iff.2 ⟨v, begins, .inl ⟨found, rfl, rfl, rfl⟩⟩⟩
  | some asked =>
    obtain ⟨x, goesOn⟩ := turn (v.inform Cascade.updateNotice)
    obtain ⟨u, ends⟩ := turn (x.replaceModelFolder asked.1 asked.2).1
    exact ⟨_, u, _, passage_attempt_iff.2
      ⟨v, begins, .inr ⟨asked.1, asked.2, x, found, goesOn, ends, rfl, rfl⟩⟩⟩

/-- Start-up comes to its end if the others do. -/
theorem exists_passage (turn : ∀ v, ∃ x, others v x) (w : Workbench) :
    ∃ log u restarting, Passage others w [.inspect] log u restarting := by
  cases usable : isUnusable w with
  | true =>
    cases folders : w.folders.folders? with
    | none =>
      obtain ⟨x, begins⟩ := turn (w.inform modifyNotice)
      exact ⟨_, _, _, (passage_closed_iff usable folders).2 ⟨x, begins, rfl, rfl, rfl⟩⟩
    | some list =>
      obtain ⟨x, begins⟩ := turn (w.inform switchNotice)
      obtain ⟨y, goesOn⟩ := turn (openDefault x)
      obtain ⟨u, ends⟩ := turn (writeDefaults y)
      exact ⟨_, u, _, (passage_reset_iff usable folders).2 ⟨x, y, begins, goesOn, ends, rfl, rfl⟩⟩
  | false =>
    by_cases empty : w.folders.folders? = some []
    · obtain ⟨x, begins⟩ := turn (w.inform modifyNotice)
      obtain ⟨y, goesOn⟩ := turn (forwarded x)
      obtain ⟨later, u, restarting, attempt⟩ := exists_attempt turn y
      exact ⟨_, u, restarting,
        (passage_restore_iff usable empty).2 ⟨x, y, later, begins, goesOn, rfl, attempt⟩⟩
    · exact ⟨_, _, _, (passage_healthy_iff usable empty).2 ⟨rfl, rfl, rfl⟩⟩

end Passages

end ModelWorkspace.Startup
