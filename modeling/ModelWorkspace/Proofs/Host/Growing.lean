import ModelWorkspace.Host.Scenario
import ModelWorkspace.Proofs.Cascade.Stages
import ModelWorkspace.Proofs.Host.Unscheduled

/-! What no stage of a task undoes. A stage changes settings only by events, cancels nobody, and leaves
every other task in its place; only the keeper of an inbox can be ended by someone else. -/
namespace ModelWorkspace

namespace Workbench

theorem grows_tryWrite (w : Workbench) (key : Setting.Key) (t : String) :
    w.settings.Grows (w.tryWrite key t).settings := by
  obtain same | ⟨value, committed⟩ := Cascade.settings_tryWrite w key t
  · rw [same]
    exact w.settings.grows_self
  · rw [committed]
    exact w.settings.grows_commit key value

theorem grows_write {w after : Workbench} {key : Setting.Key} {value : Json.Value}
    (written : w.write key value = .ok after) : w.settings.Grows after.settings := by
  obtain ⟨-, rfl⟩ | ⟨files, rfl⟩ := write_cases written
  · exact after.settings.grows_self
  · exact w.settings.grows_commit key value

end Workbench

theorem Cascade.grows_perform (w : Workbench) (s : Cascade.Stage) :
    w.settings.Grows (s.perform w).1.settings := by
  obtain same | ⟨key, value, -, committed⟩ := settings_perform w s
  · rw [same]
    exact w.settings.grows_self
  · rw [committed]
    exact w.settings.grows_commit key value

namespace Startup

theorem settings_openDefault (w : Workbench) : (openDefault w).settings = w.settings :=
  (Cascade.replaceModelFolder_frame w _ _).1

theorem grows_writeDefaults (w : Workbench) : w.settings.Grows (writeDefaults w).settings :=
  ((w.grows_tryWrite .modelDirectory _).trans (Workbench.grows_tryWrite _ .modelVersion _)).trans
    (Workbench.grows_tryWrite _ .platformVersion _)

theorem grows_perform (w : Workbench) (s : Stage) : w.settings.Grows (s.perform w).1.settings := by
  cases s with
  | inspect =>
    simp only [Stage.perform]
    split
    · split <;> exact w.settings.grows_self
    · split <;> exact w.settings.grows_self
  | cascade s =>
    cases s with
    | answer opened => exact w.settings.grows_self
    | _ =>
      simp only [Stage.perform]
      exact Cascade.grows_perform w _
  | openDefaultFolder | resetFolder =>
    simp only [Stage.perform, settings_openDefault]
    exact w.settings.grows_self
  | resetSettings => exact grows_writeDefaults w
  | done restarting => exact w.settings.grows_self

end Startup

namespace Host

/-- The tasks that the inboxes were made for. -/
def keepers (h : Host) : List Nat := h.inboxes.map (·.task)

/-- Settings have changed only by events, nobody was cancelled, and the tasks are where they were,
unless they keep an inbox. -/
structure Grows (h k : Host) : Prop where
  settings : h.bench.settings.Grows k.bench.settings
  tokens : k.tokens = h.tokens
  keepers : k.keepers = h.keepers
  length : h.tasks.length ≤ k.tasks.length
  tasks : ∀ {id t}, h.tasks[id]? = some t → id ∉ h.keepers → k.tasks[id]? = some t

namespace Grows

theorem of_same {h k : Host} (settings : k.bench.settings = h.bench.settings)
    (tokens : k.tokens = h.tokens) (inboxes : k.inboxes = h.inboxes) (tasks : k.tasks = h.tasks) :
    h.Grows k where
  settings := settings ▸ h.bench.settings.grows_self
  tokens := tokens
  keepers := by rw [Host.keepers, inboxes, Host.keepers]
  length := Nat.le_of_eq (congrArg List.length tasks.symm)
  tasks here _ := tasks ▸ here

theorem refl (h : Host) : h.Grows h := of_same rfl rfl rfl rfl

theorem trans {h k l : Host} (first : h.Grows k) (second : k.Grows l) : h.Grows l where
  settings := first.settings.trans second.settings
  tokens := second.tokens.trans first.tokens
  keepers := second.keepers.trans first.keepers
  length := Nat.le_trans first.length second.length
  tasks here free := second.tasks (first.tasks here free) (first.keepers ▸ free)

theorem of_unscheduled {h k l : Host} (grows : h.Grows k) (same : l.unscheduled = k.unscheduled) :
    h.Grows l := by
  have alike := alike_of_unscheduled same
  have inboxes := congrArg Host.inboxes same
  exact grows.trans
    (of_same (congrArg Workbench.settings alike.bench) alike.tokens inboxes alike.tasks)

end Grows

/-! ### The operations of a host -/

theorem grows_withBench {h : Host} {bench : Workbench}
    (grows : h.bench.settings.Grows bench.settings) : h.Grows (h.withBench bench) := by
  have changed : h.Grows { h with bench } := ⟨grows, rfl, rfl, Nat.le_refl _, fun here _ => here⟩
  exact changed.of_unscheduled (unscheduled_withBench h bench)

theorem grows_inform (h : Host) (text : String) : h.Grows (h.withBench (h.bench.inform text)) :=
  grows_withBench h.bench.settings.grows_self

theorem grows_addTask (h : Host) (t : Task) : h.Grows (h.addTask t) := by
  have added : h.Grows { h with tasks := h.tasks ++ [t] } := by
    refine ⟨h.bench.settings.grows_self, rfl, rfl, by simp, fun here _ => ?_⟩
    obtain ⟨inside, -⟩ := List.getElem?_eq_some_iff.1 here
    rw [List.getElem?_append_left inside]
    exact here
  exact added.of_unscheduled (unscheduled_addTask h t)

theorem grows_follow (h : Host) (token : Nat) (requests : Option Requests) (key : Setting.Key)
    (handler : List Stage) : h.Grows (h.follow token requests key handler) :=
  grows_addTask h _

theorem grows_followCascade (h : Host) (token : Nat) : h.Grows (h.followCascade token) :=
  ((grows_follow h _ _ _ _).trans (grows_follow _ _ _ _ _)).trans (grows_follow _ _ _ _ _)

theorem grows_activating (h : Host) (activating : Option Session) :
    h.Grows { h with activating } := .of_same rfl rfl rfl rfl

theorem grows_followSettings (h : Host) : h.Grows h.followSettings := by
  unfold followSettings
  split
  · rename_i s _
    have following : h.Grows ((h.followCascade s.token).followLicense s.token (.inbox s.inbox)) :=
      (grows_followCascade h s.token).trans (grows_follow _ _ _ _ _)
    exact following.trans (grows_activating _ _)
  · exact .refl h

theorem grows_installSession (h : Host) (restarting : Bool) :
    h.Grows (h.installSession restarting) := by
  unfold installSession
  split
  · rename_i s _
    have installed : h.Grows { h with
        session := some { s with restarting }
        activating := none
        current := .inbox s.inbox } := .of_same rfl rfl rfl rfl
    exact installed.of_unscheduled (unscheduled_wakeOrphans _)
  · exact .refl h

theorem keepers_set {h : Host} {id : Nat} {inbox : Inbox} (found : h.inboxes[id]? = some inbox)
    (queue : List Trigger) :
    (h.inboxes.set id { inbox with queue }).map (·.task) = h.keepers := by
  obtain ⟨inside, rfl⟩ := List.getElem?_eq_some_iff.1 found
  have place : h.keepers[id]? = some (h.inboxes[id]).task := by simp [keepers, inside]
  obtain ⟨_, here⟩ := List.getElem?_eq_some_iff.1 place
  rw [List.map_set, ← here]
  exact List.set_getElem_self _

theorem grows_queue {h : Host} {id : Nat} {inbox : Inbox} (found : h.inboxes[id]? = some inbox)
    (queue : List Trigger) :
    h.Grows { h with inboxes := h.inboxes.set id { inbox with queue } } :=
  ⟨h.bench.settings.grows_self, rfl, keepers_set found queue, Nat.le_refl _, fun here _ => here⟩

theorem grows_send (h : Host) (requests : Requests) (t : Trigger) : h.Grows (h.send requests t) := by
  cases requests with
  | observed => exact .of_same rfl rfl rfl rfl
  | inbox id =>
    simp only [send]
    split
    · rename_i inbox found
      split
      · exact (grows_queue found _).of_unscheduled (unscheduled_wake _ _)
      · exact .refl h
    · exact .refl h

theorem grows_acquire (h : Host) (id reconciler : Nat) (stages : List Stage) :
    h.Grows (h.acquire id reconciler stages).1 := by
  unfold acquire
  split
  · exact .of_same rfl rfl rfl rfl
  · exact .refl h

theorem grows_release (h : Host) (reconciler : Nat) : h.Grows (h.release reconciler) := by
  unfold release
  split
  · rename_i r _
    have released : h.Grows { h with reconcilers := h.reconcilers.set reconciler r.release.1 } :=
      .of_same rfl rfl rfl rfl
    exact released.of_unscheduled (unscheduled_wakeAll _ _)
  · exact .refl h

theorem grows_lint (h : Host) (reconciler : Nat) : h.Grows (h.lint reconciler).1 := by
  unfold lint
  split
  · exact .refl h
  · exact .of_same rfl rfl rfl rfl

theorem grows_onBench {σ : Type} {h : Host} {result : Workbench × List σ}
    (grows : h.bench.settings.Grows result.1.settings) (stage : σ → Stage) :
    h.Grows (h.onBench result stage).1 := grows_withBench grows

theorem grows_startUp {h : Host} {finish : Bool → Host × Flow} (stage : Startup.Stage → Stage)
    (finished : ∀ restarting, h.Grows (finish restarting).1) (s : Startup.Stage) :
    h.Grows (h.startUp stage finish s).1 := by
  unfold startUp
  split
  · exact .refl h
  · exact finished _
  · exact grows_onBench (Startup.grows_perform h.bench s) stage

/-- A place among the tasks is given to another task. -/
theorem grows_setTask_keeper {h : Host} {id : Nat} (keeper : id ∈ h.keepers) (t : Task) :
    h.Grows (h.setTask id t) := by
  refine ⟨h.bench.settings.grows_self, rfl, rfl, ?_, fun {other} _ here free => ?_⟩
  · simp [setTask]
  · have different : id ≠ other := fun same => free (same ▸ keeper)
    rw [setTask, List.getElem?_set_ne different]
    exact here

theorem grows_endSession (h : Host) : h.Grows h.endSession := by
  unfold endSession
  split
  · rename_i s _
    have abandoned : h.Grows (h.abandon s.inbox) := by
      unfold abandon
      split
      · rename_i inbox found
        have keeper : inbox.task ∈ h.keepers := List.mem_map_of_mem (List.mem_of_getElem? found)
        exact (grows_setTask_keeper keeper .ended).trans (.of_same rfl rfl rfl rfl)
      · exact .refl h
    exact abandoned.trans (.of_same rfl rfl rfl rfl)
  · exact .refl h

theorem grows_perform (h : Host) (id : Nat) (s : Stage) : h.Grows (h.perform id s).1 := by
  cases s with
  | pause | publish _ | announceLicense _ | publishAll _ _ => exact .refl h
  | sleep ms =>
    simp only [perform, sleep]
    split
    · exact .refl h
    · exact .of_same rfl rfl rfl rfl
  | cascade s =>
    cases s with
    | pause => exact .refl h
    | _ => exact grows_onBench (Cascade.grows_perform h.bench _) .cascade
  | opening s =>
    cases s with
    | pause => exact .refl h
    | answer opened => exact .of_same rfl rfl rfl rfl
    | _ => exact grows_onBench (Cascade.grows_perform h.bench _) .opening
  | startup s =>
    have answered (restarting : Bool) : h.Grows (h.answer (.restarting restarting)).1 :=
      .of_same rfl rfl rfl rfl
    exact grows_startUp .startup answered s
  | activation s => exact grows_startUp .activation (fun _ => .refl h) s
  | followSettings => exact grows_followSettings h
  | finishActivation restarting =>
    exact (grows_installSession h restarting).trans (.of_same rfl rfl rfl rfl)
  | record p => exact .of_same rfl rfl rfl rfl
  | send requests t => exact grows_send h requests t
  | greet => exact grows_inform h _
  | lint reconciler => exact grows_lint h reconciler
  | reconcile reconciler failures => exact grows_acquire h id reconciler _
  | finishPass reconciler plan =>
    have stored : h.Grows { h with
        reconcilers := h.reconcilers.set reconciler ((h.reconciler reconciler).store plan)
        outcome := if id = main then .plan plan else h.outcome } := .of_same rfl rfl rfl rfl
    exact stored.trans (grows_release _ reconciler)
  | readSnapshot reconciler => exact grows_acquire h id reconciler _
  | finishSnapshot reconciler =>
    exact (grows_release h reconciler).trans (.of_same rfl rfl rfl rfl)
  | built success => exact (grows_inform h _).trans (.of_same rfl rfl rfl rfl)
  | deployed result target => exact (grows_inform h _).trans (.of_same rfl rfl rfl rfl)
  | join tasks =>
    simp only [perform, join]
    split
    · exact .refl h
    · exact .of_same rfl rfl rfl rfl
  | endSession => exact grows_endSession h
  | settle turns =>
    cases turns with
    | zero => exact .refl h
    | succ turns => exact .refl h

/-! ### Turns -/

theorem setTask_same {h : Host} {id : Nat} {t : Task} (task : h.tasks[id]? = some t) :
    h.setTask id t = h := by
  obtain ⟨inside, here⟩ := List.getElem?_eq_some_iff.1 task
  rw [setTask, ← here, List.set_getElem_self]

theorem grows_pass (h : Host) (id : Nat) (flow : Flow) : h.Grows (h.pass id flow) := by
  have ended : h.Grows { h with running := if flow.keepsTurn then h.running else none } :=
    .of_same rfl rfl rfl rfl
  exact ended.of_unscheduled (unscheduled_pass h id flow)

theorem grows_giveWay (h : Host) (id : Nat) : h.Grows (h.giveWay id) := grows_pass h id (.giveWay [])

theorem grows_suspend (h : Host) : h.Grows h.suspend := .of_same rfl rfl rfl rfl

theorem grows_endTask (h : Host) (id : Nat) : (h.setTask id .ended).Grows (h.endTask id) :=
  (Grows.refl _).of_unscheduled (unscheduled_endTask h id)

theorem grows_dropTimers (h : Host) (id : Nat) : h.Grows (h.dropTimers id) :=
  .of_same rfl rfl rfl rfl

/-- Whatever a task does in its turn, of the others it leaves all but a keeper in its place. -/
def OwnTurn (h : Host) (id : Nat) (k : Host) : Prop :=
  ∃ g t, h.Grows g ∧ (g.setTask id t).Grows k

theorem OwnTurn.of_grows {h k : Host} (grows : h.Grows k) (id : Nat) : h.OwnTurn id k := by
  cases task : h.tasks[id]? with
  | some t => exact ⟨h, t, .refl h, (setTask_same task).symm ▸ grows⟩
  | none =>
    have same : h.setTask id .ended = h := by
      rw [setTask, List.set_eq_of_length_le (List.getElem?_eq_none_iff.1 task)]
    exact ⟨h, .ended, .refl h, same.symm ▸ grows⟩

theorem ownTurn_endTask (h : Host) (id : Nat) : h.OwnTurn id (h.endTask id).suspend :=
  ⟨h, .ended, .refl h, (grows_endTask h id).trans (grows_suspend _)⟩

theorem ownTurn_routine (h : Host) (id : Nat) (stages : List Stage) :
    h.OwnTurn id (h.workRoutine id stages) := by
  cases stages with
  | nil =>
    simp only [workRoutine]
    split
    · exact .of_grows (grows_suspend h) id
    · exact ownTurn_endTask h id
  | cons s rest => exact ⟨_, _, grows_perform h id s, grows_pass _ id _⟩

theorem ownTurn_follower (h : Host) (id token : Nat) (requests : Option Requests)
    (f : Setting.Follower Stage) : h.OwnTurn id (h.workFollower id token requests f) := by
  unfold workFollower
  split
  · unfold listen
    split
    · exact ownTurn_endTask h id
    · split
      · refine .of_grows ?_ id
        exact .of_same rfl rfl rfl rfl
      · split
        · exact ⟨h, _, .refl h, grows_giveWay _ id⟩
        · exact ⟨h, _, .refl h, .refl _⟩
  · exact ⟨h, _, .refl h, .refl _⟩
  · exact ⟨h, _, .refl h, .refl _⟩
  · exact ⟨_, _, grows_perform h id _, grows_pass _ id _⟩
  · exact ownTurn_endTask h id

theorem ownTurn_keeper (h : Host) (id inbox : Nat) (period : QuietPeriod) (reconciler : Nat) :
    h.OwnTurn id (h.workKeeper id inbox period reconciler) := by
  unfold workKeeper
  split
  · exact ownTurn_endTask h id
  · rename_i task trigger queue found
    exact ⟨_, _, grows_queue found queue, grows_dropTimers _ id⟩
  · split
    · have ended := ((grows_endTask h id).trans (grows_dropTimers _ id)).trans (grows_suspend _)
      exact ⟨h, _, .refl h, ended⟩
    · split
      · refine ⟨h, .keeper inbox period.finish reconciler, .refl h, ?_⟩
        unfold finishPeriod
        split
        · exact (grows_dropTimers _ id).trans (grows_addTask _ _)
        · exact grows_dropTimers _ id
      · refine .of_grows ?_ id
        unfold awaitTrigger
        split
        · split <;> exact .of_same rfl rfl rfl rfl
        · exact grows_suspend h

theorem ownTurn_work (h : Host) (id : Nat) : h.OwnTurn id (h.work id) := by
  unfold work
  split
  · exact ownTurn_routine h id _
  · exact ownTurn_follower h id _ _ _
  · exact ownTurn_keeper h id _ _ _
  · exact .of_grows (grows_suspend h) id
  · exact .of_grows (grows_suspend h) id

/-- A turn only adds events to the settings, cancels nobody, and makes no inbox. -/
theorem work_frame (h : Host) (id : Nat) :
    h.bench.settings.Grows (h.work id).bench.settings ∧ (h.work id).tokens = h.tokens ∧
      (h.work id).keepers = h.keepers := by
  obtain ⟨g, t, before, after⟩ := ownTurn_work h id
  exact ⟨before.settings.trans after.settings, after.tokens.trans before.tokens,
    after.keepers.trans before.keepers⟩

/-! ### Writes from outside -/

/-- Nothing but settings and the schedule is different, and the report of the step. -/
structure OnlyWritten (h k : Host) : Prop where
  grows : h.Grows k
  tasks : k.tasks = h.tasks
  inboxes : k.inboxes = h.inboxes
  clock : k.clock = h.clock
  timers : k.timers = h.timers
  reconcilers : k.reconcilers = h.reconcilers
  activating : k.activating = h.activating

theorem OnlyWritten.refl (h : Host) : h.OnlyWritten h := ⟨.refl h, rfl, rfl, rfl, rfl, rfl, rfl⟩

theorem onlyWritten_writeAll (h : Host) (writes : List (Setting.Key × Json.Value)) :
    h.OnlyWritten (h.writeAll writes).1 := by
  induction writes generalizing h with
  | nil => exact .refl h
  | cons write writes ih =>
    obtain ⟨key, value⟩ := write
    simp only [writeAll]
    split
    · rename_i bench written
      have same := alike_of_unscheduled (unscheduled_withBench h bench)
      have inboxes := congrArg Host.inboxes (unscheduled_withBench h bench)
      have activating := congrArg Host.activating (unscheduled_withBench h bench)
      have later := ih (h.withBench bench)
      exact ⟨(grows_withBench (Workbench.grows_write written)).trans later.grows,
        later.tasks.trans same.tasks, later.inboxes.trans inboxes, later.clock.trans same.clock,
        later.timers.trans (timers_withBench h bench), later.reconcilers.trans same.reconcilers,
        later.activating.trans activating⟩
    · exact .refl h

theorem onlyWritten_set (h : Host) (writes : List (Setting.Key × Json.Value)) :
    h.OnlyWritten (h.set writes) := by
  have written := onlyWritten_writeAll h writes
  unfold set
  split
  · rename_i k all
    rw [all] at written
    exact written
  · rename_i k e some
    rw [some] at written
    exact ⟨written.grows.trans (.of_same rfl rfl rfl rfl), written.tasks, written.inboxes,
      written.clock, written.timers, written.reconcilers, written.activating⟩

end Host

end ModelWorkspace
