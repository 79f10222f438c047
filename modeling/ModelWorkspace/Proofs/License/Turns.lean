import ModelWorkspace.Proofs.License.Stages

/-! A turn of a task as it looks from the tasks. A turn either does the first stage of its task, or does
no stage at all; in both cases the other tasks stay in their places, as long as no session ends. -/
namespace ModelWorkspace.Host

open Cascade (Role)

/-- The follower that announces the license for a session. -/
def licenseFollower (h : Host) (s : Session) : Task :=
  .follower s.token (some (.inbox s.inbox)) (Setting.Follower.attend h.bench.settings.feed
    .acceptedLicense [.announceLicense (.inbox s.inbox), .pause])

theorem tasks_followSettings {h : Host} {s : Session} (activating : h.activating = some s) :
    h.followSettings.tasks = (h.followCascade s.token).tasks ++ [h.licenseFollower s] := by
  have own : h.licenseFollower s = (h.followCascade s.token).licenseFollower s := by
    rw [licenseFollower, licenseFollower, (followCascade_frame h s.token).2.1]
  have added := alike_of_unscheduled (unscheduled_addTask (h.followCascade s.token)
    ((h.followCascade s.token).licenseFollower s))
  rw [own]
  simp only [followSettings, activating]
  exact added.tasks

section Performing

variable {h : Host} {id : Nat} {s : Stage}

/-- A task that has nothing to do yet, and reacts with calm stages that are not about a session. -/
structure IsNew (t : Task) : Prop where
  idle : t.stages = []
  calm : Calm t.handler
  plain : ∀ s ∈ t.handler, s.isOfSession = false

theorem isNew_newcomer (token : Nat) (role : Role) (feed : Setting.Feed) :
    IsNew (.follower token none (newcomer role feed)) := by
  refine ⟨rfl, .of_outside (fun t mem => ?_) fun t mem => ?_, fun t mem => ?_⟩ <;>
  · obtain ⟨c, -, rfl⟩ := List.mem_map.1 (mem : t ∈ role.handler.map .cascade)
    trivial

theorem isNew_licenseFollower (h : Host) (s : Session) : IsNew (h.licenseFollower s) := by
  refine ⟨rfl, .of_outside (fun t mem => ?_) fun t mem => ?_, fun t mem => ?_⟩ <;>
  · obtain rfl | rfl : t = .announceLicense (.inbox s.inbox) ∨ t = .pause := by
      simpa [licenseFollower, Task.handler, Setting.Follower.attend] using mem
    · trivial
    · trivial

theorem isNew_followSettings (h : Host) :
    ∃ added, h.followSettings.tasks = h.tasks ++ added ∧ ∀ t ∈ added, IsNew t := by
  cases activating : h.activating with
  | none => exact ⟨[], by simp [followSettings, activating], List.forall_mem_nil _⟩
  | some s =>
    rw [tasks_followSettings activating, (followCascade_frame h s.token).1, List.append_assoc]
    refine ⟨_, rfl, fun t mem => ?_⟩
    obtain cascade | license := List.mem_append.1 mem
    · obtain ⟨role, -, rfl⟩ := List.mem_map.1 cascade
      exact isNew_newcomer s.token role _
    · obtain rfl := List.mem_singleton.1 license
      exact isNew_licenseFollower h s

/-- The tasks are the same, and so is the session that starts, and only files have failed. -/
structure SameTasks (h k : Host) : Prop where
  files : OnlyFiles k.reconcilers
  tasks : k.tasks = h.tasks
  running : k.running = h.running
  activating : k.activating = h.activating

theorem SameTasks.of_unscheduled {k l : Host} (left : SameTasks h l)
    (same : k.unscheduled = l.unscheduled) : SameTasks h k := by
  have alike := alike_of_unscheduled same
  have activating := congrArg Host.activating same
  exact ⟨alike.reconcilers ▸ left.files, alike.tasks.trans left.tasks,
    alike.running.trans left.running, activating.trans left.activating⟩

theorem sameTasks_withBench (files : OnlyFiles h.reconcilers) (bench : Workbench) :
    SameTasks h (h.withBench bench) := by
  have changed : SameTasks h { h with bench } := ⟨files, rfl, rfl, rfl⟩
  exact changed.of_unscheduled (unscheduled_withBench h bench)

theorem sameTasks_send (files : OnlyFiles h.reconcilers) (requests : Requests) (t : Trigger) :
    SameTasks h (h.send requests t) := by
  cases requests with
  | observed => exact ⟨files, rfl, rfl, rfl⟩
  | inbox id =>
    simp only [send]
    split
    · rename_i inbox _
      split
      · have sent : SameTasks h { h with
            inboxes := h.inboxes.set id { inbox with queue := inbox.queue ++ [t] } } :=
          ⟨files, rfl, rfl, rfl⟩
        exact sent.of_unscheduled (unscheduled_wake _ _)
      · exact ⟨files, rfl, rfl, rfl⟩
    · exact ⟨files, rfl, rfl, rfl⟩

/-- A reconciler in the place of another one that keeps the same files. -/
theorem onlyFiles_set {reconcilers : List Reconciler} (files : OnlyFiles reconcilers) (i : Nat)
    {r : Reconciler} (own : ∀ uri ∈ r.snapshot, uri.isFile = true) :
    OnlyFiles (reconcilers.set i r) := by
  intro other mem
  obtain old | rfl := List.mem_or_eq_of_mem_set mem
  · exact files other old
  · exact own

theorem sameTasks_acquire (files : OnlyFiles h.reconcilers) (id reconciler : Nat)
    (stages : List Stage) : SameTasks h (h.acquire id reconciler stages).1 := by
  unfold acquire
  split
  · rename_i r found
    refine ⟨onlyFiles_set files reconciler fun uri mem => ?_, rfl, rfl, rfl⟩
    rw [Reconciler.snapshot_acquire] at mem
    exact files r (List.mem_of_getElem? found) uri mem
  · exact ⟨files, rfl, rfl, rfl⟩

theorem sameTasks_release (files : OnlyFiles h.reconcilers) (reconciler : Nat) :
    SameTasks h (h.release reconciler) := by
  unfold release
  split
  · rename_i r found
    have released : SameTasks h
        { h with reconcilers := h.reconcilers.set reconciler r.release.1 } := by
      refine ⟨onlyFiles_set files reconciler fun uri mem => ?_, rfl, rfl, rfl⟩
      rw [Reconciler.snapshot_release] at mem
      exact files r (List.mem_of_getElem? found) uri mem
    exact released.of_unscheduled (unscheduled_wakeAll _ _)
  · exact ⟨files, rfl, rfl, rfl⟩

theorem SameTasks.answer {k : Host} (left : SameTasks h k) (o : Outcome) :
    SameTasks h (k.answer o).1 := ⟨left.files, left.tasks, left.running, left.activating⟩

theorem sameTasks_finishPass (files : OnlyFiles h.reconcilers) (id reconciler : Nat) {plan : Plan}
    (left : ∀ uri ∈ plan.snapshot, uri.isFile = true) :
    SameTasks h (h.finishPass id reconciler plan) := by
  have stored : OnlyFiles (h.reconcilers.set reconciler ((h.reconciler reconciler).store plan)) :=
    onlyFiles_set files reconciler left
  have released := sameTasks_release
    (h := { h with
      reconcilers := h.reconcilers.set reconciler ((h.reconciler reconciler).store plan)
      outcome := if id = main then .plan plan else h.outcome }) stored reconciler
  exact ⟨released.files, released.tasks, released.running, released.activating⟩

/-- A calm stage only changes what all can see, unless it is about a session. -/
theorem sameTasks_perform (files : OnlyFiles h.reconcilers) (calm : s.IsCalm)
    (following : s ≠ .followSettings) (finishing : ∀ restarting, s ≠ .finishActivation restarting)
    (id : Nat) : SameTasks h (h.perform id s).1 := by
  have onBench {σ : Type} (result : Workbench × List σ) (stage : σ → Stage) :
      SameTasks h (h.onBench result stage).1 := sameTasks_withBench files _
  have startUp {finish : Bool → Host × Flow} (stage : Startup.Stage → Stage)
      (finished : ∀ restarting, SameTasks h (finish restarting).1) (t : Startup.Stage) :
      SameTasks h (h.startUp stage finish t).1 := by
    unfold Host.startUp
    split
    · exact ⟨files, rfl, rfl, rfl⟩
    · exact finished _
    · exact onBench _ _
  cases s with
  | endSession => exact calm.elim
  | followSettings => exact absurd rfl following
  | finishActivation restarting => exact absurd rfl (finishing restarting)
  | pause | publish _ | announceLicense _ | publishAll _ _ | record _ => exact ⟨files, rfl, rfl, rfl⟩
  | sleep ms =>
    simp only [perform, sleep]
    split <;> exact ⟨files, rfl, rfl, rfl⟩
  | cascade t =>
    cases t with
    | pause => exact ⟨files, rfl, rfl, rfl⟩
    | _ => exact onBench _ _
  | opening t =>
    cases t with
    | pause | answer _ => exact ⟨files, rfl, rfl, rfl⟩
    | _ => exact onBench _ _
  | startup t => exact startUp .startup (fun _ => ⟨files, rfl, rfl, rfl⟩) t
  | activation t => exact startUp .activation (fun _ => ⟨files, rfl, rfl, rfl⟩) t
  | send requests t => exact sameTasks_send files requests t
  | greet => exact sameTasks_withBench files _
  | built _ | deployed _ _ => exact (sameTasks_withBench files _).answer _
  | lint reconciler =>
    simp only [perform, lint]
    split <;> exact ⟨files, rfl, rfl, rfl⟩
  | reconcile reconciler failures => exact sameTasks_acquire files id reconciler _
  | readSnapshot reconciler => exact sameTasks_acquire files id reconciler _
  | finishPass reconciler plan => exact sameTasks_finishPass files id reconciler calm
  | finishSnapshot reconciler => exact (sameTasks_release files reconciler).answer _
  | join tasks =>
    simp only [perform, join]
    split <;> exact ⟨files, rfl, rfl, rfl⟩
  | settle turns => cases turns <;> exact ⟨files, rfl, rfl, rfl⟩

theorem sameTasks_installSession (files : OnlyFiles h.reconcilers) (restarting : Bool) :
    OnlyFiles (h.installSession restarting).reconcilers ∧
      (h.installSession restarting).tasks = h.tasks := by
  unfold installSession
  split
  · rename_i s _
    have woken := alike_of_unscheduled (unscheduled_wakeOrphans { h with
      session := some { s with restarting }
      activating := none
      current := .inbox s.inbox })
    refine ⟨?_, woken.tasks⟩
    dsimp only
    rw [woken.reconcilers]
    exact files
  · exact ⟨files, rfl⟩

theorem reconcilers_followSettings (h : Host) : h.followSettings.reconcilers = h.reconcilers := by
  have added (k : Host) (t : Task) : (k.addTask t).reconcilers = k.reconcilers :=
    (alike_of_unscheduled (unscheduled_addTask k t)).reconcilers
  unfold followSettings
  split
  · simp only [followCascade, followLicense, follow, added]
  · rfl

/-- A calm stage only adds tasks, and those are new; and only files have failed after it. -/
theorem tasks_perform (files : OnlyFiles h.reconcilers) (calm : s.IsCalm) (id : Nat) :
    OnlyFiles (h.perform id s).1.reconcilers ∧
      ∃ added, (h.perform id s).1.tasks = h.tasks ++ added ∧ ∀ t ∈ added, IsNew t := by
  have nothing {k : Host} (tasks : k.tasks = h.tasks) :
      ∃ added, k.tasks = h.tasks ++ added ∧ ∀ t ∈ added, IsNew t :=
    ⟨[], by rw [tasks, List.append_nil], List.forall_mem_nil _⟩
  by_cases following : s = .followSettings
  · subst following
    refine ⟨?_, isNew_followSettings h⟩
    change OnlyFiles h.followSettings.reconcilers
    rwa [reconcilers_followSettings]
  · by_cases finishing : ∃ restarting, s = .finishActivation restarting
    · obtain ⟨restarting, rfl⟩ := finishing
      obtain ⟨left, tasks⟩ := sameTasks_installSession files restarting
      exact ⟨left, nothing tasks⟩
    · have left := sameTasks_perform files calm following
        (fun restarting same => finishing ⟨restarting, same⟩) id
      exact ⟨left.files, nothing left.tasks⟩

end Performing

/-! ### What a turn does to the tasks -/

section Turns

variable {h : Host} {id : Nat} {t : Task}

/-- A turn that does a stage goes on with what the stage leads to. -/
theorem work_does {s : Stage} {rest : List Stage} (task : h.tasks[id]? = some t)
    (stages : t.stages = s :: rest) :
    ∃ u : Task, u.stages = (h.perform id s).2.stages ++ rest ∧ u.handler = t.handler ∧
      (h.work id).unscheduled = { ((h.perform id s).1.setTask id u).unscheduled with
        running := if (h.perform id s).2.keepsTurn then (h.perform id s).1.running else none } := by
  cases t with
  | routine all =>
    obtain rfl : all = s :: rest := stages
    refine ⟨.routine ((h.perform id s).2.stages ++ rest), rfl, rfl, ?_⟩
    simp only [work, task, workRoutine]
    exact unscheduled_pass _ _ _
  | follower token requests f =>
    have phase : f.phase = .handling (s :: rest) := by
      simp only [Task.stages, Setting.Follower.remaining] at stages
      split at stages
      · rw [‹f.phase = _›, stages]
      · cases stages
    refine ⟨.follower token requests (f.proceed ((h.perform id s).2.stages ++ rest)), ?_, ?_, ?_⟩
    · simp [Task.stages]
    · simp [Task.handler]
    · simp only [work, task, workFollower, phase]
      exact unscheduled_pass _ _ _
  | keeper inbox period reconciler => cases stages
  | ended => cases stages

/-- What a turn that does no stage leaves behind. The task has nothing to do, or begins to react; a
keeper may start a pass. -/
structure Idles (h : Host) (id : Nat) (t : Task) (k : Host) : Prop where
  bench : k.bench = h.bench
  reconcilers : k.reconcilers = h.reconcilers
  session : k.session = h.session
  activating : k.activating = h.activating
  tasks : ∃ u added, k.tasks = (h.tasks ++ added).set id u ∧
    (u.stages = [] ∨ u.stages = t.handler) ∧ (u.handler = [] ∨ u.handler = t.handler) ∧
    ∀ a ∈ added, ∃ reconciler, a = .routine [.lint reconciler]

theorem Idles.of_unscheduled {k l : Host} (idles : Idles h id t k)
    (same : l.unscheduled = k.unscheduled) : Idles h id t l := by
  have alike := alike_of_unscheduled same
  have session := congrArg Host.session same
  have activating := congrArg Host.activating same
  exact ⟨alike.bench.trans idles.bench, alike.reconcilers.trans idles.reconcilers,
    session.trans idles.session, activating.trans idles.activating, alike.tasks ▸ idles.tasks⟩

/-- The task goes on as another one, and no task is added. -/
theorem idles_setTask {u : Task} (stages : u.stages = [] ∨ u.stages = t.handler)
    (handler : u.handler = [] ∨ u.handler = t.handler) : Idles h id t (h.setTask id u) :=
  ⟨rfl, rfl, rfl, rfl, u, [], by rw [List.append_nil]; rfl, stages, handler, List.forall_mem_nil _⟩

theorem idles_suspend (task : h.tasks[id]? = some t) (none : t.stages = []) :
    Idles h id t h.suspend := by
  have idles : Idles h id t (h.setTask id t) := idles_setTask (.inl none) (.inr rfl)
  rw [setTask_same task] at idles
  exact ⟨idles.bench, idles.reconcilers, idles.session, idles.activating, idles.tasks⟩

theorem idles_endTask : Idles h id t (h.endTask id).suspend := by
  have ended : Idles h id t (h.setTask id .ended).suspend := by
    have idles : Idles h id t (h.setTask id .ended) := idles_setTask (.inl rfl) (.inl rfl)
    exact ⟨idles.bench, idles.reconcilers, idles.session, idles.activating, idles.tasks⟩
  refine ended.of_unscheduled ?_
  rw [unscheduled_suspend, unscheduled_endTask, unscheduled_suspend, unscheduled_setTask]

theorem idles_listen {token : Nat} {requests : Option Requests} {f : Setting.Follower Stage}
    (task : h.tasks[id]? = some (.follower token requests f)) (phase : f.phase = .listening) :
    Idles h id (.follower token requests f) (h.listen id token requests f) := by
  have none : f.remaining = [] := by simp only [Setting.Follower.remaining, phase]
  unfold listen
  split
  · exact idles_endTask
  · split
    · have idles := idles_suspend task none
      exact ⟨idles.bench, idles.reconcilers, idles.session, idles.activating, idles.tasks⟩
    · rename_i g received
      have next : Idles h id (.follower token requests f)
          (h.setTask id (.follower token requests g)) := by
        obtain ⟨key, -, rfl⟩ | ⟨-, rfl⟩ := Setting.Follower.receive?_cases received
        · exact idles_setTask (.inl rfl) (.inr rfl)
        · exact idles_setTask (.inr rfl) (.inr rfl)
      dsimp only
      split
      · have given : Idles h id (.follower token requests f)
            (h.setTask id (.follower token requests g)).suspend :=
          ⟨next.bench, next.reconcilers, next.session, next.activating, next.tasks⟩
        exact given.of_unscheduled (unscheduled_giveWay _ _)
      · exact next

theorem idles_follower {token : Nat} {requests : Option Requests} {f : Setting.Follower Stage}
    (task : h.tasks[id]? = some (.follower token requests f)) (none : f.remaining = []) :
    Idles h id (.follower token requests f) (h.workFollower id token requests f) := by
  unfold workFollower
  split
  · rename_i phase
    exact idles_listen task phase
  · rename_i key _
    refine idles_setTask ?_ (.inr rfl)
    simp only [Setting.Follower.consider, Task.stages, Task.handler]
    split
    · exact .inr rfl
    · exact .inl rfl
  · exact idles_setTask (.inl rfl) (.inr rfl)
  · rename_i phase
    rw [Setting.Follower.remaining_of_handling phase] at none
    cases none
  · exact idles_endTask

theorem idles_keeper {inbox reconciler : Nat} {period : QuietPeriod}
    (task : h.tasks[id]? = some (.keeper inbox period reconciler)) :
    Idles h id (.keeper inbox period reconciler) (h.workKeeper id inbox period reconciler) := by
  have silent (p : QuietPeriod) : Idles h id (.keeper inbox period reconciler)
      (h.setTask id (.keeper inbox p reconciler)) := idles_setTask (.inl rfl) (.inl rfl)
  have waits := idles_suspend task rfl
  unfold workKeeper
  split
  · exact idles_endTask
  · rename_i trigger _ _
    have received := silent (period.receive trigger h.clock)
    exact ⟨received.bench, received.reconcilers, received.session, received.activating, received.tasks⟩
  · split
    · have ended : Idles h id (.keeper inbox period reconciler) (h.endTask id).suspend :=
        idles_endTask
      exact ⟨ended.bench, ended.reconcilers, ended.session, ended.activating, ended.tasks⟩
    · split
      · have finished := silent period.finish
        unfold finishPeriod
        split
        · have same := unscheduled_addTask
            ((h.setTask id (.keeper inbox period.finish reconciler)).dropTimers id)
            (.routine [.lint reconciler])
          have alike := alike_of_unscheduled same
          have session := congrArg Host.session same
          have activating := congrArg Host.activating same
          obtain ⟨inside, -⟩ := List.getElem?_eq_some_iff.1 task
          refine ⟨alike.bench, alike.reconcilers, session, activating,
            .keeper inbox period.finish reconciler, [.routine [.lint reconciler]], ?_, .inl rfl,
            .inl rfl, ?_⟩
          · rw [List.set_append_left _ _ inside]
            exact alike.tasks
          · intro a mem
            exact ⟨reconciler, List.mem_singleton.1 mem⟩
        · exact ⟨finished.bench, finished.reconcilers, finished.session, finished.activating,
            finished.tasks⟩
      · unfold awaitTrigger
        split
        · split
          · exact waits
          · exact ⟨waits.bench, waits.reconcilers, waits.session, waits.activating, waits.tasks⟩
        · exact waits

theorem work_idles (task : h.tasks[id]? = some t) (none : t.stages = []) :
    Idles h id t (h.work id) := by
  cases t with
  | routine stages =>
    obtain rfl : stages = [] := none
    simp only [work, task, workRoutine]
    split
    · exact idles_suspend task rfl
    · exact idles_endTask
  | follower token requests f =>
    simp only [work, task]
    exact idles_follower task none
  | keeper inbox period reconciler =>
    simp only [work, task]
    exact idles_keeper task
  | ended =>
    simp only [work, task]
    exact idles_suspend task rfl

/-- Who is at a place after a turn: the one whose turn it was, one who was there before, or a new
one. -/
theorem place_cases {tasks added : List Task} {u : Task} {place : Nat}
    (here : ((tasks ++ added).set id u)[place]? = some t) :
    place = id ∧ t = u ∨ place ≠ id ∧ tasks[place]? = some t ∨ place ≠ id ∧ t ∈ added := by
  by_cases own : place = id
  · subst own
    obtain ⟨inside, same⟩ := List.getElem?_eq_some_iff.1 here
    rw [List.getElem_set_self] at same
    exact .inl ⟨rfl, same.symm⟩
  · rw [List.getElem?_set_ne (Ne.symm own)] at here
    by_cases old : place < tasks.length
    · rw [List.getElem?_append_left old] at here
      exact .inr (.inl ⟨own, here⟩)
    · rw [List.getElem?_append_right (Nat.le_of_not_lt old)] at here
      exact .inr (.inr ⟨own, List.mem_of_getElem? here⟩)

end Turns

end ModelWorkspace.Host
