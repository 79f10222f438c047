import ModelWorkspace.Proofs.License.Calls
import ModelWorkspace.Proofs.Pass.Stages
import ModelWorkspace.Proofs.Session.Starting

/-! The way of an activation up to its followers, with anything else going on beside it. Start-up goes
through its stages, of which only the last one leads to its end; if the editor does not restart then,
the followers of the session come next, and the keeper of its requests is in its place by then. -/
namespace ModelWorkspace

namespace Startup

/-- Whether the end of start-up comes of the stage. -/
def Stage.isLast : Stage → Bool
  | .inspect | .openDefaultFolder | .done _ => true
  | .cascade .openModelDirectory | .cascade (.replaceModelFolder ..) | .cascade (.answer _) => true
  | _ => false

/-- The end of start-up comes of the last one of the stages, and of no other. -/
def IsCourse (stages : List Stage) : Prop :=
  ∃ before last, stages = before ++ [last] ∧ last.isLast = true ∧ ∀ s ∈ before, s.isLast = false

theorem isCourse_single {s : Stage} (last : s.isLast = true) : IsCourse [s] :=
  ⟨[], s, rfl, last, List.forall_mem_nil _⟩

theorem IsCourse.eq_cons {stages : List Stage} (course : IsCourse stages) :
    ∃ s rest, stages = s :: rest := by
  obtain ⟨before, last, rfl, -⟩ := course
  cases before with
  | nil => exact ⟨last, [], rfl⟩
  | cons s before => exact ⟨s, before ++ [last], rfl⟩

theorem IsCourse.cons {s : Stage} {stages : List Stage} (course : IsCourse stages)
    (early : s.isLast = false) : IsCourse (s :: stages) := by
  obtain ⟨before, last, rfl, ends, rest⟩ := course
  exact ⟨s :: before, last, rfl, ends, List.forall_mem_cons.2 ⟨early, rest⟩⟩

theorem IsCourse.append {stages rest : List Stage} (course : IsCourse rest)
    (early : ∀ s ∈ stages, s.isLast = false) : IsCourse (stages ++ rest) := by
  induction stages with
  | nil => exact course
  | cons s stages ih =>
    rw [List.forall_mem_cons] at early
    exact (ih early.2).cons early.1

/-- The end of start-up comes of no other stage than the last one. -/
theorem perform_early (w : Workbench) {s : Stage} (early : s.isLast = false) :
    ∀ t ∈ (s.perform w).2, t.isLast = false := by
  cases s with
  | inspect | openDefaultFolder | done _ => cases early
  | resetFolder | resetSettings => exact List.forall_mem_nil _
  | cascade s =>
    cases s with
    | openModelDirectory | replaceModelFolder _ _ | answer _ => cases early
    | pause | forwardModelDirectory => exact List.forall_mem_nil _
    | forwardModelVersion =>
      simp only [Stage.perform, Cascade.Stage.perform]
      split
      · exact List.forall_mem_singleton.2 rfl
      · exact List.forall_mem_nil _

/-- The last stage leads to stages of which the last one is the last of all, until start-up is done. -/
theorem perform_last (w : Workbench) {s : Stage} (last : s.isLast = true)
    (going : ∀ restarting, s ≠ .done restarting) : IsCourse (s.perform w).2 := by
  cases s with
  | done restarting => exact absurd rfl (going restarting)
  | resetFolder | resetSettings => cases last
  | openDefaultFolder => exact isCourse_single rfl
  | inspect =>
    simp only [Stage.perform]
    split
    · split
      · exact (isCourse_single rfl).cons rfl
      · have early : ∀ s ∈ [Stage.cascade .pause, .resetFolder, .cascade .pause, .resetSettings,
            .cascade .pause], s.isLast = false := by decide
        exact (isCourse_single rfl).append early
    · split
      · have early : ∀ s ∈ [Stage.cascade .pause, .cascade .forwardModelDirectory,
            .cascade .pause, .cascade .pause], s.isLast = false := by decide
        exact (isCourse_single rfl).append early
      · exact isCourse_single rfl
  | cascade s =>
    cases s with
    | pause | forwardModelVersion | forwardModelDirectory => cases last
    | answer opened => exact isCourse_single rfl
    | replaceModelFolder name path => exact (isCourse_single rfl).cons rfl
    | openModelDirectory =>
      simp only [Stage.perform, Cascade.Stage.perform]
      split
      · exact (isCourse_single rfl).cons rfl
      · exact isCourse_single rfl

end Startup

namespace Host

/-! ### The keeper of an inbox -/

/-- The keeper of the inbox is in its place, so what is sent there arrives. -/
structure Manned (h : Host) (inbox place : Nat) : Prop where
  seat : h.keepers[inbox]? = some place
  keeper : ∃ period reconciler, h.tasks[place]? = some (.keeper inbox period reconciler)

section Manned

variable {h k : Host} {inbox place id : Nat}

theorem Manned.found (manned : Manned h inbox place) :
    ∃ queue, h.inboxes[inbox]? = some ⟨place, queue⟩ := by
  have here := manned.seat
  rw [keepers, List.getElem?_map, Option.map_eq_some_iff] at here
  obtain ⟨⟨task, queue⟩, found, rfl⟩ := here
  exact ⟨queue, found⟩

theorem Manned.isKept (manned : Manned h inbox place) : h.isKept inbox = true := by
  obtain ⟨queue, found⟩ := manned.found
  obtain ⟨period, reconciler, keeper⟩ := manned.keeper
  simp only [Host.isKept, found, keeper]

theorem Manned.same (manned : Manned h inbox place) (keepers : k.keepers = h.keepers)
    (tasks : k.tasks = h.tasks) : Manned k inbox place :=
  ⟨keepers ▸ manned.seat, tasks ▸ manned.keeper⟩

/-- The keeper stays where it is as long as someone can send to it. -/
theorem Manned.work (manned : Manned h inbox place) (sound : Sound h)
    (sender : h.hasSender inbox = true) (id : Nat) : Manned (h.work id) inbox place := by
  obtain ⟨-, -, keepers⟩ := work_frame h id
  refine ⟨keepers ▸ manned.seat, ?_⟩
  obtain ⟨period, reconciler, keeper⟩ := manned.keeper
  by_cases own : place = id
  · subst own
    obtain ⟨queue, found⟩ := manned.found
    obtain ⟨inside, -⟩ := List.getElem?_eq_some_iff.1 keeper
    have goes (p : QuietPeriod) : (h.tasks.set place (.keeper inbox p reconciler))[place]? =
        some (.keeper inbox p reconciler) := List.getElem?_set_self inside
    simp only [Host.work, keeper, workKeeper, found]
    cases queue with
    | cons trigger queue => exact ⟨_, _, goes _⟩
    | nil =>
      simp only [sender, Bool.not_true, Bool.false_eq_true, if_false]
      split
      · unfold finishPeriod
        split
        · have added := alike_of_unscheduled (unscheduled_addTask
            ((h.setTask place (.keeper inbox period.finish reconciler)).dropTimers place)
            (.routine [.lint reconciler]))
          refine ⟨period.finish, reconciler, ?_⟩
          rw [added.tasks]
          exact (List.getElem?_append_left (List.length_set.symm ▸ inside)).trans (goes _)
        · exact ⟨_, _, goes _⟩
      · unfold awaitTrigger
        split
        · split <;> exact ⟨_, _, keeper⟩
        · exact ⟨_, _, keeper⟩
  · exact ⟨period, reconciler, sound.place own keeper⟩

theorem Manned.ask {stages : List Stage} (manned : Manned h inbox place) (idle : h.isIdle = true) :
    Manned (h.setTask main (.routine stages)) inbox place := by
  refine ⟨manned.seat, ?_⟩
  obtain ⟨period, reconciler, keeper⟩ := manned.keeper
  have apart : main ≠ place := by
    rintro rfl
    cases (idle_main idle).2.symm.trans keeper
  refine ⟨period, reconciler, ?_⟩
  rw [setTask, List.getElem?_set_ne apart]
  exact keeper

end Manned

/-! ### Start-up, and what comes next -/

/-- What the main task does for a session from its followers on. -/
def sessionStages (s : Session) : List Stage :=
  [.followSettings, .announceLicense (.inbox s.inbox), .pause, .greet, .finishActivation false]

/-- The session that starts has no followers yet. -/
structure Ahead (s : Session) (place : Nat) (h : Host) : Prop where
  activating : h.activating = some s
  live : h.isCancelled s.token = false
  manned : Manned h s.inbox place
  main : ∃ stages, h.tasks[Host.main]? = some (.routine stages) ∧
    ((∃ course, stages = course.map .activation ∧ Startup.IsCourse course) ∨
      stages = sessionStages s)

/-- The main task does not start a session, or its followers are there. -/
def Past (h : Host) : Prop :=
  ∃ stages, h.tasks[main]? = some (.routine stages) ∧ ∀ s ∈ stages, s.isOpening = false

section Approach

variable {h k : Host} {s : Session} {place id : Nat}

theorem stagesOf_of_task {t : Task} (task : h.tasks[id]? = some t) : h.stagesOf id = t.stages := by
  simp [stagesOf, task]

theorem hasSender_of_activating (activating : h.activating = some s) :
    h.hasSender s.inbox = true := by
  simp [hasSender, activating]

/-- A stage of start-up that is not its end leads to stages of start-up. -/
theorem perform_activation (h : Host) (id : Nat) {a : Startup.Stage}
    (going : ∀ restarting, a ≠ .done restarting) :
    (h.perform id (.activation a)).2.stages = (a.perform h.bench).2.map .activation := by
  cases a with
  | done restarting => exact absurd rfl (going restarting)
  | cascade c =>
    cases c with
    | pause => rfl
    | _ => simp only [perform, startUp, onBench, Flow.stages]
  | _ => rfl

/-- Start-up goes on, or its end leads to what the main task does for the session; where the editor
restarts that is not much. -/
theorem perform_course {h : Host} {s : Session} (activating : h.activating = some s) (id : Nat)
    {a : Startup.Stage} {rest : List Startup.Stage} (course : Startup.IsCourse (a :: rest)) :
    let next := (h.perform id (.activation a)).2.stages ++ rest.map .activation
    (∃ course, next = course.map .activation ∧ Startup.IsCourse course) ∨
      next = sessionStages s ∨ next = [.finishActivation true] := by
  intro next
  obtain ⟨before, last, split, ends, early⟩ := course
  have goes (going : ∀ restarting, a ≠ .done restarting)
      (course : Startup.IsCourse ((a.perform h.bench).2 ++ rest)) :
      ∃ course, next = course.map .activation ∧ Startup.IsCourse course := by
    refine ⟨_, ?_, course⟩
    rw [List.map_append, ← perform_activation h id going]
  cases before with
  | cons b before =>
    obtain ⟨rfl, rfl⟩ := List.cons.inj split
    rw [List.forall_mem_cons] at early
    refine .inl (goes ?_ ?_)
    · rintro restarting rfl
      cases early.1
    · exact Startup.IsCourse.append ⟨before, last, rfl, ends, early.2⟩
        (Startup.perform_early h.bench early.1)
  | nil =>
    obtain ⟨rfl, rfl⟩ := List.cons.inj split
    by_cases finished : ∃ restarting, a = .done restarting
    · obtain ⟨restarting, rfl⟩ := finished
      have leads : next = h.afterStartup restarting := List.append_nil _
      rw [leads, afterStartup, activating]
      cases restarting with
      | false => exact .inr (.inl rfl)
      | true => exact .inr (.inr rfl)
    · have going (restarting : Bool) : a ≠ .done restarting :=
        fun same => finished ⟨restarting, same⟩
      refine .inl (goes going ?_)
      rw [List.append_nil]
      exact Startup.perform_last h.bench ends going

/-- A routine goes on with what its stage leads to. -/
theorem routine_work {t : Stage} {rest : List Stage}
    (task : h.tasks[id]? = some (.routine (t :: rest))) :
    (h.work id).tasks[id]? = some (.routine ((h.perform id t).2.stages ++ rest)) := by
  obtain ⟨inside, -⟩ := List.getElem?_eq_some_iff.1 task
  rw [(work_routine task).tasks]
  exact List.getElem?_set_self (Nat.lt_of_lt_of_le inside (grows_perform h id t).length)

theorem Ahead.outside (ahead : Ahead s place h) (rest : Outside h k) : Ahead s place k := by
  refine ⟨rest.activating.trans ahead.activating, ?_, ahead.manned.same rest.keepers rest.tasks,
    rest.tasks ▸ ahead.main⟩
  rw [isCancelled, rest.tokens]
  exact ahead.live

/-- A turn in which the session that starts stays the same. -/
theorem Ahead.work (ahead : Ahead s place h) (sound : Sound h)
    (same : (h.work id).activating = h.activating) {stages : List Stage}
    (main : (h.work id).tasks[Host.main]? = some (.routine stages))
    (next : (∃ course, stages = course.map .activation ∧ Startup.IsCourse course) ∨
      stages = sessionStages s) : Ahead s place (h.work id) := by
  obtain ⟨-, tokens, -⟩ := work_frame h id
  refine ⟨same.trans ahead.activating, ?_, ?_, stages, main, next⟩
  · rw [isCancelled, tokens]
    exact ahead.live
  · exact ahead.manned.work sound (hasSender_of_activating ahead.activating) id

/-- The turn of another task. -/
theorem Ahead.otherTurn (ahead : Ahead s place h) (sound : Sound h) (apart : id ≠ Host.main) :
    Ahead s place (h.work id) := by
  obtain ⟨stages, task, now⟩ := ahead.main
  have silent (t : Stage) (first : (h.stagesOf id).head? = some t) : t.isOfSession = false := by
    cases own : h.tasks[id]? with
    | none => simp [stagesOf, own] at first
    | some u =>
      rw [stagesOf_of_task own] at first
      exact sound.plain apart own t (.inl (List.mem_of_head? first))
  refine ahead.work sound (sound.activating_work ?_ ?_) (sound.place apart.symm task) now
  · intro first
    cases silent _ first
  · intro restarting first
    cases silent _ first

/-- The turn of the main task. -/
theorem Ahead.mainTurn (ahead : Ahead s place h) (sound : Sound h) :
    Ahead s place (h.work Host.main) ∨ Past (h.work Host.main) := by
  obtain ⟨stages, task, now⟩ := ahead.main
  obtain ⟨course, rfl, is⟩ | rfl := now
  · obtain ⟨a, rest, rfl⟩ := is.eq_cons
    rw [List.map_cons] at task
    have there := routine_work task
    have head : (h.stagesOf Host.main).head? = some (.activation a) := by
      rw [stagesOf_of_task task]
      rfl
    have same : (h.work Host.main).activating = h.activating :=
      sound.activating_work (by simp [head]) (by simp [head])
    obtain goes | finished | restarts := perform_course ahead.activating Host.main is
    · exact .inl (ahead.work sound same there (.inl goes))
    · exact .inl (ahead.work sound same there (.inr finished))
    · refine .inr ⟨_, there, fun t mem => ?_⟩
      obtain rfl := List.mem_singleton.1 (restarts ▸ mem)
      rfl
  · refine .inr ⟨_, routine_work task, ?_⟩
    simp [perform, Flow.stages, Stage.isOpening]

theorem Past.outside (past : Past h) (rest : Outside h k) : Past k := by
  unfold Past
  rw [rest.tasks]
  exact past

theorem Past.ask {stages : List Stage} (idle : h.isIdle = true)
    (ordinary : ∀ t ∈ stages, t.isOrdinary = true) : Past (h.setTask main (.routine stages)) := by
  obtain ⟨inside, -⟩ := List.getElem?_eq_some_iff.1 (idle_main idle).2
  refine ⟨stages, List.getElem?_set_self inside, fun t mem => ?_⟩
  have own := ordinary t mem
  cases t <;> trivial

theorem Past.work (past : Past h) (sound : Sound h) (id : Nat) : Past (h.work id) := by
  obtain ⟨stages, task, past⟩ := past
  by_cases own : main = id
  · subst own
    cases stages with
    | nil =>
      have waits : h.work main = h.suspend := by simp only [Host.work, task, workRoutine, if_true]
      exact ⟨[], waits ▸ task, past⟩
    | cons first rest =>
      rw [List.forall_mem_cons] at past
      have opens : ∀ t ∈ (h.perform main first).2.stages, t.isOpening = true →
          first.isOpening = true := by
        by_cases announces : ∃ requests, first = .announceLicense requests
        · obtain ⟨requests, rfl⟩ := announces
          intro t mem own
          obtain rfl | rfl := mem_announce mem <;> cases own
        · exact (sound.leads task rfl fun requests same => announces ⟨requests, same⟩).opening
      refine ⟨_, routine_work task, fun t mem => ?_⟩
      obtain new | old := List.mem_append.1 mem
      · refine Bool.eq_false_iff.2 fun own => ?_
        exact Bool.eq_false_iff.1 past.1 (opens t new own)
      · exact past.2 t old
  · exact ⟨stages, sound.place own task, past⟩

theorem tasks_activate (h : Host) (editorActive : Bool) :
    (h.activate editorActive).tasks =
      (h.tasks ++ [Task.keeper h.inboxes.length ⟨none⟩ h.reconcilers.length]).set main
        (.routine [.activation .inspect]) :=
  congrArg Scene.tasks (scene_activate h editorActive)

theorem Sound.activate (sound : Sound h) (idle : h.isIdle = true) (editorActive : Bool) :
    Sound (h.activate editorActive) := by
  have begins := beginActivation_frame h editorActive
  obtain ⟨turn, -⟩ := idle_main idle
  have tasks := tasks_activate h editorActive
  have reconcilers : (h.activate editorActive).reconcilers = h.reconcilers ++ [({} : Reconciler)] :=
    begins.reconcilers
  refine .of_calm ?_ fun {id t} here => ?_
  · intro r mem
    rw [reconcilers] at mem
    obtain old | new := List.mem_append.1 mem
    · exact sound.files r old
    · obtain rfl := List.mem_singleton.1 new
      exact List.forall_mem_nil _
  · rw [tasks] at here
    obtain ⟨own, rfl⟩ | ⟨different, old⟩ | ⟨-, new⟩ := place_cases here
    · refine ⟨.nil, .of_outside ?_ ?_, fun apart => absurd own apart⟩
      · exact List.forall_mem_singleton.2 trivial
      · exact List.forall_mem_singleton.2 rfl
    · exact sound.old turn different old
    · obtain rfl := List.mem_singleton.1 new
      refine ⟨.nil, .nil, fun _ t mem => ?_⟩
      exact absurd mem (by simp [Task.stages, Task.handler])

/-- An activation begins. -/
theorem ahead_activate (idle : h.isIdle = true) (editorActive : Bool) :
    Ahead h.nextActivation h.tasks.length (h.activate editorActive) := by
  have begins := beginActivation_frame h editorActive
  obtain ⟨-, task⟩ := idle_main idle
  obtain ⟨inside, -⟩ := List.getElem?_eq_some_iff.1 task
  have tasks := tasks_activate h editorActive
  have keepers : (h.activate editorActive).keepers = h.keepers ++ [h.tasks.length] := begins.keepers
  refine ⟨congrArg Scene.activating (scene_activate h editorActive), ?_,
    ⟨?_, ⟨none⟩, h.reconcilers.length, ?_⟩,
    [.activation .inspect], ?_, .inl ⟨[.inspect], rfl, Startup.isCourse_single rfl⟩⟩
  · have tokens : (h.activate editorActive).tokens = h.tokens ++ [false] := begins.tokens
    rw [isCancelled, tokens]
    simp [nextActivation]
  · have length : h.keepers.length = h.inboxes.length := List.length_map _
    rw [keepers, nextActivation, ← length]
    exact List.getElem?_concat_length
  · rw [tasks, List.getElem?_set_ne (Nat.ne_of_lt inside)]
    exact List.getElem?_concat_length
  · rw [tasks, List.getElem?_set_self]
    rw [List.length_append]
    exact Nat.lt_add_right _ inside

/-- While an activation goes on, the session is ahead until its followers come. -/
theorem Ongoing.ahead_or_past {editorActive : Bool} {trace : List Happening} (sound : Sound h)
    (idle : h.isIdle = true) (run : Ongoing (h.activate editorActive) trace k) :
    Ahead h.nextActivation h.tasks.length k ∨ Past k := by
  induction run with
  | start => exact .inl (ahead_activate idle editorActive)
  | @work trace g id run turn ih =>
    have sound := run.sound (sound.activate idle editorActive)
    obtain ahead | past := ih
    · by_cases own : id = main
      · subst own
        exact ahead.mainTurn sound
      · exact .inl (ahead.otherTurn sound own)
    · exact .inr (past.work sound id)
  | outside run rest ih =>
    exact ih.imp (fun ahead => ahead.outside rest) fun past => past.outside rest
  | ask run idle ordinary ih => exact .inr (Past.ask idle ordinary)

/-- When the followers of the session come, all that they need is there. -/
theorem Ongoing.ahead {editorActive : Bool} {trace : List Happening} (sound : Sound h)
    (idle : h.isIdle = true) (run : Ongoing (h.activate editorActive) trace k)
    (next : (k.stagesOf main).head? = some .followSettings) :
    Ahead h.nextActivation h.tasks.length k ∧
      k.tasks[main]? = some (.routine (sessionStages h.nextActivation)) := by
  obtain ahead | ⟨stages, task, past⟩ := run.ahead_or_past sound idle
  · refine ⟨ahead, ?_⟩
    obtain ⟨stages, task, ⟨course, rfl, -⟩ | rfl⟩ := ahead.main
    · -- The next stage would be one of start-up.
      rw [stagesOf_of_task task, Task.stages, List.head?_map] at next
      obtain ⟨a, -, same⟩ := Option.map_eq_some_iff.1 next
      cases same
    · exact task
  · rw [stagesOf_of_task task] at next
    cases past _ (List.mem_of_head? next)

end Approach

end Host

end ModelWorkspace
