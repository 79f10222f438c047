import ModelWorkspace.Host.Scenario
import ModelWorkspace.Proofs.Host.Moves
import ModelWorkspace.Proofs.License.Calls

/-! What a session has to do with, and what can happen to it. Besides the main task and the followers of
the cascade there are tasks that stand aside: passes, the keepers of requests, and the followers of
the license. Their turns leave the workbench and all other tasks alone, so `Host.Happens` says in four
cases what an event comes to. -/
namespace ModelWorkspace.Host

/-- What a session has to do with. -/
structure Scene where
  bench : Workbench
  tasks : List Task
  session : Option Session
  activating : Option Session

def Scene.set (x : Scene) (id : Nat) (t : Task) : Scene := { x with tasks := x.tasks.set id t }

def scene (h : Host) : Scene := ⟨h.bench, h.tasks, h.session, h.activating⟩

@[simp] theorem scene_setTask (h : Host) (id : Nat) (t : Task) :
    (h.setTask id t).scene = h.scene.set id t := rfl

theorem scene_of_unscheduled {h k : Host} (same : h.unscheduled = k.unscheduled) :
    h.scene = k.scene := by
  have scenes := congrArg scene same
  exact scenes

@[simp] theorem scene_wake (h : Host) (id : Nat) : (h.wake id).scene = h.scene :=
  scene_of_unscheduled (unscheduled_wake h id)

@[simp] theorem scene_wakeAll (h : Host) (ids : List Nat) : (h.wakeAll ids).scene = h.scene :=
  scene_of_unscheduled (unscheduled_wakeAll h ids)

@[simp] theorem scene_wakeOrphans (h : Host) : h.wakeOrphans.scene = h.scene :=
  scene_of_unscheduled (unscheduled_wakeOrphans h)

@[simp] theorem scene_withBench (h : Host) (bench : Workbench) :
    (h.withBench bench).scene = { h.scene with bench } := by
  have scenes := congrArg scene (unscheduled_withBench h bench)
  exact scenes

@[simp] theorem scene_endTask (h : Host) (id : Nat) :
    (h.endTask id).scene = h.scene.set id .ended := by
  have scenes := congrArg scene (unscheduled_endTask h id)
  exact scenes

@[simp] theorem scene_pass (h : Host) (id : Nat) (flow : Flow) :
    (h.pass id flow).scene = h.scene := by
  have scenes := congrArg scene (unscheduled_pass h id flow)
  exact scenes

@[simp] theorem scene_send (h : Host) (requests : Requests) (t : Trigger) :
    (h.send requests t).scene = h.scene := by
  cases requests with
  | observed => rfl
  | inbox id =>
    simp only [send]
    split
    · split
      · exact scene_wake _ _
      · rfl
    · rfl

theorem scene_acquire (h : Host) (id reconciler : Nat) (stages : List Stage) :
    (h.acquire id reconciler stages).1.scene = h.scene := by
  unfold acquire
  split <;> rfl

theorem scene_release (h : Host) (reconciler : Nat) : (h.release reconciler).scene = h.scene := by
  unfold release
  split
  · exact scene_wakeAll _ _
  · rfl

theorem scene_cancel (h : Host) (token : Nat) : (h.cancel token).scene = h.scene :=
  scene_wakeAll _ _

/-- A routine that does a stage. -/
theorem scene_routine {h : Host} {id : Nat} {s : Stage} {rest : List Stage}
    (task : h.tasks[id]? = some (.routine (s :: rest))) :
    (h.work id).scene = (h.perform id s).1.scene.set id
      (.routine ((h.perform id s).2.stages ++ rest)) := by
  simp only [work, task, workRoutine]
  exact scene_pass _ _ _

/-- The main task waits for more to do. -/
theorem scene_waiting {h : Host} (task : h.tasks[main]? = some (.routine [])) :
    (h.work main).scene = h.scene := by
  simp only [work, task, workRoutine, if_true]
  rfl

theorem scene_work_ended {h : Host} {id : Nat}
    (gone : h.tasks[id]? = none ∨ h.tasks[id]? = some .ended) : (h.work id).scene = h.scene := by
  obtain gone | gone := gone <;>
  · simp only [work, gone]
    rfl

/-! ### Tasks that stand aside -/

/-- Whether the stage leaves the workbench and the sessions alone. -/
def Stage.isAside : Stage → Bool
  | .pause | .sleep _ | .publish _ | .record _ | .send .. | .announceLicense _ => true
  | .lint _ | .reconcile .. | .publishAll .. | .finishPass .. => true
  | _ => false

/-- The task leaves the workbench and the sessions alone, whatever it still does or reacts with. -/
def Task.IsAside (t : Task) : Prop := ∀ s, s ∈ t.stages ∨ s ∈ t.handler → s.isAside = true

theorem isAside_ended : Task.IsAside .ended := by
  rintro s (mem | mem) <;> cases mem

theorem isAside_keeper (inbox : Nat) (period : QuietPeriod) (reconciler : Nat) :
    Task.IsAside (.keeper inbox period reconciler) := by
  rintro s (mem | mem) <;> cases mem

theorem isAside_licenseFollower (h : Host) (s : Session) : (h.licenseFollower s).IsAside := by
  rintro t (mem | mem)
  · cases mem
  · obtain rfl | rfl : t = .announceLicense (.inbox s.inbox) ∨ t = .pause := by
      simpa [licenseFollower, Task.handler, Setting.Follower.attend] using mem
    · rfl
    · rfl

/-- A stage that stands aside leads to such stages only. -/
theorem perform_aside (h : Host) (id : Nat) {s : Stage} (aside : s.isAside = true) :
    (h.perform id s).1.scene = h.scene ∧
      ∀ t ∈ (h.perform id s).2.stages, t.isAside = true := by
  cases s with
  | pause => exact ⟨rfl, List.forall_mem_nil _⟩
  | sleep ms =>
    simp only [perform, sleep]
    split <;> exact ⟨rfl, List.forall_mem_nil _⟩
  | publish p =>
    refine ⟨rfl, fun t mem => ?_⟩
    obtain pauses | rest := List.mem_append.1 mem
    · rw [List.eq_of_mem_replicate pauses]
      rfl
    · obtain rfl | rfl : t = .sleep h.script.publishDelay ∨ t = .record p := by simpa using rest
      · rfl
      · rfl
  | record p => exact ⟨rfl, List.forall_mem_nil _⟩
  | send requests t => exact ⟨scene_send h requests t, List.forall_mem_nil _⟩
  | announceLicense requests =>
    refine ⟨rfl, fun t mem => ?_⟩
    obtain rfl | rfl := mem_announce mem <;> rfl
  | lint reconciler =>
    simp only [perform, lint]
    split
    · exact ⟨rfl, List.forall_mem_nil _⟩
    · exact ⟨rfl, by simp [Flow.stages, Stage.isAside]⟩
  | reconcile reconciler failures =>
    refine ⟨scene_acquire h id reconciler _, fun t mem => ?_⟩
    obtain same | none := stages_acquire h id reconciler [.publishAll reconciler failures]
    · obtain rfl := List.mem_singleton.1 (same ▸ mem)
      rfl
    · cases none ▸ mem
  | publishAll reconciler failures =>
    refine ⟨rfl, fun t mem => ?_⟩
    obtain publishes | last := List.mem_append.1 mem
    · obtain ⟨p, -, rfl⟩ := List.mem_map.1 publishes
      rfl
    · obtain rfl := List.mem_singleton.1 last
      rfl
  | finishPass reconciler plan => exact ⟨scene_release _ reconciler, List.forall_mem_nil _⟩
  | _ => cases aside

/-- What a turn of a task that stands aside leaves behind: the other tasks are in their places, and
whoever is new stands aside. -/
structure Apart (id : Nat) (x y : Scene) : Prop where
  bench : y.bench = x.bench
  session : y.session = x.session
  activating : y.activating = x.activating
  old : ∀ {other : Nat} {t : Task}, other ≠ id → x.tasks[other]? = some t →
    y.tasks[other]? = some t
  new : ∀ {other : Nat} {t : Task}, y.tasks[other]? = some t →
    t.IsAside ∨ other ≠ id ∧ x.tasks[other]? = some t

theorem apart_of_tasks {id : Nat} {x : Scene} {u : Task} {added : List Task} (own : u.IsAside)
    (more : ∀ a ∈ added, a.IsAside) : Apart id x { x with tasks := (x.tasks ++ added).set id u } := by
  refine ⟨rfl, rfl, rfl, fun {other t} different here => ?_, fun {other t} here => ?_⟩
  · obtain ⟨inside, -⟩ := List.getElem?_eq_some_iff.1 here
    rw [List.getElem?_set_ne different.symm, List.getElem?_append_left inside]
    exact here
  · obtain ⟨-, rfl⟩ | old | ⟨-, mem⟩ := place_cases here
    · exact .inl own
    · exact .inr old
    · exact .inl (more t mem)

/-- The turn of a task that stands aside. -/
theorem work_aside {h : Host} {id : Nat} (aside : ∀ t, h.tasks[id]? = some t → t.IsAside) :
    Apart id h.scene (h.work id).scene := by
  cases task : h.tasks[id]? with
  | none =>
    rw [scene_work_ended (.inl task)]
    refine ⟨rfl, rfl, rfl, fun _ here => here, fun {other t} here => .inr ⟨?_, here⟩⟩
    rintro rfl
    cases task.symm.trans here
  | some t =>
    replace aside := aside t task
    cases stages : t.stages with
    | nil =>
      obtain ⟨bench, _, session, activating, u, added, tasks, next, handler, new⟩ :=
        work_idles task stages
      have scene : (h.work id).scene = { h.scene with tasks := (h.tasks ++ added).set id u } := by
        simp only [Host.scene, bench, session, activating, tasks]
      rw [scene]
      refine apart_of_tasks (fun s mem => aside s (.inr ?_)) fun a mem => ?_
      · obtain own | reacts := mem
        · obtain same | same := next
          · cases same ▸ own
          · exact same ▸ own
        · obtain same | same := handler
          · cases same ▸ reacts
          · exact same ▸ reacts
      · obtain ⟨reconciler, rfl⟩ := new a mem
        rintro s (own | reacts)
        · obtain rfl := List.mem_singleton.1 own
          rfl
        · cases reacts
    | cons s rest =>
      obtain ⟨u, next, handler, left⟩ := work_does task stages
      obtain ⟨same, leads⟩ := perform_aside h id (aside s (.inl (stages ▸ List.mem_cons_self)))
      have scene : (h.work id).scene = { h.scene with tasks := (h.tasks ++ []).set id u } := by
        have tasks : (h.perform id s).1.tasks = h.tasks := congrArg Scene.tasks same
        have scenes := congrArg Host.scene left
        rw [List.append_nil, ← tasks, ← same]
        exact scenes
      rw [scene]
      refine apart_of_tasks (fun v mem => ?_) (List.forall_mem_nil _)
      rw [next, handler] at mem
      obtain own | reacts := mem
      · obtain new | old := List.mem_append.1 own
        · exact leads v new
        · exact aside v (.inl (stages ▸ List.mem_cons_of_mem _ old))
      · exact aside v (.inr reacts)

/-! ### Events -/

/-- What can happen while a session is activated, while it is at work, and while it is stopped. -/
inductive Event
  | move (m : Move)
  /-- The follower whose turn it is reads on, although it has been cancelled. -/
  | readOn
  /-- The main task begins to end the session. -/
  | shutDown
  /-- Someone asks for a pass. -/
  | request (t : Trigger)
  /-- Time passes. -/
  | elapse (ms : Nat)

/-- The host while nobody has been cancelled. -/
def unaware (h : Host) : Host := { h with tokens := [] }

/-- The follower whose turn it is goes on as if nobody had cancelled it. -/
def readOn? (h : Host) : Option Host :=
  match h.running with
  | none => none
  | some id =>
    match h.tasks[id]? with
    | some (.follower ..) => some { h.unaware.work id with tokens := h.tokens }
    | _ => none

def shutDown? (h : Host) : Option Host :=
  if h.isIdle then
    let (begun, stages) := h.begin .shutDown
    some (begun.setTask main (.routine stages))
  else none

def event? (h : Host) : Event → Option Host
  | .move m => h.move? m
  | .readOn => h.readOn?
  | .shutDown => h.shutDown?
  | .request t => if h.running.isNone then some (h.send h.requests t) else none
  | .elapse ms => if h.running.isNone then some { h with clock := h.clock + ms } else none

/-- The host after some events, if all of them can happen. -/
def after? (h : Host) (events : List Event) : Option Host := events.foldlM event? h

/-- The host as it was at some time of the events. -/
def Visits (h : Host) (events : List Event) (mid : Host) : Prop :=
  ∃ before later, events = before ++ later ∧ h.after? before = some mid

/-- Only these settings are written from outside. -/
def Event.WritesOnly (outside : Setting.Key → Prop) : Event → Prop
  | .move (.write key _) => outside key
  | _ => True

theorem Event.writesOnly_any (e : Event) : e.WritesOnly fun _ => True := by
  cases e with
  | move m => cases m <;> trivial
  | _ => trivial

theorem after?_concat {h k : Host} {events : List Event} {e : Event}
    (run : h.after? (events ++ [e]) = some k) :
    ∃ mid, h.after? events = some mid ∧ mid.event? e = some k := by
  rw [after?, List.foldlM_append] at run
  obtain ⟨mid, before, last⟩ := Option.bind_eq_some_iff.1 run
  refine ⟨mid, before, ?_⟩
  simpa using last

theorem visits_first (h : Host) (events : List Event) : h.Visits events h := ⟨[], events, rfl, rfl⟩

theorem visits_last {h k : Host} {events : List Event} (run : h.after? events = some k) :
    h.Visits events k := ⟨events, [], (List.append_nil _).symm, run⟩

theorem Visits.append {h mid : Host} {events : List Event} (visits : h.Visits events mid)
    (more : List Event) : h.Visits (events ++ more) mid := by
  obtain ⟨before, later, rfl, run⟩ := visits
  exact ⟨before, later ++ more, List.append_assoc .., run⟩

/-- What is visited after some events have led there is visited in all. -/
theorem Visits.after {h k mid : Host} {first second : List Event} (visits : k.Visits second mid)
    (run : h.after? first = some k) : h.Visits (first ++ second) mid := by
  obtain ⟨before, later, rfl, rest⟩ := visits
  refine ⟨first ++ before, later, (List.append_assoc ..).symm, ?_⟩
  rw [after?, List.foldlM_append, ← after?, run]
  exact rest

theorem visits_nil {h mid : Host} (visits : h.Visits [] mid) : mid = h := by
  obtain ⟨before, later, split, run⟩ := visits
  obtain ⟨rfl, -⟩ := List.append_eq_nil_iff.1 split.symm
  exact (Option.some.inj run).symm

/-- What was visited with one more event is what was visited before it, or what it led to. -/
theorem visits_concat {h k mid : Host} {events : List Event} {e : Event}
    (run : h.after? (events ++ [e]) = some k) (visits : h.Visits (events ++ [e]) mid) :
    h.Visits events mid ∨ mid = k := by
  obtain ⟨before, later, split, visited⟩ := visits
  obtain rfl | ⟨between, last, rfl⟩ := List.eq_nil_or_concat later
  · rw [List.append_nil] at split
    rw [← split, run] at visited
    exact .inr (Option.some.inj visited).symm
  · rw [List.concat_eq_append, ← List.append_assoc] at split
    exact .inl ⟨before, between, (List.append_inj' split rfl).1, visited⟩

/-- The stages in which the main task ends the session, if there is one. -/
def Scene.endingStages (x : Scene) : List Stage :=
  match x.session with
  | some s => [.join s.followers, .endSession]
  | none => []

/-- What an event comes to: nothing that a session has to do with, a write from outside, a turn of some
task, or the beginning of the end of the session. -/
inductive Happens (outside : Setting.Key → Prop) (x : Scene) : Scene → Prop
  | still : Happens outside x x
  | write {key : Setting.Key} {value : Json.Value} {bench : Workbench} (allowed : outside key)
      (written : x.bench.write key value = .ok bench) : Happens outside x { x with bench }
  | turn {h : Host} {id : Nat} (now : h.scene = x) : Happens outside x (h.work id).scene
  | shutDown (idle : x.tasks[main]? = some (.routine [])) :
      Happens outside x (x.set main (.routine x.endingStages))

theorem Happens.of_same {outside : Setting.Key → Prop} {x y : Scene} (same : y = x) :
    Happens outside x y := same ▸ .still

theorem happens_of_move? {outside : Setting.Key → Prop} {h k : Host} {m : Move}
    (writes : (Event.move m).WritesOnly outside) (move : h.move? m = some k) :
    Happens outside h.scene k.scene := by
  cases m with
  | resume id =>
    obtain ⟨-, -, rfl⟩ := move?_resume move
    exact .still
  | work =>
    obtain ⟨id, -, rfl⟩ := move?_work move
    exact .turn rfl
  | write key value =>
    obtain ⟨-, bench, written, rfl⟩ := move?_write move
    rw [scene_withBench]
    exact .write writes written
  | rescript script =>
    obtain ⟨-, rfl⟩ := move?_rescript move
    exact .still
  | publish p =>
    obtain ⟨-, rfl⟩ := move?_publish move
    exact .still
  | regroup reconciler waiting =>
    obtain ⟨-, regrouped⟩ := move?_regroup move
    unfold regroup? at regrouped
    split at regrouped
    · split at regrouped
      · obtain rfl := Option.some.inj regrouped
        exact .still
      · cases regrouped
    · cases regrouped

theorem happens_of_shutDown? {outside : Setting.Key → Prop} {h k : Host}
    (begins : h.shutDown? = some k) : Happens outside h.scene k.scene := by
  unfold shutDown? at begins
  split at begins
  · rename_i idle
    have ended : k.scene = h.scene.set main (.routine h.scene.endingStages) := by
      cases session : h.session with
      | none =>
        have nothing : h.scene.endingStages = [] := by simp [Scene.endingStages, scene, session]
        simp only [begin, beginShutdown, session, Option.some.injEq] at begins
        rw [nothing, ← begins, scene_setTask]
      | some s =>
        have stages : h.scene.endingStages = [.join s.followers, .endSession] := by
          simp [Scene.endingStages, scene, session]
        simp only [begin, beginShutdown, session, Option.some.injEq] at begins
        rw [stages, ← begins, scene_setTask, scene_cancel]
    exact ended ▸ .shutDown (idle_main idle).2
  · cases begins

theorem happens_of_event? {outside : Setting.Key → Prop} {h k : Host} {e : Event}
    (writes : e.WritesOnly outside) (event : h.event? e = some k) :
    Happens outside h.scene k.scene := by
  cases e with
  | move m => exact happens_of_move? writes event
  | shutDown => exact happens_of_shutDown? event
  | readOn =>
    simp only [event?, readOn?] at event
    split at event
    · cases event
    · split at event
      · obtain rfl := Option.some.inj event
        exact .turn (h := h.unaware) rfl
      · cases event
  | request t =>
    simp only [event?] at event
    split at event
    · obtain rfl := Option.some.inj event
      exact .of_same (scene_send h _ t)
    · cases event
  | elapse ms =>
    simp only [event?] at event
    split at event
    · obtain rfl := Option.some.inj event
      exact .still
    · cases event

/-- What holds at the start and is kept by all that happens holds after all events. -/
theorem after?_induction {outside : Setting.Key → Prop} {start : Host}
    {P : List Event → Host → Prop} (nil : P [] start)
    (concat : ∀ events h e k, start.after? (events ++ [e]) = some k →
      Happens outside h.scene k.scene → P events h → P (events ++ [e]) k) :
    ∀ events k, start.after? events = some k → (∀ e ∈ events, e.WritesOnly outside) →
      P events k := by
  intro events
  induction events using List.reverseRecOn with
  | nil =>
    intro k run _
    obtain rfl : start = k := by simpa [after?] using run
    exact nil
  | append_singleton events e ih =>
    intro k run writes
    obtain ⟨h, before, event⟩ := after?_concat run
    have own := writes e (List.mem_append_right _ (List.mem_singleton_self e))
    exact concat events h e k run (happens_of_event? own event)
      (ih h before fun e mem => writes e (List.mem_append_left _ mem))

/-- The same, where something is known of the host at all times. -/
theorem after?_induction_of_visits {outside : Setting.Key → Prop} {start : Host} {Q : Host → Prop}
    {P : List Event → Host → Prop} (nil : Q start → P [] start)
    (concat : ∀ events h e k, start.after? (events ++ [e]) = some k →
      Happens outside h.scene k.scene → Q h → Q k → P events h → P (events ++ [e]) k)
    {events : List Event} {k : Host} (run : start.after? events = some k)
    (writes : ∀ e ∈ events, e.WritesOnly outside) (always : ∀ mid, start.Visits events mid → Q mid) :
    P events k := by
  refine (after?_induction (P := fun events k =>
    (∀ mid, start.Visits events mid → Q mid) → Q k ∧ P events k) (fun always => ?_)
    (fun events h e k run happens ih always => ?_) events k run writes always).2
  · have begins := always start (visits_last rfl)
    exact ⟨begins, nil begins⟩
  · obtain ⟨before, holds⟩ := ih fun mid visits => always mid (visits.append [e])
    have now := always k (visits_last run)
    exact ⟨now, concat events h e k run happens before now holds⟩

end ModelWorkspace.Host
