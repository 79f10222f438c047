import ModelWorkspace.Proofs.Session.Home
import ModelWorkspace.Proofs.Session.Scene

/-! A session whose followers are in their places, from the time at which they come until they have
left. To stop the session, the main task cancels them and waits until all have ended. A follower ends
where it listens, and a change that it could still read may come first; a handler that has begun is
gone through. `Host.InPlace` is what stays true on the way, whatever other tasks do. -/
namespace ModelWorkspace.Host

open Cascade (Role)
open Setting (Follower)

section InPlace

variable {first token base : Nat} {s : Session} {outside : Setting.Key → Prop}

def Gone (first : Nat) (x : Scene) : Prop :=
  ∀ role : Role, x.tasks[first + role.seat]? = some .ended

/-- What the main task has still to do for the session. -/
inductive Remains (first : Nat) (s : Session) (x : Scene) : List Stage → Prop
  | arriving {rest : List Stage} (activating : x.activating = some s) (none : x.session = none)
      (calm : ∀ t ∈ rest, t.isAside = true ∨ t = .greet) :
      Remains first s x (rest ++ [.finishActivation false])
  | running (session : x.session = some s) : Remains first s x []
  | joining (session : x.session = some s) : Remains first s x [.join s.followers, .endSession]
  | joined (session : x.session = some s) (gone : Gone first x) : Remains first s x [.endSession]
  | ended (none : x.session = none) (gone : Gone first x) : Remains first s x []

theorem Remains.keep {x y : Scene} {stages : List Stage} (remains : Remains first s x stages)
    (session : y.session = x.session) (activating : y.activating = x.activating)
    (gone : Gone first x → Gone first y) : Remains first s y stages := by
  cases remains with
  | arriving comes none calm =>
    exact .arriving (activating.trans comes) (session.trans none) calm
  | running same => exact .running (session.trans same)
  | joining same => exact .joining (session.trans same)
  | joined same left => exact .joined (session.trans same) (gone left)
  | ended none left => exact .ended (session.trans none) (gone left)

/-- The session is there or on its way out: each follower of the cascade serves in its role, or has
ended, all other tasks but the main task stand aside, and the main task does not end the session
before all followers have ended. -/
structure InPlace (first token base : Nat) (s : Session) (x : Scene) : Prop where
  behind : main < first
  seat : ∀ role : Role,
    (∃ f, x.tasks[first + role.seat]? = some (.follower token none f) ∧
      Serves role base x.bench.settings.feed f) ∨
    x.tasks[first + role.seat]? = some .ended
  others : ∀ {id : Nat} {t : Task}, x.tasks[id]? = some t → id ≠ main →
    (∀ role : Role, id ≠ first + role.seat) → t.IsAside
  inSession : ∀ role : Role, s.followers[role.seat]? = some (first + role.seat)
  lasting : s.restarting = false
  main : ∃ stages, x.tasks[main]? = some (.routine stages) ∧ Remains first s x stages

/-- What an event does to the workbench and to the followers. -/
inductive Passing (first token : Nat) (outside : Setting.Key → Prop) (x y : Scene) : Prop
  | aside (bench : x.bench.OnlyNotices y.bench)
      (seats : ∀ role : Role, y.tasks[first + role.seat]? = x.tasks[first + role.seat]?)
  | work {role : Role} {f g : Follower Stage}
      (task : x.tasks[first + role.seat]? = some (.follower token none f))
      (advance : Advance x.bench f y.bench g)
      (tasks : y.tasks = x.tasks.set (first + role.seat) (.follower token none g))
  | leave {role : Role} {f : Follower Stage}
      (task : x.tasks[first + role.seat]? = some (.follower token none f))
      (phase : f.phase = .listening) (bench : y.bench = x.bench)
      (tasks : y.tasks = x.tasks.set (first + role.seat) .ended)
  | write {key : Setting.Key} {value : Json.Value} (allowed : outside key)
      (written : x.bench.write key value = .ok y.bench) (tasks : y.tasks = x.tasks)

/-- An event, as it looks to the follower of a role: its own work, its end, or what others do. -/
inductive Seen (role : Role) (first token : Nat) (outside : Setting.Key → Prop) (x y : Scene) : Prop
  | own {f g : Follower Stage} (task : x.tasks[first + role.seat]? = some (.follower token none f))
      (advance : Advance x.bench f y.bench g)
      (next : y.tasks[first + role.seat]? = some (.follower token none g))
  | left {f : Follower Stage} (task : x.tasks[first + role.seat]? = some (.follower token none f))
      (phase : f.phase = .listening) (bench : y.bench = x.bench)
      (next : y.tasks[first + role.seat]? = some .ended)
  | others (change : Meanwhile role outside x.bench y.bench)
      (next : y.tasks[first + role.seat]? = x.tasks[first + role.seat]?)
  | notices (bench : x.bench.OnlyNotices y.bench)
      (next : y.tasks[first + role.seat]? = x.tasks[first + role.seat]?)

theorem seat_ne_main (behind : main < first) (role : Role) : first + role.seat ≠ main :=
  Nat.ne_of_gt (Nat.lt_add_right _ behind)

/-- Whoever is found on the seat of a role, and has not ended, is in that role. -/
theorem InPlace.serves {x : Scene} (inPlace : InPlace first token base s x) {role : Role}
    {f : Follower Stage}
    (task : x.tasks[first + role.seat]? = some (.follower token none f)) :
    Serves role base x.bench.settings.feed f := by
  obtain ⟨f', here, serves⟩ | ended := inPlace.seat role
  · obtain rfl : f' = f := by simpa [task] using here.symm
    exact serves
  · cases task.symm.trans ended

theorem InPlace.seen {x y : Scene} (inPlace : InPlace first token base s x)
    (passing : Passing first token outside x y) (role : Role) :
    Seen role first token outside x y := by
  cases passing with
  | aside bench seats => exact .notices bench (seats role)
  | @work other f g task advance tasks =>
    by_cases same : other = role
    · subst same
      obtain ⟨inside, -⟩ := List.getElem?_eq_some_iff.1 task
      exact .own task advance (tasks ▸ List.getElem?_set_self inside)
    · refine .others ((inPlace.serves task).meanwhile advance same) ?_
      rw [tasks, List.getElem?_set_ne (seats_ne same)]
  | @leave other f task phase bench tasks =>
    by_cases same : other = role
    · subst same
      obtain ⟨inside, -⟩ := List.getElem?_eq_some_iff.1 task
      exact .left task phase bench (tasks ▸ List.getElem?_set_self inside)
    · refine .others (bench ▸ .nothing) ?_
      rw [tasks, List.getElem?_set_ne (seats_ne same)]
  | write allowed written tasks => exact .others (.write allowed written) (by rw [tasks])

/-- What is left of the session after an event that the main task has no part in. -/
theorem InPlace.keep {x y : Scene} (inPlace : InPlace first token base s x)
    (passing : Passing first token outside x y) (session : y.session = x.session)
    (activating : y.activating = x.activating)
    (own : y.tasks[Host.main]? = x.tasks[Host.main]?)
    (others : ∀ {id : Nat} {t : Task}, y.tasks[id]? = some t → id ≠ Host.main →
      (∀ role : Role, id ≠ first + role.seat) → t.IsAside) :
    InPlace first token base s y := by
  obtain ⟨stages, task, remains⟩ := inPlace.main
  have seen := inPlace.seen passing
  refine ⟨inPlace.behind, fun role => ?_, others, inPlace.inSession, inPlace.lasting, stages,
    own.trans task, remains.keep session activating fun gone role => ?_⟩
  · cases seen role with
    | @own f g task advance next => exact .inl ⟨g, next, (inPlace.serves task).advance advance⟩
    | left task phase bench next => exact .inr next
    | others change next =>
      rw [next]
      exact (inPlace.seat role).imp_left fun ⟨f, task, serves⟩ =>
        ⟨f, task, serves.later change.size_le⟩
    | notices bench next =>
      obtain ⟨notices, same⟩ := bench
      rw [next, same]
      exact inPlace.seat role
  · cases seen role with
    | own task _ _ => cases task.symm.trans (gone role)
    | left task _ _ _ => cases task.symm.trans (gone role)
    | others _ next | notices _ next => exact next.trans (gone role)

/-! ### The turns of followers -/

/-- A task whose next stage is one of the cascade, if it has any, leaves the sessions alone. -/
theorem session_cascade {h : Host} {id : Nat} {t : Task} (task : h.tasks[id]? = some t)
    (own : ∀ s rest, t.stages = s :: rest → ∃ c, s = .cascade c) :
    (h.work id).session = h.session ∧ (h.work id).activating = h.activating := by
  cases stages : t.stages with
  | nil =>
    have idles := work_idles task stages
    exact ⟨idles.session, idles.activating⟩
  | cons s rest =>
    obtain ⟨c, rfl⟩ := own s rest stages
    obtain ⟨u, -, -, left⟩ := work_does task stages
    have performed := (perform_cascade h id c).1
    have session := congrArg Host.session performed
    have activating := congrArg Host.activating performed
    exact ⟨(congrArg Host.session left).trans session,
      (congrArg Host.activating left).trans activating⟩

/-- The turn of a follower that is in its place: it does the next thing, or ends. -/
theorem work_seat {role : Role} {h : Host} {f : Follower Stage}
    (task : h.tasks[first + role.seat]? = some (.follower token none f))
    (serves : Serves role base h.bench.settings.feed f) :
    Passing first token outside h.scene (h.work (first + role.seat)).scene ∧
      ∃ t, (h.work (first + role.seat)).tasks = h.tasks.set (first + role.seat) t := by
  by_cases leaves : f.phase = .listening ∧ h.isCancelled token = true
  · obtain ⟨phase, cancelled⟩ := leaves
    have ends : h.work (first + role.seat) = (h.endTask (first + role.seat)).suspend := by
      simp only [work, task, workFollower, phase, listen, cancelled, if_true]
    have ended := alike_of_unscheduled (unscheduled_endTask h (first + role.seat))
    rw [ends]
    exact ⟨.leave task phase ended.bench ended.tasks, _, ended.tasks⟩
  · obtain ⟨g, advance, turned⟩ := work_follower task
      (fun phase => by simpa [phase] using leaves) serves.going serves.cascade
    exact ⟨.work task advance turned.tasks, _, turned.tasks⟩

theorem InPlace.seatTurn {h : Host} (inPlace : InPlace first token base s h.scene) {role : Role}
    {f : Follower Stage} (task : h.tasks[first + role.seat]? = some (.follower token none f)) :
    Passing first token outside h.scene (h.work (first + role.seat)).scene ∧
      InPlace first token base s (h.work (first + role.seat)).scene := by
  have serves := inPlace.serves task
  obtain ⟨passing, t, tasks⟩ : Passing first token outside h.scene (h.work (first + role.seat)).scene ∧
    _ := work_seat task serves
  obtain ⟨session, activating⟩ := session_cascade task fun s rest same => by
    obtain ⟨stages, own, -⟩ := serves.own
    obtain ⟨c, -, -, rfl, -⟩ := List.map_eq_cons_iff.1 (own.symm.trans same)
    exact ⟨c, rfl⟩
  refine ⟨passing, inPlace.keep passing session activating ?_ fun {id v} here apart aside => ?_⟩
  · change (h.work (first + role.seat)).tasks[Host.main]? = _
    rw [tasks, List.getElem?_set_ne (seat_ne_main inPlace.behind role)]
    rfl
  · change (h.work (first + role.seat)).tasks[id]? = _ at here
    rw [tasks, List.getElem?_set_ne (aside role).symm] at here
    exact inPlace.others here apart aside

/-- A task that stands aside has its turn. -/
theorem InPlace.asideTurn {h : Host} (inPlace : InPlace first token base s h.scene) {id : Nat}
    (apart : id ≠ Host.main) (aside : ∀ role : Role, id ≠ first + role.seat) :
    Passing first token outside h.scene (h.work id).scene ∧
      InPlace first token base s (h.work id).scene := by
  obtain ⟨bench, session, activating, old, new⟩ :=
    work_aside fun _ task => inPlace.others task apart aside
  have passing : Passing first token outside h.scene (h.work id).scene := by
    refine .aside (bench ▸ .refl _) fun role => ?_
    obtain ⟨f, here, -⟩ | here := inPlace.seat role <;>
      exact (old (aside role).symm here).trans here.symm
  obtain ⟨stages, main, -⟩ := inPlace.main
  refine ⟨passing, inPlace.keep passing session activating ((old apart.symm main).trans main.symm)
    fun {other t} here away seats => ?_⟩
  exact (new here).elim (fun stands => stands) fun old => inPlace.others old.2 away seats

/-! ### The main task -/

/-- The session ends, and the keeper of its requests with it. -/
structure Ends (h k : Host) : Prop where
  bench : k.bench = h.bench
  session : k.session = none
  activating : k.activating = h.activating
  length : k.tasks.length = h.tasks.length
  tasks : ∀ id : Nat, k.tasks[id]? = h.tasks[id]? ∨ k.tasks[id]? = some .ended

theorem ends_endSession (h : Host) : Ends h h.endSession := by
  have still (session : h.session = none) : Ends h h :=
    ⟨rfl, session, rfl, rfl, fun _ => .inl rfl⟩
  unfold endSession
  cases session : h.session with
  | none => exact still session
  | some s =>
    unfold abandon
    dsimp only
    split
    · refine ⟨rfl, rfl, rfl, List.length_set, fun id => ?_⟩
      simp only [setTask, dropTimers, List.getElem?_set]
      split
      · split
        · exact .inr rfl
        · rename_i same outside
          rw [List.getElem?_eq_none_iff.2 (same ▸ Nat.le_of_not_lt outside)]
          exact .inl rfl
      · exact .inl rfl
    · exact ⟨rfl, rfl, rfl, rfl, fun _ => .inl rfl⟩

/-- The main task goes on with other stages. -/
theorem InPlace.setMain {x y : Scene} {stages : List Stage}
    (inPlace : InPlace first token base s x) (bench : x.bench.OnlyNotices y.bench)
    (tasks : y.tasks = x.tasks.set Host.main (.routine stages))
    (remains : (Gone first x → Gone first y) → Remains first s y stages) :
    Passing first token outside x y ∧ InPlace first token base s y := by
  have seats (role : Role) : y.tasks[first + role.seat]? = x.tasks[first + role.seat]? := by
    rw [tasks, List.getElem?_set_ne (seat_ne_main inPlace.behind role).symm]
  obtain ⟨old, task, -⟩ := inPlace.main
  obtain ⟨inside, -⟩ := List.getElem?_eq_some_iff.1 task
  refine ⟨.aside bench seats, inPlace.behind, fun role => ?_, fun {id t} here apart aside => ?_,
    inPlace.inSession, inPlace.lasting, stages, ?_,
    remains fun gone role => (seats role).trans (gone role)⟩
  · obtain ⟨notices, same⟩ := bench
    rw [seats, same]
    exact inPlace.seat role
  · rw [tasks, List.getElem?_set_ne apart.symm] at here
    exact inPlace.others here apart aside
  · rw [tasks, List.getElem?_set_self inside]

/-- The main task goes on with the activation of the session, which is there after the last stage. -/
theorem InPlace.arrivingTurn {h : Host} {rest : List Stage}
    (inPlace : InPlace first token base s h.scene)
    (task : h.tasks[Host.main]? = some (.routine (rest ++ [.finishActivation false])))
    (activating : h.activating = some s) (none : h.session = none)
    (calm : ∀ t ∈ rest, t.isAside = true ∨ t = .greet) :
    Passing first token outside h.scene (h.work Host.main).scene ∧
      InPlace first token base s (h.work Host.main).scene := by
  cases rest with
  | nil =>
    have installed : (h.perform Host.main (.finishActivation false)).1.scene =
        { h.scene with session := some { s with restarting := false }, activating := .none } := by
      change (h.installSession false).scene = _
      simp only [installSession, activating, scene_wakeOrphans]
      rfl
    have same : { s with restarting := false } = s := by
      obtain ⟨reconciler, inbox, token, followers, restarting⟩ := s
      cases inPlace.lasting
      rfl
    rw [scene_routine task, installed, same]
    exact inPlace.setMain (.refl _) rfl fun _ => .running rfl
  | cons t rest =>
    rw [List.forall_mem_cons] at calm
    rw [List.cons_append] at task
    rw [scene_routine task]
    obtain aside | rfl := calm.1
    · obtain ⟨same, leads⟩ := perform_aside h Host.main aside
      rw [same, ← List.append_assoc]
      refine inPlace.setMain (.refl _) rfl fun _ => .arriving activating none fun u mem => ?_
      exact (List.mem_append.1 mem).elim (fun new => .inl (leads u new)) (calm.2 u)
    · have greeted : (h.perform Host.main .greet).1.scene =
          { h.scene with bench := h.bench.inform startedNotice } := scene_withBench h _
      rw [greeted]
      exact inPlace.setMain ⟨_, rfl⟩ rfl fun _ => .arriving activating none calm.2

/-- The main task waits until all followers have ended. -/
theorem InPlace.joinTurn {h : Host} (inPlace : InPlace first token base s h.scene)
    (task : h.tasks[Host.main]? = some (.routine [.join s.followers, .endSession]))
    (session : h.session = some s) :
    Passing first token outside h.scene (h.work Host.main).scene ∧
      InPlace first token base s (h.work Host.main).scene := by
  rw [scene_routine task]
  by_cases all : s.followers.all h.hasEnded = true
  · have gone : Gone first h.scene := fun role => by
      have ended := List.all_eq_true.1 all _ (List.mem_of_getElem? (inPlace.inSession role))
      obtain ⟨f, here, -⟩ | here := inPlace.seat role
      · replace here : h.tasks[first + role.seat]? = _ := here
        simp [hasEnded, here] at ended
      · exact here
    have joined : h.perform Host.main (.join s.followers) = (h, .next []) := by
      simp only [perform, join, all, if_true]
    rw [joined]
    exact inPlace.setMain (.refl _) rfl fun keeps => .joined session (keeps gone)
  · have joined : h.perform Host.main (.join s.followers) =
        ({ h with joining := true }, .suspend [.join s.followers]) := by
      simp only [perform, join, all, Bool.false_eq_true, if_false]
    rw [joined]
    exact inPlace.setMain (.refl _) rfl fun _ => .joining session

/-- The main task ends the session. -/
theorem InPlace.endTurn {h : Host} (inPlace : InPlace first token base s h.scene)
    (task : h.tasks[Host.main]? = some (.routine [.endSession])) (gone : Gone first h.scene) :
    Passing first token outside h.scene (h.work Host.main).scene ∧
      InPlace first token base s (h.work Host.main).scene := by
  obtain ⟨bench, none, -, length, tasks⟩ := ends_endSession h
  obtain ⟨inside, -⟩ := List.getElem?_eq_some_iff.1 task
  have ended : (h.work Host.main).scene = h.endSession.scene.set Host.main (.routine []) :=
    scene_routine task
  have place {id : Nat} (apart : id ≠ Host.main) :
      (h.work Host.main).scene.tasks[id]? = h.endSession.tasks[id]? := by
    rw [ended]
    exact List.getElem?_set_ne apart.symm
  have seats (role : Role) : (h.work Host.main).scene.tasks[first + role.seat]? = some .ended := by
    rw [place (seat_ne_main inPlace.behind role)]
    exact (tasks _).elim (fun same => same.trans (gone role)) id
  have aside : h.scene.bench.OnlyNotices (h.work Host.main).scene.bench := by
    rw [ended]
    change h.bench.OnlyNotices h.endSession.bench
    rw [bench]
    exact .refl _
  refine ⟨.aside aside fun role => (seats role).trans (gone role).symm, inPlace.behind,
    fun role => .inr (seats role), fun {id t} here apart others => ?_, inPlace.inSession,
    inPlace.lasting, [], ?_, .ended ?_ seats⟩
  · rw [place apart] at here
    obtain same | done := tasks id
    · exact inPlace.others (same ▸ here) apart others
    · obtain rfl := Option.some.inj (here.symm.trans done)
      exact isAside_ended
  · rw [ended]
    exact List.getElem?_set_self (length ▸ inside)
  · rw [ended]
    exact none

/-- The turn of the main task: it ends the session only when all followers have ended. -/
theorem InPlace.mainTurn {h : Host} (inPlace : InPlace first token base s h.scene) :
    Passing first token outside h.scene (h.work Host.main).scene ∧
      InPlace first token base s (h.work Host.main).scene := by
  obtain ⟨stages, task, remains⟩ := inPlace.main
  have waits (nothing : stages = []) :
      Passing first token outside h.scene (h.work Host.main).scene ∧
        InPlace first token base s (h.work Host.main).scene := by
    subst nothing
    rw [scene_waiting task]
    exact ⟨.aside (.refl _) fun _ => rfl, inPlace⟩
  cases remains with
  | running _ | ended _ _ => exact waits rfl
  | arriving activating none calm => exact inPlace.arrivingTurn task activating none calm
  | joining session => exact inPlace.joinTurn task session
  | joined _ gone => exact inPlace.endTurn task gone

/-- Whatever happens, the session stays on its way. -/
theorem InPlace.happens {x y : Scene} (inPlace : InPlace first token base s x)
    (happens : Happens outside x y) :
    Passing first token outside x y ∧ InPlace first token base s y := by
  cases happens with
  | still => exact ⟨.aside (.refl _) fun _ => rfl, inPlace⟩
  | @write key value bench allowed written =>
    have passing : Passing first token outside x { x with bench } := .write allowed written rfl
    exact ⟨passing, inPlace.keep passing rfl rfl rfl inPlace.others⟩
  | @turn h id now =>
    subst now
    by_cases own : id = Host.main
    · subst own
      exact inPlace.mainTurn
    · by_cases seat : ∃ role : Role, id = first + role.seat
      · obtain ⟨role, rfl⟩ := seat
        obtain ⟨f, here, -⟩ | ended := inPlace.seat role
        · exact inPlace.seatTurn here
        · rw [scene_work_ended (.inr ended)]
          exact ⟨.aside (.refl _) fun _ => rfl, inPlace⟩
      · exact inPlace.asideTurn own fun role same => seat ⟨role, same⟩
  | shutDown idle =>
    obtain ⟨stages, task, remains⟩ := inPlace.main
    have nothing : stages = [] := by simpa using task.symm.trans idle
    refine inPlace.setMain (.refl _) rfl fun keeps => ?_
    cases remains with
    | arriving _ _ _ => simp at nothing
    | joining _ | joined _ _ => cases nothing
    | running session =>
      have stages : x.endingStages = [.join s.followers, .endSession] := by
        simp only [Scene.endingStages, session]
      rw [stages]
      exact .joining session
    | ended none gone =>
      have stages : x.endingStages = [] := by simp only [Scene.endingStages, none]
      rw [stages] at keeps ⊢
      exact .ended none (keeps gone)

end InPlace

end ModelWorkspace.Host
