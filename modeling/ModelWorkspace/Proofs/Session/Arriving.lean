import ModelWorkspace.Proofs.License.Activation
import ModelWorkspace.Proofs.Session.Undone
import ModelWorkspace.Proofs.Startup.Repairing

/-! A session that is activated on a host where nobody else follows the settings. Start-up goes on until
the followers come, or until the editor restarts; other tasks have their turns all the while.
`Host.OnItsWay` follows the session from its first stage to its end, and `Host.Untouched` says that a
session that starts where all is in order leaves all as it is. -/
namespace ModelWorkspace.Host

open Cascade (Role Housed)
open Setting (Follower)

/-- All tasks but the main task stand aside. -/
def OthersAside (x : Scene) : Prop :=
  ∀ (id : Nat) t, x.tasks[id]? = some t → id ≠ main → t.IsAside

theorem OthersAside.setMain {x y : Scene} (others : OthersAside x) {t : Task}
    (tasks : y.tasks = x.tasks.set main t) : OthersAside y := by
  intro id u here apart
  rw [tasks, List.getElem?_set_ne apart.symm] at here
  exact others id u here apart

/-- There is no session, and no task but the main task can touch the workbench. -/
structure IsAlone (x : Scene) : Prop where
  none : x.session = none
  others : OthersAside x

section Events

variable {outside : Setting.Key → Prop} {x y : Scene}

/-- Nothing happens to the workbench but what is written from outside. -/
inductive Wrote (outside : Setting.Key → Prop) (w : Workbench) : Workbench → Prop
  | nothing : Wrote outside w w
  | write {key : Setting.Key} {value : Json.Value} {after : Workbench} (allowed : outside key)
      (written : w.write key value = .ok after) : Wrote outside w after

theorem Wrote.of_eq {w v : Workbench} (same : v = w) : Wrote outside w v := same ▸ .nothing

/-- Where nobody may write from outside, nothing happens to the workbench. -/
theorem Wrote.unchanged {w v : Workbench} (wrote : Wrote (fun _ => False) w v) : v = w := by
  cases wrote with
  | nothing => rfl
  | write allowed _ => exact allowed.elim

theorem Wrote.meanwhile {w v : Workbench} (wrote : Wrote outside w v) (role : Role) :
    Meanwhile role outside w v := by
  cases wrote with
  | nothing => exact .nothing
  | write allowed written => exact .write allowed written

theorem Wrote.get? {w v : Workbench} (wrote : Wrote outside w v) {key : Setting.Key}
    (other : ¬ outside key) : v.settings.get? key = w.settings.get? key := by
  cases wrote with
  | nothing => rfl
  | @write changed _ _ allowed written =>
    obtain ⟨-, rfl⟩ | ⟨files, rfl⟩ := Workbench.write_cases written
    · rfl
    · have apart : key ≠ changed := fun same => other (same ▸ allowed)
      rw [Setting.Store.get?_commit, if_neg apart]

theorem AtHome.wrote {start w v : Workbench} (home : AtHome start w) (steady : start.Steady v)
    (wrote : Wrote (· = .platformVersion) w v) : AtHome start v := by
  cases wrote with
  | nothing => exact home
  | write allowed written =>
    subst allowed
    exact home.write steady written

/-- The main task has no part in what happens. -/
structure Beside (outside : Setting.Key → Prop) (x y : Scene) : Prop where
  bench : Wrote outside x.bench y.bench
  session : y.session = x.session
  activating : y.activating = x.activating
  main : y.tasks[main]? = x.tasks[main]?
  others : OthersAside y

/-- What happens while all tasks but the main task stand aside. -/
theorem Happens.cases_main (happens : Happens outside x y) {stages : List Stage}
    (others : OthersAside x) (task : x.tasks[main]? = some (.routine stages)) :
    Beside outside x y ∨ (∃ h : Host, h.scene = x ∧ y = (h.work main).scene) ∨
      stages = [] ∧ y = x.set main (.routine x.endingStages) := by
  cases happens with
  | still => exact .inl ⟨.nothing, rfl, rfl, rfl, others⟩
  | write allowed written => exact .inl ⟨.write allowed written, rfl, rfl, rfl, others⟩
  | @turn h id now =>
    by_cases own : id = main
    · exact .inr (.inl ⟨h, now, own ▸ rfl⟩)
    · subst now
      obtain ⟨bench, session, activating, old, new⟩ :=
        work_aside fun t here => others id t here own
      refine .inl ⟨.of_eq bench, session, activating, ?_, fun other t here apart => ?_⟩
      · exact (old (Ne.symm own) task).trans task.symm
      · exact (new here).elim (fun stands => stands) fun before => others other t before.2 apart
  | shutDown idle =>
    refine .inr (.inr ⟨?_, rfl⟩)
    simpa using task.symm.trans idle

/-- What an event does to the workbench. -/
inductive Touches (outside : Setting.Key → Prop) (w : Workbench) : Workbench → Prop
  | notices {v : Workbench} (only : w.OnlyNotices v) : Touches outside w v
  | cascade (c : Cascade.Stage) : Touches outside w (c.perform w).1
  | startup (a : Startup.Stage) : Touches outside w (a.perform w).1
  | write {key : Setting.Key} {value : Json.Value} {after : Workbench} (allowed : outside key)
      (written : w.write key value = .ok after) : Touches outside w after

theorem Wrote.touches {w v : Workbench} (wrote : Wrote outside w v) : Touches outside w v := by
  cases wrote with
  | nothing => exact .notices (.refl w)
  | write allowed written => exact .write allowed written

theorem Passing.touches {first token : Nat} (passing : Passing first token outside x y) :
    Touches outside x.bench y.bench := by
  cases passing with
  | aside bench _ => exact .notices bench
  | work _ advance _ =>
    obtain ⟨c, rest, -, same⟩ | ⟨-, same⟩ := advance.stage_or_idle
    · exact same ▸ .cascade c
    · exact same ▸ .notices (.refl _)
  | leave _ _ bench _ => exact bench ▸ .notices (.refl _)
  | write allowed written _ => exact .write allowed written

theorem Touches.inMemory {start w v : Workbench} (touches : Touches outside w v)
    (kept : start.InMemory w) : start.InMemory v := by
  cases touches with
  | notices only =>
    obtain ⟨notices, rfl⟩ := only
    exact ⟨kept.memory, kept.reads⟩
  | cascade c => exact Cascade.inMemory_perform kept c
  | startup a => exact Startup.inMemory_perform kept a
  | write allowed written => exact kept.write written

end Events

/-! ### Before the followers come -/

section Opening

variable {s : Session} {stages : List Stage} {outside : Setting.Key → Prop} {h : Host} {x y : Scene}

/-- A session is being activated, and its followers have not come. -/
structure Opening (s : Session) (stages : List Stage) (x : Scene) : Prop where
  alone : IsAlone x
  activating : x.activating = some s
  fresh : s.followers = []
  lasting : s.restarting = false
  main : x.tasks[main]? = some (.routine stages)

theorem opening_activate (alone : IsAlone h.scene) (idle : h.isIdle = true) (editorActive : Bool) :
    Opening h.nextActivation [.activation .inspect] (h.activate editorActive).scene := by
  have scene := scene_activate h editorActive
  obtain ⟨inside, -⟩ := List.getElem?_eq_some_iff.1 (idle_main idle).2
  refine ⟨⟨?_, fun id t here apart => ?_⟩, ?_, rfl, rfl, ?_⟩
  · rw [scene]
    exact alone.none
  · rw [scene] at here
    obtain ⟨own, -⟩ | ⟨-, old⟩ | ⟨-, new⟩ := place_cases here
    · exact absurd own apart
    · exact alone.others id t old apart
    · obtain rfl := List.mem_singleton.1 new
      exact isAside_keeper _ _ _
  · rw [scene]
  · rw [scene]
    refine List.getElem?_set_self ?_
    rw [List.length_append]
    exact Nat.lt_add_right _ inside

theorem Opening.beside (opening : Opening s stages x) (beside : Beside outside x y) :
    Opening s stages y :=
  ⟨⟨beside.session.trans opening.alone.none, beside.others⟩,
    beside.activating.trans opening.activating, opening.fresh, opening.lasting,
    beside.main.trans opening.main⟩

theorem Opening.setMain (opening : Opening s stages x) (bench : Workbench) (next : List Stage) :
    Opening s next ({ x with bench }.set Host.main (.routine next)) := by
  obtain ⟨inside, -⟩ := List.getElem?_eq_some_iff.1 opening.main
  exact ⟨⟨opening.alone.none, opening.alone.others.setMain rfl⟩, opening.activating, opening.fresh,
    opening.lasting, List.getElem?_set_self inside⟩

theorem scene_startUp (h : Host) (stage : Startup.Stage → Stage) {finish : Bool → Host × Flow}
    (finishes : ∀ restarting, (finish restarting).1 = h) (a : Startup.Stage) :
    (h.startUp stage finish a).1.scene = { h.scene with bench := (a.perform h.bench).1 } := by
  unfold startUp
  split
  · rfl
  · rw [finishes]
    rfl
  · exact scene_withBench h _

/-- A stage of start-up. -/
theorem Opening.startUp {a : Startup.Stage} {rest : List Stage}
    (opening : Opening s (.activation a :: rest) h.scene) :
    (h.work Host.main).scene = { h.scene with bench := (a.perform h.bench).1 }.set Host.main
      (.routine ((h.perform Host.main (.activation a)).2.stages ++ rest)) := by
  rw [scene_routine opening.main]
  exact congrArg (Scene.set · Host.main _) (scene_startUp h .activation (fun _ => rfl) a)

/-- A follower of the session that has just come. -/
def IsNewcomer (first token : Nat) (x : Scene) : Prop := ∀ role : Role,
  x.tasks[first + role.seat]? = some (.follower token none (newcomer role x.bench.settings.feed))

theorem sessionFollowers_seat (h : Host) (s : Session) (role : Role) :
    (h.sessionFollowers s)[role.seat]? =
      some (.follower s.token none (newcomer role h.bench.settings.feed)) := by
  cases role <;> rfl

/-- A follower of a session is one of the cascade, or stands aside. -/
theorem sessionFollowers_cases {s : Session} {n : Nat} {t : Task}
    (here : (h.sessionFollowers s)[n]? = some t) : (∃ role : Role, n = role.seat) ∨ t.IsAside := by
  match n, here with
  | 0, _ => exact .inl ⟨.platform, rfl⟩
  | 1, _ => exact .inl ⟨.model, rfl⟩
  | 2, _ => exact .inl ⟨.directory, rfl⟩
  | 3, here =>
    obtain rfl : h.licenseFollower s = t := by simpa [sessionFollowers] using here
    exact .inr (isAside_licenseFollower h s)
  | n + 4, here => simp [sessionFollowers] at here

/-- The followers come. -/
theorem Opening.comes (opening : Opening s (sessionStages s) h.scene) :
    (h.work Host.main).scene.bench = h.bench ∧
      IsNewcomer h.tasks.length s.token (h.work Host.main).scene ∧
      ∃ s', InPlace h.tasks.length s.token h.bench.settings.feed.size s'
        (h.work Host.main).scene := by
  have task : h.tasks[Host.main]? = some (.routine (sessionStages s)) := opening.main
  obtain ⟨inside, -⟩ := List.getElem?_eq_some_iff.1 task
  have scene : (h.work Host.main).scene = h.followSettings.scene.set Host.main
      (.routine ([.announceLicense (.inbox s.inbox), .pause, .greet] ++
        [.finishActivation false])) := scene_routine task
  rw [scene_followSettings opening.activating] at scene
  have own : (h.work Host.main).scene.tasks[Host.main]? =
      some (.routine ([.announceLicense (.inbox s.inbox), .pause, .greet] ++
        [.finishActivation false])) := by
    rw [scene]
    refine List.getElem?_set_self ?_
    rw [List.length_append]
    exact Nat.lt_add_right _ inside
  have place {id : Nat} (apart : id ≠ Host.main) :
      (h.work Host.main).scene.tasks[id]? = (h.tasks ++ h.sessionFollowers s)[id]? := by
    rw [scene]
    exact List.getElem?_set_ne apart.symm
  have seat (role : Role) : (h.work Host.main).scene.tasks[h.tasks.length + role.seat]? =
      some (.follower s.token none (newcomer role h.bench.settings.feed)) := by
    rw [place (seat_ne_main inside role), List.getElem?_append_right (Nat.le_add_right ..),
      Nat.add_sub_cancel_left, sessionFollowers_seat]
  have bench : (h.work Host.main).scene.bench = h.bench := congrArg Scene.bench scene
  refine ⟨bench, fun role => bench.symm ▸ seat role,
    { s with followers := (List.range 4).map (h.tasks.length + ·) }, inside,
    fun role => .inl ⟨_, seat role, ?_⟩, fun {id t} here apart seats => ?_, fun role => ?_,
    opening.lasting, _, own, .arriving (congrArg Scene.activating scene) ?_ ?_⟩
  · rw [bench]
    exact serves_newcomer role _
  · rw [place apart] at here
    obtain old | ⟨n, rfl⟩ := Nat.lt_or_ge id h.tasks.length |>.imp_right Nat.exists_eq_add_of_le
    · rw [List.getElem?_append_left old] at here
      exact opening.alone.others id t here apart
    · rw [List.getElem?_append_right (Nat.le_add_right ..), Nat.add_sub_cancel_left] at here
      refine (sessionFollowers_cases here).resolve_left ?_
      rintro ⟨role, rfl⟩
      exact seats role rfl
  · cases role <;> rfl
  · exact (congrArg Scene.session scene).trans opening.alone.none
  · simp [Stage.isAside]

end Opening

/-! ### Where the editor restarts -/

/-- What the main task still does for a session that has no followers. -/
def Stage.isClosing : Stage → Bool
  | .finishActivation _ | .join _ | .endSession => true
  | _ => false

/-- What such a stage leaves of a host. -/
structure Closes (h k : Host) : Prop where
  bench : k.bench = h.bench
  length : k.tasks.length = h.tasks.length
  tasks : ∀ id : Nat, k.tasks[id]? = h.tasks[id]? ∨ k.tasks[id]? = some .ended
  empty : (∀ s, h.session = some s ∨ h.activating = some s → s.followers = []) →
    ∀ s, k.session = some s ∨ k.activating = some s → s.followers = []

theorem Closes.refl (h : Host) : Closes h h := ⟨rfl, rfl, fun _ => .inl rfl, fun empty => empty⟩

theorem closes_installSession (h : Host) (restarting : Bool) :
    Closes h (h.installSession restarting) := by
  unfold installSession
  cases activating : h.activating with
  | none => exact .refl h
  | some s =>
    let installed := { h with
      session := some { s with restarting }
      activating := none
      current := .inbox s.inbox }
    have same : installed.wakeOrphans.scene = installed.scene := scene_wakeOrphans installed
    have tasks : installed.wakeOrphans.tasks = h.tasks := congrArg Scene.tasks same
    refine ⟨congrArg Scene.bench same, by rw [tasks], fun id => .inl (by rw [tasks]), ?_⟩
    rintro empty t (session | activates)
    · obtain rfl := Option.some.inj ((congrArg Scene.session same).symm.trans session)
      exact empty s (.inr activating)
    · cases (congrArg Scene.activating same).symm.trans activates

theorem perform_closing (h : Host) {t : Stage} (closing : t.isClosing = true) :
    Closes h (h.perform main t).1 ∧
      ∀ u ∈ (h.perform main t).2.stages, u.isClosing = true := by
  cases t with
  | finishActivation restarting =>
    obtain ⟨bench, length, tasks, empty⟩ := closes_installSession h restarting
    exact ⟨⟨bench, length, tasks, empty⟩, List.forall_mem_nil _⟩
  | join ids =>
    simp only [perform, join]
    split
    · exact ⟨.refl h, List.forall_mem_nil _⟩
    · refine ⟨⟨rfl, rfl, fun _ => .inl rfl, fun empty => empty⟩, fun u mem => ?_⟩
      obtain rfl := List.mem_singleton.1 mem
      rfl
  | endSession =>
    obtain ⟨bench, none, activating, length, tasks⟩ := ends_endSession h
    refine ⟨⟨bench, length, tasks, ?_⟩, List.forall_mem_nil _⟩
    rintro empty s (session | activates)
    · cases none.symm.trans session
    · exact empty s (.inr (activating.symm.trans activates))
  | _ => cases closing

/-- A session that no follower has come for, because the editor restarts. -/
structure Unattended (x : Scene) : Prop where
  others : OthersAside x
  empty : ∀ s, x.session = some s ∨ x.activating = some s → s.followers = []
  main : ∃ stages, x.tasks[main]? = some (.routine stages) ∧ ∀ t ∈ stages, t.isClosing = true

namespace Unattended

variable {outside : Setting.Key → Prop} {h : Host} {x y : Scene}

theorem mainTurn (unattended : Unattended h.scene) :
    Unattended (h.work Host.main).scene ∧ (h.work Host.main).scene.bench = h.bench := by
  obtain ⟨stages, task, closing⟩ := unattended.main
  cases stages with
  | nil =>
    rw [scene_waiting task]
    exact ⟨unattended, rfl⟩
  | cons t rest =>
    rw [List.forall_mem_cons] at closing
    obtain ⟨⟨bench, length, tasks, empty⟩, leads⟩ := perform_closing h closing.1
    obtain ⟨inside, -⟩ := List.getElem?_eq_some_iff.1 task
    rw [scene_routine task]
    refine ⟨⟨fun id u here apart => ?_, empty unattended.empty, _,
      List.getElem?_set_self (length ▸ inside), fun u mem => ?_⟩, bench⟩
    · replace here := (List.getElem?_set_ne apart.symm).symm.trans here
      obtain same | gone := tasks id
      · exact unattended.others id u (same.symm.trans here) apart
      · obtain rfl := Option.some.inj (here.symm.trans gone)
        exact isAside_ended
    · exact (List.mem_append.1 mem).elim (leads u) (closing.2 u)

theorem happens (unattended : Unattended x) (happens : Happens outside x y) :
    Unattended y ∧ Wrote outside x.bench y.bench := by
  obtain ⟨stages, task, closing⟩ := unattended.main
  obtain ⟨bench, session, activating, own, others⟩ | ⟨h, rfl, rfl⟩ | ⟨rfl, rfl⟩ :=
    happens.cases_main unattended.others task
  · refine ⟨⟨others, fun s mem => unattended.empty s ?_, stages, own.trans task, closing⟩, bench⟩
    rwa [session, activating] at mem
  · obtain ⟨stays, bench⟩ := unattended.mainTurn
    exact ⟨stays, .of_eq bench⟩
  · obtain ⟨inside, -⟩ := List.getElem?_eq_some_iff.1 task
    refine ⟨⟨unattended.others.setMain rfl, unattended.empty, _, List.getElem?_set_self inside,
      fun t mem => ?_⟩, .nothing⟩
    unfold Scene.endingStages at mem
    split at mem
    · obtain rfl | rfl : t = .join _ ∨ t = .endSession := by simpa using mem
      · rfl
      · rfl
    · cases mem

end Unattended

/-! ### The whole way -/

/-- What the main task has to do for a session before its followers come. -/
def Opens (s : Session) (stages : List Stage) : Prop :=
  (∃ course, stages = course.map .activation ∧ Startup.IsCourse course) ∨ stages = sessionStages s

/-- A session on its way, from the first stage of start-up to the end. Of the followers that have come
something more may be known. -/
inductive OnItsWay (P : Nat → Nat → Nat → Scene → Prop) (x : Scene) : Prop
  | opening {s : Session} {stages : List Stage} (opening : Opening s stages x)
      (opens : Opens s stages)
  | inPlace {first token base : Nat} {s : Session} (inPlace : InPlace first token base s x)
      (known : P first token base x)
  | unattended (unattended : Unattended x)

section OnItsWay

variable {P : Nat → Nat → Nat → Scene → Prop} {outside : Setting.Key → Prop} {s : Session}
  {stages : List Stage} {h : Host} {x y : Scene}

theorem Opening.unattended (opening : Opening s [.finishActivation true] x) : Unattended x where
  others := opening.alone.others
  empty := by
    rintro t (session | activates)
    · cases opening.alone.none.symm.trans session
    · obtain rfl := Option.some.inj (opening.activating.symm.trans activates)
      exact opening.fresh
  main := ⟨_, opening.main, by simp [Stage.isClosing]⟩

theorem Opening.mainTurn (opening : Opening s stages h.scene) (opens : Opens s stages)
    (comes : ∀ {first token : Nat}, IsNewcomer first token (h.work Host.main).scene →
      P first token (h.work Host.main).scene.bench.settings.feed.size (h.work Host.main).scene) :
    OnItsWay P (h.work Host.main).scene ∧
      Touches outside h.bench (h.work Host.main).scene.bench := by
  obtain ⟨course, rfl, goes⟩ | rfl := opens
  · obtain ⟨a, rest, rfl⟩ := goes.eq_cons
    have next := perform_course opening.activating Host.main goes
    rw [opening.startUp]
    have goesOn := opening.setMain (a.perform h.bench).1
      ((h.perform Host.main (.activation a)).2.stages ++ rest.map .activation)
    refine ⟨?_, .startup a⟩
    obtain goes | starts | restarts := next
    · exact .opening goesOn (.inl goes)
    · exact .opening goesOn (.inr starts)
    · rw [restarts] at goesOn ⊢
      exact .unattended goesOn.unattended
  · obtain ⟨bench, newcomers, s', inPlace⟩ := opening.comes
    have known := comes newcomers
    rw [bench] at known
    exact ⟨.inPlace inPlace known, bench ▸ .notices (.refl _)⟩

/-- Whatever happens, the session stays on its way. -/
theorem OnItsWay.happens (way : OnItsWay P x) (happens : Happens outside x y)
    (comes : ∀ {first token : Nat}, IsNewcomer first token y →
      P first token y.bench.settings.feed.size y)
    (keeps : ∀ {first token base : Nat} {s : Session}, InPlace first token base s x →
      Passing first token outside x y → P first token base x → P first token base y) :
    OnItsWay P y ∧ Touches outside x.bench y.bench := by
  cases way with
  | @opening s stages opening opens =>
    obtain beside | ⟨h, rfl, rfl⟩ | ⟨rfl, -⟩ := happens.cases_main opening.alone.others opening.main
    · exact ⟨.opening (opening.beside beside) opens, beside.bench.touches⟩
    · exact opening.mainTurn opens comes
    · obtain ⟨course, none, goes⟩ | starts := opens
      · obtain ⟨a, rest, rfl⟩ := goes.eq_cons
        cases none
      · cases starts
  | inPlace inPlace known =>
    obtain ⟨passing, stays⟩ := inPlace.happens happens
    exact ⟨.inPlace stays (keeps inPlace passing known), passing.touches⟩
  | unattended unattended =>
    obtain ⟨stays, wrote⟩ := unattended.happens happens
    exact ⟨.unattended stays, wrote.touches⟩

/-- A session that is there has its followers in their places, or has none. -/
theorem OnItsWay.of_session (way : OnItsWay P x) (running : x.session = some s) :
    (∃ first token base, InPlace first token base s x ∧ P first token base x) ∨
      Unattended x ∧ s.followers = [] := by
  cases way with
  | opening opening _ => cases opening.alone.none.symm.trans running
  | @inPlace first token base t inPlace known =>
    obtain ⟨stages, -, remains⟩ := inPlace.main
    have same (session : x.session = some t) : t = s := Option.some.inj (session.symm.trans running)
    refine .inl ⟨first, token, base, ?_, known⟩
    cases remains with
    | arriving _ none _ | ended none _ => cases none.symm.trans running
    | running session | joining session | joined session _ => exact same session ▸ inPlace
  | unattended unattended => exact .inr ⟨unattended, unattended.empty s (.inl running)⟩

theorem onItsWay_activate (alone : IsAlone h.scene) (idle : h.isIdle = true) (editorActive : Bool) :
    OnItsWay P (h.activate editorActive).scene :=
  .opening (opening_activate alone idle editorActive)
    (.inl ⟨[.inspect], rfl, Startup.isCourse_single rfl⟩)

end OnItsWay

/-! ### Runs from the beginning -/

section Runs

variable {d : Duty} {h k : Host} {editorActive : Bool} {events : List Event}
  {outside : Setting.Key → Prop}

/-- The follower of the duty, while it is there, keeps it. -/
def Upheld (d : Duty) (first token base : Nat) (x : Scene) : Prop :=
  ∀ f, x.tasks[first + d.role.seat]? = some (.follower token none f) → d.Kept base x.bench f

theorem upheld_of_newcomer {first token : Nat} {x : Scene} (newcomers : IsNewcomer first token x) :
    Upheld d first token x.bench.settings.feed.size x := by
  intro f task
  obtain rfl : newcomer d.role x.bench.settings.feed = f := by
    simpa using (newcomers d.role).symm.trans task
  refine .inr (.inr ⟨nofun, ?_⟩)
  rw [Setting.Feed.since_size]
  exact nofun

theorem Upheld.passing {Q : Workbench → Prop} (laws : d.Laws outside Q) (ignores : d.IgnoresNotices)
    {first token base : Nat} {s : Session} {x y : Scene} (upheld : Upheld d first token base x)
    (inPlace : InPlace first token base s x) (before : Q x.bench) (now : Q y.bench)
    (passing : Passing first token outside x y) : Upheld d first token base y := by
  intro g here
  cases inPlace.seen passing d.role with
  | @own f g' task advance next =>
    obtain rfl : g' = g := by simpa using next.symm.trans here
    exact (upheld f task).advance laws (inPlace.serves task) before now advance
  | left _ _ _ next => cases next.symm.trans here
  | others change next =>
    have task := next.symm.trans here
    exact (upheld g task).others laws (inPlace.serves task) before now change
  | notices bench next => exact (upheld g (next.symm.trans here)).notices ignores bench

/-- From the beginning of an activation, a session stays on its way, and the follower of a duty that
nobody can spoil keeps it from when it comes until it leaves. -/
theorem upheld_of_run (laws : d.Laws (fun _ => True) fun _ => True) (ignores : d.IgnoresNotices)
    (alone : IsAlone h.scene) (idle : h.isIdle = true)
    (run : (h.activate editorActive).after? events = some k) : OnItsWay (Upheld d) k.scene := by
  refine after?_induction (P := fun _ k => OnItsWay (Upheld d) k.scene)
    (onItsWay_activate alone idle editorActive) (fun events mid e k _ happens way => ?_)
    events k run fun e _ => e.writesOnly_any
  exact (way.happens happens upheld_of_newcomer fun inPlace passing upheld =>
    upheld.passing laws ignores inPlace trivial trivial passing).1

/-- Settings that are held in memory stay there, and the files stay readable as they were. -/
theorem inMemory_of_run (memory : h.bench.settings.file = none) (alone : IsAlone h.scene)
    (idle : h.isIdle = true) (run : (h.activate editorActive).after? events = some k) :
    h.bench.InMemory k.bench := by
  have begins : h.bench.InMemory (h.activate editorActive).bench := by
    rw [bench_activate]
    exact ⟨memory, fun _ => rfl⟩
  refine (after?_induction (P := fun _ k =>
    OnItsWay (fun _ _ _ _ => True) k.scene ∧ h.bench.InMemory k.bench)
    ⟨onItsWay_activate alone idle editorActive, begins⟩
    (fun events mid e k _ happens ih => ?_) events k run fun e _ => e.writesOnly_any).2
  obtain ⟨way, kept⟩ := ih
  obtain ⟨way, touches⟩ := way.happens happens (fun _ => trivial) fun _ _ _ => trivial
  exact ⟨way, touches.inMemory kept⟩

/-- So the settings can be used at all times. -/
theorem steady_of_visits {i : Host} {before : List Event} (memory : h.bench.settings.file = none)
    (alone : IsAlone h.scene) (idle : h.isIdle = true)
    (starts : (h.activate editorActive).after? before = some i) :
    ∀ mid, i.Visits events mid → i.bench.Steady mid.bench := by
  intro mid visits
  obtain ⟨_, _, -, run⟩ := visits.after starts
  have was := (inMemory_of_run memory alone idle starts).steady
  have now := (inMemory_of_run memory alone idle run).steady
  exact ⟨now.writable, fun folder => (now.projects folder).trans (was.projects folder).symm⟩

end Runs

/-! ### Where all is in order -/

section Untouched

variable {w : Workbench} {h k : Host} {x y : Scene}

/-- Nothing but notices is new since the session began to start, and no follower has received
anything. -/
inductive Untouched (w : Workbench) (x : Scene) : Prop
  | opening {s : Session} {stages : List Stage} (opening : Opening s stages x)
      (bench : w.OnlyNotices x.bench)
      (next : stages = [.activation .inspect] ∨ stages = [.activation (.done false)] ∨
        stages = sessionStages s)
  | inPlace {first token base : Nat} {s : Session} (inPlace : InPlace first token base s x)
      (bench : w.OnlyNotices x.bench)
      (new : ∀ role f, x.tasks[first + role.seat]? = some (.follower token none f) →
        f = newcomer role w.settings.feed)

theorem Untouched.bench (untouched : Untouched w x) : w.OnlyNotices x.bench := by
  cases untouched with
  | opening _ bench _ | inPlace _ bench _ => exact bench

/-- Start-up finds nothing to repair. -/
theorem perform_inspect (housed : Housed w) :
    Startup.Stage.inspect.perform w = (w, [.done false]) := by
  obtain ⟨folder, others, folders⟩ := housed.folders
  simp [Startup.Stage.perform, housed.usable, folders]

/-- A follower that has just come has nothing to react to. -/
theorem Advance.newcomer {role : Role} {v after : Workbench} {g : Follower Stage}
    (same : v.settings = w.settings)
    (advance : Advance v (Host.newcomer role w.settings.feed) after g) :
    after = v ∧ g = Host.newcomer role w.settings.feed := by
  have unread : (Host.newcomer role w.settings.feed).receive? v.settings.feed = none := by
    rw [Follower.receive?_eq_none_iff, same]
    exact Nat.le_refl _
  cases advance with
  | wait _ _ => exact ⟨rfl, rfl⟩
  | receive _ received => cases unread.symm.trans received
  | consider phase | finish phase | perform phase => cases phase

theorem Untouched.mainTurn {s : Session} {stages : List Stage} (housed : Housed w)
    (opening : Opening s stages h.scene) (bench : w.OnlyNotices h.bench)
    (next : stages = [.activation .inspect] ∨ stages = [.activation (.done false)] ∨
      stages = sessionStages s) : Untouched w (h.work Host.main).scene := by
  obtain rfl | rfl | rfl := next
  · have looks := perform_inspect (housed.notices bench)
    have leads := perform_activation h Host.main (a := .inspect) nofun
    have goesOn := opening.setMain h.bench [.activation (.done false)]
    rw [opening.startUp, leads, looks]
    exact .opening goesOn bench (.inr (.inl rfl))
  · have leads : h.afterStartup false = sessionStages s := by
      rw [afterStartup, show h.activating = some s from opening.activating]
      rfl
    have goesOn := opening.setMain h.bench (h.afterStartup false ++ [])
    rw [opening.startUp]
    exact .opening goesOn bench (.inr (.inr ((List.append_nil _).trans leads)))
  · obtain ⟨same, newcomers, s', inPlace⟩ := opening.comes
    obtain ⟨notices, now⟩ := bench
    refine .inPlace inPlace ⟨notices, same.trans now⟩ fun role f task => ?_
    have there := (newcomers role).symm.trans task
    rw [same, now] at there
    simpa using there.symm

theorem Untouched.happens (housed : Housed w) (untouched : Untouched w x)
    (happens : Happens (fun _ => False) x y) : Untouched w y := by
  cases untouched with
  | @opening s stages opening bench next =>
    obtain beside | ⟨h, rfl, rfl⟩ | ⟨rfl, -⟩ := happens.cases_main opening.alone.others opening.main
    · exact .opening (opening.beside beside) (beside.bench.unchanged ▸ bench) next
    · exact Untouched.mainTurn housed opening bench next
    · obtain none | none | none := next <;> cases none
  | @inPlace first token base s inPlace bench new =>
    obtain ⟨passing, stays⟩ := inPlace.happens happens
    have settings : x.bench.settings = w.settings := by
      obtain ⟨notices, same⟩ := bench
      rw [same]
    refine .inPlace stays ?_ fun role g here => ?_
    · cases passing with
      | aside more _ => exact bench.trans more
      | @work role f g task advance _ =>
        obtain rfl := new role f task
        exact (advance.newcomer settings).1 ▸ bench
      | leave _ _ same _ => exact same ▸ bench
      | write allowed _ _ => exact allowed.elim
    · cases inPlace.seen passing role with
      | @own f g' task advance after =>
        obtain rfl := new role f task
        obtain rfl : g' = g := by simpa using after.symm.trans here
        exact (advance.newcomer settings).2
      | left _ _ _ after => cases after.symm.trans here
      | others _ after | notices _ after => exact new role g (after.symm.trans here)

/-- A session that starts where all is in order leaves all as it is, whatever is done but write. -/
theorem onlyNotices_of_run {editorActive : Bool} {events : List Event} (housed : Housed h.bench)
    (alone : IsAlone h.scene) (idle : h.isIdle = true)
    (run : (h.activate editorActive).after? events = some k)
    (quiet : ∀ e ∈ events, e.WritesOnly fun _ => False) : h.bench.OnlyNotices k.bench := by
  have begins : Untouched h.bench (h.activate editorActive).scene :=
    .opening (opening_activate alone idle editorActive) ⟨_, bench_activate h editorActive⟩ (.inl rfl)
  exact (after?_induction (P := fun _ k => Untouched h.bench k.scene) begins
    (fun _ _ _ _ _ happens untouched => untouched.happens housed happens) events k run quiet).bench

end Untouched

end ModelWorkspace.Host
