import ModelWorkspace.Proofs.Session.Arriving

/-! A session is stopped in the middle of its work, and another one takes over. A follower that has read
of all changes of its setting before it ends leaves its duty done, and the next session finds it so.
What a follower has not read of any more is lost: nobody makes up for it. -/
namespace ModelWorkspace

open Cascade (Role AtModel PointsAtDirectory FollowsModel HasModels)

namespace Host

/-- A session at home: the model directory is the bundled folder of the model version and the first
folder of the workspace, every bundled folder holds a project, and the editor lets folders change. -/
structure Home (w : Workbench) : Prop where
  allowed : w.refusesFolders = false
  models : HasModels w
  model : AtModel w
  folder : PointsAtDirectory w

theorem Home.housed {w : Workbench} (home : Home w) : Cascade.Housed w :=
  Cascade.housed_of_home home.allowed home.models home.model home.folder

/-- The third follower, which aims at the model directory, keeps to where the first folder is. -/
theorem held_pointingDuty {base : Nat} {w : Workbench} {f : Setting.Follower Stage}
    (kept : aimingDuty.Kept base w f) (points : PointsAtDirectory w) :
    pointingDuty.Held base w f where
  kept := kept.imp_right (Or.imp_right fun done => ⟨done.1, fun _ => .inr points⟩)
  standing := .inr points

theorem held_modelDuty {base : Nat} {w : Workbench} {f : Setting.Follower Stage}
    (model : AtModel w) : modelDuty.Held base w f where
  kept := .inr (.inr ⟨fun _ _ => trivial, fun _ => .inr (Cascade.followsModel_of_atModel model)⟩)
  standing := .inr (Cascade.followsModel_of_atModel model)

theorem ignoresNotices_modelDuty : modelDuty.IgnoresNotices := fun _ _ => ⟨fun _ => id, id⟩

theorem ignoresNotices_aimingDuty : aimingDuty.IgnoresNotices := fun _ _ => ⟨fun _ => id, id⟩

theorem ignoresNotices_pointingDuty : pointingDuty.IgnoresNotices := fun _ _ => ⟨fun _ => id, id⟩

/-- What the stopped session leaves to the next one. -/
structure Leaves (start : Host) (events : List Event) (s : Session) (k : Host) : Prop where
  alone : IsAlone k.scene
  housed : Cascade.Housed k.bench
  model : start.HadRead events s .model k.bench.settings.feed → AtModel k.bench
  directory : start.HadRead events s .directory k.bench.settings.feed → PointsAtDirectory k.bench

section Stopping

variable {first token base : Nat} {s : Session} {i k : Host} {initial : Workbench}
  {events : List Event}

/-- A session with followers is stopped. -/
theorem InPlace.leaves (inPlace : InPlace first token base s i.scene)
    (upheld : Upheld aimingDuty first token base i.scene) (home : Home i.bench)
    (run : i.after? events = some k)
    (writes : ∀ e ∈ events, e.WritesOnly (· = .platformVersion))
    (always : ∀ mid, i.Visits events mid → initial.Steady mid.bench)
    (ended : k.session = none) (rests : k.tasks[Host.main]? = some (.routine [])) :
    Leaves i events s k := by
  have atHome : AtHome initial i.bench := ⟨always i (visits_first i events), home.housed⟩
  obtain ⟨stays, left, models⟩ := inPlace.attends (laws_modelDuty_atHome initial)
    ignoresNotices_modelDuty atHome (fun _ _ => held_modelDuty home.model)
    (Cascade.followsModel_of_atModel home.model) run writes always
  obtain ⟨-, -, points⟩ := inPlace.attends (laws_pointingDuty initial)
    ignoresNotices_pointingDuty atHome (fun f task => held_pointingDuty (upheld f task) home.folder)
    home.folder run writes always
  have gone : Gone first k.scene := stays.gone ended rests
  refine ⟨⟨ended, fun id t here apart => ?_⟩, left.housed, fun read => ?_, fun read => ?_⟩
  · by_cases seat : ∃ role : Role, id = first + role.seat
    · obtain ⟨role, rfl⟩ := seat
      obtain rfl := Option.some.inj ((gone role).symm.trans here)
      exact isAside_ended
    · exact stays.others here apart fun role same => seat ⟨role, same⟩
  · exact Cascade.atModel_of_followsModel left.housed.version
      (models.settled gone (read _ (inPlace.inSession .model)))
  · exact points.settled gone (read _ (inPlace.inSession .directory))

/-- A session without followers is stopped: it does nothing, and what is written leaves all at home. -/
theorem Unattended.leaves (unattended : Unattended i.scene) (home : Home i.bench)
    (run : i.after? events = some k)
    (writes : ∀ e ∈ events, e.WritesOnly (· = .platformVersion))
    (always : ∀ mid, i.Visits events mid → initial.Steady mid.bench)
    (ended : k.session = none) : Leaves i events s k := by
  have follows := Cascade.followsModel_of_atModel home.model
  have atHome : AtHome initial i.bench := ⟨always i (visits_first i events), home.housed⟩
  obtain ⟨stays, left, model, points⟩ := after?_induction_of_visits
    (Q := fun mid => initial.Steady mid.bench)
    (P := fun _ k => Unattended k.scene ∧ AtHome initial k.bench ∧ FollowsModel k.bench ∧
      PointsAtDirectory k.bench)
    (fun _ => ⟨unattended, atHome, follows, home.folder⟩)
    (fun events h e k _ happens _ steady ⟨unattended, atHome, follows, points⟩ => by
      obtain ⟨stays, wrote⟩ := unattended.happens happens
      have now := atHome.wrote steady wrote
      have model := (laws_modelDuty_atHome initial).others (wrote.meanwhile .model) atHome now
        (wrote.get? nofun)
      have directory := (laws_pointingDuty initial).others (wrote.meanwhile .directory) atHome now
        (wrote.get? nofun)
      exact ⟨stays, now, model.2 follows, directory.2 points⟩)
    run writes always
  exact ⟨⟨ended, stays.others⟩, left.housed,
    fun _ => Cascade.atModel_of_followsModel left.housed.version model, fun _ => points⟩

end Stopping

/-- From a session at home, whoever has had turns since it was activated and whatever was written, if
from then on only the platform version is written, whenever the session is stopped, and whether its
followers then end at once or read on: once another session has been activated, in whatever order all
tasks take their turns, the model directory is the bundled folder of the model version if the second
follower had read of all changes of the model version before it ended, and the first folder is the one
that the model directory names if the third follower had read of all changes of that. -/
theorem session_resumes {h i k l : Host} {s : Session} {editorActive again : Bool}
    {before during after : List Event} (idle : h.isIdle = true) (alone : IsAlone h.scene)
    (starts : (h.activate editorActive).after? before = some i)
    (running : i.session = some s) (home : Home i.bench)
    (stops : i.after? during = some k) (only : ∀ e ∈ during, e.WritesOnly (· = .platformVersion))
    (steady : ∀ mid, i.Visits during mid → i.bench.Steady mid.bench)
    (ended : k.session = none) (idle' : k.isIdle = true)
    (resumes : (k.activate again).after? after = some l)
    (quiet : ∀ e ∈ after, e.WritesOnly fun _ => False) :
    (i.HadRead during s .model k.bench.settings.feed → AtModel l.bench) ∧
      (i.HadRead during s .directory k.bench.settings.feed → PointsAtDirectory l.bench) := by
  have way : OnItsWay (Upheld aimingDuty) i.scene :=
    upheld_of_run (laws_aimingDuty _ _) ignoresNotices_aimingDuty alone idle starts
  have leaves : Leaves i during s k := by
    obtain ⟨first, token, base, inPlace, upheld⟩ | ⟨unattended, -⟩ := way.of_session running
    · exact inPlace.leaves upheld home stops only steady ended (idle_main idle').2
    · exact unattended.leaves home stops only steady ended
  obtain ⟨notices, same⟩ := onlyNotices_of_run leaves.housed leaves.alone idle' resumes quiet
  rw [same]
  exact ⟨leaves.model, leaves.directory⟩

/-! ### A session on the newest release -/

/-- A workspace on the bundled folder of the newest release, with another folder behind it. -/
def onRelease : Host where
  bench := {
    files := {
      entries := (["b"], FileTree.newFolder) :: Catalogue.modelFolders.flatMap fun (_, folder) =>
        [(["b", folder], FileTree.newFolder),
          (["b", folder, "package.json"], Project.packageEntry "A" "1.0.0")] }
    settings := {
      values := [(.platformVersion, .string "6.1.0"), (.modelVersion, .string "4.0.0"),
        (.modelDirectory, .string "/b/ed-fi-model-4.0")] }
    folders := ⟨some [⟨"ed-fi-model-4.0", ⟨"/b/ed-fi-model-4.0"⟩, true⟩, ⟨"own", ⟨"/own"⟩, false⟩]⟩
    bundle := ⟨⟨"/b"⟩⟩ }

def taskTurns (order : List (Nat × Nat)) : List Event := (turns order).map .move

/-- Turns in which followers read on although they have been cancelled. -/
def readingTurns (order : List (Nat × Nat)) : List Event :=
  order.flatMap fun (id, works) => .move (.resume id) :: List.replicate works .readOn

/-- A session comes, and its tasks have their first turns: the keeper in this place, the followers of
the cascade, and the follower of the license. -/
def arrival (keeper : Nat) : List Event :=
  List.replicate 8 (.move .work) ++ taskTurns ((main, 3) :: (List.range 5).map (keeper + ·, 1))

/-- An older platform version is written, and after some turns the session is stopped. After some more
turns, in which followers still read, all of them end. -/
def stopped (before meanwhile : List (Nat × Nat)) : List Event :=
  .move (.write .platformVersion (.string "3.1.0")) :: taskTurns before ++
    [.move (.resume main), .shutDown, .move .work] ++ readingTurns meanwhile ++
    taskTurns [(2, 1), (3, 1), (4, 1), (5, 1), (main, 2)]

/-- The turns that each follower takes for its part of the work. -/
def platformTurns : List (Nat × Nat) := [1, 2, 2].map (2, ·)
def modelTurns : List (Nat × Nat) := [1, 2, 2, 1, 1, 2, 1, 2, 1, 1].map (3, ·)
def directoryTurns : List (Nat × Nat) :=
  [1, 2, 2, 2, 1, 1, 1, 1, 2, 2, 2, 1, 1, 1].map (4, ·)

/-- There is a session, and neither the main task nor any of its followers has anything left to do. -/
def isSettled (h : Host) : Bool :=
  (h.stagesOf main).isEmpty && h.session.any fun s => s.followers.all h.rests

/-- A session comes, the events stop it, and another one comes to rest. -/
structure Replaces (events : List Event) (i k l : Host) : Prop where
  starts : (onRelease.activate false).after? (arrival 1) = some i
  running : ∃ s, i.session = some s ∧ s.followers = [2, 3, 4, 5]
  stops : i.after? events = some k
  ended : k.session = none
  idle : k.isIdle = true
  resumes : (k.activate false).after? (arrival 6) = some l
  settled : l.isSettled = true

/-- The sessions that the events make, with a test of the one that is stopped and of the one that comes
to rest. -/
def replaces? (events : List Event) (test : Host → Host → Host → Bool) : Bool :=
  ((onRelease.activate false).after? (arrival 1)).any fun i =>
    i.session.any (·.followers == [2, 3, 4, 5]) && (i.after? events).any fun k =>
      k.session.isNone && k.isIdle && ((k.activate false).after? (arrival 6)).any fun l =>
        l.isSettled && test i k l

theorem exists_of_replaces? {events : List Event} {test : Host → Host → Host → Bool}
    (found : replaces? events test = true) :
    ∃ i k l, Replaces events i k l ∧ test i k l = true := by
  obtain ⟨i, starts, found⟩ := (Option.any_eq_true _ _).1 found
  obtain ⟨running, found⟩ := Bool.and_eq_true_iff.1 found
  obtain ⟨s, session, followers⟩ := (Option.any_eq_true _ _).1 running
  obtain ⟨k, stops, found⟩ := (Option.any_eq_true _ _).1 found
  obtain ⟨finished, found⟩ := Bool.and_eq_true_iff.1 found
  obtain ⟨ended, idle⟩ := Bool.and_eq_true_iff.1 finished
  obtain ⟨l, resumes, found⟩ := (Option.any_eq_true _ _).1 found
  obtain ⟨settled, passes⟩ := Bool.and_eq_true_iff.1 found
  exact ⟨i, k, l, ⟨starts, ⟨s, session, eq_of_beq followers⟩, stops,
    Option.isNone_iff_eq_none.1 ended, idle, resumes, settled⟩, passes⟩

theorem isAlone_onRelease : IsAlone onRelease.scene where
  none := rfl
  others id t here apart := by
    cases id with
    | zero => exact absurd rfl apart
    | succ id => cases here

theorem hasModels_onRelease : HasModels onRelease.bench := by
  unfold HasModels
  decide +kernel

theorem home_onRelease : Home onRelease.bench where
  allowed := rfl
  models := hasModels_onRelease
  model := ⟨Catalogue.release 4 0 0, by decide +kernel, by decide +kernel⟩
  folder := ⟨_, _, rfl, by decide⟩

theorem writesOnly_taskTurns (outside : Setting.Key → Prop) (order : List (Nat × Nat)) :
    ∀ e ∈ taskTurns order, e.WritesOnly outside := by
  intro e mem
  obtain ⟨m, here, rfl⟩ := List.mem_map.1 mem
  obtain rfl | ⟨turn, -, rfl⟩ := mem_turns here <;> trivial

theorem writesOnly_arrival (outside : Setting.Key → Prop) (keeper : Nat) :
    ∀ e ∈ arrival keeper, e.WritesOnly outside := by
  intro e mem
  obtain works | taken := List.mem_append.1 mem
  · rw [List.eq_of_mem_replicate works]
    trivial
  · exact writesOnly_taskTurns outside _ e taken

theorem writesOnly_stopped (before meanwhile : List (Nat × Nat)) :
    ∀ e ∈ stopped before meanwhile, e.WritesOnly (· = .platformVersion) := by
  have reads : ∀ e ∈ readingTurns meanwhile, e.WritesOnly (· = .platformVersion) := by
    intro e mem
    obtain ⟨⟨id, n⟩, -, here⟩ := List.mem_flatMap.1 mem
    obtain rfl | here := List.mem_cons.1 here
    · trivial
    · rw [List.eq_of_mem_replicate here]
      trivial
  intro e mem
  simp only [stopped, List.cons_append, List.mem_cons, List.mem_append, List.not_mem_nil,
    or_false] at mem
  obtain rfl | ((mem | rfl | rfl | rfl) | mem) | mem := mem
  · rfl
  · exact writesOnly_taskTurns _ _ e mem
  · trivial
  · trivial
  · trivial
  · exact reads e mem
  · exact writesOnly_taskTurns _ _ e mem

/-- The session that is stopped is at home. -/
theorem Replaces.home {events : List Event} {i k l : Host} (replaces : Replaces events i k l) :
    Home i.bench := by
  obtain ⟨notices, same⟩ := onlyNotices_of_run home_onRelease.housed isAlone_onRelease rfl
    replaces.starts (writesOnly_arrival _ 1)
  obtain ⟨allowed, models, model, folder⟩ := home_onRelease
  rw [same]
  exact ⟨allowed, models, model, folder⟩

theorem hadRead_of_take {start : Host} {events : List Event} {s : Session} {role : Role} {id : Nat}
    {feed : Setting.Feed} (seat : s.followers[role.seat]? = some id) (n : Nat)
    (found : (start.after? (events.take n)).any (·.hasRead id role.key feed) = true) :
    start.HadRead events s role feed := by
  intro other there
  obtain rfl := Option.some.inj (seat.symm.trans there)
  obtain ⟨mid, run, all⟩ := (Option.any_eq_true _ _).1 found
  exact ⟨mid, ⟨_, events.drop n, (List.take_append_drop n events).symm, run⟩, all⟩

/-- Stopped when the model version has just been written, but all that was still to be read is. -/
theorem session_resumes_reading :
    ∃ i k l, Replaces (stopped platformTurns (modelTurns ++ directoryTurns)) i k l ∧
      AtModel l.bench ∧ PointsAtDirectory l.bench := by
  let events := stopped platformTurns (modelTurns ++ directoryTurns)
  obtain ⟨i, k, l, replaces, reads⟩ : ∃ i k l, Replaces events i k l ∧
      ((i.after? (events.take 70)).any (·.hasRead 3 .modelVersion k.bench.settings.feed) &&
        (i.after? (events.take 70)).any (·.hasRead 4 .modelDirectory k.bench.settings.feed)) =
          true := exists_of_replaces? (by decide +kernel)
  obtain ⟨model, directory⟩ := Bool.and_eq_true_iff.1 reads
  have home := replaces.home
  obtain ⟨s, running, followers⟩ := replaces.running
  have steady : ∀ mid, i.Visits events mid → i.bench.Steady mid.bench :=
    steady_of_visits rfl isAlone_onRelease rfl replaces.starts
  obtain ⟨first, second⟩ := session_resumes rfl isAlone_onRelease replaces.starts running home
    replaces.stops (writesOnly_stopped _ _) steady replaces.ended replaces.idle replaces.resumes
    (writesOnly_arrival _ 6)
  have modelSeat : s.followers[Role.model.seat]? = some 3 := by rw [followers]; rfl
  have directorySeat : s.followers[Role.directory.seat]? = some 4 := by rw [followers]; rfl
  exact ⟨i, k, l, replaces, first (hadRead_of_take modelSeat 70 model),
    second (hadRead_of_take directorySeat 70 directory)⟩

/-- From a session at home, without extended access: where the second follower ends before it reads of
the new model version, the model directory stays behind; where the third one ends before it reads of
the new model directory, the first folder does. The next session leaves it at that. -/
theorem unread_changes_are_lost :
    onRelease.isIdle = true ∧ IsAlone onRelease.scene ∧
    onRelease.bench.settings.extendedAccess = false ∧
    (∀ before, ∀ e ∈ stopped before [], e.WritesOnly (· = .platformVersion)) ∧
    (∃ i k l, Replaces (stopped platformTurns []) i k l ∧ Home i.bench ∧ ¬ AtModel l.bench) ∧
    ∃ i k l, Replaces (stopped (platformTurns ++ modelTurns) []) i k l ∧ Home i.bench ∧
      ¬ PointsAtDirectory l.bench := by
  refine ⟨rfl, isAlone_onRelease, by decide, fun before => writesOnly_stopped before [], ?_, ?_⟩
  · obtain ⟨i, k, l, replaces, holds⟩ : ∃ i k l, Replaces (stopped platformTurns []) i k l ∧
        (l.bench.settings.modelVersion == "3.1.0" &&
          l.bench.settings.modelDirectory == "/b/ed-fi-model-4.0" &&
          l.bench.bundle == ⟨⟨"/b"⟩⟩) = true := exists_of_replaces? (by decide +kernel)
    refine ⟨i, k, l, replaces, replaces.home, ?_⟩
    rintro ⟨v, read, directory⟩
    simp only [Bool.and_eq_true, beq_iff_eq] at holds
    obtain ⟨⟨version, behind⟩, bundle⟩ := holds
    have newest : Version.normalize? "3.1.0" = some (Catalogue.release 3 1 0) := by decide +kernel
    rw [Setting.Store.model?, version, newest] at read
    obtain rfl := Option.some.inj read
    rw [behind, bundle] at directory
    revert directory
    decide +kernel
  · obtain ⟨i, k, l, replaces, holds⟩ : ∃ i k l,
        Replaces (stopped (platformTurns ++ modelTurns) []) i k l ∧
        (l.bench.folders.toList.head?.any (·.path.text != l.bench.settings.modelDirectory)) =
          true := exists_of_replaces? (by decide +kernel)
    refine ⟨i, k, l, replaces, replaces.home, ?_⟩
    rintro ⟨first, others, folders, same⟩
    simp [FolderList.toList, folders, same] at holds

end Host

end ModelWorkspace
