import ModelWorkspace.Proofs.Cascade.Followers
import ModelWorkspace.Proofs.Project.Declaring

/-! What the third follower opens. It looks at the settings, gives way once, and opens what it has
found then; so what it opens is what could be opened at the time of that look, and fits the settings
of the present exactly if these were not written in between. -/
namespace ModelWorkspace

open Cascade (Role)
open Setting (Follower)

/-- The path is the configured model directory, and may be opened. -/
def Cascade.IsCurrent (w : Workbench) (path : Path) : Prop :=
  w.settings.modelDirectory = path.text ∧
    (w.bundle.contains path = true ∨ w.settings.extendedAccess = true)

instance (w : Workbench) (path : Path) : Decidable (Cascade.IsCurrent w path) :=
  inferInstanceAs (Decidable (_ ∧ _))

theorem Cascade.isCurrent_of_openable? {w : Workbench} {name : String} {path : Path}
    (found : openable? w = some (name, path)) : IsCurrent w path := by
  obtain ⟨rfl, -, admitted, -⟩ := openable?_eq_some found
  exact ⟨rfl, admitted⟩

namespace Host

/-- The stage that the follower whose turn it is goes through next. -/
def next? (h : Host) : Option Stage :=
  match h.running.bind (h.tasks[·]?) with
  | some (.follower _ _ f) => f.remaining.head?
  | _ => none

theorem next?_of_task {h : Host} {id token : Nat} {requests : Option Requests}
    {f : Follower Stage} (turn : h.running = some id)
    (task : h.tasks[id]? = some (.follower token requests f)) : h.next? = f.remaining.head? := by
  simp only [next?, turn, Option.bind_some, task]

/-- The folder that the follower whose turn it is puts in the place of the model folder next. -/
def opening? (h : Host) : Option (String × Path) :=
  match h.next? with
  | some (.cascade (.replaceModelFolder name path)) => some (name, path)
  | _ => none

theorem next?_of_opening? {h : Host} {name : String} {path : Path}
    (opening : h.opening? = some (name, path)) :
    h.next? = some (.cascade (.replaceModelFolder name path)) := by
  unfold opening? at opening
  split at opening
  · cases opening
    assumption
  · cases opening

/-- The folder was found by a look of the follower itself, with which this run has come so far. -/
def FoundBefore (start : Host) (first : Nat) (moves : List Move) (name : String) (path : Path) :
    Prop :=
  ∃ before after k, moves = before ++ after ∧ start.run? before = some k ∧
    k.running = some (first + Role.directory.seat) ∧
    k.next? = some (.cascade .openModelDirectory) ∧
    Cascade.openable? k.bench = some (name, path)

/-- After its first move the follower in this place does not come to look at the settings again. -/
def LooksOnce (k : Host) (id : Nat) (moves : List Move) : Prop :=
  ∀ between rest mid, moves = between ++ rest → between ≠ [] → k.run? between = some mid →
    mid.running = some id → mid.next? ≠ some (.cascade .openModelDirectory)

theorem FoundBefore.snoc {start : Host} {first : Nat} {moves : List Move} {name : String}
    {path : Path} (found : FoundBefore start first moves name path) (m : Move) :
    FoundBefore start first (moves ++ [m]) name path := by
  obtain ⟨before, after, k, split, rest⟩ := found
  exact ⟨before, after ++ [m], k, by rw [split, List.append_assoc], rest⟩

/-- Whatever the third follower is to open was found before. -/
def OpensFound (start : Host) (first : Nat) (moves : List Move) (f : Follower Stage) : Prop :=
  ∀ name path, .cascade (.replaceModelFolder name path) ∈ f.remaining →
    FoundBefore start first moves name path

theorem OpensFound.advance {start h : Host} {first token base : Nat} {moves : List Move}
    {after : Workbench} {f g : Follower Stage} {m : Move}
    (opens : OpensFound start first moves f) (run : start.run? moves = some h)
    (turn : h.running = some (first + Role.directory.seat))
    (task : h.tasks[first + Role.directory.seat]? = some (.follower token none f))
    (serves : Serves .directory base h.bench.settings.feed f) (advance : Advance h.bench f after g) :
    OpensFound start first (moves ++ [m]) g := by
  intro name path mem
  have fresh : Stage.cascade (.replaceModelFolder name path) ∉ f.handler := by
    rw [serves.handler]
    simp [Role.handler, Cascade.onModelDirectory, Cascade.syncModelFolder]
  cases advance with
  | wait phase nothing => exact (opens name path mem).snoc m
  | receive phase received =>
    obtain ⟨key, event, rfl⟩ | ⟨far, rfl⟩ := Follower.receive?_cases received
    · cases mem
    · exact absurd mem fresh
  | @consider key phase =>
    unfold Follower.consider at mem
    split at mem
    · exact absurd mem fresh
    · cases mem
  | finish phase => cases mem
  | @perform s rest phase =>
    rw [Follower.remaining_proceed, List.mem_append] at mem
    obtain called | later := mem
    · obtain ⟨t, called, same⟩ := List.mem_map.1 called
      obtain rfl : t = .replaceModelFolder name path := by simpa using same
      have next : h.next? = some (.cascade s) := by
        rw [next?_of_task turn task, Follower.remaining_of_handling phase, List.head?_cons]
      cases s with
      | openModelDirectory =>
        refine ⟨moves, [m], h, rfl, run, turn, next, ?_⟩
        simp only [Cascade.Stage.perform] at called
        split at called
        · rename_i found
          obtain ⟨rfl, rfl⟩ : name = _ ∧ path = _ := by simpa using called
          exact found
        · simp at called
      | forwardModelVersion =>
        simp only [Cascade.Stage.perform] at called
        split at called <;> simp at called
      | _ => simp [Cascade.Stage.perform] at called
    · refine (opens name path ?_).snoc m
      rw [Follower.remaining_of_handling phase]
      exact List.mem_cons_of_mem _ later

/-- What the follower has still to do is the end of its handler, or it does not look at the settings any
more. -/
def LooksLast (f : Follower Stage) : Prop :=
  f.remaining <:+ Role.directory.handler.map .cascade ∨
    .cascade .openModelDirectory ∉ f.remaining

/-- No stage calls for a look at the settings. -/
theorem not_look_of_perform (w : Workbench) (s : Cascade.Stage) :
    Stage.cascade .openModelDirectory ∉ (s.perform w).2.map .cascade := by
  intro mem
  obtain ⟨t, called, same⟩ := List.mem_map.1 mem
  obtain rfl : t = .openModelDirectory := by simpa using same
  cases s with
  | openModelDirectory | forwardModelVersion =>
    simp only [Cascade.Stage.perform] at called
    split at called <;> simp at called
  | _ => simp [Cascade.Stage.perform] at called

theorem eq_nil_of_look {rest : List Stage}
    (ends : .cascade .openModelDirectory :: rest <:+ Role.directory.handler.map .cascade) :
    rest = [] := by
  simpa [Role.handler, Cascade.onModelDirectory, Cascade.syncModelFolder, List.suffix_cons_iff]
    using ends

theorem LooksLast.perform {w : Workbench} {s : Cascade.Stage} {rest : List Stage}
    (last : .cascade s :: rest <:+ Role.directory.handler.map .cascade ∨
      .cascade .openModelDirectory ∉ .cascade s :: rest) :
    (s.perform w).2.map .cascade ++ rest <:+ Role.directory.handler.map .cascade ∨
      .cascade .openModelDirectory ∉ (s.perform w).2.map .cascade ++ rest := by
  obtain ends | blind := last
  · obtain rfl | rfl : s = .pause ∨ s = .openModelDirectory := by
      simpa [Role.handler, Cascade.onModelDirectory, Cascade.syncModelFolder] using
        ends.subset List.mem_cons_self
    · exact .inl ((List.suffix_cons _ rest).trans ends)
    · rw [eq_nil_of_look ends, List.append_nil]
      exact .inr (not_look_of_perform w _)
  · refine .inr fun mem => blind ?_
    exact (List.mem_append.1 mem).elim (absurd · (not_look_of_perform w s))
      (List.mem_cons_of_mem _)

theorem LooksLast.advance {w after : Workbench} {f g : Follower Stage} (last : LooksLast f)
    (handler : f.handler = Role.directory.handler.map .cascade) (advance : Advance w f after g) :
    LooksLast g := by
  have handles : f.handler <:+ Role.directory.handler.map .cascade := handler ▸ List.suffix_rfl
  cases advance with
  | wait phase _ => exact last
  | receive phase received =>
    obtain ⟨key, -, rfl⟩ | ⟨-, rfl⟩ := Follower.receive?_cases received
    · exact .inr List.not_mem_nil
    · exact .inl handles
  | @consider key phase =>
    unfold Follower.consider
    split
    · exact .inl handles
    · exact .inr List.not_mem_nil
  | finish phase =>
    rw [LooksLast, Follower.remaining_proceed]
    exact .inr List.not_mem_nil
  | @perform s rest phase =>
    rw [LooksLast, Follower.remaining_of_handling phase] at last
    rw [LooksLast, Follower.remaining_proceed]
    exact LooksLast.perform last

/-- Before it looks at the settings, the follower has nothing to open. -/
theorem LooksLast.not_opens {f : Follower Stage} (last : LooksLast f) {rest : List Stage}
    (looks : f.remaining = .cascade .openModelDirectory :: rest) (name : String) (path : Path) :
    .cascade (.replaceModelFolder name path) ∉ f.remaining := by
  rw [LooksLast, looks] at last
  rw [looks]
  obtain ends | blind := last
  · rw [eq_nil_of_look ends]
    simp
  · exact absurd List.mem_cons_self blind

/-- The stage that comes next is a stage of the cascade, and belongs to the role of the follower. -/
theorem AtWork.next {h : Host} {first token base : Nat} (working : AtWork first token base h)
    {s : Stage} (next : h.next? = some s) :
    ∃ (role : Role) (f : Follower Stage) (c : Cascade.Stage) (rest : List Stage),
      h.running = some (first + role.seat) ∧
      h.tasks[first + role.seat]? = some (.follower token none f) ∧
      f.phase = .handling (s :: rest) ∧ s = .cascade c ∧ c.isFor role = true := by
  cases turn : h.running with
  | none => simp [next?, turn] at next
  | some id =>
    obtain ⟨role, rfl⟩ := working.turn id turn
    obtain ⟨f, task, serves⟩ := working.follower role
    rw [next?_of_task turn task] at next
    obtain ⟨rest, remaining⟩ := List.head?_eq_some_iff.1 next
    have phase : f.phase = .handling (s :: rest) := by
      unfold Follower.remaining at remaining
      split at remaining
      · rw [‹f.phase = _›, remaining]
      · cases remaining
    obtain ⟨c, stages, same, -, own⟩ := serves.handling phase
    exact ⟨role, f, c, rest, rfl, task, phase, same, own c (List.mem_cons_self ..)⟩

/-- Whatever the third follower opens it has found in the run, if it had nothing to open before. -/
theorem AtWork.found {start h : Host} {first token base : Nat} {moves : List Move} {name : String}
    {path : Path} (working : AtWork first token base start)
    (fresh : ∀ f, start.tasks[first + Role.directory.seat]? = some (.follower token none f) →
      ∀ name path, .cascade (.replaceModelFolder name path) ∉ f.remaining)
    (run : start.run? moves = some h) (fits : ∀ m ∈ moves, m.IsCascade first fun _ => True)
    (opening : h.opening? = some (name, path)) : FoundBefore start first moves name path := by
  obtain ⟨now, f, task, opens⟩ := working.invariant .directory (Q := fun _ => True)
    (P := fun moves _ f => OpensFound start first moves f)
    (fun f task name path mem => absurd mem (fresh f task name path))
    (fun moves h after f g m run turn task serves _ _ advance opens =>
      opens.advance run turn task serves advance)
    (fun _ _ _ _ m _ _ _ _ opens name path mem => (opens name path mem).snoc m)
    moves h run fits fun _ _ _ _ _ => trivial
  obtain ⟨role, f', c, rest, turn, task', phase, same, own⟩ := now.next (next?_of_opening? opening)
  obtain rfl : Cascade.Stage.replaceModelFolder name path = c := by simpa using same
  obtain rfl : role = .directory := by simpa [Cascade.Stage.isFor] using own
  obtain rfl : f = f' := by simpa [task] using task'
  refine opens name path ?_
  rw [Follower.remaining_of_handling phase]
  exact List.mem_cons_self

theorem AtWork.looksLast {start h : Host} {first token base : Nat} {moves : List Move}
    (working : AtWork first token base start)
    (last : ∀ f, start.tasks[first + Role.directory.seat]? = some (.follower token none f) →
      LooksLast f)
    (run : start.run? moves = some h) (fits : ∀ m ∈ moves, m.IsCascade first fun _ => True) :
    ∀ f, h.tasks[first + Role.directory.seat]? = some (.follower token none f) → LooksLast f := by
  obtain ⟨-, f, task, last⟩ := working.invariant .directory (Q := fun _ => True)
    (P := fun _ _ f => LooksLast f) last
    (fun _ _ _ _ _ _ _ _ _ serves _ _ advance last => last.advance serves.handler advance)
    (fun _ _ _ _ _ _ _ _ _ last => last) moves h run fits fun _ _ _ _ _ => trivial
  intro g here
  obtain rfl : f = g := by simpa [task] using here
  exact last

/-- A follower that comes to look has nothing to open yet. -/
theorem fresh_of_look {h : Host} {first token : Nat}
    (turn : h.running = some (first + Role.directory.seat))
    (look : h.next? = some (.cascade .openModelDirectory))
    (last : ∀ f, h.tasks[first + Role.directory.seat]? = some (.follower token none f) →
      LooksLast f) :
    ∀ f, h.tasks[first + Role.directory.seat]? = some (.follower token none f) →
      ∀ name path, .cascade (.replaceModelFolder name path) ∉ f.remaining := by
  intro f task
  rw [next?_of_task turn task] at look
  obtain ⟨rest, remaining⟩ := List.head?_eq_some_iff.1 look
  exact (last f task).not_opens remaining

/-- The last of the looks before the folder is opened: the follower does not look again. -/
theorem AtWork.found_last {start h : Host} {first token base : Nat} {moves : List Move}
    {name : String} {path : Path} (working : AtWork first token base start)
    (fresh : ∀ f, start.tasks[first + Role.directory.seat]? = some (.follower token none f) →
      ∀ name path, .cascade (.replaceModelFolder name path) ∉ f.remaining)
    (last : ∀ f, start.tasks[first + Role.directory.seat]? = some (.follower token none f) →
      LooksLast f)
    (run : start.run? moves = some h) (fits : ∀ m ∈ moves, m.IsCascade first fun _ => True)
    (opening : h.opening? = some (name, path)) :
    ∃ before after k, moves = before ++ after ∧ start.run? before = some k ∧
      k.running = some (first + Role.directory.seat) ∧
      k.next? = some (.cascade .openModelDirectory) ∧
      Cascade.openable? k.bench = some (name, path) ∧
      LooksOnce k (first + Role.directory.seat) after := by
  obtain ⟨before, after, k, rfl, reached, turn, look, found⟩ :=
    working.found fresh run fits opening
  by_cases once : LooksOnce k (first + Role.directory.seat) after
  · exact ⟨before, after, k, rfl, reached, turn, look, found, once⟩
  · -- Another look comes later, so the run from there on is shorter.
    obtain ⟨between, rest, mid, rfl, some_, reached', turn', look'⟩ : ∃ between rest mid,
        after = between ++ rest ∧ between ≠ [] ∧ k.run? between = some mid ∧
          mid.running = some (first + Role.directory.seat) ∧
          mid.next? = some (.cascade .openModelDirectory) := by
      simpa [LooksOnce, and_assoc] using once
    have toMid : start.run? (before ++ between) = some mid := by
      rw [run?_append, reached]
      exact reached'
    have early : ∀ m ∈ before ++ between, m.IsCascade first fun _ => True := fun m mem =>
      fits m (by rw [← List.append_assoc]; exact List.mem_append_left _ mem)
    have late : ∀ m ∈ rest, m.IsCascade first fun _ => True := fun m mem =>
      fits m (by rw [← List.append_assoc]; exact List.mem_append_right _ mem)
    have onward : mid.run? rest = some h := by
      rw [← List.append_assoc, run?_append, toMid] at run
      exact run
    have lastMid := working.looksLast last toMid early
    obtain ⟨before', after', k', rfl, reached', turn', look', found', once'⟩ :=
      (working.run toMid early).found_last (fresh_of_look turn' look' lastMid) lastMid onward late
        opening
    refine ⟨before ++ between ++ before', after', k', by simp only [List.append_assoc], ?_, turn',
      look', found', once'⟩
    rw [run?_append, toMid]
    exact reached'
termination_by moves.length
decreasing_by
  have := List.length_pos_iff.2 some_
  simp only [*, List.length_append]
  omega

theorem AtWork.bench_work {h k : Host} {first token base : Nat}
    (working : AtWork first token base h) {s : Cascade.Stage}
    (next : h.next? = some (.cascade s)) (move : h.move? .work = some k) :
    k.bench = (s.perform h.bench).1 := by
  obtain ⟨role, f, c, rest, turn, task, phase, -, -⟩ := working.next next
  obtain ⟨id, turn', rfl⟩ := move?_work move
  obtain rfl : first + role.seat = id := by simpa [turn] using turn'
  have serves := working.serves task
  obtain ⟨g, advance, -⟩ := work_follower task (fun _ => working.live) serves.going serves.cascade
  generalize (h.work (first + role.seat)).bench = after at advance ⊢
  cases advance with
  | @perform t rest' phase' =>
    obtain ⟨rfl, -⟩ : t = s ∧ rest' = rest := by simpa [phase] using phase'.symm
    rfl
  | _ => simp_all

/-- The moment at which the third follower asks the editor for another model folder. The folder was
found by the last look at the settings which the follower took before, and which was right at that
time. It fits the settings of the moment exactly if the model directory is what it was, and
extended access is there if it is needed; it does so for sure where neither setting was changed
since. -/
theorem replaces_what_was_found {start : Host} {token : Nat} (live : start.isCancelled token = false)
    {moves : List Move} {h : Host} (run : (start.followCascade token).suspend.run? moves = some h)
    (fits : ∀ m ∈ moves, m.IsCascade start.tasks.length fun _ => True) {name : String} {path : Path}
    (opening : h.opening? = some (name, path)) :
    (∀ k, h.move? .work = some k → k.bench = (h.bench.replaceModelFolder name path).1) ∧
    ∃ before after k, moves = before ++ after ∧
      (start.followCascade token).suspend.run? before = some k ∧ k.running = h.running ∧
      k.next? = some (.cascade .openModelDirectory) ∧
      LooksOnce k (start.tasks.length + Role.directory.seat) after ∧
      Cascade.openable? k.bench = some (name, path) ∧ Cascade.IsCurrent k.bench path ∧
      (Cascade.IsCurrent h.bench path ↔
        h.bench.settings.modelDirectory = k.bench.settings.modelDirectory ∧
          (k.bench.bundle.contains path = true ∨ h.bench.settings.extendedAccess = true)) ∧
      (.modelDirectory ∉ h.bench.settings.feed.since k.bench.settings.feed.size →
        .extendedAccess ∉ h.bench.settings.feed.since k.bench.settings.feed.size →
        Cascade.IsCurrent h.bench path) := by
  have started := atWork_followCascade live
  have working := started.run run fits
  have next := next?_of_opening? opening
  refine ⟨fun k move => working.bench_work next move, ?_⟩
  obtain ⟨role, -, c, -, turn, -, -, same, own⟩ := working.next next
  obtain rfl : Cascade.Stage.replaceModelFolder name path = c := by simpa using same
  obtain rfl : role = .directory := by simpa [Cascade.Stage.isFor] using own
  have newcomers (f : Follower Stage)
      (task : (start.followCascade token).suspend.tasks[start.tasks.length + Role.directory.seat]? =
        some (.follower token none f)) : f.remaining = [] := by
    obtain rfl : newcomer .directory start.bench.settings.feed = f := by
      simpa using (tasks_followCascade start token .directory).symm.trans task
    rfl
  obtain ⟨before, after, k, split, reached, turn', look, found, once⟩ := started.found_last
    (fun f task _ _ => by rw [newcomers f task]; exact List.not_mem_nil)
    (fun f task => .inr (by rw [newcomers f task]; exact List.not_mem_nil)) run fits opening
  have fitting : ∀ m ∈ before, m.IsCascade start.tasks.length fun _ => True := fun m mem =>
    fits m (split ▸ List.mem_append_left _ mem)
  have later : k.run? after = some h := by
    rw [split, run?_append, reached] at run
    exact run
  obtain ⟨grows, bundle⟩ := (started.run reached fitting).grows later fun m mem =>
    fits m (split ▸ List.mem_append_right _ mem)
  have current := Cascade.isCurrent_of_openable? found
  have exactly : Cascade.IsCurrent h.bench path ↔
      h.bench.settings.modelDirectory = k.bench.settings.modelDirectory ∧
        (k.bench.bundle.contains path = true ∨ h.bench.settings.extendedAccess = true) := by
    rw [Cascade.IsCurrent, bundle, current.1]
  refine ⟨before, after, k, split, reached, turn'.trans turn.symm, look, once, found, current, exactly,
    fun directory access => exactly.2 ⟨?_, ?_⟩⟩
  · exact Setting.Store.text_congr (grows.get?_eq directory)
  · have same : h.bench.settings.extendedAccess = k.bench.settings.extendedAccess :=
      Setting.Store.flag_congr (grows.get?_eq access)
    rw [same]
    exact current.2

/-- A workspace with a bundled model and a model elsewhere, which may be opened. -/
def modelElsewhere : Host where
  bench := {
    files := {
      entries := [(["b", "m"], FileTree.newFolder), (["b"], FileTree.newFolder),
        (["b", "m", "package.json"], Project.packageEntry "A" "3.0.0"),
        (["e"], FileTree.newFolder), (["e", "package.json"], Project.packageEntry "B" "3.0.0")] }
    settings := { values := [(.extendedAccess, .bool true)] }
    bundle := ⟨⟨"/b"⟩⟩ }

/-- The model directory is written, the third follower looks at it, and before its next turn
something else is written. -/
def writtenBetween (directory : String) (key : Setting.Key) (value : Json.Value) : List Move :=
  .write .modelDirectory (.string directory) ::
    roleTurns 1 ([1, 2, 1, 1, 1, 1, 2].map fun works => (.directory, works)) ++
      [.write key value, .resume (1 + Role.directory.seat)]

theorem isCascade_writtenBetween (directory : String) (key : Setting.Key) (value : Json.Value) :
    ∀ m ∈ writtenBetween directory key value, m.IsCascade 1 fun _ => True := by
  intro m mem
  simp only [writtenBetween, List.mem_append, List.mem_cons, List.not_mem_nil, or_false] at mem
  obtain (rfl | mem) | rfl | rfl := mem
  · trivial
  · obtain rfl | ⟨role, rfl⟩ := mem_roleTurns mem
    · trivial
    · exact ⟨role, rfl⟩
  · trivial
  · exact ⟨.directory, rfl⟩

/-- The look at the settings that a folder which is not configured any more was found by. -/
theorem replaces_what_was_found_earlier :
    ∃ h before k, (modelElsewhere.followCascade 0).suspend.run?
        (writtenBetween "/b/m" .modelDirectory (.string "/c")) = some h ∧
      h.bench.settings.modelDirectory = "/c" ∧
      before.IsPrefix (writtenBetween "/b/m" .modelDirectory (.string "/c")) ∧
      (modelElsewhere.followCascade 0).suspend.run? before = some k ∧
      Cascade.openable? k.bench = some ("m", ⟨"/b/m"⟩) := by
  have reached : ((modelElsewhere.followCascade 0).suspend.run?
      (writtenBetween "/b/m" .modelDirectory (.string "/c"))).any (fun h =>
        h.opening? == some ("m", ⟨"/b/m"⟩) && h.bench.settings.modelDirectory == "/c") = true := by
    decide +kernel
  obtain ⟨h, run, holds⟩ := (Option.any_eq_true _ _).1 reached
  simp only [Bool.and_eq_true, beq_iff_eq] at holds
  obtain ⟨-, before, after, k, split, reached, -, -, -, found, -⟩ :=
    replaces_what_was_found rfl run (isCascade_writtenBetween _ _ _) holds.1
  exact ⟨h, before, k, run, holds.2, ⟨after, split.symm⟩, reached, found⟩

/-- A folder takes the place of the model folder though another one is configured already, and a
folder elsewhere does so though extended access is off already. -/
theorem replaces_folder_that_is_not_current :
    (∃ h, (modelElsewhere.followCascade 0).suspend.run?
        (writtenBetween "/b/m" .modelDirectory (.string "/c")) = some h ∧
      h.opening? = some ("m", ⟨"/b/m"⟩) ∧ h.bench.settings.modelDirectory ≠ "/b/m") ∧
    ∃ h, (modelElsewhere.followCascade 0).suspend.run?
        (writtenBetween "/e" .extendedAccess (.bool false)) = some h ∧
      h.opening? = some ("e", ⟨"/e"⟩) ∧ h.bench.bundle.contains ⟨"/e"⟩ = false ∧
        h.bench.settings.extendedAccess = false := by
  have stale : ((modelElsewhere.followCascade 0).suspend.run?
      (writtenBetween "/b/m" .modelDirectory (.string "/c"))).any (fun h =>
        h.opening? == some ("m", ⟨"/b/m"⟩) && h.bench.settings.modelDirectory != "/b/m") = true := by
    decide +kernel
  have outside : ((modelElsewhere.followCascade 0).suspend.run?
      (writtenBetween "/e" .extendedAccess (.bool false))).any (fun h =>
        h.opening? == some ("e", ⟨"/e"⟩) && (h.bench.bundle.contains ⟨"/e"⟩ == false &&
          h.bench.settings.extendedAccess == false)) = true := by
    decide +kernel
  obtain ⟨h, run, holds⟩ := (Option.any_eq_true _ _).1 stale
  obtain ⟨k, run', holds'⟩ := (Option.any_eq_true _ _).1 outside
  simp only [Bool.and_eq_true, beq_iff_eq, bne_iff_ne] at holds holds'
  exact ⟨⟨h, run, holds⟩, k, run', holds'⟩

end Host

end ModelWorkspace
