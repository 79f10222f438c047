import ModelWorkspace.Proofs.Host.Following
import ModelWorkspace.Proofs.Host.Moves
import ModelWorkspace.Proofs.Setting.Following

/-! The three followers of the cascade on a host whose tasks take their turns in any order.
`Host.Advance` says all that one unit of work of a follower can do to the workbench and to the
follower; `Host.AtWork` is what stays true of the three whatever happens around them, and
`Host.AtWork.move` describes each move by what it does to the workbench and the followers. -/
namespace ModelWorkspace.Host

open Cascade (Role)
open Setting (Follower)

/-- One unit of work of a follower whose stages are stages of the cascade. -/
inductive Advance (w : Workbench) (f : Follower Stage) : Workbench → Follower Stage → Prop
  | wait (phase : f.phase = .listening) (nothing : f.receive? w.settings.feed = none) :
      Advance w f w f
  | receive {g : Follower Stage} (phase : f.phase = .listening)
      (received : f.receive? w.settings.feed = some g) : Advance w f w g
  | consider {key : Setting.Key} (phase : f.phase = .noticed key) : Advance w f w (f.consider key)
  | finish (phase : f.phase = .handling []) : Advance w f w (f.proceed [])
  | perform {s : Cascade.Stage} {rest : List Stage}
      (phase : f.phase = .handling (.cascade s :: rest)) :
      Advance w f (s.perform w).1 (f.proceed ((s.perform w).2.map .cascade ++ rest))

/-- Only the stage of a handler does anything to the workbench. -/
theorem Advance.stage_or_idle {w after : Workbench} {f g : Follower Stage}
    (advance : Advance w f after g) :
    (∃ s rest, f.phase = .handling (.cascade s :: rest) ∧ after = (s.perform w).1) ∨
      f.remaining = [] ∧ after = w := by
  cases advance with
  | @perform s rest phase => exact .inl ⟨s, rest, phase, rfl⟩
  | finish phase => exact .inr ⟨Follower.remaining_of_handling phase, rfl⟩
  | wait phase _ | receive phase _ | consider phase =>
    exact .inr ⟨by simp only [Follower.remaining, phase], rfl⟩

theorem onBench_frame {σ : Type} (h : Host) (result : Workbench × List σ) (stage : σ → Stage) :
    (h.onBench result stage).1.unscheduled = { h.unscheduled with bench := result.1 } ∧
      (h.onBench result stage).2.stages = result.2.map stage :=
  ⟨unscheduled_withBench h result.1, rfl⟩

theorem perform_cascade (h : Host) (id : Nat) (s : Cascade.Stage) :
    (h.perform id (.cascade s)).1.unscheduled =
        { h.unscheduled with bench := (s.perform h.bench).1 } ∧
      (h.perform id (.cascade s)).2.stages = (s.perform h.bench).2.map .cascade := by
  cases s with
  | pause => exact ⟨rfl, rfl⟩
  | _ => exact onBench_frame h _ .cascade

/-- What a follower's turn leaves of a host: its own place among the tasks, the workbench, and who
has the turn now. -/
structure Turned (h : Host) (id token : Nat) (g : Follower Stage) (k : Host) : Prop where
  tasks : k.tasks = h.tasks.set id (.follower token none g)
  tokens : k.tokens = h.tokens
  running : k.running = h.running ∨ k.running = none

/-- The turn of a follower that has not stopped, and is not cancelled while it listens, is one unit of
its work. -/
theorem work_follower {h : Host} {id token : Nat} {f : Follower Stage}
    (task : h.tasks[id]? = some (.follower token none f))
    (live : f.phase = .listening → h.isCancelled token = false) (going : f.phase ≠ .stopped)
    (own : ∀ s rest, f.phase = .handling (s :: rest) → ∃ c, s = .cascade c) :
    ∃ g, Advance h.bench f (h.work id).bench g ∧ Turned h id token g (h.work id) := by
  obtain ⟨k, g, reacts, left⟩ := work_reacts task live going
  have advanced : Advance h.bench f k.bench g ∧ k.tasks = h.tasks ∧ k.tokens = h.tokens ∧
      k.running = h.running := by
    cases reacts with
    | wait phase nothing => exact ⟨.wait phase nothing, rfl, rfl, rfl⟩
    | receive phase received => exact ⟨.receive phase received, rfl, rfl, rfl⟩
    | consider phase => exact ⟨.consider phase, rfl, rfl, rfl⟩
    | finish phase => exact ⟨.finish phase, rfl, rfl, rfl⟩
    | @perform s rest phase =>
      obtain ⟨c, rfl⟩ := own s rest phase
      obtain ⟨effect, next⟩ := perform_cascade h id c
      have made := alike_of_unscheduled effect
      rw [next, made.bench]
      exact ⟨.perform phase, made.tasks, made.tokens, made.running⟩
  obtain ⟨advance, tasks, tokens, running⟩ := advanced
  refine ⟨g, left.bench ▸ advance, ?_, left.tokens.trans tokens, ?_⟩
  · rw [left.tasks, tasks]
  · exact left.running.imp_left fun same => same.trans running

/-- A follower in its role: it reads the feed from the base on, and what it has still to do belongs
to the role. -/
structure Serves (role : Role) (base : Nat) (feed : Setting.Feed) (f : Follower Stage) : Prop where
  key : f.key = role.key
  handler : f.handler = role.handler.map .cascade
  begun : base ≤ f.position
  inside : f.position ≤ feed.size
  going : f.phase ≠ .stopped
  own : ∃ stages : List Cascade.Stage,
    f.remaining = stages.map .cascade ∧ ∀ s ∈ stages, s.isFor role = true

theorem Serves.later {role : Role} {base : Nat} {feed after : Setting.Feed} {f : Follower Stage}
    (serves : Serves role base feed f) (more : feed.size ≤ after.size) :
    Serves role base after f :=
  { serves with inside := Nat.le_trans serves.inside more }

theorem Serves.proceed {role : Role} {base : Nat} {feed : Setting.Feed} {f : Follower Stage}
    (serves : Serves role base feed f) {stages : List Cascade.Stage}
    (own : ∀ s ∈ stages, s.isFor role = true) :
    Serves role base feed (f.proceed (stages.map .cascade)) where
  key := by rw [Follower.key_proceed, serves.key]
  handler := by rw [Follower.handler_proceed, serves.handler]
  begun := by
    rw [Follower.position_proceed]
    exact serves.begun
  inside := by
    rw [Follower.position_proceed]
    exact serves.inside
  going := by cases stages <;> simp [Follower.proceed]
  own := ⟨stages, Follower.remaining_proceed f _, own⟩

/-- The next stage of a follower in its role belongs to the role, and so do the stages after it. -/
theorem Serves.handling {role : Role} {base : Nat} {feed : Setting.Feed} {f : Follower Stage}
    (serves : Serves role base feed f) {s : Stage} {rest : List Stage}
    (phase : f.phase = .handling (s :: rest)) :
    ∃ (c : Cascade.Stage) (stages : List Cascade.Stage), s = .cascade c ∧
      rest = stages.map .cascade ∧ ∀ t ∈ c :: stages, t.isFor role = true := by
  obtain ⟨stages, same, own⟩ := serves.own
  rw [Follower.remaining_of_handling phase] at same
  cases stages with
  | nil => cases same
  | cons c stages =>
    obtain ⟨rfl, rfl⟩ := List.cons.inj same
    exact ⟨c, stages, rfl, rfl, own⟩

theorem Serves.cascade {role : Role} {base : Nat} {feed : Setting.Feed} {f : Follower Stage}
    (serves : Serves role base feed f) (s : Stage) (rest : List Stage)
    (phase : f.phase = .handling (s :: rest)) : ∃ c, s = .cascade c := by
  obtain ⟨c, -, same, -⟩ := serves.handling phase
  exact ⟨c, same⟩

theorem Serves.advance {role : Role} {base : Nat} {w after : Workbench} {f g : Follower Stage}
    (serves : Serves role base w.settings.feed f) (advance : Advance w f after g) :
    Serves role base after.settings.feed g := by
  cases advance with
  | wait phase nothing => exact serves
  | receive phase received =>
    obtain ⟨key, event, rfl⟩ | ⟨far, rfl⟩ := Follower.receive?_cases received
    · obtain ⟨inside, -⟩ := List.getElem?_eq_some_iff.1 event
      exact ⟨serves.key, serves.handler, Nat.le_succ_of_le serves.begun, inside, nofun, [], rfl,
        nofun⟩
    · refine ⟨serves.key, serves.handler, ?_, Nat.sub_le _ _, nofun, role.handler, serves.handler,
        fun s => Cascade.isFor_handler⟩
      exact Nat.le_trans serves.begun (Nat.le_sub_of_add_le (Nat.le_of_lt far))
  | @consider key phase =>
    by_cases own : key = f.key
    · rw [Follower.consider, if_pos own]
      exact ⟨serves.key, serves.handler, serves.begun, serves.inside, nofun, role.handler,
        serves.handler, fun s => Cascade.isFor_handler⟩
    · rw [Follower.consider, if_neg own]
      exact ⟨serves.key, serves.handler, serves.begun, serves.inside, nofun, [], rfl, nofun⟩
  | finish phase =>
    have nothing : ∀ s ∈ ([] : List Cascade.Stage), s.isFor role = true := nofun
    exact serves.proceed nothing
  | @perform s rest phase =>
    obtain ⟨c, stages, same, rfl, own⟩ := serves.handling phase
    obtain rfl : s = c := by simpa using same
    rw [← List.map_append]
    refine (serves.later (Cascade.size_perform w s)).proceed fun t mem => ?_
    obtain next | later := List.mem_append.1 mem
    · exact Cascade.isFor_perform (own s (List.mem_cons_self ..)) next
    · exact own t (List.mem_cons_of_mem _ later)

/-- What can happen to the workbench while it is not the turn of the follower in this role. -/
inductive Meanwhile (role : Role) (outside : Setting.Key → Prop) (w : Workbench) : Workbench → Prop
  | nothing : Meanwhile role outside w w
  | stage {other : Role} {s : Cascade.Stage} (different : other ≠ role)
      (own : s.isFor other = true) : Meanwhile role outside w (s.perform w).1
  | write {key : Setting.Key} {value : Json.Value} {after : Workbench} (allowed : outside key)
      (written : w.write key value = .ok after) : Meanwhile role outside w after

theorem Serves.meanwhile {role other : Role} {outside : Setting.Key → Prop} {base : Nat}
    {w after : Workbench} {f g : Follower Stage} (serves : Serves other base w.settings.feed f)
    (advance : Advance w f after g) (different : other ≠ role) :
    Meanwhile role outside w after := by
  cases advance with
  | @perform s rest phase =>
    obtain ⟨c, stages, same, -, own⟩ := serves.handling phase
    obtain rfl : s = c := by simpa using same
    exact .stage different (own s (List.mem_cons_self ..))
  | _ => exact .nothing

/-- Others change one setting at most: one that is written from outside, or by another role. -/
theorem Meanwhile.settings {role : Role} {outside : Setting.Key → Prop} {w after : Workbench}
    (change : Meanwhile role outside w after) :
    after.settings = w.settings ∨
      ∃ key value, (outside key ∨ ∃ other : Role, other ≠ role ∧ other.target? = some key) ∧
        after.settings = w.settings.commit key value := by
  cases change with
  | nothing => exact .inl rfl
  | @stage other s different own =>
    obtain same | ⟨key, value, writes, committed⟩ := Cascade.settings_perform w s
    · exact .inl same
    · exact .inr ⟨key, value, .inr ⟨other, different, Cascade.target?_of_isFor own writes⟩, committed⟩
  | write allowed written =>
    obtain ⟨-, rfl⟩ | ⟨files, rfl⟩ := Workbench.write_cases written
    · exact .inl rfl
    · exact .inr ⟨_, _, .inl allowed, rfl⟩

/-- A setting that is written neither from outside nor by another role keeps its value. -/
theorem Meanwhile.get?_eq {role : Role} {outside : Setting.Key → Prop} {w after : Workbench}
    (change : Meanwhile role outside w after) {key : Setting.Key} (inside : ¬ outside key)
    (own : ∀ other : Role, other ≠ role → other.target? ≠ some key) :
    after.settings.get? key = w.settings.get? key := by
  obtain same | ⟨written, value, writer, committed⟩ := change.settings
  · rw [same]
  · rw [committed, Setting.Store.get?_commit, if_neg]
    rintro rfl
    obtain free | ⟨other, different, writes⟩ := writer
    · exact inside free
    · exact own other different writes

theorem Meanwhile.size_le {role : Role} {outside : Setting.Key → Prop} {w after : Workbench}
    (change : Meanwhile role outside w after) :
    w.settings.feed.size ≤ after.settings.feed.size := by
  obtain same | ⟨key, value, -, committed⟩ := change.settings
  · exact Nat.le_of_eq (congrArg (·.feed.size) same.symm)
  · rw [committed, Setting.Store.feed_commit, Setting.Feed.size_raise]
    exact Nat.le_succ _

/-- Others change neither where the bundled models are nor whether the editor refuses. -/
theorem Meanwhile.frame {role : Role} {outside : Setting.Key → Prop} {w after : Workbench}
    (change : Meanwhile role outside w after) :
    after.bundle = w.bundle ∧ after.refusesFolders = w.refusesFolders := by
  cases change with
  | nothing => exact ⟨rfl, rfl⟩
  | @stage other s different own => exact Cascade.perform_frame w s
  | write allowed written =>
    obtain ⟨-, rfl⟩ | ⟨files, rfl⟩ := Workbench.write_cases written <;> exact ⟨rfl, rfl⟩

theorem Meanwhile.folders {outside : Setting.Key → Prop} {w after : Workbench}
    (change : Meanwhile .directory outside w after) : after.folders = w.folders := by
  cases change with
  | nothing => rfl
  | @stage other s different own => exact Cascade.folders_perform own different
  | write allowed written =>
    obtain ⟨-, rfl⟩ | ⟨files, rfl⟩ := Workbench.write_cases written <;> rfl

/-! ### The three followers together -/

/-- The three followers are at work: nobody else has the turn, and each of them is in its role. -/
structure AtWork (first token base : Nat) (h : Host) : Prop where
  live : h.isCancelled token = false
  turn : ∀ id, h.running = some id → ∃ role : Role, id = first + role.seat
  follower : ∀ role : Role, ∃ f, h.tasks[first + role.seat]? = some (.follower token none f) ∧
    Serves role base h.bench.settings.feed f

theorem seats_ne {first : Nat} {role other : Role} (different : other ≠ role) :
    first + other.seat ≠ first + role.seat :=
  fun seats => different (Role.seat_injective (Nat.add_left_cancel seats))

/-- Whoever is found on the seat of a role is in that role. -/
theorem AtWork.serves {first token base : Nat} {h : Host} (working : AtWork first token base h)
    {role : Role} {f : Follower Stage}
    (task : h.tasks[first + role.seat]? = some (.follower token none f)) :
    Serves role base h.bench.settings.feed f := by
  obtain ⟨f', here, serves⟩ := working.follower role
  obtain rfl : f' = f := by simpa [task] using here.symm
  exact serves

/-- A move of the followers, or of someone who writes one of these settings. -/
def Move.IsCascade (first : Nat) (outside : Setting.Key → Prop) : Move → Prop
  | .resume id => ∃ role : Role, id = first + role.seat
  | .work => True
  | .write key _ => outside key
  | _ => False

def roleTurns (first : Nat) (order : List (Role × Nat)) : List Move :=
  turns (order.map fun (role, works) => (first + role.seat, works))

theorem mem_roleTurns {first : Nat} {order : List (Role × Nat)} {m : Move}
    (mem : m ∈ roleTurns first order) : m = .work ∨ ∃ role : Role, m = .resume (first + role.seat) := by
  refine (mem_turns mem).imp_right fun ⟨turn, here, same⟩ => ?_
  obtain ⟨⟨role, works⟩, -, rfl⟩ := List.mem_map.1 here
  exact ⟨role, same⟩

/-- What a move does to the workbench and to the tasks. -/
inductive Change (first token : Nat) (outside : Setting.Key → Prop) (h k : Host) : Move → Prop
  | turn {id : Nat} (bench : k.bench = h.bench) (tasks : k.tasks = h.tasks) :
      Change first token outside h k (.resume id)
  | work {role : Role} {f g : Follower Stage} (turn : h.running = some (first + role.seat))
      (task : h.tasks[first + role.seat]? = some (.follower token none f))
      (advance : Advance h.bench f k.bench g)
      (tasks : k.tasks = h.tasks.set (first + role.seat) (.follower token none g)) :
      Change first token outside h k .work
  | write {key : Setting.Key} {value : Json.Value} (allowed : outside key)
      (written : h.bench.write key value = .ok k.bench) (tasks : k.tasks = h.tasks) :
      Change first token outside h k (.write key value)

/-- The move of a follower, or from outside, that can be made while the followers are at work. -/
theorem AtWork.move {first token base : Nat} {outside : Setting.Key → Prop} {h k : Host} {m : Move}
    (working : AtWork first token base h) (fits : m.IsCascade first outside)
    (move : h.move? m = some k) :
    Change first token outside h k m ∧ k.tokens = h.tokens ∧
      (∀ id, k.running = some id → ∃ role : Role, id = first + role.seat) := by
  cases m with
  | resume id =>
    obtain ⟨-, -, rfl⟩ := move?_resume move
    refine ⟨.turn rfl rfl, rfl, fun next turn => ?_⟩
    obtain rfl : id = next := by simpa using turn
    exact fits
  | work =>
    obtain ⟨id, turn, rfl⟩ := move?_work move
    obtain ⟨role, rfl⟩ := working.turn id turn
    obtain ⟨f, task, serves⟩ := working.follower role
    obtain ⟨g, advance, turned⟩ := work_follower task (fun _ => working.live) serves.going
      serves.cascade
    refine ⟨.work turn task advance turned.tasks, turned.tokens, fun next turn' => ?_⟩
    obtain same | none := turned.running
    · exact working.turn next (same ▸ turn')
    · rw [none] at turn'
      cases turn'
  | write key value =>
    obtain ⟨idle, bench, written, rfl⟩ := move?_write move
    have made := alike_of_unscheduled (unscheduled_withBench h bench)
    have whole : h.bench.write key value = .ok (h.withBench bench).bench := by
      rw [made.bench]
      exact written
    refine ⟨.write fits whole made.tasks, made.tokens, fun next turn => ?_⟩
    rw [made.running] at turn
    exact working.turn next turn
  | rescript _ | publish _ | regroup _ _ => exact fits.elim

/-- A change, as it looks to one of the followers: its own work, or that of others. -/
theorem Change.follower {first token base : Nat} {outside : Setting.Key → Prop} {h k : Host}
    {m : Move} (change : Change first token outside h k m) (working : AtWork first token base h)
    {role : Role} {f : Follower Stage}
    (task : h.tasks[first + role.seat]? = some (.follower token none f)) :
    (∃ g, h.running = some (first + role.seat) ∧ Advance h.bench f k.bench g ∧
        k.tasks[first + role.seat]? = some (.follower token none g)) ∨
      (Meanwhile role outside h.bench k.bench ∧
        k.tasks[first + role.seat]? = some (.follower token none f)) := by
  cases change with
  | turn bench tasks =>
    rw [bench, tasks]
    exact .inr ⟨.nothing, task⟩
  | @work other f' g turn task' advance tasks =>
    rw [tasks]
    by_cases same : other = role
    · subst same
      obtain rfl : f' = f := by simpa [task] using task'.symm
      refine .inl ⟨g, turn, advance, ?_⟩
      obtain ⟨inside, -⟩ := List.getElem?_eq_some_iff.1 task
      exact List.getElem?_set_self inside
    · refine .inr ⟨(working.serves task').meanwhile advance same, ?_⟩
      rw [List.getElem?_set_ne (seats_ne same)]
      exact task
  | write allowed written tasks =>
    rw [tasks]
    exact .inr ⟨.write allowed written, task⟩

theorem AtWork.keep {first token base : Nat} {outside : Setting.Key → Prop} {h k : Host} {m : Move}
    (working : AtWork first token base h) (fits : m.IsCascade first outside)
    (move : h.move? m = some k) : AtWork first token base k := by
  obtain ⟨change, tokens, turn⟩ := working.move fits move
  refine ⟨?_, turn, fun role => ?_⟩
  · rw [isCancelled, tokens]
    exact working.live
  · obtain ⟨f, task, serves⟩ := working.follower role
    obtain ⟨g, -, advance, next⟩ | ⟨others, next⟩ := change.follower working task
    · exact ⟨g, next, serves.advance advance⟩
    · exact ⟨f, next, serves.later others.size_le⟩

/-- The follower of a role, before it has read anything. -/
def newcomer (role : Role) (feed : Setting.Feed) : Follower Stage :=
  Follower.attend feed role.key (role.handler.map .cascade)

theorem serves_newcomer (role : Role) (feed : Setting.Feed) :
    Serves role feed.size feed (newcomer role feed) :=
  ⟨rfl, rfl, Nat.le_refl _, Nat.le_refl _, nofun, [], rfl, nofun⟩

def followRole (h : Host) (token : Nat) (role : Role) : Host :=
  h.follow token none role.key (role.handler.map .cascade)

theorem followRole_frame (h : Host) (token : Nat) (role : Role) :
    (h.followRole token role).tasks =
        h.tasks ++ [.follower token none (newcomer role h.bench.settings.feed)] ∧
      (h.followRole token role).bench = h.bench ∧
      (h.followRole token role).tokens = h.tokens := by
  have added := alike_of_unscheduled (unscheduled_addTask h
    (.follower token none (newcomer role h.bench.settings.feed)))
  exact ⟨added.tasks, added.bench, added.tokens⟩

theorem followCascade_frame (h : Host) (token : Nat) :
    (h.followCascade token).tasks =
        h.tasks ++ [Role.platform, .model, .directory].map
          (fun role => .follower token none (newcomer role h.bench.settings.feed)) ∧
      (h.followCascade token).bench = h.bench ∧ (h.followCascade token).tokens = h.tokens := by
  have split : h.followCascade token =
    ((h.followRole token .platform).followRole token .model).followRole token .directory := rfl
  simp only [split, followRole_frame, List.append_assoc, and_self, and_true]
  rfl

theorem tasks_followCascade (h : Host) (token : Nat) (role : Role) :
    (h.followCascade token).tasks[h.tasks.length + role.seat]? =
      some (.follower token none (newcomer role h.bench.settings.feed)) := by
  rw [(followCascade_frame h token).1, List.getElem?_append_right (Nat.le_add_right ..),
    Nat.add_sub_cancel_left]
  cases role <;> rfl

/-- The followers are at work once they have been started, and nobody has the turn. -/
theorem atWork_followCascade {h : Host} {token : Nat} (live : h.isCancelled token = false) :
    AtWork h.tasks.length token h.bench.settings.feed.size (h.followCascade token).suspend := by
  obtain ⟨-, bench, tokens⟩ := followCascade_frame h token
  refine ⟨?_, nofun, fun role => ⟨_, tasks_followCascade h token role, ?_⟩⟩
  · rw [← live]
    exact congrArg (fun tokens : List Bool => tokens[token]?.getD false) tokens
  · change Serves _ _ (h.followCascade token).bench.settings.feed _
    rw [bench]
    exact serves_newcomer role _

/-- What holds of a follower at the start and is kept by its own work and by what others do in the
meantime holds after every run. Of the workbench it may be used what holds at all times. -/
theorem AtWork.invariant {start : Host} {first token base : Nat} {outside : Setting.Key → Prop}
    {Q : Workbench → Prop} {P : List Move → Workbench → Follower Stage → Prop}
    (working : AtWork first token base start) (role : Role)
    (init : ∀ f, start.tasks[first + role.seat]? = some (.follower token none f) →
      P [] start.bench f)
    (own : ∀ moves (h : Host) after f g m, start.run? moves = some h →
      h.running = some (first + role.seat) →
      h.tasks[first + role.seat]? = some (.follower token none f) →
      Serves role base h.bench.settings.feed f → Q h.bench → Q after →
      Advance h.bench f after g → P moves h.bench f → P (moves ++ [m]) after g)
    (others : ∀ moves w after f m, Serves role base w.settings.feed f → Q w → Q after →
      Meanwhile role outside w after → P moves w f → P (moves ++ [m]) after f) :
    ∀ moves h, start.run? moves = some h → (∀ m ∈ moves, m.IsCascade first outside) →
      start.Throughout moves Q →
      AtWork first token base h ∧
        ∃ f, h.tasks[first + role.seat]? = some (.follower token none f) ∧ P moves h.bench f := by
  refine run_induction ?_ fun moves h m k run ih move fits always => ?_
  · intro _ _
    obtain ⟨f, task, -⟩ := working.follower role
    exact ⟨working, f, task, init f task⟩
  · obtain ⟨working, f, task, holds⟩ := ih (fun m mem => fits m (List.mem_append_left _ mem))
      always.init
    have fits := fits m (List.mem_append_right _ (List.mem_singleton_self m))
    refine ⟨working.keep fits move, ?_⟩
    have before := always.init.last run
    have now := always.last (run?_snoc run move)
    have serves := working.serves task
    obtain ⟨g, turn, advance, next⟩ | ⟨change, next⟩ := (working.move fits move).1.follower working task
    · exact ⟨g, next, own moves h k.bench f g m run turn task serves before now advance holds⟩
    · exact ⟨f, next, others moves h.bench k.bench f m serves before now change holds⟩

theorem AtWork.run {start h : Host} {first token base : Nat} {outside : Setting.Key → Prop}
    (working : AtWork first token base start) {moves : List Move} (run : start.run? moves = some h)
    (fits : ∀ m ∈ moves, m.IsCascade first outside) : AtWork first token base h :=
  (working.invariant .platform (Q := fun _ => True) (P := fun _ _ _ => True)
    (fun _ _ => trivial) (fun _ _ _ _ _ _ _ _ _ _ _ _ _ _ => trivial)
    (fun _ _ _ _ _ _ _ _ _ _ => trivial) moves h run fits fun _ _ _ _ _ => trivial).1

/-- In a run settings change only by events, and the bundled models stay where they are. -/
theorem AtWork.grows {start h : Host} {first token base : Nat} {outside : Setting.Key → Prop}
    (working : AtWork first token base start) {moves : List Move} (run : start.run? moves = some h)
    (fits : ∀ m ∈ moves, m.IsCascade first outside) :
    start.bench.settings.Grows h.bench.settings ∧ h.bench.bundle = start.bench.bundle := by
  obtain ⟨-, f, -, grows, bundle⟩ := working.invariant .platform (Q := fun _ => True)
    (P := fun _ w _ => start.bench.settings.Grows w.settings ∧ w.bundle = start.bench.bundle)
    (fun _ _ => ⟨start.bench.settings.grows_self, rfl⟩)
    (fun _ _ _ _ _ _ _ _ _ _ _ _ advance grown => by
      cases advance with
      | @perform s rest phase =>
        exact ⟨grown.1.trans (Cascade.grows_perform _ s),
          (Cascade.perform_frame _ s).1.trans grown.2⟩
      | _ => exact grown)
    (fun _ _ _ _ _ _ _ _ change grown => by
      refine ⟨?_, change.frame.1.trans grown.2⟩
      obtain same | ⟨key, value, -, committed⟩ := change.settings
      · rw [same]
        exact grown.1
      · rw [committed]
        exact grown.1.trans (Setting.Store.grows_commit _ key value))
    moves h run fits fun _ _ _ _ _ => trivial
  exact ⟨grows, bundle⟩

end ModelWorkspace.Host
