import Mathlib.Algebra.GroupWithZero.Nat
import ModelWorkspace.Proofs.Cascade.Chronicle
import ModelWorkspace.Proofs.Catalogue.Defaults

/-! How much a run of the followers can come to. A follower pays for its work with the events that it
reads, and the followers raise events only as far as changes from outside have put one setting out
of line with another. -/
namespace ModelWorkspace

open Cascade (Role)
open Setting (Follower)

namespace Cascade.Stage

/-- The units of work that a stage can take, with the stages that it calls for. -/
def cost : Stage → Nat
  | pause | forwardModelDirectory | answer _ => 1
  | forwardModelVersion => 2
  | replaceModelFolder .. => 3
  | openModelDirectory => 5

theorem cost_pos (s : Stage) : 1 ≤ s.cost := by cases s <;> simp [cost]

theorem cost_perform (w : Workbench) (s : Stage) : ((s.perform w).2.map cost).sum < s.cost := by
  cases s with
  | pause | forwardModelDirectory | answer _ => exact Nat.zero_lt_one
  | forwardModelVersion =>
    simp only [perform]
    split <;> simp [cost]
  | openModelDirectory =>
    simp only [perform]
    split <;> simp [cost]
  | replaceModelFolder name path => simp [perform, cost]

/-- Whether a stage, or one that it calls for, does anything that others can see. -/
def acts : Stage → Bool
  | forwardModelVersion | forwardModelDirectory | openModelDirectory | replaceModelFolder .. => true
  | pause | answer _ => false

/-- A stage does something, or leaves it to one of those that come next, but not both. -/
theorem acts_perform (w : Workbench) (s : Stage) :
    (s.act? w).toList.length + (s.perform w).2.countP acts ≤ [s].countP acts := by
  cases s with
  | pause | answer _ => simp [perform, act?]
  | forwardModelVersion =>
    simp only [perform, act?]
    cases pendingModelVersion? w <;> simp [acts]
  | forwardModelDirectory => simp [perform, act?, acts]
  | openModelDirectory =>
    simp only [perform, act?]
    split <;> simp [acts]
  | replaceModelFolder name path => simp [perform, act?, acts]

end Cascade.Stage

namespace Host

def Stage.cost : Stage → Nat
  | .cascade s => s.cost
  | _ => 1

theorem Stage.cost_pos (s : Stage) : 1 ≤ s.cost := by
  cases s with
  | cascade s => exact s.cost_pos
  | _ => exact Nat.le_refl 1

def Stage.acts : Stage → Bool
  | .cascade s => s.acts
  | _ => false

/-- The units of work that a follower can do before it listens again. -/
def due (f : Follower Stage) : Nat :=
  match f.phase with
  | .noticed _ => 1 + (f.handler.map Stage.cost).sum
  | .handling rest => max 1 (rest.map Stage.cost).sum
  | .listening | .stopped => 0

/-- The things that a follower can still do before it listens again. -/
def planned (f : Follower Stage) : Nat := f.remaining.countP Stage.acts

/-- Whether the follower has still to find out what it has read. -/
def wonders (f : Follower Stage) : Nat :=
  match f.phase with
  | .noticed _ => 1
  | _ => 0

theorem due_proceed (f : Follower Stage) (stages : List Stage) :
    due (f.proceed stages) = (stages.map Stage.cost).sum := by
  cases stages with
  | nil => rfl
  | cons s rest =>
    have pos := s.cost_pos
    simp only [due, Follower.proceed, List.map_cons, List.sum_cons]
    omega

@[simp] theorem planned_proceed (f : Follower Stage) (stages : List Stage) :
    planned (f.proceed stages) = stages.countP Stage.acts := by
  rw [planned, Follower.remaining_proceed]

@[simp] theorem wonders_proceed (f : Follower Stage) (stages : List Stage) :
    wonders (f.proceed stages) = 0 := by cases stages <;> rfl

theorem length_keyIf_le (test : Workbench → Follower Stage → Bool) (w : Workbench)
    (f : Follower Stage) : (keyIf test w f).toList.length ≤ 1 := by
  unfold keyIf
  split <;> simp

theorem keyIf_of_false {test : Workbench → Follower Stage → Bool} {w : Workbench}
    {f : Follower Stage} (no : test w f = false) : keyIf test w f = none := by
  rw [keyIf, no]
  rfl

theorem keyIf_of_true {test : Workbench → Follower Stage → Bool} {w : Workbench}
    {f : Follower Stage} (yes : test w f = true) : keyIf test w f = some f.key := by
  rw [keyIf, yes]
  rfl

/-! ### One unit of work -/

section Advance

variable {w after : Workbench} {f g : Follower Stage}

/-- A receipt, as it is for a follower that has kept up and for one that has not. -/
theorem receive?_eq {feed : Setting.Feed} (received : f.receive? feed = some g) :
    (¬ f.position + Setting.Feed.capacity < feed.size ∧ ∃ key,
        feed.events[f.position]? = some key ∧
        g = { f with position := f.position + 1, phase := .noticed key }) ∨
      (f.position + Setting.Feed.capacity < feed.size ∧
        g = { f with
          position := feed.size - Setting.Feed.capacity
          phase := .handling f.handler }) := by
  by_cases far : f.position + Setting.Feed.capacity < feed.size
  · refine .inr ⟨far, ?_⟩
    simp only [Follower.receive?, Setting.Feed.receive, far, if_true, Option.some.injEq] at received
    exact received.symm
  · refine .inl ⟨far, ?_⟩
    simp only [Follower.receive?, Setting.Feed.receive, far, if_false] at received
    cases event : feed.events[f.position]? with
    | none => simp [event] at received
    | some key =>
      simp only [event, Option.map_some, Option.some.injEq] at received
      exact ⟨key, rfl, received.symm⟩

/-- A follower pays for its work with its position: twelve units for an event that it reads. -/
theorem Advance.due (advance : Advance w f after g) (some : 1 ≤ (f.handler.map Stage.cost).sum)
    (few : (f.handler.map Stage.cost).sum ≤ 10) :
    (keyIf works w f).toList.length + Host.due g + 12 * f.position ≤
      Host.due f + 12 * g.position := by
  have once := length_keyIf_le works w f
  cases advance with
  | wait phase nothing =>
    have idle : works w f = false := by simp [works, Follower.waits, phase, nothing]
    rw [keyIf_of_false idle, Option.toList_none, List.length_nil]
    omega
  | receive phase received =>
    have before : Host.due f = 0 := by simp only [Host.due, phase]
    obtain ⟨-, key, -, rfl⟩ | ⟨far, rfl⟩ := receive?_eq received
    · simp only [Host.due] at before ⊢
      omega
    · simp only [Host.due] at before ⊢
      omega
  | @consider key phase =>
    have before : Host.due f = 1 + (f.handler.map Stage.cost).sum := by simp only [Host.due, phase]
    rw [before]
    unfold Follower.consider
    split
    · simp only [Host.due]
      omega
    · simp only [Host.due]
      omega
  | finish phase =>
    have before : Host.due f = 1 := by simp [Host.due, phase]
    rw [due_proceed, before, Follower.position_proceed]
    simp only [List.map_nil, List.sum_nil]
    omega
  | @perform s rest phase =>
    have less := s.cost_perform w
    have before : s.cost + (rest.map Stage.cost).sum ≤ Host.due f := by
      simp only [Host.due, phase, List.map_cons, List.sum_cons, Stage.cost]
      omega
    have costs : Stage.cost ∘ Stage.cascade = Cascade.Stage.cost := rfl
    rw [due_proceed, Follower.position_proceed, List.map_append, List.sum_append, List.map_map, costs]
    omega

/-- A follower begins its handler at most once for an event that it reads. -/
theorem Advance.begins (advance : Advance w f after g) :
    (keyIf Host.begins w f).toList.length + wonders g + f.position ≤ wonders f + g.position := by
  have once := length_keyIf_le Host.begins w f
  cases advance with
  | wait phase nothing =>
    rw [Follower.receive?_eq_none_iff] at nothing
    have idle : Host.begins w f = false := by
      simp only [Host.begins, lapses, phase, decide_eq_false_iff_not]
      omega
    rw [keyIf_of_false idle, Option.toList_none, List.length_nil]
    omega
  | receive phase received =>
    have before : wonders f = 0 := by simp only [wonders, phase]
    obtain ⟨near, key, -, rfl⟩ | ⟨far, rfl⟩ := receive?_eq received
    · have idle : Host.begins w f = false := by
        simp only [Host.begins, lapses, phase, decide_eq_false_iff_not]
        exact near
      rw [keyIf_of_false idle, Option.toList_none, List.length_nil, before]
      simp only [wonders]
      omega
    · rw [before]
      simp only [wonders]
      omega
  | @consider key phase =>
    have before : wonders f = 1 := by simp only [wonders, phase]
    rw [before]
    unfold Follower.consider
    split <;> simp only [wonders] <;> omega
  | finish phase =>
    have idle : Host.begins w f = false := by simp only [Host.begins, lapses, phase]
    rw [keyIf_of_false idle, wonders_proceed, Follower.position_proceed, Option.toList_none,
      List.length_nil]
    omega
  | @perform s rest phase =>
    have idle : Host.begins w f = false := by simp only [Host.begins, lapses, phase]
    rw [keyIf_of_false idle, wonders_proceed, Follower.position_proceed, Option.toList_none,
      List.length_nil]
    omega

/-- What a follower does it has planned, and it plans one thing when it begins. -/
theorem Advance.acts (advance : Advance w f after g) (one : f.handler.countP Stage.acts ≤ 1) :
    (deed? w f).toList.length + planned g ≤ planned f + (keyIf Host.begins w f).toList.length := by
  cases advance with
  | wait phase nothing =>
    rw [deed?_of_idle (by simp only [Follower.remaining, phase]), Option.toList_none, List.length_nil]
    omega
  | receive phase received =>
    rw [deed?_of_idle (by simp only [Follower.remaining, phase]), Option.toList_none, List.length_nil]
    obtain ⟨-, key, -, rfl⟩ | ⟨far, rfl⟩ := receive?_eq received
    · have nothing : planned { f with position := f.position + 1, phase := .noticed key } = 0 := rfl
      omega
    · have begun : Host.begins w f = true := by simp [Host.begins, lapses, phase, far]
      have plan : planned { f with
          position := w.settings.feed.size - Setting.Feed.capacity
          phase := .handling f.handler } = f.handler.countP Stage.acts := rfl
      rw [keyIf_of_true begun, plan, Option.toList_some, List.length_singleton]
      omega
  | @consider key phase =>
    rw [deed?_of_idle (by simp only [Follower.remaining, phase]), Option.toList_none, List.length_nil]
    unfold Follower.consider
    split
    · rename_i own
      have begun : Host.begins w f = true := by simp [Host.begins, phase, own]
      have plan : planned { f with phase := .handling f.handler } =
        f.handler.countP Stage.acts := rfl
      rw [keyIf_of_true begun, plan, Option.toList_some, List.length_singleton]
      omega
    · have nothing : planned { f with phase := .listening } = 0 := rfl
      omega
  | finish phase =>
    rw [deed?_of_idle (by simp only [Follower.remaining, phase]), planned_proceed]
    simp
  | @perform s rest phase =>
    have stage := s.acts_perform w
    have done : (deed? w f).toList.length = (s.act? w).toList.length := by
      rw [deed?_of_handling phase]
      cases s.act? w <;> rfl
    have before : planned f = [s].countP Cascade.Stage.acts + rest.countP Stage.acts := by
      rw [planned, Follower.remaining_of_handling phase, List.countP_cons, List.countP_singleton,
        Nat.add_comm]
      rfl
    have next : ((s.perform w).2.map Stage.cascade).countP Stage.acts =
        (s.perform w).2.countP Cascade.Stage.acts := List.countP_map
    rw [planned_proceed, List.countP_append, next, done, before]
    omega

end Advance

/-! ### Whole runs -/

/-- What a follower has used up of what its position allows it. -/
structure Spent (start : Host) (moves : List Move) (base : Nat) (f : Follower Stage) : Prop where
  effort : (turnsWith works start moves).count f.key + due f + 12 * base ≤ 12 * f.position
  starts : (turnsWith begins start moves).count f.key + wonders f + base ≤ f.position
  things : ((deeds start moves).map (·.handler)).count f.key + planned f ≤
    (turnsWith begins start moves).count f.key

theorem handler_costs (role : Role) :
    1 ≤ (role.handler.map Cascade.Stage.cost).sum ∧
      (role.handler.map Cascade.Stage.cost).sum ≤ 10 ∧
      role.handler.countP Cascade.Stage.acts ≤ 1 := by
  cases role <;> decide

theorem Serves.costs {role : Role} {base : Nat} {feed : Setting.Feed} {f : Follower Stage}
    (serves : Serves role base feed f) :
    1 ≤ (f.handler.map Stage.cost).sum ∧ (f.handler.map Stage.cost).sum ≤ 10 ∧
      f.handler.countP Stage.acts ≤ 1 := by
  have costs : Stage.cost ∘ Stage.cascade = Cascade.Stage.cost := rfl
  have acts : Stage.acts ∘ Stage.cascade = Cascade.Stage.acts := rfl
  rw [serves.handler, List.map_map, costs, List.countP_map, acts]
  exact handler_costs role

theorem count_handler_deed? (w : Workbench) (f : Follower Stage) (key : Setting.Key) :
    ((deed? w f).toList.map (·.handler)).count key =
      if key = f.key then (deed? w f).toList.length else 0 := by
  cases deed : deed? w f with
  | none => simp
  | some d =>
    have own : d.handler = f.key := handler_of_deed? (w := w) (by simp [deed])
    by_cases same : key = f.key
    · simp [own, same]
    · have other : (f.key == key) = false := by simpa using Ne.symm same
      simp [own, same, other, List.count_singleton]

/-- The work of another follower is not counted. -/
theorem Spent.other {start h k : Host} {moves : List Move} {base id token : Nat}
    {f g : Follower Stage} (spent : Spent start moves base f) (run : start.run? moves = some h)
    (move : h.move? .work = some k) (turn : h.running = some id)
    (task : h.tasks[id]? = some (.follower token none g)) (different : f.key ≠ g.key) :
    Spent start (moves ++ [.work]) base f := by
  obtain ⟨works, begins, acts⟩ := spent
  constructor
  · rw [turnsWith, collect_work _ run move turn task, List.count_append, count_keyIf, if_neg different]
    exact works
  · rw [turnsWith, collect_work _ run move turn task, List.count_append, count_keyIf, if_neg different]
    exact begins
  · rw [turnsWith, deeds, collect_work _ run move turn task, collect_work _ run move turn task,
      List.map_append, List.count_append, List.count_append, count_keyIf, count_handler_deed?,
      if_neg different, if_neg different]
    exact acts

/-- A follower pays for what it does. -/
theorem Spent.work {start h k : Host} {moves : List Move} {role : Role} {base id token : Nat}
    {after : Workbench} {f g : Follower Stage} (spent : Spent start moves base f)
    (run : start.run? moves = some h) (move : h.move? .work = some k) (turn : h.running = some id)
    (task : h.tasks[id]? = some (.follower token none f))
    (serves : Serves role base h.bench.settings.feed f) (same : g.key = f.key)
    (advance : Advance h.bench f after g) : Spent start (moves ++ [.work]) base g := by
  obtain ⟨some, few, one⟩ := serves.costs
  have works := advance.due some few
  have begins := advance.begins
  have acts := advance.acts one
  obtain ⟨works', begins', acts'⟩ := spent
  constructor
  · rw [turnsWith, collect_work _ run move turn task, List.count_append, count_keyIf, same,
      if_pos rfl]
    rw [turnsWith] at works'
    omega
  · rw [turnsWith, collect_work _ run move turn task, List.count_append, count_keyIf, same,
      if_pos rfl]
    rw [turnsWith] at begins'
    omega
  · rw [turnsWith, deeds, collect_work _ run move turn task, collect_work _ run move turn task,
      List.map_append, List.count_append, List.count_append, count_keyIf, count_handler_deed?, same,
      if_pos rfl, if_pos rfl]
    rw [turnsWith, deeds] at acts'
    omega

theorem Spent.same {start h k : Host} {moves : List Move} {m : Move} {base : Nat}
    {f : Follower Stage} (spent : Spent start moves base f) (run : start.run? moves = some h)
    (move : h.move? m = some k) (other : m ≠ .work) : Spent start (moves ++ [m]) base f := by
  obtain ⟨works, begins, acts⟩ := spent
  constructor
  · rw [turnsWith, collect_other _ run move other]
    exact works
  · rw [turnsWith, collect_other _ run move other]
    exact begins
  · rw [turnsWith, deeds, collect_other _ run move other, collect_other _ run move other]
    exact acts

/-- After every run each follower has paid for what it did. -/
theorem AtWork.spent {start : Host} {first token base : Nat} {outside : Setting.Key → Prop}
    (working : AtWork first token base start)
    (fresh : ∀ (role : Role) (f : Follower Stage),
      start.tasks[first + role.seat]? = some (.follower token none f) → f.phase = .listening) :
    ∀ moves h, start.run? moves = some h → (∀ m ∈ moves, m.IsCascade first outside) →
      AtWork first token base h ∧ ∀ (role : Role) (f : Follower Stage),
        h.tasks[first + role.seat]? = some (.follower token none f) → Spent start moves base f := by
  refine working.induction (fun role f task => ?_) fun moves h k m run move working change spent => ?_
  · have phase := fresh role f task
    have begun := (working.serves task).begun
    refine ⟨?_, ?_, ?_⟩
    · simp only [turnsWith, collect, due, phase, List.count_nil]
      omega
    · simp only [turnsWith, collect, wonders, phase, List.count_nil]
      omega
    · simp [deeds, collect, planned, Follower.remaining, phase]
  · intro role f task
    cases change with
    | turn bench tasks => exact (spent role f (tasks ▸ task)).same run move (by simp)
    | write allowed written tasks => exact (spent role f (tasks ▸ task)).same run move (by simp)
    | @work other e g turn task' advance tasks =>
      have serves := working.serves task'
      rw [tasks] at task
      by_cases own : other = role
      · subst own
        obtain ⟨inside, -⟩ := List.getElem?_eq_some_iff.1 task'
        rw [List.getElem?_set_self inside] at task
        obtain rfl : g = f := by simpa using task
        refine (spent other e task').work run move turn task' serves ?_ advance
        rw [serves.key, (serves.advance advance).key]
      · rw [List.getElem?_set_ne (seats_ne own)] at task
        refine (spent role f task).other run move turn task' ?_
        rw [serves.key, (working.serves task).key]
        exact fun keys => own (Role.key_injective keys.symm)

end Host

end ModelWorkspace
