import ModelWorkspace.Host.Schedule

/-! The host without its schedule: who is ready, who gave way, who listens, and when timers are due.
What a task does to all the rest does not depend on the schedule, so each operation of the host is
described by what is left of it here. -/
namespace ModelWorkspace.Host

/-- The host without a word on whose turn comes next. -/
def unscheduled (h : Host) : Host :=
  { h with
    ready := []
    quota := 0
    deferred := []
    mainReady := false
    timers := []
    listeners := []
    joining := false }

/-- Two hosts that agree in what tasks work on, and in who has the turn. -/
structure Alike (h k : Host) : Prop where
  bench : h.bench = k.bench
  script : h.script = k.script
  clock : h.clock = k.clock
  tasks : h.tasks = k.tasks
  running : h.running = k.running
  tokens : h.tokens = k.tokens
  reconcilers : h.reconcilers = k.reconcilers
  published : h.published = k.published

theorem Alike.refl (h : Host) : h.Alike h := ⟨rfl, rfl, rfl, rfl, rfl, rfl, rfl, rfl⟩

theorem Alike.trans {h k l : Host} (first : h.Alike k) (second : k.Alike l) : h.Alike l :=
  ⟨first.bench.trans second.bench, first.script.trans second.script,
    first.clock.trans second.clock, first.tasks.trans second.tasks,
    first.running.trans second.running, first.tokens.trans second.tokens,
    first.reconcilers.trans second.reconcilers, first.published.trans second.published⟩

theorem alike_of_unscheduled {h k : Host} (same : h.unscheduled = k) : h.Alike k := by
  subst same
  exact ⟨rfl, rfl, rfl, rfl, rfl, rfl, rfl, rfl⟩

@[simp] theorem unscheduled_setTask (h : Host) (id : Nat) (t : Task) :
    (h.setTask id t).unscheduled = h.unscheduled.setTask id t := rfl

@[simp] theorem unscheduled_suspend (h : Host) : h.suspend.unscheduled = h.unscheduled.suspend := rfl

@[simp] theorem unscheduled_giveWay (h : Host) (id : Nat) :
    (h.giveWay id).unscheduled = h.unscheduled.suspend := by
  unfold giveWay
  split <;> rfl

@[simp] theorem unscheduled_addTimer (h : Host) (id due : Nat) :
    (h.addTimer id due).unscheduled = h.unscheduled := rfl

@[simp] theorem unscheduled_wake (h : Host) (id : Nat) : (h.wake id).unscheduled = h.unscheduled := by
  unfold wake
  split
  · rfl
  · split <;> rfl

@[simp] theorem unscheduled_wakeAll (h : Host) (ids : List Nat) :
    (h.wakeAll ids).unscheduled = h.unscheduled := by
  unfold wakeAll
  induction ids generalizing h with
  | nil => rfl
  | cons id ids ih => rw [List.foldl_cons, ih, unscheduled_wake]

@[simp] theorem unscheduled_wakeOrphans (h : Host) : h.wakeOrphans.unscheduled = h.unscheduled := by
  unfold wakeOrphans
  generalize h.inboxes.zipIdx = inboxes
  induction inboxes generalizing h with
  | nil => rfl
  | cons entry rest ih =>
    obtain ⟨inbox, id⟩ := entry
    rw [List.foldl_cons, ih]
    dsimp only
    split
    · rfl
    · exact unscheduled_wake h inbox.task

@[simp] theorem unscheduled_addTask (h : Host) (t : Task) :
    (h.addTask t).unscheduled = { h.unscheduled with tasks := h.tasks ++ [t] } := by
  unfold addTask
  exact unscheduled_wake _ _

@[simp] theorem unscheduled_withBench (h : Host) (bench : Workbench) :
    (h.withBench bench).unscheduled = { h.unscheduled with bench } := by
  unfold withBench
  split
  · exact unscheduled_wakeAll _ _
  · rfl

@[simp] theorem unscheduled_endTask (h : Host) (id : Nat) :
    (h.endTask id).unscheduled = h.unscheduled.setTask id .ended := by
  unfold endTask
  rw [unscheduled_wakeOrphans]
  split
  · rw [unscheduled_wake]
    rfl
  · rfl

/-! ### Inboxes and timers -/

theorem inboxes_wake (h : Host) (id : Nat) : (h.wake id).inboxes = h.inboxes := by
  have same := congrArg Host.inboxes (unscheduled_wake h id)
  exact same

theorem inboxes_wakeAll (h : Host) (ids : List Nat) : (h.wakeAll ids).inboxes = h.inboxes := by
  have same := congrArg Host.inboxes (unscheduled_wakeAll h ids)
  exact same

theorem inboxes_addTask (h : Host) (t : Task) : (h.addTask t).inboxes = h.inboxes :=
  inboxes_wake _ _

/-- A task that is woken keeps its timer. -/
@[simp] theorem timers_wake (h : Host) (id : Nat) : (h.wake id).timers = h.timers := by
  unfold wake
  split
  · rfl
  · split <;> rfl

@[simp] theorem timers_wakeAll (h : Host) (ids : List Nat) : (h.wakeAll ids).timers = h.timers := by
  unfold wakeAll
  induction ids generalizing h with
  | nil => rfl
  | cons id ids ih => rw [List.foldl_cons, ih, timers_wake]

@[simp] theorem timers_withBench (h : Host) (bench : Workbench) :
    (h.withBench bench).timers = h.timers := by
  unfold withBench
  split
  · exact timers_wakeAll _ _
  · rfl

def Flow.keepsTurn : Flow → Bool
  | next _ => true
  | giveWay _ | suspend _ => false

theorem unscheduled_pass (h : Host) (id : Nat) (flow : Flow) :
    (h.pass id flow).unscheduled =
      { h.unscheduled with running := if flow.keepsTurn then h.running else none } := by
  cases flow with
  | next stages => rfl
  | giveWay stages => exact unscheduled_giveWay h id
  | suspend stages => rfl

end ModelWorkspace.Host
