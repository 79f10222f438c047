import ModelWorkspace.Proofs.Host.Unscheduled

/-! The keeper of an inbox, turn by turn: it receives a trigger, or finds its quiet period over, or
waits. Time passes in between, but not beyond the end of a period that the keeper waits for. -/
namespace ModelWorkspace.Host

/-- The keeper of an inbox is in its place, with this period and these triggers to receive. If it has
a timer it is set to the end of the period. -/
structure Keeps (id inbox reconciler : Nat) (h : Host) (q : QuietPeriod) (queue : List Trigger) :
    Prop where
  task : h.tasks[id]? = some (.keeper inbox q reconciler)
  inbox : h.inboxes[inbox]? = some ⟨id, queue⟩
  timers : ∀ deadline, q.deadline? = some deadline → ∀ t ∈ h.timers, t.task = id → t.due = deadline

/-- The end of the period of the keeper in this place. -/
def pending? (h : Host) (id : Nat) : Option Nat :=
  match h.tasks[id]? with
  | some (.keeper _ q _) => q.deadline?
  | _ => none

/-- Whether the keeper in this place has nothing to do: there is nothing to receive, its period is not
over, and it will be woken when it is. -/
def isResting (h : Host) (id : Nat) : Bool :=
  match h.tasks[id]? with
  | some (.keeper inbox q _) =>
    (h.inboxes[inbox]?).any (·.queue.isEmpty) && !q.isOver h.clock &&
      (q.deadline?.isNone || h.timers.any (·.task == id))
  | _ => false

/-- A turn of a keeper takes no time, starts these tasks, and takes nothing from those who can send. -/
structure Brief (h k : Host) (started : List Task) : Prop where
  clock : k.clock = h.clock
  started : k.tasks.drop h.tasks.length = started
  senders : ∀ inbox, h.hasSender inbox = true → k.hasSender inbox = true

/-! ### Senders -/

theorem hasSender_of_unscheduled {h k : Host} (same : k.unscheduled = h) (inbox : Nat) :
    k.hasSender inbox = h.hasSender inbox := by
  subst same
  rfl

/-- Those who can send are the host, its sessions and the followers. -/
theorem hasSender_mono {h k : Host} (current : k.current = h.current) (session : k.session = h.session)
    (activating : k.activating = h.activating)
    (followers : ∀ token requests f, .follower token requests f ∈ h.tasks →
      .follower token requests f ∈ k.tasks) (inbox : Nat) (sender : h.hasSender inbox = true) :
    k.hasSender inbox = true := by
  unfold hasSender at sender ⊢
  rw [current, session, activating]
  rw [Bool.or_eq_true] at sender ⊢
  refine sender.imp_right fun some => ?_
  obtain ⟨t, mem, sends⟩ := List.any_eq_true.1 some
  refine List.any_eq_true.2 ⟨t, ?_, sends⟩
  cases t with
  | follower token requests f => exact followers token requests f mem
  | _ => cases sends

theorem hasSender_addTask (h : Host) (t : Task) (inbox : Nat) (sender : h.hasSender inbox = true) :
    (h.addTask t).hasSender inbox = true := by
  rw [hasSender_of_unscheduled (unscheduled_addTask h t)]
  refine hasSender_mono (h := h) (k := { h.unscheduled with tasks := h.tasks ++ [t] }) rfl rfl rfl ?_
    inbox sender
  exact fun _ _ _ mem => List.mem_append_left _ mem

theorem mem_setTask {h : Host} {id : Nat} {old : Task} (task : h.tasks[id]? = some old) (new : Task)
    {t : Task} (mem : t ∈ h.tasks) (other : t ≠ old) : t ∈ h.tasks.set id new := by
  obtain ⟨place, here⟩ := List.getElem?_of_mem mem
  refine List.mem_of_getElem? (i := place) ?_
  rw [List.getElem?_set_ne, here]
  rintro rfl
  exact other (Option.some.inj (here.symm.trans task))

section Keeps

variable {id inbox reconciler : Nat} {h : Host} {q : QuietPeriod} {queue : List Trigger}

theorem Keeps.pending (keeps : Keeps id inbox reconciler h q queue) :
    h.pending? id = q.deadline? := by simp only [pending?, keeps.task]

theorem Keeps.isResting_iff (keeps : Keeps id inbox reconciler h q queue) :
    h.isResting id = true ↔ (queue = [] ∧ q.isOver h.clock = false) ∧
      (q.deadline? = none ∨ ∃ t ∈ h.timers, t.task = id) := by
  simp only [isResting, keeps.task, keeps.inbox, Option.any_some, Bool.and_eq_true,
    List.isEmpty_iff, Bool.not_eq_true', Bool.or_eq_true, Option.isNone_iff_eq_none,
    List.any_eq_true, beq_iff_eq]

theorem early_of_not_isOver {now : Nat} (early : q.isOver now = false) (deadline : Nat)
    (running : q.deadline? = some deadline) : now < deadline := by
  simpa [QuietPeriod.isOver, running] using early

/-- A keeper that is put in the place of the keeper does not take that of a follower. -/
theorem Keeps.followers (keeps : Keeps id inbox reconciler h q queue) (g : QuietPeriod)
    (token : Nat) (requests : Option Requests) (f : Setting.Follower Stage)
    (mem : .follower token requests f ∈ h.tasks) :
    .follower token requests f ∈ h.tasks.set id (.keeper inbox g reconciler) :=
  mem_setTask keeps.task _ mem nofun

/-! ### Turns -/

/-- The keeper receives the first trigger of its inbox. -/
theorem Keeps.receive {t : Trigger} (keeps : Keeps id inbox reconciler h q (t :: queue)) :
    Keeps id inbox reconciler (h.work id) (q.receive t h.clock) queue ∧ Brief h (h.work id) [] := by
  have works : h.work id =
      (({ h with inboxes := h.inboxes.set inbox ⟨id, queue⟩ } : Host).setTask id
        (.keeper inbox (q.receive t h.clock) reconciler)).dropTimers id := by
    simp only [work, keeps.task, workKeeper, keeps.inbox]
  rw [works]
  obtain ⟨inside, -⟩ := List.getElem?_eq_some_iff.1 keeps.task
  obtain ⟨inside', -⟩ := List.getElem?_eq_some_iff.1 keeps.inbox
  refine ⟨⟨List.getElem?_set_self inside, List.getElem?_set_self inside', ?_⟩, rfl, ?_, ?_⟩
  · intro deadline running timer mem own
    simp [dropTimers, own] at mem
  · exact List.drop_eq_nil_of_le (Nat.le_of_eq List.length_set)
  · exact hasSender_mono (h := h) rfl rfl rfl (keeps.followers _)

/-- The keeper finds its period over. It starts a pass if the license is accepted. -/
theorem Keeps.finish (keeps : Keeps id inbox reconciler h q []) (sender : h.hasSender inbox = true)
    (elapsed : q.isOver h.clock = true) :
    Keeps id inbox reconciler (h.work id) q.finish [] ∧
      Brief h (h.work id)
        (if h.bench.settings.acceptedLicense then [.routine [.lint reconciler]] else []) := by
  have works : h.work id = h.finishPeriod id inbox q reconciler := by
    simp [work, keeps.task, workKeeper, keeps.inbox, sender, elapsed]
  rw [works]
  obtain ⟨inside, -⟩ := List.getElem?_eq_some_iff.1 keeps.task
  have place : (h.tasks.set id (.keeper inbox q.finish reconciler))[id]? =
      some (.keeper inbox q.finish reconciler) := List.getElem?_set_self inside
  have senders := hasSender_mono (h := h)
    (k := (h.setTask id (.keeper inbox q.finish reconciler)).dropTimers id) rfl rfl rfl
    (keeps.followers q.finish)
  unfold finishPeriod
  split
  · have alike := alike_of_unscheduled (unscheduled_addTask
      ((h.setTask id (.keeper inbox q.finish reconciler)).dropTimers id)
      (.routine [.lint reconciler]))
    refine ⟨⟨?_, ?_, nofun⟩, alike.clock, ?_, fun i sender => ?_⟩
    · rw [alike.tasks]
      exact (List.getElem?_append_left (List.length_set.symm ▸ inside)).trans place
    · rw [inboxes_addTask]
      exact keeps.inbox
    · rw [alike.tasks]
      exact List.drop_left' List.length_set
    · exact hasSender_addTask _ _ i (senders i sender)
  · refine ⟨⟨place, keeps.inbox, nofun⟩, rfl, ?_, senders⟩
    exact List.drop_eq_nil_of_le (Nat.le_of_eq List.length_set)

/-- The keeper waits for a trigger, or for the end of its period. -/
theorem Keeps.await (keeps : Keeps id inbox reconciler h q []) (sender : h.hasSender inbox = true)
    (early : q.isOver h.clock = false) :
    Keeps id inbox reconciler (h.work id) q [] ∧ Brief h (h.work id) [] ∧
      (h.work id).isResting id = true := by
  have works : h.work id = h.awaitTrigger id q := by
    simp [work, keeps.task, workKeeper, keeps.inbox, sender, early]
  have nothing : h.tasks.drop h.tasks.length = [] := List.drop_length
  rw [works]
  unfold awaitTrigger
  split
  · rename_i deadline running
    split
    · rename_i timer
      have own : ∃ t ∈ h.timers, t.task = id := by simpa using timer
      have kept : Keeps id inbox reconciler h.suspend q [] :=
        ⟨keeps.task, keeps.inbox, keeps.timers⟩
      exact ⟨kept, ⟨rfl, nothing, fun _ sender => sender⟩,
        kept.isResting_iff.2 ⟨⟨rfl, early⟩, .inr own⟩⟩
    · have kept : Keeps id inbox reconciler (h.addTimer id deadline).suspend q [] := by
        refine ⟨keeps.task, keeps.inbox, fun deadline' running' timer mem own => ?_⟩
        obtain mem | mem := List.mem_append.1 mem
        · exact keeps.timers deadline' running' timer mem own
        · obtain rfl := List.mem_singleton.1 mem
          exact Option.some.inj (running.symm.trans running')
      refine ⟨kept, ⟨rfl, nothing, fun _ sender => sender⟩, kept.isResting_iff.2 ⟨⟨rfl, early⟩, ?_⟩⟩
      exact .inr ⟨⟨deadline, id⟩, List.mem_append_right _ (List.mem_singleton_self _), rfl⟩
  · rename_i idle
    have kept : Keeps id inbox reconciler h.suspend q [] := ⟨keeps.task, keeps.inbox, keeps.timers⟩
    exact ⟨kept, ⟨rfl, nothing, fun _ sender => sender⟩,
      kept.isResting_iff.2 ⟨⟨rfl, early⟩, .inl idle⟩⟩

/-! ### Between turns -/

/-- A trigger is sent. -/
theorem Keeps.send (keeps : Keeps id inbox reconciler h q queue) (t : Trigger) :
    Keeps id inbox reconciler (h.send (.inbox inbox) t) q (queue ++ [t]) ∧
      Brief h (h.send (.inbox inbox) t) [] := by
  have sent : h.send (.inbox inbox) t =
      ({ h with inboxes := h.inboxes.set inbox ⟨id, queue ++ [t]⟩ } : Host).wake id := by
    simp [Host.send, keeps.inbox, isKept, keeps.task]
  rw [sent]
  have woken := unscheduled_wake { h with inboxes := h.inboxes.set inbox ⟨id, queue ++ [t]⟩ } id
  have alike := alike_of_unscheduled woken
  obtain ⟨inside, -⟩ := List.getElem?_eq_some_iff.1 keeps.inbox
  refine ⟨⟨?_, ?_, ?_⟩, alike.clock, ?_, fun i sender => ?_⟩
  · rw [alike.tasks]
    exact keeps.task
  · rw [inboxes_wake]
    exact List.getElem?_set_self inside
  · rw [timers_wake]
    exact keeps.timers
  · rw [alike.tasks]
    exact List.drop_length
  · rw [hasSender_of_unscheduled woken]
    exact sender

/-- A bound of the least of some times is a bound of all of them. -/
theorem le_foldl_min (timers : List Timer) (due bound : Nat) :
    bound ≤ timers.foldl (fun due t => min due t.due) due ↔
      bound ≤ due ∧ ∀ t ∈ timers, bound ≤ t.due := by
  induction timers generalizing due with
  | nil => simp
  | cons first timers ih =>
    rw [List.foldl_cons, ih, Nat.le_min, List.forall_mem_cons, and_assoc]

/-- The clock goes on, but not beyond any timer that is not over yet. -/
theorem advanceClock_clock {h k : Host} (advanced : h.advanceClock = some k) :
    h.clock ≤ k.clock ∧ ∀ t ∈ h.timers, h.clock ≤ t.due → k.clock ≤ t.due := by
  unfold advanceClock at advanced
  cases timers : h.timers with
  | nil => simp [timers] at advanced
  | cons first others =>
    simp only [timers, Option.some.injEq] at advanced
    obtain rfl := advanced
    rw [(alike_of_unscheduled (unscheduled_wakeAll _ _)).clock]
    have least := (le_foldl_min others first.due _).1 (Nat.le_refl _)
    rw [← List.forall_mem_cons (p := fun t : Timer => _ ≤ t.due)] at least
    exact ⟨Nat.le_max_left .., fun t mem ahead => Nat.max_le.2 ⟨ahead, least t mem⟩⟩

theorem Keeps.advance {k : Host} (keeps : Keeps id inbox reconciler h q queue)
    (advanced : h.advanceClock = some k) :
    Keeps id inbox reconciler k q queue ∧
      ∀ inbox, h.hasSender inbox = true → k.hasSender inbox = true := by
  unfold advanceClock at advanced
  split at advanced
  · cases advanced
  · obtain rfl := Option.some.inj advanced
    refine ⟨⟨?_, ?_, ?_⟩, fun i sender => ?_⟩
    · rw [(alike_of_unscheduled (unscheduled_wakeAll _ _)).tasks]
      exact keeps.task
    · rw [inboxes_wakeAll]
      exact keeps.inbox
    · rw [timers_wakeAll]
      exact fun deadline running t mem => keeps.timers deadline running t (List.mem_filter.1 mem).1
    · rw [hasSender_of_unscheduled (unscheduled_wakeAll _ _)]
      exact sender

end Keeps

end ModelWorkspace.Host
