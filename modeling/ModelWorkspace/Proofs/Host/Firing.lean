import ModelWorkspace.Proofs.Host.Growing
import ModelWorkspace.Proofs.Host.Keeping
import ModelWorkspace.Proofs.Lint.Quiet

/-! The keeper of an inbox on a host on which anything else goes on as well. Triggers come at any time,
the license is accepted and withdrawn, and time passes while the keeper has nothing to do. It finds
its period over just at the times at which a quiet period ends, and starts a pass at each of them at
which the license is accepted. -/
namespace ModelWorkspace.Host

/-- What can be seen of a turn of a keeper: when it was, whether the license was accepted then, whether
its period was over with it, and which tasks it started. -/
structure Turn where
  time : Nat
  accepted : Bool
  fired : Bool
  started : List Task

def turn (h : Host) (id : Nat) : Turn where
  time := h.clock
  accepted := h.bench.settings.acceptedLicense
  fired := (h.pending? id).isSome && ((h.work id).pending? id).isNone
  started := (h.work id).tasks.drop h.tasks.length

/-- Something happens that the keeper in this place has no part in. -/
structure Aside (id inbox : Nat) (h k : Host) : Prop where
  task : k.tasks[id]? = h.tasks[id]?
  inbox : k.inboxes[inbox]? = h.inboxes[inbox]?
  clock : k.clock = h.clock
  timers : ∀ t : Timer, t.task = id → (t ∈ k.timers ↔ t ∈ h.timers)

/-- A keeper is watched for a while: the triggers that came, and its turns. It has its turns at any
time, while someone can still send to it. No relevant trigger comes just when a period ends, and the
clock goes on only while the keeper has nothing to do. At any time something may happen aside. -/
inductive Tended (id inbox : Nat) (start : Host) : List (Timed Trigger) → List Turn → Host → Prop
  | start : Tended id inbox start [] [] start
  | turn {arrivals : List (Timed Trigger)} {turns : List Turn} {h : Host}
      (run : Tended id inbox start arrivals turns h) (sender : h.hasSender inbox = true) :
      Tended id inbox start arrivals (turns ++ [h.turn id]) (h.work id)
  | arrive {arrivals : List (Timed Trigger)} {turns : List Turn} {h : Host}
      (run : Tended id inbox start arrivals turns h) (t : Trigger)
      (apart : t.isRelevant = true → h.pending? id ≠ some h.clock) :
      Tended id inbox start (arrivals ++ [⟨h.clock, t⟩]) turns (h.send (.inbox inbox) t)
  | wait {arrivals : List (Timed Trigger)} {turns : List Turn} {h k : Host}
      (run : Tended id inbox start arrivals turns h) (rests : h.isResting id = true)
      (advanced : h.advanceClock = some k) : Tended id inbox start arrivals turns k
  | aside {arrivals : List (Timed Trigger)} {turns : List Turn} {h k : Host}
      (run : Tended id inbox start arrivals turns h) (rest : Aside id inbox h k) :
      Tended id inbox start arrivals turns k

/-- When relevant triggers came. -/
def relevantTimes (arrivals : List (Timed Trigger)) : List Nat :=
  (arrivals.filter (·.value.isRelevant)).map (·.time)

/-- When the period was found over. -/
def firings (turns : List Turn) : List Nat := (turns.filter (·.fired)).map (·.time)

theorem firings_concat (turns : List Turn) (t : Turn) :
    firings (turns ++ [t]) = firings turns ++ if t.fired then [t.time] else [] := by
  cases fired : t.fired <;> simp [firings, fired]

theorem relevantTimes_concat (arrivals : List (Timed Trigger)) (a : Timed Trigger) :
    relevantTimes (arrivals ++ [a]) =
      relevantTimes arrivals ++ if a.value.isRelevant then [a.time] else [] := by
  cases relevant : a.value.isRelevant <;> simp [relevantTimes, relevant]

/-- Settings are written: the license is accepted, or withdrawn. -/
theorem aside_set (id inbox : Nat) (h : Host) (writes : List (Setting.Key × Json.Value)) :
    Aside id inbox h (h.set writes) := by
  have written := onlyWritten_set h writes
  exact ⟨congrArg (·[id]?) written.tasks, congrArg (·[inbox]?) written.inboxes, written.clock,
    fun t _ => by rw [written.timers]⟩

/-- Another task will be woken. -/
theorem aside_addTimer {id other : Nat} (different : other ≠ id) (inbox : Nat) (h : Host)
    (due : Nat) : Aside id inbox h (h.addTimer other due) := by
  refine ⟨rfl, rfl, rfl, fun t own => ?_⟩
  simp only [addTimer, List.mem_append, List.mem_singleton, or_iff_left_iff_imp]
  rintro rfl
  exact absurd own different

/-- What stays true of a keeper that is watched. -/
structure Tends (id inbox reconciler : Nat) (arrivals : List (Timed Trigger)) (turns : List Turn)
    (h : Host) (q : QuietPeriod) (queue : List Trigger) : Prop where
  keeps : Keeps id inbox reconciler h q queue
  ahead : ∀ deadline, q.deadline? = some deadline → h.clock ≤ deadline
  account : QuietPeriod.Account (relevantTimes arrivals) (firings turns) h.clock
    (q.receiveAll queue h.clock)
  sound : ∀ t ∈ turns, t.started =
    if t.fired && t.accepted then [.routine [.lint reconciler]] else []

section Tends

variable {id inbox reconciler : Nat} {arrivals : List (Timed Trigger)} {turns : List Turn}
  {h : Host} {q : QuietPeriod} {queue : List Trigger}

theorem Keeps.fired {g : QuietPeriod} {later : List Trigger}
    (keeps : Keeps id inbox reconciler h q queue)
    (next : Keeps id inbox reconciler (h.work id) g later) :
    (h.turn id).fired = (q.deadline?.isSome && g.deadline?.isNone) := by
  simp only [Host.turn, keeps.pending, next.pending]

/-- A turn that does not end a period starts nothing. -/
theorem Tends.quietTurn {g : QuietPeriod} {later : List Trigger}
    (tends : Tends id inbox reconciler arrivals turns h q queue)
    (keeps : Keeps id inbox reconciler (h.work id) g later) (brief : Brief h (h.work id) [])
    (running : q.deadline?.isSome = true → g.deadline?.isSome = true)
    (ahead : ∀ deadline, g.deadline? = some deadline → h.clock ≤ deadline)
    (same : q.receiveAll queue h.clock = g.receiveAll later h.clock) :
    Tends id inbox reconciler arrivals (turns ++ [h.turn id]) (h.work id) g later := by
  have fired : (h.turn id).fired = false := by
    rw [tends.keeps.fired keeps, Bool.and_eq_false_imp]
    intro some
    simpa using running some
  refine ⟨keeps, brief.clock ▸ ahead, ?_, ?_⟩
  · rw [brief.clock, ← same, firings_concat, fired]
    simpa using tends.account
  · rw [List.forall_mem_append, List.forall_mem_singleton, fired]
    exact ⟨tends.sound, brief.started⟩

theorem Tends.receive {t : Trigger}
    (tends : Tends id inbox reconciler arrivals turns h q (t :: queue)) :
    Tends id inbox reconciler arrivals (turns ++ [h.turn id]) (h.work id) (q.receive t h.clock)
      queue := by
  obtain ⟨keeps, brief⟩ := tends.keeps.receive
  refine tends.quietTurn keeps brief ?_ ?_ rfl
  · unfold QuietPeriod.receive
    split_ifs
    · exact fun _ => rfl
    · exact fun some => some
  · unfold QuietPeriod.receive
    split_ifs
    · intro deadline running
      obtain rfl := Option.some.inj running
      exact Nat.le_add_right ..
    · exact tends.ahead

theorem Tends.await (tends : Tends id inbox reconciler arrivals turns h q [])
    (sender : h.hasSender inbox = true) (early : q.isOver h.clock = false) :
    Tends id inbox reconciler arrivals (turns ++ [h.turn id]) (h.work id) q [] := by
  obtain ⟨keeps, brief, -⟩ := tends.keeps.await sender early
  exact tends.quietTurn keeps brief (fun some => some) tends.ahead rfl

theorem Tends.finish (tends : Tends id inbox reconciler arrivals turns h q [])
    (sender : h.hasSender inbox = true) (elapsed : q.isOver h.clock = true) :
    Tends id inbox reconciler arrivals (turns ++ [h.turn id]) (h.work id) q.finish [] := by
  obtain ⟨keeps, brief⟩ := tends.keeps.finish sender elapsed
  obtain ⟨deadline, running, late⟩ := (Option.any_eq_true _ _).1 elapsed
  obtain rfl : deadline = h.clock :=
    Nat.le_antisymm (by simpa using late) (tends.ahead deadline running)
  have fired : (h.turn id).fired = true := by
    rw [tends.keeps.fired keeps, running]
    rfl
  refine ⟨keeps, nofun, ?_, ?_⟩
  · rw [brief.clock, firings_concat, fired]
    exact tends.account.finish running
  · rw [List.forall_mem_append, List.forall_mem_singleton, fired, Bool.true_and]
    exact ⟨tends.sound, brief.started⟩

theorem Tends.arrive (tends : Tends id inbox reconciler arrivals turns h q queue) {t : Trigger}
    (apart : t.isRelevant = true → h.pending? id ≠ some h.clock) :
    Tends id inbox reconciler (arrivals ++ [⟨h.clock, t⟩]) turns (h.send (.inbox inbox) t) q
      (queue ++ [t]) := by
  obtain ⟨keeps, brief⟩ := tends.keeps.send t
  refine ⟨keeps, brief.clock ▸ tends.ahead, ?_, tends.sound⟩
  rw [brief.clock, QuietPeriod.receiveAll_concat, QuietPeriod.receive, relevantTimes_concat]
  split_ifs with relevant
  · refine tends.account.arrive fun deadline running => ?_
    have positive : 0 < QuietPeriod.length := by decide
    obtain same | same := q.receiveAll_cases queue h.clock <;> rw [same] at running
    · have apart := apart relevant
      rw [tends.keeps.pending, running] at apart
      exact Nat.lt_of_le_of_ne (tends.ahead deadline running) fun now => apart (now ▸ rfl)
    · obtain rfl := Option.some.inj running
      omega
  · simpa using tends.account

theorem Tends.wait {k : Host} (tends : Tends id inbox reconciler arrivals turns h q queue)
    (rests : h.isResting id = true) (advanced : h.advanceClock = some k) :
    Tends id inbox reconciler arrivals turns k q queue := by
  obtain ⟨⟨rfl, early⟩, timer⟩ := tends.keeps.isResting_iff.1 rests
  obtain ⟨after, bounded⟩ := advanceClock_clock advanced
  refine ⟨(tends.keeps.advance advanced).1, fun deadline running => ?_, ?_, tends.sound⟩
  · obtain ⟨t, mem, own⟩ := timer.resolve_left (by simp [running])
    have due := tends.keeps.timers deadline running t mem own
    exact due ▸ bounded t mem (due ▸ tends.ahead deadline running)
  · exact tends.account.wait after (early_of_not_isOver early)

theorem Tends.aside {k : Host} (tends : Tends id inbox reconciler arrivals turns h q queue)
    (rest : Aside id inbox h k) : Tends id inbox reconciler arrivals turns k q queue := by
  refine ⟨⟨rest.task.trans tends.keeps.task, rest.inbox.trans tends.keeps.inbox, ?_⟩, ?_, ?_,
    tends.sound⟩
  · intro deadline running t mem own
    exact tends.keeps.timers deadline running t ((rest.timers t own).1 mem) own
  · rw [rest.clock]
    exact tends.ahead
  · rw [rest.clock]
    exact tends.account

theorem Tended.tends {start : Host} (begun : Tends id inbox reconciler [] [] start {} [])
    (run : Tended id inbox start arrivals turns h) :
    ∃ q queue, Tends id inbox reconciler arrivals turns h q queue := by
  induction run with
  | start => exact ⟨_, _, begun⟩
  | @turn arrivals turns h run sender ih =>
    obtain ⟨q, queue, tends⟩ := ih
    cases queue with
    | cons t queue => exact ⟨_, _, tends.receive⟩
    | nil =>
      cases elapsed : q.isOver h.clock with
      | false => exact ⟨_, _, tends.await sender elapsed⟩
      | true => exact ⟨_, _, tends.finish sender elapsed⟩
  | arrive run t apart ih =>
    obtain ⟨q, queue, tends⟩ := ih
    exact ⟨_, _, tends.arrive apart⟩
  | wait run rests advanced ih =>
    obtain ⟨q, queue, tends⟩ := ih
    exact ⟨_, _, tends.wait rests advanced⟩
  | aside run rest ih =>
    obtain ⟨q, queue, tends⟩ := ih
    exact ⟨_, _, tends.aside rest⟩

/-- After some turns the keeper has nothing to do, and no time has passed. -/
theorem Tended.settles {start : Host} (run : Tended id inbox start arrivals turns h)
    (keeps : Keeps id inbox reconciler h q queue) (sender : h.hasSender inbox = true) :
    ∃ more k, Tended id inbox start arrivals (turns ++ more) k ∧ k.clock = h.clock ∧
      k.isResting id = true ∧ k.hasSender inbox = true := by
  induction queue generalizing h q turns with
  | nil =>
    cases elapsed : q.isOver h.clock with
    | false =>
      obtain ⟨-, brief, rests⟩ := keeps.await sender elapsed
      exact ⟨_, _, run.turn sender, brief.clock, rests, brief.senders inbox sender⟩
    | true =>
      obtain ⟨keeps, brief⟩ := keeps.finish sender elapsed
      have rests : (h.work id).isResting id = true := keeps.isResting_iff.2 ⟨⟨rfl, rfl⟩, .inl rfl⟩
      exact ⟨_, _, run.turn sender, brief.clock, rests, brief.senders inbox sender⟩
  | cons t queue ih =>
    obtain ⟨keeps, brief⟩ := keeps.receive
    obtain ⟨more, k, later, clock, rests, senders⟩ :=
      ih (run.turn sender) keeps (brief.senders inbox sender)
    refine ⟨h.turn id :: more, k, ?_, clock.trans brief.clock, rests, senders⟩
    rw [List.append_cons]
    exact later

end Tends

theorem tends_startKeeper (h : Host) (reconciler : Nat) :
    Tends h.tasks.length h.inboxes.length reconciler [] [] (h.startKeeper reconciler) {} [] := by
  have alike := alike_of_unscheduled (unscheduled_addTask
    { h with inboxes := h.inboxes ++ [⟨h.tasks.length, []⟩] }
    (.keeper h.inboxes.length ⟨none⟩ reconciler))
  refine ⟨⟨?_, ?_, nofun⟩, nofun, QuietPeriod.account_new _, nofun⟩
  · unfold startKeeper
    rw [alike.tasks]
    exact List.getElem?_concat_length
  · unfold startKeeper
    rw [inboxes_addTask]
    exact List.getElem?_concat_length

/-- The keeper of an inbox soon has nothing to do, and whenever it has nothing to do, it has found its
period over at just those times up to now that come half a second after a relevant trigger without
another one in between, once at each of them. Its period is that of the last relevant trigger, if that
is not over. A turn in which it found its period over has started one pass if the license was accepted
at that moment, and any other turn has started nothing. -/
theorem fires_after_quiet {h : Host} {reconciler : Nat} {arrivals : List (Timed Trigger)}
    {turns : List Turn} {k : Host}
    (run : Tended h.tasks.length h.inboxes.length (h.startKeeper reconciler) arrivals turns k) :
    (k.hasSender h.inboxes.length = true → ∃ more l,
      Tended h.tasks.length h.inboxes.length (h.startKeeper reconciler) arrivals (turns ++ more) l ∧
      l.clock = k.clock ∧ l.isResting h.tasks.length = true) ∧
    (k.isResting h.tasks.length = true →
      (∀ due, due ∈ firings turns ↔
        due ≤ k.clock ∧ ∃ t later, t :: later <:+ relevantTimes arrivals ∧
          due = t + QuietPeriod.length ∧ ∀ u ∈ later, due ≤ u) ∧
      (firings turns).Pairwise (· < ·) ∧
      k.pending? h.tasks.length =
        (QuietPeriod.lastEnd? (relevantTimes arrivals)).filter (k.clock < ·)) ∧
    ∀ t ∈ turns, t.started =
      if t.fired && t.accepted then [.routine [.lint reconciler]] else [] := by
  obtain ⟨q, queue, tends⟩ := run.tends (tends_startKeeper h reconciler)
  refine ⟨fun sender => ?_, fun rests => ?_, tends.sound⟩
  · obtain ⟨more, l, later, clock, rests, -⟩ := run.settles tends.keeps sender
    exact ⟨more, l, later, clock, rests⟩
  · obtain ⟨⟨rfl, early⟩, -⟩ := tends.keeps.isResting_iff.1 rests
    have early := early_of_not_isOver early
    have account : QuietPeriod.Account (relevantTimes arrivals) (firings turns) k.clock q :=
      tends.account
    have fired : firings turns = QuietPeriod.ends k.clock (relevantTimes arrivals) := by
      rw [← account.ends, QuietPeriod.due_of_ahead early, List.append_nil]
    rw [fired, tends.keeps.pending, account.deadline early]
    exact ⟨fun due => QuietPeriod.mem_ends, QuietPeriod.pairwise_ends _ _, rfl⟩

/-- A host that sends to the inbox of the first keeper. -/
def sending : Host where
  bench := { bundle := ⟨⟨"/b"⟩⟩ }
  current := .inbox 0

def licensing (accepted : Bool) : List (Setting.Key × Json.Value) :=
  [(.acceptedLicense, .bool accepted)]

def notesChanged : Trigger := .textChanged ⟨⟨"file:///notes.md"⟩, "markdown"⟩

/-- The host after time has passed, if it can. -/
def waited (h : Host) : Host := h.advanceClock.getD h

theorem Tended.waited {id inbox : Nat} {start h : Host} {arrivals : List (Timed Trigger)}
    {turns : List Turn} (run : Tended id inbox start arrivals turns h)
    (rests : (h.isResting id && h.advanceClock.isSome) = true) :
    Tended id inbox start arrivals turns h.waited := by
  rw [Bool.and_eq_true] at rests
  obtain ⟨k, advanced⟩ := Option.isSome_iff_exists.1 rests.2
  rw [Host.waited, advanced]
  exact run.wait rests.1 advanced

/-- A document that is no model source changes within a period and does not matter; another command
starts the period anew. One pass is started at its end, and none half a second after the third
command, since the license has been withdrawn by then. -/
theorem fires_after_quiet_withdrawn :
    ∃ arrivals turns k, Tended 1 0 (sending.startKeeper 0) arrivals turns k ∧
      k.isResting 1 = true ∧ relevantTimes arrivals = [0, 450, 950] ∧ firings turns = [950, 1450] ∧
      ∀ t ∈ turns, t.started = if t.fired && t.accepted then [.routine [.lint 0]] else [] := by
  have licensed : Tended 1 0 (sending.startKeeper 0) [] [] _ :=
    Tended.start.aside (aside_set 1 0 _ (licensing true))
  have armed := ((licensed.arrive .command (by decide +kernel)).turn (by decide +kernel)).turn
    (by decide +kernel)
  have noted := ((armed.aside (aside_addTimer Nat.zero_ne_one 0 _ 300)).waited
    (by decide +kernel)).arrive notesChanged (by decide +kernel)
  have later := (noted.turn (by decide +kernel)).turn (by decide +kernel)
  have again := ((later.aside (aside_addTimer Nat.zero_ne_one 0 _ 450)).waited
    (by decide +kernel)).arrive .command (by decide +kernel)
  have fired := (((again.turn (by decide +kernel)).turn (by decide +kernel)).waited
    (by decide +kernel)).turn (by decide +kernel)
  have withdrawn := (fired.aside (aside_set 1 0 _ (licensing false))).arrive .command
    (by decide +kernel)
  have dropped := (((withdrawn.turn (by decide +kernel)).turn (by decide +kernel)).waited
    (by decide +kernel)).turn (by decide +kernel)
  refine ⟨_, _, _, dropped, ?_, ?_, ?_, (fires_after_quiet (h := sending) dropped).2.2⟩
  · decide +kernel
  · decide +kernel
  · decide +kernel

end ModelWorkspace.Host
