import ModelWorkspace.Proofs.Host.Following
import ModelWorkspace.Proofs.Setting.Reacting

/-! A follower on a host on which anything else goes on as well. The follower does one thing after the
other, and in between settings are written and other tasks have their turns, in any order and as
often as they like. Whatever the follower reacts with, it reacts to the last change of its setting. -/
namespace ModelWorkspace.Host

open Setting (Mark Follower Feed)

/-- Something happens that the follower in this place has no part in. -/
structure Elsewhere (id token : Nat) (h k : Host) : Prop where
  task : k.tasks[id]? = h.tasks[id]?
  /-- The follower is not cancelled. -/
  live : h.isCancelled token = false → k.isCancelled token = false
  changes : h.bench.settings.feed.events <+: k.bench.settings.feed.events

/-- All that can be seen of the follower in this place from one time to another. -/
def seen (id : Nat) (h k : Host) : List Mark :=
  match h.tasks[id]?, k.tasks[id]? with
  | some (.follower _ _ f), some (.follower _ _ g) =>
    Follower.seen h.bench.settings.feed k.bench.settings.feed f g
  | _, _ => []

/-- The follower in this place is watched for a while. It does the next thing at any time, even if it
is not its turn, and at any time something may happen elsewhere. -/
inductive Watched (id token : Nat) (start : Host) : List Mark → Host → Prop
  | start : Watched id token start [] start
  | work {marks : List Mark} {h : Host} (run : Watched id token start marks h) :
      Watched id token start (marks ++ seen id h (h.work id)) (h.work id)
  | elsewhere {marks : List Mark} {h k : Host} (run : Watched id token start marks h)
      (rest : Elsewhere id token h k) : Watched id token start (marks ++ seen id h k) k

/-! ### What happens elsewhere -/

theorem Grows.isCancelled {h k : Host} (grows : h.Grows k) (token : Nat) :
    k.isCancelled token = h.isCancelled token := by
  rw [Host.isCancelled, grows.tokens, Host.isCancelled]

theorem Grows.changes {h k : Host} (grows : h.Grows k) :
    h.bench.settings.feed.events <+: k.bench.settings.feed.events := by
  obtain ⟨news, events, -⟩ := grows.settings
  exact ⟨news, events.symm⟩

theorem Grows.elsewhere {h k : Host} (grows : h.Grows k) {id : Nat} {t : Task}
    (task : h.tasks[id]? = some t) (free : id ∉ h.keepers) (token : Nat) :
    Elsewhere id token h k where
  task := (grows.tasks task free).trans task.symm
  live := (grows.isCancelled token).trans
  changes := grows.changes

/-- Settings are written. -/
theorem elsewhere_set (id token : Nat) (h : Host) (writes : List (Setting.Key × Json.Value)) :
    Elsewhere id token h (h.set writes) := by
  have written := onlyWritten_set h writes
  exact ⟨congrArg (·[id]?) written.tasks, (written.grows.isCancelled token).trans,
    written.grows.changes⟩

/-- Another task has its turn. -/
theorem elsewhere_work {id other : Nat} {h : Host} {t : Task} (different : other ≠ id)
    (task : h.tasks[id]? = some t) (free : id ∉ h.keepers) (token : Nat) :
    Elsewhere id token h (h.work other) := by
  obtain ⟨g, t', before, after⟩ := ownTurn_work h other
  have here : (g.setTask other t').tasks[id]? = some t := by
    rw [setTask, List.getElem?_set_ne different]
    exact before.tasks task free
  have keepers : id ∉ (g.setTask other t').keepers := before.keepers ▸ free
  refine ⟨(after.tasks here keepers).trans task.symm, fun live => ?_, ?_⟩
  · rw [after.isCancelled, ← live, ← before.isCancelled]
    rfl
  · exact before.changes.trans after.changes

theorem grows_advanceClock {h k : Host} (advanced : h.advanceClock = some k) : h.Grows k := by
  unfold advanceClock at advanced
  split at advanced
  · cases advanced
  · obtain rfl := Option.some.inj advanced
    refine Grows.of_unscheduled ?_ (unscheduled_wakeAll _ _)
    exact .of_same rfl rfl rfl rfl

theorem grows_nextTurn {h k : Host} (next : h.nextTurn = some k) : h.Grows k := by
  have begins (g : Host) : g.Grows g.beginTurn := .of_same rfl rfl rfl rfl
  unfold nextTurn at next
  split at next
  · obtain rfl := Option.some.inj next
    exact begins h
  · obtain ⟨g, advanced, rfl⟩ := Option.map_eq_some_iff.1 next
    exact (grows_advanceClock advanced).trans (begins g)

/-- Each step of the schedule is one of the follower's own or happens elsewhere. -/
theorem step_watched {id : Nat} {h k : Host} {t : Task} (step : h.step = some k)
    (task : h.tasks[id]? = some t) (free : id ∉ h.keepers) (token : Nat) :
    k = h.work id ∨ Elsewhere id token h k := by
  have waits (next : h.nextTurn = some k) : Elsewhere id token h k :=
    (grows_nextTurn next).elsewhere task free token
  cases running : h.running with
  | some other =>
    simp only [Host.step, running, Option.some.injEq] at step
    obtain rfl := step
    by_cases same : other = id
    · exact .inl (by rw [same])
    · exact .inr (elsewhere_work same task free token)
  | none =>
    cases ready : h.ready with
    | nil =>
      simp only [Host.step, running, ready] at step
      exact .inr (waits step)
    | cons next rest =>
      simp only [Host.step, running, ready] at step
      split at step
      · obtain rfl := Option.some.inj step
        have resumed : h.Grows (h.resume next rest) := .of_same rfl rfl rfl rfl
        exact .inr (resumed.elsewhere task free token)
      · exact .inr (waits step)

/-! ### The account of the follower -/

theorem seen_of_tasks {id : Nat} {h k : Host} {token token' : Nat}
    {requests requests' : Option Requests} {f g : Follower Stage}
    (before : h.tasks[id]? = some (.follower token requests f))
    (after : k.tasks[id]? = some (.follower token' requests' g)) :
    seen id h k = Follower.seen h.bench.settings.feed k.bench.settings.feed f g := by
  simp only [seen, before, after]

/-- One unit of work of a follower, as it looks from the feed. -/
theorem Reacts.turns {h k : Host} {id : Nat} {f g : Follower Stage} (reacts : Reacts h id f k g) :
    Follower.Turns h.bench.settings.feed f k.bench.settings.feed g := by
  cases reacts with
  | wait phase nothing => exact .meanwhile List.prefix_rfl
  | receive phase received => exact .receive phase received
  | consider phase => exact .consider phase
  | finish phase => exact .proceed phase [] List.prefix_rfl
  | @perform s rest phase => exact .proceed phase _ (grows_perform h id s).changes

theorem Reacts.grows {h k : Host} {id : Nat} {f g : Follower Stage} (reacts : Reacts h id f k g) :
    h.Grows k := by
  cases reacts with
  | @perform s rest phase => exact grows_perform h id s
  | _ => exact .refl h

/-- The follower in this place has this account. -/
structure Kept (id token : Nat) (requests : Option Requests) (key : Setting.Key) (base : Nat)
    (marks : List Mark) (h : Host) (f : Follower Stage) : Prop where
  task : h.tasks[id]? = some (.follower token requests f)
  live : h.isCancelled token = false
  account : f.Account key base marks h.bench.settings.feed

section Kept

variable {id token base : Nat} {requests : Option Requests} {key : Setting.Key} {marks : List Mark}
  {h : Host} {f : Follower Stage}

theorem Kept.work (kept : Kept id token requests key base marks h f) :
    ∃ k g, Reacts h id f k g ∧
      Kept id token requests key base (marks ++ seen id h (h.work id)) (h.work id) g := by
  obtain ⟨k, g, reacts, left⟩ := work_reacts kept.task (fun _ => kept.live) kept.account.going
  have place : (h.work id).tasks[id]? = some (.follower token requests g) := by
    obtain ⟨inside, -⟩ := List.getElem?_eq_some_iff.1 kept.task
    rw [left.tasks, List.getElem?_set_self (Nat.lt_of_lt_of_le inside reacts.grows.length)]
  refine ⟨k, g, reacts, place, ?_, ?_⟩
  · rw [isCancelled, left.tokens, ← isCancelled, reacts.grows.isCancelled]
    exact kept.live
  · rw [seen_of_tasks kept.task place, left.bench]
    exact kept.account.turns reacts.turns

theorem Kept.elsewhere {k : Host} (kept : Kept id token requests key base marks h f)
    (rest : Elsewhere id token h k) :
    Kept id token requests key base (marks ++ seen id h k) k f := by
  have place := rest.task.trans kept.task
  refine ⟨place, rest.live kept.live, ?_⟩
  rw [seen_of_tasks kept.task place]
  exact kept.account.turns (.meanwhile rest.changes)

theorem Kept.watched {start : Host} (kept : Kept id token requests key base [] start f)
    {marks : List Mark} {k : Host} (run : Watched id token start marks k) :
    ∃ g, Kept id token requests key base marks k g := by
  induction run with
  | start => exact ⟨f, kept⟩
  | work run ih =>
    obtain ⟨f, kept⟩ := ih
    obtain ⟨-, g, -, kept⟩ := kept.work
    exact ⟨g, kept⟩
  | elsewhere run rest ih =>
    obtain ⟨g, kept⟩ := ih
    exact ⟨g, kept.elsewhere rest⟩

end Kept

theorem kept_follow {h : Host} {token : Nat} (live : h.isCancelled token = false)
    (requests : Option Requests) (key : Setting.Key) (handler : List Stage) :
    Kept h.tasks.length token requests key h.bench.settings.feed.size []
      (h.follow token requests key handler)
      (Follower.attend h.bench.settings.feed key handler) := by
  have added := alike_of_unscheduled (unscheduled_addTask h
    (.follower token requests (Follower.attend h.bench.settings.feed key handler)))
  refine ⟨?_, ((grows_follow h token requests key handler).isCancelled token).trans live, ?_⟩
  · have tasks : (h.follow token requests key handler).tasks =
        h.tasks ++ [.follower token requests
          (Follower.attend h.bench.settings.feed key handler)] := added.tasks
    rw [tasks, List.getElem?_concat_length]
  · have bench : (h.follow token requests key handler).bench = h.bench := added.bench
    rw [bench]
    exact Follower.account_attend _ key handler

/-- Whether the follower in this place waits with nothing left to read. -/
def rests (h : Host) (id : Nat) : Bool :=
  match h.tasks[id]? with
  | some (.follower _ _ f) => f.waits h.bench.settings.feed
  | _ => false

/-- No change of its setting is lost on a follower that is not cancelled, however its handler goes,
whatever else goes on and however many changes come between two of its looks at the feed. Whenever it
waits with nothing left to read, and its setting was changed since it was started, it began to react
after the last change and has ended. Its reactions come one after the other, and each of them follows
on a change of its setting, or on the report that more changes were missed than are kept. -/
theorem no_change_is_lost {h : Host} {token : Nat} {requests : Option Requests} {key : Setting.Key}
    {handler : List Stage} (live : h.isCancelled token = false) {marks : List Mark} {k : Host}
    (run : Watched h.tasks.length token (h.follow token requests key handler) marks k) :
    Setting.changes marks = k.bench.settings.feed.since h.bench.settings.feed.size ∧
    (k.rests h.tasks.length = true →
      key ∈ k.bench.settings.feed.since h.bench.settings.feed.size →
      Setting.Answered key marks) ∧
    Setting.Orderly key marks := by
  obtain ⟨f, kept⟩ := (kept_follow live requests key handler).watched run
  have account := kept.account
  refine ⟨account.changes, fun rests changed => ?_, account.orderly⟩
  rw [Host.rests, kept.task] at rests
  rw [← account.changes, Setting.mem_changes] at changed
  exact account.answered rests changed

/-- A host with nothing but a place for bundled models. -/
def bare : Host where
  bench := { bundle := ⟨⟨"/b"⟩⟩ }

/-- A change of the model version, and after it more changes than are kept. -/
def chatter : List (Setting.Key × Json.Value) :=
  (.modelVersion, .string "3.0.0") ::
    (List.range 70).map fun n => (.telemetryConsent, .bool (n % 2 == 0))

/-- The host after the task has done so many things. -/
def workTimes (h : Host) (id : Nat) : Nat → Host
  | 0 => h
  | n + 1 => (h.workTimes id n).work id

theorem Watched.workTimes {id token : Nat} {start : Host} {marks : List Mark} {h : Host}
    (run : Watched id token start marks h) (n : Nat) :
    ∃ more, Watched id token start (marks ++ more) (h.workTimes id n) := by
  induction n with
  | zero =>
    refine ⟨[], ?_⟩
    rw [List.append_nil]
    exact run
  | succ n ih =>
    obtain ⟨more, run⟩ := ih
    refine ⟨more ++ seen id (h.workTimes id n) (h.workTimes id (n + 1)), ?_⟩
    rw [← List.append_assoc]
    exact run.work

/-- The follower of the model version is told that it missed changes, and while it reacts the model
version is changed again. It reads on until it finds that change, and reacts to it. -/
theorem no_change_is_lost_chatter :
    ∃ marks k,
      Watched 1 0 (bare.follow 0 none .modelVersion [.pause, .cascade .forwardModelDirectory]) marks k ∧
      .missed 7 ∈ marks ∧ Setting.Answered .modelVersion marks := by
  let start := bare.follow 0 none .modelVersion [.pause, .cascade .forwardModelDirectory]
  let behind := start.set chatter
  let again := (behind.work 1).set [(.modelVersion, .string "3.1.0")]
  have told : Watched 1 0 start _ (behind.work 1) :=
    (Watched.start.elsewhere (elsewhere_set 1 0 start chatter)).work
  obtain ⟨more, run⟩ := (told.elsewhere (elsewhere_set 1 0 _ _)).workTimes (h := again) 140
  have missed : .missed 7 ∈ seen 1 behind (behind.work 1) := by decide +kernel
  have rests : (again.workTimes 1 140).rests 1 = true := by decide +kernel
  have changed : .modelVersion ∈ (again.workTimes 1 140).bench.settings.feed.since 0 := by
    decide +kernel
  refine ⟨_, _, run, ?_, (no_change_is_lost (h := bare) rfl run).2.1 rests changed⟩
  exact List.mem_append_left _ (List.mem_append_left _ (List.mem_append_right _ missed))

end ModelWorkspace.Host
