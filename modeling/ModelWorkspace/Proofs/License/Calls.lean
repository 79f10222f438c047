import ModelWorkspace.Proofs.Host.Reactions
import ModelWorkspace.Proofs.License.Turns

/-! Everything that goes on on a host from some time on, as long as no session ends, and the calls for
publications in it. A call for the license document is always made in the turn in which the setting
was read, so it fits the setting at the time of the call; and no pass calls for that document. -/
namespace ModelWorkspace.Host

/-- What a run is known by. -/
inductive Happening
  | changed (key : Setting.Key)
  /-- A publication was called for, in a pass or not. -/
  | called (inPass : Bool) (p : Publication)
  /-- A task sent a trigger, and it arrived. -/
  | sent (task : Nat) (requests : Requests) (t : Trigger)
  deriving DecidableEq

/-- Whether triggers arrive where they are sent. -/
def reaches (h : Host) : Requests → Bool
  | .observed => true
  | .inbox id => h.isKept id

/-- A task is in a pass as long as the end of one is ahead. -/
def isInPass (rest : List Stage) : Bool :=
  rest.any fun
    | .finishPass .. => true
    | _ => false

/-- What the task does next. -/
def doneBy (h : Host) (id : Nat) : List Happening :=
  match h.stagesOf id with
  | .publish p :: rest => [.called (isInPass rest) p]
  | .send requests t :: _ => if h.reaches requests then [.sent id requests t] else []
  | _ => []

/-- The changes of settings from one time to another. -/
def changes (h k : Host) : List Happening :=
  (k.bench.settings.feed.since h.bench.settings.feed.size).map .changed

/-- Something happens while no task has its turn, or while the main task has it and nothing to do:
settings are written, triggers are sent, time passes, files or folders change, or a task gets its
turn. -/
structure Outside (h k : Host) : Prop where
  free : h.running = none ∨ h.isIdle = true
  settings : h.bench.settings.Grows k.bench.settings
  tasks : k.tasks = h.tasks
  tokens : k.tokens = h.tokens
  keepers : k.keepers = h.keepers
  reconcilers : k.reconcilers = h.reconcilers
  activating : k.activating = h.activating

/-- What the main task may be asked to do besides: anything but to start or end a session, to send or to
publish. -/
def Stage.isOrdinary : Stage → Bool
  | .pause | .sleep _ | .cascade _ | .opening _ | .startup _ | .lint _ | .reconcile .. => true
  | .readSnapshot _ | .finishSnapshot _ | .built _ | .deployed .. | .join _ | .settle _ => true
  | _ => false

/-- All that goes on from a start on, with what is done. -/
inductive Ongoing (start : Host) : List Happening → Host → Prop
  | start : Ongoing start [] start
  | work {trace : List Happening} {h : Host} {id : Nat} (run : Ongoing start trace h)
      (turn : h.running = some id) :
      Ongoing start (trace ++ (h.doneBy id ++ h.changes (h.work id))) (h.work id)
  | outside {trace : List Happening} {h k : Host} (run : Ongoing start trace h) (rest : Outside h k) :
      Ongoing start (trace ++ h.changes k) k
  | ask {trace : List Happening} {h : Host} {stages : List Stage} (run : Ongoing start trace h)
      (idle : h.isIdle = true) (ordinary : ∀ s ∈ stages, s.isOrdinary = true) :
      Ongoing start trace (h.setTask main (.routine stages))

/-- The stages of all tasks are calm, only files have failed, and the main task alone starts sessions.
The one whose turn it is may be about to call for the license document. -/
structure Sound (h : Host) : Prop where
  files : OnlyFiles h.reconcilers
  handler : ∀ {id : Nat} {t : Task}, h.tasks[id]? = some t → Calm t.handler
  stages : ∀ {id : Nat} {t : Task}, h.tasks[id]? = some t → Calm t.stages ∨
    h.running = some id ∧ Announcing h.bench.settings.acceptedLicense t.stages
  plain : ∀ {id : Nat} {t : Task}, id ≠ main → h.tasks[id]? = some t →
    ∀ s, s ∈ t.stages ∨ s ∈ t.handler → s.isOfSession = false

theorem isFile_license (accepted : Bool) : (License.publication accepted).uri.isFile = false := by
  cases accepted <;> decide

section Sound

variable {h k : Host} {id : Nat}

/-- While a task has its turn the others are calm. -/
theorem Sound.calm_of_ne (sound : Sound h) (turn : h.running = some id) {other : Nat} {t : Task}
    (different : other ≠ id) (task : h.tasks[other]? = some t) : Calm t.stages := by
  obtain calm | ⟨own, -⟩ := sound.stages task
  · exact calm
  · exact absurd (Option.some.inj (own.symm.trans turn)) different

theorem Sound.of_calm (files : OnlyFiles h.reconcilers)
    (calm : ∀ {id : Nat} {t : Task}, h.tasks[id]? = some t → Calm t.handler ∧ Calm t.stages ∧
      (id ≠ main → ∀ s, s ∈ t.stages ∨ s ∈ t.handler → s.isOfSession = false)) : Sound h :=
  ⟨files, fun task => (calm task).1, fun task => .inl (calm task).2.1,
    fun other task => (calm task).2.2 other⟩

/-- What was there before and has no part in the turn is as it was. -/
theorem Sound.old (sound : Sound h) (turn : h.running = some id) {other : Nat} {t : Task}
    (different : other ≠ id) (task : h.tasks[other]? = some t) : Calm t.handler ∧ Calm t.stages ∧
      (other ≠ main → ∀ s, s ∈ t.stages ∨ s ∈ t.handler → s.isOfSession = false) :=
  ⟨sound.handler task, sound.calm_of_ne turn different task, fun apart => sound.plain apart task⟩

theorem Sound.idles {t : Task} (sound : Sound h) (turn : h.running = some id)
    (task : h.tasks[id]? = some t) (idles : Idles h id t k) : Sound k := by
  obtain ⟨u, added, tasks, stages, handler, new⟩ := idles.tasks
  refine .of_calm (idles.reconcilers ▸ sound.files) fun {other v} here => ?_
  rw [tasks] at here
  obtain ⟨rfl, rfl⟩ | ⟨different, old⟩ | ⟨-, mem⟩ := place_cases here
  · have own := sound.handler task
    have part {stages : List Stage} (same : stages = [] ∨ stages = t.handler) :
        Calm stages ∧ ∀ s ∈ stages, s ∈ t.handler := by
      obtain rfl | rfl := same
      · exact ⟨.nil, List.forall_mem_nil _⟩
      · exact ⟨own, fun _ mem => mem⟩
    refine ⟨(part handler).1, (part stages).1, fun apart s mem => ?_⟩
    exact sound.plain apart task s (.inr (mem.elim ((part stages).2 s) ((part handler).2 s)))
  · exact sound.old turn different old
  · obtain ⟨reconciler, rfl⟩ := new v mem
    refine ⟨.nil, ⟨fun s mem => ?_, fun s mem licensing => ?_⟩, fun _ s mem => ?_⟩
    · obtain rfl := List.mem_singleton.1 mem
      trivial
    · obtain rfl := List.mem_singleton.1 mem
      cases licensing
    · obtain rfl := List.mem_singleton.1 (mem.resolve_right List.not_mem_nil)
      rfl

/-- A turn that leaves only files and new tasks behind, and goes on with calm stages. -/
theorem Sound.does {t u : Task} {l : Host} (sound : Sound h) (turn : h.running = some id)
    (task : h.tasks[id]? = some t) (left : OnlyFiles l.reconcilers ∧
      ∃ added, l.tasks = h.tasks ++ added ∧ ∀ t ∈ added, IsNew t)
    (next : Calm u.stages) (handler : u.handler = t.handler)
    (plain : id ≠ main → ∀ s ∈ u.stages, s.isOfSession = false)
    (tasks : k.tasks = l.tasks.set id u) (reconcilers : k.reconcilers = l.reconcilers) :
    Sound k := by
  obtain ⟨files, added, grown, new⟩ := left
  refine .of_calm (reconcilers ▸ files) fun {other v} here => ?_
  rw [tasks, grown] at here
  obtain ⟨rfl, rfl⟩ | ⟨different, old⟩ | ⟨-, mem⟩ := place_cases here
  · refine ⟨handler ▸ sound.handler task, next, fun apart s mem => ?_⟩
    obtain own | reacts := mem
    · exact plain apart s own
    · exact sound.plain apart task s (.inr (handler ▸ reacts))
  · exact sound.old turn different old
  · obtain ⟨none, calm, outside⟩ := new v mem
    refine ⟨calm, none ▸ .nil, fun _ s mem => ?_⟩
    rw [none] at mem
    exact outside s (mem.resolve_left List.not_mem_nil)

/-- A turn that goes on with a call for the license document. -/
theorem Sound.announces {t u : Task} (sound : Sound h) (turn : h.running = some id)
    (task : h.tasks[id]? = some t) (handler : u.handler = t.handler)
    (next : Announcing k.bench.settings.acceptedLicense u.stages)
    (plain : id ≠ main → ∀ s ∈ u.stages, s.isOfSession = false) (running : k.running = some id)
    (tasks : k.tasks = h.tasks.set id u) (reconcilers : k.reconcilers = h.reconcilers) :
    Sound k := by
  have places {other : Nat} {v : Task} (here : k.tasks[other]? = some v) :
      other = id ∧ v = u ∨ other ≠ id ∧ h.tasks[other]? = some v := by
    rw [tasks, ← List.append_nil h.tasks] at here
    exact (place_cases here).imp_right fun old => old.resolve_right fun new => nomatch new.2
  refine ⟨reconcilers ▸ sound.files, fun here => ?_, fun here => ?_, fun apart here s mem => ?_⟩
  · obtain ⟨-, rfl⟩ | ⟨-, old⟩ := places here
    · exact handler ▸ sound.handler task
    · exact sound.handler old
  · obtain ⟨rfl, rfl⟩ | ⟨different, old⟩ := places here
    · exact .inr ⟨running, next⟩
    · exact .inl (sound.calm_of_ne turn different old)
  · obtain ⟨rfl, rfl⟩ | ⟨different, old⟩ := places here
    · obtain own | reacts := mem
      · exact plain apart s own
      · exact sound.plain apart task s (.inr (handler ▸ reacts))
    · exact sound.plain apart old s mem

/-! ### The next stage of a task -/

/-- What a task does next is calm, or a call. -/
theorem Sound.first {t : Task} {s : Stage} {rest : List Stage} (sound : Sound h)
    (task : h.tasks[id]? = some t) (stages : t.stages = s :: rest) :
    s.IsCalm ∨ ∃ p, s = .publish p := by
  obtain calm | ⟨-, later, same, -⟩ := sound.stages task
  · rw [stages] at calm
    exact .inl (calm.each s List.mem_cons_self)
  · rw [stages] at same
    exact .inr ⟨_, (List.cons.inj same).1⟩

/-- Whatever a task does next leads to stages of its own kinds. -/
theorem Sound.leads {t : Task} {s : Stage} {rest : List Stage} (sound : Sound h)
    (task : h.tasks[id]? = some t) (stages : t.stages = s :: rest)
    (silent : ∀ requests, s ≠ .announceLicense requests) :
    LeadsTo s (h.perform id s).2.stages := by
  obtain calm | ⟨p, rfl⟩ := sound.first task stages
  · exact leadsTo_perform sound.files calm silent id
  · exact leadsTo_publish h id p

/-- It adds only new tasks, and only files have failed after it. -/
theorem Sound.grown {t : Task} {s : Stage} {rest : List Stage} (sound : Sound h)
    (task : h.tasks[id]? = some t) (stages : t.stages = s :: rest) :
    OnlyFiles (h.perform id s).1.reconcilers ∧
      ∃ added, (h.perform id s).1.tasks = h.tasks ++ added ∧ ∀ t ∈ added, IsNew t := by
  obtain calm | ⟨p, rfl⟩ := sound.first task stages
  · exact tasks_perform sound.files calm id
  · exact ⟨sound.files, [], (List.append_nil _).symm, List.forall_mem_nil _⟩

/-- The task goes on with calm stages, unless it announces the license. -/
theorem Sound.goesOn {t : Task} {s : Stage} {rest : List Stage} (sound : Sound h)
    (task : h.tasks[id]? = some t) (stages : t.stages = s :: rest)
    (silent : ∀ requests, s ≠ .announceLicense requests) :
    Calm ((h.perform id s).2.stages ++ rest) := by
  have leads := sound.leads task stages silent
  obtain calm | ⟨-, later, same, calm, outside⟩ := sound.stages task
  · rw [stages] at calm
    exact calm.perform leads
  · -- The task calls for the license document, and what comes after that is of no pass.
    rw [stages] at same
    obtain ⟨rfl, rfl⟩ := List.cons.inj same
    refine .of_outside (fun t mem => ?_) fun t mem => ?_
    · exact (List.mem_append.1 mem).elim (leads.calm t) (calm.each t)
    · obtain new | old := List.mem_append.1 mem
      · exact Bool.eq_false_iff.2 fun passes => nomatch leads.passing t new passes
      · exact outside t old

theorem Sound.calm_of_announce {t : Task} {requests : Requests} {rest : List Stage}
    (sound : Sound h) (task : h.tasks[id]? = some t)
    (stages : t.stages = .announceLicense requests :: rest) :
    Calm (.announceLicense requests :: rest) := by
  obtain calm | ⟨-, later, same, -⟩ := sound.stages task
  · rw [stages] at calm
    exact calm
  · rw [stages] at same
    cases same

/-- What comes after a stage of another task than the main task is not about a session. -/
theorem Sound.plain_next {t : Task} {s : Stage} {rest next : List Stage} (sound : Sound h)
    (task : h.tasks[id]? = some t) (stages : t.stages = s :: rest) (apart : id ≠ main)
    (leads : ∀ u ∈ next, u.isOfSession = true → s.isOfSession = true) :
    ∀ u ∈ next ++ rest, u.isOfSession = false := by
  have before := sound.plain apart task
  rw [stages] at before
  intro u mem
  obtain new | old := List.mem_append.1 mem
  · refine Bool.eq_false_iff.2 fun own => ?_
    exact Bool.eq_false_iff.1 (before s (.inl List.mem_cons_self)) (leads u new own)
  · exact before u (.inl (List.mem_cons_of_mem _ old))

theorem Sound.work (sound : Sound h) (turn : h.running = some id) : Sound (h.work id) := by
  cases task : h.tasks[id]? with
  | none =>
    have waits : h.work id = h.suspend := by simp only [Host.work, task]
    rw [waits]
    refine .of_calm sound.files fun {other t} here => sound.old turn ?_ here
    rintro rfl
    cases task.symm.trans here
  | some t =>
    cases stages : t.stages with
    | nil => exact sound.idles turn task (work_idles task stages)
    | cons s rest =>
      obtain ⟨u, next, handler, left⟩ := work_does task stages
      have tasks := congrArg Host.tasks left
      have reconcilers := congrArg Host.reconcilers left
      by_cases announces : ∃ requests, s = .announceLicense requests
      · obtain ⟨requests, rfl⟩ := announces
        have bench := congrArg Host.bench left
        replace bench : (h.work id).bench = h.bench := bench
        have running := congrArg Host.running left
        have announcing := (sound.calm_of_announce task stages).announce h id
        rw [← next, ← bench] at announcing
        refine sound.announces turn task handler announcing (fun apart => ?_)
          (running.trans turn) tasks reconcilers
        rw [next]
        refine sound.plain_next task stages apart fun t mem own => ?_
        obtain rfl | rfl := mem_announce mem <;> cases own
      · have silent (requests : Requests) : s ≠ .announceLicense requests :=
          fun same => announces ⟨requests, same⟩
        refine sound.does turn task (sound.grown task stages) ?_ handler (fun apart => ?_) tasks
          reconcilers
        · rw [next]
          exact sound.goesOn task stages silent
        · rw [next]
          exact sound.plain_next task stages apart (sound.leads task stages silent).ofSession

theorem idle_main (idle : h.isIdle = true) :
    h.running = some main ∧ h.tasks[main]? = some (.routine []) := by
  simp only [isIdle, Bool.and_eq_true, beq_iff_eq] at idle
  refine ⟨idle.1, ?_⟩
  have stages := idle.2
  split at stages
  · assumption
  · cases stages

theorem Sound.outside (sound : Sound h) (rest : Outside h k) : Sound k := by
  refine .of_calm (rest.reconcilers ▸ sound.files) fun {id t} here => ?_
  rw [rest.tasks] at here
  refine ⟨sound.handler here, ?_, fun apart => sound.plain apart here⟩
  obtain calm | ⟨turn, later, stages, -⟩ := sound.stages here
  · exact calm
  · obtain free | idle := rest.free
    · cases free.symm.trans turn
    · obtain ⟨own, nothing⟩ := idle_main idle
      obtain rfl : main = id := Option.some.inj (own.symm.trans turn)
      obtain rfl := Option.some.inj (nothing.symm.trans here)
      cases stages

theorem calm_of_ordinary {stages : List Stage} (ordinary : ∀ s ∈ stages, s.isOrdinary = true) :
    Calm stages := by
  refine ⟨fun s mem => ?_, fun s mem licensing => ?_⟩ <;>
  · have own := ordinary s mem
    cases s <;> trivial

theorem Sound.ask {stages : List Stage} (sound : Sound h) (idle : h.isIdle = true)
    (ordinary : ∀ s ∈ stages, s.isOrdinary = true) :
    Sound (h.setTask main (.routine stages)) := by
  refine .of_calm sound.files fun {id t} here => ?_
  rw [setTask, ← List.append_nil h.tasks] at here
  obtain ⟨own, rfl⟩ | ⟨different, old⟩ | ⟨-, mem⟩ := place_cases here
  · exact ⟨.nil, calm_of_ordinary ordinary, fun apart => absurd own apart⟩
  · exact sound.old (idle_main idle).1 different old
  · cases mem

/-! ### What a turn leaves of a sound host -/

theorem Sound.tasks_work (sound : Sound h) (id : Nat) :
    ∃ u added, (h.work id).tasks = (h.tasks ++ added).set id u := by
  cases task : h.tasks[id]? with
  | none =>
    have waits : h.work id = h.suspend := by simp only [Host.work, task]
    refine ⟨.ended, [], ?_⟩
    rw [waits, List.append_nil, List.set_eq_of_length_le (List.getElem?_eq_none_iff.1 task)]
    rfl
  | some t =>
    cases stages : t.stages with
    | nil =>
      obtain ⟨u, added, tasks, -⟩ := (work_idles task stages).tasks
      exact ⟨u, added, tasks⟩
    | cons s rest =>
      obtain ⟨u, -, -, left⟩ := work_does task stages
      obtain ⟨-, added, grown, -⟩ := sound.grown task stages
      have tasks := congrArg Host.tasks left
      refine ⟨u, added, ?_⟩
      rw [← grown]
      exact tasks

/-- The other tasks stay in their places. -/
theorem Sound.place {other : Nat} {t : Task} (sound : Sound h) (different : other ≠ id)
    (task : h.tasks[other]? = some t) : (h.work id).tasks[other]? = some t := by
  obtain ⟨u, added, tasks⟩ := sound.tasks_work id
  obtain ⟨inside, -⟩ := List.getElem?_eq_some_iff.1 task
  rw [tasks, List.getElem?_set_ne different.symm, List.getElem?_append_left inside, task]

/-- Only where the followers of a session come, and where it is there, there is another session that
starts. -/
theorem Sound.activating_work (sound : Sound h)
    (following : (h.stagesOf id).head? ≠ some .followSettings)
    (finishing : ∀ restarting, (h.stagesOf id).head? ≠ some (.finishActivation restarting)) :
    (h.work id).activating = h.activating := by
  cases task : h.tasks[id]? with
  | none =>
    have waits : h.work id = h.suspend := by simp only [Host.work, task]
    rw [waits]
    rfl
  | some t =>
    cases stages : t.stages with
    | nil => exact (work_idles task stages).activating
    | cons s rest =>
      have first : (h.stagesOf id).head? = some s := by simp [stagesOf, task, stages]
      rw [first] at following finishing
      obtain ⟨u, -, -, left⟩ := work_does task stages
      have same : (h.perform id s).1.activating = h.activating := by
        obtain calm | ⟨p, rfl⟩ := sound.first task stages
        · exact (sameTasks_perform sound.files calm (fun same => following (same ▸ rfl))
            (fun restarting same => finishing restarting (same ▸ rfl)) id).activating
        · rfl
      have activating := congrArg Host.activating left
      exact Eq.trans activating same

/-- A call is for a file, or made outside of passes for the license document, with what the setting says
at that time. -/
theorem Sound.called (sound : Sound h) {inPass : Bool} {p : Publication}
    (called : .called inPass p ∈ h.doneBy id) : p.uri.isFile = true ∨
      inPass = false ∧ p = License.publication h.bench.settings.acceptedLicense := by
  unfold doneBy stagesOf at called
  cases task : h.tasks[id]? with
  | none => simp [task] at called
  | some t =>
    rw [task, Option.map_some, Option.getD_some] at called
    split at called
    · rename_i q rest stages
      obtain ⟨rfl, rfl⟩ : inPass = isInPass rest ∧ p = q := by simpa using called
      obtain calm | ⟨-, later, same, -, outside⟩ := sound.stages task
      · rw [stages] at calm
        exact .inl (calm.each _ List.mem_cons_self)
      · rw [stages] at same
        obtain ⟨first, rfl⟩ := List.cons.inj same
        refine .inr ⟨?_, Stage.publish.inj first⟩
        rw [isInPass, List.any_eq_false]
        intro s mem
        have outside := outside s mem
        cases s <;> simp_all [Stage.isPassing]
    · split at called
      · cases List.mem_singleton.1 called
      · cases called
    · cases called

end Sound

theorem mem_changes_iff {h k : Host} {happening : Happening} :
    happening ∈ h.changes k ↔
      ∃ key ∈ k.bench.settings.feed.since h.bench.settings.feed.size, happening = .changed key := by
  rw [changes, List.mem_map]
  exact exists_congr fun key => and_congr_right fun _ => eq_comm

theorem Ongoing.sound {start : Host} (sound : Sound start) {trace : List Happening} {h : Host}
    (run : Ongoing start trace h) : Sound h := by
  induction run with
  | start => exact sound
  | work run turn ih => exact ih.work turn
  | outside run rest ih => exact ih.outside rest
  | ask run idle ordinary ih => exact ih.ask idle ordinary

/-- No pass ever calls for the license document. -/
theorem Ongoing.called_inPass {start : Host} (sound : Sound start) {trace : List Happening} {h : Host}
    (run : Ongoing start trace h) {p : Publication} (called : .called true p ∈ trace) :
    p.uri ≠ License.uri := by
  induction run with
  | start => cases called
  | work run turn ih =>
    obtain before | now := List.mem_append.1 called
    · exact ih before
    · obtain done | changed := List.mem_append.1 now
      · obtain file | ⟨outside, -⟩ := (run.sound sound).called done
        · rintro same
          rw [same] at file
          cases file.symm.trans (isFile_license true)
        · cases outside
      · obtain ⟨key, -, same⟩ := mem_changes_iff.1 changed
        cases same
  | outside run rest ih =>
    obtain before | changed := List.mem_append.1 called
    · exact ih before
    · obtain ⟨key, -, same⟩ := mem_changes_iff.1 changed
      cases same
  | ask run idle ordinary ih => exact ih called

/-! ### The schedule -/

theorem sound_new (bench : Workbench) (script : Script) : Sound { bench, script } := by
  refine .of_calm ?_ fun {id t} here => ?_
  · intro r mem
    obtain rfl := List.mem_singleton.1 mem
    exact List.forall_mem_nil _
  · obtain rfl := List.mem_singleton.1 (List.mem_of_getElem? here)
    exact ⟨.nil, .nil, fun _ s mem => absurd mem (by simp [Task.stages, Task.handler])⟩

/-- Settings are written. -/
theorem outside_set {h : Host} (free : h.running = none ∨ h.isIdle = true)
    (writes : List (Setting.Key × Json.Value)) : Outside h (h.set writes) := by
  have written := onlyWritten_set h writes
  exact ⟨free, written.grows.settings, written.tasks, written.grows.tokens, written.grows.keepers,
    written.reconcilers, written.activating⟩

/-- The next turn begins, and time may pass before. -/
theorem outside_nextTurn {h k : Host} (free : h.running = none) (next : h.nextTurn = some k) :
    Outside h k := by
  have grows := grows_nextTurn next
  have woken (g : Host) (ids : List Nat) : (g.wakeAll ids).tasks = g.tasks ∧
      (g.wakeAll ids).reconcilers = g.reconcilers ∧ (g.wakeAll ids).activating = g.activating := by
    have unscheduled := unscheduled_wakeAll g ids
    have alike := alike_of_unscheduled unscheduled
    have activating := congrArg Host.activating unscheduled
    exact ⟨alike.tasks, alike.reconcilers, activating⟩
  have same : k.tasks = h.tasks ∧ k.reconcilers = h.reconcilers ∧ k.activating = h.activating := by
    unfold nextTurn at next
    split at next
    · obtain rfl := Option.some.inj next
      exact ⟨rfl, rfl, rfl⟩
    · obtain ⟨g, advanced, rfl⟩ := Option.map_eq_some_iff.1 next
      unfold advanceClock at advanced
      split at advanced
      · cases advanced
      · obtain rfl := Option.some.inj advanced
        exact woken _ _
  exact ⟨.inl free, grows.settings, same.1, grows.tokens, grows.keepers, same.2.1, same.2.2⟩

/-- Whatever the schedule does is part of what goes on. -/
theorem Ongoing.step {start h k : Host} {trace : List Happening} (run : Ongoing start trace h)
    (step : h.step = some k) : ∃ more, Ongoing start (trace ++ more) k := by
  cases running : h.running with
  | some id =>
    simp only [Host.step, running, Option.some.injEq] at step
    exact ⟨_, step ▸ run.work running⟩
  | none =>
    refine ⟨h.changes k, run.outside ?_⟩
    cases ready : h.ready with
    | nil =>
      simp only [Host.step, running, ready] at step
      exact outside_nextTurn running step
    | cons next rest =>
      simp only [Host.step, running, ready] at step
      split at step
      · obtain rfl := Option.some.inj step
        exact ⟨.inl running, h.bench.settings.grows_self, rfl, rfl, rfl, rfl, rfl⟩
      · exact outside_nextTurn running step

theorem Ongoing.runWithin {start h : Host} {trace : List Happening} (run : Ongoing start trace h)
    (n : Nat) : ∃ more, Ongoing start (trace ++ more) (h.runWithin n) := by
  induction n generalizing h trace with
  | zero => exact ⟨[], (List.append_nil trace).symm ▸ run⟩
  | succ n ih =>
    unfold Host.runWithin
    split
    · exact ⟨[], (List.append_nil trace).symm ▸ run⟩
    · cases step : h.step with
      | none => exact ⟨[], (List.append_nil trace).symm ▸ run⟩
      | some k =>
        obtain ⟨first, run⟩ := run.step step
        obtain ⟨later, run⟩ := ih run
        exact ⟨first ++ later, List.append_assoc .. ▸ run⟩

end ModelWorkspace.Host
