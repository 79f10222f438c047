import ModelWorkspace.Host.Scenario
import ModelWorkspace.Proofs.Compiler.Refusals
import ModelWorkspace.Proofs.Host.Reactions

/-! Commands on a host on which anything else goes on as well. A command is begun at once, and either
has stopped by then or has called its partner; what is left of it is to wait for the answer and to
show it. What it does itself is told apart from what the others do in between. -/
namespace ModelWorkspace.Host

open Command (MayBuild MayDeploy told)

/-- The host before and after something that the main task does. -/
abbrev Piece := Host × Host

/-- A step of the main task is under way. The main task does the next thing at any time, and at any time
something may happen elsewhere that leaves its stages alone. The pieces are the main task's own. -/
inductive Underway (start : Host) (s : Step) : List Piece → Host → Prop
  | begin : Underway start s [(start, (start.begin s).1)]
      ((start.begin s).1.setTask main (.routine (start.begin s).2))
  | work {own : List Piece} {h : Host} {next : Stage} {rest : List Stage}
      (run : Underway start s own h) (task : h.tasks[main]? = some (.routine (next :: rest))) :
      Underway start s (own ++ [(h, h.work main)]) (h.work main)
  | elsewhere {own : List Piece} {h k : Host} (run : Underway start s own h)
      (rest : k.tasks[main]? = h.tasks[main]?) : Underway start s own k

/-- The main task has nothing left to do. -/
def IsOver (h : Host) : Prop := h.tasks[main]? = some (.routine [])

/-! ### What the main task does itself -/

def noticesOf (own : List Piece) : NoticeLog :=
  own.flatMap fun p => p.2.bench.notices.drop p.1.bench.notices.length

def callsOf (own : List Piece) : List Call :=
  (own.flatMap fun p => p.2.calls.drop p.1.calls.length).map (·.value)

/-- The answer of the last piece. -/
def answerOf (own : List Piece) : Option Outcome := own.getLast?.map (·.2.outcome)

/-- Nothing but notices and calls is new. -/
structure OnlyTells (h k : Host) : Prop where
  bench : k.bench = { h.bench with notices := k.bench.notices }
  notices : h.bench.notices <+: k.bench.notices
  calls : h.calls <+: k.calls

/-- Either the partner is called once, and what it answers is the answer; or nothing is called, and the
answer is an error, which is shown once and last. The one happens exactly if there is a message for
the call, and the other exactly if there is none. -/
def IsAllOrNothing (own : List Piece) (may : Message → Prop) (call : Message → Call)
    (answer : Outcome) : Prop :=
  (∃ m, may m ∧ callsOf own = [call m] ∧ answerOf own = some answer) ∨
    ∃ e, (∀ m, ¬ may m) ∧ callsOf own = [] ∧ answerOf own = some (.commandError e) ∧
      ∃ before, noticesOf own = before ++ [⟨e.level, e.message⟩] ∧ ∀ n ∈ before, n.text ≠ e.message

/-! ### The stages of a command -/

/-- How a command begins: with a call, whose answer is waited for, or with a refusal and no more to
do. -/
inductive Starts (h : Host) (may : Message → Prop) (call : Message → Call) (ms : Nat) (last : Stage) :
    Host × List Stage → Prop
  | called {m : Message} (notices : NoticeLog) (possible : may m) :
      Starts h may call ms last
        ({ h with bench := told h.bench notices, calls := h.calls ++ [⟨h.clock, call m⟩] },
          [.sleep ms, last])
  | refused {e : CommandError} {before : NoticeLog} (impossible : ∀ m, ¬ may m)
      (foreign : Command.IsForeign before) :
      Starts h may call ms last
        ({ h with
            bench := told h.bench (before ++ [⟨e.level, e.message⟩])
            outcome := .commandError e }, [])

/-- The last stage of a command shows a notice and gives the answer. -/
def Concludes (last : Stage) (answer : Outcome) : Prop :=
  ∃ text, ∀ h : Host, h.perform main last =
    ({ h with bench := h.bench.inform text, outcome := answer }, .next [])

/-- Notices are no changes of settings, so nobody is woken. -/
theorem withBench_told (h : Host) (notices : NoticeLog) :
    h.withBench (told h.bench notices) = { h with bench := told h.bench notices } := by
  unfold withBench
  exact if_neg (Nat.lt_irrefl _)

theorem starts_build (h : Host) :
    Starts h (MayBuild h.bench) .build h.script.buildDelay (.built h.script.build)
      (h.begin .build) := by
  unfold begin beginBuild
  obtain ⟨m, may, before, -, granted⟩ | ⟨e, impossible, before, foreign, refused⟩ :=
    Command.prepareBuild_cases h.bench
  · rw [granted]
    simp only [Command.inform_told, withBench_told]
    exact .called _ may
  · rw [refused]
    simp only [withBench_told]
    exact .refused impossible foreign

theorem starts_deploy (h : Host) :
    ∃ target, Starts h (MayDeploy h.bench) (fun m => .deploy (Command.deployment h.bench m))
      h.script.deployDelay (.deployed h.script.deploy target) (h.begin .deploy) := by
  unfold begin beginDeploy
  obtain ⟨m, may, before, -, granted⟩ | ⟨e, impossible, before, foreign, refused⟩ :=
    Command.prepareDeploy_cases h.bench
  · rw [granted]
    simp only [Command.inform_told, withBench_told]
    exact ⟨_, .called _ may⟩
  · rw [refused]
    simp only [withBench_told]
    exact ⟨⟨""⟩, .refused impossible foreign⟩

theorem concludes_built (success : Bool) : Concludes (.built success) (.flag success) := by
  refine ⟨Command.builtNotice success, fun h => ?_⟩
  have shown := withBench_told h [⟨.info, Command.builtNotice success⟩]
  exact congrArg (fun k : Host => (({ k with outcome := .flag success } : Host), Flow.next [])) shown

theorem concludes_deployed (result : DeployResult) (target : Path) :
    Concludes (.deployed result target) (.deployed result) := by
  refine ⟨Command.deployedNotice result.success target, fun h => ?_⟩
  have shown := withBench_told h [⟨.info, Command.deployedNotice result.success target⟩]
  exact congrArg (fun k : Host => (({ k with outcome := .deployed result } : Host), Flow.next [])) shown

/-! ### One piece of work -/

section Work

variable {h : Host} {rest : List Stage}

theorem work_main {s : Stage} (task : h.tasks[main]? = some (.routine (s :: rest))) :
    (h.work main).bench = (h.perform main s).1.bench ∧
      (h.work main).calls = (h.perform main s).1.calls ∧
      (h.work main).outcome = (h.perform main s).1.outcome ∧
      (h.work main).tasks = (h.perform main s).1.tasks.set main
        (.routine ((h.perform main s).2.stages ++ rest)) := by
  have works : h.work main =
      ((h.perform main s).1.setTask main (.routine ((h.perform main s).2.stages ++ rest))).pass main
        (h.perform main s).2 := by
    simp only [work, task, workRoutine]
  have passed := unscheduled_pass
    ((h.perform main s).1.setTask main (.routine ((h.perform main s).2.stages ++ rest))) main
    (h.perform main s).2
  rw [works]
  have bench := congrArg Host.bench passed
  have calls := congrArg Host.calls passed
  have outcome := congrArg Host.outcome passed
  have tasks := congrArg Host.tasks passed
  exact ⟨bench, calls, outcome, tasks⟩

theorem work_sleep {ms : Nat} (task : h.tasks[main]? = some (.routine (.sleep ms :: rest))) :
    (h.work main).bench = h.bench ∧ (h.work main).calls = h.calls ∧
      (h.work main).tasks[main]? = some (.routine rest) := by
  obtain ⟨bench, calls, -, tasks⟩ := work_main task
  obtain ⟨inside, -⟩ := List.getElem?_eq_some_iff.1 task
  have waits : (h.perform main (.sleep ms)).2.stages = [] ∧
      (h.perform main (.sleep ms)).1.bench = h.bench ∧
      (h.perform main (.sleep ms)).1.calls = h.calls ∧
      (h.perform main (.sleep ms)).1.tasks = h.tasks := by
    simp only [perform, sleep]
    split <;> exact ⟨rfl, rfl, rfl, rfl⟩
  obtain ⟨none, sameBench, sameCalls, sameTasks⟩ := waits
  refine ⟨bench.trans sameBench, calls.trans sameCalls, ?_⟩
  rw [tasks, none, sameTasks, List.nil_append]
  exact List.getElem?_set_self inside

theorem work_last {last : Stage} {answer : Outcome} (concludes : Concludes last answer)
    (task : h.tasks[main]? = some (.routine [last])) :
    (∃ text, (h.work main).bench = h.bench.inform text) ∧ (h.work main).calls = h.calls ∧
      (h.work main).outcome = answer ∧ (h.work main).IsOver := by
  obtain ⟨text, performs⟩ := concludes
  obtain ⟨bench, calls, outcome, tasks⟩ := work_main task
  obtain ⟨inside, -⟩ := List.getElem?_eq_some_iff.1 task
  rw [performs] at bench calls outcome tasks
  refine ⟨⟨text, bench⟩, calls, outcome, ?_⟩
  rw [IsOver, tasks]
  exact List.getElem?_set_self inside

end Work

/-! ### A command from its beginning to its end -/

/-- How far a command is, and which stages are left of it. -/
inductive Progress (first : Piece) (ms : Nat) (last : Stage) (answer : Outcome) :
    List Piece → List Stage → Prop
  | called : Progress first ms last answer [first] [.sleep ms, last]
  | waited {h k : Host} (bench : k.bench = h.bench) (calls : k.calls = h.calls) :
      Progress first ms last answer [first, (h, k)] [last]
  | answered {h k g l : Host} (bench : k.bench = h.bench) (calls : k.calls = h.calls)
      (shown : ∃ text, l.bench = g.bench.inform text) (callsAgain : l.calls = g.calls)
      (outcome : l.outcome = answer) : Progress first ms last answer [first, (h, k), (g, l)] []

section Run

variable {start h : Host} {s : Step} {may : Message → Prop} {call : Message → Call} {ms : Nat}
  {last : Stage} {answer : Outcome} {own : List Piece}

theorem Starts.tasks {result : Host × List Stage} (starts : Starts start may call ms last result) :
    result.1.tasks = start.tasks := by
  cases starts <;> rfl

theorem Starts.stages {result : Host × List Stage} (starts : Starts start may call ms last result) :
    result.2 = [] ∨ result.2 = [.sleep ms, last] := by
  cases starts with
  | called => exact .inr rfl
  | refused => exact .inl rfl

theorem Underway.began (ready : start.IsOver) (starts : Starts start may call ms last (start.begin s)) :
    ((start.begin s).1.setTask main (.routine (start.begin s).2)).tasks[main]? =
      some (.routine (start.begin s).2) := by
  obtain ⟨inside, -⟩ := List.getElem?_eq_some_iff.1 ready
  rw [setTask, starts.tasks]
  exact List.getElem?_set_self inside

/-- A command that has stopped at its beginning does nothing more. -/
theorem Underway.stopped (ready : start.IsOver)
    (starts : Starts start may call ms last (start.begin s)) (none : (start.begin s).2 = [])
    (run : Underway start s own h) : own = [(start, (start.begin s).1)] ∧ h.IsOver := by
  induction run with
  | begin => exact ⟨rfl, none ▸ Underway.began ready starts⟩
  | work _ task ih => cases ih.2.symm.trans task
  | elsewhere _ rest ih => exact ⟨ih.1, rest.trans ih.2⟩

/-- A command that has called its partner goes on to its answer, whatever happens elsewhere. -/
theorem Underway.progress (ready : start.IsOver)
    (starts : Starts start may call ms last (start.begin s)) (concludes : Concludes last answer)
    (waits : (start.begin s).2 = [.sleep ms, last]) (run : Underway start s own h) :
    ∃ stages, h.tasks[main]? = some (.routine stages) ∧
      Progress (start, (start.begin s).1) ms last answer own stages := by
  induction run with
  | begin =>
    refine ⟨[.sleep ms, last], waits ▸ Underway.began ready starts, .called⟩
  | @work own h _ _ _ task ih =>
    obtain ⟨stages, here, progress⟩ := ih
    cases progress with
    | called =>
      obtain ⟨bench, calls, left⟩ := work_sleep here
      exact ⟨[last], left, .waited bench calls⟩
    | waited bench calls =>
      obtain ⟨shown, same, outcome, ended⟩ := work_last concludes here
      exact ⟨[], ended, .answered bench calls shown same outcome⟩
    | answered => cases here.symm.trans task
  | elsewhere _ rest ih =>
    obtain ⟨stages, here, progress⟩ := ih
    exact ⟨stages, rest.trans here, progress⟩

theorem OnlyTells.of_told {k : Host} {notices : NoticeLog} (bench : k.bench = told h.bench notices)
    (calls : h.calls <+: k.calls) : OnlyTells h k := by
  refine ⟨?_, ?_, calls⟩
  · rw [bench]
    rfl
  · rw [bench]
    exact List.prefix_append ..

theorem OnlyTells.silent {k : Host} (bench : k.bench = h.bench) (calls : k.calls = h.calls) :
    OnlyTells h k :=
  ⟨by rw [bench], bench ▸ List.prefix_rfl, calls ▸ List.prefix_rfl⟩

theorem OnlyTells.informed {k : Host} (shown : ∃ text, k.bench = h.bench.inform text)
    (calls : k.calls = h.calls) : OnlyTells h k := by
  obtain ⟨text, bench⟩ := shown
  have bench : k.bench = told h.bench [⟨.info, text⟩] := bench
  exact .of_told bench (calls ▸ List.prefix_rfl)

theorem Starts.onlyTells {result : Host × List Stage}
    (starts : Starts start may call ms last result) : OnlyTells start result.1 := by
  cases starts with
  | called => exact .of_told rfl (List.prefix_append ..)
  | refused => exact .of_told rfl List.prefix_rfl

/-- All that a command changes are notices and calls. -/
theorem Underway.onlyTells (ready : start.IsOver)
    (starts : Starts start may call ms last (start.begin s)) (concludes : Concludes last answer)
    (run : Underway start s own h) : ∀ p ∈ own, OnlyTells p.1 p.2 := by
  have first := starts.onlyTells
  obtain stopped | waits := starts.stages
  · obtain ⟨rfl, -⟩ := Underway.stopped ready starts stopped run
    simpa using first
  · obtain ⟨left, -, progress⟩ := Underway.progress ready starts concludes waits run
    cases progress with
    | called => simpa using first
    | waited bench calls => simpa using ⟨first, OnlyTells.silent bench calls⟩
    | answered bench calls shown same outcome =>
      simpa using ⟨first, OnlyTells.silent bench calls, OnlyTells.informed shown same⟩

theorem Underway.isAllOrNothing (ready : start.IsOver)
    (starts : Starts start may call ms last (start.begin s)) (concludes : Concludes last answer)
    (run : Underway start s own h) (ended : h.IsOver) : IsAllOrNothing own may call answer := by
  have begun := starts
  generalize result : start.begin s = r at begun
  cases begun with
  | @refused e before impossible foreign =>
    obtain ⟨rfl, -⟩ := Underway.stopped ready starts (by rw [result]) run
    refine .inr ⟨e, impossible, by simp [callsOf, result], by simp [answerOf, result], before,
      by simp [noticesOf, result, told], fun n mem same => ?_⟩
    rw [foreign n mem] at same
    exact e.message_ne_foreignFolders same.symm
  | @called m notices possible =>
    obtain ⟨stages, left, progress⟩ :=
      Underway.progress ready starts concludes (by rw [result]) run
    cases progress with
    | called => cases left.symm.trans ended
    | waited => cases left.symm.trans ended
    | answered bench calls shown same outcome =>
      exact .inl ⟨m, possible, by simp [callsOf, result, calls, same], by simp [answerOf, outcome]⟩

/-- A command comes to its end once its partner has answered. -/
theorem Underway.exists_over (ready : start.IsOver)
    (starts : Starts start may call ms last (start.begin s)) (concludes : Concludes last answer) :
    ∃ own h, Underway start s own h ∧ h.IsOver := by
  have began := Underway.began ready starts
  obtain stopped | waits := starts.stages
  · exact ⟨_, _, .begin, stopped ▸ began⟩
  · have waiting := began.trans (congrArg (some ∘ Task.routine) waits)
    obtain ⟨-, -, left⟩ := work_sleep waiting
    obtain ⟨-, -, -, ended⟩ := work_last concludes left
    exact ⟨_, _, (Underway.begin.work waiting).work left, ended⟩

end Run

/-- A step that is under way goes on with each step of the schedule. -/
theorem Underway.step {start h k : Host} {s : Step} {own : List Piece} {stages : List Stage}
    (run : Underway start s own h) (task : h.tasks[main]? = some (.routine stages))
    (free : main ∉ h.keepers) (step : h.step = some k) :
    ∃ later, Underway start s (own ++ later) k := by
  obtain rfl | rest := step_watched step task free 0
  · cases stages with
    | nil =>
      have idle : (h.work main).tasks = h.tasks := by
        simp only [Host.work, task, workRoutine]
        rfl
      refine ⟨[], ?_⟩
      rw [List.append_nil]
      exact run.elsewhere (congrArg (·[main]?) idle)
    | cons next rest => exact ⟨_, run.work task⟩
  · refine ⟨[], ?_⟩
    rw [List.append_nil]
    exact run.elsewhere rest.task

theorem IsAllOrNothing.reaches_iff {own : List Piece} {may : Message → Prop}
    {call : Message → Call} {answer : Outcome} (whole : IsAllOrNothing own may call answer) :
    callsOf own ≠ [] ↔ ∃ m, may m := by
  obtain ⟨m, possible, calls, -⟩ | ⟨e, impossible, calls, -⟩ := whole
  · exact iff_of_true (by simp [calls]) ⟨m, possible⟩
  · exact iff_of_false (not_not_intro calls) fun ⟨m, possible⟩ => impossible m possible

/-- A build and a deployment can come to their end, whatever the host is like, and change nothing but
notices and calls, whatever else goes on. A build calls the compiler exactly if the license is accepted
and there is a message, and a deployment the deployer exactly if moreover there is a directory with
both folders and something to deploy. They call once and give the answer of the partner, or call
nothing and give an error, which the user is told once, at its level and last. What is deployed goes
to the directory that was checked, with the core exactly under extended access. -/
theorem commands_are_all_or_nothing {h : Host} (ready : h.IsOver) :
    (∀ command, command = .build ∨ command = .deploy →
      (∃ own k, Underway h command own k ∧ k.IsOver) ∧
      ∀ own k, Underway h command own k → ∀ p ∈ own, OnlyTells p.1 p.2) ∧
    (∀ own k, Underway h .build own k → k.IsOver →
      (callsOf own ≠ [] ↔ ∃ m, MayBuild h.bench m) ∧
      IsAllOrNothing own (MayBuild h.bench) .build (.flag h.script.build)) ∧
    ∀ own k, Underway h .deploy own k → k.IsOver →
      (callsOf own ≠ [] ↔ ∃ m, MayDeploy h.bench m) ∧
      IsAllOrNothing own (MayDeploy h.bench) (fun m => .deploy (Command.deployment h.bench m))
        (.deployed h.script.deploy) ∧
      ∀ d, .deploy d ∈ callsOf own →
        d.message.deployDirectory = ⟨h.bench.settings.deploymentDirectory⟩ ∧
        d.deployCore = h.bench.settings.extendedAccess := by
  have builds := starts_build h
  have built := concludes_built h.script.build
  obtain ⟨target, deploys⟩ := starts_deploy h
  have deployed := concludes_deployed h.script.deploy target
  refine ⟨?_, fun own k run ended => ?_, fun own k run ended => ?_⟩
  · rintro command (rfl | rfl)
    · exact ⟨Underway.exists_over ready builds built,
        fun own k run => run.onlyTells ready builds built⟩
    · exact ⟨Underway.exists_over ready deploys deployed,
        fun own k run => run.onlyTells ready deploys deployed⟩
  · have whole := run.isAllOrNothing ready builds built ended
    exact ⟨whole.reaches_iff, whole⟩
  · have whole := run.isAllOrNothing ready deploys deployed ended
    refine ⟨whole.reaches_iff, whole, fun d called => ?_⟩
    obtain ⟨m, may, calls, -⟩ | ⟨e, -, none, -⟩ := whole
    · rw [calls, List.mem_singleton] at called
      cases called
      have made := may.message
      rw [Message.snd_create] at made
      exact ⟨Message.deployDirectory_of_ofWorkbench made, rfl⟩
    · rw [none] at called
      cases called

/-- A host with one core model, a folder that is no project, and a complete deployment directory. -/
def coreOnly (extended : Bool) : Host where
  bench := { Message.oneCore "6.1.0" "4.0.0" with
    files := {
      entries := (Message.oneCore "6.1.0" "4.0.0").files.entries ++
        [(["d"], FileTree.newFolder), (["d", Command.deploymentFolders.1], FileTree.newFolder),
          (["d", Command.deploymentFolders.2], FileTree.newFolder)] }
    settings := { values := [(.platformVersion, .string "6.1.0"), (.acceptedLicense, .bool true),
      (.deploymentDirectory, .string "/d"), (.extendedAccess, .bool extended)] }
    folders := ⟨some [⟨"p", ⟨"/p"⟩, true⟩, ⟨"d", ⟨"/d"⟩, true⟩]⟩ }

/-- Under extended access the core is deployed; without it, the same workspace has nothing to deploy. -/
theorem commands_are_all_or_nothing_core :
    (∃ own k d, Underway (coreOnly true) .deploy own k ∧ k.IsOver ∧ callsOf own = [.deploy d] ∧
      d.deployCore = true ∧ d.message.deployDirectory = ⟨"/d"⟩) ∧
    ∃ own k e before, Underway (coreOnly false) .deploy own k ∧ k.IsOver ∧ callsOf own = [] ∧
      noticesOf own = before ++ [⟨CommandError.level e, e.message⟩] := by
  have single (extended : Bool) :
      ∃ m, (Message.create (coreOnly extended).bench).2 = .ok m ∧ m.projects.length = 1 := by
    have found : (Message.create (coreOnly extended).bench).2.toOption.map (·.projects.length) =
        some 1 := by
      cases extended <;> decide
    cases result : (Message.create (coreOnly extended).bench).2 with
    | ok m =>
      rw [result] at found
      exact ⟨m, rfl, Option.some.inj found⟩
    | error e =>
      rw [result] at found
      cases found
  constructor
  · obtain ⟨runs, -, deploys⟩ := commands_are_all_or_nothing (h := coreOnly true) rfl
    obtain ⟨⟨own, k, run, ended⟩, -⟩ := runs .deploy (.inr rfl)
    obtain ⟨reaches, whole, checked⟩ := deploys own k run ended
    obtain ⟨m, message, -⟩ := single true
    have may : MayDeploy (coreOnly true).bench m :=
      ⟨⟨by decide, message⟩, by decide, by decide, .inl (by decide)⟩
    obtain ⟨m', -, calls, -⟩ | ⟨-, -, none, -⟩ := whole
    · have called : .deploy (Command.deployment (coreOnly true).bench m') ∈ callsOf own := by
        rw [calls]
        exact List.mem_singleton_self _
      obtain ⟨directory, core⟩ := checked _ called
      exact ⟨own, k, _, run, ended, calls, core.trans (by decide),
        directory.trans (by decide)⟩
    · exact absurd none (reaches.2 ⟨m, may⟩)
  · obtain ⟨runs, -, deploys⟩ := commands_are_all_or_nothing (h := coreOnly false) rfl
    obtain ⟨⟨own, k, run, ended⟩, -⟩ := runs .deploy (.inr rfl)
    obtain ⟨-, ⟨m, may, -⟩ | ⟨e, -, calls, -, before, shown, -⟩, -⟩ := deploys own k run ended
    · obtain ⟨m', message, one⟩ := single false
      obtain rfl := Except.ok.inj (message.symm.trans may.message)
      have several := may.worth.resolve_left (by decide)
      omega
    · exact ⟨own, k, e, before, run, ended, calls, shown⟩

end ModelWorkspace.Host
