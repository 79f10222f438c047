import ModelWorkspace.Proofs.Host.Moves
import ModelWorkspace.Proofs.Pass.Stages
import ModelWorkspace.Proofs.Startup.Passages

/-! Passages and turns. While no other task has a turn, the main task of a host goes through start-up by
the one passage that there is, and comes to its answer. -/
namespace ModelWorkspace

open Startup (Alone)

theorem Startup.passage_unique {w u v : Workbench} {stages : List Startup.Stage}
    {log later : List (Workbench × Startup.Stage)} {restarting answer : Bool}
    (passage : Alone w stages log u restarting) (other : Alone w stages later v answer) :
    later = log ∧ v = u ∧ answer = restarting := by
  induction passage generalizing later with
  | done => exact Startup.passage_done_iff.1 other
  | pause meanwhile _ ih =>
    obtain ⟨_, rfl, rest⟩ := Startup.passage_pause_iff.1 other
    exact ih (meanwhile ▸ rest)
  | stage works _ ih =>
    obtain ⟨_, rfl, rest⟩ := (Startup.passage_stage_iff works).1 other
    obtain ⟨rfl, same⟩ := ih rest
    exact ⟨rfl, same⟩

namespace Host

/-- What a task does in start-up it does on the workbench. -/
theorem perform_startup (h : Host) (id : Nat) {s : Startup.Stage} (works : s.isWork = true) :
    h.perform id (.startup s) = h.onBench (s.perform h.bench) .startup := by
  cases s with
  | cascade s =>
    cases s with
    | pause => cases works
    | _ => rfl
  | done restarting => cases works
  | _ => rfl

/-- The main task has these stages of start-up to go through, it has its turn, and nothing keeps it from
having the next one. -/
structure StartsUp (stages : List Startup.Stage) (h : Host) : Prop where
  task : h.tasks[main]? = some (.routine (stages.map .startup))
  turn : h.running = some main
  free : h.isWaiting main = false

theorem StartsUp.stage {h : Host} {s : Startup.Stage} {rest : List Startup.Stage}
    (startsUp : StartsUp (s :: rest) h) (works : s.isWork = true) :
    (h.work main).bench = (s.perform h.bench).1 ∧
      StartsUp ((s.perform h.bench).2 ++ rest) (h.work main) := by
  have worked := work_routine startsUp.task
  rw [perform_startup h main works] at worked
  have kept := alike_of_unscheduled (unscheduled_withBench h (s.perform h.bench).1)
  obtain ⟨inside, -⟩ := List.getElem?_eq_some_iff.1 startsUp.task
  refine ⟨worked.bench.trans kept.bench, ?_, ?_, ?_⟩
  · have tasks : (h.work main).tasks = h.tasks.set main
        (.routine (((s.perform h.bench).2 ++ rest).map .startup)) := by
      rw [worked.tasks, List.map_append]
      exact congrArg (fun tasks : List Task => tasks.set main _) kept.tasks
    rw [tasks]
    exact List.getElem?_set_self inside
  · exact worked.running.trans (kept.running.trans startsUp.turn)
  · rw [isWaiting, worked.reconcilers]
    exact (congrArg (List.any · _) kept.reconcilers).trans startsUp.free

/-- A pause of the main task and its next turn. -/
theorem StartsUp.pause {h : Host} {rest : List Startup.Stage}
    (startsUp : StartsUp (.cascade .pause :: rest) h) :
    ∃ k, h.run? [.work, .resume main] = some k ∧ k.bench = h.bench ∧ StartsUp rest k := by
  have worked := work_routine startsUp.task
  obtain ⟨inside, -⟩ := List.getElem?_eq_some_iff.1 startsUp.task
  have free : (h.work main).isWaiting main = false := by
    rw [isWaiting, worked.reconcilers]
    exact startsUp.free
  have gone : (h.work main).running = none := worked.running
  refine ⟨{ h.work main with running := some main }, ?_, worked.bench, ?_, rfl, free⟩
  · simp [run?, move?, startsUp.turn, gone, free]
  · rw [worked.tasks]
    exact List.getElem?_set_self inside

/-- A passage with nobody else about is a run of the host in which only the main task has turns, with
the same end and the same answer. -/
theorem run_of_passage {w u : Workbench} {stages : List Startup.Stage}
    {log : List (Workbench × Startup.Stage)} {restarting : Bool}
    (passage : Alone w stages log u restarting) :
    ∀ h : Host, h.bench = w → StartsUp stages h →
      ∃ moves k, (∀ m ∈ moves, m = .work ∨ m = .resume main) ∧ h.run? moves = some k ∧
        k.bench = u ∧ k.outcome = .restarting restarting := by
  induction passage with
  | @done w restarting rest =>
    intro h bench startsUp
    have works : h.work main =
        { h.setTask main (.routine (rest.map .startup)) with outcome := .restarting restarting } := by
      simp only [work, startsUp.task, List.map_cons, workRoutine, perform, startUp, answer, pass,
        Flow.stages, List.nil_append]
      rfl
    refine ⟨[.work], h.work main, by simp, ?_, ?_, ?_⟩
    · simp [run?, move?, startsUp.turn]
    · exact works ▸ bench
    · rw [works]
  | pause meanwhile _ ih =>
    intro h bench startsUp
    obtain ⟨k, run, same, next⟩ := startsUp.pause
    obtain ⟨moves, l, own, rest, result⟩ := ih k (same.trans (bench.trans meanwhile)) next
    refine ⟨[.work, .resume main] ++ moves, l, ?_, ?_, result⟩
    · intro m mem
      obtain first | later := List.mem_append.1 mem
      · simpa using first
      · exact own m later
    · rw [run?_append, run, Option.bind_some, rest]
  | stage works _ ih =>
    intro h bench startsUp
    subst bench
    obtain ⟨same, next⟩ := startsUp.stage works
    obtain ⟨moves, l, own, rest, result⟩ := ih _ same next
    refine ⟨.work :: moves, l, List.forall_mem_cons.2 ⟨.inl rfl, own⟩, ?_, result⟩
    rw [← List.singleton_append, run?_append]
    have first : h.run? [.work] = some (h.work main) := by simp [run?, move?, startsUp.turn]
    rw [first, Option.bind_some, rest]

end Host

end ModelWorkspace
