import ModelWorkspace.Proofs.Host.Growing
import ModelWorkspace.Proofs.Setting.Following

/-! What one turn of a follower comes to, whatever the stages of its handler are. -/
namespace ModelWorkspace.Host

open Setting (Follower)

/-- One unit of work of a follower: the host that it leaves behind, and what becomes of it. -/
inductive Reacts (h : Host) (id : Nat) (f : Follower Stage) : Host → Follower Stage → Prop
  | wait (phase : f.phase = .listening) (nothing : f.receive? h.bench.settings.feed = none) :
      Reacts h id f h f
  | receive {g : Follower Stage} (phase : f.phase = .listening)
      (received : f.receive? h.bench.settings.feed = some g) : Reacts h id f h g
  | consider {key : Setting.Key} (phase : f.phase = .noticed key) : Reacts h id f h (f.consider key)
  | finish (phase : f.phase = .handling []) : Reacts h id f h (f.proceed [])
  | perform {s : Stage} {rest : List Stage} (phase : f.phase = .handling (s :: rest)) :
      Reacts h id f (h.perform id s).1 (f.proceed ((h.perform id s).2.stages ++ rest))

/-- What is left of a host after the turn of a follower: the follower is in its place, and its turn is
over or goes on. -/
structure Left (k : Host) (id token : Nat) (requests : Option Requests) (g : Follower Stage)
    (l : Host) : Prop where
  bench : l.bench = k.bench
  tasks : l.tasks = k.tasks.set id (.follower token requests g)
  tokens : l.tokens = k.tokens
  running : l.running = k.running ∨ l.running = none

/-- The turn of a follower that has not stopped, and is not cancelled while it listens, is one unit of
its work. -/
theorem work_reacts {h : Host} {id token : Nat} {requests : Option Requests} {f : Follower Stage}
    (task : h.tasks[id]? = some (.follower token requests f))
    (live : f.phase = .listening → h.isCancelled token = false) (going : f.phase ≠ .stopped) :
    ∃ k g, Reacts h id f k g ∧ Left k id token requests g (h.work id) := by
  have place : h.tasks = h.tasks.set id (.follower token requests f) := by
    obtain ⟨inside, here⟩ := List.getElem?_eq_some_iff.1 task
    rw [← here, List.set_getElem_self]
  have works : h.work id = h.workFollower id token requests f := by simp only [work, task]
  rw [works]
  unfold workFollower
  cases phase : f.phase with
  | listening =>
    simp only [listen, live phase, Bool.false_eq_true, if_false]
    cases received : f.receive? h.bench.settings.feed with
    | none => exact ⟨h, f, .wait phase received, rfl, place, rfl, .inr rfl⟩
    | some g =>
      simp only
      split
      · have lost := alike_of_unscheduled
          (unscheduled_giveWay (h.setTask id (.follower token requests g)) id)
        exact ⟨h, g, .receive phase received, lost.bench, lost.tasks, lost.tokens, .inr lost.running⟩
      · exact ⟨h, g, .receive phase received, rfl, rfl, rfl, .inl rfl⟩
  | noticed key => exact ⟨h, _, .consider phase, rfl, rfl, rfl, .inl rfl⟩
  | handling stages =>
    cases stages with
    | nil => exact ⟨h, _, .finish phase, rfl, rfl, rfl, .inl rfl⟩
    | cons s rest =>
      refine ⟨_, _, .perform phase, ?_⟩
      have passed := alike_of_unscheduled (unscheduled_pass
        ((h.perform id s).1.setTask id
          (.follower token requests (f.proceed ((h.perform id s).2.stages ++ rest))))
        id (h.perform id s).2)
      simp only
      refine ⟨passed.bench, passed.tasks, passed.tokens, ?_⟩
      rw [passed.running]
      split
      · exact .inl rfl
      · exact .inr rfl
  | stopped => exact absurd phase going

end ModelWorkspace.Host
