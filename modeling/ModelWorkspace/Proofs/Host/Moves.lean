import Mathlib.Data.List.Induction
import ModelWorkspace.Proofs.Host.Unscheduled

/-! Runs of a host whose tasks take their turns in any order. A task that has its turn keeps it until
it gives way or waits; in between, anyone may get the next turn, settings may be written from
elsewhere, and the partners may change their answers. The schedule of the host is one such order;
what holds after every list of moves holds whatever the order is. -/
namespace ModelWorkspace.Host

/-- What can happen next while no order of turns is laid down. -/
inductive Move
  /-- The task gets its turn. -/
  | resume (id : Nat)
  /-- The task whose turn it is does one thing. -/
  | work
  /-- Someone else writes a setting. -/
  | write (key : Setting.Key) (value : Json.Value)
  /-- The partners will answer and take their time in another way. -/
  | rescript (script : Script)
  /-- Someone else publishes. -/
  | publish (p : Publication)
  /-- The tasks that wait for a reconciler will get it in another order. -/
  | regroup (reconciler : Nat) (waiting : List Nat)

/-- Whether a task waits for a reconciler. It has no turn before it holds it. -/
def isWaiting (h : Host) (id : Nat) : Bool := h.reconcilers.any (·.waiting.contains id)

/-- The tasks that wait for a reconciler, in another order. -/
def regroup? (h : Host) (reconciler : Nat) (waiting : List Nat) : Option Host :=
  match h.reconcilers[reconciler]? with
  | some r =>
    if waiting.isPerm r.waiting then
      some { h with reconcilers := h.reconcilers.set reconciler { r with waiting } }
    else none
  | none => none

/-- The host after a move, if the move can be made: while a task has its turn it goes on with it, and
all else happens between turns. -/
def move? (h : Host) (m : Move) : Option Host :=
  match h.running, m with
  | some id, .work => some (h.work id)
  | none, .resume id => if h.isWaiting id then none else some { h with running := some id }
  | none, .write key value =>
    match h.bench.write key value with
    | .ok bench => some (h.withBench bench)
    | .error _ => none
  | none, .rescript script => some { h with script }
  | none, .publish p => some { h with published := h.published ++ [⟨h.clock, p⟩] }
  | none, .regroup reconciler waiting => h.regroup? reconciler waiting
  | _, _ => none

/-- The host after some moves, if all of them can be made. -/
def run? (h : Host) (moves : List Move) : Option Host := moves.foldlM move? h

@[simp] theorem run?_nil (h : Host) : h.run? [] = some h := rfl

theorem run?_append (h : Host) (before after : List Move) :
    h.run? (before ++ after) = (h.run? before).bind fun k => k.run? after := by
  simp [run?, List.foldlM_append]

theorem run?_snoc {h k l : Host} {moves : List Move} {m : Move} (run : h.run? moves = some k)
    (move : k.move? m = some l) : h.run? (moves ++ [m]) = some l := by
  rw [run?_append, run, Option.bind_some]
  simpa [run?] using move

theorem run?_concat {h k : Host} {moves : List Move} {m : Move}
    (run : h.run? (moves ++ [m]) = some k) :
    ∃ mid, h.run? moves = some mid ∧ mid.move? m = some k := by
  rw [run?_append, Option.bind_eq_some_iff] at run
  obtain ⟨mid, before, last⟩ := run
  refine ⟨mid, before, ?_⟩
  simpa [run?] using last

/-- What holds at the start and is kept by each move of a run holds at its end. -/
theorem run_induction {start : Host} {P : List Move → Host → Prop} (nil : P [] start)
    (concat : ∀ moves h m k, start.run? moves = some h → P moves h → h.move? m = some k →
      P (moves ++ [m]) k) :
    ∀ moves h, start.run? moves = some h → P moves h := by
  intro moves
  induction moves using List.reverseRecOn with
  | nil =>
    intro h run
    obtain rfl : start = h := by simpa using run
    exact nil
  | append_singleton moves m ih =>
    intro k run
    obtain ⟨h, before, last⟩ := run?_concat run
    exact concat moves h m k before (ih h before) last

/-- Turns of tasks, one after the other, each with so many things done in it. -/
def turns (order : List (Nat × Nat)) : List Move :=
  order.flatMap fun (id, works) => .resume id :: List.replicate works .work

theorem mem_turns {order : List (Nat × Nat)} {m : Move} (mem : m ∈ turns order) :
    m = .work ∨ ∃ turn ∈ order, m = .resume turn.1 := by
  obtain ⟨⟨id, works⟩, here, mem⟩ := List.mem_flatMap.1 mem
  obtain rfl | mem := List.mem_cons.1 mem
  · exact .inr ⟨_, here, rfl⟩
  · exact .inl (List.eq_of_mem_replicate mem)

/-- The property holds of the workbench at all times of a run. -/
def Throughout (start : Host) (moves : List Move) (Q : Workbench → Prop) : Prop :=
  ∀ before after h, moves = before ++ after → start.run? before = some h → Q h.bench

theorem Throughout.init {start : Host} {moves : List Move} {m : Move} {Q : Workbench → Prop}
    (always : start.Throughout (moves ++ [m]) Q) : start.Throughout moves Q := by
  intro before after h split run
  refine always before (after ++ [m]) h ?_ run
  rw [split, List.append_assoc]

theorem Throughout.last {start h : Host} {moves : List Move} {Q : Workbench → Prop}
    (always : start.Throughout moves Q) (run : start.run? moves = some h) : Q h.bench :=
  always moves [] h (List.append_nil moves).symm run

theorem move?_work {h k : Host} (move : h.move? .work = some k) :
    ∃ id, h.running = some id ∧ k = h.work id := by
  cases running : h.running with
  | none => simp [move?, running] at move
  | some id =>
    simp only [move?, running, Option.some.injEq] at move
    exact ⟨id, rfl, move.symm⟩

/-- A task gets its turn while no other one has it and it does not wait for a reconciler. -/
theorem move?_resume {h k : Host} {id : Nat} (move : h.move? (.resume id) = some k) :
    h.running = none ∧ h.isWaiting id = false ∧ k = { h with running := some id } := by
  cases running : h.running with
  | some other => simp [move?, running] at move
  | none =>
    simp only [move?, running] at move
    split at move
    · cases move
    · rename_i waiting
      exact ⟨rfl, by simpa using waiting, (Option.some.inj move).symm⟩

theorem move?_write {h k : Host} {key : Setting.Key} {value : Json.Value}
    (move : h.move? (.write key value) = some k) :
    h.running = none ∧ ∃ bench, h.bench.write key value = .ok bench ∧ k = h.withBench bench := by
  cases running : h.running with
  | some other => simp [move?, running] at move
  | none =>
    simp only [move?, running] at move
    split at move
    · rename_i bench written
      exact ⟨rfl, bench, written, (Option.some.inj move).symm⟩
    · cases move

theorem move?_rescript {h k : Host} {script : Script} (move : h.move? (.rescript script) = some k) :
    h.running = none ∧ k = { h with script } := by
  cases running : h.running with
  | some other => simp [move?, running] at move
  | none =>
    simp only [move?, running] at move
    exact ⟨rfl, (Option.some.inj move).symm⟩

theorem move?_publish {h k : Host} {p : Publication} (move : h.move? (.publish p) = some k) :
    h.running = none ∧ k = { h with published := h.published ++ [⟨h.clock, p⟩] } := by
  cases running : h.running with
  | some other => simp [move?, running] at move
  | none =>
    simp only [move?, running] at move
    exact ⟨rfl, (Option.some.inj move).symm⟩

/-- Those who wait for a reconciler are told to wait in another order between turns. -/
theorem move?_regroup {h k : Host} {reconciler : Nat} {waiting : List Nat}
    (move : h.move? (.regroup reconciler waiting) = some k) :
    h.running = none ∧ h.regroup? reconciler waiting = some k := by
  cases running : h.running with
  | some other => simp [move?, running] at move
  | none =>
    simp only [move?, running] at move
    exact ⟨rfl, move⟩

end ModelWorkspace.Host
