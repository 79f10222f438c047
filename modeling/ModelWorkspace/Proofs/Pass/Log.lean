import ModelWorkspace.Host.Basic

/-! The log of the passes on a reconciler: which have called the compiler, which are over and in which
order, which one holds the reconciler and what it has shown so far, and which ones wait. -/
namespace ModelWorkspace.Host

/-- A pass at the reconciler: its task, and the failures that the compiler has answered. -/
abbrev Arrival := Nat × List Failure

/-- The passes that have called the compiler or come to a reconciler. -/
structure Log where
  /-- The passes that have called the compiler, with what it will answer. -/
  called : List Arrival := []
  /-- The passes that are over, the first one first. -/
  done : List Arrival := []
  holder : Option Arrival := none
  /-- The passes that wait, the next one first. -/
  queue : List Arrival := []
  /-- What the pass that holds the reconciler has published so far. -/
  shown : List Publication := []

namespace Log

/-- All passes that have come, in the order in which they hold the reconciler. -/
def arrivals (l : Log) : List Arrival := l.done ++ l.holder.toList ++ l.queue

def tasks (l : Log) : List Nat := l.arrivals.map (·.1)

/-- The failures of the last pass that is over. -/
def latest (before : List Failure) (l : Log) : List Failure := (l.done.map (·.2)).getLastD before

/-- Nobody waits for a reconciler that nobody holds. -/
def IsIdle (l : Log) : Prop := l.queue = [] ∧ l.shown = []

def call (l : Log) (a : Arrival) : Log := { l with called := l.called ++ [a] }

def arrive (l : Log) (a : Arrival) : Log :=
  match l.holder with
  | none => { l with holder := some a }
  | some _ => { l with queue := l.queue ++ [a] }

def publish (l : Log) (p : Publication) : Log := { l with shown := l.shown ++ [p] }

/-- The pass that holds the reconciler is over, and the next one holds it. -/
def finish (l : Log) : Log where
  called := l.called
  done := l.done ++ l.holder.toList
  holder := l.queue.head?
  queue := l.queue.tail
  shown := []

@[simp] theorem called_arrive (l : Log) (a : Arrival) : (l.arrive a).called = l.called := by
  unfold arrive
  split <;> rfl

@[simp] theorem arrivals_call (l : Log) (a : Arrival) : (l.call a).arrivals = l.arrivals := rfl

@[simp] theorem called_finish (l : Log) : l.finish.called = l.called := rfl

theorem arrive_of_free {l : Log} (free : l.holder = none) (a : Arrival) :
    l.arrive a = { l with holder := some a } := by
  simp only [arrive, free]

theorem arrive_of_held {l : Log} {b : Arrival} (held : l.holder = some b) (a : Arrival) :
    l.arrive a = { l with queue := l.queue ++ [a] } := by
  simp only [arrive, held]

theorem arrivals_arrive {l : Log} (idle : l.holder = none → l.IsIdle) (a : Arrival) :
    (l.arrive a).arrivals = l.arrivals ++ [a] := by
  cases holder : l.holder with
  | none =>
    rw [arrive_of_free holder]
    simp [arrivals, holder, (idle holder).1]
  | some b =>
    rw [arrive_of_held holder]
    simp [arrivals, List.append_assoc]

theorem nodup_arrive {l : Log} (idle : l.holder = none → l.IsIdle) {a : Arrival}
    (different : l.tasks.Nodup) (fresh : a.1 ∉ l.tasks) : (l.arrive a).tasks.Nodup := by
  rw [tasks, arrivals_arrive idle, List.map_append, List.map_singleton]
  refine List.nodup_append.2 ⟨different, List.pairwise_singleton _ _, ?_⟩
  rintro id mem _ last rfl
  obtain rfl := List.mem_singleton.1 last
  exact fresh mem

@[simp] theorem arrivals_finish (l : Log) : l.finish.arrivals = l.arrivals := by
  cases queue : l.queue <;> simp [arrivals, finish, queue]

/-- The failures of the pass that holds the reconciler are the latest once it is over. -/
theorem latest_finish {l : Log} {a : Arrival} (holds : l.holder = some a) (before : List Failure) :
    l.finish.latest before = a.2 := by
  simp [latest, finish, holds]

theorem holder_apart {l : Log} (different : l.tasks.Nodup) {a : Arrival} (holds : l.holder = some a) :
    a.1 ∉ l.done.map (·.1) ∧ a.1 ∉ l.queue.map (·.1) := by
  rw [tasks, arrivals, holds, List.map_append, List.map_append] at different
  obtain ⟨before, -, later⟩ := List.nodup_append.1 different
  obtain ⟨-, -, earlier⟩ := List.nodup_append.1 before
  exact ⟨fun mem => earlier _ mem a.1 (List.mem_singleton_self _) rfl,
    fun mem => later a.1 (List.mem_append_right _ (List.mem_singleton_self _)) _ mem rfl⟩

theorem queue_apart {l : Log} (different : l.tasks.Nodup) {id : Nat}
    (waits : id ∈ l.queue.map (·.1)) : id ∉ l.done.map (·.1) := by
  rw [tasks, arrivals, List.map_append, List.map_append] at different
  obtain ⟨-, -, later⟩ := List.nodup_append.1 different
  exact fun mem => later id (List.mem_append_left _ mem) id waits rfl

/-! ### The place of one pass -/

/-- To one of the passes the later log says the same, but that it may hold the reconciler now that it
has waited for. -/
structure Keeps (l m : Log) (id : Nat) : Prop where
  called : ∀ failures, (id, failures) ∈ m.called ↔ (id, failures) ∈ l.called
  tasks : id ∈ m.tasks ↔ id ∈ l.tasks
  done : ∀ failures, (id, failures) ∈ l.done → (id, failures) ∈ m.done
  holder : ∀ failures, l.holder = some (id, failures) →
    m.holder = some (id, failures) ∧ m.shown = l.shown ∧ m.done = l.done
  queue : ∀ failures, (id, failures) ∈ l.queue →
    (id, failures) ∈ m.queue ∨ (m.holder = some (id, failures) ∧ m.shown = [])

theorem keeps_call (l : Log) {a : Arrival} {id : Nat} (other : id ≠ a.1) :
    l.Keeps (l.call a) id where
  called := fun failures => by
    rw [call, List.mem_append, List.mem_singleton, or_iff_left]
    rintro rfl
    exact other rfl
  tasks := Iff.rfl
  done := fun _ mem => mem
  holder := fun _ holds => ⟨holds, rfl, rfl⟩
  queue := fun _ mem => .inl mem

theorem keeps_arrive {l : Log} (idle : l.holder = none → l.IsIdle) {a : Arrival} {id : Nat}
    (other : id ≠ a.1) : l.Keeps (l.arrive a) id where
  called := fun _ => by rw [called_arrive]
  tasks := by simp [Log.tasks, arrivals_arrive idle, other]
  done := by cases holder : l.holder <;> simp [arrive, holder]
  holder := by cases holder : l.holder <;> simp [arrive, holder]
  queue := fun failures waits => by
    cases holder : l.holder with
    | none =>
      rw [(idle holder).1] at waits
      cases waits
    | some b => exact .inl (by simpa [arrive, holder] using .inl waits)

/-- What the pass that holds the reconciler publishes makes no difference to the others. -/
theorem keeps_publish {l : Log} {a : Arrival} (holds : l.holder = some a) {id : Nat}
    (other : id ≠ a.1) (p : Publication) : l.Keeps (l.publish p) id where
  called := fun _ => Iff.rfl
  tasks := Iff.rfl
  done := fun _ mem => mem
  holder := fun failures same => by
    rw [holds] at same
    exact absurd (congrArg Prod.fst (Option.some.inj same)).symm other
  queue := fun _ mem => .inl mem

/-- When a pass is over, the next one holds the reconciler, and the others are where they were. -/
theorem keeps_finish {l : Log} {a : Arrival} (holds : l.holder = some a) {id : Nat}
    (other : id ≠ a.1) : l.Keeps l.finish id where
  called := fun _ => Iff.rfl
  tasks := by simp [Log.tasks]
  done := fun _ mem => List.mem_append_left _ mem
  holder := fun failures same => by
    rw [holds] at same
    exact absurd (congrArg Prod.fst (Option.some.inj same)).symm other
  queue := fun failures waits => by
    cases queue : l.queue with
    | nil =>
      rw [queue] at waits
      cases waits
    | cons next rest =>
      rw [queue] at waits
      obtain rfl | later := List.mem_cons.1 waits
      · exact .inr ⟨by simp [finish, queue], rfl⟩
      · exact .inl (by simpa [finish, queue] using later)

theorem keeps_queue {l : Log} {queue : List Arrival} (same : queue.Perm l.queue) (id : Nat) :
    l.Keeps { l with queue } id where
  called := fun _ => Iff.rfl
  tasks := by simp [Log.tasks, arrivals, same.mem_iff]
  done := fun _ mem => mem
  holder := fun _ same => ⟨same, rfl, rfl⟩
  queue := fun _ mem => .inl (same.mem_iff.2 mem)

end Log

end ModelWorkspace.Host
