import ModelWorkspace.Proofs.Cascade.Followers

/-! The chronicle of a run of the three followers: what was changed from outside, what the handlers did
and for which change they did it, which handlers began, and how much work that took. Each of these
is a list that a move of the run adds to. -/
namespace ModelWorkspace

open Cascade (Role)
open Setting (Follower)

namespace Cascade

/-- What a stage does to what all share. -/
inductive Act
  | write (key : Setting.Key)
  | replaceFolder
  deriving DecidableEq

/-- What a stage is about to do. -/
def Stage.act? (w : Workbench) : Stage → Option Act
  | .forwardModelVersion => (pendingModelVersion? w).map fun _ => .write .modelVersion
  | .forwardModelDirectory => some (.write .modelDirectory)
  | .replaceModelFolder .. => some .replaceFolder
  | _ => none

end Cascade

/-- The place in the feed of the event that was raised between two states, if there was one. -/
def Workbench.raised? (w after : Workbench) : Option Nat :=
  if after.settings.feed.size = w.settings.feed.size then none else some w.settings.feed.size

namespace Host

open Cascade (Act)

/-- What is seen in the moves of a run, one after the other. -/
def collect {α : Type} (look : Host → Move → Host → Option α) : Host → List Move → List α
  | _, [] => []
  | h, m :: rest =>
    match h.move? m with
    | some k => (look h m k).toList ++ collect look k rest
    | none => []

theorem collect_concat {α : Type} (look : Host → Move → Host → Option α) {start h k : Host}
    {moves : List Move} {m : Move} (run : start.run? moves = some h) (move : h.move? m = some k) :
    collect look start (moves ++ [m]) = collect look start moves ++ (look h m k).toList := by
  induction moves generalizing start with
  | nil =>
    obtain rfl : start = h := by simpa using run
    simp [collect, move]
  | cons first rest ih =>
    rw [run?, List.foldlM_cons] at run
    cases made : start.move? first with
    | none => simp [made] at run
    | some next =>
      rw [made] at run
      simp only [List.cons_append, collect, made, ih run, List.append_assoc]

/-! ### Changes from outside -/

/-- A change that someone else made, and the place of its event in the feed. -/
structure OuterChange where
  index : Nat
  key : Setting.Key
  deriving DecidableEq

def outerChange? (h : Host) (m : Move) (k : Host) : Option OuterChange :=
  match m with
  | .write key _ => (h.bench.raised? k.bench).map (⟨·, key⟩)
  | _ => none

/-- The writes from outside that changed a value. -/
def outerChanges (start : Host) (moves : List Move) : List OuterChange :=
  collect outerChange? start moves

/-! ### Work of the followers -/

/-- The follower whose turn it is. -/
def working? (h : Host) : Option (Follower Stage) :=
  match h.running.bind (h.tasks[·]?) with
  | some (.follower _ _ f) => some f
  | _ => none

theorem working?_of_task {h : Host} {id token : Nat} {requests : Option Requests}
    {f : Follower Stage} (turn : h.running = some id)
    (task : h.tasks[id]? = some (.follower token requests f)) : h.working? = some f := by
  simp only [working?, turn, Option.bind_some, task]

/-- What is seen of the follower whose turn it is. -/
def inWork {α : Type} (look : Workbench → Follower Stage → Option α) (h : Host) (m : Move)
    (_ : Host) : Option α :=
  match m with
  | .work => h.working?.bind (look h.bench)
  | _ => none

/-- Something that a handler did, and what for. -/
structure Deed where
  /-- The setting that the handler is for. -/
  handler : Setting.Key
  /-- The place in the feed of the change that the handler began for. -/
  cause : Nat
  act : Act
  /-- The place of the event that it raised, if it changed a value. -/
  raised : Option Nat
  deriving DecidableEq

def deed? (w : Workbench) (f : Follower Stage) : Option Deed :=
  match f.remaining.head? with
  | some (.cascade s) =>
    (s.act? w).map fun act => ⟨f.key, f.position - 1, act, w.raised? (s.perform w).1⟩
  | _ => none

theorem deed?_of_handling {w : Workbench} {f : Follower Stage} {s : Cascade.Stage}
    {rest : List Stage} (phase : f.phase = .handling (.cascade s :: rest)) :
    deed? w f =
      (s.act? w).map fun act => ⟨f.key, f.position - 1, act, w.raised? (s.perform w).1⟩ := by
  simp only [deed?, Follower.remaining_of_handling phase, List.head?_cons]

theorem deed?_of_idle {w : Workbench} {f : Follower Stage} (idle : f.remaining = []) :
    deed? w f = none := by
  simp only [deed?, idle, List.head?_nil]

/-- Whether the follower is told that it has missed changes. -/
def lapses (w : Workbench) (f : Follower Stage) : Bool :=
  match f.phase with
  | .listening => f.position + Setting.Feed.capacity < w.settings.feed.size
  | _ => false

/-- Whether the follower begins its handler: the change that it has just read is one of its setting, or
it is told that it has missed some. -/
def begins (w : Workbench) (f : Follower Stage) : Bool :=
  match f.phase with
  | .noticed key => key == f.key
  | _ => lapses w f

/-- Whether the follower has anything to do. -/
def works (w : Workbench) (f : Follower Stage) : Bool := !f.waits w.settings.feed

/-- The setting of a follower that the test is true of. -/
def keyIf (test : Workbench → Follower Stage → Bool) (w : Workbench) (f : Follower Stage) :
    Option Setting.Key :=
  if test w f then some f.key else none

/-- What the handlers wrote and asked for. -/
def deeds (start : Host) (moves : List Move) : List Deed := collect (inWork deed?) start moves

/-- Whose turns the test was true in. -/
def turnsWith (test : Workbench → Follower Stage → Bool) (start : Host) (moves : List Move) :
    List Setting.Key := collect (inWork (keyIf test)) start moves

theorem handler_of_deed? {w : Workbench} {f : Follower Stage} {d : Deed}
    (deed : d ∈ (deed? w f).toList) : d.handler = f.key := by
  unfold deed? at deed
  split at deed
  · rw [Option.mem_toList, Option.map_eq_some_iff] at deed
    obtain ⟨act, -, rfl⟩ := deed
    rfl
  · cases deed

theorem count_keyIf (test : Workbench → Follower Stage → Bool) (w : Workbench) (f : Follower Stage)
    (key : Setting.Key) : (keyIf test w f).toList.count key =
      if key = f.key then (keyIf test w f).toList.length else 0 := by
  unfold keyIf
  split
  · by_cases own : key = f.key
    · simp [own]
    · have other : (f.key == key) = false := by simpa using Ne.symm own
      simp [own, other, List.count_singleton]
  · simp

/-- What holds at the start and is kept by each move of the followers and of those outside holds after
every run of them. -/
theorem AtWork.induction {start : Host} {first token base : Nat} {outside : Setting.Key → Prop}
    (working : AtWork first token base start) {P : List Move → Host → Prop} (init : P [] start)
    (concat : ∀ moves h k m, start.run? moves = some h → h.move? m = some k →
      AtWork first token base h → Change first token outside h k m → P moves h →
      P (moves ++ [m]) k) :
    ∀ moves h, start.run? moves = some h → (∀ m ∈ moves, m.IsCascade first outside) →
      AtWork first token base h ∧ P moves h := by
  refine run_induction (fun _ => ⟨working, init⟩) fun moves h m k run ih move fits => ?_
  obtain ⟨working, holds⟩ := ih fun m mem => fits m (List.mem_append_left _ mem)
  have fits := fits m (List.mem_append_right _ (List.mem_singleton_self m))
  exact ⟨working.keep fits move,
    concat moves h k m run move working (working.move fits move).1 holds⟩

/-- A turn of a follower adds what is seen of it. -/
theorem collect_work {α : Type} (look : Workbench → Follower Stage → Option α) {start h k : Host}
    {moves : List Move} {id token : Nat} {requests : Option Requests} {f : Follower Stage}
    (run : start.run? moves = some h) (move : h.move? .work = some k) (turn : h.running = some id)
    (task : h.tasks[id]? = some (.follower token requests f)) :
    collect (inWork look) start (moves ++ [.work]) =
      collect (inWork look) start moves ++ (look h.bench f).toList := by
  rw [collect_concat _ run move, inWork, working?_of_task turn task, Option.bind_some]

/-- All other moves add nothing to what is seen of the followers. -/
theorem collect_other {α : Type} (look : Workbench → Follower Stage → Option α) {start h k : Host}
    {moves : List Move} {m : Move} (run : start.run? moves = some h) (move : h.move? m = some k)
    (other : m ≠ .work) :
    collect (inWork look) start (moves ++ [m]) = collect (inWork look) start moves := by
  rw [collect_concat _ run move]
  cases m with
  | work => exact absurd rfl other
  | _ => exact List.append_nil _

/-- A write from outside that changes a value is one more change from outside. -/
theorem outerChanges_write {start h k : Host} {moves : List Move} {key : Setting.Key}
    {value : Json.Value} (run : start.run? moves = some h)
    (move : h.move? (.write key value) = some k) :
    outerChanges start (moves ++ [.write key value]) =
      outerChanges start moves ++ ((h.bench.raised? k.bench).map (⟨·, key⟩)).toList :=
  collect_concat _ run move

theorem outerChanges_other {start h k : Host} {moves : List Move} {m : Move}
    (run : start.run? moves = some h) (move : h.move? m = some k)
    (other : ∀ key value, m ≠ .write key value) :
    outerChanges start (moves ++ [m]) = outerChanges start moves := by
  rw [outerChanges, collect_concat _ run move, outerChanges]
  cases m with
  | write key value => exact absurd rfl (other key value)
  | _ => exact List.append_nil _

end Host

end ModelWorkspace
