import ModelWorkspace.Problem.Plan

/-! The reconciler keeps the documents that failed in the last pass. One pass at a time holds it,
from the plan to its last publication; the others wait in the order in which they came. -/
namespace ModelWorkspace

/-- The documents that failed last, whether a pass holds the reconciler, and who waits for it. -/
structure Reconciler where
  snapshot : List Uri := []
  held : Bool := false
  waiting : List Nat := []
  deriving DecidableEq

namespace Reconciler

/-- Takes the reconciler, or else waits for it. -/
def acquire (r : Reconciler) (id : Nat) : Reconciler × Bool :=
  if r.held then ({ r with waiting := r.waiting ++ [id] }, false) else ({ r with held := true }, true)

/-- Gives the reconciler to the one that has waited longest, who then holds it. -/
def release (r : Reconciler) : Reconciler × Option Nat :=
  match r.waiting with
  | [] => ({ r with held := false }, none)
  | next :: rest => ({ r with waiting := rest }, some next)

@[simp] theorem snapshot_acquire (r : Reconciler) (id : Nat) :
    (r.acquire id).1.snapshot = r.snapshot := by
  unfold acquire
  split <;> rfl

@[simp] theorem snapshot_release (r : Reconciler) : r.release.1.snapshot = r.snapshot := by
  unfold release
  split <;> rfl

@[simp] theorem held_acquire (r : Reconciler) (id : Nat) : (r.acquire id).1.held = true := by
  unfold acquire
  split <;> simp_all

def plan (r : Reconciler) (failures : List Failure) : Plan := Plan.of failures r.snapshot

def store (r : Reconciler) (p : Plan) : Reconciler := { r with snapshot := p.snapshot }

@[simp] theorem snapshot_store (r : Reconciler) (p : Plan) : (r.store p).snapshot = p.snapshot := rfl

/-- A whole pass: its plan, and the reconciler after it. -/
def reconcile (r : Reconciler) (failures : List Failure) : Plan × Reconciler :=
  (r.plan failures, r.store (r.plan failures))

end Reconciler

end ModelWorkspace
