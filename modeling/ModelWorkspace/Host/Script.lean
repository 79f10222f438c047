import ModelWorkspace.Compiler.Command
import ModelWorkspace.Problem.Plan

/-! The partners of the tooling, played from a script: a compiler, a deployer and the problem surface
of the editor. Times are in milliseconds. -/
namespace ModelWorkspace.Host

/-- The outcome of a deployment. -/
structure DeployResult where
  success : Bool
  failure : Option String := none
  deriving DecidableEq

/-- What the partners answer, and how long they take. -/
structure Script where
  failures : List Failure := []
  build : Bool := false
  deploy : DeployResult := ⟨false, none⟩
  lintDelay : Nat := 0
  buildDelay : Nat := 0
  deployDelay : Nat := 0
  /-- How often the problem surface gives way before it takes a publication. -/
  publishPauses : Nat := 0
  publishDelay : Nat := 0

/-- A call of a partner. -/
inductive Call
  | lint (m : Message)
  | build (m : Message)
  | deploy (d : Deployment)

/-- Something, and when it came to pass. -/
structure Timed (α : Type) where
  time : Nat
  value : α

end ModelWorkspace.Host
