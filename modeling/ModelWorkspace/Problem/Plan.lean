import ModelWorkspace.Problem.Failure

/-! What has to be published so that the editor shows the failures of the latest pass and nothing
else: each failing file with its diagnostics, and each file that failed before and does no more with
none. -/
namespace ModelWorkspace

/-- The publications of a pass. -/
structure Plan where
  publish : List Publication
  clear : List Uri
  deriving DecidableEq

namespace Plan

/-- Adds a diagnostic to its document; a document that is new goes last. -/
def addDiagnostic : List Publication → Uri → Diagnostic → List Publication
  | [], uri, d => [⟨uri, [d]⟩]
  | p :: rest, uri, d =>
    if p.uri = uri then { p with diagnostics := p.diagnostics ++ [d] } :: rest
    else p :: addDiagnostic rest uri d

theorem map_uri_addDiagnostic (done : List Publication) (uri : Uri) (d : Diagnostic) :
    (addDiagnostic done uri d).map (·.uri) =
      if uri ∈ done.map (·.uri) then done.map (·.uri) else done.map (·.uri) ++ [uri] := by
  induction done with
  | nil => simp [addDiagnostic]
  | cons p rest ih =>
    by_cases hp : p.uri = uri
    · simp [addDiagnostic, hp]
    · have hp' : uri ≠ p.uri := fun h => hp h.symm
      by_cases hm : uri ∈ rest.map (·.uri) <;> simp_all [addDiagnostic]

def addFailure (done : List Publication) (f : Failure) : List Publication :=
  match f.uri? with
  | some uri => addDiagnostic done uri f.diagnostic
  | none => done

/-- The failing documents in the order of their first failures, each with all its diagnostics. -/
def byDocument (failures : List Failure) : List Publication := failures.foldl addFailure []

/-- The plan for failures, after a pass in which other documents failed. -/
def of (failures : List Failure) (previous : List Uri) : Plan :=
  let publish := byDocument failures
  ⟨publish, previous.filter fun uri => !(publish.map (·.uri)).contains uri⟩

def snapshot (p : Plan) : List Uri := p.publish.map (·.uri)

/-- All publications, those that clear a document last. -/
def operations (p : Plan) : List Publication := p.publish ++ p.clear.map fun uri => ⟨uri, []⟩

@[simp] theorem length_operations (p : Plan) :
    p.operations.length = p.publish.length + p.clear.length := by
  simp [operations]

end Plan

end ModelWorkspace
