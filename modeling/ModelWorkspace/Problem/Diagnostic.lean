import ModelWorkspace.Uri.Basic

/-! What the editor shows beside a document. -/
namespace ModelWorkspace

/-- A place in a document, counted from zero. -/
structure Position where
  line : UInt32
  column : UInt32
  deriving DecidableEq

/-- The characters from one place up to another. -/
structure Span where
  start : Position
  stop : Position
  deriving DecidableEq

/-- How serious a problem is. -/
inductive Severity
  | error
  | warning
  deriving DecidableEq

/-- A problem at a place. -/
structure Diagnostic where
  span : Span
  severity : Severity
  message : String
  deriving DecidableEq

def Diagnostic.source : String := "modelsync"

/-- The problems of a document, which replace those it had. -/
structure Publication where
  uri : Uri
  diagnostics : List Diagnostic
  deriving DecidableEq

end ModelWorkspace
