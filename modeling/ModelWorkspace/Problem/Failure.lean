import ModelWorkspace.Json.Record
import ModelWorkspace.Problem.Diagnostic
import ModelWorkspace.Uri.File

/-! Failures that the compiler reports, and the diagnostics they become. -/
namespace ModelWorkspace

open Json (Tree Value)

/-- A failure. One without a path has no place in the editor. -/
structure Failure where
  path? : Option Path := none
  line? : Option UInt32 := none
  column? : Option UInt32 := none
  length? : Option UInt32 := none
  category : String
  message : String
  deriving DecidableEq

namespace Failure

/-- The category of failures that are warnings. All other failures are errors. -/
def warningCategory : String := "warning"

def severity (f : Failure) : Severity :=
  if f.category == warningCategory then .warning else .error

/-- The column behind a token, at most the last column there is. -/
def columnAfter (column length : UInt32) : UInt32 :=
  UInt32.ofNat (min (column.toNat + length.toNat) (UInt32.size - 1))

/-- The token on the line of the failure. What is missing counts as zero. -/
def span (f : Failure) : Span :=
  let line := f.line?.getD 0
  let column := f.column?.getD 0
  ⟨⟨line, column⟩, ⟨line, columnAfter column (f.length?.getD 0)⟩⟩

def diagnostic (f : Failure) : Diagnostic := ⟨f.span, f.severity, f.message⟩

/-- The document of the failure, if its path is absolute. -/
def uri? (f : Failure) : Option Uri := f.path?.bind Uri.ofPath?

def new (category message : String) : Failure := { category, message }

def locate (f : Failure) (path : Path) (line column : UInt32) : Failure :=
  { f with path? := some path, line? := some line, column? := some column }

def withLength (f : Failure) (length : UInt32) : Failure := { f with length? := some length }

def ofTree? (t : Tree) : Option Failure := do
  let names := [["filePath"], ["line"], ["column"], ["tokenLength"], ["category"], ["message"]]
  match ← t.record? names false with
  | [path, line, column, length, category, message] =>
    return {
      path? := (← Json.optional Tree.string? path).map Path.mk
      line? := ← Json.optional Tree.word32? line
      column? := ← Json.optional Tree.word32? column
      length? := ← Json.optional Tree.word32? length
      category := ← Json.required Tree.string? category
      message := ← Json.required Tree.string? message }
  | _ => none

def word (n : Option UInt32) : Value :=
  match n with
  | some n => .int n.toNat
  | none => .null

def toValue (f : Failure) : Value :=
  .object [
    ("filePath", match f.path? with
      | some p => .string p.text
      | none => .null),
    ("line", word f.line?), ("column", word f.column?), ("tokenLength", word f.length?),
    ("category", .string f.category), ("message", .string f.message)]

end Failure

end ModelWorkspace
