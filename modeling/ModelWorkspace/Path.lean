/-! Paths. A path keeps the text it was given; its components are what comparisons look at, so
repeated and trailing slashes and inner dots do not count. -/
namespace ModelWorkspace

/-- A path as it is written. -/
structure Path where
  text : String
  deriving DecidableEq

namespace Path

/-- A step of a path. A dot counts only where a relative path begins with it. -/
inductive Component
  | root
  | here
  | up
  | name (s : String)
  deriving DecidableEq

def segments (p : Path) : List String := (p.text.toList.splitOn '/').map String.ofList

def isAbsolute (p : Path) : Bool := p.text.toList.head? == some '/'

/-- The step that a text between slashes stands for. Nothing and a dot stand for none. -/
def Component.ofSegment? (s : String) : Option Component :=
  if s == "" || s == "." then none else if s == ".." then some .up else some (.name s)

def components (p : Path) : List Component :=
  let steps := p.segments.filterMap Component.ofSegment?
  if p.isAbsolute then .root :: steps
  else if p.segments.head? == some "." then .here :: steps
  else steps

def same (p q : Path) : Bool := p.components == q.components

def fileName? (p : Path) : Option String :=
  match p.components.getLast? with
  | some (.name s) => some s
  | _ => none

/-- The second path, seen from the first. -/
def join (p q : Path) : Path :=
  if q.isAbsolute || p.text.isEmpty then q
  else if p.text.toList.getLast? == some '/' then ⟨p.text ++ q.text⟩
  else ⟨p.text ++ "/" ++ q.text⟩

/-- Takes back the last step. There is nothing above the root, nor above where a relative path
begins. -/
def dropLast (steps : List Component) : List Component :=
  if steps = [.root] then steps else steps.dropLast

/-- Takes one more step without a look at any file tree. -/
def follow (steps : List Component) : Component → List Component
  | .here => steps
  | .up => dropLast steps
  | c => steps ++ [c]

/-- The steps that are left when each step up takes back the one before it. -/
def lexical (p : Path) : List Component := p.components.foldl follow []

/-- Whether the path lies at or below the other one, as far as the texts tell. -/
def isWithin (p root : Path) : Bool := root.lexical.isPrefixOf p.lexical

end Path

end ModelWorkspace
