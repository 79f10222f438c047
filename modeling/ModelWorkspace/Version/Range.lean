import ModelWorkspace.Version.Reader

/-! Sets of versions that a platform accepts: one line of releases, one pre-release, or everything
from a version on. -/
namespace ModelWorkspace

/-- A set of versions, anchored on one version. -/
inductive Range
  /-- A release stands for the patches of its line from it on, a pre-release for itself. -/
  | exact (base : Version)
  /-- Everything from the version on, pre-releases included. -/
  | atLeast (base : Version)
  deriving DecidableEq

namespace Range

def base : Range → Version
  | exact v => v
  | atLeast v => v

def accepts : Range → Version → Bool
  | exact base, v =>
    if base.pre.isEmpty then
      v.major == base.major && v.minor == base.minor && v.atLeast base
    else v.sameAs base
  | atLeast base, v => v.atLeast base

instance : Membership Version Range := ⟨fun r v => r.accepts v = true⟩

instance (r : Range) (v : Version) : Decidable (v ∈ r) :=
  inferInstanceAs (Decidable (r.accepts v = true))

theorem mem_iff {r : Range} {v : Version} : v ∈ r ↔ r.accepts v = true := Iff.rfl

def chars : Range → List Char
  | exact v => v.chars
  | atLeast v => '>' :: '=' :: v.chars

def text (r : Range) : String := String.ofList r.chars

instance : ToString Range := ⟨text⟩

/-- A text that asks for an operator or a combination which ranges do not have. -/
def isUnsupported (s : List Char) : Bool :=
  (s.head?.any fun c => c == '<' || c == '>' || c == '^' || c == '~') || s.contains ' '

/-- Reads a trimmed text: a lower bound after `>=`, otherwise a version. -/
def ofTrimmed? : List Char → Option Range
  | '>' :: '=' :: rest => (Version.normalizeChars? rest).map atLeast
  | s => if isUnsupported s then none else (Version.normalizeChars? s).map exact

def ofText? (s : String) : Option Range := ofTrimmed? (Text.trim s.toList)

/-- Reads a range; a refusal names the untouched text. -/
def parse (s : String) : Except VersionError Range :=
  match ofText? s with
  | some r => .ok r
  | none => .error (.invalidRange s)

end Range

end ModelWorkspace
