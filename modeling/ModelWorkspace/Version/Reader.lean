import ModelWorkspace.Text.Blank
import ModelWorkspace.Version.Basic

/-! Reading versions. `Version.ofText?` takes the written form only; `Version.normalize?` also takes
the forms people write into settings: white space around, a leading `v` or `=`, one or two numbers
in place of three. -/
namespace ModelWorkspace

open Text (isDigit valueOf)

def isNumeral (digits : List Char) : Bool :=
  !digits.isEmpty && digits.all isDigit && (digits.length == 1 || digits.head? != some '0')

/-- A number below 2^64 without leading zeros. -/
def readComponent (digits : List Char) : Option UInt64 :=
  if isNumeral digits && valueOf digits < UInt64.size then
    some (UInt64.ofNat (valueOf digits))
  else none

/-- An identifier of a pre-release: one of digits only has no leading zeros. -/
def Identifier.ofChars? (chars : List Char) : Option Identifier :=
  if isNumeral chars then some (.numeric (valueOf chars))
  else if h : (!chars.isEmpty && chars.all isIdentifierChar && !chars.all isDigit) = true then
    some (.word ⟨chars, h⟩)
  else none

def BuildIdentifier.ofChars? (chars : List Char) : Option BuildIdentifier :=
  if h : (!chars.isEmpty && chars.all isIdentifierChar) = true then some ⟨chars, h⟩ else none

namespace Version

def readCore (core : List Char) : Option (List UInt64) := (core.splitOn '.').mapM readComponent

def readPre (text : List Char) : Option (List Identifier) :=
  (text.splitOn '.').mapM Identifier.ofChars?

def readBuild (text : List Char) : Option (List BuildIdentifier) :=
  (text.splitOn '.').mapM BuildIdentifier.ofChars?

/-- What may follow the numbers: a pre-release, a build, both in this order, or nothing. -/
def readSuffix : List Char → Option (List Identifier × List BuildIdentifier)
  | [] => some ([], [])
  | '-' :: rest =>
    let (pre, build) := Text.splitBefore (· == '+') rest
    match build with
    | [] => (readPre pre).map (·, [])
    | _ :: build => do return (← readPre pre, ← readBuild build)
  | '+' :: rest => (readBuild rest).map ([], ·)
  | _ => none

def endsCore (c : Char) : Bool := c == '-' || c == '+'

def readParts (s : List Char) :
    Option (List UInt64 × List Identifier × List BuildIdentifier) := do
  let (core, suffix) := Text.splitBefore endsCore s
  let numbers ← readCore core
  let (pre, build) ← readSuffix suffix
  return (numbers, pre, build)

def ofChars? (s : List Char) : Option Version :=
  match readParts s with
  | some ([major, minor, patch], pre, build) => some { major, minor, patch, pre, build }
  | _ => none

/-- A version whose missing numbers are zero. -/
def ofShortChars? (s : List Char) : Option Version :=
  match readParts s with
  | some ([major], pre, build) => some { major, pre, build }
  | some ([major, minor], pre, build) => some { major, minor, pre, build }
  | some ([major, minor, patch], pre, build) => some { major, minor, patch, pre, build }
  | _ => none

/-- The text without one leading `v`, or else without one leading `=`. -/
def dropMark : List Char → List Char
  | 'v' :: rest => rest
  | '=' :: rest => rest
  | s => s

def normalizeChars? (s : List Char) : Option Version :=
  ofShortChars? (Text.trimStart (dropMark (Text.trim s)))

def ofText? (s : String) : Option Version := ofChars? s.toList

/-- Reads a version as people write it. -/
def normalize? (s : String) : Option Version := normalizeChars? s.toList

end Version

/-- Why a text is no version or no range. -/
inductive VersionError
  | invalidVersion (text : String)
  | invalidRange (text : String)
  deriving DecidableEq

def VersionError.message : VersionError → String
  | .invalidVersion text => s!"invalid version `{text}`"
  | .invalidRange text => s!"invalid version range `{text}`"

/-- Reads a version as people write it; a refusal names the untouched text. -/
def Version.normalize (s : String) : Except VersionError Version :=
  match Version.normalize? s with
  | some v => .ok v
  | none => .error (.invalidVersion s)

end ModelWorkspace
