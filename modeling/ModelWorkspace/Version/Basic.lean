import ModelWorkspace.Text.Digits

/-! Semantic versions: three numbers, the identifiers of a pre-release and those of a build.
`Version.text` is the written form, `Version.precedence` the order of releases, which does not look
at the build. -/
namespace ModelWorkspace

open Text (isDigit decimal)

/-- The characters of an identifier: ASCII letters, digits and the hyphen. -/
def isIdentifierChar (c : Char) : Bool :=
  isDigit c || ('A' ≤ c && c ≤ 'Z') || ('a' ≤ c && c ≤ 'z') || c == '-'

/-- A build identifier: a nonempty text of identifier characters. -/
structure BuildIdentifier where
  chars : List Char
  valid : (!chars.isEmpty && chars.all isIdentifierChar) = true := by decide
  deriving DecidableEq

/-- An identifier of a pre-release that is more than a number. -/
structure Word where
  chars : List Char
  valid : (!chars.isEmpty && chars.all isIdentifierChar && !chars.all isDigit) = true := by decide
  deriving DecidableEq

/-- An identifier of a pre-release. -/
inductive Identifier
  | numeric (n : Nat)
  | word (w : Word)
  deriving DecidableEq

/-- A semantic version. Without pre-release identifiers it is a release. -/
structure Version where
  major : UInt64
  minor : UInt64 := 0
  patch : UInt64 := 0
  pre : List Identifier := []
  build : List BuildIdentifier := []
  deriving DecidableEq

namespace Identifier

/-- Numbers come before words; words are in the order of their characters. -/
def order : Identifier → Identifier → Ordering
  | numeric m, numeric n => compare m n
  | numeric _, word _ => .lt
  | word _, numeric _ => .gt
  | word v, word w => compare v.chars w.chars

def chars : Identifier → List Char
  | numeric n => decimal n
  | word w => w.chars

@[simp] theorem chars_numeric (n : Nat) : (numeric n).chars = decimal n := rfl

@[simp] theorem chars_word (w : Word) : (word w).chars = w.chars := rfl

end Identifier

namespace Version

/-- A release comes after its pre-releases. Otherwise the first identifiers that differ decide, and
a list comes before its continuations. -/
def preOrder : List Identifier → List Identifier → Ordering
  | [], [] => .eq
  | [], _ :: _ => .gt
  | _ :: _, [] => .lt
  | p, q => List.compareLex Identifier.order p q

/-- The order of releases. The build takes no part in it. -/
def precedence (a b : Version) : Ordering :=
  (compare a.major b.major).then <| (compare a.minor b.minor).then <|
    (compare a.patch b.patch).then <| preOrder a.pre b.pre

def sameAs (a b : Version) : Bool := a.precedence b == .eq

def atLeast (a b : Version) : Bool := a.precedence b != .lt

def release (v : Version) : Version := { v with pre := [], build := [] }

@[simp] theorem pre_release (v : Version) : v.release.pre = [] := rfl

@[simp] theorem build_release (v : Version) : v.release.build = [] := rfl

def coreChars (v : Version) : List Char :=
  decimal v.major.toNat ++ '.' :: decimal v.minor.toNat ++ '.' :: decimal v.patch.toNat

def preChars (v : Version) : List Char :=
  if v.pre.isEmpty then [] else '-' :: ['.'].intercalate (v.pre.map Identifier.chars)

def buildChars (v : Version) : List Char :=
  if v.build.isEmpty then [] else '+' :: ['.'].intercalate (v.build.map BuildIdentifier.chars)

def chars (v : Version) : List Char := v.coreChars ++ v.preChars ++ v.buildChars

def text (v : Version) : String := String.ofList v.chars

instance : ToString Version := ⟨text⟩

/-- Ascending order; versions of the same precedence stay as they stand. -/
def sort (versions : List Version) : List Version :=
  versions.mergeSort fun a b => a.precedence b != .gt

end Version

end ModelWorkspace
