/-! Addresses of documents, in the canonical form in which they are compared. -/
namespace ModelWorkspace

/-- An address as it is written. -/
structure Uri where
  text : String
  deriving DecidableEq

namespace Uri

def isLetter (c : Char) : Bool := ('a' ≤ c && c ≤ 'z') || ('A' ≤ c && c ≤ 'Z')

def isSchemeChar (c : Char) : Bool :=
  isLetter c || ('0' ≤ c && c ≤ '9') || c == '+' || c == '-' || c == '.'

/-- The scheme, and what follows the colon behind it. -/
def splitScheme? (s : List Char) : Option (List Char × List Char) :=
  let (scheme, rest) := (s.takeWhile isSchemeChar, s.dropWhile isSchemeChar)
  match rest with
  | ':' :: rest => if scheme.head?.any isLetter then some (scheme, rest) else none
  | _ => none

def splitQuery (s : List Char) : List Char × List Char :=
  let isEnd := fun c => c == '?' || c == '#'
  (s.takeWhile fun c => !isEnd c, s.dropWhile fun c => !isEnd c)

/-- The host behind two slashes, if there is one, and the path behind it. -/
def splitHost : List Char → Option (List Char) × List Char
  | '/' :: '/' :: rest => (some (rest.takeWhile (· != '/')), rest.dropWhile (· != '/'))
  | s => (none, s)

/-- The path: neither scheme and host nor query and fragment. -/
def path (u : Uri) : String :=
  match splitScheme? u.text.toList with
  | some (_, rest) => String.ofList (splitHost (splitQuery rest).1).2
  | none => ""

/-- The schemes whose addresses always have a path. -/
def hierarchical : List String := ["file", "ftp", "http", "https", "ws", "wss"]

/-- Reads a canonical address. One without a scheme is refused; where only the host of a
hierarchical one is given, its path is a slash. -/
def ofText? (s : String) : Option Uri := do
  let (scheme, rest) ← splitScheme? s.toList
  let (place, query) := splitQuery rest
  match splitHost place with
  | (some host, []) =>
    if hierarchical.contains (String.ofList scheme) then
      return ⟨String.ofList (scheme ++ ':' :: '/' :: '/' :: host ++ '/' :: query)⟩
    else return ⟨s⟩
  | _ => return ⟨s⟩

end Uri

end ModelWorkspace
