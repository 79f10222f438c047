import ModelWorkspace.Version.Range

/-! The catalogue of published versions: which model versions a platform version accepts, which one
it starts with, and which bundled folder ships a model version. Entries are found by precedence,
so the spelling of a version and its build do not matter. -/
namespace ModelWorkspace.Catalogue

def release (major minor patch : UInt64) : Version := { major, minor, patch }

def letter (major minor patch : UInt64) (mark : Word) : Version :=
  { major, minor, patch, pre := [.word mark] }

def preview : Version := { major := 5, pre := [.word ⟨['p', 'r', 'e'], by decide⟩, .numeric 1] }

def ranges : List (Version × Range) :=
  [ (release 3 0 0, .exact (release 3 0 0)),
    (release 3 1 0, .exact (release 3 1 0)),
    (release 3 1 1, .exact (release 3 1 0)),
    (release 3 2 0, .exact (release 3 1 0)),
    (release 3 3 0, .exact (release 3 2 0)),
    (release 3 4 0, .exact (letter 3 2 0 ⟨['b'], by decide⟩)),
    (release 5 0 0, .exact (letter 3 2 0 ⟨['c'], by decide⟩)),
    (release 5 1 0, .exact (letter 3 2 0 ⟨['c'], by decide⟩)),
    (release 5 2 0, .exact (letter 3 3 0 ⟨['a'], by decide⟩)),
    (release 5 3 0, .exact (letter 3 3 1 ⟨['b'], by decide⟩)),
    (release 6 0 0, .exact (letter 4 0 0 ⟨['a'], by decide⟩)),
    (release 6 1 0, .exact (release 4 0 0)),
    (release 7 0 0, .atLeast (release 4 0 0)) ]

def fallbackRange : Range := .exact (release 3 0 0)

def defaults : List (Version × Version) :=
  [ (release 3 0 0, release 3 0 0),
    (release 3 1 0, release 3 1 0),
    (release 3 1 1, release 3 1 0),
    (release 3 2 0, release 3 1 0),
    (release 3 3 0, release 3 2 0),
    (release 3 4 0, letter 3 2 0 ⟨['b'], by decide⟩),
    (release 5 0 0, letter 3 2 0 ⟨['c'], by decide⟩),
    (release 5 1 0, letter 3 2 0 ⟨['c'], by decide⟩),
    (release 5 2 0, letter 3 3 0 ⟨['a'], by decide⟩),
    (release 5 3 0, letter 3 3 1 ⟨['b'], by decide⟩),
    (release 6 0 0, letter 4 0 0 ⟨['a'], by decide⟩),
    (release 6 1 0, release 4 0 0),
    (release 7 0 0, preview) ]

def modelFolders : List (Version × String) :=
  [ (release 3 0 0, "ed-fi-model-3.0"),
    (release 3 1 0, "ed-fi-model-3.1"),
    (release 3 2 0, "ed-fi-model-3.2a"),
    (letter 3 2 0 ⟨['b'], by decide⟩, "ed-fi-model-3.2b"),
    (letter 3 2 0 ⟨['c'], by decide⟩, "ed-fi-model-3.2c"),
    (letter 3 3 0 ⟨['a'], by decide⟩, "ed-fi-model-3.3a"),
    (letter 3 3 1 ⟨['b'], by decide⟩, "ed-fi-model-3.3b"),
    (letter 4 0 0 ⟨['a'], by decide⟩, "ed-fi-model-4.0a"),
    (release 4 0 0, "ed-fi-model-4.0"),
    (preview, "ed-fi-model-5.0-pre.1") ]

/-- The folder used when a model version has none of its own. -/
def baselineFolder : String := "ed-fi-model-4.0"

def defaultPlatform : Version := release 6 1 0

def defaultModel : Version := release 4 0 0

def defaultFolderName : String := "Ed-Fi-Model 4.0"

/-- The first entry whose key has the precedence of the version. -/
def lookup {α : Type} (table : List (Version × α)) (v : Version) : Option α :=
  (table.find? fun entry => entry.1.sameAs v).map (·.2)

def rangeFor (platform : Version) : Range := (lookup ranges platform).getD fallbackRange

def isCompatible (model platform : Version) : Bool := (rangeFor platform).accepts model

def defaultModelVersion (platform : Version) : Option Version := lookup defaults platform

def modelFolderFor (model : Version) : String := (lookup modelFolders model).getD baselineFolder

/-- The entry at hand unless the one found so far comes after it. -/
def newer {α : Type} (best entry : Version × α) : Version × α :=
  if best.1.precedence entry.1 == .gt then best else entry

def newest {α : Type} : List (Version × α) → Option (Version × α)
  | [] => none
  | first :: others => some (others.foldl newer first)

/-- The folder of the newest bundled model version in the range, or else the baseline. -/
def recommendedFolder (range : Range) : String :=
  match newest (modelFolders.filter fun entry => range.accepts entry.1) with
  | some (_, folder) => folder
  | none => baselineFolder

def knownPlatforms : List Version := defaults.map (·.1)

end ModelWorkspace.Catalogue
