import ModelWorkspace.Json.Reader
import ModelWorkspace.Json.Writer
import ModelWorkspace.Version.Reader

/-! Versions in JSON. A version, be it one of a model or of a platform, is written as a string, and
read from a string in which it stands as people write it. -/
namespace ModelWorkspace.Version

open Json (Tree Value)

def json (v : Version) : String := (Value.string v.text).text

def ofJson? (s : String) : Option Version :=
  ((Tree.read s.toList).bind Tree.string?).bind normalize?

end ModelWorkspace.Version
