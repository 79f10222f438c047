import ModelWorkspace.FileTree
import ModelWorkspace.Json.Reader
import ModelWorkspace.Json.Writer
import ModelWorkspace.Setting.Feed
import ModelWorkspace.Setting.Values

/-! The settings store: values, the file that holds them if there is one, and the feed of changes.
A write goes to the file first; if that fails nothing has changed. -/
namespace ModelWorkspace.Setting

open ModelWorkspace.Json (Value Tree Piece)

/-- Why a store could not be opened or written. -/
inductive StoreError
  | file (path : Path) (fault : FileFault)
  | format (path : Path)
  deriving DecidableEq

/-- A store. Without a file it lives in memory only. -/
structure Store where
  values : Values := []
  file : Option Path := none
  feed : Feed := {}

namespace Store

/-- How deep the value of a setting may be nested: the object of the file is one level. -/
def valueDepth : Nat := Json.depthLimit - 1

/-- Takes the settings of a file one by one. Unknown names are dropped, but their values have to
be values. -/
def ofFields (values : Values) : List (List Piece × Tree) → Option Values
  | [] => some values
  | (name, tree) :: rest => do
    let name ← Json.decode name
    let value ← Value.ofTree valueDepth tree
    match Key.ofName? (String.ofList name) with
    | some key => ofFields (values.insert key value) rest
    | none => ofFields values rest

def parse? (text : String) : Option Values :=
  match Tree.read text.toList with
  | some (.object fields) => ofFields [] fields
  | _ => none

def render (values : Values) : String :=
  Json.prettyObject (values.map fun (key, value) => (key.name, value))

/-- The settings that a file holds; a file that is missing holds none. -/
def load (files : FileTree) (path : Path) : Except StoreError Values :=
  if files.exists? path then
    match files.read path with
    | .error fault => .error (.file path fault)
    | .ok text =>
      match parse? text with
      | some values => .ok values
      | none => .error (.format path)
  else .ok []

def openFile (files : FileTree) (path : Path) : Except StoreError Store := do
  return { values := ← load files path, file := some path }

def get? (s : Store) (key : Key) : Option Value := s.values.get? key

/-- The store in which a setting has a new value, and the event of it. -/
def commit (s : Store) (key : Key) (value : Value) : Store :=
  { s with values := s.values.insert key value, feed := s.feed.raise key }

def save (s : Store) (files : FileTree) (values : Values) : Except StoreError FileTree :=
  match s.file with
  | none => .ok files
  | some path =>
    match files.write path (.text (render values)) with
    | .ok files => .ok files
    | .error fault => .error (.file path fault)

/-- Sets a value. An equal value changes nothing, and a write that fails neither. -/
def set (s : Store) (files : FileTree) (key : Key) (value : Value) :
    Except StoreError (FileTree × Store) :=
  if s.values.has key value then .ok (files, s)
  else do return (← s.save files (s.values.insert key value), s.commit key value)

end Store

end ModelWorkspace.Setting
