import ModelWorkspace.Path

/-! A tree of files without links. A location is the list of names from the root down; paths are
resolved step by step, so a step up leads to where the folder really is. -/
namespace ModelWorkspace

/-- What is wrong with a path or with what it leads to. -/
inductive FileFault
  | notFound
  | isAFolder
  | notAFolder
  | invalidText
  /-- The permissions of a file or of its folder do not admit the change. -/
  | denied
  /-- Something that is no folder stands where one has to be made. -/
  | alreadyThere
  | nameTooLong
  /-- The path holds a character that no name can hold. -/
  | invalidPath
  deriving DecidableEq

/-- The names from the root of the tree down to a place in it. -/
abbrev Location := List String

/-- What stands at a place. A file holds a text, or bytes that are no text. -/
inductive Content
  | folder
  | text (s : String)
  | bytes (b : List UInt8)
  deriving DecidableEq

def Content.ofBytes (b : ByteArray) : Content :=
  match String.fromUTF8? b with
  | some s => .text s
  | none => .bytes b.toList

/-- What stands at a place, and its permission bits. -/
structure Entry where
  mode : Nat
  content : Content
  deriving DecidableEq

def Entry.isWritable (e : Entry) : Bool := e.mode &&& 0o200 != 0

def fileMode : Nat := 0o644

def folderMode : Nat := 0o755

def readOnlyMode : Nat := 0o555

/-- A file tree, and the folder where relative paths begin. -/
structure FileTree where
  entries : List (Location × Entry) := []
  current : Location := []

namespace FileTree

def newFolder : Entry := ⟨folderMode, .folder⟩

/-- What stands at a location. The root is always there. -/
def entryAt? (t : FileTree) (l : Location) : Option Entry :=
  match t.entries.lookup l with
  | some e => some e
  | none => if l.isEmpty then some newFolder else none

def hasFolder (t : FileTree) (l : Location) : Bool :=
  (t.entryAt? l).any fun e => e.content == .folder

/-- Puts an entry at a location, in the place of what stands there. -/
def put (t : FileTree) (l : Location) (e : Entry) : FileTree :=
  if (t.entries.lookup l).isSome then
    { t with entries := t.entries.map fun (k, old) => (k, if k = l then e else old) }
  else { t with entries := t.entries ++ [(l, e)] }

theorem lookup_map_replace (entries : List (Location × Entry)) (l k : Location) (e : Entry) :
    (entries.map fun (m, old) => (m, if m = l then e else old)).lookup k =
      (entries.lookup k).map fun old => if k = l then e else old := by
  induction entries with
  | nil => rfl
  | cons entry rest ih =>
    obtain ⟨m, old⟩ := entry
    by_cases h : k = m
    · simp [h]
    · have hb : (k == m) = false := by simp [h]
      simpa [List.lookup_cons, hb] using ih

@[simp] theorem entryAt?_put (t : FileTree) (l k : Location) (e : Entry) :
    (t.put l e).entryAt? k = if k = l then some e else t.entryAt? k := by
  unfold put
  split
  · rename_i hl
    obtain ⟨old, hold⟩ := Option.isSome_iff_exists.1 hl
    simp only [entryAt?, lookup_map_replace]
    by_cases h : k = l
    · subst h
      simp [hold]
    · simp [h]
  · rename_i hl
    rw [Option.not_isSome_iff_eq_none] at hl
    simp only [entryAt?, List.lookup_append]
    by_cases h : k = l
    · subst h
      simp [hl]
    · have hb : (k == l) = false := by simp [h]
      simp [List.lookup_cons, hb, h]

/-- Whether entries may be put into the folder at a location, and taken out of it. -/
def isOpen (t : FileTree) (l : Location) : Bool := (t.entryAt? l).all (·.isWritable)

/-- How many bytes a name has at most. -/
def longestName : Nat := 255

def isTooLong (name : String) : Bool := longestName < name.utf8ByteSize

/-- A path that can lead anywhere: it is not empty, and holds no zero character. -/
def check (p : Path) : Except FileFault Unit :=
  if p.text.isEmpty then .error .notFound
  else if p.text.toList.contains (Char.ofNat 0) then .error .invalidPath
  else .ok ()

/-- A step of a walk: an empty name and a dot stay in the folder, two dots lead out of it. -/
def step (t : FileTree) (l : Location) (segment : String) : Except FileFault Location :=
  if !t.hasFolder l then .error .notAFolder
  else if segment == "" || segment == "." then .ok l
  else if segment == ".." then .ok l.dropLast
  else if isTooLong segment then .error .nameTooLong
  else if (t.entryAt? (l ++ [segment])).isSome then .ok (l ++ [segment])
  else .error .notFound

def walk (t : FileTree) (l : Location) (segments : List String) : Except FileFault Location :=
  segments.foldlM t.step l

def start (t : FileTree) (p : Path) : Location := if p.isAbsolute then [] else t.current

/-- The names between the slashes of a path, without the empty one in front of a leading slash.
One at the end is kept: what it follows has to be a folder. -/
def stepsOf (p : Path) : List String := if p.isAbsolute then p.segments.drop 1 else p.segments

def resolve (t : FileTree) (p : Path) : Except FileFault Location := do
  check p
  t.walk (t.start p) (stepsOf p)

def exists? (t : FileTree) (p : Path) : Bool := (t.resolve p).isOk

def isFolder (t : FileTree) (p : Path) : Bool :=
  match t.resolve p with
  | .ok l => t.hasFolder l
  | .error _ => false

def read (t : FileTree) (p : Path) : Except FileFault String := do
  let l ← t.resolve p
  match t.entryAt? l with
  | some ⟨_, .text s⟩ => .ok s
  | some ⟨_, .bytes _⟩ => .error .invalidText
  | some ⟨_, .folder⟩ => .error .isAFolder
  | none => .error .notFound

/-- Writes the entry at a location. A file that is there keeps its permissions and has to admit the
change; for a new one its folder has to. -/
def writeAt (t : FileTree) (l : Location) (c : Content) : Except FileFault FileTree :=
  match t.entryAt? l with
  | some e =>
    if e.content = .folder then .error .isAFolder
    else if e.isWritable then .ok (t.put l ⟨e.mode, c⟩)
    else .error .denied
  | none => if t.isOpen l.dropLast then .ok (t.put l ⟨fileMode, c⟩) else .error .denied

def isName (segment : String) : Bool := segment != "" && segment != "." && segment != ".."

/-- The names on the way to the last step of a path, that step, and whether slashes follow it. -/
def splitLast (segments : List String) : Option (List String × String × Bool) :=
  let rest := segments.reverse.dropWhile (· == "")
  match rest with
  | [] => none
  | last :: before => some (before.reverse, last, rest.length < segments.length)

/-- Writes a file. Its folder has to be there. A slash behind the name asks for a folder, whatever
stands there. -/
def write (t : FileTree) (p : Path) (c : Content) : Except FileFault FileTree := do
  check p
  match splitLast (stepsOf p) with
  | none => throw .isAFolder
  | some (before, last, hasSlash) =>
    let l ← t.walk (t.start p) before
    if !t.hasFolder l then throw .notAFolder
    if hasSlash || !isName last then throw .isAFolder
    if isTooLong last then throw .nameTooLong
    t.writeAt (l ++ [last]) c

/-- The tree with a folder at a location, made if nothing stands there. -/
def makeFolder (t : FileTree) (l : Location) : Except FileFault FileTree :=
  if t.hasFolder l then .ok t
  else if (t.entryAt? l).isSome then .error .alreadyThere
  else if !t.hasFolder l.dropLast then .error .notAFolder
  else if l.getLast?.any isTooLong then .error .nameTooLong
  else if t.isOpen l.dropLast then .ok (t.put l newFolder)
  else .error .denied

/-- The tree with a folder at the end of a walk that starts at the location, made where missing. Only
the last of the names can be in the way of a folder; files in front of it are no folders. -/
def makeFolders (t : FileTree) (l : Location) : List String → Except FileFault (FileTree × Location)
  | [] => .ok (t, l)
  | segment :: rest =>
    if segment == "" || segment == "." then t.makeFolders l rest
    else if segment == ".." then t.makeFolders l.dropLast rest
    else
      match t.makeFolder (l ++ [segment]) with
      | .ok t => t.makeFolders (l ++ [segment]) rest
      | .error .alreadyThere =>
        .error (if rest.all (· == "") then .alreadyThere else .notAFolder)
      | .error fault => .error fault

/-- Makes the folder that the path names, and those on the way to it. -/
def addFolder (t : FileTree) (p : Path) : Except FileFault FileTree := do
  check p
  return (← t.makeFolders (t.start p) (stepsOf p)).1

/-- Makes the file that the path names, and the folders on the way to it. -/
def addFile (t : FileTree) (p : Path) (c : Content) : Except FileFault FileTree := do
  check p
  match splitLast (stepsOf p) with
  | some (before, _) => (← t.makeFolders (t.start p) before).1.write p c
  | none => t.write p c

def below (t : FileTree) (l : Location) : List Location :=
  (t.entries.map (·.1)).filter fun k => l.isPrefixOf k

/-- Whether everything at and below a location may be taken out of the folder it is in. -/
def isRemovable (t : FileTree) (l : Location) : Bool :=
  (t.below l).all fun k => t.isOpen k.dropLast

/-- Removes what the path leads to, and all below it. Where it leads nowhere nothing is to do. -/
def remove (t : FileTree) (p : Path) : Except FileFault FileTree :=
  match t.resolve p with
  | .ok l =>
    if t.isRemovable l then
      .ok { t with entries := t.entries.filter fun (k, _) => !l.isPrefixOf k }
    else .error .denied
  | .error _ => .ok t

/-- The tree with its root among the entries, so that the root can be changed like all else. -/
def withRoot (t : FileTree) : FileTree :=
  if (t.entries.lookup []).isSome then t else t.put [] newFolder

def setMode (t : FileTree) (l : Location) (mode : Nat) : FileTree :=
  { t with
    entries := t.withRoot.entries.map fun (k, e) => (k, if k = l then { e with mode } else e) }

/-- The names in a folder. -/
def namesIn (t : FileTree) (l : Location) : List String :=
  ((t.below l).filterMap fun k => (k.drop l.length).head?).eraseDups

/-- How far down the tree goes. -/
def depth (t : FileTree) : Nat := (t.entries.map (·.1.length)).foldr max 0

/-- A location and all below it, as far down as this. What is in a folder comes before it. -/
def contentsFirst (t : FileTree) : Nat → Location → List Location
  | 0, l => [l]
  | depth + 1, l =>
    (t.namesIn l).flatMap (fun name => t.contentsFirst depth (l ++ [name])) ++ [l]

def makeReadOnly (t : FileTree) (p : Path) : Except FileFault FileTree := do
  let l ← t.resolve p
  return (t.contentsFirst t.depth l).foldl (fun t k => t.setMode k readOnlyMode) t

/-- What the path leads to and all below it, each with the path that names it. -/
def listing (t : FileTree) (p : Path) : List (Path × Entry) :=
  match t.resolve p with
  | .ok l =>
    t.entries.filterMap fun (k, e) =>
      if l.isPrefixOf k then some ((k.drop l.length).foldl (fun q name => q.join ⟨name⟩) p, e)
      else none
  | .error _ => []

end FileTree

end ModelWorkspace
