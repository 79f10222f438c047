import ModelWorkspace.Path
import ModelWorkspace.Uri.Basic

/-! The addresses of files. Every byte that is not a plain character of a path is written as a
percent sign and two hexadecimal digits. -/
namespace ModelWorkspace.Uri

/-- The printable ASCII characters that are encoded in a path. -/
def reserved : List Char :=
  ['"', '#', '%', '/', '<', '>', '?', '\\', '\x60', '\x7b', '\x7d']

def isPlain (b : UInt8) : Bool :=
  0x20 < b && b < 0x7f && !reserved.contains (Char.ofNat b.toNat)

def upperHex (n : Nat) : Char := (Nat.digitChar n).toUpper

def encodeByte (b : UInt8) : List Char :=
  if isPlain b then [Char.ofNat b.toNat]
  else ['%', upperHex (b.toNat / 16), upperHex (b.toNat % 16)]

def encodeName (s : String) : List Char := s.toUTF8.toList.flatMap encodeByte

def encodeComponent : Path.Component → List Char
  | .root | .here => []
  | .up => ['/', '.', '.']
  | .name s => '/' :: encodeName s

/-- The address of the file at an absolute path. A relative path has none. -/
def ofPath? (p : Path) : Option Uri :=
  if p.isAbsolute then
    let place := p.components.flatMap encodeComponent
    some ⟨String.ofList ("file://".toList ++ if place.isEmpty then ['/'] else place)⟩
  else none

end ModelWorkspace.Uri
