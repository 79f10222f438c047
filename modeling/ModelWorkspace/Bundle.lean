import ModelWorkspace.Catalogue
import ModelWorkspace.FileTree

/-! The bundled models: folders below one root that may be read and not written. -/
namespace ModelWorkspace

/-- The place of the bundled models. -/
structure Bundle where
  root : Path
  deriving DecidableEq

namespace Bundle

def folder (b : Bundle) (name : String) : Path := b.root.join ⟨name⟩

def pathFor (b : Bundle) (model : Version) : Path := b.folder (Catalogue.modelFolderFor model)

def defaultPath (b : Bundle) : Path := b.folder Catalogue.baselineFolder

def contains (b : Bundle) (p : Path) : Bool := p.isWithin b.root

/-- Makes a bundled folder read-only. Other paths, and paths that lead nowhere, are left alone. -/
def enforceReadOnly (b : Bundle) (files : FileTree) (p : Path) : FileTree :=
  if b.contains p then
    match files.makeReadOnly p with
    | .ok files => files
    | .error _ => files
  else files

end Bundle

end ModelWorkspace
