import ModelWorkspace.Uri.Basic

/-! Events that ask for a lint pass. -/
namespace ModelWorkspace

/-- A document of the editor. -/
structure Document where
  uri : Uri
  language : String
  deriving DecidableEq

namespace Document

def modelLanguage : String := "metaed"

def modelEnding : String := ".metaed"

/-- Whether the document is a model source: its language and the ending of its path say so. -/
def isModelSource (d : Document) : Bool :=
  d.language == modelLanguage && modelEnding.toList.isSuffixOf d.uri.path.toList

end Document

/-- An event that may ask for a lint pass. -/
inductive Trigger
  | activeEditorChanged (d : Document)
  | textChanged (d : Document)
  | closed (d : Document)
  | command
  | editorReady
  | licenseAccepted
  deriving DecidableEq

namespace Trigger

def document? : Trigger → Option Document
  | activeEditorChanged d | textChanged d | closed d => some d
  | command | editorReady | licenseAccepted => none

/-- Whether the event asks for a pass: a document only does if it is a model source. -/
def isRelevant (t : Trigger) : Bool :=
  match t.document? with
  | some d => d.isModelSource
  | none => true

end Trigger

end ModelWorkspace
