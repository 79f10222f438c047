import ModelWorkspace.Setting.Store
import ModelWorkspace.Version.Reader

/-! What the settings say. A setting that is not set, or holds a value of another kind, reads as the
empty text or as false. -/
namespace ModelWorkspace.Setting.Store

open ModelWorkspace.Json (Value)

def text (s : Store) (key : Key) : String :=
  match s.get? key with
  | some (.string t) => t
  | _ => ""

def flag (s : Store) (key : Key) : Bool :=
  match s.get? key with
  | some (.bool b) => b
  | _ => false

def modelDirectory (s : Store) : String := s.text .modelDirectory
def platformVersion (s : Store) : String := s.text .platformVersion
def modelVersion (s : Store) : String := s.text .modelVersion
def deploymentDirectory (s : Store) : String := s.text .deploymentDirectory
def telemetryConsent (s : Store) : String := s.text .telemetryConsent
def suppressDeleteOnDeploy (s : Store) : Bool := s.flag .suppressDeleteOnDeploy
def acceptedLicense (s : Store) : Bool := s.flag .acceptedLicense
def extendedAccess (s : Store) : Bool := s.flag .extendedAccess

/-- The release of the configured platform: its pre-release and build are dropped. -/
def platform? (s : Store) : Option Version :=
  (Version.normalize? s.platformVersion).map Version.release

def model? (s : Store) : Option Version := Version.normalize? s.modelVersion

end ModelWorkspace.Setting.Store
