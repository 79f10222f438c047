/-! The settings that exist, and their names in the settings file. -/
namespace ModelWorkspace.Setting

/-- A setting. -/
inductive Key
  | modelDirectory
  | platformVersion
  | modelVersion
  | deploymentDirectory
  | suppressDeleteOnDeploy
  | acceptedLicense
  | extendedAccess
  | telemetryConsent
  deriving DecidableEq, Repr

namespace Key

def all : List Key :=
  [ .modelDirectory, .platformVersion, .modelVersion, .deploymentDirectory,
    .suppressDeleteOnDeploy, .acceptedLicense, .extendedAccess, .telemetryConsent ]

def name : Key → String
  | .modelDirectory => "modelDirectory"
  | .platformVersion => "platformVersion"
  | .modelVersion => "modelVersion"
  | .deploymentDirectory => "deploymentDirectory"
  | .suppressDeleteOnDeploy => "suppressDeleteOnDeploy"
  | .acceptedLicense => "acceptedLicense"
  | .extendedAccess => "extendedAccess"
  | .telemetryConsent => "telemetryConsent"

def ofName? (s : String) : Option Key := all.find? fun k => k.name == s

theorem ofName?_name (k : Key) : ofName? k.name = some k := by cases k <;> decide

end Key

end ModelWorkspace.Setting
