import ModelWorkspace.Problem.Diagnostic

/-! The problem that stays in the editor until the license is accepted. -/
namespace ModelWorkspace.License

/-- The document that the problem belongs to. No file has this address. -/
def uri : Uri := ⟨"modelsync:License%20Needs%20Accepting"⟩

def message : String := "Please accept the license agreement in workspace settings"

def diagnostic : Diagnostic := ⟨⟨⟨0, 0⟩, ⟨0, 0⟩⟩, .error, message⟩

def publication (accepted : Bool) : Publication := ⟨uri, if accepted then [] else [diagnostic]⟩

end ModelWorkspace.License
