import ModelWorkspace.Lint.Trigger

/-! The quiet period in front of a lint pass. Each relevant trigger starts it anew; when it is over
one pass is due. Times are in milliseconds. -/
namespace ModelWorkspace

/-- When the quiet period ends, if one is running. -/
structure QuietPeriod where
  deadline? : Option Nat := none
  deriving DecidableEq

namespace QuietPeriod

/-- How long it has to be quiet. -/
def length : Nat := 500

def receive (q : QuietPeriod) (t : Trigger) (now : Nat) : QuietPeriod :=
  if t.isRelevant then ⟨some (now + length)⟩ else q

@[simp] theorem receive_of_relevant (q : QuietPeriod) (t : Trigger) (now : Nat)
    (h : t.isRelevant = true) : q.receive t now = ⟨some (now + length)⟩ := by
  simp [receive, h]

@[simp] theorem receive_of_irrelevant (q : QuietPeriod) (t : Trigger) (now : Nat)
    (h : t.isRelevant = false) : q.receive t now = q := by
  simp [receive, h]

def isOver (q : QuietPeriod) (now : Nat) : Bool := q.deadline?.any (· ≤ now)

def finish (_ : QuietPeriod) : QuietPeriod := ⟨none⟩

end QuietPeriod

end ModelWorkspace
