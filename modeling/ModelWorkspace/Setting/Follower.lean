import ModelWorkspace.Setting.Feed

/-! Followers: readers of the feed that react to the changes of one setting. Between an event and the
look at its setting a follower lets all others go on, so what was written together is there when
it reacts. A follower that missed events reacts once, since one of them may have been its own. -/
namespace ModelWorkspace.Setting

/-- How far a follower is. -/
inductive Phase (σ : Type)
  | listening
  /-- It has received the change of a setting and not yet looked whether it is its own. -/
  | noticed (key : Key)
  /-- It reacts; these stages are still to come. -/
  | handling (rest : List σ)
  | stopped

/-- A follower of a setting. The stages of its handler are of any kind. -/
structure Follower (σ : Type) where
  key : Key
  handler : List σ
  /-- Its position in the feed. -/
  position : Nat
  phase : Phase σ := .listening

namespace Follower

variable {σ : Type}

def attend (feed : Feed) (key : Key) (handler : List σ) : Follower σ :=
  { key, handler, position := feed.size }

def receive? (f : Follower σ) (feed : Feed) : Option (Follower σ) :=
  match feed.receive f.position with
  | none => none
  | some (.changed key, position) => some { f with position, phase := .noticed key }
  | some (.missed _, position) => some { f with position, phase := .handling f.handler }

theorem receive?_eq_none_iff (f : Follower σ) (feed : Feed) :
    f.receive? feed = none ↔ feed.size ≤ f.position := by
  rw [← Feed.receive_eq_none_iff]
  unfold receive?
  split <;> simp_all

def consider (f : Follower σ) (key : Key) : Follower σ :=
  { f with phase := if key = f.key then .handling f.handler else .listening }

/-- Goes on with these stages; after the last one it listens again. -/
def proceed (f : Follower σ) : List σ → Follower σ
  | [] => { f with phase := .listening }
  | rest => { f with phase := .handling rest }

def stop (f : Follower σ) : Follower σ := { f with phase := .stopped }

end Follower

end ModelWorkspace.Setting
