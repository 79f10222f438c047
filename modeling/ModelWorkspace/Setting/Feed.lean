import ModelWorkspace.Setting.Key

/-! The feed of changes. Every change of a setting is one event. A reader keeps a position in the
feed; only the last 64 events are kept, and a reader who is further behind is told how many it
missed and goes on with the oldest one that is left. -/
namespace ModelWorkspace.Setting

/-- The changes so far, the oldest one first. -/
structure Feed where
  events : List Key := []
  deriving DecidableEq

/-- What a reader receives. -/
inductive Receipt
  | changed (key : Key)
  | missed (count : Nat)
  deriving DecidableEq

namespace Feed

/-- How many events are kept for the readers. -/
def capacity : Nat := 64

def size (f : Feed) : Nat := f.events.length

def raise (f : Feed) (key : Key) : Feed := ⟨f.events ++ [key]⟩

@[simp] theorem size_raise (f : Feed) (key : Key) : (f.raise key).size = f.size + 1 := by
  simp [size, raise]

/-- What a reader at the position receives, and its position after that. -/
def receive (f : Feed) (position : Nat) : Option (Receipt × Nat) :=
  if position + capacity < f.size then
    some (.missed (f.size - capacity - position), f.size - capacity)
  else (f.events[position]?).map fun key => (.changed key, position + 1)

@[simp] theorem receive_size (f : Feed) : f.receive f.size = none := by
  simp [receive, size]

theorem receive_eq_none_iff (f : Feed) (position : Nat) :
    f.receive position = none ↔ f.size ≤ position := by
  unfold receive
  split
  · rename_i h
    simp only [reduceCtorEq, false_iff]
    omega
  · simp [size]

def lost (f : Feed) (position : Nat) : Nat := f.size - capacity - position

def unread (f : Feed) (position : Nat) : List Key := f.events.drop (max position (f.size - capacity))

end Feed

end ModelWorkspace.Setting
