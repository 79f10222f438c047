import ModelWorkspace.Proofs.Setting.Writing
import ModelWorkspace.Setting.Follower

/-! What a follower has still to read. No change of its setting gets lost: a follower that cannot
receive it any more is told so, and reacts to that. -/
namespace ModelWorkspace.Setting

namespace Feed

/-- The changes from a position on, those included that are not kept any more. -/
def since (f : Feed) (position : Nat) : List Key := f.events.drop position

@[simp] theorem since_size (f : Feed) : f.since f.size = [] := by simp [since, size]

theorem since_raise {f : Feed} {position : Nat} (seen : position ≤ f.size) (key : Key) :
    (f.raise key).since position = f.since position ++ [key] := by
  exact List.drop_append_of_le_length seen

theorem since_eq_cons {f : Feed} {position : Nat} {key : Key}
    (event : f.events[position]? = some key) :
    f.since position = key :: f.since (position + 1) := by
  obtain ⟨inside, rfl⟩ := List.getElem?_eq_some_iff.1 event
  exact List.drop_eq_getElem_cons inside

theorem since_of_size_le {f : Feed} {position : Nat} (seen : f.size ≤ position) :
    f.since position = [] := List.drop_eq_nil_of_le seen

end Feed

theorem Store.Grows.get?_eq {s t : Store} (grows : s.Grows t) {key : Key}
    (unchanged : key ∉ t.feed.since s.feed.size) : t.get? key = s.get? key := by
  obtain ⟨news, events, same⟩ := grows
  have fresh : t.feed.since s.feed.size = news := by
    rw [Feed.since, events, Feed.size, List.drop_left]
  exact same key (fresh ▸ unchanged)

namespace Follower

variable {σ : Type}

@[simp] theorem key_proceed (f : Follower σ) (stages : List σ) :
    (f.proceed stages).key = f.key := by cases stages <;> rfl

@[simp] theorem handler_proceed (f : Follower σ) (stages : List σ) :
    (f.proceed stages).handler = f.handler := by cases stages <;> rfl

@[simp] theorem position_proceed (f : Follower σ) (stages : List σ) :
    (f.proceed stages).position = f.position := by cases stages <;> rfl

/-- The stages that the follower has still to go through. -/
def remaining (f : Follower σ) : List σ :=
  match f.phase with
  | .handling rest => rest
  | _ => []

@[simp] theorem remaining_proceed (f : Follower σ) (stages : List σ) :
    (f.proceed stages).remaining = stages := by cases stages <;> rfl

theorem remaining_of_handling {f : Follower σ} {rest : List σ} (phase : f.phase = .handling rest) :
    f.remaining = rest := by simp only [remaining, phase]

/-- A change of its setting lies ahead of the follower. -/
def HasUnread (f : Follower σ) (feed : Feed) : Prop := f.key ∈ feed.since f.position

theorem receive?_cases {f g : Follower σ} {feed : Feed} (received : f.receive? feed = some g) :
    (∃ key, feed.events[f.position]? = some key ∧
        g = { f with position := f.position + 1, phase := .noticed key }) ∨
      (f.position + Feed.capacity < feed.size ∧
        g = { f with position := feed.size - Feed.capacity, phase := .handling f.handler }) := by
  unfold receive? Feed.receive at received
  by_cases far : f.position + Feed.capacity < feed.size
  · simp only [far, if_true, Option.some.injEq] at received
    exact .inr ⟨far, received.symm⟩
  · simp only [far, if_false] at received
    cases event : feed.events[f.position]? with
    | none => simp [event] at received
    | some key =>
      simp only [event, Option.map_some, Option.some.injEq] at received
      exact .inl ⟨key, rfl, received.symm⟩

theorem hasUnread_of_event {f : Follower σ} {feed : Feed} {key : Key} {phase : Phase σ}
    (unread : f.HasUnread feed) (event : feed.events[f.position]? = some key) :
    key = f.key ∨ HasUnread { f with position := f.position + 1, phase } feed := by
  rw [HasUnread, Feed.since_eq_cons event, List.mem_cons] at unread
  exact unread.imp_left Eq.symm

theorem hasUnread_raise {f : Follower σ} {feed : Feed} (seen : f.position ≤ feed.size) (key : Key) :
    f.HasUnread (feed.raise key) ↔ f.HasUnread feed ∨ key = f.key := by
  rw [HasUnread, Feed.since_raise seen, List.mem_append, List.mem_singleton]
  exact or_congr_right eq_comm

/-- Whether the follower has done all that it had to do, and has nothing left to read. -/
def waits (f : Follower σ) (feed : Feed) : Bool :=
  match f.phase with
  | .listening => (f.receive? feed).isNone
  | _ => false

theorem idle_of_waits {f : Follower σ} {feed : Feed} (waits : f.waits feed = true) :
    f.phase = .listening ∧ ¬ f.HasUnread feed := by
  unfold Follower.waits at waits
  split at waits
  · rename_i phase
    rw [Option.isNone_iff_eq_none, receive?_eq_none_iff] at waits
    refine ⟨phase, ?_⟩
    rw [HasUnread, Feed.since_of_size_le waits]
    exact List.not_mem_nil
  · cases waits

end Follower

end ModelWorkspace.Setting
