import ModelWorkspace.Proofs.Session.Leaving

/-! What followers leave undone when their session is stopped. A follower that ends has done its duty,
or leaves a change of its setting unread; whatever the others still bring about does not spoil what
it has done, unless it changes its setting. -/
namespace ModelWorkspace

open Cascade (Role)
open Setting (Follower)

theorem Setting.Feed.since_mono (feed : Feed) {p q : Nat} (earlier : p ≤ q) :
    feed.since q ⊆ feed.since p := List.drop_subset_drop_left _ earlier

namespace Host

/-! ### Duties -/

namespace Duty

variable {d : Duty} {outside : Setting.Key → Prop} {Q : Workbench → Prop}

/-- The follower keeps its duty, which is done already unless its setting has changed. -/
structure Held (d : Duty) (base : Nat) (w : Workbench) (f : Follower Stage) : Prop where
  kept : d.Kept base w f
  standing : d.role.key ∈ w.settings.feed.since base ∨ d.settled w

/-- What others do changes the setting of the follower, or leaves what is done as it is. -/
theorem Laws.standing (laws : d.Laws outside Q) {w after : Workbench}
    (change : Meanwhile d.role outside w after) (before : Q w) (now : Q after) {p : Nat}
    (inside : p ≤ w.settings.feed.size)
    (standing : d.role.key ∈ w.settings.feed.since p ∨ d.settled w) :
    d.role.key ∈ after.settings.feed.since p ∨ d.settled after := by
  obtain same | ⟨key, value, -, committed⟩ := change.settings
  · rw [same]
    exact standing.imp_right (laws.others change before now (by rw [same])).2
  · rw [committed, Setting.Store.feed_commit, Setting.Feed.since_raise inside, List.mem_append,
      List.mem_singleton]
    by_cases own : d.role.key = key
    · exact .inl (.inr own)
    · refine standing.imp .inl (laws.others change before now ?_).2
      rw [committed, Setting.Store.get?_commit, if_neg own]

theorem Held.others (laws : d.Laws outside Q) {base : Nat} {w after : Workbench}
    {f : Follower Stage} (held : d.Held base w f) (serves : Serves d.role base w.settings.feed f)
    (before : Q w) (now : Q after) (change : Meanwhile d.role outside w after) :
    d.Held base after f where
  kept := held.kept.others laws serves before now change
  standing := laws.standing change before now (Nat.le_trans serves.begun serves.inside) held.standing

/-- Notices make no difference to what the follower has to bring about. -/
def IgnoresNotices (d : Duty) : Prop :=
  ∀ w notices, (∀ s, d.sound w s → d.sound { w with notices } s) ∧
    (d.settled w → d.settled { w with notices })

theorem Kept.notices (ignores : d.IgnoresNotices) {base : Nat} {w v : Workbench}
    {f : Follower Stage} (kept : d.Kept base w f) (only : w.OnlyNotices v) : d.Kept base v f := by
  obtain ⟨notices, rfl⟩ := only
  obtain ⟨sound, settled⟩ := ignores w notices
  exact kept.imp_right (Or.imp_right fun done =>
    ⟨fun s mem => sound s (done.1 s mem), fun changed => (done.2 changed).imp_right settled⟩)

theorem Held.notices (ignores : d.IgnoresNotices) {base : Nat} {w v : Workbench}
    {f : Follower Stage} (held : d.Held base w f) (only : w.OnlyNotices v) : d.Held base v f := by
  refine ⟨held.kept.notices ignores only, ?_⟩
  obtain ⟨notices, rfl⟩ := only
  exact held.standing.imp_right (ignores w notices).2

theorem Held.advance (laws : d.Laws outside Q) {base : Nat} {w after : Workbench}
    {f g : Follower Stage} (held : d.Held base w f)
    (serves : Serves d.role base w.settings.feed f) (before : Q w) (now : Q after)
    (advance : Advance w f after g) : d.Held base after g := by
  refine ⟨held.kept.advance laws serves before now advance, ?_⟩
  cases advance with
  | @perform s rest phase =>
    obtain ⟨c, stages, same, -, own⟩ := serves.handling phase
    obtain rfl : s = c := by simpa using same
    have belongs := own s List.mem_cons_self
    rw [Cascade.mem_since_perform belongs (Nat.le_trans serves.begun serves.inside)]
    obtain changed | settled := held.standing
    · exact .inl changed
    · obtain unread | noticed | ⟨sound, -⟩ := held.kept
      · rw [Follower.HasUnread, serves.key] at unread
        exact .inl (Setting.Feed.since_mono _ serves.begun unread)
      · rw [phase] at noticed
        cases noticed
      · rw [Follower.remaining_of_handling phase] at sound
        exact .inr ((laws.stays belongs (sound s List.mem_cons_self) before now).2 settled)
  | _ => exact held.standing

/-- A follower that listens has done its duty, or has still to read of a change. -/
theorem Held.unread_or_settled {base : Nat} {w : Workbench} {f : Follower Stage}
    (held : d.Held base w f) (key : f.key = d.role.key) (phase : f.phase = .listening) :
    d.role.key ∈ w.settings.feed.since f.position ∨ d.settled w := by
  obtain unread | noticed | ⟨-, done⟩ := held.kept
  · rw [Follower.HasUnread, key] at unread
    exact .inl unread
  · rw [phase] at noticed
    cases noticed
  · refine .inr (held.standing.elim (fun changed => (done changed).resolve_left ?_) id)
    rintro ⟨s, mem, -⟩
    simp [Follower.remaining, phase] at mem

end Duty

theorem Advance.position_le {w after : Workbench} {f g : Follower Stage}
    (advance : Advance w f after g) : f.position ≤ g.position := by
  cases advance with
  | wait phase nothing => exact Nat.le_refl _
  | receive phase received =>
    obtain ⟨key, -, rfl⟩ | ⟨far, rfl⟩ := Follower.receive?_cases received
    · exact Nat.le_succ _
    · exact Nat.le_sub_of_add_le (Nat.le_of_lt far)
  | @consider key phase =>
    unfold Follower.consider
    exact Nat.le_refl _
  | finish phase => exact Nat.le_of_eq (Follower.position_proceed f _).symm
  | perform phase => exact Nat.le_of_eq (Follower.position_proceed f _).symm

/-! ### Whole runs -/

/-- The follower in this place has read of all the changes of the setting that the feed holds. -/
def hasRead (h : Host) (id : Nat) (key : Setting.Key) (feed : Setting.Feed) : Bool :=
  match h.tasks[id]? with
  | some (.follower _ _ f) => !(feed.since f.position).contains key
  | _ => false

/-- The follower of this role, if the session has one, had at some time read of all the changes of its
setting that the feed holds. -/
def HadRead (start : Host) (events : List Event) (s : Session) (role : Role)
    (feed : Setting.Feed) : Prop :=
  ∀ id, s.followers[role.seat]? = some id →
    ∃ mid, start.Visits events mid ∧ mid.hasRead id role.key feed = true

/-- The follower in this place never read beyond this position. -/
def ReadUpTo (start : Host) (events : List Event) (id p : Nat) : Prop :=
  ∀ mid token requests f, start.Visits events mid →
    mid.tasks[id]? = some (.follower token requests f) → f.position ≤ p

theorem ReadUpTo.concat {start k : Host} {events : List Event} {e : Event} {id p q : Nat}
    (reads : start.ReadUpTo events id p) (later : p ≤ q)
    (run : start.after? (events ++ [e]) = some k)
    (now : ∀ token requests f, k.tasks[id]? = some (.follower token requests f) → f.position ≤ q) :
    start.ReadUpTo (events ++ [e]) id q := by
  intro mid token requests f visits task
  obtain before | rfl := visits_concat run visits
  · exact Nat.le_trans (reads mid token requests f before task) later
  · exact now token requests f task

/-- The follower of a duty is in its place and holds it, or has left it; and then it is done, or the
follower left a change of its setting unread. -/
inductive Attending (d : Duty) (first token base : Nat) (start : Host) (events : List Event)
    (h : Host) : Prop
  | present {f : Follower Stage}
      (task : h.tasks[first + d.role.seat]? = some (.follower token none f))
      (held : d.Held base h.bench f)
      (reads : start.ReadUpTo events (first + d.role.seat) f.position)
  | gone {p : Nat} (task : h.tasks[first + d.role.seat]? = some .ended)
      (inside : p ≤ h.bench.settings.feed.size)
      (reads : start.ReadUpTo events (first + d.role.seat) p)
      (left : d.role.key ∈ h.bench.settings.feed.since p ∨ d.settled h.bench)

section Runs

variable {d : Duty} {first token base : Nat} {s : Session} {start h k : Host} {initial : Workbench}
  {events : List Event}

theorem Attending.event {Q : Workbench → Prop} {outside : Setting.Key → Prop} {e : Event}
    (laws : d.Laws outside Q) (ignores : d.IgnoresNotices)
    (attending : Attending d first token base start events h)
    (inPlace : InPlace first token base s h.scene) (before : Q h.bench) (now : Q k.bench)
    (seen : Seen d.role first token outside h.scene k.scene)
    (run : start.after? (events ++ [e]) = some k) :
    Attending d first token base start (events ++ [e]) k := by
  have present {g : Follower Stage} {p : Nat}
      (task : k.tasks[first + d.role.seat]? = some (.follower token none g))
      (held : d.Held base k.bench g) (reads : start.ReadUpTo events (first + d.role.seat) p)
      (later : p ≤ g.position) : Attending d first token base start (events ++ [e]) k := by
    refine .present task held (reads.concat later run fun _ _ g' here => ?_)
    obtain ⟨-, -, rfl⟩ : _ ∧ _ ∧ g = g' := by simpa [task] using here
    exact Nat.le_refl _
  have gone {p : Nat} (task : k.tasks[first + d.role.seat]? = some .ended)
      (inside : p ≤ k.bench.settings.feed.size)
      (reads : start.ReadUpTo events (first + d.role.seat) p)
      (left : d.role.key ∈ k.bench.settings.feed.since p ∨ d.settled k.bench) :
      Attending d first token base start (events ++ [e]) k :=
    .gone task inside (reads.concat (Nat.le_refl _) run fun _ _ _ here => by
      cases task.symm.trans here) left
  cases attending with
  | @present f task held reads =>
    have serves := inPlace.serves task
    cases seen with
    | @own f' g here advance next =>
      obtain rfl : f = f' := by simpa using task.symm.trans here
      exact present next (held.advance laws serves before now advance) reads advance.position_le
    | @left f' here phase bench next =>
      obtain rfl : f = f' := by simpa using task.symm.trans here
      have same : k.bench = h.bench := bench
      exact gone next (same ▸ serves.inside) reads
        (same ▸ held.unread_or_settled serves.key phase)
    | others change next =>
      exact present (next.trans task) (held.others laws serves before now change) reads
        (Nat.le_refl _)
    | notices bench next =>
      exact present (next.trans task) (held.notices ignores bench) reads (Nat.le_refl _)
  | @gone p ended inside reads left =>
    cases seen with
    | own task _ _ => cases task.symm.trans ended
    | left task _ _ _ => cases task.symm.trans ended
    | others change next =>
      exact gone (next.trans ended) (Nat.le_trans inside change.size_le) reads
        (laws.standing change before now inside left)
    | notices bench next =>
      obtain ⟨notices, same⟩ := bench
      replace same : k.bench = { h.bench with notices } := same
      refine gone (next.trans ended) (same ▸ inside) reads (same ▸ left.imp_right ?_)
      exact (ignores h.bench notices).2

theorem AtHome.passing {x y : Scene} (home : AtHome initial x.bench)
    (steady : initial.Steady y.bench)
    (passing : Passing first token (· = .platformVersion) x y) : AtHome initial y.bench := by
  cases passing with
  | aside bench seats => exact ⟨steady, home.housed.notices bench⟩
  | work task advance tasks => exact home.advance steady advance
  | leave task phase bench tasks => exact bench ▸ home
  | write allowed written tasks =>
    subst allowed
    exact home.write steady written

/-- The session stays on its way, the settings can be used at all times, and the follower attends to
its duty. -/
theorem InPlace.attends (laws : d.Laws (· = .platformVersion) (AtHome initial))
    (ignores : d.IgnoresNotices) (inPlace : InPlace first token base s start.scene)
    (home : AtHome initial start.bench)
    (held : ∀ f, start.tasks[first + d.role.seat]? = some (.follower token none f) →
      d.Held base start.bench f)
    (settled : d.settled start.bench) (run : start.after? events = some k)
    (writes : ∀ e ∈ events, e.WritesOnly (· = .platformVersion))
    (steady : ∀ mid, start.Visits events mid → initial.Steady mid.bench) :
    InPlace first token base s k.scene ∧ AtHome initial k.bench ∧
      Attending d first token base start events k := by
  refine after?_induction_of_visits (Q := fun mid => initial.Steady mid.bench) (P := fun events k =>
    InPlace first token base s k.scene ∧ AtHome initial k.bench ∧
      Attending d first token base start events k)
    (fun _ => ⟨inPlace, home, ?_⟩)
    (fun events h e k run happens _ now ⟨inPlace, home, attending⟩ => ?_) run writes steady
  · obtain ⟨f, task, serves⟩ | ended := inPlace.seat d.role
    · refine .present task (held f task) fun mid _ _ g visits here => ?_
      obtain rfl := visits_nil visits
      obtain ⟨-, -, rfl⟩ : _ ∧ _ ∧ f = g := by simpa using task.symm.trans here
      exact Nat.le_refl _
    · refine .gone ended (Nat.zero_le _) (fun mid _ _ g visits here => ?_) (.inr settled)
      obtain rfl := visits_nil visits
      cases ended.symm.trans here
  · obtain ⟨passing, stays⟩ := inPlace.happens happens
    have goesOn := home.passing now passing
    exact ⟨stays, goesOn, attending.event laws ignores inPlace home goesOn
      (inPlace.seen passing d.role) run⟩

/-- Once the session has ended, a duty is done if its follower had read of all changes. -/
theorem Attending.settled (attending : Attending d first token base start events k)
    (gone : Gone first k.scene)
    (read : ∃ mid, start.Visits events mid ∧
      mid.hasRead (first + d.role.seat) d.role.key k.bench.settings.feed = true) :
    d.settled k.bench := by
  cases attending with
  | present task _ _ => cases task.symm.trans (gone d.role)
  | gone _ _ reads left =>
    obtain ⟨mid, visits, all⟩ := read
    unfold hasRead at all
    split at all
    · rename_i f task
      have unchanged : d.role.key ∉ k.bench.settings.feed.since f.position := by simpa using all
      refine left.resolve_left fun changed => unchanged ?_
      exact Setting.Feed.since_mono _ (reads mid _ _ f visits task) changed
    · cases all

theorem InPlace.gone {x : Scene} (inPlace : InPlace first token base s x)
    (ended : x.session = none) (rests : x.tasks[Host.main]? = some (.routine [])) :
    Gone first x := by
  obtain ⟨stages, task, remains⟩ := inPlace.main
  have nothing : stages = [] := by simpa using task.symm.trans rests
  cases remains with
  | arriving _ _ _ => simp at nothing
  | running session | joining session | joined session _ => cases ended.symm.trans session
  | ended _ gone => exact gone

end Runs

end Host

end ModelWorkspace
