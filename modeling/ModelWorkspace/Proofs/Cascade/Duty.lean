import ModelWorkspace.Proofs.Cascade.Followers

/-! Duties of the followers. A follower whose setting has changed has a duty, and until that is done
it can be seen in the follower: the change is still to be read, or has just been read, or one of the
stages to come does the duty. A follower that waits with nothing left to read has done it. -/
namespace ModelWorkspace.Host

open Cascade (Role)
open Setting (Follower)

/-- What the follower of a role has to bring about. -/
structure Duty where
  role : Role
  /-- What has to be true for a stage that is still to come. -/
  sound : Workbench → Cascade.Stage → Prop
  /-- The stages that bring it about, themselves or by those that they call for. -/
  serving : Cascade.Stage → Bool
  /-- What is brought about. -/
  settled : Workbench → Prop

namespace Duty

/-- The follower has not noticed the latest change of its setting yet, or it is about to do its duty,
or has done it. -/
def Kept (d : Duty) (base : Nat) (w : Workbench) (f : Follower Stage) : Prop :=
  f.HasUnread w.settings.feed ∨ f.phase = .noticed f.key ∨
    (∀ s, .cascade s ∈ f.remaining → d.sound w s) ∧
      (d.role.key ∈ w.settings.feed.since base →
        (∃ s, .cascade s ∈ f.remaining ∧ d.serving s = true) ∨ d.settled w)

/-- What the stages of a role and all the others have to do with a duty. Of a workbench it may be used
what holds at all times. -/
structure Laws (d : Duty) (outside : Setting.Key → Prop) (Q : Workbench → Prop) : Prop where
  fresh : ∀ w, ∀ s ∈ d.role.handler, d.sound w s
  begins : ∃ s ∈ d.role.handler, d.serving s = true
  stays : ∀ {w s}, s.isFor d.role = true → d.sound w s → Q w → Q (s.perform w).1 →
    (∀ t, d.sound w t → d.sound (s.perform w).1 t) ∧ (d.settled w → d.settled (s.perform w).1)
  called : ∀ {w s}, s.isFor d.role = true → d.sound w s → Q w → Q (s.perform w).1 →
    ∀ t ∈ (s.perform w).2, d.sound (s.perform w).1 t
  served : ∀ {w s}, s.isFor d.role = true → d.sound w s → Q w → Q (s.perform w).1 →
    d.serving s = true → (∃ t ∈ (s.perform w).2, d.serving t = true) ∨ d.settled (s.perform w).1
  others : ∀ {w after}, Meanwhile d.role outside w after → Q w → Q after →
    after.settings.get? d.role.key = w.settings.get? d.role.key →
    (∀ t, d.sound w t → d.sound after t) ∧ (d.settled w → d.settled after)

theorem kept_of_handler {d : Duty} {outside : Setting.Key → Prop} {Q : Workbench → Prop}
    (laws : d.Laws outside Q) {base : Nat} {w : Workbench} {f : Follower Stage}
    (starts : f.remaining = d.role.handler.map .cascade) : d.Kept base w f := by
  refine .inr (.inr ⟨fun s mem => ?_, fun _ => .inl ?_⟩)
  · rw [starts, List.mem_map] at mem
    obtain ⟨t, mem, same⟩ := mem
    obtain rfl : t = s := by simpa using same
    exact laws.fresh w t mem
  · obtain ⟨s, mem, serves⟩ := laws.begins
    refine ⟨s, ?_, serves⟩
    rw [starts]
    exact List.mem_map_of_mem mem

/-- What others do makes the setting of the follower a new one, or leaves its duty as it is. -/
theorem Kept.others {d : Duty} {outside : Setting.Key → Prop} {Q : Workbench → Prop}
    (laws : d.Laws outside Q) {base : Nat} {w after : Workbench} {f : Follower Stage}
    (kept : d.Kept base w f) (serves : Serves d.role base w.settings.feed f) (before : Q w)
    (now : Q after) (change : Meanwhile d.role outside w after) : d.Kept base after f := by
  obtain same | ⟨key, value, -, committed⟩ := change.settings
  · obtain ⟨sound, settled⟩ := laws.others change before now (by rw [same])
    rw [Kept, same]
    refine kept.imp_right (Or.imp_right fun ⟨all, done⟩ => ⟨fun s mem => sound s (all s mem), ?_⟩)
    exact fun changed => (done changed).imp_right settled
  · have feed : after.settings.feed = w.settings.feed.raise key := by rw [committed]; rfl
    by_cases own : key = f.key
    · refine .inl ?_
      rw [feed, Follower.hasUnread_raise serves.inside]
      exact .inr own
    · have other : d.role.key ≠ key := fun same => own (same.symm.trans serves.key.symm)
      obtain ⟨sound, settled⟩ := laws.others change before now (by
        rw [committed, Setting.Store.get?_commit, if_neg other])
      rw [Kept, feed, Follower.hasUnread_raise serves.inside,
        Setting.Feed.since_raise (Nat.le_trans serves.begun serves.inside), List.mem_append,
        List.mem_singleton]
      refine kept.imp .inl (Or.imp_right fun ⟨all, done⟩ => ⟨fun s mem => sound s (all s mem), ?_⟩)
      exact fun changed => (done (changed.resolve_right other)).imp_right settled

/-- A stage of the follower does the duty, or leaves it to those that come next. -/
theorem Kept.perform {d : Duty} {outside : Setting.Key → Prop} {Q : Workbench → Prop}
    (laws : d.Laws outside Q) {base : Nat} {w : Workbench} {f : Follower Stage}
    {s : Cascade.Stage} {rest : List Stage} (kept : d.Kept base w f)
    (serves : Serves d.role base w.settings.feed f) (before : Q w) (now : Q (s.perform w).1)
    (phase : f.phase = .handling (.cascade s :: rest)) :
    d.Kept base (s.perform w).1 (f.proceed ((s.perform w).2.map .cascade ++ rest)) := by
  have belongs : s.isFor d.role = true := by
    obtain ⟨c, stages, same, -, own⟩ := serves.handling phase
    obtain rfl : s = c := by simpa using same
    exact own s (List.mem_cons_self ..)
  rw [Kept, Follower.remaining_of_handling phase] at kept
  rw [Kept, Follower.remaining_proceed]
  obtain unread | noticed | ⟨all, done⟩ := kept
  · refine .inl ?_
    rw [Follower.HasUnread, Follower.key_proceed, Follower.position_proceed, serves.key,
      Cascade.mem_since_perform belongs serves.inside, ← serves.key]
    exact unread
  · rw [phase] at noticed
    cases noticed
  · have sound := all s (List.mem_cons_self ..)
    obtain ⟨stays, remains⟩ := laws.stays belongs sound before now
    refine .inr (.inr ⟨fun t mem => ?_, fun changed => ?_⟩)
    · obtain next | later := List.mem_append.1 mem
      · obtain ⟨u, called, same⟩ := List.mem_map.1 next
        obtain rfl : u = t := by simpa using same
        exact laws.called belongs sound before now u called
      · exact stays t (all t (List.mem_cons_of_mem _ later))
    · rw [Cascade.mem_since_perform belongs (Nat.le_trans serves.begun serves.inside)] at changed
      obtain ⟨t, mem, serving⟩ | settled := done changed
      · obtain same | later := List.mem_cons.1 mem
        · obtain rfl : t = s := by simpa using same
          refine (laws.served belongs sound before now serving).imp_left fun calls => ?_
          obtain ⟨u, next, serving⟩ := calls
          exact ⟨u, List.mem_append_left _ (List.mem_map_of_mem next), serving⟩
        · exact .inl ⟨t, List.mem_append_right _ later, serving⟩
      · exact .inr (remains settled)

theorem Kept.advance {d : Duty} {outside : Setting.Key → Prop} {Q : Workbench → Prop}
    (laws : d.Laws outside Q) {base : Nat} {w after : Workbench} {f g : Follower Stage}
    (kept : d.Kept base w f) (serves : Serves d.role base w.settings.feed f) (before : Q w)
    (now : Q after) (advance : Advance w f after g) : d.Kept base after g := by
  cases advance with
  | wait phase nothing => exact kept
  | receive phase received =>
    obtain ⟨key, event, rfl⟩ | ⟨far, rfl⟩ := Follower.receive?_cases received
    · obtain unread | noticed | ⟨-, done⟩ := kept
      · obtain rfl | ahead := Follower.hasUnread_of_event unread event
        · exact .inr (.inl rfl)
        · exact .inl ahead
      · rw [phase] at noticed
        cases noticed
      · refine .inr (.inr ⟨nofun, fun changed => .inr ((done changed).resolve_left ?_)⟩)
        rintro ⟨s, mem, -⟩
        simp [Follower.remaining, phase] at mem
    · exact kept_of_handler laws serves.handler
  | @consider key phase =>
    by_cases own : key = f.key
    · rw [Follower.consider, if_pos own]
      exact kept_of_handler laws serves.handler
    · rw [Follower.consider, if_neg own]
      rw [Kept, Follower.remaining, phase] at kept
      obtain unread | noticed | holds := kept
      · exact .inl unread
      · exact absurd (Setting.Phase.noticed.inj noticed) own
      · exact .inr (.inr holds)
  | finish phase =>
    rw [Kept, Follower.remaining_of_handling phase, phase] at kept
    obtain unread | noticed | holds := kept
    · exact .inl unread
    · cases noticed
    · exact .inr (.inr holds)
  | @perform s rest phase => exact kept.perform laws serves before now phase

theorem Kept.settled {d : Duty} {base : Nat} {w : Workbench} {f : Follower Stage}
    (kept : d.Kept base w f) (waits : f.waits w.settings.feed = true)
    (changed : d.role.key ∈ w.settings.feed.since base) : d.settled w := by
  obtain ⟨phase, read⟩ := Follower.idle_of_waits waits
  rw [Kept, Follower.remaining, phase] at kept
  obtain unread | noticed | ⟨-, done⟩ := kept
  · exact absurd unread read
  · cases noticed
  · refine (done changed).resolve_left ?_
    rintro ⟨s, mem, -⟩
    cases mem

end Duty

/-- Whether the three followers wait, with nothing left to read. -/
def isQuiet (h : Host) (first : Nat) : Bool :=
  [Role.platform, .model, .directory].all fun role =>
    match h.tasks[first + role.seat]? with
    | some (.follower _ _ f) => f.waits h.bench.settings.feed
    | _ => false

theorem waits_of_isQuiet {h : Host} {first token : Nat} (quiet : h.isQuiet first = true)
    {role : Role} {f : Follower Stage}
    (task : h.tasks[first + role.seat]? = some (.follower token none f)) :
    f.waits h.bench.settings.feed = true := by
  rw [isQuiet, List.all_eq_true] at quiet
  have own := quiet role (by cases role <;> decide)
  rwa [task] at own

/-- After every run, in whatever order the followers and those outside took their turns, each follower
keeps its duty. -/
theorem Duty.Laws.kept_of_run {d : Duty} {outside : Setting.Key → Prop} {Q : Workbench → Prop}
    (laws : d.Laws outside Q) {start : Host} {token : Nat} (live : start.isCancelled token = false)
    {moves : List Move} {h : Host}
    (run : (start.followCascade token).suspend.run? moves = some h)
    (fits : ∀ m ∈ moves, m.IsCascade start.tasks.length outside)
    (always : (start.followCascade token).suspend.Throughout moves Q) :
    ∃ f, h.tasks[start.tasks.length + d.role.seat]? = some (.follower token none f) ∧
      d.Kept start.bench.settings.feed.size h.bench f := by
  have bench : (start.followCascade token).suspend.bench = start.bench :=
    (followCascade_frame start token).2.1
  exact ((atWork_followCascade live).invariant
    d.role (Q := Q) (P := fun _ w f => d.Kept start.bench.settings.feed.size w f)
    (fun f task => by
      obtain rfl : newcomer d.role start.bench.settings.feed = f := by
        simpa using (tasks_followCascade start token d.role).symm.trans task
      refine .inr (.inr ⟨nofun, ?_⟩)
      rw [bench, Setting.Feed.since_size]
      exact nofun)
    (fun _ h after f g _ _ _ _ serves before now advance kept =>
      kept.advance laws serves before now advance)
    (fun _ w after f _ serves before now change kept =>
      kept.others laws serves before now change)
    moves h run fits always).2

/-- If the setting of the follower was changed since the followers started and all of them wait, its
duty is done. -/
theorem Duty.Laws.settled_of_run {d : Duty} {outside : Setting.Key → Prop} {Q : Workbench → Prop}
    (laws : d.Laws outside Q) {start : Host} {token : Nat} (live : start.isCancelled token = false)
    {moves : List Move} {h : Host}
    (run : (start.followCascade token).suspend.run? moves = some h)
    (fits : ∀ m ∈ moves, m.IsCascade start.tasks.length outside)
    (always : (start.followCascade token).suspend.Throughout moves Q)
    (quiet : h.isQuiet start.tasks.length = true)
    (changed : d.role.key ∈ h.bench.settings.feed.since start.bench.settings.feed.size) :
    d.settled h.bench := by
  obtain ⟨f, task, kept⟩ := laws.kept_of_run live run fits always
  exact kept.settled (waits_of_isQuiet quiet task) changed

end ModelWorkspace.Host
