import Mathlib.Combinatorics.Enumerative.DoubleCounting
import ModelWorkspace.Proofs.Cascade.Balance
import ModelWorkspace.Proofs.Cascade.Budget

/-! What a change causes. While no follower misses a change, every handler runs for one change of its
setting, and does one thing for it at most; so all that is done for a change from outside is one
chain of deeds, with one deed of a kind. -/
namespace ModelWorkspace

open Cascade (Role)
open Setting (Follower Feed)

namespace Host

open Cascade (Act)

/-- What the handler for a setting does, if there is one. -/
def actOf? : Setting.Key → Option Act
  | .platformVersion => some (.write .modelVersion)
  | .modelVersion => some (.write .modelDirectory)
  | .modelDirectory => some .replaceFolder
  | _ => none

/-- The deed was done for the change at this place, or for a change that such a deed raised. -/
inductive Causes (ds : List Deed) (index : Nat) : Deed → Prop
  | direct {d : Deed} (mem : d ∈ ds) (cause : d.cause = index) : Causes ds index d
  | next {d e : Deed} (earlier : Causes ds index d) (mem : e ∈ ds)
      (raised : d.raised = some e.cause) : Causes ds index e

/-- A deed and its places in the feed. -/
structure Deed.Fits (base : Nat) (feed : Feed) (d : Deed) : Prop where
  begun : base ≤ d.cause
  cause : feed.events[d.cause]? = some d.handler
  act : actOf? d.handler = some d.act
  raised : ∀ i, d.raised = some i →
    d.cause < i ∧ ∃ key, d.act = .write key ∧ feed.events[i]? = some key

/-- Every event is known to come from outside or from a deed, and no two deeds have one cause. -/
structure Traced (base : Nat) (feed : Feed) (cs : List OuterChange) (ds : List Deed) : Prop where
  known : ∀ i, base ≤ i → i < feed.size → (∃ c ∈ cs, c.index = i) ∨ ∃ d ∈ ds, d.raised = some i
  outer : ∀ c ∈ cs, feed.events[c.index]? = some c.key
  fits : ∀ d ∈ ds, d.Fits base feed
  once : (ds.map Deed.cause).Nodup

/-- What a follower is about to do is for the change that it has just read. -/
structure Reading (base : Nat) (feed : Feed) (ds : List Deed) (f : Follower Stage) : Prop where
  past : ∀ d ∈ ds, d.handler = f.key → d.cause < f.position
  plan : planned f ≤ 1
  ahead : 0 < wonders f + planned f → ∀ d ∈ ds, d.handler = f.key → d.cause + 1 < f.position
  noticed : ∀ key, f.phase = .noticed key →
    base < f.position ∧ feed.events[f.position - 1]? = some key
  handling : f.remaining ≠ [] → base < f.position ∧ feed.events[f.position - 1]? = some f.key

section Step

variable {base : Nat} {feed more : Feed} {cs : List OuterChange} {ds : List Deed}

theorem event_of_prefix (longer : feed.events <+: more.events) {i : Nat} {key : Setting.Key}
    (event : feed.events[i]? = some key) : more.events[i]? = some key := by
  obtain ⟨news, same⟩ := longer
  obtain ⟨inside, -⟩ := List.getElem?_eq_some_iff.1 event
  rw [← same, List.getElem?_append_left inside]
  exact event

theorem Deed.Fits.later {d : Deed} (fits : d.Fits base feed)
    (longer : feed.events <+: more.events) : d.Fits base more where
  begun := fits.begun
  cause := event_of_prefix longer fits.cause
  act := fits.act
  raised := fun i raised => by
    obtain ⟨before, key, act, event⟩ := fits.raised i raised
    exact ⟨before, key, act, event_of_prefix longer event⟩

/-- New events come with what they are from, and a new deed has a cause of its own. -/
theorem Traced.add (traced : Traced base feed cs ds) (longer : feed.events <+: more.events)
    {changes : List OuterChange} {added : List Deed}
    (known : ∀ i, feed.size ≤ i → i < more.size →
      (∃ c ∈ changes, c.index = i) ∨ ∃ d ∈ added, d.raised = some i)
    (outer : ∀ c ∈ changes, more.events[c.index]? = some c.key)
    (fits : ∀ d ∈ added, d.Fits base more) (once : (added.map Deed.cause).Nodup)
    (fresh : ∀ e ∈ ds, ∀ d ∈ added, e.cause ≠ d.cause) :
    Traced base more (cs ++ changes) (ds ++ added) where
  known := fun i begun inside => by
    by_cases old : i < feed.size
    · obtain ⟨c, mem, same⟩ | ⟨d, mem, same⟩ := traced.known i begun old
      · exact .inl ⟨c, List.mem_append_left _ mem, same⟩
      · exact .inr ⟨d, List.mem_append_left _ mem, same⟩
    · obtain ⟨c, mem, same⟩ | ⟨d, mem, same⟩ := known i (Nat.le_of_not_lt old) inside
      · exact .inl ⟨c, List.mem_append_right _ mem, same⟩
      · exact .inr ⟨d, List.mem_append_right _ mem, same⟩
  outer := fun c mem => by
    obtain before | new := List.mem_append.1 mem
    · exact event_of_prefix longer (traced.outer c before)
    · exact outer c new
  fits := fun d mem => by
    obtain before | new := List.mem_append.1 mem
    · exact (traced.fits d before).later longer
    · exact fits d new
  once := by
    rw [List.map_append, List.nodup_append]
    refine ⟨traced.once, once, fun i before j new => ?_⟩
    obtain ⟨e, mem, rfl⟩ := List.mem_map.1 before
    obtain ⟨d, added, rfl⟩ := List.mem_map.1 new
    exact fresh e mem d added

theorem prefix_of_grows {s t : Setting.Store} (grows : s.Grows t) :
    s.feed.events <+: t.feed.events := by
  obtain ⟨news, events, -⟩ := grows
  exact ⟨news, events.symm⟩

/-- What others do is not what this follower reads. -/
theorem Reading.others {f : Follower Stage} (reading : Reading base feed ds f)
    (longer : feed.events <+: more.events) {added : List Deed}
    (different : ∀ d ∈ added, d.handler ≠ f.key) : Reading base more (ds ++ added) f where
  past := fun d mem own => by
    obtain before | new := List.mem_append.1 mem
    · exact reading.past d before own
    · exact absurd own (different d new)
  plan := reading.plan
  ahead := fun some d mem own => by
    obtain before | new := List.mem_append.1 mem
    · exact reading.ahead some d before own
    · exact absurd own (different d new)
  noticed := fun key phase => by
    obtain ⟨begun, event⟩ := reading.noticed key phase
    exact ⟨begun, event_of_prefix longer event⟩
  handling := fun some => by
    obtain ⟨begun, event⟩ := reading.handling some
    exact ⟨begun, event_of_prefix longer event⟩

theorem actOf?_of_isFor {w : Workbench} {s : Cascade.Stage} {role : Role} {act : Act}
    (own : s.isFor role = true) (does : s.act? w = some act) : actOf? role.key = some act := by
  cases s with
  | pause | openModelDirectory | answer _ => cases does
  | forwardModelVersion =>
    obtain ⟨asked, -, rfl⟩ := Option.map_eq_some_iff.1 does
    cases role <;> first | rfl | cases own
  | forwardModelDirectory | replaceModelFolder _ _ =>
    cases does
    cases role <;> first | rfl | cases own

variable {w after : Workbench} {role : Role} {f g : Follower Stage}

/-- A stage that does something was planned. -/
theorem planned_of_handling (serves : Serves role base w.settings.feed f) {s : Cascade.Stage}
    {rest : List Stage} (phase : f.phase = .handling (.cascade s :: rest)) :
    (s.act? w).toList.length +
      planned (f.proceed ((s.perform w).2.map .cascade ++ rest)) ≤ planned f := by
  have acts := (Advance.perform (w := w) phase).acts serves.costs.2.2
  have idle : begins w f = false := by simp only [begins, lapses, phase]
  have length : (deed? w f).toList.length = (s.act? w).toList.length := by
    rw [deed?_of_handling phase]
    cases s.act? w <;> rfl
  rw [keyIf_of_false idle, length] at acts
  exact acts

/-- The deed of a stage fits into the feed, and has a cause of its own. -/
theorem Traced.perform (traced : Traced base w.settings.feed cs ds)
    (reading : Reading base w.settings.feed ds f) (serves : Serves role base w.settings.feed f)
    {s : Cascade.Stage} {rest : List Stage} (phase : f.phase = .handling (.cascade s :: rest)) :
    Traced base (s.perform w).1.settings.feed cs (ds ++ (deed? w f).toList) := by
  obtain ⟨c, stages, same, -, own⟩ := serves.handling phase
  obtain rfl : s = c := by simpa using same
  have effect := Cascade.perform_effect w s
  have deed := deed?_of_handling (w := w) phase
  cases does : s.act? w with
  | none =>
    simp only [does, reduceCtorEq, false_and, exists_false, or_false] at effect
    rw [deed, does, Option.map_none, Option.toList_none, List.append_nil, effect]
    exact traced
  | some act =>
    obtain ⟨begun, event⟩ := reading.handling (by simp [Follower.remaining_of_handling phase])
    have inside := serves.inside
    have plan := planned_of_handling serves phase
    rw [does] at plan deed
    have fresh : ∀ e ∈ ds, e.cause ≠ f.position - 1 := by
      intro e mem same
      have handler := (traced.fits e mem).cause
      rw [same, event] at handler
      have earlier := reading.ahead (by simp at plan; omega) e mem (Option.some.inj handler).symm
      omega
    rw [deed, Option.map_some, Option.toList_some, ← List.append_nil cs]
    have longer := prefix_of_grows (Cascade.grows_perform w s)
    have raises : ∀ key value, s.act? w = some (.write key) →
        (s.perform w).1.settings = w.settings.commit key value → ∀ i,
        w.raised? (s.perform w).1 = some i → f.position - 1 < i ∧ ∃ key, act = .write key ∧
          (s.perform w).1.settings.feed.events[i]? = some key := by
      intro key value writes committed i raised
      rw [Workbench.raised?_of_commit committed] at raised
      obtain rfl := Option.some.inj raised
      refine ⟨by omega, key, by simpa [does] using writes, ?_⟩
      rw [committed, Setting.Store.feed_commit]
      exact List.getElem?_concat_length
    refine traced.add longer ?_ (List.forall_mem_nil _) ?_ (by simp) ?_
    · intro i old new
      refine .inr ⟨_, List.mem_singleton_self _, ?_⟩
      obtain same | ⟨value, -, committed, -⟩ | ⟨value, -, committed, -⟩ := effect
      · rw [same] at new
        omega
      all_goals
        rw [committed, Setting.Store.feed_commit, Setting.Feed.size_raise] at new
        rw [Workbench.raised?_of_commit committed]
        exact congrArg some (by omega)
    · intro d mem
      obtain rfl := List.mem_singleton.1 mem
      refine ⟨by simp only; omega, event_of_prefix longer event, ?_, ?_⟩
      · rw [serves.key]
        exact actOf?_of_isFor (own s List.mem_cons_self) does
      · intro i raised
        obtain same | ⟨value, writes, committed, -⟩ | ⟨value, writes, committed, -⟩ := effect
        · rw [Workbench.raised?_of_same same] at raised
          cases raised
        · exact raises _ value (does ▸ writes) committed i raised
        · exact raises _ value (does ▸ writes) committed i raised
    · intro e mem d added
      obtain rfl := List.mem_singleton.1 added
      exact fresh e mem

/-- One unit of work of a follower leaves all events traced. -/
theorem Traced.advance (traced : Traced base w.settings.feed cs ds)
    (reading : Reading base w.settings.feed ds f) (serves : Serves role base w.settings.feed f)
    (advance : Advance w f after g) :
    Traced base after.settings.feed cs (ds ++ (deed? w f).toList) := by
  obtain ⟨s, rest, phase, rfl⟩ | ⟨idle, rfl⟩ := advance.stage_or_idle
  · exact traced.perform reading serves phase
  · rw [deed?_of_idle idle, Option.toList_none, List.append_nil]
    exact traced

/-- A write from outside that changes a value is what its event is from. -/
theorem Traced.write (traced : Traced base w.settings.feed cs ds) {key : Setting.Key}
    {value : Json.Value} (written : w.write key value = .ok after) :
    Traced base after.settings.feed (cs ++ ((w.raised? after).map (⟨·, key⟩)).toList) ds := by
  obtain ⟨-, rfl⟩ | ⟨files, rfl⟩ := Workbench.write_cases written
  · rw [Workbench.raised?_of_same rfl, Option.map_none, Option.toList_none, List.append_nil]
    exact traced
  · rw [Workbench.raised?_of_commit rfl, Option.map_some, Option.toList_some, ← List.append_nil ds]
    have longer := prefix_of_grows (Setting.Store.grows_commit w.settings key value)
    refine traced.add longer (fun i old new => .inl ⟨_, List.mem_singleton_self _, ?_⟩)
      (fun c mem => ?_) (List.forall_mem_nil _) List.nodup_nil fun _ _ => List.forall_mem_nil _
    · simp only [Setting.Store.feed_commit, Setting.Feed.size_raise] at new
      simp only
      omega
    · obtain rfl := List.mem_singleton.1 mem
      exact List.getElem?_concat_length

/-- A follower that has missed nothing goes on to read for what it does. -/
theorem Reading.advance (reading : Reading base w.settings.feed ds f)
    (serves : Serves role base w.settings.feed f) (advance : Advance w f after g)
    (keeps : lapses w f = false) :
    Reading base after.settings.feed (ds ++ (deed? w f).toList) g := by
  have begun := serves.begun
  cases advance with
  | wait phase nothing =>
    rw [deed?_of_idle (by simp only [Follower.remaining, phase]), Option.toList_none, List.append_nil]
    exact reading
  | receive phase received =>
    rw [deed?_of_idle (by simp only [Follower.remaining, phase]), Option.toList_none, List.append_nil]
    obtain ⟨-, key, event, rfl⟩ | ⟨far, -⟩ := receive?_eq received
    · refine ⟨fun d mem own => ?_, Nat.zero_le 1, fun _ d mem own => ?_, fun other same => ?_,
        fun some => absurd rfl some⟩
      · exact Nat.lt_succ_of_lt (reading.past d mem own)
      · exact Nat.succ_lt_succ (reading.past d mem own)
      · obtain rfl := Setting.Phase.noticed.inj same
        exact ⟨Nat.lt_succ_of_le begun, event⟩
    · simp only [lapses, phase, decide_eq_false_iff_not] at keeps
      exact absurd far keeps
  | @consider key phase =>
    rw [deed?_of_idle (by simp only [Follower.remaining, phase]), Option.toList_none, List.append_nil]
    obtain ⟨read, event⟩ := reading.noticed key phase
    have ahead := reading.ahead (by simp only [wonders, phase]; omega)
    unfold Follower.consider
    split
    · rename_i own
      refine ⟨reading.past, serves.costs.2.2, fun _ => ahead, by simp, fun _ => ⟨read, ?_⟩⟩
      rw [event, own]
    · exact ⟨reading.past, Nat.zero_le 1, fun _ => ahead, by simp, fun some => absurd rfl some⟩
  | finish phase =>
    rw [deed?_of_idle (Follower.remaining_of_handling phase), Option.toList_none, List.append_nil]
    exact ⟨reading.past, Nat.zero_le 1, fun some => absurd some (Nat.lt_irrefl 0),
      by simp [Follower.proceed], fun some => absurd rfl some⟩
  | @perform s rest phase =>
    have plan := planned_of_handling serves phase
    have longer := prefix_of_grows (Cascade.grows_perform w s)
    obtain ⟨read, event⟩ := reading.handling (by simp [Follower.remaining_of_handling phase])
    have one := reading.plan
    have made : ∀ d ∈ (deed? w f).toList, d.cause < f.position := by
      intro d mem
      rw [deed?_of_handling phase, Option.mem_toList, Option.map_eq_some_iff] at mem
      obtain ⟨act, -, rfl⟩ := mem
      simp only
      omega
    refine ⟨fun d mem own => ?_, by omega, fun some d mem own => ?_, fun key phase' => ?_,
      fun _ => ?_⟩
    · rw [Follower.position_proceed]
      rw [Follower.key_proceed] at own
      obtain before | new := List.mem_append.1 mem
      · exact reading.past d before own
      · exact made d new
    · rw [wonders_proceed] at some
      have none : s.act? w = none := by
        cases does : s.act? w with
        | none => rfl
        | some act =>
          rw [does, Option.toList_some, List.length_singleton] at plan
          omega
      rw [deed?_of_handling phase, none, Option.map_none, Option.toList_none, List.append_nil] at mem
      rw [Follower.position_proceed]
      rw [Follower.key_proceed] at own
      exact reading.ahead (by omega) d mem own
    · unfold Follower.proceed at phase'
      split at phase' <;> cases phase'
    · rw [Follower.position_proceed, Follower.key_proceed]
      exact ⟨read, event_of_prefix longer event⟩

end Step

/-- After every run without a missed change, all events are traced, and each follower is about to do
only what is for the change it has read. -/
theorem AtWork.traced {start : Host} {first token : Nat} {outside : Setting.Key → Prop}
    (working : AtWork first token start.bench.settings.feed.size start)
    (fresh : ∀ (role : Role) (f : Follower Stage),
      start.tasks[first + role.seat]? = some (.follower token none f) → f.phase = .listening) :
    ∀ moves h, start.run? moves = some h → (∀ m ∈ moves, m.IsCascade first outside) →
      AtWork first token start.bench.settings.feed.size h ∧ (turnsWith lapses start moves = [] →
        Traced start.bench.settings.feed.size h.bench.settings.feed (outerChanges start moves)
            (deeds start moves) ∧
          ∀ (role : Role) (f : Follower Stage),
            h.tasks[first + role.seat]? = some (.follower token none f) →
            Reading start.bench.settings.feed.size h.bench.settings.feed (deeds start moves) f) := by
  refine working.induction
    (fun _ => ⟨⟨?_, List.forall_mem_nil _, List.forall_mem_nil _, List.nodup_nil⟩, ?_⟩)
    fun moves h k m run move working change traced keeps => ?_
  · intro i begun inside
    omega
  · intro role f task
    have phase := fresh role f task
    have idle : f.remaining = [] := by simp only [Follower.remaining, phase]
    have plan : planned f = 0 := by rw [planned, idle, List.countP_nil]
    refine ⟨List.forall_mem_nil _, by omega, fun _ => List.forall_mem_nil _, fun key noticed => ?_,
      fun some => absurd idle some⟩
    rw [phase] at noticed
    cases noticed
  · cases change with
    | turn bench tasks =>
      rw [turnsWith, collect_other _ run move (by simp)] at keeps
      rw [outerChanges_other run move (by simp), deeds, collect_other _ run move (by simp), bench,
        tasks]
      exact traced keeps
    | @work role f g turn task advance tasks =>
      rw [turnsWith, collect_work _ run move turn task, List.append_eq_nil_iff] at keeps
      obtain ⟨traced, reading⟩ := traced keeps.1
      have serves := working.serves task
      have here := reading role f task
      have kept : lapses h.bench f = false := by
        cases lapsed : lapses h.bench f with
        | false => rfl
        | true =>
          rw [keyIf_of_true lapsed] at keeps
          cases keeps.2
      rw [outerChanges_other run move (by simp), deeds, collect_work _ run move turn task]
      refine ⟨?_, fun other e task' => ?_⟩
      · exact traced.advance here serves advance
      · rw [tasks] at task'
        by_cases own : role = other
        · subst own
          obtain ⟨inside, -⟩ := List.getElem?_eq_some_iff.1 task
          rw [List.getElem?_set_self inside] at task'
          obtain rfl : g = e := by simpa using task'
          exact here.advance serves advance kept
        · rw [List.getElem?_set_ne (seats_ne own)] at task'
          have others : Meanwhile _ (fun _ => True) _ _ := serves.meanwhile advance own
          refine (reading other e task').others ?_ fun d mem => ?_
          · obtain same | ⟨key, value, -, committed⟩ := others.settings
            · rw [same]
            · rw [committed]
              exact prefix_of_grows (Setting.Store.grows_commit _ key value)
          · rw [handler_of_deed? mem, serves.key, (working.serves task').key]
            exact fun keys => own (Role.key_injective keys)
    | @write key value allowed written tasks =>
      rw [turnsWith, collect_other _ run move (by simp)] at keeps
      obtain ⟨traced, reading⟩ := traced keeps
      have longer := prefix_of_grows (Workbench.grows_write written)
      rw [outerChanges_write run move, deeds, collect_other _ run move (by simp), tasks]
      refine ⟨?_, fun role f task => ?_⟩
      · exact traced.write written
      · rw [← List.append_nil (collect _ _ _)]
        exact (reading role f task).others longer (List.forall_mem_nil _)

/-! ### Chains of deeds -/

/-- How far down the cascade a setting is. -/
def level : Setting.Key → Nat
  | .platformVersion => 0
  | .modelVersion => 1
  | .modelDirectory => 2
  | _ => 3

theorem level_of_write {key written : Setting.Key} (does : actOf? key = some (.write written)) :
    level written = level key + 1 := by
  cases key <;> cases does <;> rfl

theorem handler_of_act {key other : Setting.Key} {act : Act} (does : actOf? key = some act)
    (same : actOf? other = some act) : key = other := by
  cases key <;> cases does <;> cases other <;> first | rfl | cases same

theorem mem_of_act {key : Setting.Key} {act : Act} (does : actOf? key = some act) :
    key ∈ [Setting.Key.platformVersion, .modelVersion, .modelDirectory] := by
  cases key <;> cases does <;> decide

section Chains

variable {base : Nat} {feed : Feed} {cs : List OuterChange} {ds : List Deed} {d e : Deed} {i : Nat}

theorem Causes.mem (causes : Causes ds i d) : d ∈ ds := by
  cases causes <;> assumption

/-- A deed that another one led to is one level further down. -/
theorem Traced.act_of_raised (traced : Traced base feed cs ds) (mem : d ∈ ds) (mem' : e ∈ ds)
    (raised : d.raised = some e.cause) : d.act = .write e.handler := by
  obtain ⟨-, key, act, event⟩ := (traced.fits d mem).raised e.cause raised
  obtain rfl : key = e.handler := by simpa [(traced.fits e mem').cause] using event.symm
  exact act

/-- What a change causes is at its level or further down, and at its level only what is done for the
change itself. -/
theorem Causes.level (causes : Causes ds i d) (traced : Traced base feed cs ds)
    {key : Setting.Key} (event : feed.events[i]? = some key) :
    Host.level key ≤ Host.level d.handler ∧ (Host.level key = Host.level d.handler → d.cause = i) := by
  induction causes with
  | @direct d mem cause =>
    obtain rfl : key = d.handler := by
      simpa [cause, event] using (traced.fits d mem).cause
    exact ⟨Nat.le_refl _, fun _ => cause⟩
  | @next d e earlier mem raised ih =>
    have act := traced.act_of_raised earlier.mem mem raised
    have down := level_of_write (act ▸ (traced.fits d earlier.mem).act)
    exact ⟨by omega, fun same => by omega⟩

theorem Traced.eq_of_cause (traced : Traced base feed cs ds) (mem : d ∈ ds) (mem' : e ∈ ds)
    (same : d.cause = e.cause) : d = e :=
  List.inj_on_of_nodup_map traced.once mem mem' same

/-- A change causes one deed of a kind at most. -/
theorem Causes.unique (causes : Causes ds i d) (causes' : Causes ds i e)
    (traced : Traced base feed cs ds) {key : Setting.Key} (event : feed.events[i]? = some key)
    (same : d.act = e.act) : d = e := by
  have handlers {a b : Deed} (mem : a ∈ ds) (mem' : b ∈ ds) (same : a.act = b.act) :
      a.handler = b.handler :=
    handler_of_act (traced.fits a mem).act (same ▸ (traced.fits b mem').act)
  induction causes generalizing e with
  | @direct d mem cause =>
    obtain rfl : key = d.handler := by
      simpa [cause, event] using (traced.fits d mem).cause
    have cause' := (causes'.level traced event).2 (by rw [handlers mem causes'.mem same])
    exact traced.eq_of_cause mem causes'.mem (cause.trans cause'.symm)
  | @next a d earlier mem raised ih =>
    cases causes' with
    | direct mem' cause' =>
      obtain rfl : key = e.handler := by
        simpa [cause', event] using (traced.fits e mem').cause
      have cause := ((Causes.next earlier mem raised).level traced event).2
        (by rw [handlers mem mem' same])
      exact traced.eq_of_cause mem mem' (cause.trans cause'.symm)
    | @next b _ earlier' mem' raised' =>
      have act := traced.act_of_raised earlier.mem mem raised
      have act' := traced.act_of_raised earlier'.mem mem' raised'
      obtain rfl : a = b := ih earlier' (by rw [act, act', handlers mem mem' same])
      exact traced.eq_of_cause mem mem' (Option.some.inj (raised.symm.trans raised'))

/-- All that is done is done for a change from outside of one of the three settings. -/
theorem Traced.origin (traced : Traced base feed cs ds) (mem : d ∈ ds) :
    ∃ c ∈ cs, c.key ∈ [Setting.Key.platformVersion, .modelVersion, .modelDirectory] ∧
      Causes ds c.index d := by
  induction place : d.cause using Nat.strong_induction_on generalizing d with
  | _ n ih =>
    subst place
    have fits := traced.fits d mem
    obtain ⟨inside, -⟩ := List.getElem?_eq_some_iff.1 fits.cause
    obtain ⟨c, change, same⟩ | ⟨e, deed, raised⟩ := traced.known d.cause fits.begun inside
    · have own : c.key = d.handler := by
        simpa [same, fits.cause] using (traced.outer c change).symm
      exact ⟨c, change, own ▸ mem_of_act fits.act, .direct mem same.symm⟩
    · obtain ⟨c, change, key, causes⟩ :=
        ih e.cause ((traced.fits e deed).raised _ raised).1 deed rfl
      exact ⟨c, change, key, .next causes mem raised⟩

/-- Of each kind there are no more deeds than changes from outside. -/
theorem Traced.countP_act_le (traced : Traced base feed cs ds) (act : Act) :
    ds.countP (·.act == act) ≤
      changesOf [.platformVersion, .modelVersion, .modelDirectory] cs := by
  let kind := ds.filter (·.act == act)
  let origins := cs.filter fun c =>
    [Setting.Key.platformVersion, .modelVersion, .modelDirectory].contains c.key
  have once : kind.Nodup := (List.Nodup.of_map _ traced.once).filter _
  have fewer : kind.toFinset.card ≤ origins.toFinset.card := by
    refine Finset.card_le_card_of_forall_subsingleton (fun d c => Causes ds c.index d) ?_ ?_
    · intro d mem
      rw [List.mem_toFinset] at mem
      obtain ⟨c, change, key, causes⟩ := traced.origin (List.mem_filter.1 mem).1
      refine ⟨c, ?_, causes⟩
      rw [List.mem_toFinset, List.mem_filter, List.contains_iff_mem]
      exact ⟨change, key⟩
    · intro c mem d here e there
      rw [List.mem_toFinset] at mem
      obtain ⟨here, causes⟩ := here
      obtain ⟨there, causes'⟩ := there
      rw [List.mem_toFinset, List.mem_filter, beq_iff_eq] at here there
      exact causes.unique causes' traced (traced.outer c (List.mem_filter.1 mem).1)
        (here.2.trans there.2.symm)
  rw [List.toFinset_card_of_nodup once] at fewer
  calc ds.countP (·.act == act) = kind.length := List.countP_eq_length_filter
    _ ≤ origins.toFinset.card := fewer
    _ ≤ origins.length := List.toFinset_card_le origins
    _ = changesOf [.platformVersion, .modelVersion, .modelDirectory] cs :=
      List.countP_eq_length_filter.symm

end Chains

end Host

end ModelWorkspace
