import ModelWorkspace.Proofs.Cascade.Chronicle
import ModelWorkspace.Proofs.Cascade.Convergence

/-! How many events a run of the followers can raise. A follower raises an event only where one setting
is out of line with another, and puts that right by it; so each event of a follower is made up for
by a change from outside, but for one of each kind that may be due from the start. -/
namespace ModelWorkspace

open Cascade (Role)
open Setting (Follower)
open Json (Value)

namespace Cascade

/-- Whether the platform version asks for another model version. -/
def pending (w : Workbench) : Nat := if (pendingModelVersion? w).isSome then 1 else 0

/-- Whether the model directory is another one than the bundled folder of the model version. -/
def astray (w : Workbench) : Nat :=
  if w.settings.values.has .modelDirectory (.string (modelPath w).text) then 0 else 1

theorem pending_le (w : Workbench) : pending w ≤ 1 := by
  unfold pending
  split <;> omega

theorem astray_le (w : Workbench) : astray w ≤ 1 := by
  unfold astray
  split <;> omega

theorem pendingModelVersion?_congr {w v : Workbench}
    (platform : v.settings.get? .platformVersion = w.settings.get? .platformVersion)
    (model : v.settings.get? .modelVersion = w.settings.get? .modelVersion) :
    pendingModelVersion? v = pendingModelVersion? w := by
  simp only [pendingModelVersion?, Setting.Store.platform?_congr platform,
    Setting.Store.model?_congr model]

theorem pending_congr {w v : Workbench}
    (platform : v.settings.get? .platformVersion = w.settings.get? .platformVersion)
    (model : v.settings.get? .modelVersion = w.settings.get? .modelVersion) :
    pending v = pending w := by
  rw [pending, pendingModelVersion?_congr platform model, pending]

theorem astray_congr {w v : Workbench}
    (model : v.settings.get? .modelVersion = w.settings.get? .modelVersion)
    (directory : v.settings.get? .modelDirectory = w.settings.get? .modelDirectory)
    (bundle : v.bundle = w.bundle) : astray v = astray w := by
  have has : v.settings.values.has .modelDirectory (.string (modelPath v).text) =
      w.settings.values.has .modelDirectory (.string (modelPath w).text) := by
    rw [modelPath_congr model bundle]
    exact congrArg (Option.any _) directory
  rw [astray, has, astray]

/-- The version that was asked for is asked for no more once it is there. -/
theorem pending_of_commit {w v : Workbench} {asked : Version}
    (pends : pendingModelVersion? w = some asked)
    (settings : v.settings = w.settings.commit .modelVersion (.string asked.text)) :
    pending v = 0 := by
  obtain ⟨platform, configured, default⟩ := default_of_pendingModelVersion? pends
  have kept : v.settings.platform? = some platform := by
    rw [← configured, settings]
    exact Setting.Store.platform?_congr (Setting.Store.get?_commit ..)
  have there : v.settings.model? = some asked := by
    rw [settings, Setting.Store.model?, Setting.Store.modelVersion, Setting.Store.text_commit]
    exact Catalogue.normalize?_default default
  simp [pending, pendingModelVersion?, kept, default, there, asked.sameAs_self]

theorem astray_of_commit {w v : Workbench} (bundle : v.bundle = w.bundle)
    (settings : v.settings = w.settings.commit .modelDirectory (.string (modelPath w).text)) :
    astray v = 0 := by
  have path : modelPath v = modelPath w := modelPath_congr
    (by rw [settings]; exact Setting.Store.get?_commit ..) bundle
  have there : v.settings.values.get? .modelDirectory = some (.string (modelPath w).text) := by
    rw [settings]
    exact Setting.Store.get?_commit ..
  simp [astray, Setting.Values.has, path, there, Value.same]

/-- An attempt to write finds its text, or fails, or puts it there. -/
theorem tryWrite_effect (w : Workbench) (key : Setting.Key) (t : String) :
    (w.tryWrite key t).settings = w.settings ∨
      w.settings.values.has key (.string t) = false ∧
        (w.tryWrite key t).settings = w.settings.commit key (.string t) := by
  cases has : w.settings.values.has key (.string t) with
  | true =>
    refine .inl ?_
    simp only [Workbench.tryWrite, Workbench.write, Setting.Store.set, has, if_true]
  | false =>
    obtain same | written := w.tryWrite_cases key t
    · exact .inl (congrArg Workbench.settings same)
    · obtain ⟨-, same⟩ | ⟨files, same⟩ := Workbench.write_cases written
      · exact .inl (congrArg Workbench.settings same)
      · exact .inr ⟨rfl, congrArg Workbench.settings same⟩

/-- A stage that changes a setting puts right what was out of line. -/
theorem perform_effect (w : Workbench) (s : Stage) :
    (s.perform w).1.settings = w.settings ∨
      (∃ value, s.act? w = some (.write .modelVersion) ∧
        (s.perform w).1.settings = w.settings.commit .modelVersion value ∧
        pending w = 1 ∧ pending (s.perform w).1 = 0) ∨
      ∃ value, s.act? w = some (.write .modelDirectory) ∧
        (s.perform w).1.settings = w.settings.commit .modelDirectory value ∧
        astray w = 1 ∧ astray (s.perform w).1 = 0 := by
  cases s with
  | pause | answer _ => exact .inl rfl
  | forwardModelVersion =>
    simp only [Stage.perform, Stage.act?]
    cases pends : pendingModelVersion? w with
    | none => exact .inl rfl
    | some asked =>
      obtain same | ⟨-, settings⟩ := tryWrite_effect w .modelVersion asked.text
      · exact .inl same
      · exact .inr (.inl ⟨_, rfl, settings, by simp [pending, pends],
          pending_of_commit pends settings⟩)
  | forwardModelDirectory =>
    obtain same | ⟨has, settings⟩ := tryWrite_effect w .modelDirectory (modelPath w).text
    · exact .inl same
    · exact .inr (.inr ⟨_, rfl, settings, by simp [astray, has],
        astray_of_commit (tryWrite_frame w .modelDirectory _).1 settings⟩)
  | openModelDirectory =>
    simp only [Stage.perform]
    split <;> exact .inl rfl
  | replaceModelFolder name path => exact .inl (replaceModelFolder_frame w name path).1

end Cascade

namespace Workbench

theorem raised?_of_same {w v : Workbench} (same : v.settings = w.settings) : w.raised? v = none := by
  rw [raised?, same, if_pos rfl]

theorem raised?_of_commit {w v : Workbench} {key : Setting.Key} {value : Value}
    (committed : v.settings = w.settings.commit key value) :
    w.raised? v = some w.settings.feed.size := by
  rw [raised?, committed, Setting.Store.feed_commit, Setting.Feed.size_raise, if_neg (by omega)]

end Workbench

namespace Host

open Cascade (Act pending astray)

/-- How many deeds changed the setting. -/
def raisedFor (key : Setting.Key) (ds : List Deed) : Nat :=
  ds.countP fun d => d.raised.isSome && d.act == .write key

theorem raisedFor_concat (ds : List Deed) (handler written key : Setting.Key) (cause index : Nat) :
    raisedFor key (ds ++ [⟨handler, cause, .write written, some index⟩]) =
      raisedFor key ds + if written = key then 1 else 0 := by
  simp [raisedFor, List.countP_append, List.countP_singleton]

theorem countP_raised_concat (ds : List Deed) (handler : Setting.Key) (act : Act)
    (cause index : Nat) :
    (ds ++ [(⟨handler, cause, act, some index⟩ : Deed)]).countP (·.raised.isSome) =
      ds.countP (·.raised.isSome) + 1 := by
  simp

/-- How many changes from outside are of one of the settings. -/
def changesOf (keys : List Setting.Key) (cs : List OuterChange) : Nat :=
  cs.countP fun c => keys.contains c.key

/-- The events are those of changes from outside and of deeds, and the deeds are made up for. -/
structure Balanced (base : Nat) (cs : List OuterChange) (ds : List Deed) (w : Workbench) : Prop where
  size : w.settings.feed.size = base + cs.length + ds.countP (·.raised.isSome)
  kinds : ds.countP (·.raised.isSome) = raisedFor .modelVersion ds + raisedFor .modelDirectory ds
  versions : raisedFor .modelVersion ds + pending w ≤
    1 + changesOf [.platformVersion, .modelVersion] cs
  directories : raisedFor .modelDirectory ds + astray w ≤
    1 + changesOf [.modelVersion, .modelDirectory] cs + raisedFor .modelVersion ds

section Step

variable {base : Nat} {cs : List OuterChange} {ds : List Deed} {w after : Workbench}

/-- What changes no setting keeps the balance. -/
theorem Balanced.same (balanced : Balanced base cs ds w) (settings : after.settings = w.settings)
    (bundle : after.bundle = w.bundle) {more : List Deed} (quiet : ∀ d ∈ more, d.raised = none) :
    Balanced base cs (ds ++ more) after := by
  obtain ⟨size, kinds, versions, directories⟩ := balanced
  have none (test : Deed → Bool) (raises : ∀ d, test d = true → d.raised.isSome = true) :
      (ds ++ more).countP test = ds.countP test := by
    rw [List.countP_append, Nat.add_eq_left, List.countP_eq_zero]
    intro d mem holds
    have raised := raises d holds
    rw [quiet d mem] at raised
    cases raised
  have raised := none (·.raised.isSome) fun _ is => is
  have raisedFor (key : Setting.Key) : raisedFor key (ds ++ more) = raisedFor key ds :=
    none _ fun d is => (Bool.and_eq_true_iff.1 is).1
  have settled : pending after = pending w := by
    refine Cascade.pending_congr ?_ ?_ <;> rw [settings]
  have straight : astray after = astray w := by
    refine Cascade.astray_congr ?_ ?_ bundle <;> rw [settings]
  constructor
  · rw [settings, raised]
    exact size
  · rw [raised, raisedFor, raisedFor]
    exact kinds
  · rw [raisedFor, settled]
    exact versions
  · rw [raisedFor, raisedFor, straight]
    exact directories

/-- The stage of a handler puts right what it changes. -/
theorem Balanced.perform (balanced : Balanced base cs ds w) {f : Follower Stage}
    {s : Cascade.Stage} {rest : List Stage} (phase : f.phase = .handling (.cascade s :: rest)) :
    Balanced base cs (ds ++ (deed? w f).toList) (s.perform w).1 := by
  have deed := deed?_of_handling (w := w) phase
  obtain same | ⟨value, act, settings, before, now⟩ | ⟨value, act, settings, before, now⟩ :=
    Cascade.perform_effect w s
  · refine balanced.same same (Cascade.perform_frame w s).1 fun d mem => ?_
    rw [deed, Option.mem_toList, Option.map_eq_some_iff] at mem
    obtain ⟨act, -, rfl⟩ := mem
    exact Workbench.raised?_of_same same
  all_goals
    rw [act, Workbench.raised?_of_commit settings] at deed
    obtain ⟨size, kinds, versions, directories⟩ := balanced
    have grown : (s.perform w).1.settings.feed.size = w.settings.feed.size + 1 := by
      rw [settings, Setting.Store.feed_commit, Setting.Feed.size_raise]
    rw [deed]
    simp only [Option.map_some, Option.toList_some]
  · have straight := Cascade.astray_le (s.perform w).1
    constructor <;>
      simp only [raisedFor_concat, countP_raised_concat, grown, now, if_true, reduceCtorEq, if_false]
        <;> omega
  · have same : pending (s.perform w).1 = pending w := by
      refine Cascade.pending_congr ?_ ?_ <;> rw [settings] <;> exact Setting.Store.get?_commit ..
    constructor <;>
      simp only [raisedFor_concat, countP_raised_concat, grown, now, same, if_true, reduceCtorEq,
        if_false] <;> omega

/-- One unit of work of a follower keeps the balance. -/
theorem Balanced.advance (balanced : Balanced base cs ds w) {f g : Follower Stage}
    (advance : Advance w f after g) : Balanced base cs (ds ++ (deed? w f).toList) after := by
  obtain ⟨s, rest, phase, rfl⟩ | ⟨idle, rfl⟩ := advance.stage_or_idle
  · exact balanced.perform phase
  · rw [deed?_of_idle idle, Option.toList_none, List.append_nil]
    exact balanced

/-- A write from outside puts at most those settings out of line that have to do with its own. -/
theorem Balanced.write (balanced : Balanced base cs ds w) {key : Setting.Key} {value : Value}
    (written : w.write key value = .ok after) :
    Balanced base (cs ++ ((w.raised? after).map (⟨·, key⟩)).toList) ds after := by
  obtain ⟨-, rfl⟩ | ⟨files, rfl⟩ := Workbench.write_cases written
  · rw [Workbench.raised?_of_same rfl, Option.map_none, Option.toList_none, List.append_nil]
    exact balanced
  · rw [Workbench.raised?_of_commit rfl, Option.map_some, Option.toList_some]
    obtain ⟨size, kinds, versions, directories⟩ := balanced
    have more (keys : List Setting.Key) : changesOf keys (cs ++ [⟨w.settings.feed.size, key⟩]) =
        changesOf keys cs + if key ∈ keys then 1 else 0 := by
      simp [changesOf, List.countP_append, List.countP_singleton]
    have kept (other : Setting.Key) (different : other ≠ key) :
        (w.settings.commit key value).get? other = w.settings.get? other := by
      rw [Setting.Store.get?_commit, if_neg different]
    constructor
    · simp only [Setting.Store.feed_commit, Setting.Feed.size_raise, List.length_append,
        List.length_singleton, size]
      omega
    · exact kinds
    · rw [more]
      split
      · have most := Cascade.pending_le { w with files, settings := w.settings.commit key value }
        omega
      · rename_i other
        have same : pending { w with files, settings := w.settings.commit key value } = pending w :=
          Cascade.pending_congr (kept _ fun is => other (by simp [is]))
            (kept _ fun is => other (by simp [is]))
        omega
    · rw [more]
      split
      · have most := Cascade.astray_le { w with files, settings := w.settings.commit key value }
        omega
      · rename_i other
        have same : astray { w with files, settings := w.settings.commit key value } = astray w :=
          Cascade.astray_congr (kept _ fun is => other (by simp [is]))
            (kept _ fun is => other (by simp [is])) rfl
        omega

end Step

/-- After every run the balance is kept. -/
theorem AtWork.balanced {start : Host} {first token base : Nat} {outside : Setting.Key → Prop}
    (working : AtWork first token base start) :
    ∀ moves h, start.run? moves = some h → (∀ m ∈ moves, m.IsCascade first outside) →
      AtWork first token base h ∧ Balanced start.bench.settings.feed.size
        (outerChanges start moves) (deeds start moves) h.bench := by
  refine working.induction ?_ fun moves h k m run move working change balanced => ?_
  · have most := Cascade.pending_le start.bench
    have most' := Cascade.astray_le start.bench
    constructor <;> simp only [outerChanges, deeds, collect, raisedFor, changesOf, List.length_nil,
      List.countP_nil] <;> omega
  · cases change with
    | turn bench tasks =>
      rw [outerChanges_other run move (by simp), deeds, collect_other _ run move (by simp), bench]
      exact balanced
    | work turn task advance tasks =>
      rw [outerChanges_other run move (by simp), deeds, collect_work _ run move turn task]
      exact balanced.advance advance
    | write allowed written tasks =>
      rw [outerChanges_write run move, deeds, collect_other _ run move (by simp)]
      exact balanced.write written

/-- The followers raise no more than three events for a change from outside, and three at first. -/
theorem Balanced.bound {base : Nat} {cs : List OuterChange} {ds : List Deed} {w : Workbench}
    (balanced : Balanced base cs ds w) : w.settings.feed.size ≤ base + (4 * cs.length + 3) := by
  have all (keys : List Setting.Key) : changesOf keys cs ≤ cs.length := List.countP_le_length
  have versions := all [.platformVersion, .modelVersion]
  have directories := all [.modelVersion, .modelDirectory]
  obtain ⟨size, kinds, versions', directories'⟩ := balanced
  omega

end Host

end ModelWorkspace
