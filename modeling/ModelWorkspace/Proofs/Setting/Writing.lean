import ModelWorkspace.Workbench.Basic

/-! What a write does to the settings of a workbench. A write that succeeds either finds the value in
its place and changes nothing, or puts it there and raises one event. -/
namespace ModelWorkspace

open Json (Value)

namespace Setting.Store

@[simp] theorem get?_commit (s : Store) (key other : Key) (value : Value) :
    (s.commit key value).get? other = if other = key then some value else s.get? other :=
  Values.get?_insert s.values key other value

@[simp] theorem feed_commit (s : Store) (key : Key) (value : Value) :
    (s.commit key value).feed = s.feed.raise key := rfl

theorem text_of_has {s : Store} {key : Key} {t : String}
    (has : s.values.has key (.string t) = true) : s.text key = t := by
  unfold Values.has at has
  cases found : s.values.get? key with
  | none => simp [found] at has
  | some v =>
    rw [found] at has
    cases v <;> simp [Value.same] at has
    subst has
    simp [text, get?, found]

theorem text_commit (s : Store) (key : Key) (t : String) :
    (s.commit key (.string t)).text key = t := by
  simp [text]

theorem text_congr {s t : Store} {key : Key} (same : s.get? key = t.get? key) :
    s.text key = t.text key := by
  simp only [text, same]

theorem flag_congr {s t : Store} {key : Key} (same : s.get? key = t.get? key) :
    s.flag key = t.flag key := by
  simp only [flag, same]

theorem platform?_congr {s t : Store} (same : s.get? .platformVersion = t.get? .platformVersion) :
    s.platform? = t.platform? := by
  rw [platform?, platformVersion, text_congr same, platform?, platformVersion]

theorem model?_congr {s t : Store} (same : s.get? .modelVersion = t.get? .modelVersion) :
    s.model? = t.model? := by
  rw [model?, modelVersion, text_congr same, model?, modelVersion]

/-- A value that is not there yet is saved and committed. -/
theorem save_of_set {s t : Store} {files written : FileTree} {key : Key} {value : Value}
    (new : s.values.has key value = false) (set : s.set files key value = .ok (written, t)) :
    s.save files (s.values.insert key value) = .ok written ∧ t = s.commit key value := by
  rw [Store.set, if_neg (Bool.eq_false_iff.1 new)] at set
  cases saved : s.save files (s.values.insert key value) with
  | error e => simp [saved, bind, Except.bind] at set
  | ok after =>
    simp only [saved, bind, Except.bind, pure, Except.pure, Except.ok.injEq, Prod.mk.injEq] at set
    obtain ⟨rfl, rfl⟩ := set
    exact ⟨rfl, rfl⟩

theorem set_cases {s t : Store} {files written : FileTree} {key : Key} {value : Value}
    (set : s.set files key value = .ok (written, t)) :
    (s.values.has key value = true ∧ written = files ∧ t = s) ∨ t = s.commit key value := by
  cases has : s.values.has key value with
  | true =>
    rw [Store.set, if_pos has] at set
    cases set
    exact .inl ⟨rfl, rfl, rfl⟩
  | false => exact .inr (save_of_set has set).2

/-- Settings change only by events, and each of them is of a setting that may have changed. -/
def Grows (s t : Store) : Prop :=
  ∃ news, t.feed.events = s.feed.events ++ news ∧ ∀ key, key ∉ news → t.get? key = s.get? key

theorem grows_self (s : Store) : s.Grows s := ⟨[], (List.append_nil _).symm, fun _ _ => rfl⟩

theorem grows_commit (s : Store) (key : Key) (value : Value) : s.Grows (s.commit key value) := by
  refine ⟨[key], rfl, fun other absent => ?_⟩
  rw [get?_commit, if_neg (by simpa using absent)]

theorem Grows.trans {s t u : Store} (first : s.Grows t) (second : t.Grows u) : s.Grows u := by
  obtain ⟨before, events, same⟩ := first
  obtain ⟨after, events', same'⟩ := second
  refine ⟨before ++ after, by rw [events', events, List.append_assoc], fun key absent => ?_⟩
  rw [List.mem_append, not_or] at absent
  exact (same' key absent.2).trans (same key absent.1)

end Setting.Store

namespace Workbench

/-- Every write into the settings succeeds. -/
def IsWritable (w : Workbench) : Prop := ∀ key value, ∃ after, w.write key value = .ok after

theorem write_cases {w after : Workbench} {key : Setting.Key} {value : Value}
    (written : w.write key value = .ok after) :
    (w.settings.values.has key value = true ∧ after = w) ∨
      ∃ files, after = { w with files, settings := w.settings.commit key value } := by
  unfold write at written
  cases set : w.settings.set w.files key value with
  | error e => simp [set] at written
  | ok result =>
    obtain ⟨files, settings⟩ := result
    simp only [set, Except.ok.injEq] at written
    obtain ⟨has, rfl, rfl⟩ | rfl := Setting.Store.set_cases set
    · exact .inl ⟨has, written.symm⟩
    · exact .inr ⟨files, written.symm⟩

theorem isWritable_of_memory {w : Workbench} (memory : w.settings.file = none) : w.IsWritable := by
  intro key value
  unfold write Setting.Store.set
  split
  · rename_i files settings set
    exact ⟨_, rfl⟩
  · rename_i e set
    split at set
    · cases set
    · simp [Setting.Store.save, memory, bind, Except.bind, pure, Except.pure] at set

theorem write_of_memory {w after : Workbench} {key : Setting.Key} {value : Value}
    (memory : w.settings.file = none) (written : w.write key value = .ok after) :
    after.settings.file = none ∧ after.files = w.files := by
  unfold write Setting.Store.set at written
  split at written
  · rename_i files settings set
    cases written
    split at set
    · cases set
      exact ⟨memory, rfl⟩
    · simp only [Setting.Store.save, memory, bind, Except.bind, pure, Except.pure,
        Except.ok.injEq, Prod.mk.injEq] at set
      obtain ⟨rfl, rfl⟩ := set
      exact ⟨memory, rfl⟩
  · cases written

theorem tryWrite_cases (w : Workbench) (key : Setting.Key) (t : String) :
    w.tryWrite key t = w ∨ w.write key (.string t) = .ok (w.tryWrite key t) := by
  unfold tryWrite
  cases written : w.write key (.string t) with
  | error e => exact .inl rfl
  | ok after => exact .inr rfl

theorem text_tryWrite {w : Workbench} (writable : w.IsWritable) (key : Setting.Key) (t : String) :
    (w.tryWrite key t).settings.text key = t := by
  obtain ⟨after, written⟩ := writable key (.string t)
  have tried : w.tryWrite key t = after := by simp only [tryWrite, written]
  rw [tried]
  obtain ⟨has, rfl⟩ | ⟨files, rfl⟩ := write_cases written
  · exact Setting.Store.text_of_has has
  · exact Setting.Store.text_commit w.settings key t

/-- The settings are in memory only, and files can be read as at the start. -/
structure InMemory (start w : Workbench) : Prop where
  memory : w.settings.file = none
  reads : ∀ path, w.files.read path = start.files.read path

namespace InMemory

variable {start w : Workbench}

theorem write {after : Workbench} {key : Setting.Key} {value : Value} (kept : start.InMemory w)
    (written : w.write key value = .ok after) : start.InMemory after := by
  obtain ⟨memory, files⟩ := write_of_memory kept.memory written
  refine ⟨memory, fun path => ?_⟩
  rw [files]
  exact kept.reads path

theorem tryWrite (kept : start.InMemory w) (key : Setting.Key) (t : String) :
    start.InMemory (w.tryWrite key t) := by
  obtain same | written := w.tryWrite_cases key t
  · exact same.symm ▸ kept
  · exact kept.write written

end InMemory

end Workbench

end ModelWorkspace
