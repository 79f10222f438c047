import ModelWorkspace.Proofs.Cascade.Stages
import ModelWorkspace.Proofs.Files.Writing

/-! Writes that are made again. What was written is found in its place, so to write it again changes
nothing; and where one write succeeded the next ones do as well. -/
namespace ModelWorkspace

open Json (Value)

namespace Setting.Store

/-- A store that was saved can be saved again, whatever it holds by then. -/
theorem save_again {s t : Store} {files written : FileTree} {values : Values}
    (same : t.file = s.file) (saved : s.save files values = .ok written) (others : Values) :
    ∃ after, t.save written others = .ok after := by
  unfold save at saved ⊢
  rw [same]
  cases file : s.file with
  | none => exact ⟨written, rfl⟩
  | some path =>
    simp only [file] at saved
    cases done : files.write path (.text (render values)) with
    | error fault => simp [done] at saved
    | ok files' =>
      obtain rfl : files' = written := by simpa [done] using saved
      obtain ⟨after, again⟩ := FileTree.write_again done (.text (render others))
      exact ⟨after, by simp only [again]⟩

end Setting.Store

namespace Workbench

variable {w : Workbench} {key other : Setting.Key} {t : String}

theorem tryWrite_of_has (has : w.settings.values.has key (.string t) = true) :
    w.tryWrite key t = w := by
  simp only [tryWrite, write, Setting.Store.set, has, if_true]

theorem tryWrite_of_write {after : Workbench} (written : w.write key (.string t) = .ok after) :
    w.tryWrite key t = after := by
  simp only [tryWrite, written]

theorem has_tryWrite (writable : w.IsWritable) (key : Setting.Key) (t : String) :
    (w.tryWrite key t).settings.values.has key (.string t) = true := by
  obtain ⟨after, written⟩ := writable key (.string t)
  rw [tryWrite_of_write written]
  obtain ⟨has, rfl⟩ | ⟨files, rfl⟩ := write_cases written
  · exact has
  · simp [Setting.Store.commit, Setting.Values.has, Value.same]

theorem has_tryWrite_of_ne (different : other ≠ key) (w : Workbench) (t : String) (value : Value) :
    (w.tryWrite key t).settings.values.has other value = w.settings.values.has other value :=
  congrArg (Option.any fun v : Value => v.same value) (Cascade.get?_tryWrite different w t)

/-- A text that is set and not empty is there to be found. -/
theorem has_of_text (set : w.settings.text key = t) (given : t ≠ "") :
    w.settings.values.has key (.string t) = true := by
  unfold Setting.Store.text Setting.Store.get? at set
  unfold Setting.Values.has
  split at set
  · rename_i s found
    simp [found, set, Value.same]
  · exact absurd set.symm given

/-- A write shows nothing, and nothing that was shown changes it. -/
theorem tryWrite_inform (w : Workbench) (key : Setting.Key) (t text : String) :
    (w.inform text).tryWrite key t = (w.tryWrite key t).inform text := by
  simp only [tryWrite, write, inform, notify]
  cases w.settings.set w.files key (.string t) <;> rfl

theorem isWritable_of_save
    (saves : ∀ values, ∃ files, w.settings.save w.files values = .ok files) : w.IsWritable := by
  intro key value
  cases has : w.settings.values.has key value with
  | true => exact ⟨w, by simp only [write, Setting.Store.set, has, if_true]⟩
  | false =>
    obtain ⟨files, saved⟩ := saves (w.settings.values.insert key value)
    exact ⟨{ w with files, settings := w.settings.commit key value }, by
      simp [write, Setting.Store.set, has, saved, bind, Except.bind, pure, Except.pure]⟩

/-- After a write that succeeded all writes still do. -/
theorem isWritable_tryWrite (writable : w.IsWritable) (key : Setting.Key) (t : String) :
    (w.tryWrite key t).IsWritable := by
  cases has : w.settings.values.has key (.string t) with
  | true =>
    rw [tryWrite_of_has has]
    exact writable
  | false =>
    obtain ⟨after, written⟩ := writable key (.string t)
    rw [tryWrite_of_write written]
    unfold write at written
    cases set : w.settings.set w.files key (.string t) with
    | error e => simp [set] at written
    | ok result =>
      obtain ⟨files, settings⟩ := result
      obtain rfl : { w with files, settings } = after := by simpa [set] using written
      obtain ⟨saved, rfl⟩ := Setting.Store.save_of_set has set
      exact isWritable_of_save fun values => Setting.Store.save_again rfl saved values

end Workbench

end ModelWorkspace
