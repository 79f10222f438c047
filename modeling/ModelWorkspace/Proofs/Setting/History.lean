import Mathlib.Data.List.Induction
import ModelWorkspace.Proofs.Files.Modes
import ModelWorkspace.Proofs.Files.Writing
import ModelWorkspace.Proofs.Json.Equality
import ModelWorkspace.Proofs.Setting.Writing

/-! Whole runs of a settings store. Values, feed and file are three accounts of one history: that of
the attempts which changed a value. `Store.Run` is a run whose attempts may succeed or fail, while the
files around the settings file change in any way; the store at its end is the first one with these
changes committed, one after the other. -/
namespace ModelWorkspace.Setting

open Json (Value)

theorem eraseDups_of_nodup {keys : List Key} (once : keys.Nodup) : keys.eraseDups = keys := by
  induction keys with
  | nil => rfl
  | cons key rest ih =>
    obtain ⟨fresh, once⟩ := List.nodup_cons.1 once
    have others : rest.filter (fun k => !k == key) = rest := by
      refine List.filter_eq_self.2 fun k mem => ?_
      have different : k ≠ key := fun same => fresh (same ▸ mem)
      simp [different]
    rw [List.eraseDups_cons, others, ih once]

theorem eraseDups_concat (keys : List Key) (key : Key) :
    (keys ++ [key]).eraseDups =
      if key ∈ keys.eraseDups then keys.eraseDups else keys.eraseDups ++ [key] := by
  rw [List.eraseDups_append]
  by_cases mem : key ∈ keys <;> simp [List.removeAll, mem, List.eraseDups_cons]

namespace Store

/-- The text of the settings file, if there is one that can be read. -/
def fileText? (s : Store) (files : FileTree) : Option String :=
  s.file.bind fun path => (files.read path).toOption

/-- An attempt to set a value, and the value that the setting had before. -/
structure Attempt where
  key : Key
  value : Value
  found : Option Value
  succeeded : Bool

/-- Whether the attempt succeeded and the value is not the one that the setting had. -/
def Attempt.changed (a : Attempt) : Bool := a.succeeded && !a.found.any (·.same a.value)

/-- A run of a store that nobody else writes the file of, with its attempts. What else there is around
the file, and what permissions admit, may change between them. -/
inductive Run (files : FileTree) (s : Store) : List Attempt → FileTree → Store → Prop
  | start : Run files s [] files s
  | set {log : List Attempt} {before after : FileTree} {t u : Store} {key : Key} {value : Value}
      (run : Run files s log before t) (set : t.set before key value = .ok (after, u)) :
      Run files s (log ++ [⟨key, value, t.get? key, true⟩]) after u
  | refuse {log : List Attempt} {before : FileTree} {t : Store} {key : Key} {value : Value}
      {e : StoreError} (run : Run files s log before t)
      (refused : t.set before key value = .error e) :
      Run files s (log ++ [⟨key, value, t.get? key, false⟩]) before t
  | around {log : List Attempt} {before after : FileTree} {t : Store}
      (run : Run files s log before t) (same : t.fileText? after = t.fileText? before) :
      Run files s log after t

/-- The value of the last attempt for a setting that succeeded, if there is one. -/
def lastSet? (log : List Attempt) (key : Key) : Option Value :=
  (log.reverse.find? fun a => a.succeeded && a.key == key).map (·.value)

theorem lastSet?_concat (log : List Attempt) (a : Attempt) (key : Key) :
    lastSet? (log ++ [a]) key =
      if a.succeeded = true ∧ a.key = key then some a.value else lastSet? log key := by
  unfold lastSet?
  rw [List.reverse_concat, List.find?_cons]
  by_cases own : a.succeeded = true ∧ a.key = key
  · simp [own]
  · have other : (a.succeeded && a.key == key) = false := by
      rw [Bool.eq_false_iff]
      simpa using own
    rw [other, if_neg own]

/-! ### One attempt -/

theorem file_commit (s : Store) (key : Key) (value : Value) : (s.commit key value).file = s.file := rfl

/-- A value that is set is there already, or it is committed, and the file is written anew. -/
theorem set_effect {s t : Store} {files written : FileTree} {key : Key} {value : Value}
    (set : s.set files key value = .ok (written, t)) :
    (s.values.has key value = true ∧ written = files ∧ t = s) ∨
      (s.values.has key value = false ∧ t = s.commit key value ∧
        t.fileText? written = s.file.map fun _ => render t.values) := by
  cases has : s.values.has key value with
  | true =>
    rw [Store.set, if_pos has] at set
    cases set
    exact .inl ⟨rfl, rfl, rfl⟩
  | false =>
    obtain ⟨saved, rfl⟩ := save_of_set has set
    refine .inr ⟨rfl, rfl, ?_⟩
    rw [fileText?, file_commit]
    unfold save at saved
    cases file : s.file with
    | none => rfl
    | some path =>
      simp only [file] at saved
      split at saved
      · rename_i files' done
        cases saved
        rw [Option.bind_some, FileTree.read_write done]
        rfl
      · cases saved

/-! ### Whole runs -/

/-- The store with the values of these attempts committed, one after the other. -/
def commitAll (s : Store) (changes : List Attempt) : Store :=
  changes.foldl (fun s a => s.commit a.key a.value) s

theorem commitAll_concat (s : Store) (changes : List Attempt) (a : Attempt) :
    s.commitAll (changes ++ [a]) = (s.commitAll changes).commit a.key a.value := by
  simp [commitAll]

theorem file_commitAll (s : Store) (changes : List Attempt) : (s.commitAll changes).file = s.file := by
  induction changes using List.reverseRecOn with
  | nil => rfl
  | append_singleton changes a ih => rw [commitAll_concat, file_commit, ih]

theorem events_commitAll (s : Store) (changes : List Attempt) :
    (s.commitAll changes).feed.events = s.feed.events ++ changes.map Attempt.key := by
  induction changes using List.reverseRecOn with
  | nil => exact (List.append_nil _).symm
  | append_singleton changes a ih =>
    rw [commitAll_concat, feed_commit, Feed.raise, ih, List.map_append, List.append_assoc]
    rfl

/-- A setting that has a value keeps its place, another one goes last. -/
theorem keys_commitAll {s : Store} (once : (s.values.map Prod.fst).Nodup) (changes : List Attempt) :
    (s.commitAll changes).values.map Prod.fst =
      (s.values.map Prod.fst ++ changes.map Attempt.key).eraseDups := by
  induction changes using List.reverseRecOn with
  | nil =>
    rw [List.map_nil, List.append_nil, eraseDups_of_nodup once]
    rfl
  | append_singleton changes a ih =>
    rw [commitAll_concat, commit, Values.map_fst_insert, ih, List.map_append, List.map_singleton,
      ← List.append_assoc, eraseDups_concat]

section Runs

variable {files after : FileTree} {s t : Store} {log : List Attempt}

/-- The store at the end of a run is the first one with the changes committed. -/
theorem Run.eq_commitAll (run : Run files s log after t) :
    t = s.commitAll (log.filter Attempt.changed) := by
  induction run with
  | start => rfl
  | @set log before after t u key value run set ih =>
    rw [List.filter_append]
    obtain ⟨has, -, rfl⟩ | ⟨fresh, rfl, -⟩ := set_effect set
    · have idle : Attempt.changed ⟨key, value, u.get? key, true⟩ = false := by
        simpa [Attempt.changed, Values.has, get?] using has
      rw [List.filter_cons_of_neg (by simp [idle]), List.filter_nil, List.append_nil]
      exact ih
    · have news : Attempt.changed ⟨key, value, t.get? key, true⟩ = true := by
        simpa [Attempt.changed, Values.has, get?] using fresh
      rw [List.filter_cons_of_pos news, List.filter_nil, commitAll_concat, ← ih]
  | refuse run refused ih =>
    rw [List.filter_append, List.filter_cons_of_neg (by simp [Attempt.changed]), List.filter_nil,
      List.append_nil]
    exact ih
  | around run same ih => exact ih

theorem Run.file_eq (run : Run files s log after t) : t.file = s.file := by
  rw [run.eq_commitAll, file_commitAll]

/-- The file is as it was found until a value changes, and then shows the values. -/
theorem Run.fileText?_eq (run : Run files s log after t) :
    t.fileText? after =
      if log.any Attempt.changed then s.file.map fun _ => render t.values
      else s.fileText? files := by
  induction run with
  | start => rfl
  | @set log before after t u key value run set ih =>
    rw [List.any_append]
    obtain ⟨has, rfl, rfl⟩ | ⟨fresh, rfl, text⟩ := set_effect set
    · have idle : Attempt.changed ⟨key, value, u.get? key, true⟩ = false := by
        simpa [Attempt.changed, Values.has, get?] using has
      simp only [List.any_cons, idle, List.any_nil, Bool.or_false]
      exact ih
    · have news : Attempt.changed ⟨key, value, t.get? key, true⟩ = true := by
        simpa [Attempt.changed, Values.has, get?] using fresh
      simp only [List.any_cons, news, Bool.true_or, Bool.or_true, if_true]
      rw [text, run.file_eq]
  | refuse run refused ih =>
    simp only [List.any_append, List.any_cons, Attempt.changed, Bool.false_and, List.any_nil,
      Bool.or_false]
    exact ih
  | around run same ih => exact same.trans ih

/-- A setting has the value that it was last set to, or the one that it had at the start. -/
theorem Run.get?_eq (run : Run files s log after t) (key : Key) :
    match lastSet? log key with
    | some value => ∃ v, t.get? key = some v ∧ (value.isFinite = true → v.same value = true)
    | none => t.get? key = s.get? key := by
  induction run with
  | start => rfl
  | @set log before after t u own value run set ih =>
    rw [lastSet?_concat]
    by_cases same : own = key
    · subst same
      rw [if_pos ⟨rfl, rfl⟩]
      obtain ⟨has, -, rfl⟩ | ⟨-, rfl, -⟩ := set_effect set
      · obtain ⟨v, found, same⟩ := (Option.any_eq_true _ _).1 has
        exact ⟨v, found, fun _ => same⟩
      · refine ⟨value, ?_, value.same_self⟩
        rw [get?_commit, if_pos rfl]
    · rw [if_neg fun last => same last.2]
      have kept : u.get? key = t.get? key := by
        obtain ⟨-, -, rfl⟩ | ⟨-, rfl, -⟩ := set_effect set
        · rfl
        · rw [get?_commit, if_neg (Ne.symm same)]
      rw [kept]
      exact ih
  | refuse run refused ih =>
    rw [lastSet?_concat, if_neg fun last => Bool.false_ne_true last.1]
    exact ih
  | around run same ih => exact ih

/-- An attempt that fails leaves the store and the text of its file as they were before it. -/
theorem Run.of_refused (run : Run files s log after t) {earlier : List Attempt} {a : Attempt}
    (last : log = earlier ++ [a]) (refused : a.succeeded = false) :
    ∃ before, Run files s earlier before t ∧ t.fileText? after = t.fileText? before := by
  induction run with
  | start => simp at last
  | set run set ih =>
    obtain ⟨-, same⟩ := List.append_inj' last rfl
    obtain ⟨rfl, -⟩ := List.cons.inj same
    cases refused
  | refuse run _ ih =>
    obtain ⟨rfl, -⟩ := List.append_inj' last rfl
    exact ⟨_, run, rfl⟩
  | around run same ih =>
    obtain ⟨before, run, text⟩ := ih last
    exact ⟨before, run, same.trans text⟩

end Runs

/-! ### New stores -/

/-- A store as it comes to be: in memory, or over a file that is missing or that holds settings. -/
def IsNew (s : Store) (files : FileTree) : Prop := s = {} ∨ ∃ path, openFile files path = .ok s

theorem nodup_insert {values : Values} (once : (values.map Prod.fst).Nodup) (key : Key)
    (value : Value) : ((values.insert key value).map Prod.fst).Nodup := by
  rw [Values.map_fst_insert]
  split
  · exact once
  · rename_i fresh
    exact List.nodup_append.2 ⟨once, List.pairwise_singleton _ _, by
      rintro k mem _ last rfl
      exact fresh (List.mem_singleton.1 last ▸ mem)⟩

theorem nodup_ofFields {fields : List (List Json.Piece × Json.Tree)} {values loaded : Values}
    (once : (values.map Prod.fst).Nodup) (read : ofFields values fields = some loaded) :
    (loaded.map Prod.fst).Nodup := by
  induction fields generalizing values with
  | nil =>
    cases read
    exact once
  | cons field rest ih =>
    obtain ⟨name, tree⟩ := field
    simp only [ofFields, bind, Option.bind_eq_some_iff] at read
    obtain ⟨name, -, value, -, read⟩ := read
    split at read
    · exact ih (nodup_insert once _ _) read
    · exact ih once read

theorem nodup_parse? {text : String} {values : Values} (read : parse? text = some values) :
    (values.map Prod.fst).Nodup := by
  have nothing : (([] : Values).map Prod.fst).Nodup := List.nodup_nil
  unfold parse? at read
  split at read
  · exact nodup_ofFields nothing read
  · cases read

theorem nodup_load {files : FileTree} {path : Path} {values : Values}
    (loaded : load files path = .ok values) : (values.map Prod.fst).Nodup := by
  unfold load at loaded
  split at loaded
  · split at loaded
    · cases loaded
    · split at loaded
      · rename_i read
        cases loaded
        exact nodup_parse? read
      · cases loaded
  · cases loaded
    exact List.nodup_nil

/-- A new store has raised no event, and has each setting once. -/
theorem IsNew.start {s : Store} {files : FileTree} (new : s.IsNew files) :
    s.feed.events = [] ∧ (s.values.map Prod.fst).Nodup := by
  obtain rfl | ⟨path, opened⟩ := new
  · exact ⟨rfl, List.nodup_nil⟩
  · unfold openFile at opened
    cases loaded : load files path with
    | error e => simp [loaded, bind, Except.bind] at opened
    | ok values =>
      simp only [loaded, bind, Except.bind, pure, Except.pure, Except.ok.injEq] at opened
      subst opened
      exact ⟨rfl, nodup_load loaded⟩

/-- After every run of a new store, whichever attempts failed: each setting has the value that it was
last set to, or the one that was loaded; the events are those of the attempts that changed a value,
in order; settings are in the order in which they were loaded or came first; the file is as it was
found until a value changes, and then shows the values in this order; and an attempt that failed
left the store and the text of its file as they were. -/
theorem accounts_of_run {files after : FileTree} {s t : Store} {log : List Attempt}
    (new : s.IsNew files) (run : Run files s log after t) :
    (∀ key, match lastSet? log key with
      | some value => ∃ v, t.get? key = some v ∧ (value.isFinite = true → v.same value = true)
      | none => t.get? key = s.get? key) ∧
    t.feed.events = (log.filter Attempt.changed).map Attempt.key ∧
    t.values.map Prod.fst = (s.values.map Prod.fst ++ t.feed.events).eraseDups ∧
    t.file = s.file ∧
    (∀ path, s.file = some path → (after.read path).toOption =
      if t.feed.events = [] then (files.read path).toOption else some (render t.values)) ∧
    ∀ earlier a, log = earlier ++ [a] → a.succeeded = false →
      ∃ before, Run files s earlier before t ∧ t.fileText? after = t.fileText? before := by
  obtain ⟨silent, once⟩ := new.start
  have events : t.feed.events = (log.filter Attempt.changed).map Attempt.key := by
    rw [run.eq_commitAll, events_commitAll, silent, List.nil_append]
  refine ⟨run.get?_eq, events, ?_, run.file_eq, fun path backed => ?_, fun earlier a => run.of_refused⟩
  · rw [events, run.eq_commitAll, keys_commitAll once]
  · have text := run.fileText?_eq
    simp only [fileText?, run.file_eq, backed, Option.bind_some, Option.map_some] at text
    rw [text, events]
    by_cases changes : log.any Attempt.changed = true
    · have some : (log.filter Attempt.changed).map Attempt.key ≠ [] := by
        simpa [List.filter_eq_nil_iff] using changes
      rw [if_pos changes, if_neg some]
    · have none : (log.filter Attempt.changed).map Attempt.key = [] := by
        simpa [List.filter_eq_nil_iff] using changes
      rw [if_neg changes, if_pos none]

theorem eq_ok_of_toOption {ε α : Type} {x : Except ε α} {a : α} (some : x.toOption = some a) :
    x = .ok a := by
  cases x with
  | error e => cases some
  | ok b => rw [Option.some.inj some]

/-- A settings file with one setting, and with a name that is none. -/
def settingsFile : FileTree where
  entries := [(["s"], ⟨fileMode, .text "\x7b\"modelVersion\": \"4.0.0\", \"other\": 1\x7d"⟩)]

/-- A setting is set, and after that the file admits no other one. -/
theorem accounts_of_run_refused :
    ∃ s t after log, openFile settingsFile ⟨"/s"⟩ = .ok s ∧ Run settingsFile s log after t ∧
      log.length = 2 ∧ t.feed.events = [.platformVersion] ∧
      (after.read ⟨"/s"⟩).toOption = some (render t.values) := by
  have reached : (openFile settingsFile ⟨"/s"⟩).toOption.any (fun s =>
      ((s.get? .platformVersion).isNone && s.file == some ⟨"/s"⟩) &&
        (s.set settingsFile .platformVersion (.string "6.1")).toOption.any fun (files, t) =>
          !(t.set (files.setModes ["s"] 0o444) .modelVersion (.string "4.1.0")).isOk) = true := by
    decide +kernel
  obtain ⟨s, opened, holds⟩ := (Option.any_eq_true _ _).1 reached
  rw [Bool.and_eq_true, Bool.and_eq_true, Option.isNone_iff_eq_none, beq_iff_eq] at holds
  obtain ⟨⟨unset, backed⟩, more⟩ := holds
  obtain ⟨⟨files, t⟩, set, fails⟩ := (Option.any_eq_true _ _).1 more
  replace opened := eq_ok_of_toOption opened
  replace set := eq_ok_of_toOption set
  obtain ⟨e, refused⟩ : ∃ e, t.set (files.setModes ["s"] 0o444) .modelVersion (.string "4.1.0") =
      .error e := by
    cases outcome : t.set (files.setModes ["s"] 0o444) .modelVersion (.string "4.1.0") with
    | ok next => simp [outcome, Except.isOk, Except.toBool] at fails
    | error e => exact ⟨e, rfl⟩
  have same : t.fileText? (files.setModes ["s"] 0o444) = t.fileText? files := by
    simp only [fileText?, (FileTree.sameContent_setModes files ["s"] 0o444).read]
  have run := ((Run.start.set set).around same).refuse refused
  obtain ⟨-, events, -, -, text, -⟩ := accounts_of_run (.inr ⟨_, opened⟩) run
  have changes : t.feed.events = [.platformVersion] := by
    rw [events]
    simp [Attempt.changed, unset]
  refine ⟨s, t, _, _, opened, run, rfl, changes, ?_⟩
  rw [text _ backed, if_neg (by simp [changes])]

end Store

end ModelWorkspace.Setting
