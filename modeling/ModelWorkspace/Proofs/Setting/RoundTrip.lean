import ModelWorkspace.Proofs.Json.RoundTrip
import ModelWorkspace.Proofs.Setting.History

/-! The settings file, written and read again. The file is an object whose members are the settings by
their names, so what is written for settings without floats is read as the same settings. What is
read out of any file is the settings among its members, each with its last value. -/
namespace ModelWorkspace.Setting

open Json (Value Tree Piece)

theorem Key.ofName?_eq_some {s : String} {k : Key} : Key.ofName? s = some k ↔ k.name = s := by
  constructor
  · intro found
    simpa using List.find?_some found
  · rintro rfl
    exact Key.ofName?_name k

namespace Values

theorem insert_of_notMem {values : Values} {key : Key} (fresh : key ∉ values.map Prod.fst)
    (value : Value) : values.insert key value = values ++ [(key, value)] := by
  induction values with
  | nil => rfl
  | cons entry rest ih =>
    obtain ⟨k, v⟩ := entry
    rw [List.map_cons, List.mem_cons, not_or] at fresh
    rw [insert, if_neg (Ne.symm fresh.1), ih fresh.2, List.cons_append]

/-- The settings after these have been set, one after the other. -/
def insertAll (values : Values) (settings : List (Key × Value)) : Values :=
  settings.foldl (fun values entry => values.insert entry.1 entry.2) values

theorem insertAll_concat (values : Values) (settings : List (Key × Value)) (entry : Key × Value) :
    values.insertAll (settings ++ [entry]) = (values.insertAll settings).insert entry.1 entry.2 := by
  simp [insertAll]

theorem map_fst_insertAll (settings : List (Key × Value)) :
    (insertAll [] settings).map Prod.fst = (settings.map Prod.fst).eraseDups := by
  induction settings using List.reverseRecOn with
  | nil => rfl
  | append_singleton settings entry ih =>
    rw [insertAll_concat, map_fst_insert, ih, List.map_append, List.map_singleton, eraseDups_concat]

theorem mem_of_mem_insert {values : Values} {key : Key} {value : Value} {entry : Key × Value}
    (mem : entry ∈ values.insert key value) : entry = (key, value) ∨ entry ∈ values := by
  induction values with
  | nil => exact .inl (List.mem_singleton.1 mem)
  | cons first rest ih =>
    obtain ⟨k, v⟩ := first
    unfold insert at mem
    split at mem
    · rename_i same
      subst same
      exact (List.mem_cons.1 mem).imp_right (List.mem_cons_of_mem _)
    · obtain rfl | mem := List.mem_cons.1 mem
      · exact .inr List.mem_cons_self
      · exact (ih mem).imp_right (List.mem_cons_of_mem _)

theorem mem_of_mem_insertAll {settings : List (Key × Value)} {entry : Key × Value}
    (mem : entry ∈ insertAll [] settings) : entry ∈ settings := by
  induction settings using List.reverseRecOn with
  | nil => exact mem
  | append_singleton settings last ih =>
    rw [insertAll_concat] at mem
    obtain rfl | mem := mem_of_mem_insert mem
    · exact List.mem_append_right _ (List.mem_singleton_self _)
    · exact List.mem_append_left _ (ih mem)

theorem get?_insertAll (settings : List (Key × Value)) (key : Key) :
    (insertAll [] settings).get? key = settings.reverse.lookup key := by
  induction settings using List.reverseRecOn with
  | nil => rfl
  | append_singleton settings entry ih =>
    obtain ⟨k, v⟩ := entry
    rw [insertAll_concat, get?_insert, List.reverse_concat, List.lookup_cons, ih]
    by_cases same : key = k
    · simp [same]
    · have other : (key == k) = false := by simp [same]
      rw [if_neg same, other]

end Values

namespace Store

/-! ### Reading -/

/-- A member of an object, with the value that a file may hold there. -/
def member? (field : List Piece × Tree) : Option (String × Value) := do
  let name ← Json.decode field.1
  let value ← Value.ofTree valueDepth field.2
  return (String.ofList name, value)

/-- The members of the object that a text holds, as they come. -/
def members? (text : String) : Option (List (String × Value)) :=
  match Tree.read text.toList with
  | some (.object fields) => fields.mapM member?
  | _ => none

def setting? (member : String × Value) : Option (Key × Value) :=
  (Key.ofName? member.1).map fun key => (key, member.2)

theorem ofFields_eq (values : Values) (fields : List (List Piece × Tree)) :
    ofFields values fields =
      (fields.mapM member?).map fun members => values.insertAll (members.filterMap setting?) := by
  induction fields generalizing values with
  | nil => rfl
  | cons field rest ih =>
    obtain ⟨name, tree⟩ := field
    rw [ofFields, List.mapM_cons, member?]
    cases Json.decode name with
    | none => rfl
    | some name =>
      cases Value.ofTree valueDepth tree with
      | none => rfl
      | some value =>
        simp only [bind, pure, Option.bind_some]
        cases known : Key.ofName? (String.ofList name) with
        | none =>
          rw [ih]
          cases rest.mapM member? <;> simp [setting?, known]
        | some key =>
          simp only [ih]
          cases rest.mapM member? <;> simp [setting?, known, Values.insertAll]

theorem parse?_eq (text : String) :
    parse? text =
      (members? text).map fun members => Values.insertAll [] (members.filterMap setting?) := by
  unfold parse? members?
  cases Tree.read text.toList with
  | none => rfl
  | some tree =>
    cases tree with
    | object fields => exact ofFields_eq [] fields
    | null => rfl
    | bool b => rfl
    | number n => rfl
    | string pieces => rfl
    | array items => rfl

theorem map_fst_filterMap_setting? (members : List (String × Value)) :
    (members.filterMap setting?).map Prod.fst = members.filterMap fun m => Key.ofName? m.1 := by
  induction members with
  | nil => rfl
  | cons m rest ih => cases known : Key.ofName? m.1 <;> simp [setting?, known, ih]

theorem lookup_filterMap_setting? (members : List (String × Value)) (key : Key) :
    (members.filterMap setting?).lookup key = members.lookup key.name := by
  induction members with
  | nil => rfl
  | cons m rest ih =>
    obtain ⟨name, value⟩ := m
    by_cases same : key.name = name
    · have known := Key.ofName?_eq_some.2 same
      simp [setting?, known, same]
    · have other : (key.name == name) = false := by simp [same]
      rw [List.lookup_cons, other, ← ih]
      cases known : Key.ofName? name with
      | none => simp [setting?, known]
      | some k =>
        have different : (key == k) = false := by
          rw [beq_eq_false_iff_ne]
          rintro rfl
          exact same (Key.ofName?_eq_some.1 known)
        simp [setting?, known, List.lookup_cons, different]

/-- What is read out of a text: the settings among its members, in the order in which they come first,
each with its last value. -/
theorem parse?_cases {text : String} {values : Values} (read : parse? text = some values) :
    ∃ members, members? text = some members ∧
      values.map Prod.fst = (members.filterMap fun m => Key.ofName? m.1).eraseDups ∧
      ∀ key, values.get? key = members.reverse.lookup key.name := by
  rw [parse?_eq] at read
  obtain ⟨members, held, rfl⟩ := Option.map_eq_some_iff.1 read
  refine ⟨members, held, ?_, fun key => ?_⟩
  · rw [Values.map_fst_insertAll, map_fst_filterMap_setting?]
  · rw [Values.get?_insertAll, ← List.filterMap_reverse, lookup_filterMap_setting?]

theorem isExact_of_members? {text : String} {members : List (String × Value)}
    (held : members? text = some members) {m : String × Value} (mem : m ∈ members)
    (plain : m.2.hasFloat = false) : m.2.isExact valueDepth = true := by
  unfold members? at held
  split at held
  · rename_i fields tree
    clear tree
    induction fields generalizing members with
    | nil =>
      cases held
      cases mem
    | cons field rest ih =>
      rw [List.mapM_cons] at held
      simp only [bind, pure, Option.bind_eq_some_iff, Option.some.injEq] at held
      obtain ⟨first, member, others, held, rfl⟩ := held
      obtain rfl | mem := List.mem_cons.1 mem
      · simp only [member?, bind, pure, Option.bind_eq_some_iff, Option.some.injEq] at member
        obtain ⟨name, -, value, read, rfl⟩ := member
        exact Value.isExact_of_ofTree _ read plain
      · exact ih mem held
  · cases held

/-- Settings that were read are exact, but for their floats. -/
theorem isExact_of_parse? {text : String} {values : Values} (read : parse? text = some values)
    {entry : Key × Value} (mem : entry ∈ values) (plain : entry.2.hasFloat = false) :
    entry.2.isExact valueDepth = true := by
  rw [parse?_eq] at read
  obtain ⟨members, held, rfl⟩ := Option.map_eq_some_iff.1 read
  obtain ⟨m, member, known⟩ := List.mem_filterMap.1 (Values.mem_of_mem_insertAll mem)
  obtain ⟨key, -, rfl⟩ := Option.map_eq_some_iff.1 known
  exact isExact_of_members? held member plain

/-! ### Writing -/

theorem ofFields_ofFields {values : Values} (done : Values)
    (once : ((done ++ values).map Prod.fst).Nodup)
    (exact : ∀ entry ∈ values, entry.2.isExact valueDepth = true) :
    ofFields done (Tree.ofFields (values.map fun (key, value) => (key.name, value))) =
      some (done ++ values) := by
  induction values generalizing done with
  | nil => simp [Tree.ofFields, ofFields]
  | cons entry rest ih =>
    obtain ⟨key, value⟩ := entry
    have fresh : key ∉ done.map Prod.fst := by
      rw [List.map_append, List.nodup_append] at once
      exact fun mem => once.2.2 key mem key List.mem_cons_self rfl
    have value_eq := Value.ofTree_ofValue value (exact (key, value) List.mem_cons_self)
    have next := ih (done ++ [(key, value)]) (by simpa using once)
      fun entry mem => exact entry (List.mem_cons_of_mem _ mem)
    rw [List.append_assoc, List.singleton_append] at next
    rw [List.map_cons, Tree.ofFields, ofFields, Piece.ofString, Json.decode_written]
    simp only [bind, Option.bind_some, value_eq, String.ofList_toList, Key.ofName?_name,
      Values.insert_of_notMem fresh]
    exact next

/-- Settings whose values a file can hold are read out of the text that is written for them. -/
theorem parse?_render {values : Values} (once : (values.map Prod.fst).Nodup)
    (exact : ∀ entry ∈ values, entry.2.isExact valueDepth = true) :
    parse? (render values) = some values := by
  have plain : Value.fieldsHaveFloat (values.map fun (key, value) => (key.name, value)) = false := by
    rw [Value.fieldsHaveFloat_eq_false_iff]
    intro field mem
    obtain ⟨entry, there, rfl⟩ := List.mem_map.1 mem
    exact Value.hasFloat_of_isExact _ (exact entry there)
  rw [parse?, render, Json.prettyObject, String.toList_ofList, Tree.read_pretty plain]
  exact ofFields_ofFields [] once exact

/-- Settings that were saved are the ones that are loaded again, if a file can hold them. -/
theorem load_save {s : Store} {files after : FileTree} {path : Path} {values : Values}
    (backed : s.file = some path) (saved : s.save files values = .ok after)
    (holds : parse? (render values) = some values) : load after path = .ok values := by
  simp only [save, backed] at saved
  split at saved
  · rename_i written
    cases saved
    have text := FileTree.read_write written
    have there : after.exists? path = true := by
      unfold FileTree.read at text
      unfold FileTree.exists?
      cases found : after.resolve path with
      | error fault => simp [found, bind, Except.bind] at text
      | ok l => rfl
    rw [load, if_pos there, text]
    simp only [holds]
  · cases saved

/-- Settings that a file can hold come back from it, in their order. What is read out of any text is
the settings among its members, in the order in which they come first, each with its last value; and
unless there are floats in it, it is what a file can hold, so that it comes back and is written as
before. -/
theorem settings_round_trip :
    (∀ values : Values, (values.map Prod.fst).Nodup →
      (∀ entry ∈ values, entry.2.isExact valueDepth = true) →
      parse? (render values) = some values ∧
      ∀ (s : Store) (files after : FileTree) (path : Path), s.file = some path →
        s.save files values = .ok after → load after path = .ok values) ∧
    ∀ (text : String) (values : Values), parse? text = some values →
      (∃ members, members? text = some members ∧
        values.map Prod.fst = (members.filterMap fun m => Key.ofName? m.1).eraseDups ∧
        ∀ key, values.get? key = members.reverse.lookup key.name) ∧
      ((∀ entry ∈ values, entry.2.hasFloat = false) →
        parse? (render values) = some values ∧
        (parse? (render values)).map render = some (render values)) := by
  refine ⟨?_, ?_⟩
  · intro values once exact
    have back := parse?_render once exact
    exact ⟨back, fun s files after path backed saved => load_save backed saved back⟩
  · intro text values read
    refine ⟨parse?_cases read, fun plain => ?_⟩
    have once : (values.map Prod.fst).Nodup := nodup_parse? read
    have back := parse?_render once fun entry mem => isExact_of_parse? read mem (plain entry mem)
    exact ⟨back, congrArg (Option.map render) back⟩

/-- Escapes, the integers at both ends, and members that are empty. -/
def oddSettings : Values :=
  [(.telemetryConsent, .object [("", .array []), ("\"\\", .string "\u0001\n\u00e9/")]),
    (.modelVersion, .array [.int (-9223372036854775808), .int 18446744073709551615, .object []])]

theorem settings_round_trip_odd : parse? (render oddSettings) = some oddSettings :=
  (settings_round_trip.1 oddSettings (by decide) (by decide)).1

end Store

end ModelWorkspace.Setting
