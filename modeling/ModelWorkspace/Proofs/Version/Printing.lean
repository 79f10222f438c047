import ModelWorkspace.Proofs.Json.RoundTrip
import ModelWorkspace.Proofs.Version.Reading
import ModelWorkspace.Version.Json
import ModelWorkspace.Version.Range

/-! Versions and ranges that survive printing. What is printed for a version begins with a digit and
has no white space anywhere, so none of what a reader takes away or refuses in front of a version is
ever found in it. -/
namespace ModelWorkspace

open Text (isBlank isDigit)

/-! ### Versions -/

namespace Version

theorem normalize_text (v : Version) : normalize v.text = .ok v := by
  have read : normalize? v.text = some v := by
    rw [normalize?, text, String.toList_ofList, normalizeChars?_chars]
  rw [normalize, read]

/-- The JSON of a version is the string of its text. -/
theorem string?_read_json (v : Version) :
    (Json.Tree.read v.json.toList).bind Json.Tree.string? = some v.text := by
  have quoted : v.json.toList = Json.quote v.text.toList ++ [] := by
    rw [json, Json.Value.text, String.toList_ofList, Json.Value.compact, List.append_nil]
  have whole : Json.Tree.read v.json.toList = some (.string (Json.Piece.ofString v.text)) := by
    rw [Json.Tree.read, quoted]
    change (Json.State.run ⟨.value, []⟩ _).bind _ = _
    rw [Json.State.run_quote (.inl rfl)]
    rfl
  rw [whole, Option.bind_some, Json.Tree.string?, Json.decode_ofString]

theorem ofJson?_json (v : Version) : ofJson? v.json = some v := by
  rw [ofJson?, string?_read_json, Option.bind_some, normalize?, text, String.toList_ofList,
    normalizeChars?_chars]

theorem exists_digit_chars (v : Version) : ∃ c rest, v.chars = c :: rest ∧ isDigit c = true :=
  exists_digit_of_ofShortChars? (ofShortChars?_chars v)

theorem visible_chars (v : Version) : ∀ c ∈ v.chars, isBlank c = false :=
  visible_of_ofShortChars? (ofShortChars?_chars v)

end Version

/-! ### Ranges -/

namespace Range

theorem visible_chars (r : Range) : ∀ c ∈ r.chars, isBlank c = false := by
  cases r with
  | exact v => exact v.visible_chars
  | atLeast v =>
    simp only [chars, List.mem_cons]
    rintro c (rfl | rfl | mem)
    · decide
    · decide
    · exact v.visible_chars c mem

theorem isUnsupported_chars (v : Version) : isUnsupported v.chars = false := by
  obtain ⟨first, rest, begins, digit⟩ := v.exists_digit_chars
  have space : ' ' ∉ v.chars := fun mem => absurd (v.visible_chars ' ' mem) (by decide)
  have plain (c : Char) (other : isDigit c = false) : first ≠ c :=
    Text.ne_of_class isDigit digit other
  simp only [isUnsupported, Bool.or_eq_false_iff, List.contains_eq_mem, decide_eq_false_iff_not]
  refine ⟨?_, space⟩
  simp [begins, plain '<' rfl, plain '>' rfl, plain '^' rfl, plain '~' rfl]

theorem ofTrimmed?_chars (r : Range) : ofTrimmed? r.chars = some r := by
  cases r with
  | atLeast v => rw [chars, ofTrimmed?, Version.normalizeChars?_chars, Option.map_some]
  | exact v =>
    rw [chars]
    unfold ofTrimmed?
    split
    · -- A version does not begin like a lower bound.
      rename_i rest bound
      obtain ⟨first, others, begins, digit⟩ := v.exists_digit_chars
      rw [bound, List.cons.injEq] at begins
      rw [← begins.1] at digit
      cases digit
    · rw [isUnsupported_chars, Version.normalizeChars?_chars]
      rfl

theorem parse_text (r : Range) : parse r.text = .ok r := by
  have read : ofText? r.text = some r := by
    rw [ofText?, text, String.toList_ofList, Text.trim_of_visible r.visible_chars, ofTrimmed?_chars]
  rw [parse, read]

end Range

/-! ### Both -/

/-- A version is read back from its text and from its JSON, and a range from its text, with nothing
lost. So a text that was read and printed stays as it is when that is done again, and what is printed
for a range that was read contains the same versions. -/
theorem Version.survives_printing :
    (∀ v : Version, normalize v.text = .ok v ∧ ofJson? v.json = some v) ∧
      (∀ s t, (normalize s).map text = .ok t → (normalize t).map text = .ok t) ∧
      (∀ r : Range, Range.parse r.text = .ok r) ∧
      ∀ s r, Range.parse s = .ok r →
        ∃ printed, Range.parse r.text = .ok printed ∧ ∀ v, v ∈ printed ↔ v ∈ r := by
  refine ⟨fun v => ⟨normalize_text v, ofJson?_json v⟩, ?_, Range.parse_text, ?_⟩
  · intro s t read
    cases parsed : normalize s with
    | error e =>
      rw [parsed] at read
      cases read
    | ok v =>
      rw [parsed] at read
      cases read
      rw [normalize_text]
      rfl
  · intro s r _
    exact ⟨r, Range.parse_text r, fun v => Iff.rfl⟩

/-- With numbers left out, hyphens and digits inside identifiers, a build, and white space around. -/
theorem Version.survives_printing_short :
    (normalize " v4.0--a.01b+v.007 ").map text = .ok "4.0.0--a.01b+v.007" ∧
      (normalize "4.0.0--a.01b+v.007").map text = .ok "4.0.0--a.01b+v.007" ∧
      ∃ r printed, Range.parse " >= 4-a+b " = .ok r ∧ Range.parse r.text = .ok printed ∧
        ∀ v, v ∈ printed ↔ v ∈ r := by
  have read : (normalize " v4.0--a.01b+v.007 ").map text = .ok "4.0.0--a.01b+v.007" := by
    decide +kernel
  have bound : Range.parse " >= 4-a+b " = .ok (.atLeast
      ⟨4, 0, 0, [.word { chars := ['a'] }], [{ chars := ['b'] }]⟩) := by
    decide +kernel
  obtain ⟨printed, again, same⟩ := survives_printing.2.2.2 _ _ bound
  exact ⟨read, survives_printing.2.1 _ _ read, _, printed, bound, again, same⟩

end ModelWorkspace
