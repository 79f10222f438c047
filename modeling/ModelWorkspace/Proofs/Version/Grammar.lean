import Mathlib.Data.Set.List
import ModelWorkspace.Proofs.Version.Reading

/-! The grammar of versions as people write them. A version is written with one to three numbers and,
behind them, the identifiers of a pre-release and of a build; around it there may be white space, and
in front of it one mark. The reader takes the texts of this grammar and no others. -/
namespace ModelWorkspace.Version

open Text (isDigit decimal valueOf IsBlank)

/-! ### Parts -/

/-- A number of 64 bits in decimal digits, without a zero in front of others. -/
structure IsNumber (s : List Char) : Prop where
  nonempty : s ≠ []
  digits : ∀ c ∈ s, isDigit c = true
  front : s.head? = some '0' → s = ['0']
  fits : valueOf s < UInt64.size

/-- Letters, digits and hyphens. -/
structure IsBuildIdentifier (s : List Char) : Prop where
  nonempty : s ≠ []
  plain : ∀ c ∈ s, isIdentifierChar c = true

/-- The same, but digits alone are a number, which has no zero in front of others. -/
structure IsPreIdentifier (s : List Char) : Prop extends IsBuildIdentifier s where
  front : (∀ c ∈ s, isDigit c = true) → s.head? = some '0' → s = ['0']

theorem isNumber_iff {s : List Char} : IsNumber s ↔ ∃ n : UInt64, decimal n.toNat = s := by
  constructor
  · rintro ⟨nonempty, digits, front, fits⟩
    have numeral : isNumeral s = true := isNumeral_iff.2 ⟨nonempty, digits, front⟩
    refine ⟨UInt64.ofNat (valueOf s), ?_⟩
    rw [UInt64.toNat_ofNat_of_lt' fits, decimal_valueOf_of_isNumeral numeral]
  · rintro ⟨n, rfl⟩
    obtain ⟨nonempty, digits, front⟩ := isNumeral_iff.1 (isNumeral_decimal n.toNat)
    exact ⟨nonempty, digits, front, by simpa [Text.valueOf_decimal] using n.toNat_lt_size⟩

theorem isBuildIdentifier_iff {s : List Char} :
    IsBuildIdentifier s ↔ ∃ b : BuildIdentifier, b.chars = s := by
  constructor
  · rintro ⟨nonempty, plain⟩
    exact ⟨⟨s, by simpa [nonempty] using plain⟩, rfl⟩
  · rintro ⟨b, rfl⟩
    refine ⟨fun none => ?_, fun c mem => BuildIdentifier.isIdentifierChar_of_mem_chars mem⟩
    have valid := b.valid
    simp [none] at valid

theorem isPreIdentifier_iff {s : List Char} :
    IsPreIdentifier s ↔ ∃ i : Identifier, i.chars = s := by
  constructor
  · rintro ⟨⟨nonempty, plain⟩, front⟩
    by_cases digits : ∀ c ∈ s, isDigit c = true
    · have numeral : isNumeral s = true := isNumeral_iff.2 ⟨nonempty, digits, front digits⟩
      exact ⟨.numeric (valueOf s), decimal_valueOf_of_isNumeral numeral⟩
    · have more : s.all isDigit = false := by
        rw [Bool.eq_false_iff, ne_eq, List.all_eq_true]
        exact digits
      exact ⟨.word ⟨s, by simpa [nonempty, more] using plain⟩, rfl⟩
  · rintro ⟨i, rfl⟩
    have plain : ∀ c ∈ i.chars, isIdentifierChar c = true := fun c mem =>
      Identifier.isIdentifierChar_of_mem_chars mem
    cases i with
    | numeric n =>
      obtain ⟨nonempty, -, front⟩ := isNumeral_iff.1 (isNumeral_decimal n)
      exact ⟨⟨nonempty, plain⟩, fun _ => front⟩
    | word w =>
      have valid := w.valid
      refine ⟨⟨fun none => ?_, plain⟩, fun digits => ?_⟩
      · rw [Identifier.chars_word] at none
        simp [none] at valid
      · have all : w.chars.all isDigit = true := List.all_eq_true.2 digits
        simp [all] at valid

/-! ### Whole texts -/

/-- A version in parts: its numbers, the identifiers of its pre-release and those of its build. -/
structure Written where
  numbers : List (List Char)
  pre : List (List Char)
  build : List (List Char)

namespace Written

structure IsValid (w : Written) : Prop where
  few : 1 ≤ w.numbers.length ∧ w.numbers.length ≤ 3
  numbers : ∀ s ∈ w.numbers, IsNumber s
  pre : ∀ s ∈ w.pre, IsPreIdentifier s
  build : ∀ s ∈ w.build, IsBuildIdentifier s

/-- The parts behind one another: a hyphen in front of the pre-release, a plus in front of the build,
and dots inside. -/
def chars (w : Written) : List Char :=
  ['.'].intercalate w.numbers ++
    (if w.pre = [] then [] else '-' :: ['.'].intercalate w.pre) ++
    (if w.build = [] then [] else '+' :: ['.'].intercalate w.build)

/-- A version has the numbers and identifiers that are written. Numbers that are not are zero. -/
structure StandsFor (w : Written) (v : Version) : Prop where
  numbers : ∃ numbers : List UInt64, numbers.map (fun n => decimal n.toNat) = w.numbers ∧
    [v.major, v.minor, v.patch] = numbers ++ List.replicate (3 - numbers.length) 0
  pre : v.pre.map Identifier.chars = w.pre
  build : v.build.map BuildIdentifier.chars = w.build

end Written

/-- A text spells a version if it has nothing else but white space around it, and at most one mark in
front, which may have more white space behind it. -/
def Spells (s : List Char) (w : Written) : Prop :=
  ∃ before mark gap after, s = before ++ mark ++ gap ++ w.chars ++ after ∧
    IsBlank before ∧ IsBlank gap ∧ IsBlank after ∧ mark ∈ [[], ['v'], ['=']] ∧ w.IsValid

theorem Spells.isValid {s : List Char} {w : Written} (spells : Spells s w) : w.IsValid := by
  obtain ⟨before, mark, gap, after, -, -, -, -, -, valid⟩ := spells
  exact valid

theorem exists_map_eq {α : Type} {write : α → List Char} {pieces : List (List Char)}
    (each : ∀ s ∈ pieces, ∃ a, write a = s) : ∃ xs : List α, xs.map write = pieces := by
  rw [← Set.mem_range, Set.range_list_map]
  exact each

namespace Written

/-- What is written stands for a version. -/
theorem IsValid.exists_standsFor {w : Written} (valid : w.IsValid) : ∃ v, w.StandsFor v := by
  obtain ⟨pre, identifiers⟩ := exists_map_eq fun s mem => isPreIdentifier_iff.1 (valid.pre s mem)
  obtain ⟨build, builds⟩ := exists_map_eq fun s mem => isBuildIdentifier_iff.1 (valid.build s mem)
  obtain ⟨numbers, texts⟩ := exists_map_eq fun s mem => isNumber_iff.1 (valid.numbers s mem)
  have few := valid.few
  rw [← texts, List.length_map] at few
  match numbers with
  | [] => exact absurd few.1 (by decide)
  | [a] => exact ⟨⟨a, 0, 0, pre, build⟩, ⟨[a], texts, rfl⟩, identifiers, builds⟩
  | [a, b] => exact ⟨⟨a, b, 0, pre, build⟩, ⟨[a, b], texts, rfl⟩, identifiers, builds⟩
  | [a, b, c] => exact ⟨⟨a, b, c, pre, build⟩, ⟨[a, b, c], texts, rfl⟩, identifiers, builds⟩
  | a :: b :: c :: d :: rest =>
    simp only [List.length_cons] at few
    omega

/-- The parts of a version, with as many numbers as are given. -/
def ofVersion (numbers : List UInt64) (v : Version) : Written :=
  ⟨numbers.map fun n => decimal n.toNat, v.pre.map Identifier.chars, v.build.map BuildIdentifier.chars⟩

theorem chars_ofVersion (numbers : List UInt64) (v : Version) :
    (ofVersion numbers v).chars = numberChars numbers ++ v.preChars ++ v.buildChars := by
  simp [chars, ofVersion, preChars_eq, buildChars_eq, numberChars, identifierChars,
    buildIdentifierChars]

theorem isValid_ofVersion {numbers : List UInt64} (few : 1 ≤ numbers.length ∧ numbers.length ≤ 3)
    (v : Version) : (ofVersion numbers v).IsValid where
  few := by simpa [ofVersion] using few
  numbers := List.forall_mem_map.2 fun n _ => isNumber_iff.2 ⟨n, rfl⟩
  pre := List.forall_mem_map.2 fun i _ => isPreIdentifier_iff.2 ⟨i, rfl⟩
  build := List.forall_mem_map.2 fun b _ => isBuildIdentifier_iff.2 ⟨b, rfl⟩

end Written

/-- The numbers and the suffix of a version are read exactly from what stands for it. -/
theorem ofShortChars?_eq_some_iff_written {s : List Char} {v : Version} :
    ofShortChars? s = some v ↔ ∃ w : Written, w.IsValid ∧ w.chars = s ∧ w.StandsFor v := by
  rw [ofShortChars?_eq_some_iff]
  constructor
  · rintro ⟨numbers, some, short, rfl⟩
    have length := congrArg List.length short
    have long := List.length_pos_of_ne_nil some
    simp only [List.length_cons, List.length_nil, List.length_append, List.length_replicate]
      at length
    refine ⟨.ofVersion numbers v, Written.isValid_ofVersion (by omega) v,
      Written.chars_ofVersion numbers v, ⟨numbers, rfl, short⟩, rfl, rfl⟩
  · rintro ⟨⟨texts, pre, build⟩, valid, rfl, ⟨numbers, same, short⟩, pre', build'⟩
    dsimp only at same pre' build'
    subst same pre' build'
    refine ⟨numbers, ?_, short, (Written.chars_ofVersion numbers v).symm⟩
    rintro rfl
    have few := valid.few.1
    simp at few

theorem normalize?_eq_some_iff {s : String} {v : Version} :
    normalize? s = some v ↔ ∃ w, Spells s.toList w ∧ w.StandsFor v := by
  rw [normalize?, normalizeChars?_eq_some_iff]
  constructor
  · rintro ⟨before, mark, gap, body, after, whole, front, blank, back, one, read⟩
    obtain ⟨w, valid, rfl, stands⟩ := ofShortChars?_eq_some_iff_written.1 read
    exact ⟨w, ⟨before, mark, gap, after, whole, front, blank, back, one, valid⟩, stands⟩
  · rintro ⟨w, ⟨before, mark, gap, after, whole, front, blank, back, one, valid⟩, stands⟩
    exact ⟨before, mark, gap, w.chars, after, whole, front, blank, back, one,
      ofShortChars?_eq_some_iff_written.2 ⟨w, valid, rfl, stands⟩⟩

/-- The reader takes a text exactly if it spells a version, and gives the version that it stands for.
Any other text is refused by name. -/
theorem normalize_iff_spells (s : String) :
    (∀ v, normalize s = .ok v ↔ ∃ w, Spells s.toList w ∧ w.StandsFor v) ∧
      ∀ e, normalize s = .error e ↔ (¬ ∃ w, Spells s.toList w) ∧ e = .invalidVersion s := by
  unfold normalize
  constructor
  · intro v
    rw [← normalize?_eq_some_iff]
    cases normalize? s <;> simp
  · intro e
    cases read : normalize? s with
    | some v =>
      obtain ⟨w, spells, -⟩ := normalize?_eq_some_iff.1 read
      have spelled : ∃ w, Spells s.toList w := ⟨w, spells⟩
      simp [spelled]
    | none =>
      have unspelled : ¬ ∃ w, Spells s.toList w := by
        rintro ⟨w, spells⟩
        obtain ⟨v, stands⟩ := spells.isValid.exists_standsFor
        have some := normalize?_eq_some_iff.2 ⟨w, spells, stands⟩
        rw [read] at some
        cases some
      simp [unspelled, eq_comm]

end ModelWorkspace.Version
