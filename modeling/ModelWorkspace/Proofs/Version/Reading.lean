import ModelWorkspace.Proofs.Text.Decimal
import ModelWorkspace.Proofs.Text.Pieces
import ModelWorkspace.Version.Reader

/-! What the readers of versions make of a text. Each part of a version is read exactly from what is
written for it, so the strict reader reads a version from its text and from no other. The other reader
goes on from there: it takes fewer numbers, white space around the version, and a mark in front. -/
namespace ModelWorkspace

open Text (isBlank isDigit decimal valueOf IsBlank)

/-! ### Characters -/

theorem isIdentifierChar_of_isDigit {c : Char} (digit : isDigit c = true) :
    isIdentifierChar c = true := by
  simp [isIdentifierChar, digit]

theorem isBlank_of_isIdentifierChar {c : Char} (plain : isIdentifierChar c = true) :
    isBlank c = false := by
  have range : 45 ≤ c.toNat ∧ c.toNat ≤ 122 := by
    simp only [isIdentifierChar, isDigit, Bool.or_eq_true, Bool.and_eq_true, decide_eq_true_eq,
      beq_iff_eq, Char.le_def, UInt32.le_iff_toNat_le] at plain
    obtain ((⟨low, high⟩ | ⟨low, high⟩) | ⟨low, high⟩) | rfl := plain
    · exact ⟨le_trans (by decide) low, le_trans high (by decide)⟩
    · exact ⟨le_trans (by decide) low, le_trans high (by decide)⟩
    · exact ⟨le_trans (by decide) low, le_trans high (by decide)⟩
    · decide
  simp only [isBlank, Bool.or_eq_false_iff, Bool.and_eq_false_iff, beq_eq_false_iff_ne,
    decide_eq_false_iff_not]
  omega

/-! ### Numbers and identifiers -/

theorem isNumeral_iff {s : List Char} : isNumeral s = true ↔
    s ≠ [] ∧ (∀ c ∈ s, isDigit c = true) ∧ (s.head? = some '0' → s = ['0']) := by
  cases s with
  | nil => simp [isNumeral]
  | cons c rest =>
    simp only [isNumeral, List.isEmpty_cons, Bool.not_false, Bool.true_and, Bool.and_eq_true,
      List.all_eq_true, Bool.or_eq_true, beq_iff_eq, bne_iff_ne, List.length_cons,
      List.head?_cons, Option.some.injEq, List.cons.injEq, ne_eq, reduceCtorEq, not_false_eq_true,
      true_and, and_congr_right_iff]
    intro _
    by_cases zero : c = '0' <;> simp [zero]

theorem isNumeral_decimal (n : Nat) : isNumeral (decimal n) = true := by
  refine isNumeral_iff.2 ⟨Text.decimal_ne_nil n, fun c mem => Text.isDigit_of_mem_decimal mem, ?_⟩
  intro front
  by_cases zero : n = 0
  · subst zero
    rfl
  · obtain ⟨first, rest, digits, nonzero⟩ := Text.decimal_eq_cons (Nat.pos_of_ne_zero zero)
    rw [digits, List.head?_cons, Option.some.injEq] at front
    exact absurd front nonzero

theorem decimal_valueOf_of_isNumeral {s : List Char} (numeral : isNumeral s = true) :
    decimal (valueOf s) = s := by
  obtain ⟨some, digits, front⟩ := isNumeral_iff.1 numeral
  exact Text.decimal_valueOf some digits front

theorem readComponent_eq_some_iff (s : List Char) (n : UInt64) :
    readComponent s = some n ↔ decimal n.toNat = s := by
  unfold readComponent
  constructor
  · intro read
    split at read
    · rename_i numeral
      rw [Bool.and_eq_true, decide_eq_true_eq] at numeral
      cases read
      rw [UInt64.toNat_ofNat_of_lt' numeral.2, decimal_valueOf_of_isNumeral numeral.1]
    · cases read
  · rintro rfl
    rw [if_pos]
    · rw [Text.valueOf_decimal, UInt64.ofNat_toNat]
    · simp [isNumeral_decimal, Text.valueOf_decimal, n.toNat_lt_size]

namespace Identifier

theorem isIdentifierChar_of_mem_chars {i : Identifier} {c : Char} (mem : c ∈ i.chars) :
    isIdentifierChar c = true := by
  cases i with
  | numeric n => exact isIdentifierChar_of_isDigit (Text.isDigit_of_mem_decimal mem)
  | word w =>
    have valid := w.valid
    simp only [Bool.and_eq_true, List.all_eq_true] at valid
    exact valid.1.2 c mem

theorem ofChars?_eq_some_iff (s : List Char) (i : Identifier) :
    ofChars? s = some i ↔ i.chars = s := by
  unfold ofChars?
  constructor
  · intro read
    split at read
    · rename_i numeral
      cases read
      exact decimal_valueOf_of_isNumeral numeral
    · split at read
      · cases read
        rfl
      · cases read
  · rintro rfl
    cases i with
    | numeric n => simp [isNumeral_decimal, Text.valueOf_decimal]
    | word w =>
      have valid := w.valid
      have more : isNumeral w.chars = false := by
        rw [Bool.eq_false_iff]
        intro numeral
        have digits := List.all_eq_true.2 (isNumeral_iff.1 numeral).2.1
        simp [digits] at valid
      rw [chars_word, if_neg (by simp [more]), dif_pos valid]

end Identifier

namespace BuildIdentifier

theorem isIdentifierChar_of_mem_chars {b : BuildIdentifier} {c : Char} (mem : c ∈ b.chars) :
    isIdentifierChar c = true := by
  have valid := b.valid
  simp only [Bool.and_eq_true, List.all_eq_true] at valid
  exact valid.2 c mem

theorem ofChars?_eq_some_iff (s : List Char) (b : BuildIdentifier) :
    ofChars? s = some b ↔ b.chars = s := by
  unfold ofChars?
  constructor
  · intro read
    split at read
    · cases read
      rfl
    · cases read
  · rintro rfl
    rw [dif_pos b.valid]

end BuildIdentifier

namespace Version

/-! ### Numbers, pre-release and build -/

/-- Numbers, as they are written one behind the other. -/
def numberChars (numbers : List UInt64) : List Char :=
  ['.'].intercalate (numbers.map fun n => decimal n.toNat)

/-- The identifiers of a pre-release, as they are written one behind the other. -/
def identifierChars (pre : List Identifier) : List Char :=
  ['.'].intercalate (pre.map Identifier.chars)

/-- The identifiers of a build, as they are written one behind the other. -/
def buildIdentifierChars (build : List BuildIdentifier) : List Char :=
  ['.'].intercalate (build.map BuildIdentifier.chars)

theorem preChars_eq (v : Version) :
    v.preChars = if v.pre = [] then [] else '-' :: identifierChars v.pre := by
  simp only [preChars, List.isEmpty_iff, identifierChars]

theorem buildChars_eq (v : Version) :
    v.buildChars = if v.build = [] then [] else '+' :: buildIdentifierChars v.build := by
  simp only [buildChars, List.isEmpty_iff, buildIdentifierChars]

theorem readCore_eq_some_iff {s : List Char} {numbers : List UInt64} :
    readCore s = some numbers ↔ numbers ≠ [] ∧ numberChars numbers = s :=
  Text.mapM_splitOn_eq_some_iff readComponent_eq_some_iff fun _ mem =>
    absurd (Text.isDigit_of_mem_decimal mem) (by decide)

theorem readPre_eq_some_iff {s : List Char} {pre : List Identifier} :
    readPre s = some pre ↔ pre ≠ [] ∧ identifierChars pre = s :=
  Text.mapM_splitOn_eq_some_iff Identifier.ofChars?_eq_some_iff fun _ mem =>
    absurd (Identifier.isIdentifierChar_of_mem_chars mem) (by decide)

theorem readBuild_eq_some_iff {s : List Char} {build : List BuildIdentifier} :
    readBuild s = some build ↔ build ≠ [] ∧ buildIdentifierChars build = s :=
  Text.mapM_splitOn_eq_some_iff BuildIdentifier.ofChars?_eq_some_iff fun _ mem =>
    absurd (BuildIdentifier.isIdentifierChar_of_mem_chars mem) (by decide)

theorem mem_numberChars {numbers : List UInt64} {c : Char} (mem : c ∈ numberChars numbers) :
    c = '.' ∨ isDigit c = true :=
  Text.mem_dotted (fun _ _ mem => Text.isDigit_of_mem_decimal mem) mem

theorem mem_identifierChars {pre : List Identifier} {c : Char} (mem : c ∈ identifierChars pre) :
    c = '.' ∨ isIdentifierChar c = true :=
  Text.mem_dotted (fun _ _ mem => Identifier.isIdentifierChar_of_mem_chars mem) mem

theorem mem_buildIdentifierChars {build : List BuildIdentifier} {c : Char}
    (mem : c ∈ buildIdentifierChars build) : c = '.' ∨ isIdentifierChar c = true :=
  Text.mem_dotted (fun _ _ mem => BuildIdentifier.isIdentifierChar_of_mem_chars mem) mem

/-- The build begins at the first plus, since there is none in a pre-release. -/
theorem splitBefore_plus (pre : List Identifier) {text : List Char}
    (mark : ∀ c ∈ text.head?, (c == '+') = true) :
    Text.splitBefore (· == '+') (identifierChars pre ++ text) = (identifierChars pre, text) := by
  refine Text.splitBefore_of_append (fun c mem => ?_) mark
  obtain rfl | plain := mem_identifierChars mem
  · rfl
  · simpa using Text.ne_of_class isIdentifierChar plain (by decide)

theorem readSuffix_chars (v : Version) :
    readSuffix (v.preChars ++ v.buildChars) = some (v.pre, v.build) := by
  rw [preChars_eq, buildChars_eq]
  by_cases release : v.pre = []
  · by_cases plain : v.build = []
    · simp [release, plain, readSuffix]
    · simp [release, plain, readSuffix, readBuild_eq_some_iff.2 ⟨plain, rfl⟩]
  · have read := readPre_eq_some_iff.2 ⟨release, rfl⟩
    by_cases plain : v.build = []
    · have alone := @splitBefore_plus v.pre [] nofun
      rw [List.append_nil] at alone
      simp [release, plain, readSuffix, alone, read]
    · have both := @splitBefore_plus v.pre ('+' :: buildIdentifierChars v.build) (by simp)
      simp [release, plain, readSuffix, both, read, readBuild_eq_some_iff.2 ⟨plain, rfl⟩]

theorem chars_of_readSuffix {s : List Char} (v : Version)
    (read : readSuffix s = some (v.pre, v.build)) : v.preChars ++ v.buildChars = s := by
  rw [preChars_eq, buildChars_eq]
  generalize v.pre = pre, v.build = build at read ⊢
  unfold readSuffix at read
  split at read
  · -- Nothing follows the numbers.
    cases read
    rfl
  · -- A pre-release, and a build if there is a plus in the rest.
    rename_i rest
    have whole := Text.splitBefore_append (· == '+') rest
    have mark : ∀ c ∈ (Text.splitBefore (· == '+') rest).2.head?, (c == '+') = true :=
      Text.head?_snd_splitBefore
    dsimp only at read
    split at read
    · rename_i none
      rw [none, List.append_nil] at whole
      obtain ⟨pre', text, same⟩ := Option.map_eq_some_iff.1 read
      cases same
      obtain ⟨some, text⟩ := readPre_eq_some_iff.1 text
      simp [some, text, whole]
    · rename_i plus text found
      rw [found] at whole mark
      obtain rfl : plus = '+' := by simpa using mark plus rfl
      simp only [bind, pure, Option.bind_eq_some_iff, Option.some.injEq] at read
      obtain ⟨pre', text, build', text', same⟩ := read
      cases same
      obtain ⟨some, text⟩ := readPre_eq_some_iff.1 text
      obtain ⟨some', text'⟩ := readBuild_eq_some_iff.1 text'
      simp [some, some', text, text', whole]
  · -- A build without a pre-release.
    obtain ⟨build', text, same⟩ := Option.map_eq_some_iff.1 read
    cases same
    obtain ⟨some, text⟩ := readBuild_eq_some_iff.1 text
    simp [some, text]
  · cases read

/-! ### Versions -/

theorem endsCore_of_mem_numberChars {numbers : List UInt64} {c : Char}
    (mem : c ∈ numberChars numbers) : endsCore c = false := by
  obtain rfl | digit := mem_numberChars mem
  · rfl
  · have notMinus : c ≠ '-' := Text.ne_of_class isDigit digit rfl
    have notPlus : c ≠ '+' := Text.ne_of_class isDigit digit rfl
    simp [endsCore, notMinus, notPlus]

theorem endsCore_head?_suffix (v : Version) :
    ∀ c ∈ (v.preChars ++ v.buildChars).head?, endsCore c = true := by
  rw [preChars_eq, buildChars_eq]
  by_cases release : v.pre = [] <;> by_cases plain : v.build = [] <;>
    simp [release, plain, endsCore]

/-- Numbers, pre-release and build are read exactly from what is written for them. -/
theorem readParts_eq_some_iff {s : List Char} {numbers : List UInt64} (v : Version) :
    readParts s = some (numbers, v.pre, v.build) ↔
      numbers ≠ [] ∧ numberChars numbers ++ v.preChars ++ v.buildChars = s := by
  simp only [readParts, bind, pure, Option.bind_eq_some_iff, Option.some.injEq, Prod.mk.injEq]
  constructor
  · rintro ⟨_, core, ⟨pre, build⟩, suffix, rfl, rfl, rfl⟩
    obtain ⟨some, core⟩ := readCore_eq_some_iff.1 core
    refine ⟨some, ?_⟩
    rw [List.append_assoc, core, chars_of_readSuffix v suffix, Text.splitBefore_append]
  · rintro ⟨some, rfl⟩
    have apart : Text.splitBefore endsCore (numberChars numbers ++ (v.preChars ++ v.buildChars)) =
        (numberChars numbers, v.preChars ++ v.buildChars) :=
      Text.splitBefore_of_append (fun _ mem => endsCore_of_mem_numberChars mem)
        (endsCore_head?_suffix v)
    rw [List.append_assoc, apart]
    exact ⟨numbers, readCore_eq_some_iff.2 ⟨some, rfl⟩, (v.pre, v.build), readSuffix_chars v, rfl,
      rfl, rfl⟩

theorem chars_eq (v : Version) :
    v.chars = numberChars [v.major, v.minor, v.patch] ++ v.preChars ++ v.buildChars := by
  simp [chars, coreChars, numberChars, List.intercalate_cons_cons]

/-- The strict reader reads a version from its text and from no other. -/
theorem ofChars?_eq_some_iff {s : List Char} {v : Version} : ofChars? s = some v ↔ v.chars = s := by
  constructor
  · intro read
    unfold ofChars? at read
    split at read
    · rename_i major minor patch pre build parts
      cases read
      rw [chars_eq]
      exact ((readParts_eq_some_iff ⟨major, minor, patch, pre, build⟩).1 parts).2
    · cases read
  · rintro rfl
    rw [ofChars?, chars_eq, (readParts_eq_some_iff v).2 ⟨List.cons_ne_nil _ _, rfl⟩]

/-- The other reader reads a version also if numbers that are zero are left out at the end. -/
theorem ofShortChars?_eq_some_iff {s : List Char} {v : Version} :
    ofShortChars? s = some v ↔ ∃ numbers, numbers ≠ [] ∧
      [v.major, v.minor, v.patch] = numbers ++ List.replicate (3 - numbers.length) 0 ∧
      numberChars numbers ++ v.preChars ++ v.buildChars = s := by
  constructor
  · intro read
    unfold ofShortChars? at read
    split at read
    · rename_i major pre build parts
      cases read
      have parts := (readParts_eq_some_iff { major, pre, build }).1 parts
      exact ⟨[major], parts.1, rfl, parts.2⟩
    · rename_i major minor pre build parts
      cases read
      have parts := (readParts_eq_some_iff { major, minor, pre, build }).1 parts
      exact ⟨[major, minor], parts.1, rfl, parts.2⟩
    · rename_i major minor patch pre build parts
      cases read
      have parts := (readParts_eq_some_iff { major, minor, patch, pre, build }).1 parts
      exact ⟨[major, minor, patch], parts.1, rfl, parts.2⟩
    · cases read
  · rintro ⟨numbers, some, short, rfl⟩
    have parts := (readParts_eq_some_iff v).2 ⟨some, rfl⟩
    obtain ⟨major, minor, patch, pre, build⟩ := v
    rw [ofShortChars?, parts]
    match numbers with
    | [a] =>
      cases short
      rfl
    | [a, b] =>
      cases short
      rfl
    | [a, b, c] =>
      cases short
      rfl
    | a :: b :: c :: d :: rest => simp at short

/-! ### White space and marks -/

theorem exists_digit_numberChars {numbers : List UInt64} (some : numbers ≠ []) :
    ∃ c rest, numberChars numbers = c :: rest ∧ isDigit c = true := by
  cases numbers with
  | nil => contradiction
  | cons n others =>
    obtain ⟨c, digits, first⟩ := List.exists_cons_of_ne_nil (Text.decimal_ne_nil n.toNat)
    have digit : isDigit c = true := Text.isDigit_of_mem_decimal (first ▸ List.mem_cons_self)
    cases others with
    | nil => exact ⟨c, digits, by simp [numberChars, first], digit⟩
    | cons m more =>
      refine ⟨c, digits ++ ['.'] ++ numberChars (m :: more), ?_, digit⟩
      simp [numberChars, List.intercalate_cons_cons, first]

theorem exists_digit_of_ofShortChars? {s : List Char} {v : Version}
    (read : ofShortChars? s = some v) : ∃ c rest, s = c :: rest ∧ isDigit c = true := by
  obtain ⟨numbers, some, -, rfl⟩ := ofShortChars?_eq_some_iff.1 read
  obtain ⟨c, rest, begins, digit⟩ := exists_digit_numberChars some
  exact ⟨c, rest ++ v.preChars ++ v.buildChars, by simp [begins], digit⟩

theorem isBlank_of_dot_or {c : Char} (plain : c = '.' ∨ isIdentifierChar c = true) :
    isBlank c = false := by
  obtain rfl | plain := plain
  · decide
  · exact isBlank_of_isIdentifierChar plain

/-- There is no white space in a version. -/
theorem visible_of_ofShortChars? {s : List Char} {v : Version} (read : ofShortChars? s = some v) :
    ∀ c ∈ s, isBlank c = false := by
  obtain ⟨numbers, -, -, rfl⟩ := ofShortChars?_eq_some_iff.1 read
  intro c mem
  obtain (mem | mem) | mem := List.mem_append.1 mem |>.imp_left List.mem_append.1
  · exact isBlank_of_dot_or ((mem_numberChars mem).imp_right isIdentifierChar_of_isDigit)
  · rw [preChars_eq] at mem
    split at mem
    · cases mem
    · obtain rfl | mem := List.mem_cons.1 mem
      · decide
      · exact isBlank_of_dot_or (mem_identifierChars mem)
  · rw [buildChars_eq] at mem
    split at mem
    · cases mem
    · obtain rfl | mem := List.mem_cons.1 mem
      · decide
      · exact isBlank_of_dot_or (mem_buildIdentifierChars mem)

theorem exists_mark (s : List Char) :
    ∃ mark, mark ∈ [[], ['v'], ['=']] ∧ s = mark ++ dropMark s := by
  unfold dropMark
  split
  · exact ⟨['v'], by simp, rfl⟩
  · exact ⟨['='], by simp, rfl⟩
  · exact ⟨[], by simp, rfl⟩

theorem dropMark_of_isDigit {c : Char} (digit : isDigit c = true) (rest : List Char) :
    dropMark (c :: rest) = c :: rest := by
  unfold dropMark
  split
  · rename_i same
    cases same
    cases digit
  · rename_i same
    cases same
    cases digit
  · rfl

/-- What is left without a mark and white space. -/
theorem unmarked {before mark gap body after : List Char} (front : IsBlank before)
    (blank : IsBlank gap) (back : IsBlank after) (one : mark ∈ [[], ['v'], ['=']]) {c : Char}
    {rest : List Char} (begins : body = c :: rest) (digit : isDigit c = true)
    (visible : ∀ d ∈ body, isBlank d = false) :
    Text.trimStart (dropMark (Text.trim (before ++ mark ++ gap ++ body ++ after))) = body := by
  have first : ∀ d ∈ body.head?, isBlank d = false := fun d mem =>
    visible d (List.mem_of_head? mem)
  have last : ∀ d ∈ body.getLast?, isBlank d = false := fun d mem =>
    visible d (List.mem_of_getLast? mem)
  simp only [List.mem_cons, List.not_mem_nil, or_false] at one
  obtain rfl | marked := one
  · -- Without a mark the two stretches of white space in front are one.
    rw [List.append_nil, Text.trim_append (front.append blank) back first last, begins,
      dropMark_of_isDigit digit, ← begins, Text.trimStart_of_head first]
  · obtain ⟨m, rfl, dark, drops⟩ : ∃ m, mark = [m] ∧ isBlank m = false ∧
        ∀ text, dropMark (m :: text) = text := by
      obtain rfl | rfl := marked
      · exact ⟨'v', rfl, by decide, fun _ => rfl⟩
      · exact ⟨'=', rfl, by decide, fun _ => rfl⟩
    have ends : ∀ d ∈ (m :: (gap ++ body)).getLast?, isBlank d = false := by
      rwa [← List.cons_append, List.getLast?_append_of_ne_nil _ (by simp [begins])]
    have trimmed : Text.trim (before ++ m :: (gap ++ body) ++ after) = m :: (gap ++ body) :=
      Text.trim_append front back (by simpa using dark) ends
    rw [List.append_assoc before, List.append_assoc before, List.singleton_append,
      List.cons_append, trimmed, drops, Text.trimStart_append blank, Text.trimStart_of_head first]

/-- A text is a version as people write it if it is one with white space around, and at most one mark
in front, behind which there may be more white space. -/
theorem normalizeChars?_eq_some_iff {s : List Char} {v : Version} :
    normalizeChars? s = some v ↔ ∃ before mark gap body after,
      s = before ++ mark ++ gap ++ body ++ after ∧ IsBlank before ∧ IsBlank gap ∧ IsBlank after ∧
        mark ∈ [[], ['v'], ['=']] ∧ ofShortChars? body = some v := by
  constructor
  · intro read
    obtain ⟨before, after, front, back, whole⟩ := Text.exists_trim s
    obtain ⟨mark, one, marked⟩ := exists_mark (Text.trim s)
    obtain ⟨gap, blank, rest⟩ := Text.exists_trimStart (dropMark (Text.trim s))
    refine ⟨before, mark, gap, _, after, ?_, front, blank, back, one, read⟩
    rw [List.append_assoc before mark, List.append_assoc before, List.append_assoc mark, ← rest,
      ← marked, ← whole]
  · rintro ⟨before, mark, gap, body, after, rfl, front, blank, back, one, read⟩
    obtain ⟨c, rest, begins, digit⟩ := exists_digit_of_ofShortChars? read
    have visible := visible_of_ofShortChars? read
    rw [normalizeChars?, unmarked front blank back one begins digit visible, read]

theorem ofShortChars?_chars (v : Version) : ofShortChars? v.chars = some v := by
  rw [ofShortChars?_eq_some_iff]
  exact ⟨[v.major, v.minor, v.patch], List.cons_ne_nil _ _, rfl, (chars_eq v).symm⟩

theorem normalizeChars?_chars (v : Version) : normalizeChars? v.chars = some v := by
  rw [normalizeChars?_eq_some_iff]
  exact ⟨[], [], [], v.chars, [], by simp, nofun, nofun, nofun, by simp, ofShortChars?_chars v⟩

/-- What the strict reader reads, the other one reads as well. -/
theorem normalizeChars?_of_ofChars? {s : List Char} {v : Version} (read : ofChars? s = some v) :
    normalizeChars? s = some v := by
  rw [← ofChars?_eq_some_iff.1 read, normalizeChars?_chars]

end Version

end ModelWorkspace
