import ModelWorkspace.Json.Reader
import ModelWorkspace.Json.Writer
import ModelWorkspace.Proofs.Text.Decimal

/-! What the reader makes of a printed value. The syntax tree of a value is the one that its printed
text has, and the reader comes to it wherever the text stands: at the outset, among the items of an
array, or behind a key. Only a number needs something behind it to end, and in a printed text a
comma or a new line follows. -/
namespace ModelWorkspace

namespace Json

open Text (isDigit decimal)

/-! ### Trees of values -/

/-- How a character inside quotes is written. -/
def Piece.written (c : Char) : Piece := if (escapeChar c).length = 6 then .unit c.toNat else .char c

def Piece.ofString (s : String) : List Piece := s.toList.map Piece.written

def Numeral.ofInt (n : Int) : Numeral := { negative := n < 0, whole := decimal n.natAbs }

mutual

/-- The syntax tree of a printed value. A float is none of the values that are looked at here. -/
def Tree.ofValue : Value → Tree
  | .null => .null
  | .bool b => .bool b
  | .int n => .number (Numeral.ofInt n)
  | .float _ => .null
  | .string s => .string (Piece.ofString s)
  | .array items => .array (Tree.ofItems items)
  | .object fields => .object (Tree.ofFields fields)

def Tree.ofItems : List Value → List Tree
  | [] => []
  | v :: rest => Tree.ofValue v :: Tree.ofItems rest

def Tree.ofFields : List (String × Value) → List (List Piece × Tree)
  | [] => []
  | (k, v) :: rest => (Piece.ofString k, Tree.ofValue v) :: Tree.ofFields rest

end

mutual

/-- Whether there is a float anywhere in a value. -/
def Value.hasFloat : Value → Bool
  | .float _ => true
  | .array items => Value.itemsHaveFloat items
  | .object fields => Value.fieldsHaveFloat fields
  | .null | .bool _ | .int _ | .string _ => false

def Value.itemsHaveFloat : List Value → Bool
  | [] => false
  | v :: rest => Value.hasFloat v || Value.itemsHaveFloat rest

def Value.fieldsHaveFloat : List (String × Value) → Bool
  | [] => false
  | (_, v) :: rest => Value.hasFloat v || Value.fieldsHaveFloat rest

end

/-! ### Between values -/

/-- States between two tokens, in which white space counts for nothing. -/
def Expect.isBetween : Expect → Bool
  | .letters .. | .numeral .. | .piece .. | .escape .. | .hex .. => false
  | _ => true

namespace State

variable {inside : List Open} {rest : List Char}

theorem step_of_isBetween {s : State} (between : s.expect.isBetween = true) (c : Char) :
    s.step c = s.stepBetween c := by
  obtain ⟨expect, inside⟩ := s
  cases expect <;> first | rfl | cases between

theorem step_space {s : State} {c : Char} (between : s.expect.isBetween = true)
    (space : isSpace c = true) : s.step c = some s := by
  rw [step_of_isBetween between, stepBetween, if_pos space]

theorem run_newLine {s : State} (between : s.expect.isBetween = true) (level : Nat) :
    s.run (newLine level ++ rest) = s.run rest := by
  have spaces : ∀ n, s.run (List.replicate n ' ' ++ rest) = s.run rest := by
    intro n
    induction n with
    | zero => rfl
    | succ n ih =>
      rw [List.replicate_succ, List.cons_append, run_cons, step_space between (by decide)]
      exact ih
  rw [newLine, List.cons_append, run_cons, step_space between (by decide)]
  exact spaces _

theorem isBetween_afterValue {tree : Tree} {s : State} (after : afterValue tree inside = some s) :
    s.expect.isBetween = true := by
  cases inside with
  | nil =>
    cases after
    rfl
  | cons first others => cases first <;> cases after <;> rfl

/-- A value may begin here, or, before the first item of an array, the array may end. -/
theorem step_begin {e : Expect} {c : Char} (opens : e = .value ∨ e = .firstItem)
    (dark : isSpace c = false) (starts : c ≠ ']') : step ⟨e, inside⟩ c = begin c inside := by
  obtain rfl | rfl := opens <;> simp [step, stepBetween, dark, starts]

end State

/-! ### Quoted texts -/

/-- A character is escaped by one other character, or by its number if it is a control character, or
it stands for itself. -/
theorem escapeChar_cases (c : Char) :
    (∃ e, escapeChar c = ['\\', e] ∧ escaped? e = some c ∧ e ≠ 'u') ∨
      (c.toNat < 0x20 ∧ escapeChar c =
        ['\\', 'u', '0', '0', hexDigit (c.toNat / 16), hexDigit (c.toNat % 16)]) ∨
      (c ≠ '"' ∧ c ≠ '\\' ∧ ¬ c.toNat < 0x20 ∧ escapeChar c = [c]) := by
  by_cases short : c ∈ ['"', '\\', '\x08', '\x0c', '\n', '\r', '\t']
  · left
    simp only [List.mem_cons, List.not_mem_nil, or_false] at short
    rcases short with rfl | rfl | rfl | rfl | rfl | rfl | rfl <;> exact ⟨_, rfl, rfl, by decide⟩
  · right
    simp only [List.mem_cons, List.not_mem_nil, or_false, not_or] at short
    obtain ⟨quote, backslash, b, f, n, r, t⟩ := short
    by_cases control : c.toNat < 0x20
    · left
      refine ⟨control, ?_⟩
      simp [escapeChar, *]
    · right
      refine ⟨quote, backslash, control, ?_⟩
      simp [escapeChar, *]

theorem hexValue?_hexDigit {n : Nat} (small : n < 16) : hexValue? (hexDigit n) = some n := by
  interval_cases n <;> decide

namespace State

variable {inside : List Open} {rest : List Char}

theorem run_escapeChar (quoted : Quoted) (pieces : List Piece) (c : Char) :
    run ⟨.piece quoted pieces, inside⟩ (escapeChar c ++ rest) =
      run ⟨.piece quoted (Piece.written c :: pieces), inside⟩ rest := by
  obtain ⟨e, text, back, other⟩ | ⟨control, text⟩ | ⟨quote, backslash, visible, text⟩ :=
    escapeChar_cases c
  · simp [Piece.written, text, step, back, other]
  · have high := hexValue?_hexDigit (show c.toNat / 16 < 16 by omega)
    have low := hexValue?_hexDigit (show c.toNat % 16 < 16 by omega)
    have zero : hexValue? '0' = some 0 := by decide
    have unit : 16 * (c.toNat / 16) + c.toNat % 16 = c.toNat := by omega
    simp [Piece.written, text, step, high, low, zero, unit]
  · simp [Piece.written, text, step, quote, backslash, visible]

/-- The reader comes to the end of a quoted text with the pieces of the text. -/
theorem run_quoted (quoted : Quoted) (s : List Char) :
    run ⟨.piece quoted [], inside⟩ (s.flatMap escapeChar ++ '"' :: rest) =
      (afterQuoted quoted (s.map Piece.written).reverse inside).bind fun t => t.run rest := by
  have pieces (done : List Piece) :
      run ⟨.piece quoted done, inside⟩ (s.flatMap escapeChar ++ '"' :: rest) =
        (afterQuoted quoted ((s.map Piece.written).reverse ++ done) inside).bind
          fun t => t.run rest := by
    induction s generalizing done with
    | nil => rfl
    | cons c s ih =>
      rw [List.flatMap_cons, List.append_assoc, run_escapeChar, ih, List.map_cons,
        List.reverse_cons, List.append_assoc]
      rfl
  rw [pieces, List.append_nil]

/-! ### Numbers and words -/

/-- The end of a number shows in what follows, and the reader goes on with that. -/
theorem run_afterNumber {part : NumeralPart} {n : Numeral} {c : Char}
    (whole : part = .zero ∨ part = .whole) (ends : c = ',' ∨ c = '\n') :
    run ⟨.numeral part n, inside⟩ (c :: rest) =
      (afterValue (.number n) inside).bind fun s => s.run (c :: rest) := by
  have ended : part.extend n c = none ∧ part.isFinal = true := by
    obtain rfl | rfl := whole <;> obtain rfl | rfl := ends <;> exact ⟨rfl, rfl⟩
  rw [run_cons, step]
  simp only [ended.1, ended.2, if_true]
  cases after : afterValue (.number n) inside with
  | none => rfl
  | some s =>
    change (s.stepBetween c).bind _ = s.run (c :: rest)
    rw [run_cons, step_of_isBetween (isBetween_afterValue after)]

theorem run_digits (n : Numeral) {digits : List Char} (all : ∀ c ∈ digits, isDigit c = true) :
    run ⟨.numeral .whole n, inside⟩ (digits ++ rest) =
      run ⟨.numeral .whole { n with whole := n.whole ++ digits }, inside⟩ rest := by
  induction digits generalizing n with
  | nil => simp
  | cons c digits ih =>
    have first : isDigit c = true := all c List.mem_cons_self
    rw [List.cons_append, run_cons]
    simp only [step, NumeralPart.extend, first, if_true, Option.bind_some]
    rw [ih _ fun d mem => all d (List.mem_cons_of_mem c mem)]
    simp

/-- A digit that is not zero begins a number. -/
theorem step_digit {e : Expect} (opens : e = .value ∨ e = .firstItem) {c : Char}
    (digit : isDigit c = true) (nonzero : c ≠ '0') :
    step ⟨e, inside⟩ c = some ⟨.numeral .whole { whole := [c] }, inside⟩ := by
  have other (d : Char) (sign : isDigit d = false) : c ≠ d := by
    rintro rfl
    rw [digit] at sign
    cases sign
  have dark : isSpace c = false := by
    simp [isSpace, other ' ' rfl, other '\t' rfl, other '\n' rfl, other '\r' rfl]
  rw [step_begin opens dark (other ']' rfl)]
  simp [begin, other '"' rfl, other '[' rfl, other '\x7b' rfl, other '-' rfl, nonzero, digit]

theorem run_intChars {e : Expect} (opens : e = .value ∨ e = .firstItem) (n : Int) {c : Char}
    (ends : c = ',' ∨ c = '\n') :
    run ⟨e, inside⟩ (intChars n ++ c :: rest) =
      (afterValue (.number (Numeral.ofInt n)) inside).bind fun s => s.run (c :: rest) := by
  by_cases zero : n = 0
  · subst zero
    have begun : step ⟨e, inside⟩ '0' = some ⟨.numeral .zero { whole := ['0'] }, inside⟩ := by
      rw [step_begin opens (by decide) (by decide)]
      rfl
    change run _ ('0' :: c :: rest) = _
    rw [run_cons, begun, Option.bind_some, run_afterNumber (.inl rfl) ends]
    rfl
  · obtain ⟨first, digits, written, nonzero⟩ :=
      Text.decimal_eq_cons (show 0 < n.natAbs by omega)
    have all (d : Char) (mem : d ∈ first :: digits) : isDigit d = true :=
      Text.isDigit_of_mem_decimal (written ▸ mem)
    have digit := all first List.mem_cons_self
    have more (d : Char) (mem : d ∈ digits) := all d (List.mem_cons_of_mem first mem)
    by_cases negative : n < 0
    · have begun : step ⟨e, inside⟩ '-' = some ⟨.numeral .minus { negative := true }, inside⟩ := by
        rw [step_begin opens (by decide) (by decide)]
        rfl
      have next : step ⟨.numeral .minus { negative := true }, inside⟩ first =
          some ⟨.numeral .whole { negative := true, whole := [first] }, inside⟩ := by
        simp [step, NumeralPart.extend, nonzero, digit]
      rw [intChars, if_pos negative, written, List.cons_append, List.cons_append, run_cons, begun,
        Option.bind_some, run_cons, next, Option.bind_some, run_digits _ more,
        run_afterNumber (.inr rfl) ends]
      simp [Numeral.ofInt, written, negative]
    · rw [intChars, if_neg negative, written, List.cons_append, run_cons,
        step_digit opens digit nonzero, Option.bind_some, run_digits _ more,
        run_afterNumber (.inr rfl) ends]
      simp [Numeral.ofInt, written, negative]

/-- The reader takes one of the three words to its tree. -/
theorem run_word {word : List Char} {tree : Tree} (known : (word, tree) ∈
      [(['n', 'u', 'l', 'l'], Tree.null), (['t', 'r', 'u', 'e'], .bool true),
        (['f', 'a', 'l', 's', 'e'], .bool false)])
    {e : Expect} (opens : e = .value ∨ e = .firstItem) :
    run ⟨e, inside⟩ (word ++ rest) = (afterValue tree inside).bind fun s => s.run rest := by
  simp only [List.mem_cons, Prod.mk.injEq, List.not_mem_nil, or_false] at known
  obtain ⟨rfl, rfl⟩ | ⟨rfl, rfl⟩ | ⟨rfl, rfl⟩ := known <;>
    rw [List.cons_append, run_cons, step_begin opens (by decide) (by decide)] <;> rfl

/-! ### Whole values -/

theorem run_quote {e : Expect} (opens : e = .value ∨ e = .firstItem) (s : String) :
    run ⟨e, inside⟩ (quote s.toList ++ rest) =
      (afterValue (.string (Piece.ofString s)) inside).bind fun t => t.run rest := by
  rw [quote, List.cons_append, run_cons, step_begin opens (by decide) (by decide)]
  change run ⟨.piece .value [], inside⟩ _ = _
  rw [List.append_assoc, List.singleton_append, run_quoted, afterQuoted, List.reverse_reverse]
  rfl

/-- A key, and what comes between it and its value. -/
theorem run_key {e : Expect} (opens : e = .firstKey ∨ e = .nextKey) (k : String)
    (fields : List (List Piece × Tree)) :
    run ⟨e, .object fields :: inside⟩ (quote k.toList ++ ':' :: ' ' :: rest) =
      run ⟨.value, .field fields (Piece.ofString k) :: inside⟩ rest := by
  have begun : step ⟨e, .object fields :: inside⟩ '"' =
      some ⟨.piece .key [], .object fields :: inside⟩ := by
    obtain rfl | rfl := opens <;> rfl
  rw [quote, List.cons_append, run_cons, begun, Option.bind_some, List.append_assoc,
    List.singleton_append, run_quoted, afterQuoted, List.reverse_reverse]
  rfl

/-- An array is read, whatever follows, if its items are. -/
theorem run_array {e : Expect} (opens : e = .value ∨ e = .firstItem) {items : List Value}
    {level : Nat} (members : items ≠ [] →
      run ⟨.firstItem, .array [] :: inside⟩
          (Value.prettyItems level items ++ newLine level ++ ']' :: rest) =
        (afterValue (.array (Tree.ofItems items)) inside).bind fun s => s.run rest) :
    run ⟨e, inside⟩ ((Value.array items).pretty level ++ rest) =
      (afterValue (.array (Tree.ofItems items)) inside).bind fun s => s.run rest := by
  have begun : step ⟨e, inside⟩ '[' = some ⟨.firstItem, .array [] :: inside⟩ := by
    rw [step_begin opens (by decide) (by decide)]
    rfl
  cases items with
  | nil =>
    change run ⟨e, inside⟩ ('[' :: ']' :: rest) = _
    rw [run_cons, begun]
    rfl
  | cons v more =>
    rw [Value.pretty, List.cons_append, run_cons, begun, Option.bind_some, List.append_assoc,
      List.singleton_append]
    exact members (List.cons_ne_nil v more)

/-- An object is read, whatever follows, if its fields are. -/
theorem run_object {e : Expect} (opens : e = .value ∨ e = .firstItem)
    {fields : List (String × Value)} {level : Nat} (members : fields ≠ [] →
      run ⟨.firstKey, .object [] :: inside⟩
          (Value.prettyFields level fields ++ newLine level ++ '\x7d' :: rest) =
        (afterValue (.object (Tree.ofFields fields)) inside).bind fun s => s.run rest) :
    run ⟨e, inside⟩ ((Value.object fields).pretty level ++ rest) =
      (afterValue (.object (Tree.ofFields fields)) inside).bind fun s => s.run rest := by
  have begun : step ⟨e, inside⟩ '\x7b' = some ⟨.firstKey, .object [] :: inside⟩ := by
    rw [step_begin opens (by decide) (by decide)]
    rfl
  cases fields with
  | nil =>
    change run ⟨e, inside⟩ ('\x7b' :: '\x7d' :: rest) = _
    rw [run_cons, begun]
    rfl
  | cons field more =>
    rw [Value.pretty, List.cons_append, run_cons, begun, Option.bind_some, List.append_assoc,
      List.singleton_append]
    exact members (List.cons_ne_nil field more)

mutual

/-- The reader comes to the end of a printed value with its tree, wherever a value may begin. -/
theorem run_pretty (v : Value) (plain : v.hasFloat = false) (level : Nat) {e : Expect}
    (opens : e = .value ∨ e = .firstItem) (inside : List Open) {c : Char} (rest : List Char)
    (ends : c = ',' ∨ c = '\n') :
    run ⟨e, inside⟩ (v.pretty level ++ c :: rest) =
      (afterValue (Tree.ofValue v) inside).bind fun s => s.run (c :: rest) := by
  cases v with
  | null => exact run_word (by simp [Value.pretty, Tree.ofValue]) opens
  | bool b => cases b <;> exact run_word (by simp [Value.pretty, Tree.ofValue]) opens
  | int n => exact run_intChars opens n ends
  | float x => cases plain
  | string s => exact run_quote opens s
  | array items =>
    exact run_array opens fun some => run_items items plain some level (.inr rfl) [] inside _
  | object fields =>
    exact run_object opens fun some => run_fields fields plain some level (.inl rfl) [] inside _

/-- The items of an array that are left, and its end. -/
theorem run_items (items : List Value) (plain : Value.itemsHaveFloat items = false)
    (some : items ≠ []) (level : Nat) {e : Expect} (opens : e = .value ∨ e = .firstItem)
    (done : List Tree) (inside : List Open) (rest : List Char) :
    run ⟨e, .array done :: inside⟩
        (Value.prettyItems level items ++ newLine level ++ ']' :: rest) =
      (afterValue (.array (done.reverse ++ Tree.ofItems items)) inside).bind
        fun s => s.run rest := by
  have between : (State.mk e (.array done :: inside)).expect.isBetween = true := by
    obtain rfl | rfl := opens <;> rfl
  obtain _ | ⟨v, more⟩ := items
  · contradiction
  rw [Value.itemsHaveFloat, Bool.or_eq_false_iff] at plain
  cases more with
  | nil =>
    rw [Value.prettyItems, List.append_assoc, List.append_assoc, run_newLine between, newLine,
      List.cons_append, run_pretty v plain.1 _ opens _ _ (.inr rfl)]
    change run ⟨.itemEnd, .array (Tree.ofValue v :: done) :: inside⟩
      (newLine level ++ ']' :: rest) = _
    rw [run_newLine rfl, run_cons]
    change (afterValue (.array (Tree.ofValue v :: done).reverse) inside).bind _ = _
    rw [List.reverse_cons]
    rfl
  | cons w more =>
    rw [Value.prettyItems, List.append_assoc, List.append_assoc, List.append_assoc,
      run_newLine between, List.cons_append, run_pretty v plain.1 _ opens _ _ (.inl rfl)]
    have next := run_items (w :: more) plain.2 (List.cons_ne_nil w more) level (.inl rfl)
      (Tree.ofValue v :: done) inside rest
    rw [List.append_assoc, List.reverse_cons, List.append_assoc, List.singleton_append] at next
    exact next

/-- The fields of an object that are left, and its end. -/
theorem run_fields (fields : List (String × Value))
    (plain : Value.fieldsHaveFloat fields = false) (some : fields ≠ []) (level : Nat) {e : Expect}
    (opens : e = .firstKey ∨ e = .nextKey) (done : List (List Piece × Tree)) (inside : List Open)
    (rest : List Char) :
    run ⟨e, .object done :: inside⟩
        (Value.prettyFields level fields ++ newLine level ++ '\x7d' :: rest) =
      (afterValue (.object (done.reverse ++ Tree.ofFields fields)) inside).bind
        fun s => s.run rest := by
  have between : (State.mk e (.object done :: inside)).expect.isBetween = true := by
    obtain rfl | rfl := opens <;> rfl
  obtain _ | ⟨⟨k, v⟩, more⟩ := fields
  · contradiction
  rw [Value.fieldsHaveFloat, Bool.or_eq_false_iff] at plain
  cases more with
  | nil =>
    rw [Value.prettyFields, List.append_assoc, List.append_assoc, List.append_assoc,
      run_newLine between, List.cons_append, List.cons_append, run_key opens, newLine,
      List.cons_append, run_pretty v plain.1 _ (.inl rfl) _ _ (.inr rfl)]
    change run ⟨.fieldEnd, .object ((Piece.ofString k, Tree.ofValue v) :: done) :: inside⟩
      (newLine level ++ '\x7d' :: rest) = _
    rw [run_newLine rfl, run_cons]
    change (afterValue (.object ((Piece.ofString k, Tree.ofValue v) :: done).reverse) inside).bind
      _ = _
    rw [List.reverse_cons]
    rfl
  | cons field more =>
    obtain ⟨l, w⟩ := field
    rw [Value.prettyFields]
    simp only [List.append_assoc, List.cons_append]
    rw [run_newLine between, run_key opens, run_pretty v plain.1 _ (.inl rfl) _ _ (.inl rfl)]
    have next := run_fields ((l, w) :: more) plain.2 (List.cons_ne_nil _ more) level (.inr rfl)
      ((Piece.ofString k, Tree.ofValue v) :: done) inside rest
    rw [List.append_assoc, List.reverse_cons, List.append_assoc, List.singleton_append] at next
    exact next

end

end State

/-- The syntax tree of a printed object is the one of the object. -/
theorem Tree.read_pretty {fields : List (String × Value)}
    (plain : Value.fieldsHaveFloat fields = false) :
    Tree.read (Value.pretty 0 (.object fields)) = some (.object (Tree.ofFields fields)) := by
  have whole := State.run_object (.inl rfl) fun some =>
    State.run_fields fields plain some 0 (.inl rfl) [] [] []
  rw [List.append_nil] at whole
  rw [Tree.read, whole]
  rfl

end Json

end ModelWorkspace
