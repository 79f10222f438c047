import Mathlib.Data.Char
import Mathlib.Order.Compare
import ModelWorkspace.Proofs.Version.Precedence
import ModelWorkspace.Proofs.Version.Reading

/-! The order that the standard of semantic versions lays down, said of what is written: numbers of any
length count by their value, words by their characters, and the first identifiers that differ decide.
Precedence is that order. -/
namespace ModelWorkspace

open Text (isDigit valueOf)

/-! ### Lists -/

/-- Lists that are compared entry by entry are in the lexicographic order of what is written for their
entries. -/
theorem compareLex_eq_lt_iff {α β : Type} {order : α → α → Ordering} [Std.LawfulEqCmp order]
    {text : α → β} {before : β → β → Prop} (apart : Function.Injective text)
    (entries : ∀ a b, order a b = .lt ↔ before (text a) (text b)) {p q : List α} :
    List.compareLex order p q = .lt ↔ List.Lex before (p.map text) (q.map text) := by
  induction p generalizing q with
  | nil =>
    cases q with
    | nil => exact iff_of_false nofun nofun
    | cons b q => exact iff_of_true rfl .nil
  | cons a p ih =>
    cases q with
    | nil => exact iff_of_false nofun nofun
    | cons b q =>
      rw [List.compareLex_cons_cons, Ordering.then_eq_lt, entries, List.map_cons, List.map_cons]
      constructor
      · rintro (first | ⟨same, rest⟩)
        · exact .rel first
        · rw [Std.LawfulEqCmp.eq_of_compare same]
          exact .cons (ih.1 rest)
      · intro lex
        generalize first : text a = s, second : text b = t at lex ⊢
        cases lex with
        | rel less => exact .inl less
        | cons rest =>
          -- Equal texts are those of one entry.
          obtain rfl := apart (first.trans second.symm)
          exact .inr ⟨Std.ReflCmp.compare_self, ih.2 rest⟩

theorem compare_eq_lt_iff_lt {α : Type} [Ord α] [LT α] [Std.LawfulEqOrd α]
    (entries : ∀ a b : α, compare a b = .lt ↔ a < b) {p q : List α} :
    compare p q = .lt ↔ p < q := by
  rw [List.compare_eq_compareLex, compareLex_eq_lt_iff Function.injective_id entries, List.map_id,
    List.map_id]
  rfl

/-! ### Identifiers -/

namespace Identifier

/-- An identifier of digits only is a number. -/
def IsNumeric (s : List Char) : Prop := ∀ c ∈ s, isDigit c = true

/-- Numbers are in the order of their values and come before words, words in the order of their
characters. -/
inductive IsBefore : List Char → List Char → Prop
  | numbers {s t : List Char} (first : IsNumeric s) (second : IsNumeric t)
      (less : valueOf s < valueOf t) : IsBefore s t
  | mixed {s t : List Char} (first : IsNumeric s) (second : ¬ IsNumeric t) : IsBefore s t
  | words {s t : List Char} (first : ¬ IsNumeric s) (second : ¬ IsNumeric t) (less : s < t) :
      IsBefore s t

theorem isNumeric_chars_numeric (n : Nat) : IsNumeric (numeric n).chars := fun _ mem =>
  Text.isDigit_of_mem_decimal mem

theorem not_isNumeric_chars_word (w : Word) : ¬ IsNumeric (word w).chars := by
  intro digits
  have valid := w.valid
  have all : w.chars.all isDigit = true := List.all_eq_true.2 digits
  simp [all] at valid

theorem chars_injective : Function.Injective chars := by
  intro i j same
  have first := (ofChars?_eq_some_iff _ i).2 rfl
  have second := (ofChars?_eq_some_iff _ j).2 same.symm
  exact Option.some.inj (first.symm.trans second)

theorem order_eq_lt_iff (i j : Identifier) : i.order j = .lt ↔ IsBefore i.chars j.chars := by
  cases i with
  | numeric m =>
    cases j with
    | numeric n =>
      have less : (numeric m).order (numeric n) = .lt ↔
          valueOf (numeric m).chars < valueOf (numeric n).chars := by
        rw [order, compare_lt_iff_lt, chars_numeric, chars_numeric, Text.valueOf_decimal,
          Text.valueOf_decimal]
      rw [less]
      refine ⟨.numbers (isNumeric_chars_numeric m) (isNumeric_chars_numeric n), fun before => ?_⟩
      cases before with
      | numbers _ _ less => exact less
      | mixed _ second => exact absurd (isNumeric_chars_numeric n) second
      | words first => exact absurd (isNumeric_chars_numeric m) first
    | word w =>
      exact iff_of_true rfl (.mixed (isNumeric_chars_numeric m) (not_isNumeric_chars_word w))
  | word v =>
    have more := not_isNumeric_chars_word v
    cases j with
    | numeric n =>
      refine iff_of_false nofun fun before => ?_
      cases before with
      | numbers first => exact more first
      | mixed first => exact more first
      | words _ second => exact second (isNumeric_chars_numeric n)
    | word w =>
      have less : (word v).order (word w) = .lt ↔ (word v).chars < (word w).chars :=
        compare_eq_lt_iff_lt fun _ _ => compare_lt_iff_lt
      rw [less]
      refine ⟨.words more (not_isNumeric_chars_word w), fun before => ?_⟩
      cases before with
      | numbers first => exact absurd first more
      | mixed first => exact absurd first more
      | words _ _ less => exact less

end Identifier

namespace Version

/-! ### Versions -/

/-- The three numbers of a version. -/
def core (v : Version) : List UInt64 := [v.major, v.minor, v.patch]

theorem precedence_eq_then (a b : Version) :
    a.precedence b = (compare a.core b.core).then (preOrder a.pre b.pre) := by
  simp [precedence, core, Ordering.then_assoc]

/-- Pre-releases of which the same is written are the same. -/
theorem preChars_eq_iff {a b : Version} : a.preChars = b.preChars ↔ a.pre = b.pre := by
  refine ⟨fun same => ?_, fun same => by rw [preChars, preChars, same]⟩
  rw [preChars_eq, preChars_eq] at same
  split at same <;> split at same
  · rename_i first second
    rw [first, second]
  · cases same
  · cases same
  · rename_i first second
    have left := readPre_eq_some_iff.2 ⟨first, rfl⟩
    have right := readPre_eq_some_iff.2 ⟨second, (List.cons.inj same).2.symm⟩
    exact Option.some.inj (left.symm.trans right)

theorem preOrder_eq_lt_iff {p q : List Identifier} (first : p ≠ []) (second : q ≠ []) :
    preOrder p q = .lt ↔
      List.Lex Identifier.IsBefore (p.map Identifier.chars) (q.map Identifier.chars) := by
  rw [← compareLex_eq_lt_iff Identifier.chars_injective Identifier.order_eq_lt_iff]
  cases p with
  | nil => contradiction
  | cons i p =>
    cases q with
    | nil => contradiction
    | cons j q => exact Iff.rfl

/-- What the standard says of an order of versions, and what makes it a total preorder. Of versions
with the same numbers a release is the last, and pre-releases are in the lexicographic order of their
identifiers, so that one comes before those that go on where it ends. -/
structure FollowsStandard (order : Version → Version → Ordering) : Prop where
  swap : ∀ a b, order a b = (order b a).swap
  trans : ∀ a b c, order a b ≠ .gt → order b c ≠ .gt → order a c = (order a b).then (order b c)
  same : ∀ a b, order a b = .eq ↔
    a.major = b.major ∧ a.minor = b.minor ∧ a.patch = b.patch ∧ a.preChars = b.preChars
  numbers : ∀ a b, a.core < b.core → order a b = .lt
  release : ∀ a b, a.core = b.core → a.pre ≠ [] → b.pre = [] → order a b = .lt
  identifiers : ∀ a b, a.core = b.core → a.pre ≠ [] → b.pre ≠ [] →
    (order a b = .lt ↔
      List.Lex Identifier.IsBefore (a.pre.map Identifier.chars) (b.pre.map Identifier.chars))

theorem precedence_trans {a b c : Version} (first : a.precedence b ≠ .gt)
    (second : b.precedence c ≠ .gt) :
    a.precedence c = (a.precedence b).then (b.precedence c) := by
  cases low : a.precedence b with
  | gt => contradiction
  | eq => rw [Std.TransCmp.congr_left low, Ordering.eq_then]
  | lt => exact Std.TransCmp.lt_of_lt_of_isLE low (Ordering.isLE_iff_ne_gt.2 second)

theorem precedence_of_core {a b : Version} (same : a.core = b.core) :
    a.precedence b = preOrder a.pre b.pre := by
  rw [precedence_eq_then, same, Std.compare_self, Ordering.eq_then]

/-- Precedence is the order of the standard, and versions are taken for the same where it does not tell
them apart. -/
theorem precedence_follows_standard :
    FollowsStandard precedence ∧
      ∀ a b : Version, a.sameAs b = true ↔
        a.major = b.major ∧ a.minor = b.minor ∧ a.patch = b.patch ∧ a.preChars = b.preChars := by
  have same (a b : Version) : a.sameAs b = true ↔
      a.major = b.major ∧ a.minor = b.minor ∧ a.patch = b.patch ∧ a.preChars = b.preChars := by
    rw [sameAs_iff, preChars_eq_iff]
  refine ⟨?_, same⟩
  constructor
  case swap => exact fun a b => Std.OrientedCmp.eq_swap
  case trans => exact fun a b c => precedence_trans
  case same =>
    intro a b
    rw [← same, sameAs, beq_iff_eq]
  case numbers =>
    intro a b less
    rw [precedence_eq_then, (compare_eq_lt_iff_lt fun _ _ => Std.compare_eq_lt).2 less]
    rfl
  case release =>
    intro a b same pre release
    rw [precedence_of_core same, release]
    cases identifiers : a.pre with
    | nil => contradiction
    | cons i p => rfl
  case identifiers =>
    intro a b same first second
    rw [precedence_of_core same, preOrder_eq_lt_iff first second]

/-- A list comes before the longer one, a number of twenty digits after the small one that is greater as
a text, and the release after all of them, whatever its build is. -/
theorem precedence_follows_standard_beta :
    let beta : Identifier := .word ⟨['b', 'e', 't', 'a'], by decide⟩
    let shortest : Version := { major := 1, pre := [beta] }
    let small : Version := { major := 1, pre := [beta, .numeric 2] }
    let large : Version := { major := 1, pre := [beta, .numeric 18446744073709551617] }
    let release : Version := { major := 1, build := [⟨['0'], by decide⟩] }
    shortest.precedence small = .lt ∧ small.precedence large = .lt ∧ large.precedence release = .lt ∧
      shortest.precedence release = .lt := by
  intro beta shortest small large release
  obtain ⟨standard, -⟩ := precedence_follows_standard
  have longer : shortest.precedence small = .lt :=
    (standard.identifiers shortest small rfl (by decide) (by decide)).2 (.cons .nil)
  have greater : small.precedence large = .lt := by
    refine (standard.identifiers small large rfl (by decide) (by decide)).2 (.cons (.rel ?_))
    exact .numbers (Identifier.isNumeric_chars_numeric _) (Identifier.isNumeric_chars_numeric _)
      (by decide +kernel)
  have last : large.precedence release = .lt :=
    standard.release large release rfl (by decide) rfl
  have second : small.precedence release = .lt := by
    rw [standard.trans small large release (by simp [greater]) (by simp [last]), greater]
    rfl
  refine ⟨longer, greater, last, ?_⟩
  rw [standard.trans shortest small release (by simp [longer]) (by simp [second]), longer]
  rfl

end Version

end ModelWorkspace
