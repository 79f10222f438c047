import Mathlib.Data.List.Basic
import Mathlib.Data.List.DropRight
import ModelWorkspace.Text.Blank

/-! Texts that are put together from pieces: with white space around them, with a mark between two
parts, or with dots between many. What takes them apart gives the pieces back. -/
namespace ModelWorkspace.Text

/-- White space and nothing else. -/
def IsBlank (s : List Char) : Prop := ∀ c ∈ s, isBlank c = true

theorem IsBlank.append {s t : List Char} (front : IsBlank s) (back : IsBlank t) :
    IsBlank (s ++ t) := by
  intro c mem
  exact (List.mem_append.1 mem).elim (front c) (back c)

/-- Characters of different classes are different. -/
theorem ne_of_class {c d : Char} (isInside : Char → Bool) (inside : isInside c = true)
    (outside : isInside d = false) : c ≠ d := by
  rintro rfl
  rw [inside] at outside
  cases outside

/-! ### White space -/

theorem trimStart_append {before : List Char} (blank : IsBlank before) (s : List Char) :
    trimStart (before ++ s) = trimStart s := List.dropWhile_append_of_pos blank

theorem trimEnd_append {after : List Char} (blank : IsBlank after) (s : List Char) :
    trimEnd (s ++ after) = trimEnd s := by
  rw [trimEnd, List.reverse_append, List.dropWhile_append_of_pos, ← trimEnd]
  intro c mem
  exact blank c (List.mem_reverse.1 mem)

theorem trimStart_of_head {s : List Char} (dark : ∀ c ∈ s.head?, isBlank c = false) :
    trimStart s = s := by
  cases s with
  | nil => rfl
  | cons c rest => simp [trimStart, dark c rfl]

theorem trimEnd_of_last {s : List Char} (dark : ∀ c ∈ s.getLast?, isBlank c = false) :
    trimEnd s = s := by
  rw [trimEnd]
  have first : ∀ c ∈ s.reverse.head?, isBlank c = false := by
    rwa [List.head?_reverse]
  rw [← trimStart, trimStart_of_head first, List.reverse_reverse]

theorem exists_trimStart (s : List Char) : ∃ before, IsBlank before ∧ s = before ++ trimStart s :=
  ⟨s.takeWhile isBlank, fun _ mem => List.mem_takeWhile_imp mem,
    List.takeWhile_append_dropWhile.symm⟩

theorem exists_trimEnd (s : List Char) : ∃ after, IsBlank after ∧ s = trimEnd s ++ after := by
  obtain ⟨before, blank, whole⟩ := exists_trimStart s.reverse
  refine ⟨before.reverse, fun c mem => blank c (List.mem_reverse.1 mem), ?_⟩
  rw [trimEnd, ← trimStart, ← List.reverse_append, ← whole, List.reverse_reverse]

theorem exists_trim (s : List Char) :
    ∃ before after, IsBlank before ∧ IsBlank after ∧ s = before ++ trim s ++ after := by
  obtain ⟨before, front, whole⟩ := exists_trimStart s
  obtain ⟨after, back, rest⟩ := exists_trimEnd (trimStart s)
  exact ⟨before, after, front, back, by rw [List.append_assoc, trim, ← rest, ← whole]⟩

/-- White space around a text is trimmed if there is none at its ends. -/
theorem trim_append {before s after : List Char} (front : IsBlank before) (back : IsBlank after)
    (first : ∀ c ∈ s.head?, isBlank c = false) (last : ∀ c ∈ s.getLast?, isBlank c = false) :
    trim (before ++ s ++ after) = s := by
  cases s with
  | nil =>
    have none := trimStart_append (front.append back) []
    rw [List.append_nil] at none
    rw [List.append_nil, trim, none]
    rfl
  | cons c rest =>
    have start : trimStart (c :: rest ++ after) = c :: rest ++ after :=
      trimStart_of_head (by simpa using first)
    rw [List.append_assoc, trim, trimStart_append front, start, trimEnd_append back,
      trimEnd_of_last last]

theorem trim_of_visible {s : List Char} (visible : ∀ c ∈ s, isBlank c = false) : trim s = s := by
  have whole := @trim_append [] s [] nofun nofun
    (fun c mem => visible c (List.mem_of_head? mem)) fun c mem => visible c (List.mem_of_getLast? mem)
  rwa [List.append_nil] at whole

/-! ### Marks and dots -/

/-- A text is split before its first mark. -/
theorem splitBefore_of_append {stop : Char → Bool} {s t : List Char}
    (inner : ∀ c ∈ s, stop c = false) (mark : ∀ c ∈ t.head?, stop c = true) :
    splitBefore stop (s ++ t) = (s, t) := by
  have here : ∀ c ∈ s, (!stop c) = true := by simpa using inner
  rw [splitBefore, List.takeWhile_append_of_pos here, List.dropWhile_append_of_pos here]
  cases t with
  | nil => simp
  | cons c rest => simp [mark c rfl]

theorem head?_snd_splitBefore {stop : Char → Bool} {s : List Char} :
    ∀ c ∈ (splitBefore stop s).2.head?, stop c = true := by
  intro c first
  have stops := List.head?_dropWhile_not (fun c => !stop c) s
  rw [splitBefore] at first
  rw [first] at stops
  simpa using stops

theorem mem_intercalate {mark c : Char} {pieces : List (List Char)}
    (mem : c ∈ [mark].intercalate pieces) : c = mark ∨ ∃ piece ∈ pieces, c ∈ piece := by
  induction pieces with
  | nil => cases mem
  | cons first rest ih =>
    cases rest with
    | nil => exact .inr ⟨first, by simp, by simpa using mem⟩
    | cons second others =>
      rw [List.intercalate_cons_cons, List.mem_append, List.mem_append, List.mem_singleton] at mem
      obtain (mem | rfl) | mem := mem
      · exact .inr ⟨first, by simp, mem⟩
      · exact .inl rfl
      · exact (ih mem).imp_right fun ⟨piece, there, mem⟩ =>
          ⟨piece, List.mem_cons_of_mem _ there, mem⟩

section Dots

variable {α : Type} {read : List Char → Option α} {write : α → List Char}

theorem mem_dotted {P : Char → Prop} (plain : ∀ a, ∀ c ∈ write a, P c) {xs : List α} {c : Char}
    (mem : c ∈ ['.'].intercalate (xs.map write)) : c = '.' ∨ P c := by
  obtain dot | ⟨piece, there, mem⟩ := mem_intercalate mem
  · exact .inl dot
  · obtain ⟨a, -, rfl⟩ := List.mem_map.1 there
    exact .inr (plain a c mem)

theorem mapM_eq_some_iff (codec : ∀ s a, read s = some a ↔ write a = s) {pieces : List (List Char)}
    {xs : List α} : pieces.mapM read = some xs ↔ xs.map write = pieces := by
  induction pieces generalizing xs with
  | nil => simp [eq_comm]
  | cons piece rest ih =>
    rw [List.mapM_cons]
    simp only [bind, pure, Option.bind_eq_some_iff, Option.some.injEq, codec, ih]
    constructor
    · rintro ⟨a, rfl, others, rfl, rfl⟩
      rfl
    · intro whole
      obtain ⟨a, others, rfl, first, rest⟩ := List.map_eq_cons_iff.1 whole
      exact ⟨a, first, others, rest, rfl⟩

/-- What is read from the pieces between dots is what is written with dots between it. -/
theorem mapM_splitOn_eq_some_iff (codec : ∀ s a, read s = some a ↔ write a = s)
    (plain : ∀ a, '.' ∉ write a) {s : List Char} {xs : List α} :
    (s.splitOn '.').mapM read = some xs ↔ xs ≠ [] ∧ ['.'].intercalate (xs.map write) = s := by
  rw [mapM_eq_some_iff codec]
  constructor
  · intro pieces
    refine ⟨fun none => ?_, by rw [pieces, List.intercalate_splitOn]⟩
    rw [none, List.map_nil] at pieces
    exact List.splitOn_ne_nil _ _ pieces.symm
  · rintro ⟨some, rfl⟩
    have undotted : ∀ piece ∈ xs.map write, '.' ∉ piece := by
      intro piece mem
      obtain ⟨a, -, rfl⟩ := List.mem_map.1 mem
      exact plain a
    exact (List.splitOn_intercalate '.' undotted (by simpa using some)).symm

end Dots

end ModelWorkspace.Text
