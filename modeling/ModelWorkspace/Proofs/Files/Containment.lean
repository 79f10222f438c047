import Mathlib.Data.Fintype.EquivFin
import Mathlib.Data.List.DropRight
import ModelWorkspace.Bundle
import ModelWorkspace.Proofs.Files.Paths

/-! Where paths lead, and what their texts tell about it. The steps of a path come to some steps up
and some names down; the comparison of texts looks at the names only, so it is right where nothing is
above the place at which both paths begin. -/
namespace ModelWorkspace

namespace Path

/-- Where a step leads. There is nothing above the root. -/
def Component.lead (l : Location) : Component → Location
  | .root => []
  | .here => l
  | .up => l.dropLast
  | .name s => l ++ [s]

/-- Where a path leads from a folder, step by step, whatever is there. -/
def place (p : Path) (current : Location) : Location := p.components.foldl Component.lead current

/-- What steps come to: so many steps up, and then the names down. -/
structure Course where
  climb : Nat := 0
  names : List String := []
  deriving DecidableEq

def Course.take (c : Course) : Component → Course
  | .root => {}
  | .here => c
  | .up =>
    if c.names = [] then { c with climb := c.climb + 1 } else { c with names := c.names.dropLast }
  | .name s => { c with names := c.names ++ [s] }

def course (p : Path) : Course := p.components.foldl Course.take {}

/-- The folder where a path begins. -/
def base (p : Path) (current : Location) : Location := if p.isAbsolute then [] else current

/-- The components that lead on from where the path begins. -/
def steps (p : Path) : List Component := p.segments.filterMap Component.ofSegment?

theorem ofSegment?_ne_root {segment : String} : Component.ofSegment? segment ≠ some .root := by
  unfold Component.ofSegment?
  split
  · simp
  · split <;> simp

theorem root_not_mem_steps (p : Path) : .root ∉ p.steps := by
  intro mem
  obtain ⟨segment, -, root⟩ := List.mem_filterMap.1 mem
  exact ofSegment?_ne_root root

/-- A path begins at the root or at the current folder, and a dot in front changes nothing. -/
theorem components_cases (p : Path) :
    (p.isAbsolute = true ∧ p.components = .root :: p.steps) ∨
      (p.isAbsolute = false ∧ (p.components = .here :: p.steps ∨ p.components = p.steps)) := by
  unfold components steps
  cases p.isAbsolute with
  | true => exact .inl ⟨rfl, rfl⟩
  | false =>
    refine .inr ⟨rfl, ?_⟩
    simp only [Bool.false_eq_true, if_false]
    split
    · exact .inl rfl
    · exact .inr rfl

theorem foldl_components {α : Type} (f : α → Component → α) {start begin : α} (p : Path)
    (root : p.isAbsolute = true → f start .root = begin)
    (here : p.isAbsolute = false → f start .here = start ∧ start = begin) :
    p.components.foldl f start = p.steps.foldl f begin := by
  obtain ⟨absolute, components⟩ | ⟨relative, components | components⟩ := components_cases p
  · rw [components, List.foldl_cons, root absolute]
  · rw [components, List.foldl_cons, (here relative).1, (here relative).2]
  · rw [components, (here relative).2]

/-- A step up takes back the last name, or leads further up where there is none. -/
theorem lead_course (l : Location) (c : Course) {s : Component} (inside : s ≠ .root) :
    Component.lead (l.rdrop c.climb ++ c.names) s =
      l.rdrop (c.take s).climb ++ (c.take s).names := by
  cases s with
  | root => exact absurd rfl inside
  | here => rfl
  | name s => simp [Component.lead, Course.take]
  | up =>
    simp only [Component.lead, Course.take]
    split
    · rename_i none
      rw [none, List.append_nil, List.append_nil, List.rdrop, List.rdrop, List.dropLast_eq_take,
        List.take_take, List.length_take]
      change l.take _ = l.take (l.length - (c.climb + 1))
      congr 1
      omega
    · rename_i some
      rw [List.dropLast_append_of_ne_nil some]

theorem foldl_lead (l : Location) (c : Course) {steps : List Component} (inside : .root ∉ steps) :
    steps.foldl Component.lead (l.rdrop c.climb ++ c.names) =
      l.rdrop (steps.foldl Course.take c).climb ++ (steps.foldl Course.take c).names := by
  induction steps generalizing c with
  | nil => rfl
  | cons s rest ih =>
    rw [List.mem_cons, not_or] at inside
    rw [List.foldl_cons, List.foldl_cons, lead_course l c (Ne.symm inside.1), ih _ inside.2]

theorem course_eq (p : Path) : p.course = p.steps.foldl Course.take {} :=
  foldl_components Course.take p (fun _ => rfl) fun _ => ⟨rfl, rfl⟩

theorem place_eq_foldl (p : Path) (current : Location) :
    p.place current = p.steps.foldl Component.lead (p.base current) := by
  refine foldl_components Component.lead p ?_ ?_ <;> intro kind <;> simp [base, kind, Component.lead]

theorem place_eq (p : Path) (current : Location) :
    p.place current = (p.base current).rdrop p.course.climb ++ p.course.names := by
  have whole := foldl_lead (p.base current) {} p.root_not_mem_steps
  rw [List.rdrop_zero, List.append_nil] at whole
  rw [place_eq_foldl, whole, course_eq]

/-! ### What the texts tell -/

def front (p : Path) : List Component := if p.isAbsolute then [.root] else []

theorem dropLast_front (p : Path) (names : List String) :
    dropLast (p.front ++ names.map .name) = p.front ++ names.dropLast.map .name := by
  by_cases none : names = []
  · subst none
    unfold dropLast front
    split <;> simp
  · have some : names.map Component.name ≠ [] := by simpa using none
    have longer : p.front ++ names.map .name ≠ [.root] := by
      intro root
      have last : Component.root ∈ names.map Component.name := by
        have last := List.getLast?_append_of_ne_nil p.front some
        rw [root] at last
        exact List.mem_of_getLast? last.symm
      simp at last
    rw [dropLast, if_neg longer, List.dropLast_append_of_ne_nil some, List.map_dropLast]

theorem foldl_follow (p : Path) (c : Course) {steps : List Component} (inside : .root ∉ steps) :
    steps.foldl follow (p.front ++ c.names.map .name) =
      p.front ++ (steps.foldl Course.take c).names.map .name := by
  induction steps generalizing c with
  | nil => rfl
  | cons s rest ih =>
    rw [List.mem_cons, not_or] at inside
    have one : follow (p.front ++ c.names.map .name) s = p.front ++ (c.take s).names.map .name := by
      cases s with
      | root => exact absurd rfl inside.1
      | here => rfl
      | name s => simp [follow, Course.take]
      | up =>
        rw [follow, dropLast_front, Course.take]
        split
        · rename_i none
          simp [none]
        · rfl
    rw [List.foldl_cons, List.foldl_cons, one, ih _ inside.2]

/-- The steps that are left are the names; that some steps lead above where the path begins is
lost. -/
theorem lexical_eq (p : Path) : p.lexical = p.front ++ p.course.names.map .name := by
  have begins : p.lexical = p.steps.foldl follow p.front := by
    refine foldl_components follow p ?_ ?_ <;> intro kind <;> simp [front, kind, follow]
  have whole := foldl_follow p {} p.root_not_mem_steps
  rw [List.map_nil, List.append_nil] at whole
  rw [begins, whole, course_eq]

theorem name_injective : Function.Injective Component.name := fun _ _ same =>
  Component.name.inj same

theorem isWithin_iff_of_isAbsolute {p root : Path} (absolute : root.isAbsolute = true) :
    p.isWithin root = true ↔ p.isAbsolute = true ∧ root.course.names <+: p.course.names := by
  rw [isWithin, List.isPrefixOf_iff_prefix, lexical_eq, lexical_eq, front, front, if_pos absolute]
  cases p.isAbsolute with
  | true => simp [List.prefix_map_iff_of_injective name_injective]
  | false =>
    simp only [Bool.false_eq_true, if_false, List.nil_append, false_and, iff_false]
    intro within
    have mem := within.subset (List.mem_cons_self (a := Component.root))
    simp at mem

theorem isWithin_iff_of_relative {p root : Path} (relative : root.isAbsolute = false) :
    p.isWithin root = true ↔
      root.course.names = [] ∨ p.isAbsolute = false ∧ root.course.names <+: p.course.names := by
  rw [isWithin, List.isPrefixOf_iff_prefix, lexical_eq, lexical_eq, front, front, relative]
  simp only [Bool.false_eq_true, if_false, List.nil_append]
  cases p.isAbsolute with
  | true =>
    cases root.course.names <;> simp [List.prefix_cons_iff]
  | false =>
    simp only [Bool.false_eq_true, if_false, List.nil_append,
      List.prefix_map_iff_of_injective name_injective, true_and]
    refine ⟨.inr, ?_⟩
    rintro (none | within)
    · rw [none]
      exact List.nil_prefix
    · exact within

/-- What lies within an absolute root, as far as the texts tell, is what leads into it. -/
theorem isWithin_iff_place {root : Path} (absolute : root.isAbsolute = true) (p : Path)
    (current : Location) :
    p.isWithin root = true ↔ p.isAbsolute = true ∧ root.place current <+: p.place current := by
  rw [isWithin_iff_of_isAbsolute absolute, and_congr_right_iff]
  intro inside
  simp [place_eq, base, absolute, inside, List.rdrop]

theorem rdrop_replicate (x : String) (n k : Nat) :
    (List.replicate n x).rdrop k = List.replicate (n - k) x := by
  rw [List.rdrop, List.length_replicate, List.take_replicate]
  congr 1
  omega

theorem isPrefix_rdrop (l : Location) {k m : Nat} (less : k ≤ m) : l.rdrop m <+: l.rdrop k :=
  List.take_prefix_take_left (by omega)

/-- A name that stands in no given list. -/
theorem exists_fresh (names : List String) : ∃ x, x ∉ names := by
  obtain ⟨x, fresh⟩ := Infinite.exists_notMem_finset names.toFinset
  exact ⟨x, by simpa using fresh⟩

/-- No list begins with a name that it does not hold. -/
theorem not_isPrefix_of_fresh {x : String} {n : Nat} (some : 0 < n) {names rest : List String}
    (fresh : x ∉ names) : ¬ List.replicate n x ++ rest <+: names := by
  intro within
  refine fresh (within.subset (List.mem_append_left _ ?_))
  rw [List.mem_replicate]
  exact ⟨Nat.ne_of_gt some, rfl⟩

/-- What lies within a relative root, as far as the texts tell, leads into it from everywhere if both
paths lead up as far, or if the root has no names and the path does not lead further up; in no other
case. -/
theorem place_prefix_iff_of_relative {p root : Path} (relative : root.isAbsolute = false)
    (within : p.isWithin root = true) :
    (∀ current, root.place current <+: p.place current) ↔
      p.isAbsolute = false ∧ (p.course.climb = root.course.climb ∨
        root.course.names = [] ∧ p.course.climb ≤ root.course.climb) := by
  rw [isWithin_iff_of_relative relative] at within
  constructor
  · intro leads
    obtain ⟨x, fresh⟩ := exists_fresh (root.course.names ++ p.course.names)
    rw [List.mem_append, not_or] at fresh
    -- All folders above the current one bear a name that neither path has.
    have below (n : Nat) := leads (List.replicate n x)
    simp only [place_eq, base, relative, Bool.false_eq_true, if_false, rdrop_replicate] at below
    cases kind : p.isAbsolute with
    | true =>
      have outside := below (root.course.climb + 1)
      simp only [kind, if_true, List.rdrop, List.take_nil, List.nil_append] at outside
      exact absurd outside (not_isPrefix_of_fresh (by omega) fresh.2)
    | false =>
      simp only [kind, Bool.false_eq_true, if_false, rdrop_replicate] at below
      refine ⟨rfl, ?_⟩
      obtain less | same | more := Nat.lt_trichotomy p.course.climb root.course.climb
      · refine .inr ⟨?_, Nat.le_of_lt less⟩
        have inside := below root.course.climb
        rw [Nat.sub_self, List.replicate_zero, List.nil_append] at inside
        obtain ⟨n, some⟩ : ∃ n, root.course.climb - p.course.climb = n + 1 :=
          ⟨root.course.climb - p.course.climb - 1, by omega⟩
        rw [some, List.replicate_succ, List.cons_append, List.prefix_cons_iff] at inside
        obtain none | ⟨names, first, -⟩ := inside
        · exact none
        · exact absurd (first ▸ List.mem_cons_self) fresh.1
      · exact .inl same
      · have outside := below p.course.climb
        rw [Nat.sub_self, List.replicate_zero, List.nil_append] at outside
        exact absurd outside (not_isPrefix_of_fresh (by omega) fresh.2)
  · rintro ⟨kind, climbs⟩ current
    simp only [place_eq, base, relative, kind, Bool.false_eq_true, if_false]
    obtain same | ⟨none, less⟩ := climbs
    · rw [same, List.prefix_append_right_inj]
      obtain none | ⟨-, within⟩ := within
      · rw [none]
        exact List.nil_prefix
      · exact within
    · rw [none, List.append_nil]
      exact (isPrefix_rdrop current less).trans (List.prefix_append ..)

end Path

namespace FileTree

open ModelWorkspace.Path (Component)

theorem step_eq {t : FileTree} {l m : Location} {segment : String} (leads : t.step l segment = .ok m) :
    m = ((Component.ofSegment? segment).map (Component.lead l)).getD l := by
  unfold FileTree.step at leads
  unfold Component.ofSegment?
  split at leads
  · cases leads
  · split at leads
    · -- The walk stays where it is.
      rename_i stays
      cases leads
      rw [if_pos stays]
      rfl
    · rename_i moves
      rw [if_neg moves]
      split at leads
      · rename_i up
        cases leads
        rw [if_pos up]
        rfl
      · rename_i name
        rw [if_neg name]
        split at leads
        · cases leads
        · split at leads
          · cases leads
            rfl
          · cases leads

theorem walk_eq {t : FileTree} {l m : Location} {segments : List String}
    (leads : t.walk l segments = .ok m) :
    m = (segments.filterMap Component.ofSegment?).foldl Component.lead l := by
  induction segments generalizing l with
  | nil =>
    cases leads
    rfl
  | cons segment rest ih =>
    rw [walk, List.foldlM_cons] at leads
    cases one : t.step l segment with
    | error fault => simp [one, bind, Except.bind] at leads
    | ok k =>
      rw [one] at leads
      rw [ih leads, step_eq one, List.filterMap_cons]
      cases Component.ofSegment? segment <;> rfl

theorem filterMap_stepsOf (p : Path) : (stepsOf p).filterMap Component.ofSegment? = p.steps := by
  unfold stepsOf Path.steps
  split
  · rename_i absolute
    obtain ⟨rest, text⟩ := List.head?_eq_some_iff.1 (beq_iff_eq.1 absolute)
    have slash : p.text = "" ++ "/" ++ String.ofList rest := by
      apply String.toList_injective
      simp [text]
    have whole : p = ⟨"" ++ "/" ++ String.ofList rest⟩ := by rw [← slash]
    rw [whole, Path.segments_slash]
    rfl
  · rfl

/-- A path that leads somewhere in a tree leads to its place. -/
theorem resolve_eq_place {t : FileTree} {p : Path} {l : Location} (leads : t.resolve p = .ok l) :
    l = p.place t.current := by
  unfold resolve at leads
  cases checked : check p with
  | error fault => simp [checked, bind, Except.bind] at leads
  | ok _ =>
    rw [checked] at leads
    rw [walk_eq leads, filterMap_stepsOf, Path.place_eq_foldl]
    rfl

end FileTree

end ModelWorkspace
