import Mathlib.Data.List.Basic
import ModelWorkspace.Catalogue
import ModelWorkspace.FileTree

/-! Paths below a folder. A name behind a path is one more step from where it leads, so what is joined
to a root lies within it; and a folder in which a file can be read is there. -/
namespace ModelWorkspace

namespace Path

/-- A text that stands for one step down. -/
def isStep (name : String) : Bool := !name.toList.contains '/' && FileTree.isName name

section Joining

variable {name : String} (step : isStep name = true)
include step

theorem noSlash_of_isStep : '/' ∉ name.toList := by
  simp only [isStep, Bool.and_eq_true, Bool.not_eq_true', List.contains_eq_mem,
    decide_eq_false_iff_not] at step
  exact step.1

theorem segments_of_isStep : (⟨name⟩ : Path).segments = [name] := by
  simp [segments, List.splitOn_eq_singleton (noSlash_of_isStep step)]

theorem ofSegment?_of_isStep : Component.ofSegment? name = some (.name name) := by
  simp only [isStep, FileTree.isName, Bool.and_eq_true, bne_iff_ne] at step
  simp [Component.ofSegment?, step.2.1.1, step.2.1.2, step.2.2]

theorem isAbsolute_of_isStep : (⟨name⟩ : Path).isAbsolute = false := by
  have absent := noSlash_of_isStep step
  unfold isAbsolute
  cases text : name.toList with
  | nil => rfl
  | cons c rest =>
    rw [text, List.mem_cons, not_or] at absent
    simpa using Ne.symm absent.1

theorem components_of_isStep : (⟨name⟩ : Path).components = [.name name] := by
  have notHere : name ≠ "." := by
    rintro rfl
    revert step
    decide
  simp [components, segments_of_isStep step, isAbsolute_of_isStep step, ofSegment?_of_isStep step,
    notHere]

end Joining

theorem segments_slash (s t : String) :
    (⟨s ++ "/" ++ t⟩ : Path).segments = (⟨s⟩ : Path).segments ++ (⟨t⟩ : Path).segments := by
  simp [segments, List.splitOn_append_cons_self]

theorem segments_ne_nil (p : Path) : p.segments ≠ [] := by
  simp [segments, List.splitOn_ne_nil]

theorem isAbsolute_append {s : String} (nonempty : s ≠ "") (t : String) :
    (⟨s ++ t⟩ : Path).isAbsolute = (⟨s⟩ : Path).isAbsolute := by
  have chars : s.toList ≠ [] := by simpa using nonempty
  simp [isAbsolute, List.head?_append_of_ne_nil _ chars]

/-- What is joined to a path is its text, up to a slash at the end, a slash, and the name. -/
theorem join_cases {p : Path} (nonempty : p.text ≠ "") {name : String} (step : isStep name = true) :
    ∃ s, (p.join ⟨name⟩).text = s ++ "/" ++ name ∧ (p.text = s ∨ p.text = s ++ "/") := by
  have relative := isAbsolute_of_isStep step
  have present : p.text.isEmpty = false := by simpa using nonempty
  unfold join
  rw [relative, present, if_neg (by simp)]
  split
  · rename_i slash
    obtain ⟨chars, same⟩ := List.getLast?_eq_some_iff.1 (by simpa using slash)
    have text : p.text = String.ofList chars ++ "/" := by
      apply String.toList_injective
      simp [same]
    exact ⟨String.ofList chars, by rw [text], .inr text⟩
  · exact ⟨p.text, rfl, .inl rfl⟩

theorem isAbsolute_join {p : Path} (nonempty : p.text ≠ "") {name : String}
    (step : isStep name = true) : (p.join ⟨name⟩).isAbsolute = p.isAbsolute := by
  obtain ⟨s, joined, same | same⟩ := join_cases nonempty step
  · rw [← same, String.append_assoc] at joined
    have whole : p.join ⟨name⟩ = ⟨p.text ++ ("/" ++ name)⟩ := by rw [← joined]
    rw [whole, isAbsolute_append nonempty]
  · rw [← same] at joined
    have whole : p.join ⟨name⟩ = ⟨p.text ++ name⟩ := by rw [← joined]
    rw [whole, isAbsolute_append nonempty]

/-- The segments of a joined path are those of the path, up to an empty one at the end, and the
name. -/
theorem segments_join {p : Path} (nonempty : p.text ≠ "") {name : String}
    (step : isStep name = true) :
    ∃ front, front ≠ [] ∧ (p.join ⟨name⟩).segments = front ++ [name] ∧
      (p.segments = front ∨ p.segments = front ++ [""]) := by
  obtain ⟨s, joined, same⟩ := join_cases nonempty step
  refine ⟨(⟨s⟩ : Path).segments, segments_ne_nil _, ?_, same.imp (fun same => by rw [← same])
    fun same => ?_⟩
  · have whole : p.join ⟨name⟩ = ⟨s ++ "/" ++ name⟩ := by rw [← joined]
    rw [whole, segments_slash, segments_of_isStep step]
  · have whole : p = ⟨s ++ "/" ++ ""⟩ := by
      cases p
      simpa using same
    rw [whole, segments_slash]
    rfl

/-- A name behind a path is one more step. -/
theorem components_join (p : Path) {name : String} (step : isStep name = true) :
    (p.join ⟨name⟩).components = p.components ++ [.name name] := by
  by_cases empty : p.text = ""
  · obtain rfl : p = ⟨""⟩ := by cases p; simpa using empty
    have alone : (⟨""⟩ : Path).join ⟨name⟩ = ⟨name⟩ := by simp [join]
    rw [alone, components_of_isStep step]
    rfl
  · obtain ⟨front, some, segs, own⟩ := segments_join empty step
    have steps : p.segments.filterMap Component.ofSegment? =
        front.filterMap Component.ofSegment? := by
      obtain own | own := own <;> simp [own, Component.ofSegment?]
    have head : p.segments.head? = front.head? := by
      obtain own | own := own
      · rw [own]
      · rw [own, List.head?_append_of_ne_nil _ some]
    simp only [components, isAbsolute_join empty step, segs, List.filterMap_append,
      List.filterMap_cons, ofSegment?_of_isStep step, List.filterMap_nil, steps,
      List.head?_append_of_ne_nil _ some, head]
    split
    · rfl
    · split <;> rfl

theorem fileName?_join (p : Path) {name : String} (step : isStep name = true) :
    (p.join ⟨name⟩).fileName? = some name := by
  simp [fileName?, components_join p step]

theorem isWithin_join (p : Path) {name : String} (step : isStep name = true) :
    (p.join ⟨name⟩).isWithin p = true := by
  have longer : (p.join ⟨name⟩).lexical = p.lexical ++ [.name name] := by
    simp [lexical, components_join p step, follow]
  rw [isWithin, longer, List.isPrefixOf_iff_prefix]
  exact List.prefix_append ..

theorem text_join_ne (p : Path) {name : String} (step : isStep name = true) :
    (p.join ⟨name⟩).text ≠ "" := by
  intro empty
  have nothing : (p.join ⟨name⟩).components = [] := by
    have whole : p.join ⟨name⟩ = ⟨""⟩ := by rw [← empty]
    rw [whole]
    rfl
  rw [components_join p step] at nothing
  simp at nothing

end Path

namespace FileTree

/-- A path is checked before it is followed, and what is wrong with it stays wrong in a longer one. -/
theorem check_of_check_join {p : Path} (nonempty : p.text ≠ "") {name : String}
    (step : Path.isStep name = true) (checked : check (p.join ⟨name⟩) = .ok ()) :
    check p = .ok () := by
  obtain ⟨s, joined, same⟩ := Path.join_cases nonempty step
  unfold check at checked ⊢
  rw [if_neg (by simpa using nonempty)]
  split at checked
  · cases checked
  · split at checked
    · cases checked
    · rename_i clean
      rw [if_neg]
      intro zero
      refine clean ?_
      rw [joined]
      simp only [List.contains_eq_mem, decide_eq_true_eq] at zero ⊢
      obtain same | same := same <;>
      · rw [same] at zero
        simp_all

/-- A path leads somewhere if a file behind it can be read. -/
theorem resolve_of_read_join {files : FileTree} {p : Path} (nonempty : p.text ≠ "")
    {name text : String} (step : Path.isStep name = true)
    (read : files.read (p.join ⟨name⟩) = .ok text) : ∃ l, files.resolve p = .ok l := by
  have absolute := Path.isAbsolute_join nonempty step
  have start : files.start (p.join ⟨name⟩) = files.start p := by
    rw [FileTree.start, absolute, FileTree.start]
  obtain ⟨front, steps, own⟩ : ∃ front, stepsOf (p.join ⟨name⟩) = front ++ [name] ∧
      (stepsOf p = front ∨ stepsOf p = front ++ [""]) := by
    obtain ⟨front, some, segs, own⟩ := Path.segments_join nonempty step
    have long : 1 ≤ front.length := List.length_pos_of_ne_nil some
    unfold stepsOf
    rw [absolute, segs]
    split
    · refine ⟨front.drop 1, List.drop_append_of_le_length long, own.imp (fun own => by rw [own])
        fun own => ?_⟩
      rw [own, List.drop_append_of_le_length long]
    · exact ⟨front, rfl, own⟩
  cases whole : check (p.join ⟨name⟩) with
  | error fault => simp [FileTree.read, resolve, whole, bind, Except.bind] at read
  | ok _ =>
    have checked := check_of_check_join nonempty step whole
    simp only [FileTree.read, resolve, whole, start, steps, FileTree.walk, List.foldlM_append,
      bind, Except.bind] at read
    simp only [resolve, checked, FileTree.walk, bind, Except.bind]
    cases walk : front.foldlM files.step (files.start p) with
    | error fault => simp [walk] at read
    | ok l =>
      obtain own | own := own
      · exact ⟨l, by rw [own, walk]⟩
      · -- A slash at the end asks for a folder, and so does the name behind it.
        have inside : files.hasFolder l = true := by
          by_contra outside
          rw [Bool.not_eq_true] at outside
          simp [walk, FileTree.step, outside, bind, Except.bind] at read
        refine ⟨l, ?_⟩
        simp [own, List.foldlM_append, walk, FileTree.step, inside, bind, Except.bind, pure,
          Except.pure]

end FileTree

/-- The bundled folders have names that stand for one step. -/
theorem Catalogue.isStep_modelFolder : ∀ entry ∈ modelFolders, Path.isStep entry.2 = true := by
  decide

end ModelWorkspace
