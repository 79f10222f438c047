import ModelWorkspace.Project.Basic
import ModelWorkspace.Proofs.Version.Reading

/-! What a project takes from its declaration. The name gives the namespace, and the version is one that
both readers read, with nothing left of the white space around it. -/
namespace ModelWorkspace.Project

open Text (isBlank IsBlank)

theorem isUpper_eq (c : Char) : isUpper c = c.isUpper := (Bool.decide_and _ _).symm

theorem isAlphanumeric_eq (c : Char) : isAlphanumeric c = c.isAlphanum := by
  rw [isAlphanumeric, isUpper_eq]
  rfl

theorem isAlphanum_of_isUpper {c : Char} (upper : c.isUpper = true) : c.isAlphanum = true := by
  change (c.isUpper || c.isLower || c.isDigit) = true
  rw [upper]
  rfl

theorem spaceOf?_eq_some_iff {name space : String} :
    spaceOf? name = some space ↔
      space.toList = name.toList.filter (fun c => c != '-' && !isBlank c) ∧
        (∃ c, space.toList.head? = some c ∧ c.isUpper = true) ∧
        ∀ c ∈ space.toList, c.isAlphanum = true := by
  unfold spaceOf?
  constructor
  · intro given
    split at given
    · cases given
    · rename_i c rest kept
      split at given
      · rename_i plain
        cases given
        rw [isUpper_eq, Bool.and_eq_true, List.all_eq_true] at plain
        rw [String.toList_ofList, kept]
        refine ⟨rfl, ⟨c, rfl, plain.1⟩, fun d mem => ?_⟩
        obtain rfl | mem := List.mem_cons.1 mem
        · exact isAlphanum_of_isUpper plain.1
        · rw [← isAlphanumeric_eq]
          exact plain.2 d mem
      · cases given
  · rintro ⟨kept, ⟨c, first, upper⟩, plain⟩
    obtain ⟨rest, whole⟩ := List.head?_eq_some_iff.1 first
    have others : rest.all isAlphanumeric = true := by
      rw [List.all_eq_true]
      intro d mem
      rw [isAlphanumeric_eq]
      exact plain d (whole ▸ List.mem_cons_of_mem c mem)
    rw [← kept, whole]
    simp only [isUpper_eq, upper, others, Bool.and_self, if_true]
    rw [← whole, String.ofList_toList]

/-- What a project has from its declaration, and the version that both readers read in it. -/
structure IsReadFrom (p : Project) (d : Declaration) (v : Version) : Prop where
  name : p.name = d.name
  description : p.description = d.description
  space : p.space.toList = d.name.toList.filter fun c => c != '-' && !isBlank c
  upper : ∃ c, p.space.toList.head? = some c ∧ c.isUpper = true
  plain : ∀ c ∈ p.space.toList, c.isAlphanum = true
  trimmed : ∃ before after, IsBlank before ∧ IsBlank after ∧
    d.version.toList = before ++ p.version.toList ++ after
  visible : ∀ c ∈ p.version.toList, isBlank c = false
  strict : Version.ofText? p.version = some v
  lenient : p.modelVersion? = some v
  printed : v.text = p.version

theorem ofDeclaration_eq_ok_iff {folder : Path} {d : Declaration} {p : Project} :
    ofDeclaration folder d = .ok p ↔ p.path = folder ∧ ∃ v, p.IsReadFrom d v := by
  unfold ofDeclaration
  constructor
  · intro made
    split at made
    · cases made
    · rename_i space given
      dsimp only at made
      split at made
      · rename_i read
        cases made
        obtain ⟨v, read⟩ := Option.isSome_iff_exists.1 read
        obtain ⟨kept, upper, plain⟩ := spaceOf?_eq_some_iff.1 given
        have lenient := Version.normalizeChars?_of_ofChars? read
        have written := Version.ofChars?_eq_some_iff.1 read
        have visible := Version.visible_of_ofShortChars? (Version.ofShortChars?_chars v)
        rw [written] at visible
        refine ⟨rfl, v, rfl, rfl, kept, upper, plain, ?_, ?_, ?_, ?_, ?_⟩
        · simpa using Text.exists_trim d.version.toList
        · simpa using visible
        · simpa [Version.ofText?] using read
        · simpa [modelVersion?, Version.normalize?] using lenient
        · rw [Version.text, written]
      · cases made
  · rintro ⟨rfl, v, read⟩
    obtain ⟨before, after, front, back, whole⟩ := read.trimmed
    have trim : Text.trim d.version.toList = p.version.toList := by
      rw [whole]
      exact Text.trim_append front back (fun c mem => read.visible c (List.mem_of_head? mem))
        fun c mem => read.visible c (List.mem_of_getLast? mem)
    have strict : Version.ofChars? p.version.toList = some v := read.strict
    rw [spaceOf?_eq_some_iff.2 ⟨read.space, read.upper, read.plain⟩]
    simp only [trim, strict, Option.isSome_some, if_true, String.ofList_toList, ← read.name,
      ← read.description]

theorem ofFolder_eq_ok_iff {files : FileTree} {folder : Path} {p : Project} :
    ofFolder files folder = .ok p ↔
      p.path = folder ∧ ∃ d v, declaration? files folder = some d ∧ p.IsReadFrom d v := by
  unfold ofFolder
  split
  · rename_i none
    simp [none]
  · rename_i d found
    simp [found, ofDeclaration_eq_ok_iff]

end ModelWorkspace.Project
