import ModelWorkspace.Proofs.Catalogue.Defaults

/-! The folder that the catalogue recommends for a range. It ships the newest bundled model version in
the range; every platform version has a range with such a model version, so what is recommended for a
platform is a folder that the platform accepts, and never the baseline for want of a better one. -/
namespace ModelWorkspace.Catalogue

section Newest

variable {α : Type}

/-- Of two entries the one that is taken is one of them, and not older than the other. -/
theorem newer_cases (best entry : Version × α) :
    (newer best entry = best ∨ newer best entry = entry) ∧
      (newer best entry).1.atLeast best.1 = true ∧ (newer best entry).1.atLeast entry.1 = true := by
  unfold newer
  split
  · rename_i after
    have order : best.1.precedence entry.1 = .gt := by simpa using after
    exact ⟨.inl rfl, Version.atLeast_self _, by simp [Version.atLeast, order]⟩
  · rename_i after
    refine ⟨.inr rfl, Version.atLeast_iff.2 ?_, Version.atLeast_self _⟩
    cases order : best.1.precedence entry.1 <;> simp_all

theorem foldl_newer (first : Version × α) (others : List (Version × α)) :
    others.foldl newer first ∈ first :: others ∧
      ∀ entry ∈ first :: others, (others.foldl newer first).1.atLeast entry.1 = true := by
  induction others generalizing first with
  | nil => simp [Version.atLeast_self]
  | cons second rest ih =>
    obtain ⟨taken, old, new⟩ := newer_cases first second
    obtain ⟨mem, newest⟩ := ih (newer first second)
    rw [List.foldl_cons]
    have best := newest _ List.mem_cons_self
    constructor
    · obtain same | mem := List.mem_cons.1 mem
      · rw [same]
        obtain same | same := taken <;> simp [same]
      · exact List.mem_cons_of_mem _ (List.mem_cons_of_mem _ mem)
    · intro entry there
      obtain rfl | there := List.mem_cons.1 there
      · exact Version.atLeast_trans best old
      · obtain rfl | there := List.mem_cons.1 there
        · exact Version.atLeast_trans best new
        · exact newest entry (List.mem_cons_of_mem _ there)

theorem newest_cases (table : List (Version × α)) :
    (table = [] ∧ newest table = none) ∨
      ∃ best ∈ table, newest table = some best ∧
        ∀ entry ∈ table, best.1.atLeast entry.1 = true := by
  cases table with
  | nil => exact .inl ⟨rfl, rfl⟩
  | cons first others =>
    obtain ⟨mem, newest⟩ := foldl_newer first others
    exact .inr ⟨_, mem, rfl, newest⟩

end Newest

/-- The recommended folder ships the newest model version in the range, if there is any in it. -/
theorem recommendedFolder_cases (range : Range) :
    (∃ v, (v, recommendedFolder range) ∈ modelFolders ∧ v ∈ range ∧
      ∀ entry ∈ modelFolders, entry.1 ∈ range → v.atLeast entry.1 = true) ∨
    ((∀ entry ∈ modelFolders, entry.1 ∉ range) ∧ recommendedFolder range = baselineFolder) := by
  unfold recommendedFolder
  obtain ⟨empty, none⟩ | ⟨best, mem, some, newest⟩ :=
    newest_cases (modelFolders.filter fun entry => range.accepts entry.1)
  · right
    refine ⟨fun entry mem accepted => ?_, by rw [none]⟩
    exact (List.filter_eq_nil_iff.1 empty) entry mem accepted
  · left
    obtain ⟨mem, accepted⟩ := List.mem_filter.1 mem
    refine ⟨best.1, by rwa [some], accepted, fun entry there inside => ?_⟩
    exact newest entry (List.mem_filter.2 ⟨there, inside⟩)

/-- Each platform accepts one of the bundled model versions. -/
theorem exists_accepted (platform : Version) :
    ∃ entry ∈ modelFolders, entry.1 ∈ rangeFor platform := by
  have all : ∀ row ∈ ranges, ∃ entry ∈ modelFolders, entry.1 ∈ row.2 := by decide
  have oldest : ∃ entry ∈ modelFolders, entry.1 ∈ fallbackRange := by decide
  unfold rangeFor
  cases found : lookup ranges platform with
  | none => exact oldest
  | some range =>
    obtain ⟨key, mem, -⟩ := mem_of_lookup found
    exact all (key, range) mem

/-- A bundled model version is shipped by the folder that is listed for it. -/
theorem modelFolderFor_of_mem {v : Version} {folder : String} (listed : (v, folder) ∈ modelFolders) :
    modelFolderFor v = folder := by
  have all : ∀ entry ∈ modelFolders, modelFolderFor entry.1 = entry.2 := by decide
  exact all (v, folder) listed

/-- No folder ships two of the bundled model versions. -/
theorem eq_of_mem_modelFolders {v w : Version} {folder : String} (one : (v, folder) ∈ modelFolders)
    (other : (w, folder) ∈ modelFolders) : v = w := by
  have all : ∀ entry ∈ modelFolders, ∀ entry' ∈ modelFolders,
      entry.2 = entry'.2 → entry.1 = entry'.1 := by decide
  exact all (v, folder) one (w, folder) other rfl

/-- The folder that is recommended for a platform ships a model version that the platform accepts. -/
theorem exists_recommended (platform : Version) :
    ∃ model, (model, recommendedFolder (rangeFor platform)) ∈ modelFolders ∧
      model ∈ rangeFor platform ∧ isCompatible model platform = true ∧
      modelFolderFor model = recommendedFolder (rangeFor platform) := by
  obtain ⟨model, listed, accepted, -⟩ | ⟨none, -⟩ := recommendedFolder_cases (rangeFor platform)
  · exact ⟨model, listed, accepted, accepted, modelFolderFor_of_mem listed⟩
  · obtain ⟨entry, listed, accepted⟩ := exists_accepted platform
    exact absurd accepted (none entry listed)

end ModelWorkspace.Catalogue
