import ModelWorkspace.Proofs.Catalogue.Advice

/-! Versions of one precedence are one version to the catalogue, however they are spelled, so its tables
are what their texts are read as. And they fit together: what a platform version starts with is a
model version that it accepts, and one that has a bundled folder of its own. -/
namespace ModelWorkspace

theorem Version.normalize_of_some {s : String} {v : Version} (read : normalize? s = some v) :
    normalize s = .ok v := by
  rw [normalize, read]

namespace Catalogue

/-! ### The tables as they are written -/

/-- Platform versions and the range of the model versions that each accepts. -/
def rangeTexts : List (String × String) :=
  [ ("3.0.0", "3.0.0"),
    ("3.1.0", "3.1.0"),
    ("3.1.1", "3.1.0"),
    ("3.2.0", "3.1.0"),
    ("3.3.0", "3.2.0"),
    ("3.4.0", "3.2.0-b"),
    ("5.0.0", "3.2.0-c"),
    ("5.1.0", "3.2.0-c"),
    ("5.2.0", "3.3.0-a"),
    ("5.3.0", "3.3.1-b"),
    ("6.0.0", "4.0.0-a"),
    ("6.1.0", "4.0.0"),
    ("7.0.0", ">=4.0.0") ]

/-- Platform versions and the model version that each starts with. -/
def defaultTexts : List (String × String) :=
  [ ("3.0.0", "3.0.0"),
    ("3.1.0", "3.1.0"),
    ("3.1.1", "3.1.0"),
    ("3.2.0", "3.1.0"),
    ("3.3.0", "3.2.0"),
    ("3.4.0", "3.2.0-b"),
    ("5.0.0", "3.2.0-c"),
    ("5.1.0", "3.2.0-c"),
    ("5.2.0", "3.3.0-a"),
    ("5.3.0", "3.3.1-b"),
    ("6.0.0", "4.0.0-a"),
    ("6.1.0", "4.0.0"),
    ("7.0.0", "5.0.0-pre.1") ]

/-- Model versions and the bundled folder of each. -/
def folderTexts : List (String × String) :=
  [ ("3.0.0", "ed-fi-model-3.0"),
    ("3.1.0", "ed-fi-model-3.1"),
    ("3.2.0", "ed-fi-model-3.2a"),
    ("3.2.0-b", "ed-fi-model-3.2b"),
    ("3.2.0-c", "ed-fi-model-3.2c"),
    ("3.3.0-a", "ed-fi-model-3.3a"),
    ("3.3.1-b", "ed-fi-model-3.3b"),
    ("4.0.0-a", "ed-fi-model-4.0a"),
    ("4.0.0", "ed-fi-model-4.0"),
    ("5.0.0-pre.1", "ed-fi-model-5.0-pre.1") ]

/-- The rows of a table whose two texts can be read. -/
def readRows {α : Type} (read : String → Option α) (table : List (String × String)) :
    List (Version × α) :=
  table.filterMap fun (key, value) => return (← Version.normalize? key, ← read value)

/-- The catalogue is what its texts are read as, and every row can be read. -/
theorem tables_are_read :
    readRows Range.ofText? rangeTexts = ranges ∧ ranges.length = rangeTexts.length ∧
    readRows Version.normalize? defaultTexts = defaults ∧ defaults.length = defaultTexts.length ∧
    readRows some folderTexts = modelFolders ∧ modelFolders.length = folderTexts.length ∧
    Range.ofText? "3.0.0" = some fallbackRange ∧
    defaultPlatform.text = "6.1.0" ∧ defaultModel.text = "4.0.0" := by
  decide +kernel

/-! ### Look-ups -/

theorem isCompatible_congr_platform {a b : Version} (same : a.sameAs b = true) (model : Version) :
    isCompatible model a = isCompatible model b := by
  rw [isCompatible, rangeFor_congr same, isCompatible]

theorem modelFolderFor_congr {a b : Version} (same : a.sameAs b = true) :
    modelFolderFor a = modelFolderFor b := by
  rw [modelFolderFor, lookup_congr modelFolders same, modelFolderFor]

theorem modelFolderFor_of_lookup {model : Version} {folder : String}
    (found : lookup modelFolders model = some folder) :
    ∃ key, (key, modelFolderFor model) ∈ modelFolders ∧ key.sameAs model = true := by
  rw [modelFolderFor, found, Option.getD_some]
  exact mem_of_lookup found

/-- A model version that a platform version starts with has a folder of its own. -/
theorem exists_folder_of_default {platform model : Version}
    (default : defaultModelVersion platform = some model) :
    ∃ folder, lookup modelFolders model = some folder := by
  have all : ∀ entry ∈ defaults, (lookup modelFolders entry.2).isSome = true := by decide
  obtain ⟨key, mem, -⟩ := mem_of_lookup default
  exact Option.isSome_iff_exists.1 (all (key, _) mem)

/-- Texts that are read as versions of one precedence cannot be told apart, neither as platform nor as
model versions. A platform version accepts the model version that it starts with, and for that model
version a folder is listed, so that its folder is never the baseline for want of another. -/
theorem lookups_ignore_spelling :
    (∀ s t v w, Version.normalize s = .ok v → Version.normalize t = .ok w → v.sameAs w = true →
      rangeFor v = rangeFor w ∧ defaultModelVersion v = defaultModelVersion w ∧
      recommendedFolder (rangeFor v) = recommendedFolder (rangeFor w) ∧
      modelFolderFor v = modelFolderFor w ∧
      ∀ other, isCompatible v other = isCompatible w other ∧
        isCompatible other v = isCompatible other w) ∧
    ∀ platform model, defaultModelVersion platform = some model →
      isCompatible model platform = true ∧ lookup modelFolders model = some (modelFolderFor model) ∧
      ∃ key, (key, modelFolderFor model) ∈ modelFolders ∧ key.sameAs model = true := by
  constructor
  · intro s t v w _ _ same
    have range := rangeFor_congr same
    refine ⟨range, lookup_congr defaults same, congrArg recommendedFolder range,
      modelFolderFor_congr same, fun other => ⟨isCompatible_congr same other, ?_⟩⟩
    exact isCompatible_congr_platform same other
  · intro platform model default
    obtain ⟨folder, found⟩ := exists_folder_of_default default
    refine ⟨isCompatible_default default, ?_, modelFolderFor_of_lookup found⟩
    rw [modelFolderFor, found, Option.getD_some]

/-- White space, a mark, a missing number and a build. -/
theorem lookups_ignore_spelling_padded :
    ∃ v w, Version.normalize " v6.1+build.7 " = .ok v ∧ Version.normalize "6.1.0" = .ok w ∧ v ≠ w ∧
      rangeFor v = rangeFor w ∧ defaultModelVersion v = some (release 4 0 0) ∧
      isCompatible (release 4 0 0) v = true ∧
      ∃ key, (key, modelFolderFor (release 4 0 0)) ∈ modelFolders := by
  have read : Version.normalize? " v6.1+build.7 " = some { release 6 1 0 with
      build := [⟨['b', 'u', 'i', 'l', 'd'], by decide⟩, ⟨['7'], by decide⟩] } := by decide
  have plain : Version.normalize? "6.1.0" = some (release 6 1 0) := by decide
  have written := Version.normalize_of_some read
  have short := Version.normalize_of_some plain
  obtain ⟨range, default, -⟩ := lookups_ignore_spelling.1 _ _ _ _ written short (by decide)
  have starts : defaultModelVersion (release 6 1 0) = some (release 4 0 0) := by decide
  rw [starts] at default
  obtain ⟨accepted, -, key, listed, -⟩ := lookups_ignore_spelling.2 _ _ default
  exact ⟨_, _, written, short, by decide, range, default, accepted, key, listed⟩

end Catalogue

end ModelWorkspace
