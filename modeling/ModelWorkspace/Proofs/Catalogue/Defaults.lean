import ModelWorkspace.Proofs.Version.Precedence

/-! The catalogue is consistent: look-ups do not see the spelling of a version, and the model version
that a platform version starts with is one that it accepts. Platform versions of the catalogue are
releases, so a pre-release of one is none of them, and has the fallback range. -/
namespace ModelWorkspace.Catalogue

theorem lookup_congr {α : Type} (table : List (Version × α)) {a b : Version}
    (same : a.sameAs b = true) : lookup table a = lookup table b := by
  simp only [lookup, Version.sameAs_congr same]

/-- What is found for a version is an entry of a version of the same precedence. -/
theorem mem_of_lookup {α : Type} {table : List (Version × α)} {v : Version} {x : α}
    (found : lookup table v = some x) : ∃ key, (key, x) ∈ table ∧ key.sameAs v = true := by
  obtain ⟨⟨key, y⟩, first, rfl⟩ := Option.map_eq_some_iff.1 found
  have same := List.find?_some first
  exact ⟨key, List.mem_of_find?_eq_some first, same⟩

theorem rangeFor_congr {a b : Version} (same : a.sameAs b = true) : rangeFor a = rangeFor b := by
  rw [rangeFor, lookup_congr ranges same, rangeFor]

/-- A model version that a platform version starts with can be read back from its text. -/
theorem normalize?_default {platform model : Version}
    (default : defaultModelVersion platform = some model) :
    Version.normalize? model.text = some model := by
  have all : ∀ entry ∈ defaults, Version.normalize? entry.2.text = some entry.2 := by
    decide
  obtain ⟨key, mem, -⟩ := mem_of_lookup default
  exact all (key, _) mem

/-- A platform version accepts the model version that it starts with. -/
theorem isCompatible_default {platform model : Version}
    (default : defaultModelVersion platform = some model) : isCompatible model platform = true := by
  have all : ∀ entry ∈ defaults, isCompatible entry.2 entry.1 = true := by decide
  obtain ⟨key, mem, same⟩ := mem_of_lookup default
  rw [isCompatible, ← rangeFor_congr same]
  exact all (key, _) mem

theorem isCompatible_congr {v w : Version} (same : v.sameAs w = true) (platform : Version) :
    isCompatible v platform = isCompatible w platform :=
  (rangeFor platform).accepts_congr same

/-- A pre-release of a platform is none of those in the catalogue. -/
theorem rangeFor_of_pre {platform : Version} (pre : platform.pre ≠ []) :
    rangeFor platform = fallbackRange := by
  have all : ∀ entry ∈ ranges, entry.1.pre = [] := by decide
  cases found : lookup ranges platform with
  | none => rw [rangeFor, found, Option.getD_none]
  | some range =>
    obtain ⟨key, mem, same⟩ := mem_of_lookup found
    have release := all (key, _) mem
    rw [(Version.sameAs_iff.1 same).2.2.2] at release
    exact absurd release pre

/-- Of the model versions that platform versions start with, the fallback range accepts the one of
the oldest platform only. -/
theorem accepts_fallbackRange_default {platform model : Version}
    (default : defaultModelVersion platform = some model) :
    fallbackRange.accepts model = platform.sameAs (release 3 0 0) := by
  have all : ∀ entry ∈ defaults,
      fallbackRange.accepts entry.2 = (release 3 0 0).sameAs entry.1 := by decide
  obtain ⟨key, mem, same⟩ := mem_of_lookup default
  rw [all (key, _) mem, Version.sameAs_congr same]
  exact Bool.eq_iff_iff.2 ⟨Version.sameAs_symm, Version.sameAs_symm⟩

end ModelWorkspace.Catalogue
