import Mathlib.Data.List.Dedup
import ModelWorkspace.Project.Discovery
import ModelWorkspace.Proofs.Project.Reading
import ModelWorkspace.Proofs.Version.Precedence

/-! The versions that projects declare. Each project that was found declares one, and of versions with
the same precedence the first one is kept. -/
namespace ModelWorkspace

/-- The version as far as precedence looks at it. -/
def Version.withoutBuild (v : Version) : Version := { v with build := [] }

theorem Version.withoutBuild_eq_iff {a b : Version} :
    a.withoutBuild = b.withoutBuild ↔ a.sameAs b = true := by
  rw [sameAs_iff]
  simp [withoutBuild]

namespace Project

/-! ### What projects declare -/

theorem mem_find {files : FileTree} {folders : List Path} {p : Project} :
    p ∈ (find files folders).projects ↔ ∃ folder ∈ folders, ofFolder files folder = .ok p := by
  have ok (read : Except Reason Project) : read.toOption = some p ↔ read = .ok p := by
    cases read <;> simp [Except.toOption]
  simp [find, readAll, List.mem_filterMap, ok]

/-- A project that was found declares a version, and both readers read it. -/
theorem declares_of_mem_find {files : FileTree} {folders : List Path} {p : Project}
    (mem : p ∈ (find files folders).projects) :
    ∃ v, Version.ofText? p.version = some v ∧ p.modelVersion? = some v := by
  obtain ⟨folder, -, made⟩ := mem_find.1 mem
  obtain ⟨-, d, v, -, read⟩ := ofFolder_eq_ok_iff.1 made
  exact ⟨v, read.strict, read.lenient⟩

/-! ### Versions of different precedence -/

/-- Of a list of versions the first one of each precedence is kept, in the order of the list. -/
structure KeepsFirsts (kept versions : List Version) : Prop where
  inOrder : kept.Sublist versions
  distinct : kept.Pairwise fun a b => a.precedence b ≠ .eq
  complete : ∀ v ∈ versions, ∃ u ∈ kept, u.precedence v = .eq
  first : ∀ u ∈ kept, versions.find? (·.sameAs u) = some u

/-- One more version is kept exactly if none of its precedence was there before. -/
theorem KeepsFirsts.addVersion {kept versions : List Version} (firsts : KeepsFirsts kept versions)
    (v : Version) : KeepsFirsts (addVersion kept v) (versions ++ [v]) := by
  have earlier : ∀ u ∈ kept, (versions ++ [v]).find? (·.sameAs u) = some u := by
    intro u mem
    rw [List.find?_append, firsts.first u mem, Option.some_or]
  unfold Project.addVersion
  split
  · rename_i known
    obtain ⟨u, mem, same⟩ := List.any_eq_true.1 known
    refine ⟨firsts.inOrder.trans (List.sublist_append_left ..), firsts.distinct, ?_, earlier⟩
    intro w there
    obtain there | rfl := by simpa using there
    · exact firsts.complete w there
    · exact ⟨u, mem, beq_iff_eq.1 same⟩
  · rename_i unknown
    have apart : ∀ u ∈ kept, ¬ u.sameAs v = true := by simpa using unknown
    refine ⟨firsts.inOrder.append (List.Sublist.refl _), ?_, ?_, ?_⟩
    · rw [List.pairwise_append]
      refine ⟨firsts.distinct, List.pairwise_singleton .., fun u mem w there => ?_⟩
      obtain rfl := List.mem_singleton.1 there
      exact fun same => apart u mem (beq_iff_eq.2 same)
    · intro w there
      obtain there | rfl := by simpa using there
      · obtain ⟨u, mem, same⟩ := firsts.complete w there
        exact ⟨u, List.mem_append_left _ mem, same⟩
      · exact ⟨w, by simp, beq_iff_eq.1 w.sameAs_self⟩
    · intro u mem
      obtain mem | rfl := by simpa using mem
      · exact earlier u mem
      · -- An earlier version of this precedence would be represented among those that are kept.
        have new : versions.find? (·.sameAs u) = none := by
          rw [List.find?_eq_none]
          intro w there same
          obtain ⟨k, mem, alike⟩ := firsts.complete w there
          apply apart k mem
          rw [← Version.sameAs_congr same]
          exact beq_iff_eq.2 alike
        simp [List.find?_append, new, u.sameAs_self]

theorem keepsFirsts_addVersions (versions : List Version) :
    KeepsFirsts (versions.foldl addVersion []) versions := by
  induction versions using List.reverseRecOn with
  | nil => exact ⟨.slnil, .nil, nofun, nofun⟩
  | append_singleton versions v ih =>
    rw [List.foldl_append]
    exact ih.addVersion v

theorem nodup_map_addVersions (versions : List Version) :
    ((versions.foldl addVersion []).map Version.withoutBuild).Nodup := by
  refine List.pairwise_map.2 ((keepsFirsts_addVersions versions).distinct.imp fun other same => ?_)
  exact other (beq_iff_eq.1 (Version.withoutBuild_eq_iff.1 same))

theorem mem_map_addVersions (versions : List Version) (k : Version) :
    k ∈ (versions.foldl addVersion []).map Version.withoutBuild ↔
      k ∈ versions.map Version.withoutBuild := by
  have firsts := keepsFirsts_addVersions versions
  constructor
  · exact fun mem => List.map_subset _ firsts.inOrder.subset mem
  · intro mem
    obtain ⟨v, there, rfl⟩ := List.mem_map.1 mem
    obtain ⟨u, kept, same⟩ := firsts.complete v there
    exact List.mem_map.2 ⟨u, kept, Version.withoutBuild_eq_iff.2 (beq_iff_eq.2 same)⟩

/-- So many versions are kept as there are without their builds. -/
theorem length_addVersions (versions : List Version) :
    (versions.foldl addVersion []).length = (versions.map Version.withoutBuild).dedup.length := by
  have same (k : Version) : k ∈ (versions.foldl addVersion []).map Version.withoutBuild ↔
      k ∈ (versions.map Version.withoutBuild).dedup := by
    rw [mem_map_addVersions, List.mem_dedup]
  have perm := (List.perm_ext_iff_of_nodup (nodup_map_addVersions versions)
    (List.nodup_dedup _)).2 same
  rw [← List.length_map Version.withoutBuild]
  exact perm.length_eq

end Project

end ModelWorkspace
