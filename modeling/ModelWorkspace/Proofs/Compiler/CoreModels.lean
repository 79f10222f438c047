import ModelWorkspace.Proofs.Compiler.Platform
import ModelWorkspace.Proofs.Project.Versions

/-! The core models of a message. A message counts the versions that core projects declare, and takes
those that differ in their builds only for one. So it has one core model for certain where all core
projects declare different versions, and there only. -/
namespace ModelWorkspace

namespace Message

open Project (isCore)

/-- The core projects of a workspace. -/
def cores (w : Workbench) : List Project := (found w).projects.filter isCore

/-- The versions that core projects declare, without their builds. -/
def coreVersions (w : Workbench) : List Version :=
  (cores w).filterMap fun p => (Version.ofText? p.version).map Version.withoutBuild

/-- Each core project declares one version. -/
theorem exists_declared (w : Workbench) : ∃ declared : List Version,
    (cores w).map (fun p => Version.ofText? p.version) = declared.map some ∧
      (found w).modelVersions = declared.foldl Project.addVersion [] ∧
      coreVersions w = declared.map Version.withoutBuild := by
  have each : ∀ p ∈ cores w, ∃ v, Version.ofText? p.version = some v ∧ p.modelVersion? = some v :=
    fun p mem => Project.declares_of_mem_find (List.mem_filter.1 mem).1
  suffices declares : ∃ declared : List Version,
      (cores w).map (fun p => Version.ofText? p.version) = declared.map some ∧
        (cores w).filterMap Project.modelVersion? = declared ∧
        coreVersions w = declared.map Version.withoutBuild by
    obtain ⟨declared, texts, read, versions⟩ := declares
    exact ⟨declared, texts, congrArg (List.foldl Project.addVersion []) read, versions⟩
  unfold coreVersions
  generalize cores w = projects at each ⊢
  induction projects with
  | nil => exact ⟨[], rfl, rfl, rfl⟩
  | cons p rest ih =>
    obtain ⟨v, text, read⟩ := each p List.mem_cons_self
    obtain ⟨declared, texts, reads, versions⟩ :=
      ih fun q mem => each q (List.mem_cons_of_mem _ mem)
    exact ⟨v :: declared, by simp [text, texts], by simp [read, reads], by simp [text, versions]⟩

section Counting

variable (w : Workbench)

theorem length_coreVersions : (coreVersions w).length = (cores w).length := by
  obtain ⟨declared, texts, -, versions⟩ := exists_declared w
  rw [versions, List.length_map, ← List.length_map some, ← texts, List.length_map]

theorem length_modelVersions :
    (found w).modelVersions.length = (coreVersions w).dedup.length := by
  obtain ⟨declared, -, counted, versions⟩ := exists_declared w
  rw [counted, versions, Project.length_addVersions]

/-- A message is refused for the number of its core models exactly where their versions are not one. -/
theorem ofWorkbench_eq_modelCount_iff (n : Nat) (root : Path) :
    ofWorkbench w = .error (.modelCount n root) ↔
      (found w).projects ≠ [] ∧ n = (coreVersions w).dedup.length ∧ n ≠ 1 ∧
        root = w.bundle.root := by
  rw [ofWorkbench, ← length_modelVersions]
  obtain ⟨none, refused⟩ | ⟨some, several, refused⟩ | ⟨v, -, one, rest⟩ :=
    ofFound_cases w.settings w.bundle (found w)
  · simp [none, refused]
  · rw [refused, Except.error.injEq, MessageError.modelCount.injEq]
    constructor
    · rintro ⟨rfl, rfl⟩
      exact ⟨some, rfl, several, rfl⟩
    · rintro ⟨-, rfl, -, rfl⟩
      exact ⟨rfl, rfl⟩
  · rw [one]
    refine iff_of_false (fun refused => ?_) fun counted => counted.2.2.1 counted.2.1
    obtain ⟨text, -, other⟩ | ⟨platform, -, ⟨-, other⟩ | ⟨-, m, made, -⟩⟩ := rest
    · cases other.symm.trans refused
    · cases other.symm.trans refused
    · cases made.symm.trans refused

variable {w}

/-- The first core project declares the model of a message, and the others the same but for builds. -/
theorem cores_of_ofWorkbench {m : Message} (made : ofWorkbench w = .ok m) :
    m.projects = (found w).projects ∧ (found w).modelVersions = [m.model] ∧
      ∃ core others, cores w = core :: others ∧ Version.ofText? core.version = some m.model ∧
        ∀ p ∈ others, ∃ v, Version.ofText? p.version = some v ∧ v.sameAs m.model = true := by
  obtain ⟨projects, one⟩ : m.projects = (found w).projects ∧ (found w).modelVersions = [m.model] := by
    obtain ⟨-, refused⟩ | ⟨-, -, refused⟩ | ⟨v, -, one, rest⟩ :=
      ofFound_cases w.settings w.bundle (found w)
    · cases refused.symm.trans made
    · cases refused.symm.trans made
    · obtain ⟨text, -, other⟩ | ⟨platform, -, ⟨-, other⟩ | ⟨-, m', made', projects, -, model⟩⟩ := rest
      · cases other.symm.trans made
      · cases other.symm.trans made
      · obtain rfl := Except.ok.inj (made'.symm.trans made)
        exact ⟨projects, model ▸ one⟩
  refine ⟨projects, one, ?_⟩
  obtain ⟨declared, texts, counted, -⟩ := exists_declared w
  have firsts : Project.KeepsFirsts [m.model] declared := by
    rw [← one, counted]
    exact Project.keepsFirsts_addVersions declared
  have alike : ∀ v ∈ declared, v.sameAs m.model = true := by
    intro v there
    obtain ⟨u, mem, same⟩ := firsts.complete v there
    obtain rfl := List.mem_singleton.1 mem
    exact Version.sameAs_symm (beq_iff_eq.2 same)
  have kept := firsts.first m.model (List.mem_singleton.2 rfl)
  cases declared with
  | nil => cases kept
  | cons v rest =>
    obtain rfl : v = m.model := by simpa [alike v List.mem_cons_self] using kept
    obtain ⟨core, others, cores, text, texts⟩ := List.map_eq_cons_iff.1 texts
    refine ⟨core, others, cores, text, fun p mem => ?_⟩
    have declares : Version.ofText? p.version ∈ rest.map some := by
      rw [← texts]
      exact List.mem_map_of_mem mem
    obtain ⟨u, there, same⟩ := List.mem_map.1 declares
    exact ⟨u, same.symm, alike u (List.mem_cons_of_mem _ there)⟩

end Counting

/-- The core projects of a workspace declare so many different versions as a message counts, whatever
their builds are, and if it is one there is no other count; a message takes the version of the
first core project for the model, and the others declare the same but for their builds. So the
message counts projects, and has one core model for certain, exactly where no two core projects
declare versions of the same precedence. -/
theorem core_models_of_message (w : Workbench) :
    (create w).2 = ofWorkbench w ∧
    (coreVersions w).length = (cores w).length ∧
    (∀ n root, ofWorkbench w = .error (.modelCount n root) ↔
      (found w).projects ≠ [] ∧ n = (coreVersions w).dedup.length ∧ n ≠ 1 ∧
        root = w.bundle.root) ∧
    (∀ m, ofWorkbench w = .ok m → m.projects = (found w).projects ∧
      ∃ core others, cores w = core :: others ∧ Version.ofText? core.version = some m.model ∧
        ∀ p ∈ others, ∃ v, Version.ofText? p.version = some v ∧ v.sameAs m.model = true) ∧
    ((coreVersions w).Nodup ↔
      (∀ m, ofWorkbench w = .ok m → ∃ core, m.projects.filter isCore = [core] ∧
        Version.ofText? core.version = some m.model) ∧
      ((found w).projects ≠ [] → (cores w).length ≠ 1 →
        ofWorkbench w = .error (.modelCount (cores w).length w.bundle.root))) := by
  have length := length_coreVersions w
  have refused := ofWorkbench_eq_modelCount_iff w
  refine ⟨snd_create w, length, refused, fun m made => ?_, fun nodup => ⟨fun m made => ?_, ?_⟩, ?_⟩
  · obtain ⟨projects, -, declares⟩ := cores_of_ofWorkbench made
    exact ⟨projects, declares⟩
  · obtain ⟨projects, one, core, others, list, declares, -⟩ := cores_of_ofWorkbench made
    have single : (core :: others).length = 1 := by
      rw [← list, ← length, ← nodup.dedup, ← length_modelVersions, one, List.length_singleton]
    obtain rfl : others = [] := by simpa using single
    exact ⟨core, by rw [projects, ← list, cores], declares⟩
  · intro some several
    rw [refused, nodup.dedup, length]
    exact ⟨some, rfl, several, rfl⟩
  · rintro ⟨-, counts⟩
    by_contra repeated
    have two : (cores w).length ≠ 1 := by
      intro one
      obtain ⟨v, single⟩ := List.length_eq_one_iff.1 (length.trans one)
      exact repeated (single ▸ List.nodup_singleton v)
    have some : (found w).projects ≠ [] := by
      intro none
      have empty : coreVersions w = [] := by simp [coreVersions, cores, none]
      exact repeated (empty ▸ List.nodup_nil)
    have counted := ((refused _ _).1 (counts some two)).2.1
    have same := (List.dedup_sublist (coreVersions w)).eq_of_length (counted.symm.trans length.symm)
    exact repeated (List.dedup_eq_self.1 same)

/-- A workspace with two core projects. -/
def twoCores (first second : String) : Workbench where
  files := {
    entries := [
      (["p"], FileTree.newFolder), (["p", "package.json"], Project.packageEntry "Ed-Fi" first),
      (["q"], FileTree.newFolder), (["q", "package.json"], Project.packageEntry "Ed-Fi" second)] }
  folders := ⟨some [⟨"p", ⟨"/p"⟩, false⟩, ⟨"q", ⟨"/q"⟩, false⟩]⟩
  bundle := ⟨⟨"/b"⟩⟩

/-- Two core projects of different versions are two. -/
theorem core_models_of_message_two :
    (coreVersions (twoCores "3.1.0" "4.0.0")).Nodup ∧
      (create (twoCores "3.1.0" "4.0.0")).2 = .error (.modelCount 2 ⟨"/b"⟩) := by
  have nodup : (coreVersions (twoCores "3.1.0" "4.0.0")).Nodup := by decide +kernel
  have some : (found (twoCores "3.1.0" "4.0.0")).projects ≠ [] := by decide +kernel
  have two : (cores (twoCores "3.1.0" "4.0.0")).length = 2 := by decide +kernel
  obtain ⟨shown, -, -, -, counts⟩ := core_models_of_message (twoCores "3.1.0" "4.0.0")
  have refused := (counts.1 nodup).2 some (by rw [two]; decide)
  rw [two] at refused
  exact ⟨nodup, shown.trans refused⟩

/-- Two core projects of one version pass for one core model. -/
theorem two_cores_of_one_version :
    ¬ ∀ w : Workbench,
      (∀ m, (create w).2 = .ok m → ∃ core, m.projects.filter isCore = [core] ∧
        Version.ofText? core.version = some m.model) ∧
      ((found w).projects ≠ [] → (cores w).length ≠ 1 →
        (create w).2 = .error (.modelCount (cores w).length w.bundle.root)) := by
  intro always
  have made : ((create (twoCores "4.0.0" "4.0.0")).2.toOption.any fun m =>
      (m.projects.filter isCore).length == 2) = true := by decide +kernel
  obtain ⟨m, made, two⟩ := (Option.any_eq_true _ _).1 made
  cases result : (create (twoCores "4.0.0" "4.0.0")).2 with
  | error e => simp [result, Except.toOption] at made
  | ok m' =>
    obtain rfl : m' = m := by simpa [result, Except.toOption] using made
    obtain ⟨core, single, -⟩ := (always _).1 m' result
    simp [single] at two

end Message

end ModelWorkspace
