import ModelWorkspace.Proofs.Catalogue.Advice
import ModelWorkspace.Proofs.Compiler.CoreModels
import ModelWorkspace.Proofs.Files.Paths

/-! The advice in a refusal. A message that is refused because model and platform do not fit names a
bundled folder. With that folder in the place of the core projects the core model fits the platform. -/
namespace ModelWorkspace

/-- A bundled folder is known by its name. -/
theorem Bundle.folder_injective (b : Bundle) {name other : String} (step : Path.isStep name = true)
    (step' : Path.isStep other = true) (same : b.folder name = b.folder other) : name = other := by
  have last := congrArg Path.fileName? same
  rw [folder, folder, Path.fileName?_join _ step, Path.fileName?_join _ step'] at last
  exact Option.some.inj last

namespace Project

/-- Whether there is a core project in a folder. -/
def holdsCore (files : FileTree) (folder : Path) : Bool :=
  (ofFolder files folder).toOption.any isCore

theorem holdsCore_iff {files : FileTree} {folder : Path} :
    holdsCore files folder = true ↔ ∃ p, ofFolder files folder = .ok p ∧ p.isCore = true := by
  unfold holdsCore
  cases ofFolder files folder <;> simp [Except.toOption]

/-- A version is counted, up to its build, if a core project declares it. -/
theorem mem_map_modelVersions {found : Found} {k : Version} :
    k ∈ found.modelVersions.map Version.withoutBuild ↔
      ∃ p ∈ found.projects, p.isCore = true ∧ ∃ v, p.modelVersion? = some v ∧ v.withoutBuild = k := by
  rw [Found.modelVersions, mem_map_addVersions]
  simp only [List.mem_map, List.mem_filterMap, List.mem_filter]
  constructor
  · rintro ⟨v, ⟨p, ⟨mem, core⟩, declares⟩, same⟩
    exact ⟨p, mem, core, v, declares, same⟩
  · rintro ⟨p, mem, core, v, declares, same⟩
    exact ⟨v, ⟨p, ⟨mem, core⟩, declares⟩, same⟩

/-- If all that is declared is one version, up to builds, one version is counted. -/
theorem modelVersions_of_all {found : Found} {v : Version} {p : Project} (mem : p ∈ found.projects)
    (core : p.isCore = true) (declares : p.modelVersion? = some v)
    (all : ∀ q ∈ found.projects, q.isCore = true → q.modelVersion? = some v) :
    ∃ u, found.modelVersions = [u] ∧ u.sameAs v = true := by
  have once : (found.modelVersions.map Version.withoutBuild).Nodup := nodup_map_addVersions _
  have there : v.withoutBuild ∈ found.modelVersions.map Version.withoutBuild :=
    mem_map_modelVersions.2 ⟨p, mem, core, v, declares, rfl⟩
  have only : ∀ k ∈ found.modelVersions.map Version.withoutBuild, k = v.withoutBuild := by
    intro k counted
    obtain ⟨q, mem, core, u, declares, rfl⟩ := mem_map_modelVersions.1 counted
    rw [all q mem core] at declares
    rw [Option.some.inj declares]
  have single : found.modelVersions.map Version.withoutBuild = [v.withoutBuild] := by
    rw [List.eq_replicate_of_mem only] at once ⊢
    have few := List.nodup_replicate.1 once
    have some := List.length_pos_of_mem there
    rw [show (found.modelVersions.map Version.withoutBuild).length = 1 by omega]
    rfl
  obtain ⟨u, one, same⟩ := List.map_eq_singleton_iff.1 single
  exact ⟨u, one, Version.withoutBuild_eq_iff.1 same⟩

end Project

namespace Message

open Project (holdsCore holdsCore_iff)

/-- The advised folder has taken the place of each folder with a core project, under the same settings.
Unless the project in it is a core project, there is no core project anywhere else either. -/
structure FollowsAdvice (w w' : Workbench) (advised : Path) (p : Project) : Prop where
  settings : w'.settings = w.settings
  folders : w'.folders.paths = w.folders.paths.map fun folder =>
    if holdsCore w.files folder then advised else folder
  project : Project.ofFolder w'.files advised = .ok p
  others : p.isCore = true ∨ ∀ folder ∈ w.folders.paths,
    holdsCore w.files folder = false → holdsCore w'.files folder = false

theorem incompatible_cases {w : Workbench} {platform : Version} {advised : Path}
    (refused : (create w).2 = .error (.incompatible platform advised)) :
    ∃ model, (found w).modelVersions = [model] ∧
      configuredPlatform w.settings = .ok platform ∧
      Catalogue.isCompatible model platform = false ∧ advised =
        w.bundle.folder (Catalogue.recommendedFolder (Catalogue.rangeFor platform)) := by
  rw [snd_create, ofWorkbench] at refused
  obtain ⟨-, other⟩ | ⟨-, -, other⟩ | ⟨model, -, one, outcome⟩ :=
    ofFound_cases w.settings w.bundle (found w)
  · cases other.symm.trans refused
  · cases other.symm.trans refused
  · obtain ⟨text, -, other⟩ | ⟨platform', configured, ⟨unfit, same⟩ | ⟨-, m, made, -⟩⟩ := outcome
    · cases other.symm.trans refused
    · cases same.symm.trans refused
      exact ⟨model, one, configured, unfit, rfl⟩
    · cases made.symm.trans refused

theorem exists_core {w : Workbench} {model : Version} (one : (found w).modelVersions = [model]) :
    ∃ p ∈ (found w).projects, p.isCore = true ∧ ∃ v, p.modelVersion? = some v ∧
      v.sameAs model = true := by
  have counted : model.withoutBuild ∈ (found w).modelVersions.map Version.withoutBuild := by
    simp [one]
  obtain ⟨p, mem, core, v, declares, same⟩ := Project.mem_map_modelVersions.1 counted
  exact ⟨p, mem, core, v, declares, Version.withoutBuild_eq_iff.1 same⟩

section Following

variable {w w' : Workbench} {advised : Path} {p : Project}

/-- The advised project is found where there was a core project. -/
theorem FollowsAdvice.mem (follows : FollowsAdvice w w' advised p) {model : Version}
    (one : (found w).modelVersions = [model]) : p ∈ (found w').projects := by
  obtain ⟨q, mem, core, -⟩ := exists_core one
  obtain ⟨folder, there, read⟩ := Project.mem_find.1 mem
  refine Project.mem_find.2 ⟨advised, ?_, follows.project⟩
  rw [follows.folders, List.mem_map]
  exact ⟨folder, there, by rw [if_pos (holdsCore_iff.2 ⟨q, read, core⟩)]⟩

/-- A core project that is found is the advised one, or in a folder that held none before. -/
theorem FollowsAdvice.core_cases (follows : FollowsAdvice w w' advised p) {q : Project}
    (mem : q ∈ (found w').projects) (core : q.isCore = true) :
    q = p ∨ ∃ folder ∈ w.folders.paths, holdsCore w.files folder = false ∧
      holdsCore w'.files folder = true ∧ Project.ofFolder w'.files folder = .ok q := by
  obtain ⟨folder', there, read⟩ := Project.mem_find.1 mem
  rw [follows.folders, List.mem_map] at there
  obtain ⟨folder, there, same⟩ := there
  split at same
  · subst same
    exact .inl (Except.ok.inj (read.symm.trans follows.project))
  · rename_i other
    subst same
    exact .inr ⟨folder, there, by simpa using other, holdsCore_iff.2 ⟨q, read, core⟩, read⟩

/-- After the advice was followed, the core model is the one that was advised. -/
theorem FollowsAdvice.sameAs (follows : FollowsAdvice w w' advised p) {model model' declared : Version}
    (one : (found w).modelVersions = [model]) (one' : (found w').modelVersions = [model'])
    (declares : p.modelVersion? = some declared) : model'.sameAs declared = true := by
  have core : p.isCore = true := by
    obtain core | none := follows.others
    · exact core
    · obtain ⟨q, mem, core, -⟩ := exists_core one'
      obtain rfl | ⟨folder, there, without, holds, -⟩ := follows.core_cases mem core
      · exact core
      · rw [none folder there without] at holds
        cases holds
  have counted := Project.mem_map_modelVersions.2
    ⟨p, follows.mem one, core, declared, declares, rfl⟩
  rw [one', List.map_singleton, List.mem_singleton] at counted
  exact Version.withoutBuild_eq_iff.1 counted.symm

/-- Without another core project there is a message. -/
theorem FollowsAdvice.exists_message (follows : FollowsAdvice w w' advised p)
    {model declared platform : Version} (one : (found w).modelVersions = [model])
    (declares : p.modelVersion? = some declared) (core : p.isCore = true)
    (configured : configuredPlatform w.settings = .ok platform)
    (fits : Catalogue.isCompatible declared platform = true)
    (alone : ∀ folder ∈ w.folders.paths, holdsCore w.files folder = false →
      folder = advised ∨ holdsCore w'.files folder = false) :
    ∃ m, (create w').2 = .ok m ∧ m.platform = platform ∧ m.model.sameAs declared = true := by
  have mem := follows.mem one
  have all : ∀ q ∈ (found w').projects, q.isCore = true → q.modelVersion? = some declared := by
    intro q there core
    obtain rfl | ⟨folder, there, without, holds, read⟩ := follows.core_cases there core
    · exact declares
    · obtain rfl | none := alone folder there without
      · obtain rfl : q = p := Except.ok.inj (read.symm.trans follows.project)
        exact declares
      · rw [none] at holds
        cases holds
  obtain ⟨u, only, same⟩ := Project.modelVersions_of_all mem core declares all
  rw [snd_create, ofWorkbench]
  obtain ⟨none, -⟩ | ⟨-, several, -⟩ | ⟨v, -, one', outcome⟩ :=
    ofFound_cases w'.settings w'.bundle (found w')
  · simp [none] at mem
  · simp [only] at several
  · obtain rfl : u = v := by simpa [only] using one'
    rw [follows.settings, configured] at outcome
    obtain ⟨text, unread, -⟩ | ⟨platform', read, outcome⟩ := outcome
    · cases unread
    · obtain rfl := Except.ok.inj read
      rw [Catalogue.isCompatible_congr same, fits] at outcome
      obtain ⟨unfit, -⟩ | ⟨-, m, made, -, platform, model⟩ := outcome
      · cases unfit
      · exact ⟨m, by rw [follows.settings, made], platform, by rw [model]; exact same⟩

end Following

/-- The advice is sound. What is recommended for a range is the folder of the newest bundled model
version in it, or the baseline if there is none; in the range of a platform there always is one, and
it fits the platform. So a refusal that names a folder names one for which a model version is listed.
With a project of that version there, in the place of each core project, model and platform are no
reason for a refusal any more, and if it is the only core project there is a message. -/
theorem advice_is_sound :
    (∀ range : Range,
      (∃ v, (v, Catalogue.recommendedFolder range) ∈ Catalogue.modelFolders ∧ v ∈ range ∧
        ∀ entry ∈ Catalogue.modelFolders, entry.1 ∈ range → v.atLeast entry.1 = true) ∨
      ((∀ entry ∈ Catalogue.modelFolders, entry.1 ∉ range) ∧
        Catalogue.recommendedFolder range = Catalogue.baselineFolder)) ∧
    (∀ platform : Version, ∃ model, (model,
        Catalogue.recommendedFolder (Catalogue.rangeFor platform)) ∈ Catalogue.modelFolders ∧
      model ∈ Catalogue.rangeFor platform ∧ Catalogue.isCompatible model platform = true ∧
      Catalogue.modelFolderFor model =
        Catalogue.recommendedFolder (Catalogue.rangeFor platform)) ∧
    ∀ (w : Workbench) (platform : Version) (advised : Path),
      (create w).2 = .error (.incompatible platform advised) →
      (∃ v name, (v, name) ∈ Catalogue.modelFolders ∧ advised = w.bundle.folder name) ∧
      ∀ v name, (v, name) ∈ Catalogue.modelFolders → advised = w.bundle.folder name →
        ∀ w' p declared, FollowsAdvice w w' advised p → p.modelVersion? = some declared →
          declared.sameAs v = true →
          (∀ q folder, (create w').2 ≠ .error (.incompatible q folder)) ∧
          (p.isCore = true → (∀ folder ∈ w.folders.paths, holdsCore w.files folder = false →
              folder = advised ∨ holdsCore w'.files folder = false) →
            ∃ m, (create w').2 = .ok m ∧ m.platform = platform ∧ m.model.sameAs v = true) := by
  refine ⟨Catalogue.recommendedFolder_cases, Catalogue.exists_recommended, ?_⟩
  intro w platform advised refused
  obtain ⟨model, one, configured, -, rfl⟩ := incompatible_cases refused
  obtain ⟨best, shipped, -, fits, -⟩ := Catalogue.exists_recommended platform
  refine ⟨⟨best, _, shipped, rfl⟩, ?_⟩
  intro v name listed named w' p declared follows declares same
  obtain rfl := w.bundle.folder_injective (Catalogue.isStep_modelFolder _ shipped)
    (Catalogue.isStep_modelFolder _ listed) named
  obtain rfl := Catalogue.eq_of_mem_modelFolders shipped listed
  have fits : Catalogue.isCompatible declared platform = true := by
    rwa [Catalogue.isCompatible_congr same]
  constructor
  · intro q folder refused'
    obtain ⟨model', one', configured', unfit, -⟩ := incompatible_cases refused'
    rw [follows.settings, configured] at configured'
    obtain rfl := Except.ok.inj configured'
    rw [Catalogue.isCompatible_congr (follows.sameAs one one' declares), fits] at unfit
    cases unfit
  · intro core alone
    obtain ⟨m, made, platform, model⟩ :=
      follows.exists_message one declares core configured fits alone
    refine ⟨m, made, platform, ?_⟩
    rw [Version.sameAs, (Version.precedence_congr model best).1]
    exact same

/-- A workspace that has taken the bundled folder of model 3.1 for its core model. -/
def advisedCore (platform : String) : Workbench where
  files := {
    entries := [(["b"], FileTree.newFolder), (["b", "ed-fi-model-3.1"], FileTree.newFolder),
      (["b", "ed-fi-model-3.1", "package.json"], Project.packageEntry "Ed-Fi" "3.1.0")] }
  settings := { values := [(.platformVersion, .string platform)] }
  folders := ⟨some [⟨"p", ⟨"/b/ed-fi-model-3.1"⟩, true⟩]⟩
  bundle := ⟨⟨"/b"⟩⟩

/-- A core model that does not fit makes room for the one that is advised. -/
theorem advice_is_sound_followed :
    (create (oneCore "3.1.1" "4.0.0")).2 =
        .error (.incompatible (Catalogue.release 3 1 1) ⟨"/b/ed-fi-model-3.1"⟩) ∧
      ∃ m, (create (advisedCore "3.1.1")).2 = .ok m ∧ m.platform = Catalogue.release 3 1 1 ∧
        m.model.sameAs (Catalogue.release 3 1 0) = true := by
  have refused : (create (oneCore "3.1.1" "4.0.0")).2 =
      .error (.incompatible (Catalogue.release 3 1 1) ⟨"/b/ed-fi-model-3.1"⟩) := by decide +kernel
  have listed : (Catalogue.release 3 1 0, "ed-fi-model-3.1") ∈ Catalogue.modelFolders := by
    decide +kernel
  have follows : FollowsAdvice (oneCore "3.1.1" "4.0.0") (advisedCore "3.1.1")
      ⟨"/b/ed-fi-model-3.1"⟩ { coreProject "3.1.0" with path := ⟨"/b/ed-fi-model-3.1"⟩ } := {
    settings := rfl
    folders := by decide +kernel
    project := by decide +kernel
    others := .inl rfl }
  have declares : Version.normalize? "3.1.0" = some (Catalogue.release 3 1 0) := by decide +kernel
  have core : holdsCore (oneCore "3.1.1" "4.0.0").files ⟨"/p"⟩ = true := by decide +kernel
  refine ⟨refused, ?_⟩
  have sound := (advice_is_sound.2.2 _ _ _ refused).2 _ _ listed (by decide +kernel) _ _ _ follows
    declares (Version.sameAs_self _)
  refine sound.2 rfl ?_
  intro folder mem without
  obtain rfl := List.mem_singleton.1 (show folder ∈ [⟨"/p"⟩] from mem)
  rw [core] at without
  cases without

end Message

end ModelWorkspace
