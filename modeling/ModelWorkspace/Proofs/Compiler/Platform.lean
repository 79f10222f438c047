import ModelWorkspace.Compiler.Message
import ModelWorkspace.Proofs.Catalogue.Defaults
import ModelWorkspace.Proofs.Project.Declaring

/-! The platform version in a message. The cascade reads the configured platform version without its
pre-release, and a message has it as it is written. So what the cascade selects for a platform is
accepted by the message about the workspace, unless a pre-release of the platform is configured. -/
namespace ModelWorkspace

/-- A platform that the cascade can read is also read for a message, with its pre-release and its
build. -/
theorem Setting.Store.exists_of_platform? {s : Setting.Store} {platform : Version}
    (configured : s.platform? = some platform) :
    ∃ written, Version.normalize? s.platformVersion = some written ∧ written.release = platform ∧
      Message.configuredPlatform s = .ok written := by
  obtain ⟨written, read, release⟩ := Option.map_eq_some_iff.1 configured
  have given : s.platformVersion.isEmpty = false := by
    rw [Bool.eq_false_iff]
    intro empty
    rw [String.isEmpty_iff.1 empty] at read
    cases read
  refine ⟨written, read, release, ?_⟩
  simp only [Message.configuredPlatform, given, Bool.false_eq_true, if_false, read]

theorem Catalogue.rangeFor_release {v : Version} (release : v.pre = []) :
    rangeFor v.release = rangeFor v :=
  rangeFor_congr (Version.sameAs_iff.2 ⟨rfl, rfl, rfl, release.symm⟩)

/-- The range of a platform accepts the model version which the release of the platform starts with,
exactly if the platform is no pre-release, or one of the oldest release. -/
theorem Catalogue.isCompatible_default_iff {written model : Version}
    (default : defaultModelVersion written.release = some model) :
    isCompatible model written = true ↔
      written.pre = [] ∨ written.release.sameAs (release 3 0 0) = true := by
  by_cases pre : written.pre = []
  · rw [isCompatible, ← rangeFor_release pre]
    exact iff_of_true (isCompatible_default default) (.inl pre)
  · rw [isCompatible, rangeFor_of_pre pre, accepts_fallbackRange_default default, or_iff_right pre]

namespace Message

section Outcome

variable (settings : Setting.Store) (bundle : Bundle) (found : Project.Found)

theorem coreVersion_cases :
    (∃ v, found.modelVersions = [v] ∧ coreVersion bundle found = .ok v) ∨
      (found.modelVersions.length ≠ 1 ∧ coreVersion bundle found =
        .error (.modelCount found.modelVersions.length bundle.root)) := by
  unfold coreVersion
  split
  · rename_i v one
    exact .inl ⟨v, one, rfl⟩
  · rename_i several
    refine .inr ⟨fun one => ?_, rfl⟩
    obtain ⟨v, one⟩ := List.length_eq_one_iff.1 one
    exact several v one

theorem configuredPlatform_cases :
    (∃ text, configuredPlatform settings = .error (.invalidPlatform text)) ∨
      ∃ platform, configuredPlatform settings = .ok platform := by
  unfold configuredPlatform
  dsimp only
  split
  · exact .inr ⟨_, rfl⟩
  · exact .inl ⟨_, rfl⟩

/-- What comes of a message. The versions of the core projects are looked at before the platform, and
the platform before whether they fit. -/
theorem ofFound_cases :
    (found.projects = [] ∧ ofFound settings bundle found = .error (.noProjects bundle.root)) ∨
    (found.projects ≠ [] ∧ found.modelVersions.length ≠ 1 ∧ ofFound settings bundle found =
      .error (.modelCount found.modelVersions.length bundle.root)) ∨
    ∃ v, found.projects ≠ [] ∧ found.modelVersions = [v] ∧
      ((∃ text, configuredPlatform settings = .error (.invalidPlatform text) ∧
          ofFound settings bundle found = .error (.invalidPlatform text)) ∨
        ∃ platform, configuredPlatform settings = .ok platform ∧
          ((Catalogue.isCompatible v platform = false ∧ ofFound settings bundle found =
              .error (.incompatible platform
                (bundle.folder (Catalogue.recommendedFolder (Catalogue.rangeFor platform))))) ∨
            (Catalogue.isCompatible v platform = true ∧ ∃ m,
              ofFound settings bundle found = .ok m ∧ m.projects = found.projects ∧
                m.platform = platform ∧ m.model = v))) := by
  unfold ofFound
  cases projects : found.projects with
  | nil => exact .inl ⟨rfl, rfl⟩
  | cons first others =>
    simp only [List.isEmpty_cons, Bool.false_eq_true, if_false]
    obtain ⟨v, one, model⟩ | ⟨several, model⟩ := coreVersion_cases bundle found
    · refine .inr (.inr ⟨v, nofun, one, ?_⟩)
      rw [model]
      obtain ⟨text, unread⟩ | ⟨platform, configured⟩ := configuredPlatform_cases settings
      · exact .inl ⟨text, unread, by simp only [unread, bind, Except.bind]⟩
      · refine .inr ⟨platform, configured, ?_⟩
        simp only [configured, bind, Except.bind]
        cases fits : Catalogue.isCompatible v platform with
        | true => exact .inr ⟨rfl, _, rfl, rfl, rfl, rfl⟩
        | false => exact .inl ⟨rfl, rfl⟩
    · refine .inr (.inl ⟨nofun, several, ?_⟩)
      rw [model]
      rfl

end Outcome

theorem modelVersions_of_core {found : Project.Found} {core : Project} {declared : Version}
    (only : found.projects.filter Project.isCore = [core])
    (declares : core.modelVersion? = some declared) : found.modelVersions = [declared] := by
  simp [Project.Found.modelVersions, only, declares, Project.addVersion]

theorem ofFound_of_core {settings : Setting.Store} {found : Project.Found} {core : Project}
    {declared written : Version} (only : found.projects.filter Project.isCore = [core])
    (declares : core.modelVersion? = some declared)
    (configured : configuredPlatform settings = .ok written) (bundle : Bundle) :
    (Catalogue.isCompatible declared written = true →
        ∃ m, ofFound settings bundle found = .ok m ∧ m.projects = found.projects ∧
          m.platform = written ∧ m.model = declared) ∧
      (Catalogue.isCompatible declared written = false →
        ofFound settings bundle found = .error (.incompatible written
          (bundle.folder (Catalogue.recommendedFolder (Catalogue.rangeFor written))))) := by
  have one := modelVersions_of_core only declares
  obtain ⟨none, -⟩ | ⟨-, several, -⟩ | ⟨v, -, same, outcome⟩ := ofFound_cases settings bundle found
  · simp [none] at only
  · simp [one] at several
  · obtain rfl : declared = v := by simpa [one] using same
    obtain ⟨text, unread, -⟩ | ⟨platform, read, outcome⟩ := outcome
    · cases configured.symm.trans unread
    · obtain rfl := Except.ok.inj (configured.symm.trans read)
      obtain ⟨unfit, refused⟩ | ⟨fit, made⟩ := outcome
      · exact ⟨fun fits => absurd (fits.symm.trans unfit) (by decide), fun _ => refused⟩
      · exact ⟨fun _ => made, fun fits => absurd (fits.symm.trans fit) (by decide)⟩

theorem snd_create (w : Workbench) : (create w).2 = ofWorkbench w := by
  unfold create
  split <;> simp_all

/-- The one core model of a workspace is the model version that the configured platform starts with,
however the platform is written. Then there is a message about the workspace if what is written is no
pre-release, or one of the oldest platform. If it is another pre-release, the message is refused,
because the model does not fit the platform. That the platform cannot be read is never the reason. -/
theorem accepts_default_model {w : Workbench} {platform model declared : Version} {core : Project}
    (configured : w.settings.platform? = some platform)
    (default : Catalogue.defaultModelVersion platform = some model)
    (only : (found w).projects.filter Project.isCore = [core])
    (declares : core.modelVersion? = some declared) (same : declared.sameAs model = true) :
    ∃ written, Version.normalize? w.settings.platformVersion = some written ∧
      written.release = platform ∧
      (written.pre = [] ∨ platform.sameAs (Catalogue.release 3 0 0) = true →
        ∃ m, ofWorkbench w = .ok m ∧ m.projects = (found w).projects ∧ m.platform = written ∧
          m.model = declared) ∧
      (¬ (written.pre = [] ∨ platform.sameAs (Catalogue.release 3 0 0) = true) →
        ofWorkbench w = .error (.incompatible written (w.bundle.folder "ed-fi-model-3.0"))) ∧
      (create w).2 = ofWorkbench w := by
  obtain ⟨written, read, rfl, platform⟩ := Setting.Store.exists_of_platform? configured
  obtain ⟨accepted, refused⟩ := ofFound_of_core only declares platform w.bundle
  have fits := Catalogue.isCompatible_default_iff default
  rw [← Catalogue.isCompatible_congr same] at fits
  refine ⟨written, read, rfl, fun covered => accepted (fits.2 covered), fun uncovered => ?_,
    snd_create w⟩
  have fallback : Catalogue.rangeFor written = Catalogue.fallbackRange :=
    Catalogue.rangeFor_of_pre fun release => uncovered (.inl release)
  have folder : Catalogue.recommendedFolder Catalogue.fallbackRange = "ed-fi-model-3.0" := by
    decide +kernel
  rw [← folder, ← fallback]
  exact refused (Bool.eq_false_iff.2 fun accepts => uncovered (fits.1 accepts))

/-- A workspace with one core model, and a platform. -/
def oneCore (platform model : String) : Workbench where
  files := {
    entries := [(["p"], FileTree.newFolder),
      (["p", "package.json"], Project.packageEntry "Ed-Fi" model)] }
  settings := { values := [(.platformVersion, .string platform)] }
  folders := ⟨some [⟨"p", ⟨"/p"⟩, true⟩]⟩
  bundle := ⟨⟨"/b"⟩⟩

def coreProject (version : String) : Project := ⟨⟨"/p"⟩, "Ed-Fi", version, Project.coreSpace, ""⟩

/-- Spaces, a mark, a missing number and a build make no difference. -/
theorem accepts_default_model_spelled :
    ∃ m, (create (oneCore " v6.1+build.7 " "4.0.0+x")).2 = .ok m ∧
      m.platform.build.length = 2 ∧ m.model.sameAs (Catalogue.release 4 0 0) = true := by
  have configured : (oneCore " v6.1+build.7 " "4.0.0+x").settings.platform? =
      some (Catalogue.release 6 1 0) := by decide +kernel
  have default : Catalogue.defaultModelVersion (Catalogue.release 6 1 0) =
      some (Catalogue.release 4 0 0) := by decide +kernel
  have only : (found (oneCore " v6.1+build.7 " "4.0.0+x")).projects.filter Project.isCore =
      [coreProject "4.0.0+x"] := by decide +kernel
  have declares : (coreProject "4.0.0+x").modelVersion?.any (fun v =>
      v.sameAs (Catalogue.release 4 0 0)) = true := by decide +kernel
  obtain ⟨declared, declares, same⟩ := (Option.any_eq_true _ _).1 declares
  obtain ⟨written, read, -, accepted, -, shown⟩ :=
    accepts_default_model configured default only declares same
  have spelled : (Version.normalize? (oneCore " v6.1+build.7 " "4.0.0+x").settings.platformVersion).any
      (fun v => v.pre.isEmpty && v.build.length == 2) = true := by decide +kernel
  rw [read, Option.any_some, Bool.and_eq_true, List.isEmpty_iff, beq_iff_eq] at spelled
  obtain ⟨m, made, -, platform, model⟩ := accepted (.inl spelled.1)
  refine ⟨m, shown.trans made, ?_, ?_⟩
  · rw [platform]
    exact spelled.2
  · rw [model]
    exact same

/-- A pre-release of a platform is refused with the model version that the cascade selects for it. -/
theorem refuses_default_model_of_pre :
    ∃ (core : Project) (platform model written : Version),
      (oneCore "6.0.0-pre" "4.0.0-a").settings.platform? = some platform ∧
      Catalogue.defaultModelVersion platform = some model ∧
      (found (oneCore "6.0.0-pre" "4.0.0-a")).projects.filter Project.isCore = [core] ∧
      core.modelVersion? = some model ∧
      (create (oneCore "6.0.0-pre" "4.0.0-a")).2 =
        .error (.incompatible written ⟨"/b/ed-fi-model-3.0"⟩) := by
  refine ⟨coreProject "4.0.0-a", Catalogue.release 6 0 0,
    Catalogue.letter 4 0 0 ⟨['a'], by decide⟩,
    { major := 6, pre := [.word ⟨['p', 'r', 'e'], by decide⟩] },
    by decide +kernel, by decide +kernel, by decide +kernel, by decide +kernel, ?_⟩
  have refused : (create (oneCore "6.0.0-pre" "4.0.0-a")).2.casesOn (motive := fun _ => Option _)
      some (fun _ => none) = some (.incompatible
        { major := 6, pre := [.word ⟨['p', 'r', 'e'], by decide⟩] } ⟨"/b/ed-fi-model-3.0"⟩) := by
    decide +kernel
  cases reason : (create (oneCore "6.0.0-pre" "4.0.0-a")).2 with
  | ok m =>
    rw [reason] at refused
    cases refused
  | error e =>
    rw [reason] at refused
    rw [Option.some.inj refused]

end Message

end ModelWorkspace
