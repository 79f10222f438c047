import ModelWorkspace.Project.Discovery
import ModelWorkspace.Proofs.Cascade.Stages
import ModelWorkspace.Proofs.Files.Containment
import ModelWorkspace.Proofs.Project.Declaring

/-! Attempts to open the model directory. An attempt looks at the settings once, gives way, and then
asks for what it has found; so what that look requires of a folder is all that is known of it. -/
namespace ModelWorkspace.Cascade

open Project (Declaration)

/-- The stages of a handler, one after the other. Where it pauses the others have their turns. The log
has each other stage with the workbench at which it was done. -/
inductive Passage (others : Workbench → Workbench → Prop) :
    Workbench → List Stage → List (Workbench × Stage) → Workbench → Prop
  | done {w : Workbench} : Passage others w [] [] w
  | pause {w v u : Workbench} {rest : List Stage} {log : List (Workbench × Stage)}
      (meanwhile : others w v) (passage : Passage others v rest log u) :
      Passage others w (.pause :: rest) log u
  | stage {w u : Workbench} {s : Stage} {rest : List Stage} {log : List (Workbench × Stage)}
      (goes : s ≠ .pause) (passage : Passage others (s.perform w).1 ((s.perform w).2 ++ rest) log u) :
      Passage others w (s :: rest) ((w, s) :: log) u

/-- What is asked for after a look at the settings, at the time of the request. -/
def requested (x : Workbench) (name : String) (path : Path) : Workbench × Stage :=
  (x, .replaceModelFolder name path)

section Attempts

variable {others : Workbench → Workbench → Prop} {w u : Workbench}
  {log : List (Workbench × Stage)}

/-- An attempt that finds nothing to open does nothing; any other asks once for what it has found. -/
theorem attempt_cases (attempt : Passage others w syncModelFolder log u) :
    ∃ v, others w v ∧
      ((openable? v = none ∧ log = [(v, .openModelDirectory), (v, .answer false)] ∧ u = v) ∨
        ∃ name path x, openable? v = some (name, path) ∧ others (v.inform updateNotice) x ∧
          others (x.replaceModelFolder name path).1 u ∧
          log = [(v, .openModelDirectory), requested x name path,
            (u, .answer (x.replaceModelFolder name path).2)]) := by
  cases attempt with
  | stage goes => exact absurd rfl goes
  | @pause _ v _ _ _ turn look =>
    refine ⟨v, turn, ?_⟩
    cases look with
    | stage _ rest =>
      simp only [Stage.perform] at rest
      cases found : openable? v with
      | none =>
        rw [found] at rest
        cases rest with
        | stage _ rest =>
          cases rest
          exact .inl ⟨rfl, rfl, rfl⟩
      | some asked =>
        obtain ⟨name, path⟩ := asked
        rw [found] at rest
        cases rest with
        | stage goes => exact absurd rfl goes
        | @pause _ x _ _ _ turn rest =>
          cases rest with
          | stage _ rest =>
            cases rest with
            | stage goes => exact absurd rfl goes
            | pause last rest =>
              cases rest with
              | stage _ rest =>
                cases rest
                exact .inr ⟨name, path, x, rfl, turn, last, rfl⟩

/-- What can be opened is asked for, if the others leave it at that. -/
theorem attempt_of_openable? (rest : ∀ v, others v v) {name : String} {path : Path}
    (found : openable? w = some (name, path)) :
    Passage others w syncModelFolder
      [(w, .openModelDirectory), requested (w.inform updateNotice) name path,
        (((w.inform updateNotice).replaceModelFolder name path).1,
          .answer ((w.inform updateNotice).replaceModelFolder name path).2)]
      ((w.inform updateNotice).replaceModelFolder name path).1 := by
  refine .pause (rest w) (.stage (by simp) ?_)
  simp only [Stage.perform, found]
  exact .pause (rest _) (.stage (by simp) (.pause (rest _) (.stage (by simp) .done)))

theorem look_of_requested {x : Workbench} {name : String} {path : Path}
    (attempt : Passage others w syncModelFolder log u) (asked : requested x name path ∈ log) :
    ∃ v, (v, .openModelDirectory) ∈ log ∧ openable? v = some (name, path) := by
  obtain ⟨v, -, ⟨-, rfl, -⟩ | ⟨name', path', x', found, -, -, rfl⟩⟩ := attempt_cases attempt
  · simp [requested] at asked
  · obtain ⟨rfl, rfl, rfl⟩ : x = x' ∧ name = name' ∧ path = path' := by
      simpa [requested] using asked
    exact ⟨v, List.mem_cons_self, found⟩

end Attempts

/-! ### Where the folder is -/

/-- A folder that may be opened leads somewhere. -/
theorem resolve_of_openable? {v : Workbench} {name : String} {path : Path}
    (found : openable? v = some (name, path)) : ∃ l, v.files.resolve path = .ok l := by
  obtain ⟨-, given, -, declares⟩ := openable?_eq_some found
  exact Project.resolve_of_declaration? given (Project.isSome_of_modelName? declares)

/-- Paths in a tree lead to their places, and containment in a bundle tells about these. Where the root
is absolute, the bundle contains exactly the absolute paths that lead to its root or below it. Where
it is relative, what the bundle contains leads there from everywhere only if the path leads up as far
as the root, or not further up than a root without names. So with an absolute root, and without
extended access, all that an attempt asks for is in the bundle. -/
theorem containment_of_bundle (b : Bundle) :
    (∀ (files : FileTree) path l, files.resolve path = .ok l → l = path.place files.current) ∧
    (b.root.isAbsolute = true → ∀ path current, (b.contains path = true ↔
      path.isAbsolute = true ∧ b.root.place current <+: path.place current)) ∧
    (b.root.isAbsolute = false → ∀ path, b.contains path = true →
      ((∀ current, b.root.place current <+: path.place current) ↔
        path.isAbsolute = false ∧ (path.course.climb = b.root.course.climb ∨
          b.root.course.names = [] ∧ path.course.climb ≤ b.root.course.climb))) ∧
    (b.root.isAbsolute = true → ∀ others w log u, Passage others w syncModelFolder log u →
      ∀ x name path, requested x name path ∈ log → ∃ v, (v, .openModelDirectory) ∈ log ∧
        (v.bundle = b → v.settings.extendedAccess = false → ∃ l, v.files.resolve path = .ok l ∧
          b.root.place v.files.current <+: l)) := by
  refine ⟨fun files path l leads => FileTree.resolve_eq_place leads,
    fun absolute path current => Path.isWithin_iff_place absolute path current,
    fun relative path within => Path.place_prefix_iff_of_relative relative within, ?_⟩
  intro absolute others w log u attempt x name path asked
  obtain ⟨v, look, found⟩ := look_of_requested attempt asked
  refine ⟨v, look, fun own closed => ?_⟩
  obtain ⟨l, leads⟩ := resolve_of_openable? found
  obtain ⟨-, -, inside | opened, -⟩ := openable?_eq_some found
  · rw [own] at inside
    refine ⟨l, leads, ?_⟩
    rw [FileTree.resolve_eq_place leads]
    exact ((Path.isWithin_iff_place absolute path v.files.current).1 inside).2
  · rw [closed] at opened
    cases opened

/-- A tree with one project at `/b/m`, seen from a folder, and a model directory that may name it. -/
def projectBelow (current : Location) (project root directory : String) : Workbench where
  files := {
    current
    entries := [(["b", "m"], FileTree.newFolder), (["b"], FileTree.newFolder),
      (["b", "m", "package.json"], Project.packageEntry project "1.0.0"),
      (current, FileTree.newFolder)] }
  settings := { values := [(.modelDirectory, .string directory)] }
  bundle := ⟨⟨root⟩⟩

/-- A bundled folder that is spelled with a step out of the bundle and back, with both kinds of root. -/
theorem containment_of_bundle_detour :
    (∀ current, (⟨"/b"⟩ : Path).place current <+: (⟨"/b/./..//b/m/"⟩ : Path).place current) ∧
      (∀ current, (⟨"b"⟩ : Path).place current <+: (⟨"m/../b/m"⟩ : Path).place current) ∧
      ∃ l, (projectBelow [] "A" "/b" "/b/./..//b/m/").files.resolve ⟨"/b/./..//b/m/"⟩ = .ok l ∧
        (⟨"/b"⟩ : Path).place [] <+: l := by
  obtain ⟨-, absolute, -, opens⟩ := containment_of_bundle ⟨⟨"/b"⟩⟩
  obtain ⟨-, -, relative, -⟩ := containment_of_bundle ⟨⟨"b"⟩⟩
  refine ⟨fun current => ?_, ?_, ?_⟩
  · exact ((absolute (by decide) _ current).1 (by decide)).2
  · exact (relative (by decide) _ (by decide)).2 (by decide)
  · obtain ⟨v, look, inside⟩ := opens (by decide) Eq _ _ _
      (attempt_of_openable? (fun _ => rfl)
        (show openable? (projectBelow [] "A" "/b" "/b/./..//b/m/") =
          some ("m", ⟨"/b/./..//b/m/"⟩) by decide +kernel))
      _ _ _ (List.mem_cons_of_mem _ List.mem_cons_self)
    obtain rfl : v = projectBelow [] "A" "/b" "/b/./..//b/m/" := by
      simpa [requested] using look
    exact inside rfl (by decide)

/-- A path that leads above the folder where it begins counts as contained in a bundle next to that
folder, and its project is opened though it lies elsewhere. -/
theorem contained_path_leads_elsewhere :
    let w := projectBelow ["h"] "A" "b" "../b/m"
    w.bundle.contains ⟨"../b/m"⟩ = true ∧ w.settings.extendedAccess = false ∧
      w.files.resolve ⟨"../b/m"⟩ = .ok ["b", "m"] ∧
      ¬ w.bundle.root.place w.files.current <+: ["b", "m"] ∧
      ∃ x log u, Passage Eq w syncModelFolder log u ∧ requested x "m" ⟨"../b/m"⟩ ∈ log := by
  refine ⟨by decide, by decide, by decide +kernel, by decide, ?_⟩
  exact ⟨_, _, _, attempt_of_openable? (fun _ => rfl) (by decide +kernel),
    List.mem_cons_of_mem _ List.mem_cons_self⟩

/-! ### What the folder declares -/

/-- What discovery requires of a declaration: its name gives a namespace, and its version is one. -/
def IsSound (d : Declaration) : Prop :=
  (Project.spaceOf? d.name).isSome = true ∧
    (Version.ofChars? (Text.trim d.version.toList)).isSome = true

instance (d : Declaration) : Decidable (IsSound d) := inferInstanceAs (Decidable (_ ∧ _))

theorem ofDeclaration_of_isSound (path : Path) {d : Declaration} (sound : IsSound d) :
    ∃ p, Project.ofDeclaration path d = .ok p ∧ p.path = path := by
  obtain ⟨space, named⟩ := Option.isSome_iff_exists.1 sound.1
  unfold Project.ofDeclaration
  simp only [named, sound.2, if_true]
  exact ⟨_, rfl, rfl⟩

theorem ofDeclaration_of_not_isSound (path : Path) {d : Declaration} (unsound : ¬ IsSound d) :
    ∃ reason, Project.ofDeclaration path d = .error reason ∧ reason ≠ .noDeclaration := by
  unfold Project.ofDeclaration
  cases named : Project.spaceOf? d.name with
  | none => exact ⟨_, rfl, nofun⟩
  | some space =>
    have version : ¬ (Version.ofChars? (Text.trim d.version.toList)).isSome = true := fun read =>
      unsound ⟨by rw [named]; rfl, read⟩
    simp only [if_neg version]
    exact ⟨_, rfl, nofun⟩

theorem find_of_declaration? {files : FileTree} {path : Path} {d : Declaration}
    (declared : Project.declaration? files path = some d) :
    (IsSound d → ∃ p, p.path = path ∧ Project.find files [path] = ⟨[p], []⟩) ∧
      (¬ IsSound d → ∃ reason, reason ≠ .noDeclaration ∧
        Project.find files [path] = ⟨[], [(path, reason)]⟩) := by
  have one : Project.readAll files [path] = [(path, Project.ofDeclaration path d)] := by
    simp [Project.readAll, Project.ofFolder, declared]
  constructor
  · intro sound
    obtain ⟨p, read, same⟩ := ofDeclaration_of_isSound path sound
    exact ⟨p, same, by simp [Project.find, one, read, Except.toOption]⟩
  · intro unsound
    obtain ⟨reason, read, declares⟩ := ofDeclaration_of_not_isSound path unsound
    exact ⟨reason, declares, by simp [Project.find, one, read, Except.toOption]⟩

theorem find_replaceModelFolder (x : Workbench) (name : String) (path : Path) (folders : List Path) :
    Project.find (x.replaceModelFolder name path).1.files folders = Project.find x.files folders := by
  have same (folder : Path) : Project.ofFolder (x.replaceModelFolder name path).1.files folder =
      Project.ofFolder x.files folder := by
    simp only [Project.ofFolder, Project.declaration?, read_replaceModelFolder]
  simp only [Project.find, Project.readAll, same]

/-- What an attempt asks for has declared a project at its look, with a name and a version. Discovery
in that tree accepts the folder alone exactly if the declaration is sound; otherwise it names it with
a reason, which is the name or the version. To open the folder does not change what discovery says.
An attempt that asks for nothing answers so, and leaves all as it and the others found it. -/
theorem requests_of_attempt {others : Workbench → Workbench → Prop} {w u : Workbench}
    {log : List (Workbench × Stage)} (attempt : Passage others w syncModelFolder log u) :
    (∀ x name path, requested x name path ∈ log →
      (∃ v d, (v, .openModelDirectory) ∈ log ∧ Project.declaration? v.files path = some d ∧
        d.name ≠ "" ∧ d.version ≠ "" ∧
        (IsSound d → ∃ p, p.path = path ∧ Project.find v.files [path] = ⟨[p], []⟩) ∧
        (¬ IsSound d → ∃ reason, reason ≠ .noDeclaration ∧
          Project.find v.files [path] = ⟨[], [(path, reason)]⟩)) ∧
      Project.find (x.replaceModelFolder name path).1.files [path] =
        Project.find x.files [path]) ∧
    ((∀ x name path, requested x name path ∉ log) →
      (u, .answer false) ∈ log ∧ others w u ∧ ∀ entry ∈ log, (entry.2.perform entry.1).1 = u) := by
  constructor
  · intro x name path asked
    refine ⟨?_, find_replaceModelFolder x name path [path]⟩
    obtain ⟨v, look, found⟩ := look_of_requested attempt asked
    obtain ⟨-, -, -, declares⟩ := openable?_eq_some found
    obtain ⟨d, declared⟩ := Option.isSome_iff_exists.1 (Project.isSome_of_modelName? declares)
    obtain ⟨-, -, -, complete⟩ := Project.declaration?_eq_some_iff.1 declared
    simp only [Declaration.isComplete, Bool.and_eq_true, bne_iff_ne] at complete
    exact ⟨v, d, look, declared, complete.1, complete.2, find_of_declaration? declared⟩
  · intro nothing
    obtain ⟨v, turn, ⟨found, rfl, rfl⟩ | ⟨name, path, x, -, -, -, rfl⟩⟩ := attempt_cases attempt
    · refine ⟨by simp, turn, fun entry mem => ?_⟩
      obtain rfl | rfl : entry = (u, .openModelDirectory) ∨ entry = (u, .answer false) := by
        simpa using mem
      · simp [Stage.perform, found]
      · rfl
    · exact absurd (List.mem_cons_of_mem _ List.mem_cons_self) (nothing x name path)

/-- A folder that discovery accepts is opened. -/
theorem requests_of_attempt_sound :
    ∃ log u, Passage Eq (projectBelow [] "A" "/b" "/b/m") syncModelFolder log u ∧
      ∃ v p, (v, .openModelDirectory) ∈ log ∧ Project.find v.files [⟨"/b/m"⟩] = ⟨[p], []⟩ := by
  have alone (v : Workbench) : Eq v v := rfl
  have attempt := attempt_of_openable? alone
    (show openable? (projectBelow [] "A" "/b" "/b/m") = some ("m", ⟨"/b/m"⟩) by decide +kernel)
  refine ⟨_, _, attempt, ?_⟩
  obtain ⟨v, d, look, declared, -, -, accepted, -⟩ := ((requests_of_attempt attempt).1 _ _ _
    (List.mem_cons_of_mem _ List.mem_cons_self)).1
  obtain rfl : v = projectBelow [] "A" "/b" "/b/m" := by simpa [requested] using look
  have sound : (Project.declaration? (projectBelow [] "A" "/b" "/b/m").files ⟨"/b/m"⟩).all
      (fun d => decide (IsSound d)) = true := by decide +kernel
  rw [declared] at sound
  obtain ⟨p, -, found⟩ := accepted (by simpa using sound)
  exact ⟨_, p, look, found⟩

/-- A folder is opened though discovery refuses its name. -/
theorem opens_folder_that_is_no_project :
    ∃ x log u, Passage Eq (projectBelow [] "sample" "/b" "/b/m") syncModelFolder log u ∧
      requested x "m" ⟨"/b/m"⟩ ∈ log ∧
      Project.find (projectBelow [] "sample" "/b" "/b/m").files [⟨"/b/m"⟩] =
        ⟨[], [(⟨"/b/m"⟩, .badName)]⟩ :=
  ⟨_, _, _, attempt_of_openable? (fun _ => rfl) (by decide +kernel),
    List.mem_cons_of_mem _ List.mem_cons_self, by decide +kernel⟩

end ModelWorkspace.Cascade
