import ModelWorkspace.Compiler.Command
import ModelWorkspace.Proofs.Compiler.Platform

/-! Commands that stop. A build and a deployment are prepared by one check after the other; the first
that fails is what the user is told, once and last, and until all have passed nothing is called. So
there are two ways for it to end, and each tells what the workbench is like. -/
namespace ModelWorkspace

/-- The first two bytes of a text. Letters of a long text are slow to compute. -/
def firstBytes (s : String) : List UInt8 := s.toByteArray.data.toList.take 2

theorem firstBytes_append {s : String} (long : 2 ≤ s.toByteArray.data.toList.length) (t : String) :
    firstBytes (s ++ t) = firstBytes s := by
  rw [firstBytes, String.toByteArray_append, ByteArray.data_append, Array.toList_append,
    List.take_append_of_le_length long, firstBytes]

/-- The texts of all errors differ from the notice about foreign folders in how they begin. -/
theorem CommandError.message_ne_foreignFolders (e : CommandError) :
    e.message ≠ Message.foreignFoldersNotice := by
  suffices begins : firstBytes e.message ≠ firstBytes Message.foreignFoldersNotice from
    fun same => begins (congrArg firstBytes same)
  unfold CommandError.message MessageError.message
  cases e with
  | licenseNotAccepted | directoryUnset | nothingToDeploy => decide
  | directoryInvalid path =>
    simp only [String.append_assoc]
    rw [firstBytes_append (by decide)]
    decide
  | configuration e =>
    cases e <;>
    · simp only [String.append_assoc]
      rw [firstBytes_append (by decide)]
      decide

namespace Message

/-- The word about foreign folders, where it is given. -/
def foreignNotices (w : Workbench) : NoticeLog :=
  if (found w).projects.isEmpty || (found w).invalid.isEmpty then []
  else [⟨.info, foreignFoldersNotice⟩]

theorem mem_foreignNotices {w : Workbench} {n : Notice} (mem : n ∈ foreignNotices w) :
    n.text = foreignFoldersNotice := by
  unfold foreignNotices at mem
  split at mem
  · cases mem
  · rw [List.mem_singleton.1 mem]

theorem mentionForeignFolders_eq (w : Workbench) :
    mentionForeignFolders w = { w with notices := w.notices ++ foreignNotices w } := by
  unfold mentionForeignFolders foreignNotices
  split
  · rw [List.append_nil]
  · rfl

/-- A message is for the configured deployment directory. -/
theorem deployDirectory_of_ofWorkbench {w : Workbench} {m : Message} (made : ofWorkbench w = .ok m) :
    m.deployDirectory = ⟨w.settings.deploymentDirectory⟩ := by
  unfold ofWorkbench ofFound at made
  simp only [bind, Except.bind, pure, Except.pure, throw, throwThe, MonadExceptOf.throw] at made
  split at made
  · cases made
  · split at made
    · cases made
    · split at made
      · cases made
      · split at made
        · cases made
        · cases made
          rfl

end Message

namespace Command

variable {α : Type} {w : Workbench}

/-- The workbench after some notices. -/
def told (w : Workbench) (notices : NoticeLog) : Workbench :=
  { w with notices := w.notices ++ notices }

@[simp] theorem told_told (w : Workbench) (some more : NoticeLog) :
    told (told w some) more = told w (some ++ more) := by
  simp [told]

@[simp] theorem inform_told (w : Workbench) (notices : NoticeLog) (text : String) :
    (told w notices).inform text = told w (notices ++ [⟨.info, text⟩]) :=
  told_told w notices [⟨.info, text⟩]

def IsForeign (notices : NoticeLog) : Prop := ∀ n ∈ notices, n.text = Message.foreignFoldersNotice

/-- A command is prepared, with a word about foreign folders at most. -/
def Grants (w : Workbench) (x : α) (result : Workbench × Except CommandError α) : Prop :=
  ∃ before, IsForeign before ∧ result = (told w before, .ok x)

/-- A command stops, and the error is shown after a word about foreign folders at most. -/
def Refuses (w : Workbench) (e : CommandError) (result : Workbench × Except CommandError α) : Prop :=
  ∃ before, IsForeign before ∧ result = (told w (before ++ [⟨e.level, e.message⟩]), .error e)

theorem refuses_refuse (w : Workbench) (e : CommandError) : Refuses w e (refuse (α := α) w e) :=
  ⟨[], List.forall_mem_nil _, rfl⟩

theorem Refuses.later {before : NoticeLog} {e : CommandError}
    {result : Workbench × Except CommandError α} (foreign : IsForeign before)
    (refused : result = refuse (told w before) e) : Refuses w e result := by
  refine ⟨before, foreign, refused.trans ?_⟩
  rw [← told_told]
  rfl

theorem createMessage_cases (w : Workbench) :
    (∃ m, (Message.create w).2 = .ok m ∧ Grants w m (createMessage w)) ∨
      ∃ e, (Message.create w).2 = .error e ∧ Refuses w (.configuration e) (createMessage w) := by
  have foreign : IsForeign (Message.foreignNotices w) := fun _ => Message.mem_foreignNotices
  unfold createMessage Message.create
  cases Message.ofWorkbench w with
  | ok m =>
    exact .inl ⟨m, rfl, Message.foreignNotices w, foreign,
      congrArg (·, _) (Message.mentionForeignFolders_eq w)⟩
  | error e =>
    refine .inr ⟨e, rfl, Refuses.later foreign ?_⟩
    dsimp only
    rw [Message.mentionForeignFolders_eq]
    rfl

/-! ### What the checks are about -/

/-- What a build requires. -/
structure MayBuild (w : Workbench) (m : Message) : Prop where
  license : w.settings.acceptedLicense = true
  message : (Message.create w).2 = .ok m

/-- What a deployment requires besides. -/
structure MayDeploy (w : Workbench) (m : Message) : Prop extends MayBuild w m where
  directory : w.settings.deploymentDirectory ≠ ""
  folders : ∀ folder ∈ [deploymentFolders.1, deploymentFolders.2],
    w.files.isFolder (Path.join ⟨w.settings.deploymentDirectory⟩ ⟨folder⟩) = true
  worth : w.settings.extendedAccess = true ∨ 1 < m.projects.length

/-- The deployment of a message as the settings want it. -/
def deployment (w : Workbench) (m : Message) : Deployment :=
  ⟨m, w.settings.extendedAccess, w.settings.suppressDeleteOnDeploy⟩

theorem prepareBuild_cases (w : Workbench) :
    (∃ m, MayBuild w m ∧ Grants w m (prepareBuild w)) ∨
      ∃ e, (∀ m, ¬ MayBuild w m) ∧ Refuses w e (prepareBuild w) := by
  unfold prepareBuild
  cases license : w.settings.acceptedLicense with
  | false =>
    exact .inr ⟨_, fun m may => (nomatch license.symm.trans may.license), refuses_refuse w _⟩
  | true =>
    obtain ⟨m, made, granted⟩ | ⟨e, failed, refused⟩ := createMessage_cases w
    · exact .inl ⟨m, ⟨license, made⟩, granted⟩
    · exact .inr ⟨_, fun m may => (nomatch failed.symm.trans may.message), refused⟩

theorem checkDirectory_cases (files : FileTree) (directory : Path) :
    ((∀ folder ∈ [deploymentFolders.1, deploymentFolders.2],
        files.isFolder (directory.join ⟨folder⟩) = true) ∧
      checkDirectory files directory = .ok ()) ∨
    ((¬ ∀ folder ∈ [deploymentFolders.1, deploymentFolders.2],
        files.isFolder (directory.join ⟨folder⟩) = true) ∧
      checkDirectory files directory = .error (.directoryInvalid directory)) := by
  have both : (∀ folder ∈ [deploymentFolders.1, deploymentFolders.2],
      files.isFolder (directory.join ⟨folder⟩) = true) ↔
        (files.isFolder (directory.join ⟨deploymentFolders.1⟩) &&
          files.isFolder (directory.join ⟨deploymentFolders.2⟩)) = true := by
    simp
  unfold checkDirectory
  split
  · rename_i there
    exact .inl ⟨both.2 there, rfl⟩
  · rename_i missing
    exact .inr ⟨mt both.1 missing, rfl⟩

theorem deploymentOf_cases (w : Workbench) (m : Message) :
    ((w.settings.extendedAccess = true ∨ 1 < m.projects.length) ∧
      deploymentOf w m = (w, .ok (deployment w m))) ∨
    (¬ (w.settings.extendedAccess = true ∨ 1 < m.projects.length) ∧
      deploymentOf w m = refuse w .nothingToDeploy) := by
  unfold deploymentOf
  split
  · rename_i small
    refine .inr ⟨?_, rfl⟩
    rintro (extended | several)
    · simp [extended] at small
    · simp only [Bool.and_eq_true, decide_eq_true_eq] at small
      omega
  · rename_i large
    refine .inl ⟨?_, rfl⟩
    cases extended : w.settings.extendedAccess with
    | true => exact .inl rfl
    | false =>
      simp only [extended, Bool.not_false, Bool.true_and, decide_eq_true_eq] at large
      exact .inr (Nat.lt_of_not_le large)

theorem prepareDeploy_cases (w : Workbench) :
    (∃ m, MayDeploy w m ∧ Grants w (deployment w m) (prepareDeploy w)) ∨
      ∃ e, (∀ m, ¬ MayDeploy w m) ∧ Refuses w e (prepareDeploy w) := by
  unfold prepareDeploy
  cases license : w.settings.acceptedLicense with
  | false =>
    exact .inr ⟨_, fun m may => (nomatch license.symm.trans may.license), refuses_refuse w _⟩
  | true =>
    by_cases unset : w.settings.deploymentDirectory = ""
    · rw [if_neg (by decide), if_pos (String.isEmpty_iff.2 unset)]
      exact .inr ⟨_, fun m may => may.directory unset, refuses_refuse w _⟩
    · rw [if_neg (by decide), if_neg (mt String.isEmpty_iff.1 unset)]
      obtain ⟨folders, passed⟩ | ⟨missing, failed⟩ :=
        checkDirectory_cases w.files ⟨w.settings.deploymentDirectory⟩
      · rw [passed]
        obtain ⟨m, made, before, foreign, granted⟩ | ⟨e, failed, before, foreign, refused⟩ :=
          createMessage_cases w
        · simp only [granted]
          obtain ⟨worth, granted⟩ | ⟨worthless, refused⟩ := deploymentOf_cases (told w before) m
          · exact .inl ⟨m, ⟨⟨license, made⟩, unset, folders, worth⟩, before, foreign, granted⟩
          · refine .inr ⟨_, fun m' may => ?_, Refuses.later foreign refused⟩
            obtain rfl := Except.ok.inj (made.symm.trans may.message)
            exact worthless may.worth
        · refine .inr ⟨.configuration e, fun m may => (nomatch failed.symm.trans may.message),
            before, foreign, ?_⟩
          simp only [refused]
      · rw [failed]
        exact .inr ⟨_, fun m may => missing may.folders, refuses_refuse w _⟩

end Command

end ModelWorkspace
