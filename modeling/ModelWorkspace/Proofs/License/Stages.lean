import ModelWorkspace.Proofs.Cascade.Followers
import ModelWorkspace.Proofs.Problem.Surface

/-! Which documents the stages of a task are about. A stage is calm if it can only lead to calls for the
documents of files, or to announcements of the license; and as no task both announces the license and
runs a pass, what passes publish and what is announced stay apart. -/
namespace ModelWorkspace.Host

open Cascade (Role)

/-- The stages that a task has still to go through. -/
def Task.stages : Task → List Stage
  | .routine rest => rest
  | .follower _ _ f => f.remaining
  | _ => []

/-- The stages that a task goes through each time that it reacts. -/
def Task.handler : Task → List Stage
  | .follower _ _ f => f.handler
  | _ => []

def stagesOf (h : Host) (id : Nat) : List Stage := ((h.tasks[id]?).map Task.stages).getD []

namespace Stage

/-- Whether the stage leads to an announcement of the license. -/
def isLicensing : Stage → Bool
  | .announceLicense _ | .activation _ => true
  | _ => false

/-- Whether the stage leads to the end of a pass. -/
def isPassing : Stage → Bool
  | .lint _ | .reconcile .. | .publishAll .. | .finishPass .. => true
  | _ => false

/-- Whether the stage comes before the followers of a session. -/
def isOpening : Stage → Bool
  | .activation _ | .followSettings => true
  | _ => false

/-- Whether the stage is about the session that is being activated. -/
def isOfSession : Stage → Bool
  | .activation _ | .followSettings | .finishActivation _ => true
  | _ => false

def isNeutral (s : Stage) : Bool :=
  !s.isLicensing && !s.isPassing && !s.isOpening && !s.isOfSession

/-- The stage calls for documents of files only, and does not end a session. -/
def IsCalm : Stage → Prop
  | .publish p => p.uri.isFile = true
  | .finishPass _ plan => ∀ uri ∈ plan.snapshot, uri.isFile = true
  | .endSession => False
  | _ => True

end Stage

/-- The stages are calm, and do not both announce the license and run a pass. -/
structure Calm (stages : List Stage) : Prop where
  each : ∀ s ∈ stages, s.IsCalm
  apart : ∀ s ∈ stages, s.isLicensing = true → ∀ t ∈ stages, t.isPassing = false

theorem Calm.nil : Calm [] := ⟨List.forall_mem_nil _, List.forall_mem_nil _⟩

/-- Stages of no pass are calm as soon as each of them is. -/
theorem Calm.of_outside {stages : List Stage} (each : ∀ s ∈ stages, s.IsCalm)
    (outside : ∀ s ∈ stages, s.isPassing = false) : Calm stages :=
  ⟨each, fun _ _ _ t mem => outside t mem⟩

/-- A call for the license document that comes next, with what the setting says now. -/
def Announcing (accepted : Bool) (stages : List Stage) : Prop :=
  ∃ rest, stages = .publish (License.publication accepted) :: rest ∧ Calm rest ∧
    ∀ t ∈ rest, t.isPassing = false

/-- The documents that failed last are files. -/
def OnlyFiles (reconcilers : List Reconciler) : Prop :=
  ∀ r ∈ reconcilers, ∀ uri ∈ r.snapshot, uri.isFile = true

/-! ### What comes of a stage -/

section Performing

variable {h : Host} {id : Nat} {s : Stage}

theorem isFile_of_mem_snapshot (files : OnlyFiles h.reconcilers) {reconciler : Nat} {uri : Uri}
    (mem : uri ∈ (h.reconciler reconciler).snapshot) : uri.isFile = true := by
  unfold Host.reconciler at mem
  cases found : h.reconcilers[reconciler]? with
  | none => simp [found] at mem
  | some r =>
    rw [found, Option.getD_some] at mem
    exact files r (List.mem_of_getElem? found) uri mem

theorem isFile_of_mem_byDocument {failures : List Failure} {p : Publication}
    (mem : p ∈ Plan.byDocument failures) : p.uri.isFile = true := by
  have document : p.uri ∈ Plan.documents failures := List.mem_map_of_mem mem
  exact Plan.isFile_of_mem_documents document

/-- A plan over files calls for files, and leaves files. -/
theorem isFile_of_plan (files : OnlyFiles h.reconcilers) (reconciler : Nat) (failures : List Failure) :
    (∀ p ∈ ((h.reconciler reconciler).plan failures).operations, p.uri.isFile = true) ∧
      ∀ uri ∈ ((h.reconciler reconciler).plan failures).snapshot, uri.isFile = true := by
  constructor
  · intro p mem
    obtain published | cleared := List.mem_append.1 mem
    · exact isFile_of_mem_byDocument published
    · obtain ⟨uri, listed, rfl⟩ := List.mem_map.1 cleared
      exact isFile_of_mem_snapshot files (List.mem_filter.1 listed).1
  · intro uri mem
    obtain ⟨p, published, rfl⟩ := List.mem_map.1 mem
    exact isFile_of_mem_byDocument published

/-- What a stage leads to. Each kind of stages comes of stages of that kind only. -/
structure LeadsTo (s : Stage) (next : List Stage) : Prop where
  calm : ∀ t ∈ next, t.IsCalm
  licensing : ∀ t ∈ next, t.isLicensing = true → s.isLicensing = true
  passing : ∀ t ∈ next, t.isPassing = true → s.isPassing = true
  opening : ∀ t ∈ next, t.isOpening = true → s.isOpening = true
  ofSession : ∀ t ∈ next, t.isOfSession = true → s.isOfSession = true

theorem LeadsTo.of_neutral {next : List Stage} (calm : ∀ t ∈ next, t.IsCalm)
    (neutral : ∀ t ∈ next, t.isNeutral = true) (s : Stage) : LeadsTo s next := by
  simp only [Stage.isNeutral, Bool.and_eq_true, Bool.not_eq_true'] at neutral
  refine ⟨calm, ?_, ?_, ?_, ?_⟩ <;> intro t mem own <;> simp [neutral t mem] at own

theorem LeadsTo.nil (s : Stage) : LeadsTo s [] :=
  .of_neutral (List.forall_mem_nil _) (List.forall_mem_nil _) s

theorem LeadsTo.of_map {σ : Type} {f : σ → Stage} (calm : ∀ a, (f a).IsCalm)
    (neutral : ∀ a, (f a).isNeutral = true) (next : List σ) (s : Stage) :
    LeadsTo s (next.map f) := by
  refine .of_neutral (fun t mem => ?_) (fun t mem => ?_) s <;>
    obtain ⟨a, -, rfl⟩ := List.mem_map.1 mem
  · exact calm a
  · exact neutral a

/-- A stage of an activation leads to such stages and to the session. -/
theorem LeadsTo.of_activation {t : Startup.Stage} {next : List Stage} (calm : ∀ t ∈ next, t.IsCalm)
    (outside : ∀ t ∈ next, t.isPassing = false) : LeadsTo (.activation t) next := by
  refine ⟨calm, fun _ _ _ => rfl, fun u mem passes => ?_, fun _ _ _ => rfl, fun _ _ _ => rfl⟩
  rw [outside u mem] at passes
  cases passes

/-- A stage of a pass leads to stages of a pass and to calls. -/
theorem LeadsTo.of_passing {next : List Stage} (passing : s.isPassing = true)
    (calm : ∀ t ∈ next, t.IsCalm)
    (kinds : ∀ t ∈ next, t.isLicensing = false ∧ t.isOpening = false ∧ t.isOfSession = false) :
    LeadsTo s next := by
  refine ⟨calm, ?_, fun _ _ _ => passing, ?_, ?_⟩ <;> intro t mem own <;> simp [kinds t mem] at own

theorem stages_acquire (h : Host) (id reconciler : Nat) (stages : List Stage) :
    (h.acquire id reconciler stages).2.stages = stages ∨
      (h.acquire id reconciler stages).2.stages = [] := by
  unfold acquire
  split
  · dsimp only
    split
    · exact .inl rfl
    · exact .inl rfl
  · exact .inr rfl

theorem LeadsTo.acquire {next : List Stage} (leads : LeadsTo s next) (reconciler : Nat) :
    LeadsTo s (h.acquire id reconciler next).2.stages := by
  obtain same | none := stages_acquire h id reconciler next
  · rw [same]
    exact leads
  · rw [none]
    exact .nil s

theorem LeadsTo.startUp {finish : Bool → Host × Flow} {stage : Startup.Stage → Stage}
    (next : ∀ stages : List Startup.Stage, LeadsTo s (stages.map stage))
    (finished : ∀ restarting, LeadsTo s (finish restarting).2.stages) (t : Startup.Stage) :
    LeadsTo s (h.startUp stage finish t).2.stages := by
  unfold Host.startUp
  split
  · exact .nil s
  · exact finished _
  · exact next _

theorem leadsTo_afterStartup (h : Host) (t : Startup.Stage) (restarting : Bool) :
    LeadsTo (.activation t) (h.afterStartup restarting) := by
  unfold afterStartup
  split
  · split
    · exact .of_activation (by simp [Stage.IsCalm]) (by simp [Stage.isPassing])
    · exact .of_activation (by simp [Stage.IsCalm]) (by simp [Stage.isPassing])
  · exact .nil _

theorem leadsTo_publish (h : Host) (id : Nat) (p : Publication) :
    LeadsTo (.publish p) (h.perform id (.publish p)).2.stages := by
  have kinds : ∀ t ∈ (h.perform id (.publish p)).2.stages,
      t = .pause ∨ t = .sleep h.script.publishDelay ∨ t = .record p := by
    intro t mem
    obtain pauses | rest := List.mem_append.1 mem
    · exact .inl (List.eq_of_mem_replicate pauses)
    · simpa using Or.inr (a := t = .pause) rest
  refine .of_neutral (fun t mem => ?_) (fun t mem => ?_) _ <;>
  · obtain rfl | rfl | rfl := kinds t mem <;> trivial

theorem leadsTo_publishAll (files : OnlyFiles h.reconcilers) (reconciler : Nat)
    (failures : List Failure) : LeadsTo (.publishAll reconciler failures)
      (h.perform id (.publishAll reconciler failures)).2.stages := by
  obtain ⟨called, left⟩ := isFile_of_plan files reconciler failures
  refine .of_passing rfl (fun t mem => ?_) fun t mem => ?_
  · obtain publishes | last := List.mem_append.1 mem
    · obtain ⟨p, planned, rfl⟩ := List.mem_map.1 publishes
      exact called p planned
    · obtain rfl := List.mem_singleton.1 last
      exact left
  · obtain publishes | last := List.mem_append.1 mem
    · obtain ⟨p, -, rfl⟩ := List.mem_map.1 publishes
      exact ⟨rfl, rfl, rfl⟩
    · obtain rfl := List.mem_singleton.1 last
      exact ⟨rfl, rfl, rfl⟩

/-- A calm stage leads to calm stages of its own kinds, unless it announces the license. -/
theorem leadsTo_perform (files : OnlyFiles h.reconcilers) (calm : s.IsCalm)
    (silent : ∀ requests, s ≠ .announceLicense requests) (id : Nat) :
    LeadsTo s (h.perform id s).2.stages := by
  cases s with
  | announceLicense requests => exact absurd rfl (silent requests)
  | endSession => exact calm.elim
  | publish p => exact leadsTo_publish h id p
  | publishAll reconciler failures => exact leadsTo_publishAll files reconciler failures
  | pause | followSettings | record _ | send _ _ | greet | finishPass _ _ => exact .nil _
  | finishActivation _ | finishSnapshot _ | built _ | deployed _ _ => exact .nil _
  | sleep ms =>
    simp only [perform, sleep]
    split <;> exact .nil _
  | cascade t =>
    rw [(perform_cascade h id t).2]
    exact .of_map (f := .cascade) (fun _ => trivial) (fun _ => rfl) _ _
  | opening t =>
    cases t with
    | pause | answer _ => exact .nil _
    | _ => exact .of_map (f := .opening) (fun _ => trivial) (fun _ => rfl) _ _
  | startup t =>
    exact .startUp (fun stages => .of_map (f := .startup) (fun _ => trivial) (fun _ => rfl) stages _)
      (fun _ => .nil _) t
  | activation t =>
    refine .startUp (fun stages => .of_activation (fun u mem => ?_) fun u mem => ?_)
      (fun restarting => leadsTo_afterStartup h t restarting) t <;>
    · obtain ⟨a, -, rfl⟩ := List.mem_map.1 mem
      trivial
  | lint reconciler =>
    simp only [perform, lint]
    split
    · exact .nil _
    · exact .of_passing rfl (by simp [Flow.stages, Stage.IsCalm])
        (by simp [Flow.stages, Stage.isLicensing, Stage.isOpening, Stage.isOfSession])
  | reconcile reconciler failures =>
    exact .acquire (.of_passing rfl (by simp [Stage.IsCalm])
      (by simp [Stage.isLicensing, Stage.isOpening, Stage.isOfSession])) _
  | readSnapshot reconciler =>
    exact .acquire (.of_neutral (by simp [Stage.IsCalm]) (by simp [Stage.isNeutral,
      Stage.isLicensing, Stage.isPassing, Stage.isOpening, Stage.isOfSession]) _) _
  | join tasks =>
    simp only [perform, join]
    split
    · exact .nil _
    · exact .of_neutral (by simp [Flow.stages, Stage.IsCalm]) (by simp [Flow.stages,
        Stage.isNeutral, Stage.isLicensing, Stage.isPassing, Stage.isOpening, Stage.isOfSession]) _
  | settle turns =>
    cases turns with
    | zero => exact .nil _
    | succ turns =>
      simp only [perform]
      split
      · exact .nil _
      · exact .of_neutral (by simp [Flow.stages, Stage.IsCalm]) (by simp [Flow.stages,
          Stage.isNeutral, Stage.isLicensing, Stage.isPassing, Stage.isOpening,
          Stage.isOfSession]) _

theorem Calm.perform {rest : List Stage} (calm : Calm (s :: rest)) {next : List Stage}
    (leads : LeadsTo s next) : Calm (next ++ rest) := by
  refine ⟨fun t mem => ?_, fun t mem licensing u mem' => ?_⟩
  · obtain new | old := List.mem_append.1 mem
    · exact leads.calm t new
    · exact calm.each t (List.mem_cons_of_mem _ old)
  · -- Whichever of the stages announces, the list before held one that does.
    have before : ∀ v ∈ s :: rest, v.isPassing = false := by
      obtain new | old := List.mem_append.1 mem
      · exact calm.apart s List.mem_cons_self (leads.licensing t new licensing)
      · exact calm.apart t (List.mem_cons_of_mem _ old) licensing
    obtain new | old := List.mem_append.1 mem'
    · by_contra passes
      rw [Bool.not_eq_false] at passes
      have own := before s List.mem_cons_self
      rw [leads.passing u new passes] at own
      cases own
    · exact before u (List.mem_cons_of_mem _ old)

/-- An announcement leads to a call for the license document, and to word of it. -/
theorem mem_announce {requests : Requests} {t : Stage}
    (mem : t ∈ (h.perform id (.announceLicense requests)).2.stages) :
    t = .publish (License.publication h.bench.settings.acceptedLicense) ∨
      t = .send requests .licenseAccepted := by
  obtain rfl | sends := List.mem_cons.1 mem
  · exact .inl rfl
  · split at sends
    · exact .inr (List.mem_singleton.1 sends)
    · cases sends

/-- An announcement puts the call for the license document in front. -/
theorem Calm.announce {rest : List Stage} {requests : Requests}
    (calm : Calm (.announceLicense requests :: rest)) (h : Host) (id : Nat) :
    Announcing h.bench.settings.acceptedLicense
      ((h.perform id (.announceLicense requests)).2.stages ++ rest) := by
  have outside := calm.apart _ List.mem_cons_self rfl
  have all : ∀ t ∈ (if h.bench.settings.acceptedLicense = true then
      [Stage.send requests .licenseAccepted] else []) ++ rest,
      t.IsCalm ∧ t.isPassing = false := by
    intro t mem
    obtain new | old := List.mem_append.1 mem
    · split at new
      · obtain rfl := List.mem_singleton.1 new
        exact ⟨trivial, rfl⟩
      · cases new
    · exact ⟨calm.each t (List.mem_cons_of_mem _ old), outside t (List.mem_cons_of_mem _ old)⟩
  exact ⟨_, rfl, .of_outside (fun t mem => (all t mem).1) fun t mem => (all t mem).2,
    fun t mem => (all t mem).2⟩

end Performing

end ModelWorkspace.Host
