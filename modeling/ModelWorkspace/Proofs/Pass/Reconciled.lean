import Mathlib.Data.List.Nodup
import ModelWorkspace.Proofs.Pass.Runs

/-! What the editor shows after passes that overlap. The passes publish one after the other, each of
them what its plan asks for after the pass before it; and while none of them holds the reconciler,
the editor shows in files what the last pass was about, and nothing else. -/
namespace ModelWorkspace.Host

/-- What the editor shows after all that was published. -/
def surface (h : Host) : Surface := Surface.empty.publishAll (h.published.map (·.value))

/-- Whether the task has nothing left to do. -/
def hasFinished (h : Host) (id : Nat) : Bool := (h.tasks[id]?).any Task.isOver

/-- The failures of each of the passes, in this order. -/
def failuresOf (passes : List (List Failure)) (order : List Nat) : List (List Failure) :=
  order.map fun k => (passes[k]?).getD []

section Places

variable {r first : Nat} {passes : List (Option (List Failure))} {before : List Failure}
  {past : List Publication} {h : Host} {l : Log}

theorem Serial.shown_prefix (serial : Serial r first passes before past h l) {a : Arrival}
    (holds : l.holder = some a) :
    l.shown.IsPrefix (Plan.of a.2 (Plan.documents (l.latest before))).operations := by
  have mem : a ∈ l.arrivals := by simp [Log.arrivals, holds]
  obtain ⟨j, o, seat, pass, -⟩ := serial.given a mem
  obtain ⟨t, task, place⟩ := serial.place j o pass
  rw [← seat] at place
  have known : a.1 ∈ l.tasks := List.mem_map_of_mem mem
  obtain ⟨undone, waits⟩ := Log.holder_apart serial.different holds
  cases place with
  | early fresh _ | missed fresh _ _ _ => exact absurd known fresh
  | waiting mem => exact absurd (List.mem_map_of_mem mem) waits
  | planning _ nothing =>
    rw [nothing]
    exact List.nil_prefix
  | @publishing failures body holds' _ rest =>
    have same : a.2 = failures := congrArg Prod.snd (Option.some.inj (holds.symm.trans holds'))
    rw [same]
    exact ⟨_, rest⟩
  | done mem _ => exact absurd (List.mem_map_of_mem mem) undone

/-- A pass that was started with failures is among those that are over once it has finished, and not
before. -/
theorem Serial.mem_done_iff (serial : Serial r first passes before past h l) {j : Nat}
    {failures : List Failure} (pass : passes[j]? = some (some failures)) :
    first + j ∈ l.done.map (·.1) ↔ h.hasFinished (first + j) = true := by
  obtain ⟨t, task, place⟩ := serial.place j _ pass
  have finished : h.hasFinished (first + j) = t.isOver := by
    rw [hasFinished, task, Option.any_some]
  rw [finished]
  have known : first + j ∈ l.done.map (·.1) → first + j ∈ l.tasks := fun mem => by
    rw [Log.tasks, Log.arrivals, List.map_append, List.map_append]
    exact List.mem_append_left _ (List.mem_append_left _ mem)
  cases place with
  | early fresh early => cases early; exact iff_of_false (mt known fresh) Bool.false_ne_true
  | missed _ lints _ _ => cases lints
  | waiting waits =>
    exact iff_of_false (Log.queue_apart serial.different (List.mem_map_of_mem waits))
      Bool.false_ne_true
  | planning holds _ =>
    exact iff_of_false (Log.holder_apart serial.different holds).1 Bool.false_ne_true
  | @publishing _ body holds _ _ =>
    refine iff_of_false (Log.holder_apart serial.different holds).1 ?_
    cases body <;> exact Bool.false_ne_true
  | done mem ends => exact iff_of_true (List.mem_map_of_mem mem) ends

end Places

theorem shows_surface {h : Host} {failures : List Failure} :
    h.surface.Shows failures ↔ (Surface.empty.publishAll h.filePublications).Shows failures :=
  Surface.shows_iff_of_filter.symm

/-- The number of the pass that a task belongs to. -/
def passOf (first : Nat) (a : Arrival) : Nat := a.1 - first

section Orders

variable {r first : Nat} {passes : List (List Failure)} {before : List Failure}
  {past : List Publication} {h : Host} {l : Log}

/-- A pass in the log is one of those that were started, and has their failures. -/
theorem Serial.passOf_eq (serial : Serial r first (passes.map some) before past h l) {a : Arrival}
    (mem : a ∈ l.arrivals) : a.1 = first + passOf first a ∧ passes[passOf first a]? = some a.2 := by
  obtain ⟨k, o, seat, pass, own⟩ := serial.given a mem
  have here : passOf first a = k := by rw [passOf, seat, Nat.add_sub_cancel_left]
  rw [List.getElem?_map, Option.map_eq_some_iff] at pass
  obtain ⟨failures, pass, rfl⟩ := pass
  rw [here, own]
  exact ⟨seat, pass⟩

/-- The passes that are over, in their order, are those that have finished, each of them once. -/
theorem Serial.order (serial : Serial r first (passes.map some) before past h l) :
    (l.done.map (passOf first)).Nodup ∧
      (∀ k < passes.length,
        k ∈ l.done.map (passOf first) ↔ h.hasFinished (first + k) = true) ∧
      failuresOf passes (l.done.map (passOf first)) = l.done.map (·.2) := by
  have known : ∀ a ∈ l.done, a ∈ l.arrivals := fun a mem =>
    List.mem_append_left _ (List.mem_append_left _ mem)
  refine ⟨?_, fun k inside => ?_, ?_⟩
  · have different : (l.done.map (·.1)).Nodup := by
      have all := serial.different
      rw [Log.tasks, Log.arrivals, List.map_append, List.map_append] at all
      exact (List.nodup_append.1 (List.nodup_append.1 all).1).1
    refine List.Nodup.map_on (fun a mem b mem' same => ?_) (List.Nodup.of_map _ different)
    refine List.inj_on_of_nodup_map different mem mem' ?_
    rw [(serial.passOf_eq (known a mem)).1, (serial.passOf_eq (known b mem')).1, same]
  · have pass : (passes.map some)[k]? = some (some passes[k]) := by simp [inside]
    rw [← serial.mem_done_iff pass, List.mem_map, List.mem_map]
    refine exists_congr fun a => and_congr_right fun mem => ?_
    rw [(serial.passOf_eq (known a mem)).1, Nat.add_left_cancel_iff]
  · rw [failuresOf, List.map_map]
    refine List.map_congr_left fun a mem => ?_
    rw [Function.comp_apply, (serial.passOf_eq (known a mem)).2, Option.getD_some]

end Orders

/-- The passes on a new reconciler, while the editor shows nothing in files yet. At every time there is
an order of the passes that have finished such that what was published in files is all that these
passes had to publish, one after the other, each by a plan for what the one before it left behind, and
the beginning of what the pass that holds the reconciler has to publish. While none does, the editor
shows in each file the diagnostics of the last pass, in their order, and the reconciler keeps the files
that have some. -/
theorem reconciled_by_last_pass {start : Host} {r : Nat} (new : start.reconcilers[r]? = some {})
    (blank : start.filePublications = []) (passes : List (List Failure)) {moves : List Move}
    {h : Host} (run : (start.startPasses r (passes.map some)).run? moves = some h)
    (fits : ∀ m ∈ moves, m.IsPass start.tasks.length passes.length) :
    ∃ (order : List Nat) (holder : Option Nat) (shown : List Publication),
      order.Nodup ∧
      (∀ k < passes.length, k ∈ order ↔ h.hasFinished (start.tasks.length + k) = true) ∧
      h.filePublications = Plan.publications [] (failuresOf passes order) ++ shown ∧
      let last := (failuresOf passes order).getLastD []
      (∀ k ∈ holder, ∃ failures, passes[k]? = some failures ∧
        shown.IsPrefix (Plan.of failures (Plan.documents last)).operations) ∧
      (h.reconciler r).held = holder.isSome ∧
      (h.reconciler r).snapshot = Plan.documents last ∧
      ((h.reconciler r).held = false → shown = [] ∧
        (∀ u, u.isFile = true → h.surface u = Failure.diagnosticsOf last u ∧
          (h.surface u ≠ [] ↔ ∃ f ∈ last, f.uri? = some u)) ∧
        ∀ u, u ∈ (h.reconciler r).snapshot ↔ ∃ f ∈ last, f.uri? = some u) := by
  have free : start.reconcilers[r]? = some { snapshot := Plan.documents [] } := new
  obtain ⟨l, serial, -⟩ := (serial_startPasses free (passes.map some)).run moves h run
    (by simpa using fits)
  obtain ⟨once, finished, failures⟩ := serial.order
  have state : h.reconciler r =
      ⟨Plan.documents (l.latest []), l.holder.isSome, l.queue.map (·.1)⟩ := by
    rw [reconciler, serial.reconciler, Option.getD_some]
  have trace := serial.trace
  rw [blank, List.nil_append] at trace
  refine ⟨l.done.map (passOf start.tasks.length), l.holder.map (passOf start.tasks.length), l.shown,
    once, finished, ?_⟩
  rw [failures]
  refine ⟨trace, fun k holds => ?_, ?_, ?_, fun free => ?_⟩
  · obtain ⟨a, holder, rfl⟩ := Option.map_eq_some_iff.1 holds
    have mem : a ∈ l.arrivals := by simp [Log.arrivals, holder]
    exact ⟨a.2, (serial.passOf_eq mem).2, serial.shown_prefix holder⟩
  · rw [state, Option.isSome_map]
  · rw [state, Log.latest]
  · rw [state, Option.isSome_eq_false_iff, Option.isNone_iff_eq_none] at free
    obtain ⟨-, nothing⟩ := serial.idle free
    rw [nothing, List.append_nil] at trace
    have shows : h.surface.Shows ((l.done.map (·.2)).getLastD []) := by
      rw [shows_surface, trace]
      exact Surface.shows_empty.passes _
    refine ⟨nothing, fun u file => ⟨shows u file, ?_⟩, fun u => ?_⟩
    · rw [shows u file, ← Plan.mem_documents, Plan.documents, Plan.mem_byDocument]
    · rw [state, Log.latest, Plan.documents, Plan.mem_byDocument]

/-- A host whose problem surface gives way before it takes a publication. -/
def slowSurface : Host where
  bench := { bundle := ⟨⟨"/b"⟩⟩ }
  script := { publishPauses := 1 }

def twoPasses : List (List Failure) :=
  [[(Failure.new "error" "old").locate ⟨"/a"⟩ 0 0], [(Failure.new "warning" "new").locate ⟨"/c"⟩ 1 2]]

/-- The second pass comes while the first one publishes. -/
def overlap : List (Nat × Nat) := [(1, 4), (2, 1), (1, 4), (2, 3), (2, 4), (2, 4)]

/-- The failure of the first pass is taken back by the second one, which had to wait. -/
theorem reconciled_by_last_pass_overlap :
    ∃ (h : Host) (order : List Nat), (slowSurface.startPasses 0 (twoPasses.map some)).run?
        (turns overlap) = some h ∧ order.Nodup ∧ (∀ k < 2, k ∈ order) ∧
      h.filePublications = Plan.publications [] (failuresOf twoPasses order) ∧
      ∀ u, u.isFile = true →
        h.surface u = Failure.diagnosticsOf ((failuresOf twoPasses order).getLastD []) u := by
  have reached : ((slowSurface.startPasses 0 (twoPasses.map some)).run? (turns overlap)).any
      (fun h => !(h.reconciler 0).held && (h.hasFinished 1 && h.hasFinished 2)) = true := by
    decide +kernel
  obtain ⟨h, run, holds⟩ := (Option.any_eq_true _ _).1 reached
  simp only [Bool.and_eq_true, Bool.not_eq_true'] at holds
  obtain ⟨free, first, second⟩ := holds
  have fits : ∀ m ∈ turns overlap, m.IsPass 1 2 := by decide
  obtain ⟨order, holder, shown, once, finished, trace, -, -, -, settled⟩ :=
    reconciled_by_last_pass rfl rfl twoPasses run fits
  obtain ⟨rfl, shows, -⟩ := settled free
  rw [List.append_nil] at trace
  refine ⟨h, order, run, once, fun k inside => (finished k inside).2 ?_, trace,
    fun u file => (shows u file).1⟩
  match k, inside with
  | 0, _ => exact first
  | 1, _ => exact second

end ModelWorkspace.Host
