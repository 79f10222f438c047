import ModelWorkspace.Proofs.Pass.Reconciled
import ModelWorkspace.Proofs.Project.Declaring

/-! Passes that ask the compiler. None of them is called off when a later one begins, and each waits
for its own answer before it comes to the reconciler. So the answers are taken in the order in which
they come, and once all passes are over the editor shows the one that came last, which need not be the
answer to the pass that asked last. -/
namespace ModelWorkspace.Host

section Places

variable {r first count : Nat} {passes : List (Option (List Failure))} {before : List Failure}
  {past : List Publication} {h : Host} {l : Log}

/-- A pass that has finished came to the reconciler, or it never called the compiler. -/
theorem Serial.done_or_missed (serial : Serial r first passes before past h l) {j : Nat}
    {o : Option (List Failure)} (pass : passes[j]? = some o)
    (finished : h.hasFinished (first + j) = true) :
    (∃ failures, (first + j, failures) ∈ l.done) ∨
      (first + j ∉ l.tasks ∧ ∀ failures, (first + j, failures) ∉ l.called) := by
  obtain ⟨t, task, place⟩ := serial.place j o pass
  rw [hasFinished, task, Option.any_some] at finished
  cases place with
  | early _ early => cases early <;> cases finished
  | missed fresh _ uncalled _ => exact .inr ⟨fresh, uncalled⟩
  | waiting _ | planning _ _ => cases finished
  | @publishing _ body _ _ _ => cases body <;> cases finished
  | done mem _ => exact .inl ⟨_, mem⟩

theorem Serial.settled (serial : Serial r first passes before past h l)
    (finished : ∀ k < passes.length, h.hasFinished (first + k) = true) :
    l.holder = none ∧ l.arrivals = l.done := by
  have isDone {a : Arrival} (mem : a ∈ l.arrivals) : a.1 ∈ l.done.map (·.1) := by
    obtain ⟨k, o, seat, pass, -⟩ := serial.given a mem
    obtain ⟨inside, -⟩ := List.getElem?_eq_some_iff.1 pass
    obtain ⟨failures, done⟩ | ⟨fresh, -⟩ := serial.done_or_missed pass (finished k inside)
    · exact List.mem_map.2 ⟨_, done, seat.symm⟩
    · rw [← seat] at fresh
      exact absurd (List.mem_map_of_mem mem) fresh
  have free : l.holder = none := by
    refine Option.eq_none_iff_forall_ne_some.2 fun a holds => ?_
    exact (Log.holder_apart serial.different holds).1 (isDone (by simp [Log.arrivals, holds]))
  refine ⟨free, ?_⟩
  rw [Log.arrivals, free, (serial.idle free).1, Option.toList_none, List.append_nil, List.append_nil]

/-- Once all passes have finished, those that called the compiler are those that came to the
reconciler, each with its own answer. -/
theorem Serial.arrivals_perm_called
    (serial : Serial r first (List.replicate count none) before past h l)
    (finished : ∀ k < count, h.hasFinished (first + k) = true) : l.arrivals.Perm l.called := by
  have asked {k : Nat} {o : Option (List Failure)} (pass : (List.replicate count none)[k]? = some o) :
      k < count ∧ o = none := by
    obtain ⟨inside, rfl⟩ := List.getElem?_eq_some_iff.1 pass
    exact ⟨by simpa using inside, List.getElem_replicate _⟩
  have answered {a : Arrival} (mem : a ∈ l.arrivals) : a ∈ l.called := by
    obtain ⟨k, o, -, pass, own⟩ := serial.given a mem
    obtain ⟨-, rfl⟩ := asked pass
    exact own
  have came {a : Arrival} (mem : a ∈ l.called) : a ∈ l.arrivals := by
    obtain ⟨k, seat, pass⟩ := serial.calls.2 a mem
    obtain ⟨failures, done⟩ | ⟨-, uncalled⟩ :=
      serial.done_or_missed pass (finished k (asked pass).1)
    · -- A pass calls the compiler once, so this is its answer.
      have here : (first + k, failures) ∈ l.arrivals :=
        List.mem_append_left _ (List.mem_append_left _ done)
      rw [List.inj_on_of_nodup_map serial.calls.1 mem (answered here) seat]
      exact here
    · exact absurd (seat ▸ mem) (uncalled a.2)
  refine (List.perm_ext_iff_of_nodup ?_ ?_).2 fun a => ⟨answered, came⟩
  · exact List.Nodup.of_map _ serial.different
  · exact List.Nodup.of_map _ serial.calls.1

end Places

/-- Passes that ask the compiler, in any order of turns and with any answers. Once all of them have
finished, those whose answers came are those that had called the compiler; in files the editor shows
the answer that came last, and the reconciler keeps the files with failures of that answer. If nobody
called the compiler, all is as it was. -/
theorem shows_last_answer {start : Host} {r : Nat} {before : List Failure}
    (free : start.reconcilers[r]? = some { snapshot := Plan.documents before })
    (shows : start.surface.Shows before) (count : Nat) {moves : List Move} {h : Host}
    (run : (start.startPasses r (List.replicate count none)).run? moves = some h)
    (fits : ∀ m ∈ moves, m.IsPass start.tasks.length count)
    (fifo : ∀ m ∈ moves, m.isRegroup = false)
    (finished : ∀ k < count, h.hasFinished (start.tasks.length + k) = true) :
    let answers := history arriving? (start.startPasses r (List.replicate count none)) moves
    let last := (answers.map (·.2)).getLastD before
    answers.Perm (history calling? (start.startPasses r (List.replicate count none)) moves) ∧
      h.surface.Shows last ∧ (h.reconciler r).snapshot = Plan.documents last ∧
      (h.reconciler r).held = false := by
  obtain ⟨l, serial, called, -, inOrder⟩ :=
    (serial_startPasses free (List.replicate count none)).run moves h run (by simpa using fits)
  obtain ⟨nobody, all⟩ := serial.settled (by simpa using finished)
  have perm := serial.arrivals_perm_called finished
  rw [called, inOrder fifo] at perm
  rw [inOrder fifo] at all
  have state := serial.reconciler
  have trace := serial.trace
  rw [nobody, Log.latest, ← all] at state
  rw [(serial.idle nobody).2, List.append_nil, ← all] at trace
  refine ⟨perm, ?_, ?_, ?_⟩
  · rw [shows_surface, trace, Surface.publishAll_append]
    exact (shows_surface.1 shows).passes _
  · rw [reconciler, state, Option.getD_some]
  · rw [reconciler, state, Option.getD_some, Option.isSome_none]

/-- A workspace with a core model that fits the default platform. -/
def coreModel : Host where
  bench := {
    files := {
      entries := [(["p"], FileTree.newFolder),
        (["p", "package.json"], Project.packageEntry "Ed-Fi" "4.0.0")] }
    folders := ⟨some [⟨"p", ⟨"/p"⟩, true⟩]⟩
    bundle := ⟨⟨"/b"⟩⟩ }

def slowAnswer (failure : Failure) : Script := { failures := [failure], lintDelay := 1 }

def oldFailure : Failure := (Failure.new "error" "old").locate ⟨"/p/old"⟩ 0 0

def newFailure : Failure := (Failure.new "error" "new").locate ⟨"/p/new"⟩ 0 0

/-- The second pass calls the compiler after the first one, and has its answer before it. -/
def overtaken : List Move :=
  .rescript (slowAnswer oldFailure) :: turns [(1, 2)] ++
    .rescript (slowAnswer newFailure) :: turns [(2, 2), (2, 7), (1, 10)]

/-- The answer to the first pass comes last and is shown. -/
theorem shows_last_answer_overtaken :
    ∃ h, (coreModel.startPasses 0 (List.replicate 2 none)).run? overtaken = some h ∧
      h.surface.Shows [oldFailure] ∧
      (h.reconciler 0).snapshot = Plan.documents [oldFailure] := by
  have reached : ((coreModel.startPasses 0 (List.replicate 2 none)).run? overtaken).any
      (fun h => h.hasFinished 1 && h.hasFinished 2) = true := by decide +kernel
  obtain ⟨h, run, holds⟩ := (Option.any_eq_true _ _).1 reached
  rw [Bool.and_eq_true] at holds
  have fits : ∀ m ∈ overtaken, m.IsPass 1 2 := by decide
  have fifo : ∀ m ∈ overtaken, m.isRegroup = false := by decide
  have answers : history arriving? (coreModel.startPasses 0 (List.replicate 2 none)) overtaken =
      [(2, [newFailure]), (1, [oldFailure])] := by decide +kernel
  have finished : ∀ k < 2, h.hasFinished (1 + k) = true := fun k inside => by
    match k, inside with
    | 0, _ => exact holds.1
    | 1, _ => exact holds.2
  have free : coreModel.reconcilers[0]? = some { snapshot := Plan.documents [] } := rfl
  obtain ⟨-, shows, snapshot, -⟩ :=
    shows_last_answer free Surface.shows_empty 2 run fits fifo finished
  rw [answers] at shows snapshot
  exact ⟨h, run, shows, snapshot⟩

/-- The answer to the pass that called the compiler last is not shown any more, though it is the
newer one. -/
theorem newest_pass_is_overtaken :
    ∃ h, (coreModel.startPasses 0 (List.replicate 2 none)).run? overtaken = some h ∧
      h.hasFinished 1 = true ∧ h.hasFinished 2 = true ∧
      (history calling? (coreModel.startPasses 0 (List.replicate 2 none)) overtaken).getLast? =
        some (2, [newFailure]) ∧
      ¬ h.surface.Shows [newFailure] ∧
      (h.reconciler 0).snapshot ≠ Plan.documents [newFailure] := by
  have reached : ((coreModel.startPasses 0 (List.replicate 2 none)).run? overtaken).any
      (fun h => (h.hasFinished 1 && h.hasFinished 2) &&
        ((h.reconciler 0).snapshot != Plan.documents [newFailure] &&
          newFailure.uri?.any fun u => u.isFile &&
            h.surface u != Failure.diagnosticsOf [newFailure] u)) = true := by decide +kernel
  obtain ⟨h, run, holds⟩ := (Option.any_eq_true _ _).1 reached
  simp only [Bool.and_eq_true, bne_iff_ne, Option.any_eq_true] at holds
  obtain ⟨⟨first, second⟩, snapshot, u, -, file, hidden⟩ := holds
  exact ⟨h, run, first, second, by decide +kernel, fun shows => hidden (shows u file), snapshot⟩

end ModelWorkspace.Host
