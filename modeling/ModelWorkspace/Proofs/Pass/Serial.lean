import ModelWorkspace.Proofs.Host.Moves
import ModelWorkspace.Proofs.Pass.Log
import ModelWorkspace.Proofs.Pass.Stages
import ModelWorkspace.Proofs.Problem.Surface

/-! Passes on one reconciler, in any order of turns. `Host.Serial` ties the host to a log of the passes:
which part of the log a pass stands in can be read off its stages, the reconciler keeps the documents
of the latest pass, and what was published in files is what the passes of the log have published, one
after the other. Every move keeps this, with the log that follows. -/
namespace ModelWorkspace.Host

/-- Whether nothing is left for a task to do. -/
def Task.isOver : Task → Bool
  | .routine [] | .ended => true
  | _ => false

/-- What the stage publishes, itself or by the stages that it calls for. -/
def Stage.delivered : Stage → List Publication
  | .publish p | .record p => [p]
  | _ => []

def Stage.isDelivery : Stage → Bool
  | .pause | .sleep _ | .publish _ | .record _ => true
  | _ => false

/-- The first stage of a pass: to call the compiler, or to come to the reconciler with failures. -/
def passStart (r : Nat) : Option (List Failure) → Stage
  | none => .lint r
  | some failures => .reconcile r failures

/-- The stages of a pass that has not come to the reconciler yet. -/
inductive Early (r : Nat) (called : List Arrival) (id : Nat) :
    Option (List Failure) → List Stage → Prop
  | lint (fresh : ∀ failures, (id, failures) ∉ called) : Early r called id none [.lint r]
  | answered {ms : Nat} {failures : List Failure} (calls : (id, failures) ∈ called) :
      Early r called id none [.sleep ms, .reconcile r failures]
  | returned {failures : List Failure} (calls : (id, failures) ∈ called) :
      Early r called id none [.reconcile r failures]
  | given {failures : List Failure} : Early r called id (some failures) [.reconcile r failures]

theorem Early.congr {r : Nat} {called called' : List Arrival} {id : Nat} {o : Option (List Failure)}
    {stages : List Stage} (early : Early r called id o stages)
    (same : ∀ failures, (id, failures) ∈ called' ↔ (id, failures) ∈ called) :
    Early r called' id o stages := by
  cases early with
  | lint fresh => exact .lint fun failures => mt (same failures).1 (fresh failures)
  | answered calls => exact .answered ((same _).2 calls)
  | returned calls => exact .returned ((same _).2 calls)
  | given => exact .given

theorem early_passStart (r id : Nat) (o : Option (List Failure)) :
    Early r [] id o [passStart r o] := by
  cases o with
  | none => exact .lint fun _ => List.not_mem_nil
  | some failures => exact .given

/-- Where a pass stands, as the log has it, and what its task has still to do. -/
inductive Place (r : Nat) (before : List Failure) (o : Option (List Failure)) (l : Log) (id : Nat) :
    Task → Prop
  | early {stages : List Stage} (fresh : id ∉ l.tasks) (early : Early r l.called id o stages) :
      Place r before o l id (.routine stages)
  | missed {t : Task} (fresh : id ∉ l.tasks) (lints : o = none)
      (uncalled : ∀ failures, (id, failures) ∉ l.called) (ends : t.isOver = true) :
      Place r before o l id t
  | waiting {failures : List Failure} (waits : (id, failures) ∈ l.queue) :
      Place r before o l id (.routine [.publishAll r failures])
  | planning {failures : List Failure} (holds : l.holder = some (id, failures))
      (nothing : l.shown = []) : Place r before o l id (.routine [.publishAll r failures])
  | publishing {failures : List Failure} {body : List Stage}
      (holds : l.holder = some (id, failures)) (delivery : ∀ s ∈ body, s.isDelivery = true)
      (rest : l.shown ++ body.flatMap Stage.delivered =
        (Plan.of failures (Plan.documents (l.latest before))).operations) :
      Place r before o l id (.routine (body ++
        [.finishPass r (Plan.of failures (Plan.documents (l.latest before)))]))
  | done {failures : List Failure} {t : Task} (mem : (id, failures) ∈ l.done)
      (ends : t.isOver = true) : Place r before o l id t

/-- A pass that the log keeps stands where it stood, or holds the reconciler now. -/
theorem Place.keep {r : Nat} {before : List Failure} {o : Option (List Failure)} {l m : Log}
    {id : Nat} {t : Task} (place : Place r before o l id t) (keeps : l.Keeps m id) :
    Place r before o m id t := by
  cases place with
  | early fresh early => exact .early (mt keeps.tasks.1 fresh) (early.congr keeps.called)
  | missed fresh lints uncalled ends =>
    exact .missed (mt keeps.tasks.1 fresh) lints
      (fun failures => mt (keeps.called failures).1 (uncalled failures)) ends
  | waiting waits =>
    obtain still | ⟨holds, nothing⟩ := keeps.queue _ waits
    · exact .waiting still
    · exact .planning holds nothing
  | planning holds nothing =>
    obtain ⟨holds, shown, -⟩ := keeps.holder _ holds
    exact .planning holds (shown.trans nothing)
  | publishing holds delivery rest =>
    obtain ⟨holds, shown, done⟩ := keeps.holder _ holds
    have latest : m.latest before = l.latest before := by rw [Log.latest, done, Log.latest]
    rw [← latest]
    refine .publishing holds delivery ?_
    rw [shown, latest]
    exact rest
  | done mem ends => exact .done (keeps.done _ mem) ends

def inFiles (published : List (Timed Publication)) : List Publication :=
  (published.map (·.value)).filter (·.uri.isFile)

theorem inFiles_concat (published : List (Timed Publication)) (p : Timed Publication) :
    inFiles (published ++ [p]) =
      if p.value.uri.isFile then inFiles published ++ [p.value] else inFiles published := by
  rw [inFiles, List.map_append, List.filter_append]
  cases file : p.value.uri.isFile <;> simp [file, inFiles]

/-- What the host has published in files. -/
def filePublications (h : Host) : List Publication := inFiles h.published

/-- A pass comes with the failures that it was started with, or with those that the compiler has
answered. -/
def ComesWith (called : List Arrival) (a : Arrival) : Option (List Failure) → Prop
  | some failures => a.2 = failures
  | none => a ∈ called

/-- The passes work on the reconciler as the log says, after a pass with the failures before. -/
structure Serial (r first : Nat) (passes : List (Option (List Failure))) (before : List Failure)
    (past : List Publication) (h : Host) (l : Log) : Prop where
  reconciler : h.reconcilers[r]? =
    some ⟨Plan.documents (l.latest before), l.holder.isSome, l.queue.map (·.1)⟩
  trace : h.filePublications =
    past ++ Plan.publications before (l.done.map (·.2)) ++ l.shown
  idle : l.holder = none → l.IsIdle
  different : l.tasks.Nodup
  calls : (l.called.map (·.1)).Nodup ∧
    ∀ a ∈ l.called, ∃ k, a.1 = first + k ∧ passes[k]? = some none
  given : ∀ a ∈ l.arrivals, ∃ k o, a.1 = first + k ∧ passes[k]? = some o ∧ ComesWith l.called a o
  turn : ∀ id, h.running = some id →
    id ∉ l.queue.map (·.1) ∧ ∃ k o, id = first + k ∧ passes[k]? = some o
  place : ∀ k o, passes[k]? = some o →
    ∃ t, h.tasks[first + k]? = some t ∧ Place r before o l (first + k) t

section Turns

variable {r first : Nat} {passes : List (Option (List Failure))} {before : List Failure}
  {past : List Publication} {h k : Host} {l : Log}

/-- The places of all passes, after one of them has done something. -/
theorem Serial.places {m : Log} (serial : Serial r first passes before past h l) {j : Nat}
    {o : Option (List Failure)} (pass : passes[j]? = some o) {t : Task}
    (tasks : k.tasks = h.tasks.set (first + j) t) (place : Place r before o m (first + j) t)
    (keeps : ∀ id, id ≠ first + j → l.Keeps m id) :
    ∀ i o, passes[i]? = some o →
      ∃ t, k.tasks[first + i]? = some t ∧ Place r before o m (first + i) t := by
  intro i o' pass'
  obtain ⟨t', task, stands⟩ := serial.place i o' pass'
  rw [tasks]
  by_cases same : i = j
  · subst same
    obtain rfl : o' = o := by simpa [pass] using pass'.symm
    obtain ⟨inside, -⟩ := List.getElem?_eq_some_iff.1 task
    exact ⟨t, List.getElem?_set_self inside, place⟩
  · have other : first + i ≠ first + j := fun seats => same (Nat.add_left_cancel seats)
    exact ⟨t', (List.getElem?_set_ne other.symm).trans task, stands.keep (keeps _ other)⟩

/-- A pass that changes neither the reconciler nor what was published goes on in its place. -/
theorem Serial.advance (serial : Serial r first passes before past h l) {j : Nat}
    {o : Option (List Failure)} (pass : passes[j]? = some o) {t : Task} {running : Option Nat}
    (still : running = h.running ∨ running = none)
    (left : k.Alike { h.setTask (first + j) t with running })
    (place : Place r before o l (first + j) t) : Serial r first passes before past k l where
  reconciler := left.reconcilers ▸ serial.reconciler
  trace := by
    rw [filePublications, left.published]
    exact serial.trace
  idle := serial.idle
  different := serial.different
  calls := serial.calls
  given := serial.given
  turn := fun id turn => by
    rw [left.running] at turn
    obtain rfl | rfl := still
    · exact serial.turn id turn
    · cases turn
  place := serial.places pass left.tasks place fun _ _ =>
    ⟨fun _ => Iff.rfl, Iff.rfl, fun _ mem => mem, fun _ holds => ⟨holds, rfl, rfl⟩,
      fun _ mem => .inl mem⟩

theorem Serial.quiet (serial : Serial r first passes before past h l) {j : Nat}
    {o : Option (List Failure)} (pass : passes[j]? = some o) {s : Stage} {rest : List Stage}
    (task : h.tasks[first + j]? = some (.routine (s :: rest)))
    (same : (h.perform (first + j) s).1.Alike h)
    (place : Place r before o l (first + j)
      (.routine ((h.perform (first + j) s).2.stages ++ rest))) :
    Serial r first passes before past (h.work (first + j)) l := by
  have left := work_routine task
  have still : (if (h.perform (first + j) s).2.keepsTurn then h.running else none) = h.running ∨
      (if (h.perform (first + j) s).2.keepsTurn then h.running else none) = none := by
    split
    · exact .inl rfl
    · exact .inr rfl
  refine serial.advance pass still (left.trans ⟨same.bench, same.script, same.clock, ?_, ?_,
    same.tokens, same.reconcilers, same.published⟩) place
  · change (h.perform (first + j) s).1.tasks.set _ _ = h.tasks.set _ _
    rw [same.tasks]
  · change (if _ then (h.perform (first + j) s).1.running else none) = if _ then h.running else none
    rw [same.running]

theorem Serial.ended (serial : Serial r first passes before past h l) {j : Nat}
    {o : Option (List Failure)} (pass : passes[j]? = some o) {t : Task} (ends : t.isOver = true)
    (task : h.tasks[first + j]? = some t)
    (place : ∀ t : Task, t.isOver = true → Place r before o l (first + j) t) :
    Serial r first passes before past (h.work (first + j)) l := by
  cases t with
  | routine stages =>
    cases stages with
    | nil =>
      obtain ⟨t, rfl | rfl, left⟩ := work_over task
      · exact serial.advance pass (.inr rfl) left (place _ rfl)
      · exact serial.advance pass (.inr rfl) left (place _ rfl)
    | cons s rest => cases ends
  | ended =>
    refine serial.advance pass (t := .ended) (.inr rfl) ((work_ended task).trans ?_) (place _ rfl)
    obtain ⟨inside, here⟩ := List.getElem?_eq_some_iff.1 task
    refine ⟨rfl, rfl, rfl, ?_, rfl, rfl, rfl, rfl⟩
    change h.tasks = h.tasks.set (first + j) .ended
    rw [← here, List.set_getElem_self]
  | follower _ _ _ | keeper _ _ _ => cases ends

section Arriving

variable {j : Nat} {o : Option (List Failure)} {failures : List Failure}

/-- A pass that comes was started, and comes with what is its own. -/
theorem Serial.given_arrive (serial : Serial r first passes before past h l)
    (pass : passes[j]? = some o) (own : ComesWith l.called (first + j, failures) o) :
    ∀ a ∈ (l.arrive (first + j, failures)).arrivals, ∃ k o, a.1 = first + k ∧
      passes[k]? = some o ∧ ComesWith (l.arrive (first + j, failures)).called a o := by
  intro a mem
  rw [Log.called_arrive]
  rw [Log.arrivals_arrive serial.idle, List.mem_append, List.mem_singleton] at mem
  obtain mem | rfl := mem
  · exact serial.given a mem
  · exact ⟨j, o, rfl, pass, own⟩

theorem Serial.arrive_free (serial : Serial r first passes before past h l) (free : l.holder = none)
    (pass : passes[j]? = some o)
    (task : h.tasks[first + j]? = some (.routine [.reconcile r failures]))
    (fresh : first + j ∉ l.tasks) (own : ComesWith l.called (first + j, failures) o) :
    Serial r first passes before past (h.work (first + j)) (l.arrive (first + j, failures)) := by
  have different := Log.nodup_arrive serial.idle (a := (first + j, failures)) serial.different fresh
  have given := serial.given_arrive pass own
  have keeps (id : Nat) (other : id ≠ first + j) : l.Keeps (l.arrive (first + j, failures)) id :=
    Log.keeps_arrive serial.idle other
  obtain ⟨inside, -⟩ := List.getElem?_eq_some_iff.1 serial.reconciler
  obtain ⟨waits, shown⟩ := serial.idle free
  have state := serial.reconciler
  rw [free] at state
  have left := work_routine task
  rw [perform_reconcile_free state rfl] at left
  rw [Log.arrive_of_free free] at different given keeps ⊢
  refine ⟨?_, ?_, ?_, different, serial.calls, given, ?_, ?_⟩
  · rw [left.reconcilers]
    exact List.getElem?_set_self inside
  · rw [filePublications, left.published]
    exact serial.trace
  · intro none
    cases none
  · intro id turn
    rw [left.running] at turn
    exact serial.turn id turn
  · exact serial.places pass left.tasks (.planning rfl shown) keeps

theorem Serial.arrive_held (serial : Serial r first passes before past h l) {b : Arrival}
    (held : l.holder = some b) (pass : passes[j]? = some o)
    (task : h.tasks[first + j]? = some (.routine [.reconcile r failures]))
    (fresh : first + j ∉ l.tasks) (own : ComesWith l.called (first + j, failures) o) :
    Serial r first passes before past (h.work (first + j)) (l.arrive (first + j, failures)) := by
  have different := Log.nodup_arrive serial.idle (a := (first + j, failures)) serial.different fresh
  have given := serial.given_arrive pass own
  have keeps (id : Nat) (other : id ≠ first + j) : l.Keeps (l.arrive (first + j, failures)) id :=
    Log.keeps_arrive serial.idle other
  obtain ⟨inside, -⟩ := List.getElem?_eq_some_iff.1 serial.reconciler
  have state := serial.reconciler
  rw [held] at state
  have left := work_routine task
  rw [perform_reconcile_held state rfl] at left
  rw [Log.arrive_of_held held] at different given keeps ⊢
  refine ⟨?_, ?_, ?_, different, serial.calls, given, ?_, ?_⟩
  · rw [left.reconcilers, held, List.map_append]
    exact List.getElem?_set_self inside
  · rw [filePublications, left.published]
    exact serial.trace
  · intro none
    cases held.symm.trans none
  · intro id turn
    rw [left.running] at turn
    cases turn
  · have waits : (first + j, failures) ∈ l.queue ++ [(first + j, failures)] :=
      List.mem_append_right _ (List.mem_singleton_self _)
    exact serial.places pass left.tasks (.waiting waits) keeps

theorem Serial.arrive (serial : Serial r first passes before past h l) (pass : passes[j]? = some o)
    (task : h.tasks[first + j]? = some (.routine [.reconcile r failures]))
    (fresh : first + j ∉ l.tasks) (own : ComesWith l.called (first + j, failures) o) :
    Serial r first passes before past (h.work (first + j)) (l.arrive (first + j, failures)) := by
  cases holder : l.holder with
  | none => exact serial.arrive_free holder pass task fresh own
  | some b => exact serial.arrive_held holder pass task fresh own

end Arriving

theorem Serial.record (serial : Serial r first passes before past h l) {j : Nat}
    {o : Option (List Failure)} (pass : passes[j]? = some o) {failures : List Failure}
    {p : Publication} {body : List Stage} (holds : l.holder = some (first + j, failures))
    (delivery : ∀ s ∈ body, s.isDelivery = true)
    (rest : l.shown ++ p :: body.flatMap Stage.delivered =
      (Plan.of failures (Plan.documents (l.latest before))).operations)
    (task : h.tasks[first + j]? = some (.routine (.record p :: (body ++
      [.finishPass r (Plan.of failures (Plan.documents (l.latest before)))])))) :
    Serial r first passes before past (h.work (first + j)) (l.publish p) := by
  have left := work_routine task
  have file : p.uri.isFile = true := by
    have mem : p ∈ (Plan.of failures (Plan.documents (l.latest before))).operations := by
      rw [← rest]
      exact List.mem_append_right _ (List.mem_cons_self ..)
    exact Plan.isFile_of_mem_operations mem
  refine ⟨?_, ?_, ?_, serial.different, serial.calls, serial.given, ?_, ?_⟩
  · rw [left.reconcilers]
    exact serial.reconciler
  · have published : (h.work (first + j)).filePublications = h.filePublications ++ [p] := by
      rw [filePublications, left.published]
      exact (inFiles_concat h.published ⟨h.clock, p⟩).trans (if_pos file)
    rw [published, serial.trace, List.append_assoc]
    rfl
  · intro none
    cases holds.symm.trans none
  · intro id turn
    rw [left.running] at turn
    exact serial.turn id turn
  · refine serial.places pass left.tasks ?_ fun id other => Log.keeps_publish holds other p
    refine .publishing (l := l.publish p) holds delivery ?_
    rw [Log.publish, List.append_assoc]
    exact rest

theorem Serial.finish (serial : Serial r first passes before past h l) {j : Nat}
    {o : Option (List Failure)} (pass : passes[j]? = some o) {failures : List Failure}
    (holds : l.holder = some (first + j, failures))
    (shown : l.shown = (Plan.of failures (Plan.documents (l.latest before))).operations)
    (task : h.tasks[first + j]? = some (.routine
      [.finishPass r (Plan.of failures (Plan.documents (l.latest before)))])) :
    Serial r first passes before past (h.work (first + j)) l.finish := by
  have left := (work_routine task)
  have state := serial.reconciler
  obtain ⟨inside, -⟩ := List.getElem?_eq_some_iff.1 state
  have ended := finishPass_alike state (first + j)
    (Plan.of failures (Plan.documents (l.latest before)))
  have latest := Log.latest_finish holds before
  refine ⟨?_, ?_, ?_, ?_, serial.calls, ?_, ?_, ?_⟩
  · rw [left.reconcilers, latest]
    change (h.finishPass (first + j) r _).reconcilers[r]? = _
    rw [ended.reconcilers]
    refine (List.getElem?_set_self inside).trans ?_
    cases queue : l.queue <;>
      simp [Reconciler.release, Reconciler.store, Log.finish, holds, queue]
  · have published : (h.work (first + j)).filePublications = h.filePublications := by
      rw [filePublications, left.published]
      exact congrArg inFiles ended.published
    rw [published, serial.trace, shown]
    simp only [Log.finish, holds, Option.toList_some, List.map_append, List.map_singleton,
      Plan.publications_concat, List.append_nil, List.append_assoc]
    rfl
  · intro none
    have empty : l.queue = [] := List.head?_eq_none_iff.1 none
    exact ⟨by simp [Log.finish, empty], rfl⟩
  · rw [Log.tasks, Log.arrivals_finish]
    exact serial.different
  · rw [Log.arrivals_finish]
    exact serial.given
  · intro id turn
    rw [left.running] at turn
    obtain ⟨apart, seat⟩ := serial.turn id (ended.running ▸ turn)
    refine ⟨fun mem => apart ?_, seat⟩
    obtain ⟨a, mem, same⟩ := List.mem_map.1 mem
    exact List.mem_map.2 ⟨a, List.mem_of_mem_tail mem, same⟩
  · have tasks : (h.work (first + j)).tasks = h.tasks.set (first + j) (.routine []) := by
      rw [left.tasks]
      change (h.finishPass (first + j) r _).tasks.set _ _ = _
      rw [ended.tasks]
      rfl
    refine serial.places pass tasks ?_ fun id other => Log.keeps_finish holds other
    have mem : (first + j, failures) ∈ l.finish.done := by simp [Log.finish, holds]
    exact .done mem rfl

theorem Serial.deliver (serial : Serial r first passes before past h l) {j : Nat}
    {o : Option (List Failure)} (pass : passes[j]? = some o) {failures : List Failure}
    {s : Stage} {body : List Stage} (holds : l.holder = some (first + j, failures))
    (delivery : ∀ t ∈ s :: body, t.isDelivery = true)
    (rest : l.shown ++ (s :: body).flatMap Stage.delivered =
      (Plan.of failures (Plan.documents (l.latest before))).operations)
    (task : h.tasks[first + j]? = some (.routine (s :: (body ++
      [.finishPass r (Plan.of failures (Plan.documents (l.latest before)))])))) :
    ∃ m, Serial r first passes before past (h.work (first + j)) m ∧ m.called = l.called ∧
      m.arrivals = l.arrivals := by
  have later : ∀ t ∈ body, t.isDelivery = true := fun t mem =>
    delivery t (List.mem_cons_of_mem _ mem)
  cases s with
  | pause => exact ⟨l, serial.quiet pass task (.refl h) (.publishing holds later rest), rfl, rfl⟩
  | sleep ms =>
    obtain ⟨same, stages⟩ := perform_sleep h (first + j) ms
    refine ⟨l, serial.quiet pass task same ?_, rfl, rfl⟩
    rw [stages]
    exact .publishing holds later rest
  | publish p =>
    refine ⟨l, serial.quiet pass task (.refl h) ?_, rfl, rfl⟩
    change Place r before o l (first + j) (.routine ((List.replicate h.script.publishPauses .pause ++
      [.sleep h.script.publishDelay, .record p]) ++ (body ++ _)))
    rw [← List.append_assoc]
    refine .publishing holds (fun t mem => ?_) ?_
    · simp only [List.mem_append, List.mem_replicate, List.mem_cons, List.not_mem_nil,
        or_false] at mem
      obtain (⟨-, rfl⟩ | rfl | rfl) | mem := mem
      · rfl
      · rfl
      · rfl
      · exact later t mem
    · have pauses : (List.replicate h.script.publishPauses Stage.pause).flatMap Stage.delivered = [] :=
        List.flatMap_eq_nil_iff.2 fun s mem => by rw [List.eq_of_mem_replicate mem]; rfl
      simpa [Stage.delivered, pauses] using rest
  | record p => exact ⟨l.publish p, serial.record pass holds later rest task, rfl, rfl⟩
  | _ => cases delivery _ (List.mem_cons_self ..)

/-- The pass that calls the compiler when the next thing is done, and what it will be answered. -/
def calling? (h : Host) : Option Arrival :=
  h.running.bind fun id =>
    match h.tasks[id]? with
    | some (.routine (.lint _ :: _)) =>
      if (Message.ofWorkbench h.bench).isOk then some (id, h.script.failures) else none
    | _ => none

/-- The pass that comes to its reconciler when the next thing is done. -/
def arriving? (h : Host) : Option Arrival :=
  h.running.bind fun id =>
    match h.tasks[id]? with
    | some (.routine (.reconcile _ failures :: _)) => some (id, failures)
    | _ => none

/-- Whether the stage neither calls the compiler nor comes to the reconciler. -/
def Stage.isSilent : Stage → Bool
  | .lint _ | .reconcile .. => false
  | _ => true

/-- Whether the next stage of the task, if there is one, is silent. -/
def Task.isSilent : Task → Bool
  | .routine (s :: _) => s.isSilent
  | _ => true

theorem Task.isSilent_of_isOver {t : Task} (ends : t.isOver = true) : t.isSilent = true := by
  cases t with
  | routine stages =>
    cases stages with
    | nil => rfl
    | cons s rest => cases ends
  | _ => rfl

/-- The later log has whoever calls the compiler now, and whoever comes to the reconciler. -/
structure Log.Learns (h : Host) (l m : Log) : Prop where
  called : m.called = l.called ++ h.calling?.toList
  arrivals : m.arrivals = l.arrivals ++ h.arriving?.toList

theorem learns_of_silent {m : Log} {id : Nat} {t : Task} (turn : h.running = some id)
    (task : h.tasks[id]? = some t) (silent : t.isSilent = true) (called : m.called = l.called)
    (arrivals : m.arrivals = l.arrivals) : l.Learns h m := by
  have calling : h.calling? = none := by
    simp only [calling?, turn, Option.bind_some, task]
    split
    · rename_i same
      cases Option.some.inj same
      cases silent
    · rfl
  have arriving : h.arriving? = none := by
    simp only [arriving?, turn, Option.bind_some, task]
    split
    · rename_i same
      cases Option.some.inj same
      cases silent
    · rfl
  constructor
  · rw [calling, called, Option.toList_none, List.append_nil]
  · rw [arriving, arrivals, Option.toList_none, List.append_nil]

theorem Serial.call (serial : Serial r first passes before past h l) {j : Nat}
    (pass : passes[j]? = some none) {message : Message}
    (ok : Message.ofWorkbench h.bench = .ok message) (fresh : first + j ∉ l.tasks)
    (uncalled : ∀ failures, (first + j, failures) ∉ l.called)
    (task : h.tasks[first + j]? = some (.routine [.lint r])) :
    Serial r first passes before past (h.work (first + j))
      (l.call (first + j, h.script.failures)) := by
  obtain ⟨same, stages⟩ := perform_lint_ok ok (first + j) r
  have left := work_routine task
  rw [stages] at left
  refine ⟨?_, ?_, serial.idle, serial.different, ⟨?_, ?_⟩, ?_, ?_, ?_⟩
  · rw [left.reconcilers]
    exact (congrArg (·[r]?) same.reconcilers).trans serial.reconciler
  · rw [filePublications, left.published]
    exact (congrArg inFiles same.published).trans serial.trace
  · rw [Log.call, List.map_append]
    refine List.nodup_append.2 ⟨serial.calls.1, List.pairwise_singleton _ _, ?_⟩
    rintro id mem _ last rfl
    obtain rfl := List.mem_singleton.1 last
    obtain ⟨⟨id, failures⟩, mem, rfl⟩ := List.mem_map.1 mem
    exact uncalled failures mem
  · intro a mem
    obtain mem | mem := List.mem_append.1 mem
    · exact serial.calls.2 a mem
    · obtain rfl := List.mem_singleton.1 mem
      exact ⟨j, rfl, pass⟩
  · intro a mem
    obtain ⟨k, o, seat, pass, own⟩ := serial.given a mem
    refine ⟨k, o, seat, pass, ?_⟩
    cases o with
    | none => exact List.mem_append_left _ own
    | some failures => exact own
  · intro id turn
    rw [left.running] at turn
    exact serial.turn id (same.running ▸ turn)
  · have tasks : (h.work (first + j)).tasks = h.tasks.set (first + j)
        (.routine [.sleep h.script.lintDelay, .reconcile r h.script.failures]) := by
      rw [left.tasks]
      change (h.perform (first + j) (.lint r)).1.tasks.set _ _ = _
      rw [same.tasks]
      rfl
    refine serial.places pass tasks ?_ fun id other => l.keeps_call other
    exact .early fresh (.answered (List.mem_append_right _ (List.mem_singleton_self _)))

/-- A pass that has just begun calls the compiler, or is over since it has no message. -/
theorem Serial.ask (serial : Serial r first passes before past h l) {j : Nat}
    (turn : h.running = some (first + j)) (pass : passes[j]? = some none)
    (fresh : first + j ∉ l.tasks) (uncalled : ∀ failures, (first + j, failures) ∉ l.called)
    (task : h.tasks[first + j]? = some (.routine [.lint r])) :
    ∃ m, Serial r first passes before past (h.work (first + j)) m ∧ l.Learns h m := by
  have arriving : h.arriving? = none := by
    simp only [arriving?, turn, Option.bind_some, task]
  have calling : h.calling? = if (Message.ofWorkbench h.bench).isOk then
      some (first + j, h.script.failures) else none := by
    simp only [calling?, turn, Option.bind_some, task]
  cases message : Message.ofWorkbench h.bench with
  | error e =>
    rw [message] at calling
    refine ⟨l, serial.quiet pass task ?_ ?_, ?_, ?_⟩
    · rw [perform_lint_error message]
      exact .refl h
    · rw [perform_lint_error message]
      exact .missed fresh rfl uncalled rfl
    · rw [calling]
      exact (List.append_nil _).symm
    · rw [arriving]
      exact (List.append_nil _).symm
  | ok m =>
    rw [message] at calling
    refine ⟨_, serial.call pass message fresh uncalled task, ?_, ?_⟩
    · rw [calling]
      rfl
    · rw [arriving]
      exact (List.append_nil _).symm

/-- A pass that has its failures comes to the reconciler. -/
theorem Serial.come (serial : Serial r first passes before past h l) {j : Nat}
    {o : Option (List Failure)} {failures : List Failure} (turn : h.running = some (first + j))
    (pass : passes[j]? = some o) (fresh : first + j ∉ l.tasks)
    (own : ComesWith l.called (first + j, failures) o)
    (task : h.tasks[first + j]? = some (.routine [.reconcile r failures])) :
    ∃ m, Serial r first passes before past (h.work (first + j)) m ∧ l.Learns h m := by
  have calling : h.calling? = none := by
    simp only [calling?, turn, Option.bind_some, task]
  have arriving : h.arriving? = some (first + j, failures) := by
    simp only [arriving?, turn, Option.bind_some, task]
  refine ⟨_, serial.arrive pass task fresh own, ?_, ?_⟩
  · rw [calling, Log.called_arrive, Option.toList_none, List.append_nil]
  · rw [arriving, Log.arrivals_arrive serial.idle, Option.toList_some]

/-- The pass that holds the reconciler plans what to publish, after the latest pass. -/
theorem Serial.plan (serial : Serial r first passes before past h l) {j : Nat}
    {o : Option (List Failure)} (pass : passes[j]? = some o) {failures : List Failure}
    (holds : l.holder = some (first + j, failures)) (nothing : l.shown = [])
    (task : h.tasks[first + j]? = some (.routine [.publishAll r failures])) :
    Serial r first passes before past (h.work (first + j)) l := by
  refine serial.quiet pass task (.refl h) ?_
  have plan : (h.reconciler r).plan failures =
      Plan.of failures (Plan.documents (l.latest before)) := by
    simp [Reconciler.plan, Host.reconciler, serial.reconciler]
  change Place r before o l (first + j) (.routine
    ((((h.reconciler r).plan failures).operations.map .publish ++
      [.finishPass r ((h.reconciler r).plan failures)]) ++ []))
  rw [plan, List.append_nil]
  refine .publishing holds (fun s mem => ?_) ?_
  · obtain ⟨p, -, rfl⟩ := List.mem_map.1 mem
    rfl
  · rw [nothing, List.flatMap_map]
    simp [Stage.delivered]

/-- The pass whose turn it is does one thing, and the log goes on with it. -/
theorem Serial.work (serial : Serial r first passes before past h l) {id : Nat}
    (turn : h.running = some id) :
    ∃ m, Serial r first passes before past (h.work id) m ∧ l.Learns h m := by
  obtain ⟨apart, j, o, rfl, pass⟩ := serial.turn id turn
  obtain ⟨t, task, place⟩ := serial.place j o pass
  have silently {m : Log} := learns_of_silent (l := l) (m := m) turn task
  cases place with
  | early fresh early =>
    cases early with
    | lint uncalled => exact serial.ask turn pass fresh uncalled task
    | @answered ms failures calls =>
      obtain ⟨same, stages⟩ := perform_sleep h (first + j) ms
      refine ⟨l, serial.quiet pass task same ?_, silently rfl rfl rfl⟩
      rw [stages]
      exact .early fresh (.returned calls)
    | returned calls => exact serial.come turn pass fresh calls task
    | given => exact serial.come turn pass fresh rfl task
  | missed fresh lints uncalled ends =>
    exact ⟨l, serial.ended pass ends task fun _ ends => .missed fresh lints uncalled ends,
      silently (Task.isSilent_of_isOver ends) rfl rfl⟩
  | waiting waits => exact absurd (List.mem_map_of_mem waits) apart
  | planning holds nothing =>
    exact ⟨l, serial.plan pass holds nothing task, silently rfl rfl rfl⟩
  | @publishing failures body holds delivery rest =>
    cases body with
    | nil =>
      have shown : l.shown = (Plan.of failures (Plan.documents (l.latest before))).operations := by
        simpa using rest
      exact ⟨_, serial.finish pass holds shown task, silently rfl l.called_finish l.arrivals_finish⟩
    | cons s body =>
      obtain ⟨m, serial', called, arrivals⟩ := serial.deliver pass holds delivery rest task
      refine ⟨m, serial', silently ?_ called arrivals⟩
      have own := delivery s (List.mem_cons_self ..)
      cases s <;> first | rfl | cases own
  | done mem ends =>
    exact ⟨l, serial.ended pass ends task fun _ ends => .done mem ends,
      silently (Task.isSilent_of_isOver ends) rfl rfl⟩

end Turns

end ModelWorkspace.Host
