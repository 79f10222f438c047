import Mathlib.Data.List.Perm.Basic
import ModelWorkspace.Proofs.Pass.Serial

/-! Runs of passes on one reconciler. The passes are started at any time, everyone gets the next turn
in any order, settings are written, the partners change their answers, and others publish where they
do not report failures. -/
namespace ModelWorkspace.Host

/-- A move of the passes, or one that does not concern files. -/
def Move.IsPass (first count : Nat) : Move → Prop
  | .resume id => ∃ k < count, id = first + k
  | .publish p => p.uri.isFile = false
  | .work | .write .. | .rescript _ | .regroup .. => True

instance (first count : Nat) : (m : Move) → Decidable (m.IsPass first count)
  | .resume id => inferInstanceAs (Decidable (∃ k < count, id = first + k))
  | .publish p => inferInstanceAs (Decidable (p.uri.isFile = false))
  | .work | .write .. | .rescript _ | .regroup .. => .isTrue trivial

def Move.isRegroup : Move → Bool
  | .regroup .. => true
  | _ => false

/-- What comes of a move, where only the task whose turn it is brings anything about. -/
def comesOf (event : Host → Option Arrival) (h : Host) : Move → List Arrival
  | .work => (event h).toList
  | _ => []

/-- What comes of moves, one after the other. -/
def history (event : Host → Option Arrival) (h : Host) : List Move → List Arrival
  | [] => []
  | m :: rest =>
    match h.move? m with
    | some k => comesOf event h m ++ history event k rest
    | none => []

theorem history_concat (event : Host → Option Arrival) {start h k : Host} {moves : List Move}
    {m : Move} (run : start.run? moves = some h) (move : h.move? m = some k) :
    history event start (moves ++ [m]) = history event start moves ++ comesOf event h m := by
  induction moves generalizing start with
  | nil =>
    obtain rfl : start = h := by simpa using run
    simp [history, move]
  | cons first rest ih =>
    rw [run?, List.foldlM_cons, Option.bind_eq_bind, Option.bind_eq_some_iff] at run
    obtain ⟨mid, moved, run⟩ := run
    simp only [List.cons_append, history, moved, ih run, List.append_assoc]

theorem exists_perm_of_map {queue : List Arrival} {waiting : List Nat}
    (same : waiting.Perm (queue.map (·.1))) :
    ∃ regrouped : List Arrival, regrouped.Perm queue ∧ regrouped.map (·.1) = waiting := by
  generalize ids : queue.map (·.1) = old at same
  induction same generalizing queue with
  | nil => exact ⟨queue, .refl _, ids⟩
  | cons id _ ih =>
    obtain ⟨a, rest, rfl, rfl, rfl⟩ := List.map_eq_cons_iff.1 ids
    obtain ⟨regrouped, perm, same⟩ := ih rfl
    exact ⟨a :: regrouped, perm.cons a, by rw [List.map_cons, same]⟩
  | swap x y _ =>
    obtain ⟨a, others, rfl, rfl, ids'⟩ := List.map_eq_cons_iff.1 ids
    obtain ⟨b, rest, rfl, rfl, rfl⟩ := List.map_eq_cons_iff.1 ids'
    exact ⟨b :: a :: rest, .swap a b rest, rfl⟩
  | trans _ _ first second =>
    obtain ⟨middle, perm, same⟩ := second ids
    obtain ⟨regrouped, perm', same'⟩ := first same
    exact ⟨regrouped, perm'.trans perm, same'⟩

section Moves

variable {r first : Nat} {passes : List (Option (List Failure))} {before : List Failure}
  {past : List Publication} {h k : Host} {l : Log}

/-- What happens to neither the reconciler nor the passes makes no difference to the log. -/
theorem Serial.elsewhere (serial : Serial r first passes before past h l)
    (reconciler : k.reconcilers[r]? = h.reconcilers[r]?)
    (published : k.filePublications = h.filePublications) (tasks : k.tasks = h.tasks)
    (turn : ∀ id, k.running = some id →
      id ∉ l.queue.map (·.1) ∧ ∃ k o, id = first + k ∧ passes[k]? = some o) :
    Serial r first passes before past k l where
  reconciler := reconciler.trans serial.reconciler
  trace := published.trans serial.trace
  idle := serial.idle
  different := serial.different
  calls := serial.calls
  given := serial.given
  turn := turn
  place := by
    rw [tasks]
    exact serial.place

theorem Serial.regroup (serial : Serial r first passes before past h l) {reconciler : Nat}
    {waiting : List Nat} (idle : h.running = none)
    (regrouped : h.regroup? reconciler waiting = some k) :
    ∃ m, Serial r first passes before past k m ∧ m.called = l.called ∧
      m.arrivals.Perm l.arrivals := by
  unfold regroup? at regrouped
  split at regrouped
  · rename_i found
    split at regrouped
    · rename_i same
      cases regrouped
      by_cases here : reconciler = r
      · subst here
        obtain ⟨inside, -⟩ := List.getElem?_eq_some_iff.1 found
        obtain rfl := Option.some.inj (found.symm.trans serial.reconciler)
        obtain ⟨queue, perm, ids⟩ := exists_perm_of_map (List.isPerm_iff.1 same)
        have arrivals : Log.arrivals { l with queue } = l.done ++ l.holder.toList ++ queue := rfl
        have permuted : (Log.arrivals { l with queue }).Perm l.arrivals := perm.append_left _
        refine ⟨{ l with queue }, ⟨?_, serial.trace, fun none => ?_, ?_, serial.calls, ?_, ?_, ?_⟩, rfl,
          permuted⟩
        · refine (List.getElem?_set_self inside).trans ?_
          rw [ids]
          rfl
        · obtain ⟨empty, shown⟩ := serial.idle none
          rw [empty] at perm
          exact ⟨perm.eq_nil, shown⟩
        · exact (permuted.map _).nodup_iff.2 serial.different
        · exact fun a mem => serial.given a (permuted.mem_iff.1 mem)
        · intro id turn
          cases idle.symm.trans turn
        · intro i o pass
          obtain ⟨t, task, place⟩ := serial.place i o pass
          exact ⟨t, task, place.keep (Log.keeps_queue perm _)⟩
      · refine ⟨l, serial.elsewhere (List.getElem?_set_ne here) rfl rfl fun id turn => ?_, rfl,
          .refl _⟩
        cases idle.symm.trans turn
    · cases regrouped
  · cases regrouped

/-- The log that follows a move: with who calls the compiler, and with who comes to the reconciler,
in another order only if that is what the move is about. -/
structure Log.Follows (h : Host) (m : Move) (l l' : Log) : Prop where
  called : l'.called = l.called ++ comesOf calling? h m
  perm : l'.arrivals.Perm (l.arrivals ++ comesOf arriving? h m)
  same : m.isRegroup = false → l'.arrivals = l.arrivals ++ comesOf arriving? h m

/-- Every move is followed by the log. -/
theorem Serial.move (serial : Serial r first passes before past h l) {m : Move}
    (fits : m.IsPass first passes.length) (move : h.move? m = some k) :
    ∃ l', Serial r first passes before past k l' ∧ l.Follows h m l' := by
  have unchanged (serial' : Serial r first passes before past k l)
      (nothing : ∀ event, comesOf event h m = []) :
      ∃ l', Serial r first passes before past k l' ∧ l.Follows h m l' := by
    refine ⟨l, serial', ?_, ?_, fun _ => ?_⟩
    · rw [nothing, List.append_nil]
    · rw [nothing, List.append_nil]
    · rw [nothing, List.append_nil]
  cases m with
  | resume id =>
    obtain ⟨-, free, rfl⟩ := move?_resume move
    obtain ⟨j, inside, rfl⟩ := fits
    refine unchanged (serial.elsewhere rfl rfl rfl fun id turn => ?_) fun _ => rfl
    obtain rfl : first + j = id := by simpa using turn
    refine ⟨fun waits => ?_, j, passes[j], rfl, List.getElem?_eq_getElem inside⟩
    rw [isWaiting, List.any_eq_false] at free
    refine free _ (List.mem_of_getElem? serial.reconciler) ?_
    exact List.contains_iff_mem.2 waits
  | work =>
    obtain ⟨id, turn, rfl⟩ := move?_work move
    obtain ⟨l', serial', called, arrivals⟩ := serial.work turn
    exact ⟨l', serial', called, .of_eq arrivals, fun _ => arrivals⟩
  | write key value =>
    obtain ⟨idle, bench, -, rfl⟩ := move?_write move
    have made := alike_of_unscheduled (unscheduled_withBench h bench)
    refine unchanged (serial.elsewhere ?_ ?_ made.tasks fun id turn => ?_) fun _ => rfl
    · rw [made.reconcilers]
      rfl
    · rw [filePublications, made.published]
      rfl
    · cases idle.symm.trans (made.running.symm.trans turn)
  | rescript script =>
    obtain ⟨idle, rfl⟩ := move?_rescript move
    refine unchanged (serial.elsewhere rfl rfl rfl fun id turn => ?_) fun _ => rfl
    cases idle.symm.trans turn
  | publish p =>
    obtain ⟨idle, rfl⟩ := move?_publish move
    refine unchanged (serial.elsewhere rfl ?_ rfl fun id turn => ?_) fun _ => rfl
    · refine (inFiles_concat h.published ⟨h.clock, p⟩).trans (if_neg ?_)
      rw [fits]
      exact Bool.false_ne_true
    · cases idle.symm.trans turn
  | regroup reconciler waiting =>
    obtain ⟨idle, regrouped⟩ := move?_regroup move
    obtain ⟨l', serial', called, perm⟩ := serial.regroup idle regrouped
    have nothing (event : Host → Option Arrival) :
        comesOf event h (.regroup reconciler waiting) = [] := rfl
    refine ⟨l', serial', ?_, ?_, fun fifo => by cases fifo⟩
    · rw [nothing, List.append_nil, called]
    · rw [nothing, List.append_nil]
      exact perm

/-- Every run is followed by the log: the passes hold the reconciler in the order in which they come,
or in the one in which they are told to wait. -/
theorem Serial.run {start : Host} (serial : Serial r first passes before past start {}) :
    ∀ moves h, start.run? moves = some h → (∀ m ∈ moves, m.IsPass first passes.length) →
      ∃ l, Serial r first passes before past h l ∧ l.called = history calling? start moves ∧
        l.arrivals.Perm (history arriving? start moves) ∧
        ((∀ m ∈ moves, m.isRegroup = false) → l.arrivals = history arriving? start moves) := by
  refine run_induction ?_ fun moves h m k run ih move fits => ?_
  · intro _
    exact ⟨{}, serial, rfl, .refl _, fun _ => rfl⟩
  · obtain ⟨l, serial, called, perm, same⟩ := ih fun m mem => fits m (List.mem_append_left _ mem)
    have last := List.mem_append_right moves (List.mem_singleton_self m)
    obtain ⟨l', serial', follows⟩ := serial.move (fits m last) move
    rw [history_concat _ run move, history_concat _ run move]
    refine ⟨l', serial', ?_, follows.perm.trans (perm.append_right _), fun fifo => ?_⟩
    · rw [follows.called, called]
    · rw [follows.same (fifo m last), same fun m mem => fifo m (List.mem_append_left _ mem)]

end Moves

/-- Adds the tasks of passes, each of which can begin at any time from now on. -/
def startPasses (h : Host) (r : Nat) (passes : List (Option (List Failure))) : Host :=
  (passes.foldl (fun h o => h.addTask (.routine [passStart r o])) h).suspend

theorem startPasses_alike (h : Host) (r : Nat) (passes : List (Option (List Failure))) :
    (h.startPasses r passes).Alike
      { h with
        tasks := h.tasks ++ passes.map fun o => .routine [passStart r o]
        running := none } := by
  unfold startPasses
  induction passes generalizing h with
  | nil =>
    refine ⟨rfl, rfl, rfl, ?_, rfl, rfl, rfl, rfl⟩
    exact (List.append_nil h.tasks).symm
  | cons o rest ih =>
    have added := alike_of_unscheduled (unscheduled_addTask h (.routine [passStart r o]))
    refine (ih (h.addTask (.routine [passStart r o]))).trans ⟨added.bench, added.script, added.clock,
      ?_, rfl, added.tokens, added.reconcilers, added.published⟩
    change (h.addTask _).tasks ++ _ = _
    rw [added.tasks, List.append_assoc]
    rfl

theorem serial_startPasses {h : Host} {r : Nat} {before : List Failure}
    (free : h.reconcilers[r]? = some { snapshot := Plan.documents before })
    (passes : List (Option (List Failure))) :
    Serial r h.tasks.length passes before h.filePublications (h.startPasses r passes) {} := by
  have started := startPasses_alike h r passes
  refine ⟨?_, ?_, fun _ => ⟨rfl, rfl⟩, List.nodup_nil, ⟨List.nodup_nil, nofun⟩, nofun,
    fun id turn => ?_, fun j o pass => ?_⟩
  · rw [started.reconcilers]
    exact free
  · rw [filePublications, started.published]
    simp [filePublications]
  · cases started.running.symm.trans turn
  · refine ⟨_, ?_, .early List.not_mem_nil (early_passStart r _ o)⟩
    rw [started.tasks, List.getElem?_append_right (Nat.le_add_right ..), Nat.add_sub_cancel_left,
      List.getElem?_map, pass]
    rfl

end ModelWorkspace.Host
