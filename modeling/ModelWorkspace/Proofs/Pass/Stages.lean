import ModelWorkspace.Proofs.Host.Unscheduled

/-! What the stages of a pass do to the host. Most of them leave all but the schedule alone; the others
take the reconciler, give it back, or add to what was published. -/
namespace ModelWorkspace.Host

/-- A routine that does a stage. -/
theorem work_routine {h : Host} {id : Nat} {s : Stage} {rest : List Stage}
    (task : h.tasks[id]? = some (.routine (s :: rest))) :
    (h.work id).Alike
      { ((h.perform id s).1.setTask id (.routine ((h.perform id s).2.stages ++ rest))) with
        running := if (h.perform id s).2.keepsTurn then (h.perform id s).1.running else none } := by
  have works : h.work id =
      ((h.perform id s).1.setTask id (.routine ((h.perform id s).2.stages ++ rest))).pass id
        (h.perform id s).2 := by
    simp only [work, task, workRoutine]
  rw [works]
  have passed := alike_of_unscheduled (unscheduled_pass
    ((h.perform id s).1.setTask id (.routine ((h.perform id s).2.stages ++ rest))) id
    (h.perform id s).2)
  exact ⟨passed.bench, passed.script, passed.clock, passed.tasks, passed.running, passed.tokens,
    passed.reconcilers, passed.published⟩

theorem work_over {h : Host} {id : Nat} (task : h.tasks[id]? = some (.routine [])) :
    ∃ t, (t = .routine [] ∨ t = .ended) ∧
      (h.work id).Alike { h.setTask id t with running := none } := by
  have works : h.work id = if id = main then h.suspend else (h.endTask id).suspend := by
    simp only [work, task, workRoutine]
  rw [works]
  split
  · obtain ⟨inside, here⟩ := List.getElem?_eq_some_iff.1 task
    refine ⟨.routine [], .inl rfl, ?_⟩
    refine ⟨rfl, rfl, rfl, ?_, rfl, rfl, rfl, rfl⟩
    change h.tasks = h.tasks.set id (.routine [])
    rw [← here, List.set_getElem_self]
  · have ended := alike_of_unscheduled (unscheduled_endTask h id)
    exact ⟨.ended, .inr rfl, ended.bench, ended.script, ended.clock, ended.tasks, rfl, ended.tokens,
      ended.reconcilers, ended.published⟩

theorem work_ended {h : Host} {id : Nat} (task : h.tasks[id]? = some .ended) :
    (h.work id).Alike { h with running := none } := by
  have works : h.work id = h.suspend := by simp only [work, task]
  rw [works]
  exact .refl _

theorem perform_sleep (h : Host) (id ms : Nat) :
    (h.perform id (.sleep ms)).1.Alike h ∧ (h.perform id (.sleep ms)).2.stages = [] := by
  change (h.sleep id ms).1.Alike h ∧ (h.sleep id ms).2.stages = []
  unfold sleep
  split
  · exact ⟨.refl h, rfl⟩
  · exact ⟨⟨rfl, rfl, rfl, rfl, rfl, rfl, rfl, rfl⟩, rfl⟩

theorem perform_lint_error {h : Host} {e : MessageError}
    (message : Message.ofWorkbench h.bench = .error e) (id r : Nat) :
    h.perform id (.lint r) = (h, .next []) := by
  simp only [perform, lint, message]

theorem perform_lint_ok {h : Host} {m : Message} (message : Message.ofWorkbench h.bench = .ok m)
    (id r : Nat) :
    (h.perform id (.lint r)).1.Alike h ∧
      (h.perform id (.lint r)).2 =
        .next [.sleep h.script.lintDelay, .reconcile r h.script.failures] := by
  simp only [perform, lint, message, and_true]
  exact ⟨rfl, rfl, rfl, rfl, rfl, rfl, rfl, rfl⟩

theorem perform_reconcile_free {h : Host} {r : Nat} {reconciler : Reconciler}
    (found : h.reconcilers[r]? = some reconciler) (free : reconciler.held = false) (id : Nat)
    (failures : List Failure) :
    h.perform id (.reconcile r failures) =
      ({ h with reconcilers := h.reconcilers.set r { reconciler with held := true } },
        .next [.publishAll r failures]) := by
  simp [perform, acquire, found, Reconciler.acquire, free]

theorem perform_reconcile_held {h : Host} {r : Nat} {reconciler : Reconciler}
    (found : h.reconcilers[r]? = some reconciler) (held : reconciler.held = true) (id : Nat)
    (failures : List Failure) :
    h.perform id (.reconcile r failures) =
      ({ h with
          reconcilers := h.reconcilers.set r
            { reconciler with waiting := reconciler.waiting ++ [id] } },
        .suspend [.publishAll r failures]) := by
  simp [perform, acquire, found, Reconciler.acquire, held]

/-- At its end a pass leaves its snapshot to the one that has waited longest. -/
theorem finishPass_alike {h : Host} {r : Nat} {reconciler : Reconciler}
    (found : h.reconcilers[r]? = some reconciler) (id : Nat) (plan : Plan) :
    (h.finishPass id r plan).Alike
      { h with reconcilers := h.reconcilers.set r (reconciler.store plan).release.1 } := by
  obtain ⟨inside, -⟩ := List.getElem?_eq_some_iff.1 found
  have state : h.reconciler r = reconciler := by simp [Host.reconciler, found]
  unfold finishPass release
  simp only [state, List.getElem?_set_self inside, List.set_set]
  have woken := alike_of_unscheduled (unscheduled_wakeAll
    { h with
      reconcilers := h.reconcilers.set r (reconciler.store plan).release.1
      outcome := if id = main then .plan plan else h.outcome }
    (reconciler.store plan).release.2.toList)
  exact ⟨woken.bench, woken.script, woken.clock, woken.tasks, woken.running, woken.tokens,
    woken.reconcilers, woken.published⟩

end ModelWorkspace.Host
