import ModelWorkspace.Proofs.License.Activation

/-! The license document follows its setting. Two tasks announce the license for a session: the main
task while it activates the session, and the follower of the setting from then on. Whenever one of them
calls for the document it has just read the setting, and whoever announces last does so after the last
change; so the last call says what the setting says, whatever goes on meanwhile. -/
namespace ModelWorkspace.Host

open Setting (Follower Feed)

/-- The calls for the license document, in order. -/
def licenseCalls (trace : List Happening) : List Publication :=
  trace.filterMap fun
    | .called _ p => if p.uri = License.uri then some p else none
    | _ => none

/-- The task sent word to the inbox that the license is accepted, and the setting was not changed after
that. -/
def HasAsked (inbox : Nat) (trace : List Happening) (id : Nat) : Prop :=
  ∃ before after, trace = before ++ .sent id (.inbox inbox) .licenseAccepted :: after ∧
    .changed .acceptedLicense ∉ after

theorem mem_licenseCalls {trace : List Happening} {p : Publication} :
    p ∈ licenseCalls trace ↔ p.uri = License.uri ∧ ∃ inPass, .called inPass p ∈ trace := by
  rw [licenseCalls, List.mem_filterMap]
  constructor
  · rintro ⟨happening, mem, same⟩
    cases happening with
    | called inPass q =>
      dsimp only at same
      split at same
      · obtain rfl := Option.some.inj same
        exact ⟨‹_›, inPass, mem⟩
      · cases same
    | changed _ | sent _ _ _ => cases same
  · rintro ⟨own, inPass, mem⟩
    exact ⟨_, mem, if_pos own⟩

theorem licenseCalls_append (trace more : List Happening) :
    licenseCalls (trace ++ more) = licenseCalls trace ++ licenseCalls more := List.filterMap_append

theorem HasAsked.append {inbox id : Nat} {trace more : List Happening}
    (asked : HasAsked inbox trace id) (unchanged : .changed .acceptedLicense ∉ more) :
    HasAsked inbox (trace ++ more) id := by
  obtain ⟨before, after, rfl, still⟩ := asked
  refine ⟨before, after ++ more, ?_, ?_⟩
  · rw [List.append_assoc, List.cons_append]
  · exact List.not_mem_append still unchanged

/-- The last of some calls stays what it is if later ones are the same. -/
theorem getLast?_append_same {l m : List Publication} {p : Publication} (last : l.getLast? = some p)
    (same : ∀ q ∈ m, q = p) : (l ++ m).getLast? = some p := by
  rw [List.getLast?_append]
  cases found : m.getLast? with
  | none => exact last
  | some q =>
    obtain rfl := same q (List.mem_of_getLast? found)
    rfl

/-! ### What goes on beside -/

section Beside

variable {h k : Host} {id : Nat}

theorem changed_mem_changes_iff {key : Setting.Key} :
    .changed key ∈ h.changes k ↔ key ∈ k.bench.settings.feed.since h.bench.settings.feed.size := by
  rw [mem_changes_iff]
  constructor
  · rintro ⟨_, mem, same⟩
    exact Happening.changed.inj same ▸ mem
  · intro mem
    exact ⟨key, mem, rfl⟩

theorem changed_not_mem_doneBy (key : Setting.Key) : .changed key ∉ h.doneBy id := by
  unfold doneBy
  split
  · simp
  · split <;> simp
  · exact List.not_mem_nil

/-- The license is accepted as long as the setting is not changed. -/
theorem accepted_of_unchanged (grows : h.bench.settings.Grows k.bench.settings)
    (unchanged : .changed .acceptedLicense ∉ h.changes k) :
    k.bench.settings.acceptedLicense = h.bench.settings.acceptedLicense := by
  rw [changed_mem_changes_iff] at unchanged
  exact Setting.Store.flag_congr (grows.get?_eq unchanged)

theorem licenseCalls_changes : licenseCalls (h.changes k) = [] := by
  apply List.filterMap_eq_nil_iff.2
  intro happening mem
  obtain ⟨key, -, rfl⟩ := mem_changes_iff.1 mem
  rfl

/-- Whoever calls for the license document says what the setting says. -/
theorem Sound.licenseCalls_doneBy (sound : Sound h) :
    ∀ p ∈ licenseCalls (h.doneBy id), p = License.publication h.bench.settings.acceptedLicense := by
  intro p mem
  obtain ⟨own, inPass, called⟩ := mem_licenseCalls.1 mem
  obtain file | ⟨-, same⟩ := sound.called called
  · rw [own] at file
    cases file.symm.trans (isFile_license true)
  · exact same

end Beside

/-! ### A task that announces -/

/-- The task announces the license as the setting is now: it is about to announce it, or about to call,
or the last call says so already; and it asks for a pass where the license is accepted. -/
inductive Served (inbox : Nat) (trace : List Happening) (h : Host) (id : Nat) : Prop
  | ahead (mem : .announceLicense (.inbox inbox) ∈ h.stagesOf id)
  | calling {rest : List Stage}
      (stages : h.stagesOf id =
        .publish (License.publication h.bench.settings.acceptedLicense) :: rest)
      (asks : h.bench.settings.acceptedLicense = true →
        .send (.inbox inbox) .licenseAccepted ∈ rest)
  | called
      (last : (licenseCalls trace).getLast? =
        some (License.publication h.bench.settings.acceptedLicense))
      (asks : h.bench.settings.acceptedLicense = true →
        .send (.inbox inbox) .licenseAccepted ∈ h.stagesOf id ∨ HasAsked inbox trace id)

section Served

variable {inbox id : Nat} {trace more : List Happening} {h k : Host}

/-- Something else goes on, and the setting stays the same. -/
theorem Served.keep (served : Served inbox trace h id) (stages : k.stagesOf id = h.stagesOf id)
    (same : k.bench.settings.acceptedLicense = h.bench.settings.acceptedLicense)
    (calls : ∀ p ∈ licenseCalls more, p = License.publication h.bench.settings.acceptedLicense)
    (unchanged : .changed .acceptedLicense ∉ more) : Served inbox (trace ++ more) k id := by
  cases served with
  | ahead mem => exact .ahead (stages ▸ mem)
  | @calling rest next asks =>
    have now : k.stagesOf id =
        .publish (License.publication k.bench.settings.acceptedLicense) :: rest := by
      rw [stages, next, same]
    exact .calling now (same.symm ▸ asks)
  | called last asks =>
    refine .called ?_ ?_
    · rw [licenseCalls_append, same]
      exact getLast?_append_same last calls
    · rw [same, stages]
      exact fun accepted => (asks accepted).imp_right fun asked => asked.append unchanged

/-- All has been announced by a task that has nothing left to do. -/
theorem Served.finished (served : Served inbox trace h id) (none : h.stagesOf id = []) :
    (licenseCalls trace).getLast? = some (License.publication h.bench.settings.acceptedLicense) ∧
      (h.bench.settings.acceptedLicense = true → HasAsked inbox trace id) := by
  cases served with
  | ahead mem =>
    rw [none] at mem
    cases mem
  | calling stages => cases none.symm.trans stages
  | called last asks =>
    refine ⟨last, fun accepted => (asks accepted).resolve_left ?_⟩
    rw [none]
    exact List.not_mem_nil

/-- The task itself has its turn, and the setting stays the same. -/
theorem Served.work (served : Served inbox trace h id) (sound : Sound h)
    (kept : h.isKept inbox = true) (unchanged : .changed .acceptedLicense ∉ h.changes (h.work id)) :
    Served inbox (trace ++ (h.doneBy id ++ h.changes (h.work id))) (h.work id) id := by
  have same := accepted_of_unchanged (work_frame h id).1 unchanged
  have quiet : .changed .acceptedLicense ∉ h.doneBy id ++ h.changes (h.work id) :=
    List.not_mem_append (changed_not_mem_doneBy _) unchanged
  have calls : ∀ p ∈ licenseCalls (h.doneBy id ++ h.changes (h.work id)),
      p = License.publication h.bench.settings.acceptedLicense := by
    rw [licenseCalls_append, licenseCalls_changes, List.append_nil]
    exact sound.licenseCalls_doneBy
  cases stages : h.stagesOf id with
  | nil =>
    obtain ⟨last, asked⟩ := served.finished stages
    refine .called ?_ fun accepted => .inr ((asked (same ▸ accepted)).append quiet)
    rw [licenseCalls_append, same]
    exact getLast?_append_same last calls
  | cons s rest =>
    obtain ⟨t, task, own⟩ : ∃ t, h.tasks[id]? = some t ∧ t.stages = s :: rest := by
      cases task : h.tasks[id]? with
      | none => simp [stagesOf, task] at stages
      | some t => exact ⟨t, rfl, (stagesOf_of_task task).symm.trans stages⟩
    have next : (h.work id).stagesOf id = (h.perform id s).2.stages ++ rest := by
      obtain ⟨u, next, -, left⟩ := work_does task own
      obtain ⟨inside, -⟩ := List.getElem?_eq_some_iff.1 task
      have tasks : (h.work id).tasks = (h.perform id s).1.tasks.set id u :=
        congrArg Host.tasks left
      rw [← next]
      apply stagesOf_of_task
      rw [tasks]
      exact List.getElem?_set_self (Nat.lt_of_lt_of_le inside (grows_perform h id s).length)
    cases served with
    | ahead mem =>
      rw [stages] at mem
      obtain rfl | later := List.mem_cons.1 mem
      · have now : (h.work id).stagesOf id =
            .publish (License.publication (h.work id).bench.settings.acceptedLicense) ::
              ((if h.bench.settings.acceptedLicense then
                [.send (.inbox inbox) .licenseAccepted] else []) ++ rest) := by
          rw [next, same]
          rfl
        refine .calling now fun accepted => List.mem_append_left _ ?_
        rw [if_pos (same ▸ accepted)]
        exact List.mem_singleton_self _
      · exact .ahead (next ▸ List.mem_append_right _ later)
    | calling first asks =>
      obtain ⟨rfl, rfl⟩ := List.cons.inj (stages.symm.trans first)
      refine .called ?_ fun accepted => .inl ?_
      · have done : h.doneBy id = [.called (isInPass rest)
            (License.publication h.bench.settings.acceptedLicense)] := by
          simp only [doneBy, stages]
        rw [licenseCalls_append, licenseCalls_append, licenseCalls_changes, List.append_nil, done,
          same]
        exact List.getLast?_concat
      · rw [next]
        exact List.mem_append_right _ (asks (same ▸ accepted))
    | called last asks =>
      refine .called ?_ fun accepted => ?_
      · rw [licenseCalls_append, same]
        exact getLast?_append_same last calls
      · obtain mem | asked := asks (same ▸ accepted)
        · rw [stages] at mem
          obtain rfl | later := List.mem_cons.1 mem
          · -- The task sends, and the trigger arrives.
            have done : h.doneBy id = [.sent id (.inbox inbox) .licenseAccepted] := by
              simp only [doneBy, stages, reaches, kept, if_true]
            exact .inr ⟨trace, _, by rw [done]; rfl, unchanged⟩
          · exact .inl (next ▸ List.mem_append_right _ later)
        · exact .inr (asked.append quiet)

end Served

/-! ### The follower of the setting -/

/-- The follower in this place has still to react to a change of the setting, or nothing has changed,
or it announces the license as it is now. -/
def Heeds (inbox : Nat) (trace : List Happening) (h : Host) (id : Nat) (f : Follower Stage) : Prop :=
  f.HasUnread h.bench.settings.feed ∨ f.phase = .noticed .acceptedLicense ∨
    .changed .acceptedLicense ∉ trace ∨ Served inbox trace h id

/-- The stages that a follower announces the license in. -/
def announcement (inbox : Nat) : List Stage := [.announceLicense (.inbox inbox), .pause]

/-- A step of the follower, or of anyone else. If the setting is changed in it the follower has that
ahead. -/
theorem Heeds.next {inbox id : Nat} {trace done : List Happening} {h k : Host} {f g : Follower Stage}
    (heeds : Heeds inbox trace h id f) (key : g.key = .acceptedLicense)
    (inside : g.position ≤ h.bench.settings.feed.size)
    (more : h.bench.settings.feed.events <+: k.bench.settings.feed.events)
    (silent : .changed .acceptedLicense ∉ done)
    (unread : f.HasUnread h.bench.settings.feed → g.HasUnread h.bench.settings.feed ∨
      g.phase = .noticed .acceptedLicense ∨ .announceLicense (.inbox inbox) ∈ k.stagesOf id)
    (noticed : f.phase = .noticed .acceptedLicense →
      g.phase = .noticed .acceptedLicense ∨ .announceLicense (.inbox inbox) ∈ k.stagesOf id)
    (served : .changed .acceptedLicense ∉ h.changes k → Served inbox trace h id →
      Served inbox (trace ++ (done ++ h.changes k)) k id) :
    Heeds inbox (trace ++ (done ++ h.changes k)) k id g := by
  have later := Feed.since_later more inside
  by_cases changed : .changed .acceptedLicense ∈ h.changes k
  · left
    rw [Follower.HasUnread, later, key]
    exact List.mem_append_right _ (changed_mem_changes_iff.1 changed)
  · obtain ahead | now | never | before := heeds
    · obtain ahead | now | announces := unread ahead
      · left
        rw [Follower.HasUnread, later]
        exact List.mem_append_left _ ahead
      · exact .inr (.inl now)
      · exact .inr (.inr (.inr (.ahead announces)))
    · obtain now | announces := noticed now
      · exact .inr (.inl now)
      · exact .inr (.inr (.inr (.ahead announces)))
    · right; right; left
      exact List.not_mem_append never (List.not_mem_append silent changed)
    · exact .inr (.inr (.inr (served changed before)))

section Reacts

variable {h k : Host} {id : Nat} {f g : Follower Stage}

theorem Reacts.handler (reacts : Reacts h id f k g) : g.handler = f.handler := by
  cases reacts with
  | wait | consider => rfl
  | finish | perform => exact f.handler_proceed _
  | receive phase received =>
    obtain ⟨key, -, rfl⟩ | ⟨-, rfl⟩ := Follower.receive?_cases received
    · rfl
    · rfl

/-- The follower does not read beyond the end. -/
theorem Reacts.position_le (reacts : Reacts h id f k g)
    (inside : f.position ≤ h.bench.settings.feed.size) :
    g.position ≤ h.bench.settings.feed.size := by
  cases reacts with
  | wait | consider => exact inside
  | finish | perform =>
    rw [Follower.position_proceed]
    exact inside
  | receive phase received =>
    obtain ⟨key, event, rfl⟩ | ⟨-, rfl⟩ := Follower.receive?_cases received
    · obtain ⟨within, -⟩ := List.getElem?_eq_some_iff.1 event
      exact within
    · exact Nat.sub_le ..

/-- A change of its setting that the follower has ahead stays ahead, or it notices it, or it begins to
react because it may have missed it. -/
theorem Reacts.hasUnread (reacts : Reacts h id f k g) (unread : f.HasUnread h.bench.settings.feed) :
    g.HasUnread h.bench.settings.feed ∨ g.phase = .noticed f.key ∨ g.remaining = f.handler := by
  cases reacts with
  | wait | consider => exact .inl unread
  | finish | perform =>
    left
    rw [Follower.HasUnread, Follower.key_proceed, Follower.position_proceed]
    exact unread
  | receive phase received =>
    obtain ⟨key, event, rfl⟩ | ⟨-, rfl⟩ := Follower.receive?_cases received
    · obtain rfl | ahead := Follower.hasUnread_of_event unread event
      · exact .inr (.inl rfl)
      · exact .inl ahead
    · exact .inr (.inr rfl)

/-- A follower that has noticed a change of its setting begins to react. -/
theorem Reacts.noticed (reacts : Reacts h id f k g) (noticed : f.phase = .noticed f.key) :
    g.remaining = f.handler := by
  cases reacts with
  | wait phase | receive phase | finish phase | perform phase => cases noticed.symm.trans phase
  | consider phase =>
    obtain rfl := Setting.Phase.noticed.inj (noticed.symm.trans phase)
    simp [Follower.consider, Follower.remaining]

end Reacts

/-- The session is served by its keeper, by the follower in this place, and by the main task. -/
structure Announces (s : Session) (place id base : Nat) (trace : List Happening) (h : Host) :
    Prop where
  manned : Manned h s.inbox place
  follower : ∃ f marks,
    Kept id s.token (some (.inbox s.inbox)) .acceptedLicense base marks h f ∧
      f.handler = announcement s.inbox ∧ Heeds s.inbox trace h id f
  main : .changed .acceptedLicense ∉ trace → Served s.inbox trace h Host.main

section Announces

variable {s : Session} {place id base : Nat} {trace : List Happening} {h k : Host}

theorem stagesOf_congr {other : Nat} (same : k.tasks[other]? = h.tasks[other]?) :
    k.stagesOf other = h.stagesOf other := by
  rw [stagesOf, same, stagesOf]

/-- The follower sends to the inbox, so its keeper stays. -/
theorem Announces.hasSender (announces : Announces s place id base trace h) :
    h.hasSender s.inbox = true := by
  obtain ⟨f, marks, kept, -⟩ := announces.follower
  simp only [Host.hasSender, Bool.or_eq_true]
  exact .inr (List.any_eq_true.2 ⟨_, List.mem_of_getElem? kept.task, by simp⟩)

theorem Announces.outside (announces : Announces s place id base trace h) (rest : Outside h k) :
    Announces s place id base (trace ++ h.changes k) k := by
  have stages (other : Nat) : k.stagesOf other = h.stagesOf other :=
    stagesOf_congr (by rw [rest.tasks])
  have served {other : Nat} (unchanged : .changed .acceptedLicense ∉ h.changes k)
      (served : Served s.inbox trace h other) :
      Served s.inbox (trace ++ h.changes k) k other := by
    refine served.keep (stages other) (accepted_of_unchanged rest.settings unchanged) ?_ unchanged
    rw [licenseCalls_changes]
    exact List.forall_mem_nil _
  obtain ⟨news, events, -⟩ := rest.settings
  have more : h.bench.settings.feed.events <+: k.bench.settings.feed.events := ⟨news, events.symm⟩
  obtain ⟨f, marks, kept, handler, heeds⟩ := announces.follower
  have aside : Elsewhere id s.token h k := by
    refine ⟨by rw [rest.tasks], fun live => ?_, more⟩
    rw [isCancelled, rest.tokens]
    exact live
  have nothing : .changed .acceptedLicense ∉ ([] : List Happening) := List.not_mem_nil
  refine ⟨announces.manned.same rest.keepers rest.tasks, ⟨f, _, kept.elsewhere aside, handler, ?_⟩,
    fun never => ?_⟩
  · exact heeds.next kept.account.key kept.account.inside more nothing .inl .inl served
  · rw [List.mem_append, not_or] at never
    exact served never.2 (announces.main never.1)

theorem Announces.ask {stages : List Stage} (announces : Announces s place id base trace h)
    (idle : h.isIdle = true) (apart : id ≠ Host.main) :
    Announces s place id base trace (h.setTask Host.main (.routine stages)) := by
  obtain ⟨-, task⟩ := idle_main idle
  obtain ⟨f, marks, kept, handler, heeds⟩ := announces.follower
  have there : (h.tasks.set Host.main (.routine stages))[id]? = h.tasks[id]? :=
    List.getElem?_set_ne apart.symm
  have aside : Elsewhere id s.token h (h.setTask Host.main (.routine stages)) :=
    ⟨there, fun live => live, List.prefix_rfl⟩
  refine ⟨announces.manned.ask idle, ⟨f, _, kept.elsewhere aside, handler, ?_⟩, fun never => ?_⟩
  · refine heeds.imp_right (Or.imp_right (Or.imp_right fun served => ?_))
    rw [← List.append_nil trace]
    exact served.keep (stagesOf_congr there) rfl (List.forall_mem_nil _) List.not_mem_nil
  · -- The main task had nothing left to do, so it had announced the license.
    obtain ⟨last, asked⟩ := (announces.main never).finished (stagesOf_of_task task)
    exact .called last fun accepted => .inr (asked accepted)

/-- What a turn makes of a task that announces, be it its own turn or not. -/
theorem Served.turn {other : Nat} (served : Served s.inbox trace h other) (sound : Sound h)
    (kept : h.isKept s.inbox = true) {t : Task} (task : h.tasks[other]? = some t)
    (unchanged : .changed .acceptedLicense ∉ h.changes (h.work id)) :
    Served s.inbox (trace ++ (h.doneBy id ++ h.changes (h.work id))) (h.work id) other := by
  by_cases own : other = id
  · subst own
    exact served.work sound kept unchanged
  · refine served.keep (stagesOf_congr ((sound.place own task).trans task.symm)) ?_ ?_ ?_
    · exact accepted_of_unchanged (work_frame h id).1 unchanged
    · rw [licenseCalls_append, licenseCalls_changes, List.append_nil]
      exact sound.licenseCalls_doneBy
    · exact List.not_mem_append (changed_not_mem_doneBy _) unchanged

/-- A turn of any task. -/
theorem Announces.work (announces : Announces s place id base trace h) (sound : Sound h)
    (other : Nat) : Announces s place id base
      (trace ++ (h.doneBy other ++ h.changes (h.work other))) (h.work other) := by
  have manned := announces.manned.work sound announces.hasSender other
  have arrives := announces.manned.isKept
  obtain ⟨f, marks, kept, handler, heeds⟩ := announces.follower
  obtain ⟨⟨news, events, -⟩, tokens, -⟩ := work_frame h other
  have more : h.bench.settings.feed.events <+: (h.work other).bench.settings.feed.events :=
    ⟨news, events.symm⟩
  have silent : .changed .acceptedLicense ∉ h.doneBy other := changed_not_mem_doneBy _
  have served (unchanged : .changed .acceptedLicense ∉ h.changes (h.work other))
      (served : Served s.inbox trace h id) :=
    served.turn sound arrives kept.task unchanged
  refine ⟨manned, ?_, fun never => ?_⟩
  · by_cases own : other = id
    · subst own
      obtain ⟨l, g, reacts, next⟩ := kept.work
      have stages : (h.work other).stagesOf other = g.remaining := stagesOf_of_task next.task
      have announces (begins : g.remaining = f.handler) :
          .announceLicense (.inbox s.inbox) ∈ (h.work other).stagesOf other := by
        rw [stages, begins, handler]
        exact List.mem_cons_self
      refine ⟨g, _, next, reacts.handler.trans handler, ?_⟩
      refine heeds.next next.account.key (reacts.position_le kept.account.inside) more silent ?_ ?_
        served
      · intro unread
        rw [← kept.account.key]
        exact (reacts.hasUnread unread).imp_right (Or.imp_right announces)
      · rw [← kept.account.key]
        exact fun noticed => .inr (announces (reacts.noticed noticed))
    · have aside : Elsewhere id s.token h (h.work other) := by
        refine ⟨(sound.place (Ne.symm own) kept.task).trans kept.task.symm, fun live => ?_, more⟩
        rw [isCancelled, tokens]
        exact live
      refine ⟨f, _, kept.elsewhere aside, handler, ?_⟩
      exact heeds.next kept.account.key kept.account.inside more silent .inl .inl served
  · obtain ⟨t, task⟩ : ∃ t, h.tasks[Host.main]? = some t := by
      obtain ⟨inside, -⟩ := List.getElem?_eq_some_iff.1 kept.task
      exact ⟨_, List.getElem?_eq_getElem (Nat.zero_lt_of_lt inside)⟩
    rw [List.mem_append, not_or, List.mem_append, not_or] at never
    exact (announces.main never.1).turn sound arrives task never.2.2

theorem Announces.run {start : Host} (begun : Announces s place id base [] start)
    (sound : Sound start) (apart : id ≠ Host.main) (run : Ongoing start trace h) :
    Announces s place id base trace h := by
  induction run with
  | start => exact begun
  | @work trace h other run turn ih => exact ih.work (run.sound sound) other
  | outside run rest ih => exact ih.outside rest
  | ask run idle ordinary ih => exact ih.ask idle apart

/-- Once the two that announce have nothing left to do, all has been announced: by the follower if the
setting was changed, and by the main task if not. -/
theorem Announces.settled (announces : Announces s place id base trace h)
    (ended : h.stagesOf Host.main = []) (rests : h.rests id = true) :
    (licenseCalls trace).getLast? = some (License.publication h.bench.settings.acceptedLicense) ∧
      (h.bench.settings.acceptedLicense = true →
        HasAsked s.inbox trace (if .changed .acceptedLicense ∈ trace then id else Host.main)) := by
  by_cases changed : .changed .acceptedLicense ∈ trace
  · rw [if_pos changed]
    obtain ⟨f, marks, kept, -, heeds⟩ := announces.follower
    rw [Host.rests, kept.task] at rests
    obtain ⟨phase, read⟩ := Follower.idle_of_waits rests
    have silent : h.stagesOf id = [] := by
      rw [stagesOf_of_task kept.task, Task.stages, Follower.remaining, phase]
    obtain unread | noticed | never | served := heeds
    · exact absurd unread read
    · cases phase.symm.trans noticed
    · exact absurd changed never
    · exact served.finished silent
  · rw [if_neg changed]
    exact (announces.main changed).finished ended

/-- Where the follower of the license comes, behind those of the cascade. -/
def licensePlace (h : Host) : Nat := h.tasks.length + 3

/-- The followers of the session come. -/
theorem Ahead.announces (ahead : Ahead s place h) (sound : Sound h)
    (task : h.tasks[Host.main]? = some (.routine (sessionStages s))) :
    Announces s place h.licensePlace h.bench.settings.feed.size [] (h.work Host.main) := by
  have bench := congrArg Scene.bench (scene_followSettings ahead.activating)
  have worked := work_routine task
  have seat : (h.work Host.main).tasks[h.licensePlace]? = some (h.licenseFollower s) := by
    have length : (h.followCascade s.token).tasks.length = h.licensePlace := by
      rw [(followCascade_frame h s.token).1]
      simp [licensePlace]
    have apart : Host.main ≠ h.licensePlace := Nat.ne_of_lt (Nat.succ_pos _)
    rw [worked.tasks]
    change (h.followSettings.tasks.set Host.main _)[h.licensePlace]? = _
    rw [List.getElem?_set_ne apart, tasks_followSettings ahead.activating,
      ← length]
    exact List.getElem?_concat_length
  have same : (h.work Host.main).bench = h.bench := worked.bench.trans bench
  refine ⟨ahead.manned.work sound (hasSender_of_activating ahead.activating) _,
    ⟨_, [], ⟨seat, ?_, ?_⟩, rfl, .inr (.inr (.inl List.not_mem_nil))⟩, fun _ => .ahead ?_⟩
  · rw [isCancelled, (work_frame h Host.main).2.1]
    exact ahead.live
  · rw [same]
    exact Follower.account_attend _ _ _
  · rw [stagesOf_of_task (routine_work task)]
    exact List.mem_cons_self

end Announces

/-- The license document follows the setting. While a session is activated, from the moment on at which
its followers come, settings are written at any time and all tasks have their turns in any order; as
soon as the main task has nothing left to do and the follower of the license waits with nothing left
to read, the last call for the license document has no diagnostics if the license is accepted, and
just the one of the license if not. If it is accepted, a pass was asked for after the last change of
the setting: by that follower, or if there was no change by the main task, which only sends while it
activates the session. And no pass calls for that document at any time. -/
theorem license_follows_setting {h : Host} (sound : Sound h) (idle : h.isIdle = true)
    {editorActive : Bool} {before after : List Happening} {g k : Host}
    (starts : Ongoing (h.activate editorActive) before g) (turn : g.running = some main)
    (next : (g.stagesOf main).head? = some .followSettings)
    (run : Ongoing (g.work main) after k) (ended : k.stagesOf main = [])
    (rests : k.rests g.licensePlace = true) :
    (licenseCalls after).getLast? = some ⟨License.uri,
      if k.bench.settings.acceptedLicense then [] else [License.diagnostic]⟩ ∧
    (k.bench.settings.acceptedLicense = true → HasAsked h.nextActivation.inbox after
      (if .changed .acceptedLicense ∈ after then g.licensePlace else main)) ∧
    ∀ p, .called true p ∈ before ++ after → p.uri ≠ License.uri := by
  have activated := sound.activate idle editorActive
  have arrived := starts.sound activated
  have spawned := arrived.work turn
  obtain ⟨ahead, task⟩ := starts.ahead sound idle next
  have begun := ahead.announces arrived task
  have announces := begun.run spawned (Nat.ne_of_gt (Nat.succ_pos _)) run
  obtain ⟨last, asked⟩ := announces.settled ended rests
  refine ⟨last, asked, fun p called => ?_⟩
  obtain first | later := List.mem_append.1 called
  · exact starts.called_inPass activated first
  · exact run.called_inPass spawned later

def Stage.isFollowSettings : Stage → Bool
  | .followSettings => true
  | _ => false

theorem Stage.eq_followSettings_of_any {first : Option Stage}
    (same : first.any Stage.isFollowSettings = true) : first = some .followSettings := by
  obtain ⟨s, rfl, same⟩ := (Option.any_eq_true _ _).1 same
  cases s with
  | followSettings => rfl
  | _ => cases same

/-- A workspace with a model folder, whose license is not accepted yet. -/
def unlicensed : Host where
  bench := {
    files := { entries := [(["m"], FileTree.newFolder)] }
    settings := { values := [(.modelVersion, .string "4.0.0"), (.modelDirectory, .string "/m")] }
    folders := ⟨some [⟨"m", ⟨"/m"⟩, true⟩]⟩
    bundle := ⟨⟨"/b"⟩⟩ }
  script := { publishPauses := 1 }

/-- The license is accepted while the main task still waits for its call. -/
theorem license_follows_setting_accepted :
    ∃ before g after k, Ongoing (unlicensed.activate false) before g ∧
      Ongoing (g.work main) after k ∧ .changed .acceptedLicense ∈ after ∧
      (licenseCalls after).getLast? = some ⟨License.uri, []⟩ ∧ HasAsked 0 after g.licensePlace := by
  let start := unlicensed.activate false
  let g := (start.work main).work main
  let waiting := (g.work main).runWithin 3
  let accepted := waiting.set [(.acceptedLicense, .bool true)]
  let settling := (accepted.runWithin 40).setTask main (.routine [.settle 9])
  let k := settling.runWithin 40
  have inspects : start.running = some main := by decide +kernel
  have inspected : (start.work main).running = some main := by decide +kernel
  have turn : g.running = some main := by decide +kernel
  have next : (g.stagesOf main).head? = some .followSettings :=
    Stage.eq_followSettings_of_any (by decide +kernel)
  have free : waiting.running = none := by decide +kernel
  have changed : .acceptedLicense ∈
      accepted.bench.settings.feed.since waiting.bench.settings.feed.size := by decide +kernel
  have idle : (accepted.runWithin 40).isIdle = true := by decide +kernel
  have ended : (k.stagesOf main).isEmpty = true := by decide +kernel
  have rests : k.rests g.licensePlace = true := by decide +kernel
  have reads : k.bench.settings.acceptedLicense = true := by decide +kernel
  have starts : Ongoing start _ g := (Ongoing.start.work inspects).work inspected
  have begun : Ongoing (g.work main) [] (g.work main) := .start
  obtain ⟨first, waits⟩ := begun.runWithin 3
  obtain ⟨second, runs⟩ := (waits.outside (outside_set (.inl free) _)).runWithin 40
  have asked : Ongoing (g.work main) _ settling := runs.ask idle (List.forall_mem_singleton.2 rfl)
  obtain ⟨third, run⟩ : ∃ more, Ongoing (g.work main) _ k := asked.runWithin 40
  have mem : .changed .acceptedLicense ∈ [] ++ first ++ waiting.changes accepted ++ second ++ third :=
    List.mem_append_left _ (List.mem_append_left _
      (List.mem_append_right _ (changed_mem_changes_iff.2 changed)))
  obtain ⟨last, asks, -⟩ := license_follows_setting (sound_new _ _) rfl starts turn next run
    (List.isEmpty_iff.1 ended) rests
  rw [if_pos reads] at last
  have sent := asks reads
  rw [if_pos mem] at sent
  exact ⟨_, g, _, k, starts, run, mem, last, sent⟩

end ModelWorkspace.Host
