import ModelWorkspace.Proofs.Cascade.Causes
import ModelWorkspace.Proofs.Cascade.Opening

/-! The cascade ends. However the followers and those outside take their turns, a number of changes from
outside leads to a bounded amount of work, and while nobody misses a change, to one deed of a kind
for each of them. -/
namespace ModelWorkspace

open Cascade (Role)
open Setting (Follower)

namespace Host

open Cascade (Act FollowsPlatform)

theorem length_of_roles {keys : List Setting.Key} (all : ∀ key ∈ keys, ∃ role : Role, key = role.key) :
    keys.length =
      keys.count Role.platform.key + keys.count Role.model.key + keys.count Role.directory.key := by
  induction keys with
  | nil => rfl
  | cons key rest ih =>
    obtain ⟨role, rfl⟩ := all key List.mem_cons_self
    rw [List.length_cons, ih fun key mem => all key (List.mem_cons_of_mem _ mem)]
    simp only [List.count_cons]
    cases role <;> simp [Role.key] <;> omega

section Runs

variable {start : Host} {first token base : Nat} {outside : Setting.Key → Prop}

/-- Only the three followers do anything. -/
theorem AtWork.mem_turnsWith (working : AtWork first token base start)
    (test : Workbench → Follower Stage → Bool) :
    ∀ moves h, start.run? moves = some h → (∀ m ∈ moves, m.IsCascade first outside) →
      AtWork first token base h ∧
        ∀ key ∈ turnsWith test start moves, ∃ role : Role, key = role.key := by
  refine working.induction (List.forall_mem_nil _) fun moves h k m run move working change all => ?_
  cases change with
  | turn bench tasks | write allowed written tasks =>
    rw [turnsWith, collect_other _ run move (by simp)]
    exact all
  | @work role f g turn task advance tasks =>
    rw [turnsWith, collect_work _ run move turn task]
    intro key mem
    obtain before | new := List.mem_append.1 mem
    · exact all key before
    · refine ⟨role, ?_⟩
      unfold keyIf at new
      split at new
      · rw [← (working.serves task).key]
        simpa using new
      · cases new

/-- Each handler does what is its own. -/
theorem AtWork.acts (working : AtWork first token base start) :
    ∀ moves h, start.run? moves = some h → (∀ m ∈ moves, m.IsCascade first outside) →
      AtWork first token base h ∧
        ∀ d ∈ deeds start moves, (∃ role : Role, d.handler = role.key) ∧
          actOf? d.handler = some d.act := by
  refine working.induction (List.forall_mem_nil _) fun moves h k m run move working change all => ?_
  cases change with
  | turn bench tasks | write allowed written tasks =>
    rw [deeds, collect_other _ run move (by simp)]
    exact all
  | @work role f g turn task advance tasks =>
    rw [deeds, collect_work _ run move turn task]
    intro d mem
    obtain before | new := List.mem_append.1 mem
    · exact all d before
    · have serves := working.serves task
      rw [handler_of_deed? new, serves.key]
      refine ⟨⟨role, rfl⟩, ?_⟩
      obtain ⟨s, rest, phase, -⟩ | ⟨idle, -⟩ := advance.stage_or_idle
      · obtain ⟨c, stages, same, -, own⟩ := serves.handling phase
        obtain rfl : s = c := by simpa using same
        rw [deed?_of_handling phase, Option.mem_toList, Option.map_eq_some_iff] at new
        obtain ⟨act, does, rfl⟩ := new
        exact actOf?_of_isFor (own s List.mem_cons_self) does
      · rw [deed?_of_idle idle] at new
        cases new

/-- The folders are left to the third follower. -/
theorem AtWork.folders_work (working : AtWork first token base start) {role : Role}
    (different : role ≠ .directory) (turn : start.running = some (first + role.seat)) :
    start.opening? = none ∧
      ∀ k, start.move? .work = some k → k.bench.folders = start.bench.folders := by
  constructor
  · cases opening : start.opening? with
    | none => rfl
    | some found =>
      obtain ⟨name, path⟩ := found
      obtain ⟨other, f, c, rest, turn', -, -, same, own⟩ := working.next (next?_of_opening? opening)
      obtain rfl : Cascade.Stage.replaceModelFolder name path = c := by simpa using same
      obtain rfl : other = .directory := by simpa [Cascade.Stage.isFor] using own
      rw [turn] at turn'
      have seats := Nat.add_left_cancel (Option.some.inj turn')
      exact absurd (Role.seat_injective seats) different
  · intro k move
    have fits : Move.work.IsCascade first fun _ => True := trivial
    have change := (working.move fits move).1
    cases change with
    | @work other f g turn' task advance tasks =>
      rw [turn] at turn'
      obtain rfl := Role.seat_injective (Nat.add_left_cancel (Option.some.inj turn'))
      obtain ⟨s, rest, phase, stepped⟩ | ⟨-, same⟩ := advance.stage_or_idle
      · obtain ⟨c, stages, same, -, own⟩ := (working.serves task).handling phase
        obtain rfl : s = c := by simpa using same
        rw [stepped]
        exact Cascade.folders_perform (own s List.mem_cons_self) different
      · rw [same]

end Runs

/-- After every run, in whatever order the followers and those outside took their turns: there are no
more than three events of the followers for one change from outside, but for three at first; the
handlers that begin, what they do and all the work of the followers are bounded with them. If
nobody missed a change, there are no more deeds of a kind than changes from outside, each deed is
done for one of these changes, and a change leads to one deed of a kind at most. Only the third
follower asks for another folder. -/
theorem cascade_ends {start : Host} {token : Nat} (live : start.isCancelled token = false)
    {moves : List Move} {h : Host}
    (run : (start.followCascade token).suspend.run? moves = some h)
    (fits : ∀ m ∈ moves, m.IsCascade start.tasks.length fun _ => True) :
    let followed := (start.followCascade token).suspend
    let changes := outerChanges followed moves
    let done := deeds followed moves
    let most := 4 * changes.length + 3
    (h.bench.settings.feed.size = start.bench.settings.feed.size + changes.length +
        done.countP (·.raised.isSome) ∧
      h.bench.settings.feed.size ≤ start.bench.settings.feed.size + most ∧
      done.length ≤ (turnsWith begins followed moves).length ∧
      (turnsWith begins followed moves).length ≤ 3 * most ∧
      (turnsWith works followed moves).length ≤ 36 * most) ∧
    (turnsWith lapses followed moves = [] →
      (∀ act, done.countP (·.act == act) ≤
        changesOf [.platformVersion, .modelVersion, .modelDirectory] changes) ∧
      done.Nodup ∧ (∀ d ∈ done, ∃ c ∈ changes, Causes done c.index d) ∧
      ∀ c ∈ changes, ∀ d e, Causes done c.index d → Causes done c.index e → d.act = e.act →
        d = e) ∧
    (∀ d ∈ done, d.act = .replaceFolder → d.handler = .modelDirectory) ∧
    ∀ role : Role, role ≠ .directory → h.running = some (start.tasks.length + role.seat) →
      h.opening? = none ∧ ∀ k, h.move? .work = some k → k.bench.folders = h.bench.folders := by
  intro followed changes done most
  have bench : followed.bench = start.bench := (followCascade_frame start token).2.1
  have working : AtWork start.tasks.length token start.bench.settings.feed.size followed :=
    atWork_followCascade live
  have fresh (role : Role) (f : Follower Stage)
      (task : followed.tasks[start.tasks.length + role.seat]? = some (.follower token none f)) :
      f.phase = .listening := by
    obtain rfl : newcomer role start.bench.settings.feed = f := by
      simpa using (tasks_followCascade start token role).symm.trans task
    rfl
  obtain ⟨working', balanced⟩ := working.balanced moves h run fits
  obtain ⟨-, spent⟩ := working.spent fresh moves h run fits
  obtain ⟨-, acts⟩ := working.acts moves h run fits
  rw [bench] at balanced
  have bound := balanced.bound
  have all (role : Role) :
      (turnsWith works followed moves).count role.key ≤ 12 * most ∧
        (turnsWith begins followed moves).count role.key ≤ most ∧
        (done.map (·.handler)).count role.key ≤ (turnsWith begins followed moves).count role.key := by
    simp only [most, changes, done]
    obtain ⟨f, task, serves⟩ := working'.follower role
    obtain ⟨effort, starts, things⟩ := spent role f task
    have inside := serves.inside
    rw [serves.key] at effort starts things
    exact ⟨by omega, by omega, by omega⟩
  refine ⟨⟨balanced.size, bound, ?_, ?_, ?_⟩, ?_, ?_, ?_⟩
  · have members : ∀ key ∈ done.map (·.handler), ∃ role : Role, key = role.key := by
      intro key mem
      obtain ⟨d, there, rfl⟩ := List.mem_map.1 mem
      exact (acts d there).1
    have length := length_of_roles members
    rw [List.length_map] at length
    rw [length, length_of_roles ((working.mem_turnsWith begins) moves h run fits).2]
    have platform := (all .platform).2.2
    have model := (all .model).2.2
    have directory := (all .directory).2.2
    omega
  · rw [length_of_roles ((working.mem_turnsWith begins) moves h run fits).2]
    have platform := (all .platform).2.1
    have model := (all .model).2.1
    have directory := (all .directory).2.1
    omega
  · rw [length_of_roles ((working.mem_turnsWith works) moves h run fits).2]
    have platform := (all .platform).1
    have model := (all .model).1
    have directory := (all .directory).1
    omega
  · intro keeps
    rw [← bench] at working
    obtain ⟨traced, -⟩ := (working.traced fresh moves h run fits).2 keeps
    refine ⟨traced.countP_act_le, traced.once.of_map _, fun d mem => ?_, fun c mem d e => ?_⟩
    · obtain ⟨c, change, -, causes⟩ := traced.origin mem
      exact ⟨c, change, causes⟩
    · exact fun causes causes' => causes.unique causes' traced (traced.outer c mem)
  · intro d mem act
    exact handler_of_act (acts d mem).2 (act ▸ rfl)
  · exact fun role different turn => working'.folders_work different turn

/-- The platform version is written once, and one folder is asked for. -/
theorem cascade_ends_twoFolders :
    let moves := .write .platformVersion (.string "3.0.0") :: roleTurns 1 someOrder
    ∃ h, (twoFolders.followCascade 0).suspend.run? moves = some h ∧ h.isQuiet 1 = true ∧
      (deeds (twoFolders.followCascade 0).suspend moves).countP (·.act == .replaceFolder) ≤ 1 := by
  intro moves
  have reached : ((twoFolders.followCascade 0).suspend.run? moves).any (·.isQuiet 1) = true := by
    decide +kernel
  obtain ⟨h, run, quiet⟩ := (Option.any_eq_true _ _).1 reached
  have fits : ∀ m ∈ moves, m.IsCascade 1 fun _ => True := by
    intro m mem
    obtain rfl | mem := List.mem_cons.1 mem
    · trivial
    · obtain rfl | ⟨role, rfl⟩ := mem_roleTurns mem
      · trivial
      · exact ⟨role, rfl⟩
  obtain ⟨-, fewer, -⟩ := cascade_ends rfl run fits
  exact ⟨h, run, quiet, (fewer (by decide +kernel)).1 .replaceFolder |>.trans (by decide +kernel)⟩

end Host

end ModelWorkspace
