import ModelWorkspace.Proofs.Session.Scene

/-! How a session starts. The main task adds a reconciler, a token, and a keeper of new requests, and
goes through start-up; if the editor does not restart then, it adds the followers of the session. -/
namespace ModelWorkspace.Host

/-- The main task begins to activate a session. -/
def activate (h : Host) (editorActive : Bool) : Host :=
  let (begun, stages) := h.begin (.activate editorActive)
  begun.setTask main (.routine stages)

/-- The session that begins on a host: its keeper comes last among the tasks. -/
def nextActivation (h : Host) : Session :=
  { reconciler := h.reconcilers.length, inbox := h.inboxes.length, token := h.tokens.length }

theorem alike_send (h : Host) (requests : Requests) (t : Trigger) :
    (h.send requests t).Alike h := by
  cases requests with
  | observed => exact ⟨rfl, rfl, rfl, rfl, rfl, rfl, rfl, rfl⟩
  | inbox id =>
    simp only [send]
    split
    · rename_i inbox _
      split
      · have woken := alike_of_unscheduled (unscheduled_wake
          { h with inboxes := h.inboxes.set id { inbox with queue := inbox.queue ++ [t] } }
          inbox.task)
        exact ⟨woken.bench, woken.script, woken.clock, woken.tasks, woken.running, woken.tokens,
          woken.reconcilers, woken.published⟩
      · exact .refl h
    · exact .refl h

/-- What the beginning of an activation adds to a host. -/
structure Begins (h k : Host) : Prop where
  scene : k.scene = { h.scene with
    tasks := h.tasks ++ [Task.keeper h.inboxes.length ⟨none⟩ h.reconcilers.length]
    activating := some h.nextActivation }
  tokens : k.tokens = h.tokens ++ [false]
  reconcilers : k.reconcilers = h.reconcilers ++ [({} : Reconciler)]
  keepers : k.keepers = h.keepers ++ [h.tasks.length]

theorem beginActivation_frame (h : Host) (editorActive : Bool) :
    Begins h (h.beginActivation editorActive).1 := by
  let prepared : Host := { h with
    reconcilers := h.reconcilers ++ [{}]
    tokens := h.tokens ++ [false]
    activating := some h.nextActivation
    inboxes := h.inboxes ++ [⟨h.tasks.length, []⟩] }
  let keeper : Task := .keeper h.inboxes.length ⟨none⟩ h.reconcilers.length
  have same := unscheduled_addTask prepared keeper
  have added := alike_of_unscheduled same
  have inboxes : (prepared.addTask keeper).inboxes = h.inboxes ++ [⟨h.tasks.length, []⟩] :=
    congrArg Host.inboxes same
  have keepers : (prepared.addTask keeper).keepers = h.keepers ++ [h.tasks.length] := by
    rw [Host.keepers, inboxes, List.map_append]
    rfl
  have begins : Begins h (prepared.addTask keeper) := by
    have scene := congrArg Host.scene same
    exact ⟨scene, added.tokens, added.reconcilers, keepers⟩
  have begun : (h.beginActivation editorActive).1 =
      if editorActive then (prepared.addTask keeper).send (.inbox h.inboxes.length) .editorReady
      else prepared.addTask keeper := rfl
  rw [begun]
  cases editorActive with
  | false => exact begins
  | true =>
    rw [if_pos rfl]
    have sent := alike_send (prepared.addTask keeper) (.inbox h.inboxes.length) .editorReady
    have grows := grows_send (prepared.addTask keeper) (.inbox h.inboxes.length) .editorReady
    exact ⟨(scene_send _ _ _).trans begins.scene, sent.tokens.trans begins.tokens,
      sent.reconcilers.trans begins.reconcilers, grows.keepers.trans keepers⟩

theorem scene_activate (h : Host) (editorActive : Bool) :
    (h.activate editorActive).scene = { h.scene with
      tasks := (h.tasks ++ [Task.keeper h.inboxes.length ⟨none⟩ h.reconcilers.length]).set main
        (.routine [.activation .inspect])
      activating := some h.nextActivation } := by
  have begun : h.activate editorActive =
      (h.beginActivation editorActive).1.setTask main (.routine [.activation .inspect]) := rfl
  rw [begun, scene_setTask, (beginActivation_frame h editorActive).scene]
  rfl

theorem bench_activate (h : Host) (editorActive : Bool) :
    (h.activate editorActive).bench = h.bench := congrArg Scene.bench (scene_activate h editorActive)

/-- The followers of a session: those of the cascade, and the one of the license. -/
def sessionFollowers (h : Host) (s : Session) : List Task :=
  ([.platform, .model, .directory] : List Cascade.Role).map
    (fun role => .follower s.token none (newcomer role h.bench.settings.feed)) ++
    [h.licenseFollower s]

theorem scene_follow (h : Host) (token : Nat) (requests : Option Requests) (key : Setting.Key)
    (handler : List Stage) :
    (h.follow token requests key handler).scene = { h.scene with
      tasks := h.tasks ++ [.follower token requests
        (Setting.Follower.attend h.bench.settings.feed key handler)] } := by
  have scene := congrArg scene (unscheduled_addTask h (.follower token requests
    (Setting.Follower.attend h.bench.settings.feed key handler)))
  exact scene

theorem scene_followSettings {h : Host} {s : Session} (activating : h.activating = some s) :
    h.followSettings.scene = { h.scene with
      tasks := h.tasks ++ h.sessionFollowers s
      activating := some { s with followers := (List.range 4).map (h.tasks.length + ·) } } := by
  let following := (h.followCascade s.token).followLicense s.token (.inbox s.inbox)
  have scene : following.scene = { h.scene with tasks := h.tasks ++ h.sessionFollowers s } := by
    have bench (k : Host) (requests : Option Requests) (key : Setting.Key) (handler : List Stage) :
        (k.follow s.token requests key handler).bench = k.bench :=
      congrArg Scene.bench (scene_follow k s.token requests key handler)
    have tasks (k : Host) (requests : Option Requests) (key : Setting.Key) (handler : List Stage) :
        (k.follow s.token requests key handler).tasks = k.tasks ++ [.follower s.token requests
          (Setting.Follower.attend k.bench.settings.feed key handler)] :=
      congrArg Scene.tasks (scene_follow k s.token requests key handler)
    simp only [following, followCascade, followLicense, scene_follow, bench, tasks,
      List.append_assoc]
    rfl
  have followers : (List.range following.tasks.length).drop h.tasks.length =
      (List.range 4).map (h.tasks.length + ·) := by
    have tasks : following.tasks = h.tasks ++ h.sessionFollowers s := congrArg Scene.tasks scene
    have length : following.tasks.length = h.tasks.length + 4 := by simp [tasks, sessionFollowers]
    rw [length, List.range_add, List.drop_left' List.length_range]
  have follows : h.followSettings.scene = { following.scene with
      activating := some { s with
        followers := (List.range following.tasks.length).drop h.tasks.length } } := by
    simp only [followSettings, activating]
    rfl
  rw [follows, followers, scene]

end ModelWorkspace.Host
