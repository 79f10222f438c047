import ModelWorkspace.Host.Basic

/-! What each stage of a task does to the host, and how the task goes on after it. -/
namespace ModelWorkspace.Host

/-- How a task goes on after a stage. In each case these stages come next. -/
inductive Flow
  | next (stages : List Stage)
  /-- All others get their turn first. -/
  | giveWay (stages : List Stage)
  /-- The task has to be woken first. -/
  | suspend (stages : List Stage)

def Flow.stages : Flow → List Stage
  | next stages | giveWay stages | suspend stages => stages

def answer (h : Host) (o : Outcome) : Host × Flow := ({ h with outcome := o }, .next [])

def onBench {σ : Type} (h : Host) (result : Workbench × List σ) (stage : σ → Stage) : Host × Flow :=
  (h.withBench result.1, .next (result.2.map stage))

/-- The task waits for some time, unless there is none to wait for. -/
def sleep (h : Host) (id ms : Nat) : Host × Flow :=
  if ms = 0 then (h, .next []) else (h.addTimer id (h.clock + ms), .suspend [])

/-- The end of a stage of start-up that nothing but the end of start-up differs in. -/
def startUp (h : Host) (stage : Startup.Stage → Stage) (finish : Bool → Host × Flow) :
    Startup.Stage → Host × Flow
  | .cascade .pause => (h, .giveWay [])
  | .done restarting => finish restarting
  | s => h.onBench (s.perform h.bench) stage

/-! ### The session -/

/-- The session that is being activated becomes the session. Nobody sends to the requests of the one
before any more. -/
def installSession (h : Host) (restarting : Bool) : Host :=
  match h.activating with
  | some s =>
    let installed := { h with
      session := some { s with restarting }
      activating := none
      current := .inbox s.inbox }
    installed.wakeOrphans
  | none => h

def followSettings (h : Host) : Host :=
  match h.activating with
  | some s =>
    let following := (h.followCascade s.token).followLicense s.token (.inbox s.inbox)
    let followers := (List.range following.tasks.length).drop h.tasks.length
    { following with activating := some { s with followers } }
  | none => h

def afterStartup (h : Host) (restarting : Bool) : List Stage :=
  match h.activating with
  | some s =>
    if restarting then [.finishActivation true]
    else
      [.followSettings, .announceLicense (.inbox s.inbox), .pause, .greet, .finishActivation false]
  | none => []

def startedNotice : String := "Model tooling has started"

/-! ### Passes -/

/-- Takes the reconciler and goes on with these stages, or waits for it first. -/
def acquire (h : Host) (id reconciler : Nat) (stages : List Stage) : Host × Flow :=
  match h.reconcilers[reconciler]? with
  | some r =>
    let (r, acquired) := r.acquire id
    let h := { h with reconcilers := h.reconcilers.set reconciler r }
    (h, if acquired then .next stages else .suspend stages)
  | none => (h, .next [])

def release (h : Host) (reconciler : Nat) : Host :=
  match h.reconcilers[reconciler]? with
  | some r =>
    let (r, waiting) := r.release
    let released := { h with reconcilers := h.reconcilers.set reconciler r }
    released.wakeAll waiting.toList
  | none => h

def reconciler (h : Host) (id : Nat) : Reconciler := (h.reconcilers[id]?).getD {}

/-- Keeps what the pass leaves behind. The step of the main task is answered with its plan. -/
def finishPass (h : Host) (id reconciler : Nat) (plan : Plan) : Host :=
  let stored := { h with
    reconcilers := h.reconcilers.set reconciler ((h.reconciler reconciler).store plan)
    outcome := if id = main then .plan plan else h.outcome }
  stored.release reconciler

/-- Calls the compiler for a pass. Without a message there is none, and nobody is told. -/
def lint (h : Host) (reconciler : Nat) : Host × Flow :=
  match Message.ofWorkbench h.bench with
  | .error _ => (h, .next [])
  | .ok m =>
    ({ h with calls := h.calls ++ [⟨h.clock, .lint m⟩] },
      .next [.sleep h.script.lintDelay, .reconcile reconciler h.script.failures])

/-! ### Tasks -/

def hasEnded (h : Host) (id : Nat) : Bool :=
  match h.tasks[id]? with
  | some .ended | none => true
  | _ => false

/-- A task ends. The main task goes on if it may wait for that, and so do the keepers of inboxes
that nobody else can send to. -/
def endTask (h : Host) (id : Nat) : Host :=
  let ended := h.setTask id .ended
  let joined := if ended.joining then { ended with joining := false }.wake main else ended
  joined.wakeOrphans

def join (h : Host) (tasks : List Nat) : Host × Flow :=
  if tasks.all h.hasEnded then (h, .next []) else ({ h with joining := true }, .suspend [.join tasks])

def abandon (h : Host) (id : Nat) : Host :=
  match h.inboxes[id]? with
  | some inbox => (h.setTask inbox.task .ended).dropTimers inbox.task
  | none => h

def endSession (h : Host) : Host :=
  match h.session with
  | some s =>
    let abandoned := h.abandon s.inbox
    { abandoned with session := none }
  | none => h

def perform (h : Host) (id : Nat) : Stage → Host × Flow
  | .pause => (h, .giveWay [])
  | .sleep ms => h.sleep id ms
  | .cascade .pause => (h, .giveWay [])
  | .cascade s => h.onBench (s.perform h.bench) .cascade
  | .opening .pause => (h, .giveWay [])
  | .opening (.answer opened) => h.answer (.flag opened)
  | .opening s => h.onBench (s.perform h.bench) .opening
  | .startup s => h.startUp .startup (fun restarting => h.answer (.restarting restarting)) s
  | .activation s =>
    h.startUp .activation (fun restarting => (h, .next (h.afterStartup restarting))) s
  | .followSettings => (h.followSettings, .next [])
  | .finishActivation restarting => (h.installSession restarting).answer (.restarting restarting)
  | .publish p =>
    (h, .next (List.replicate h.script.publishPauses .pause ++
      [.sleep h.script.publishDelay, .record p]))
  | .record p => ({ h with published := h.published ++ [⟨h.clock, p⟩] }, .next [])
  | .send requests t => (h.send requests t, .next [])
  | .announceLicense requests =>
    let accepted := h.bench.settings.acceptedLicense
    (h, .next (.publish (License.publication accepted) ::
      if accepted then [.send requests .licenseAccepted] else []))
  | .greet => (h.withBench (h.bench.inform startedNotice), .next [])
  | .lint reconciler => h.lint reconciler
  | .reconcile reconciler failures =>
    h.acquire id reconciler [.publishAll reconciler failures]
  | .publishAll reconciler failures =>
    let plan := (h.reconciler reconciler).plan failures
    (h, .next (plan.operations.map .publish ++ [.finishPass reconciler plan]))
  | .finishPass reconciler plan => (h.finishPass id reconciler plan, .next [])
  | .readSnapshot reconciler => h.acquire id reconciler [.finishSnapshot reconciler]
  | .finishSnapshot reconciler =>
    (h.release reconciler).answer (.snapshot (h.reconciler reconciler).snapshot)
  | .built success =>
    (h.withBench (h.bench.inform (Command.builtNotice success))).answer (.flag success)
  | .deployed result target =>
    (h.withBench (h.bench.inform (Command.deployedNotice result.success target))).answer
      (.deployed result)
  | .join tasks => h.join tasks
  | .endSession => (h.endSession, .next [])
  | .settle 0 => (h, .next [])
  | .settle (turns + 1) =>
    (h, if h.ready.isEmpty && h.deferred.isEmpty then .next [] else .giveWay [.settle turns])

end ModelWorkspace.Host
