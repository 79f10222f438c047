import ModelWorkspace.Host.Script
import ModelWorkspace.Lint.QuietPeriod
import ModelWorkspace.License
import ModelWorkspace.Problem.Reconciler
import ModelWorkspace.Setting.Follower
import ModelWorkspace.Workbench.Startup

/-! The host: a workbench, the tasks at work on it, and the clock. One task runs at a time, until it
gives way or waits. The main task is task number zero. -/
namespace ModelWorkspace.Host

/-- Where lint triggers are sent: to the host, which only collects them, or to an inbox that a
quiet period is kept for. -/
inductive Requests
  | observed
  | inbox (id : Nat)
  deriving DecidableEq

/-- A running session of the tooling. -/
structure Session where
  reconciler : Nat
  inbox : Nat
  /-- What its followers are cancelled by. -/
  token : Nat
  followers : List Nat := []
  restarting : Bool := false

/-- What a step of the main task comes to. -/
inductive Outcome
  | none
  | flag (b : Bool)
  | settingError (e : Setting.StoreError)
  | fileFault (fault : FileFault)
  | restarting (b : Bool)
  | message (m : Except MessageError Message)
  | commandError (e : CommandError)
  | deployed (r : DeployResult)
  | about (a : About)
  | plan (p : Plan)
  | snapshot (uris : List Uri)
  | listing (entries : List (Path × Entry))
  /-- A trigger was not sent, because the address of its document could not be read. -/
  | unreadableTrigger
  | text (s : Option String)

/-- A stage of a task. -/
inductive Stage
  | pause
  | sleep (ms : Nat)
  | cascade (s : Cascade.Stage)
  /-- A stage of opening the model directory whose answer is the outcome of the step. -/
  | opening (s : Cascade.Stage)
  | startup (s : Startup.Stage)
  /-- A stage of the start-up of the session that is being activated. -/
  | activation (s : Startup.Stage)
  | followSettings
  | finishActivation (restarting : Bool)
  | publish (p : Publication)
  | record (p : Publication)
  | send (requests : Requests) (t : Trigger)
  | announceLicense (requests : Requests)
  | greet
  | lint (reconciler : Nat)
  | reconcile (reconciler : Nat) (failures : List Failure)
  /-- The pass holds the reconciler. -/
  | publishAll (reconciler : Nat) (failures : List Failure)
  | finishPass (reconciler : Nat) (plan : Plan)
  | readSnapshot (reconciler : Nat)
  | finishSnapshot (reconciler : Nat)
  | built (success : Bool)
  | deployed (result : DeployResult) (target : Path)
  | join (tasks : List Nat)
  | endSession
  /-- Gives way until all others wait, but not more often than this. -/
  | settle (turns : Nat)

/-- A task. -/
inductive Task
  | routine (rest : List Stage)
  /-- A follower, what it is cancelled by, and where it sends triggers if it does. -/
  | follower (token : Nat) (requests : Option Requests) (f : Setting.Follower Stage)
  /-- Keeps the quiet period of an inbox and starts passes on a reconciler. -/
  | keeper (inbox : Nat) (period : QuietPeriod) (reconciler : Nat)
  | ended

/-- Triggers on their way to a quiet period. -/
structure Inbox where
  task : Nat
  queue : List Trigger := []

/-- How many tasks run in one turn, besides the main task. -/
def turnLength : Nat := 61

/-- A task that is woken at a time. -/
structure Timer where
  due : Nat
  task : Nat

end Host

/-- The host and all its tasks. -/
structure Host where
  bench : Workbench
  script : Host.Script := {}
  clock : Nat := 0
  tasks : List Host.Task := [.routine []]
  /-- The task whose turn it is. -/
  running : Option Nat := some 0
  /-- The tasks that can go on in this turn. -/
  ready : List Nat := []
  /-- How many tasks may still run before the next turn begins. -/
  quota : Nat := Host.turnLength
  /-- The tasks that gave way in this turn, the last one first. -/
  deferred : List Nat := []
  /-- Whether the main task can go on in the next turn. -/
  mainReady : Bool := false
  timers : List Host.Timer := []
  /-- The followers that wait for an event, in the order in which they began to. -/
  listeners : List Nat := []
  /-- Whether the main task waits for other tasks to end. -/
  joining : Bool := false
  /-- Whether each token has been cancelled. -/
  tokens : List Bool := [false]
  /-- The token of followers that belong to no session. -/
  token : Nat := 0
  reconcilers : List Reconciler := [{}]
  inboxes : List Host.Inbox := []
  current : Host.Requests := .observed
  session : Option Host.Session := none
  activating : Option Host.Session := none
  /-- The position of the host itself in the feed of changes. -/
  position : Nat := 0
  calls : List (Host.Timed Host.Call) := []
  published : List (Host.Timed Publication) := []
  observed : List Trigger := []
  outcome : Host.Outcome := .none

namespace Host

/-- The reconciler of passes that belong to no session. -/
def ownReconciler : Nat := 0

def main : Nat := 0

/-! ### Turns -/

/-- Lets a task go on: the main task in the next turn, another one behind those that are ready. -/
def wake (h : Host) (id : Nat) : Host :=
  if id = main then { h with mainReady := true }
  else if h.ready.contains id then h
  else { h with ready := h.ready ++ [id] }

def wakeAll (h : Host) (ids : List Nat) : Host := ids.foldl wake h

def addTask (h : Host) (t : Task) : Host :=
  let added := { h with tasks := h.tasks ++ [t] }
  added.wake h.tasks.length

def setTask (h : Host) (id : Nat) (t : Task) : Host := { h with tasks := h.tasks.set id t }

/-- The running task waits for the next turn. -/
def giveWay (h : Host) (id : Nat) : Host :=
  if id = main then { h with running := none, mainReady := true }
  else { h with running := none, deferred := id :: h.deferred }

/-- The running task waits to be woken. -/
def suspend (h : Host) : Host := { h with running := none }

def addTimer (h : Host) (id due : Nat) : Host := { h with timers := h.timers ++ [⟨due, id⟩] }

def dropTimers (h : Host) (id : Nat) : Host :=
  { h with timers := h.timers.filter fun t => t.task != id }

/-- Moves the clock to the first timer and wakes all that are due. -/
def advanceClock (h : Host) : Option Host :=
  match h.timers with
  | [] => none
  | first :: others =>
    let now := max h.clock (others.foldl (fun due t => min due t.due) first.due)
    let later := { h with clock := now, timers := h.timers.filter fun t => now < t.due }
    some (later.wakeAll ((h.timers.filter fun t => t.due ≤ now).map (·.task)))

/-- Begins a turn: the main task first if it can go on, then those that are ready already, then those
that gave way, the last one first. -/
def beginTurn (h : Host) : Host :=
  { h with
    ready := (if h.mainReady then [main] else []) ++ h.ready ++ h.deferred
    quota := turnLength
    deferred := []
    mainReady := false }

/-- The next turn. If no task can go on, time does first. -/
def nextTurn (h : Host) : Option Host :=
  if h.mainReady || !h.deferred.isEmpty || !h.ready.isEmpty then some h.beginTurn
  else h.advanceClock.map beginTurn

/-! ### The workbench -/

/-- Takes over a changed workbench. If there are new events, those who wait for one can go on. -/
def withBench (h : Host) (bench : Workbench) : Host :=
  if h.bench.settings.feed.size < bench.settings.feed.size then
    let changed := { h with bench, listeners := [] }
    changed.wakeAll h.listeners
  else { h with bench }

/-! ### Triggers -/

def hasSender (h : Host) (id : Nat) : Bool :=
  h.current == .inbox id || h.session.any (·.inbox == id) || h.activating.any (·.inbox == id) ||
    h.tasks.any fun
      | .follower _ (some (.inbox i)) _ => i == id
      | _ => false

def isKept (h : Host) (id : Nat) : Bool :=
  match h.inboxes[id]? with
  | some inbox =>
    match h.tasks[inbox.task]? with
    | some (.keeper ..) => true
    | _ => false
  | none => false

/-- Wakes the keepers of inboxes that nobody can send to any more, so that they end. -/
def wakeOrphans (h : Host) : Host :=
  h.inboxes.zipIdx.foldl
    (fun h (inbox, id) => if h.hasSender id || !h.isKept id then h else h.wake inbox.task) h

/-- Sends a trigger. Without a keeper it is lost. -/
def send (h : Host) (requests : Requests) (t : Trigger) : Host :=
  match requests with
  | .observed => { h with observed := h.observed ++ [t] }
  | .inbox id =>
    match h.inboxes[id]? with
    | some inbox =>
      if h.isKept id then
        let sent := { h with inboxes := h.inboxes.set id { inbox with queue := inbox.queue ++ [t] } }
        sent.wake inbox.task
      else h
    | none => h

/-- Starts the keeper of a new inbox, whose passes are on the reconciler. -/
def startKeeper (h : Host) (reconciler : Nat) : Host :=
  let inbox : Inbox := ⟨h.tasks.length, []⟩
  let added := { h with inboxes := h.inboxes ++ [inbox] }
  added.addTask (.keeper h.inboxes.length ⟨none⟩ reconciler)

/-! ### Followers -/

def follow (h : Host) (token : Nat) (requests : Option Requests) (key : Setting.Key)
    (handler : List Stage) : Host :=
  h.addTask (.follower token requests
    (Setting.Follower.attend h.bench.settings.feed key handler))

def followCascade (h : Host) (token : Nat) : Host :=
  ((h.follow token none .platformVersion (Cascade.onPlatformVersion.map .cascade)).follow
    token none .modelVersion (Cascade.onModelVersion.map .cascade)).follow
    token none .modelDirectory (Cascade.onModelDirectory.map .cascade)

def followLicense (h : Host) (token : Nat) (requests : Requests) : Host :=
  h.follow token (some requests) .acceptedLicense [.announceLicense requests, .pause]

def isCancelled (h : Host) (token : Nat) : Bool := (h.tokens[token]?).getD false

def follows (h : Host) (token id : Nat) : Bool :=
  match h.tasks[id]? with
  | some (.follower t _ _) => t == token
  | _ => false

/-- Cancels a token: the followers that wait for events can go on, and end. -/
def cancel (h : Host) (token : Nat) : Host :=
  let cancelled := { h with
    tokens := h.tokens.set token true
    listeners := h.listeners.filter fun id => !h.follows token id }
  cancelled.wakeAll (h.listeners.filter (h.follows token))

def followersOf (h : Host) (token : Nat) : List Nat :=
  (List.range h.tasks.length).filter (h.follows token)

end Host

end ModelWorkspace
