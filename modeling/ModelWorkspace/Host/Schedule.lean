import ModelWorkspace.Host.Perform

/-! The schedule. The host goes on step by step: the running task does one thing, or the next task
gets its turn, or the clock moves. It comes to rest where the main task has nothing left to do. -/
namespace ModelWorkspace.Host

def pass (h : Host) (id : Nat) : Flow → Host
  | .next _ => h
  | .giveWay _ => h.giveWay id
  | .suspend _ => h.suspend

/-- A routine does its first stage, or ends; the main task only waits for more to do. -/
def workRoutine (h : Host) (id : Nat) : List Stage → Host
  | [] => if id = main then h.suspend else (h.endTask id).suspend
  | s :: rest =>
    let (h, flow) := h.perform id s
    (h.setTask id (.routine (flow.stages ++ rest))).pass id flow

/-- A follower that listens ends if it is cancelled, or receives an event, or waits for one. -/
def listen (h : Host) (id token : Nat) (requests : Option Requests) (f : Setting.Follower Stage) :
    Host :=
  if h.isCancelled token then (h.endTask id).suspend
  else
    match f.receive? h.bench.settings.feed with
    | none => { h with listeners := h.listeners ++ [id] }.suspend
    | some f =>
      let received := h.setTask id (.follower token requests f)
      match f.phase with
      | .noticed _ => received.giveWay id
      | _ => received

def workFollower (h : Host) (id token : Nat) (requests : Option Requests)
    (f : Setting.Follower Stage) : Host :=
  match f.phase with
  | .listening => h.listen id token requests f
  | .noticed key => h.setTask id (.follower token requests (f.consider key))
  | .handling [] => h.setTask id (.follower token requests (f.proceed []))
  | .handling (s :: rest) =>
    let (h, flow) := h.perform id s
    (h.setTask id (.follower token requests (f.proceed (flow.stages ++ rest)))).pass id flow
  | .stopped => (h.endTask id).suspend

/-- The quiet period is over: a pass starts if the license is accepted now. -/
def finishPeriod (h : Host) (id inbox : Nat) (period : QuietPeriod) (reconciler : Nat) : Host :=
  let finished := (h.setTask id (.keeper inbox period.finish reconciler)).dropTimers id
  if h.bench.settings.acceptedLicense then finished.addTask (.routine [.lint reconciler])
  else finished

/-- The keeper of an inbox waits for a trigger, or for the end of the quiet period. -/
def awaitTrigger (h : Host) (id : Nat) (period : QuietPeriod) : Host :=
  match period.deadline? with
  | some deadline =>
    if h.timers.any (·.task == id) then h.suspend else (h.addTimer id deadline).suspend
  | none => h.suspend

/-- The keeper of an inbox goes on. Triggers come first; without anyone who could send more it ends,
even within a quiet period. -/
def workKeeper (h : Host) (id inbox : Nat) (period : QuietPeriod) (reconciler : Nat) : Host :=
  match h.inboxes[inbox]? with
  | none => (h.endTask id).suspend
  | some ⟨task, trigger :: queue⟩ =>
    let taken := { h with inboxes := h.inboxes.set inbox ⟨task, queue⟩ }
    (taken.setTask id (.keeper inbox (period.receive trigger h.clock) reconciler)).dropTimers id
  | some ⟨_, []⟩ =>
    if !h.hasSender inbox then ((h.endTask id).dropTimers id).suspend
    else if period.isOver h.clock then h.finishPeriod id inbox period reconciler
    else h.awaitTrigger id period

/-- The running task does one thing. -/
def work (h : Host) (id : Nat) : Host :=
  match h.tasks[id]? with
  | some (.routine stages) => h.workRoutine id stages
  | some (.follower token requests f) => h.workFollower id token requests f
  | some (.keeper inbox period reconciler) => h.workKeeper id inbox period reconciler
  | some .ended | none => h.suspend

/-- A ready task begins to run. Only the main task does not count for the length of a turn. -/
def resume (h : Host) (id : Nat) (rest : List Nat) : Host :=
  { h with
    running := some id
    ready := rest
    quota := if id = main then h.quota else h.quota - 1 }

def step (h : Host) : Option Host :=
  match h.running, h.ready with
  | some id, _ => some (h.work id)
  | none, id :: rest => if id = main || 0 < h.quota then some (h.resume id rest) else h.nextTurn
  | none, [] => h.nextTurn

/-- Whether the main task runs and has nothing to do. -/
def isIdle (h : Host) : Bool :=
  h.running == some main &&
    match h.tasks[main]? with
    | some (.routine []) => true
    | _ => false

def runWithin : Nat → Host → Host
  | 0, h => h
  | n + 1, h =>
    if h.isIdle then h
    else
      match h.step with
      | some next => runWithin n next
      | none => h

def stepLimit : Nat := 10000000

def run (h : Host) : Host := runWithin stepLimit h

/-- How often the main task gives way after what it did, for the others to come to rest. -/
def settlingTurns : Nat := 2000

/-- The main task does these stages, and lets the others come to rest. -/
def runMain (h : Host) (stages : List Stage) : Host :=
  (h.setTask main (.routine (stages ++ [.settle settlingTurns]))).run

end ModelWorkspace.Host
