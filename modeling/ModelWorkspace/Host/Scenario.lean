import ModelWorkspace.Host.Schedule

/-! Scenarios: what the editor, the user and the clock do to a host, step by step, and what each step
leads to once everything has come to rest. -/
namespace ModelWorkspace.Host

open Json (Value)

/-- Changes of a script. What is not given stays. -/
structure ScriptChange where
  failures : Option (List Failure) := none
  build : Option Bool := none
  deploy : Option DeployResult := none
  lintDelay : Option Nat := none
  buildDelay : Option Nat := none
  deployDelay : Option Nat := none
  publishPauses : Option Nat := none
  publishDelay : Option Nat := none

def Script.apply (s : Script) (c : ScriptChange) : Script where
  failures := c.failures.getD s.failures
  build := c.build.getD s.build
  deploy := c.deploy.getD s.deploy
  lintDelay := c.lintDelay.getD s.lintDelay
  buildDelay := c.buildDelay.getD s.buildDelay
  deployDelay := c.deployDelay.getD s.deployDelay
  publishPauses := c.publishPauses.getD s.publishPauses
  publishDelay := c.publishDelay.getD s.publishDelay

/-- A step of a scenario. -/
inductive Step
  /-- Writes settings one after the other, up to the first that cannot be written. -/
  | set (writes : List (Setting.Key × Value))
  | startFollowers
  /-- Cancels the followers that belong to no session, and waits for them. -/
  | cancelFollowers
  | followLicense
  | handle (s : List Cascade.Stage)
  | openModelDirectory
  | replaceModelFolder (name : String) (path : Path)
  | startUp
  | createMessage (silent : Bool)
  | activate (editorActive : Bool)
  | shutDown
  | build
  | deploy
  | requestLint
  | about
  /-- Sends triggers one after the other, up to the first that could not be read. -/
  | send (triggers : List (Option Trigger))
  | startKeeper
  | lint
  | readSnapshot
  | announceLicense
  | changeScript (change : ScriptChange)
  /-- The editor itself replaces a range of the folders. -/
  | editFolders (start count : Nat) (insert : List Folder)
  | advance (ms : Nat)
  | changeFiles (change : FileTree → Except FileFault FileTree)
  | list (path : Path)
  | read (path : Path)

/-- The requests that commands go to: those of the session, if there is one. -/
def requests (h : Host) : Requests :=
  match h.session with
  | some s => .inbox s.inbox
  | none => h.current

def sessionReconciler (h : Host) : Nat :=
  match h.session with
  | some s => s.reconciler
  | none => ownReconciler

def withOutcome (h : Host) (o : Outcome) : Host := { h with outcome := o }

/-- Writes settings one after the other, up to the first that cannot be written. -/
def writeAll (h : Host) : List (Setting.Key × Value) → Host × Option Setting.StoreError
  | [] => (h, none)
  | (key, value) :: rest =>
    match h.bench.write key value with
    | .ok bench => writeAll (h.withBench bench) rest
    | .error e => (h, some e)

def set (h : Host) (writes : List (Setting.Key × Value)) : Host :=
  match h.writeAll writes with
  | (h, none) => h
  | (h, some e) => h.withOutcome (.settingError e)

/-- Sends triggers one after the other, up to the first that could not be read. -/
def sendAll (h : Host) : List (Option Trigger) → Host
  | [] => h
  | some t :: rest => sendAll (h.send h.current t) rest
  | none :: _ => h.withOutcome .unreadableTrigger

/-- Begins an activation: a keeper of new requests, and the stages that follow. -/
def beginActivation (h : Host) (editorActive : Bool) : Host × List Stage :=
  let session : Session :=
    { reconciler := h.reconcilers.length, inbox := h.inboxes.length, token := h.tokens.length }
  let unused : Reconciler := {}
  let prepared := { h with
    reconcilers := h.reconcilers ++ [unused]
    tokens := h.tokens ++ [false]
    activating := some session }
  let kept := prepared.startKeeper session.reconciler
  (if editorActive then kept.send (.inbox session.inbox) .editorReady else kept,
    [.activation .inspect])

/-- Begins to end the session: its followers are cancelled, and it ends when they have. -/
def beginShutdown (h : Host) : Host × List Stage :=
  match h.session with
  | some s => (h.cancel s.token, [.join s.followers, .endSession])
  | none => (h, [])

def beginBuild (h : Host) : Host × List Stage :=
  match Command.prepareBuild h.bench with
  | (bench, .error e) => ((h.withBench bench).withOutcome (.commandError e), [])
  | (bench, .ok m) =>
    let informed := h.withBench (bench.inform Command.buildingNotice)
    ({ informed with calls := h.calls ++ [⟨h.clock, .build m⟩] },
      [.sleep h.script.buildDelay, .built h.script.build])

def beginDeploy (h : Host) : Host × List Stage :=
  match Command.prepareDeploy h.bench with
  | (bench, .error e) => ((h.withBench bench).withOutcome (.commandError e), [])
  | (bench, .ok d) =>
    let informed := h.withBench (bench.inform Command.deployingNotice)
    ({ informed with calls := h.calls ++ [⟨h.clock, .deploy d⟩] },
      [.sleep h.script.deployDelay, .deployed h.script.deploy d.message.deployDirectory])

/-- Begins a step: what is done at once, and the stages of the main task that follow. -/
def begin (h : Host) : Step → Host × List Stage
  | .set writes => (h.set writes, [])
  | .startFollowers => (h.followCascade h.token, [])
  | .cancelFollowers =>
    let cancelled := h.cancel h.token
    ({ cancelled with token := h.tokens.length, tokens := cancelled.tokens ++ [false] },
      [.join (h.followersOf h.token)])
  | .followLicense => (h.followLicense h.token h.current, [])
  | .handle stages => (h, stages.map .cascade)
  | .openModelDirectory => (h, Cascade.syncModelFolder.map .opening)
  | .replaceModelFolder name path =>
    let (bench, opened) := h.bench.replaceModelFolder name path
    ((h.withBench bench).withOutcome (.flag opened), [])
  | .startUp => (h, [.startup .inspect])
  | .createMessage true => (h.withOutcome (.message (Message.ofWorkbench h.bench)), [])
  | .createMessage false =>
    let (bench, m) := Message.create h.bench
    ((h.withBench bench).withOutcome (.message m), [])
  | .activate editorActive => h.beginActivation editorActive
  | .shutDown => h.beginShutdown
  | .build => h.beginBuild
  | .deploy => h.beginDeploy
  | .requestLint => (h.send h.requests .command, [])
  | .about =>
    let a := About.of h.bench.settings
    ((h.withBench (h.bench.inform a.text)).withOutcome (.about a), [])
  | .send triggers => (h.sendAll triggers, [])
  | .startKeeper =>
    let kept := { h.startKeeper ownReconciler with current := .inbox h.inboxes.length }
    (kept.wakeOrphans, [])
  | .lint => (h, [.lint ownReconciler])
  | .readSnapshot => (h, [.readSnapshot h.sessionReconciler])
  | .announceLicense => (h, [.announceLicense h.current])
  | .changeScript change => ({ h with script := h.script.apply change }, [])
  | .editFolders start count insert =>
    match h.bench.folders.update start count insert with
    | some folders => ({ h with bench.folders := folders, outcome := .flag true }, [])
    | none => (h.withOutcome (.flag false), [])
  | .advance ms => (h, [.sleep ms])
  | .changeFiles change =>
    match change h.bench.files with
    | .ok files => ({ h with bench.files := files }, [])
    | .error fault => (h.withOutcome (.fileFault fault), [])
  | .list path => (h.withOutcome (.listing (h.bench.files.listing path)), [])
  | .read path => (h.withOutcome (.text (h.bench.files.read path).toOption), [])

/-! ### Reports -/

/-- The settings, the folders and the text of the settings file. -/
structure Picture where
  settings : Setting.Values
  folders : Option (List Folder)
  settingsFile : Option String

/-- The parts of a picture that differ from the one before. -/
structure News where
  settings : Option Setting.Values
  folders : Option (Option (List Folder))
  settingsFile : Option (Option String)

namespace Picture

def of (w : Workbench) : Picture where
  settings := w.settings.values
  folders := w.folders.folders?
  settingsFile := w.settings.file.bind fun path => (w.files.read path).toOption

/-- What is new in a picture; without one before it all is. -/
def since (new : Picture) : Option Picture → News
  | none => ⟨some new.settings, some new.folders, some new.settingsFile⟩
  | some old =>
    { settings := if new.settings.same old.settings then none else some new.settings
      folders := if new.folders = old.folders then none else some new.folders
      settingsFile :=
        if new.settingsFile = old.settingsFile then none else some new.settingsFile }

end Picture

/-- What a step led to. -/
structure Report where
  outcome : Outcome
  /-- How many changes of settings were missed before the others. -/
  missed : Nat
  changes : List Setting.Key
  notices : NoticeLog
  calls : List (Timed Call)
  published : List (Timed Publication)
  triggers : List Trigger
  news : News
  time : Nat

/-- What the host has to report since the last report, and since the last picture. -/
def report (h : Host) (last : Option Picture) : Report where
  outcome := h.outcome
  missed := h.bench.settings.feed.lost h.position
  changes := h.bench.settings.feed.unread h.position
  notices := h.bench.notices
  calls := h.calls
  published := h.published
  triggers := h.observed
  news := (Picture.of h.bench).since last
  time := h.clock

def reported (h : Host) : Host :=
  { h with
    outcome := .none
    position := h.bench.settings.feed.size
    bench.notices := []
    calls := []
    published := []
    observed := [] }

/-- Does a step and lets everything come to rest. -/
def act (h : Host) (s : Step) : Host :=
  let (h, stages) := h.begin s
  h.runMain stages

def play (h : Host) (last : Picture) : List Step → List Report
  | [] => []
  | s :: rest =>
    let after := h.act s
    after.report (some last) :: play after.reported (Picture.of after.bench) rest

/-- The reports of a scenario: one before the first step, and one for each step. -/
def reports (h : Host) (steps : List Step) : List Report :=
  h.report none :: play h.reported (Picture.of h.bench) steps

def start (bench : Workbench) (script : Script) (settings : List (Setting.Key × Value)) :
    Except Setting.StoreError Host :=
  let h : Host := { bench, script }
  match h.writeAll settings with
  | (h, none) => .ok h.reported
  | (_, some e) => .error e

end ModelWorkspace.Host
