import PocketShell.SessionTabs.Address

/-!
# Launching an agent in a new session

A session is created in the folder, and the line that starts the agent is typed once its PTY is
registered. One slot holds the launch that is armed, and a watcher of the shell under its identity
types. The session panel parks a launch for the workspace to collect.

* `State` and the functions of the composable. `Target` and the numbers of launches and writes are
  kept beside them, and no function of the source reads those.
* `Action`, `State.step`, `run`: creates, parked launches, registered shells, the watchers' turns,
  and the answers in any order.
-/

namespace PocketShell.SessionTabs.Launch

open Js (Text ascii)

/-! ## 1. What is launched -/

/-- The session that was created for a launch. -/
structure Target where
  connectionId : Text
  key : Text
  deriving DecidableEq

/-- What the workspace is given: its folders, and the words for a choice of agent. -/
structure Deps (F C : Type) where
  rowsOf : RowsOf F
  folderPath : F → Option Text
  launchCommand : C → Text
  kindLabel : C → Text
  launchBlocker : C → Option Text

structure StartSessionResult where
  ok : Bool
  sessionName : Option Text
  folder : Option Text := none
  reused : Bool := false
  aplexer : Bool := false
  aplexerId : Option Text := none
  error : Option Text := none
  uncertain : Bool := false

namespace StartSessionResult

/-- The name of the session that was started. -/
def started (result : StartSessionResult) : Option Text :=
  if result.ok then truthy result.sessionName else none

/-- The row that the tree files under its folder. -/
def row (result : StartSessionResult) (name : Text) (fallbackFolder : Option Text) (now : Int) :
    Row :=
  let path := result.folder.or fallbackFolder
  if result.aplexer then
    { name, workspace := result.folder, tag := some name,
      rest := { backend := some .aplexer, aplexerId := result.aplexerId, path, created := now / 1000 } }
  else { name, rest := { path, created := now / 1000 } }

/-- The session that the result tells of. -/
def target (result : StartSessionResult) (connectionId name : Text) : Target :=
  ⟨connectionId,
    sessionIdentityKey name (if result.aplexer then some .aplexer else none) result.folder⟩

end StartSessionResult

/-- The reply to a start, or the message of its rejection. -/
inductive Answer
  | result (result : StartSessionResult)
  | rejected (message : Text)

/-- A launch that is armed. -/
structure PendingLaunch (C : Type) where
  session : Text
  backend : Backend
  workspace : Option Text
  choice : C
  launch : Nat
  target : Target

def PendingLaunch.key {C : Type} (p : PendingLaunch C) : Text :=
  sessionIdentityKey p.session (some p.backend) p.workspace

structure ParkedAgentLaunch (C : Type) where
  connectionId : Text
  session : Text
  workspace : Option Text
  choice : C
  parkedAt : Int
  launch : Nat
  target : Target

def LAUNCH_HANDOFF_TTL_MS : Int := 120000

/-- The parked launch is of the session of a workspace. An unknown workspace matches. -/
def ParkedAgentLaunch.isOf {C : Type} (parked : ParkedAgentLaunch C) (connectionId : Option Text)
    (session : Text) (workspace : Option Text) : Bool :=
  connectionId = some parked.connectionId && parked.connectionId ≠ [] &&
    parked.session = session &&
    (parked.workspace = none || workspace = none || parked.workspace = workspace)

/-- A create that waits: for the host's start, or for the refresh after an uncertain one. -/
structure Create (C : Type) where
  connectionId : Text
  path : Text
  before : List Text
  choice : Option C
  launch : Nat
  uncertain : Option StartSessionResult := none

/-- A line that was written to a shell. -/
structure Write where
  id : Nat
  launch : Nat
  deriving DecidableEq

/-- A registered shell, and the connection its PTY was opened on. -/
structure Shell where
  id : Nat
  connectionId : Text

/-- `bar` are the sessions that had a tab when the launch was asked for. -/
inductive Event
  | created (launch : Nat) (target : Target) (name : Text) (reused : Bool) (bar : List Text)
  | typed (write launch : Nat) (into : Target)
  | answered (write : Nat) (delivered : Bool)
  | ended (launch : Nat)
  | disarmed (launch byLaunch : Nat)
  deriving DecidableEq

structure State (F C : Type) where
  connectionId : Option Text := none
  folder : F
  sessions : Sessions.State Handle := {}
  /-- The registered shells by the identity of their session. -/
  byKey : Text → Option Shell := fun _ => none
  uncertainReadPending : Bool := false
  launching : Bool := false
  createError : Option Text := none
  selected : Option Text := none
  pendingLaunch : Option (PendingLaunch C) := none
  /-- The session and the choice of the deadline that runs. -/
  launchTimer : Option (Text × C) := none
  /-- The shell that the watcher saw last. -/
  watched : Option Nat := none
  parkedAgentLaunch : Option (ParkedAgentLaunch C) := none
  creates : List (Create C) := []
  writes : List Write := []
  nextLaunch : Nat := 0
  nextWrite : Nat := 0
  log : List Event := []

variable {F C : Type}

namespace State

def addLog (s : State F C) (e : Event) : State F C := { s with log := s.log ++ [e] }

def rows (deps : Deps F C) (s : State F C) : List Row := deps.rowsOf s.folder s.sessions.sessions

/-- The sessions that have a tab. -/
def tabs (deps : Deps F C) (s : State F C) : List Text := (s.rows deps).map (·.name)

def fail (s : State F C) (text : Text) : State F C := { s with createError := some text }

/-! ## 2. The armed launch -/

/-- The shell that the armed launch waits for. -/
def shellOfLaunch (s : State F C) : Option Shell :=
  s.pendingLaunch.bind fun p => (s.byKey p.key).filter fun shell => shell.id ≠ 0

/-- A turn of the watcher: when the shell is another than it saw last, and a launch is armed, the
line is typed. -/
def watchShell (s : State F C) : State F C :=
  let seen := s.shellOfLaunch.map (·.id)
  if seen = s.watched then s
  else
    let s := { s with watched := seen }
    match s.pendingLaunch, s.shellOfLaunch with
    | some p, some shell =>
      addLog { s with writes := s.writes ++ [⟨s.nextWrite, p.launch⟩], nextWrite := s.nextWrite + 1 }
        (.typed s.nextWrite p.launch ⟨shell.connectionId, p.key⟩)
    | _, _ => s

/-- The answer to a write. When the line was delivered, the slot and its deadline are cleared. -/
def inputAnswered (s : State F C) (i : Nat) (write : Write) (delivered : Bool) : State F C :=
  let s := addLog { s with writes := s.writes.eraseIdx i } (.answered write.id delivered)
  if delivered then
    let s := match s.pendingLaunch with
      | some p => s.addLog (.disarmed p.launch write.launch)
      | none => s
    { s with pendingLaunch := none, launchTimer := none }
  else s

/-- Arm the launch, and a deadline with it. -/
def armLaunch (deps : Deps F C) (s : State F C) (session : Text) (choice : C) (launch : Nat)
    (target : Target) : State F C :=
  let m := sessionMeta (s.rows deps) session
  { s with
    pendingLaunch := some ⟨session, (m.map (·.backend)).getD .tmux, m.bind (·.workspace), choice,
      launch, target⟩
    launchTimer := some (session, choice) }

/-- The deadline passes. -/
def timeOut (deps : Deps F C) (s : State F C) : State F C :=
  match s.launchTimer, s.pendingLaunch with
  | some (session, choice), some p =>
    if p.session ≠ session then { s with launchTimer := none }
    else
      addLog { s with
        pendingLaunch := none
        launchTimer := none
        createError := some (ascii "Started \"" ++ session ++
          ascii "\", but its terminal did not come up in time, so " ++ deps.kindLabel choice ++
          ascii " was not launched. The session is a plain shell - run `" ++
          deps.launchCommand choice ++ ascii "` in it to start the agent.") } (.ended p.launch)
  | _, _ => { s with launchTimer := none }

/-- Tear down an armed launch without its sentence. -/
def cancelPendingLaunch (s : State F C) : State F C :=
  let s := match s.pendingLaunch with
    | some p => s.addLog (.ended p.launch)
    | none => s
  { s with pendingLaunch := none, launchTimer := none }

/-! ## 3. Parked launches -/

/-- The session panel parks the launch for a session it started. -/
def parkAgentLaunch (s : State F C) (connectionId : Text) (result : StartSessionResult)
    (folder : Text) (choice : C) (now : Int) : State F C :=
  match result.started with
  | none => s
  | some name =>
    let target := result.target connectionId name
    addLog { s with
      parkedAgentLaunch := some ⟨connectionId, name, some (result.folder.getD folder), choice, now,
        s.nextLaunch, target⟩
      nextLaunch := s.nextLaunch + 1 } (.created s.nextLaunch target name result.reused [])

/-- A turn of the watcher of the slot and the tabs. -/
def collectParked (deps : Deps F C) (s : State F C) (now : Int) : State F C :=
  match s.parkedAgentLaunch with
  | none => s
  | some parked =>
    if !(s.tabs deps).contains parked.session then s
    else if now - parked.parkedAt > LAUNCH_HANDOFF_TTL_MS then { s with parkedAgentLaunch := none }
    else
      let workspace := (sessionMeta (s.rows deps) parked.session).bind (·.workspace)
      if parked.isOf s.connectionId parked.session workspace then
        armLaunch deps { s with parkedAgentLaunch := none, selected := some parked.session }
          parked.session parked.choice parked.launch parked.target
      else s

/-! ## 4. Creating a session -/

def openLaunchDialog (s : State F C) : State F C :=
  { s with createError := none, launching := true }

/-- Create a session here, up to the host's answer. -/
def createSession (deps : Deps F C) (s : State F C) (choice : Option C) : State F C :=
  if s.uncertainReadPending then s
  else
    let s := { s with launching := false, createError := none }
    match truthy s.connectionId, truthy (deps.folderPath s.folder) with
    | some connectionId, some path =>
      match choice.bind deps.launchBlocker with
      | some blocker => s.fail blocker
      | none =>
        { s with
          creates := s.creates ++ [⟨connectionId, path, s.tabs deps, choice, s.nextLaunch, none⟩]
          nextLaunch := s.nextLaunch + 1 }
    | _, _ => s.fail (ascii "This folder has no known directory on the host, so a session cannot be started in it.")

def notLaunched (deps : Deps F C) (choice : Option C) : Text :=
  match choice with
  | some choice => ascii " and " ++ deps.kindLabel choice ++ ascii " was not launched."
  | none => ascii "."

/-- The row of the session is filed as a pending one. -/
def filed (s : State F C) (create : Create C) (result : StartSessionResult) (name : Text)
    (now : Int) : State F C :=
  { s with sessions := s.sessions.addPending (result.row name (some create.path) now) now }

/-- A session that the host has started. -/
def created (deps : Deps F C) (s : State F C) (create : Create C) (result : StartSessionResult)
    (name : Text) (now : Int) : State F C :=
  if result.reused || create.before.contains name then
    s.fail (ascii "The host answered with \"" ++ name ++
      ascii "\", which is already open in this folder, so no new session was started" ++
      notLaunched deps create.choice)
  else
    let target := result.target create.connectionId name
    let s := (s.addLog (.created create.launch target name result.reused create.before)).filed
      create result name now
    if !(s.tabs deps).contains name then
      s.fail (ascii "Started \"" ++ name ++
        ascii "\" on the host, but it did not appear in this folder, so there is no tab for it here" ++
        notLaunched deps create.choice)
    else
      let s := { s with selected := some name }
      match create.choice with
      | some choice => s.armLaunch deps name choice create.launch target
      | none => s

/-- The rest of `createSession`, once the host has answered. -/
def started (deps : Deps F C) (s : State F C) (i : Nat) (create : Create C) (answer : Answer)
    (now : Int) : State F C :=
  match answer with
  | .rejected message =>
    fail { s with creates := s.creates.eraseIdx i }
      (ascii "Could not start a session here: " ++ message)
  | .result result =>
    match result.started with
    | some name => created deps { s with creates := s.creates.eraseIdx i } create result name now
    | none =>
      if result.uncertain then
        { s with
          uncertainReadPending := true
          creates := s.creates.set i { create with uncertain := some result }
          sessions := s.sessions.refresh false }
      else
        fail { s with creates := s.creates.eraseIdx i }
          (result.error.getD (ascii "Could not start a session here."))

/-- The refresh after an uncertain start has ended. -/
def refreshed (s : State F C) (i : Nat) (result : StartSessionResult) : State F C :=
  fail { s with uncertainReadPending := false, creates := s.creates.eraseIdx i }
    (result.error.getD (ascii "Could not start a session here."))

/-! ## 5. Shells -/

def register (s : State F C) (key : Text) (shell : Shell) : State F C :=
  if key = [] then s else { s with byKey := Function.update s.byKey key (some shell) }

/-- Nothing to drop when the shell is no longer the current one. -/
def unregister (s : State F C) (key : Text) (shellId : Option Nat) : State F C :=
  match s.byKey key with
  | none => s
  | some current =>
    if shellId ≠ none ∧ shellId ≠ some current.id then s
    else { s with byKey := Function.update s.byKey key none }

end State

/-! ## 6. Runs -/

inductive Action (F C : Type)
  | openLaunchDialog
  | createSession (choice : Option C)
  | started (i : Nat) (answer : Answer) (now : Int)
  | refreshed (i : Nat)
  | parkAgentLaunch (connectionId : Text) (result : StartSessionResult) (folder : Text) (choice : C)
      (now : Int)
  | collectParked (now : Int)
  | watchShell
  | inputAnswered (i : Nat) (delivered : Bool)
  | timeOut
  | cancelPendingLaunch
  | register (key : Text) (shell : Shell)
  | unregister (key : Text) (shellId : Option Nat)
  | clearShells
  | connect (connectionId : Option Text)
  | showFolder (folder : F)
  | list (action : Sessions.Action Handle)

/-- The watchers take their turns at any time. A folder switch tears the armed launch down. -/
def State.step (deps : Deps F C) (s : State F C) : Action F C → State F C
  | .openLaunchDialog => s.openLaunchDialog
  | .createSession choice => s.createSession deps choice
  | .started i answer now =>
    match s.creates[i]? with
    | some create => if create.uncertain.isSome then s else s.started deps i create answer now
    | none => s
  | .refreshed i =>
    match s.creates[i]? with
    | some create =>
      match create.uncertain with
      | some result => s.refreshed i result
      | none => s
    | none => s
  | .parkAgentLaunch connectionId result folder choice now =>
    s.parkAgentLaunch connectionId result folder choice now
  | .collectParked now => s.collectParked deps now
  | .watchShell => s.watchShell
  | .inputAnswered i delivered =>
    match s.writes[i]? with
    | some write => s.inputAnswered i write delivered
    | none => s
  | .timeOut => s.timeOut deps
  | .cancelPendingLaunch => s.cancelPendingLaunch
  | .register key shell => s.register key shell
  | .unregister key shellId => s.unregister key shellId
  | .clearShells => { s with byKey := fun _ => none }
  | .connect connectionId => { s with connectionId }
  | .showFolder folder =>
    { s.cancelPendingLaunch with folder, createError := none, launching := false }
  | .list action => { s with sessions := s.sessions.step action }

def State.start (folder : F) : State F C := { folder }

def State.run (deps : Deps F C) (folder : F) (actions : List (Action F C)) : State F C :=
  actions.foldl (State.step deps) (.start folder)

end PocketShell.SessionTabs.Launch
