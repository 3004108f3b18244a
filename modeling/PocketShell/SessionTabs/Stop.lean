import PocketShell.SessionTabs.Address

/-!
# Stopping sessions

The one destructive action: a session from the tab bar, or the sessions of a folder from its row
menu. A stop is armed, and then confirmed in its dialog.

* `State`: what the two surfaces keep, with the records they take down: the rows of the active
  connection, the panes, and the composer's records.
* `Stop` and the log: what was armed, on which connection, what was asked and answered, with the
  connection of each row, pane and refresh. No function of the source reads them.
* `Action`, `State.step`, `run`: the dialogs, the hosts' replies, and what else writes the records.
-/

namespace PocketShell.SessionTabs

open Js (Text ascii)

/-! ## 1. What is stopped -/

/-- A session of a folder as its row menu has it. -/
structure Entry where
  name : Text
  workspace : Option Text := none
  aplexerId : Option Text := none
  backend : Backend := .tmux
  deriving DecidableEq

namespace Entry

def killRef (entry : Entry) : Option AplexerRef :=
  match entry.backend with
  | .tmux => none
  | .aplexer => some ⟨truthy entry.workspace, truthy entry.aplexerId⟩

def session (entry : Entry) : Session := sessionOf entry.name entry.killRef

def identityKey (entry : Entry) : Text :=
  sessionIdentityKey entry.name (some entry.backend) entry.workspace

/-- The entry of a tab: what the folder's rows say of its name. -/
def ofTab (rows : List Row) (name : Text) : Entry :=
  match sessionMeta rows name with
  | some m => ⟨name, m.workspace, m.aplexerId, m.backend⟩
  | none => { name }

end Entry

/-- A kill that the host is asked for. -/
structure Kill where
  connectionId : Text
  name : Text
  ref : Option AplexerRef
  deriving DecidableEq

def Kill.session (kill : Kill) : Session := sessionOf kill.name kill.ref

/-- The reply to a kill, or the message of its rejection. -/
inductive Answer
  | replied (ok : Bool) (code error : Option Text)
  | rejected (message : Text)

/-- The kill is a success. A session that was gone already is one. -/
def Answer.gone : Answer → Bool
  | .replied ok code _ => ok || code = some (ascii "not-found")
  | .rejected _ => false

/-- What the host says of a failed kill. -/
def Answer.error : Answer → Option Text
  | .replied _ _ error => error
  | .rejected message => some message

def quoted (name : Text) : Text := ascii "\"" ++ name ++ ascii "\""

/-! ## 2. The two surfaces -/

inductive Surface
  | bar
  | panel
  deriving DecidableEq

/-- What was armed. -/
structure Stop where
  surface : Surface
  id : Nat
  connection : Option Text
  named : List Entry
  deriving DecidableEq

inductive Event
  | armed (stop : Stop)
  | asked (stop : Stop) (kill : Kill)
  | answered (stop : Stop) (name : Text) (gone : Bool)
  | reported (stop : Stop) (text : Text)
  deriving DecidableEq

structure FolderMenuState where
  label : Text
  sessions : List Entry
  openedOn : Option Text

structure FolderStopTarget where
  label : Text
  sessions : List Entry

/-- A confirmed stop of a tab that waits for the host. -/
structure TabKill where
  connectionId : Text
  session : Text
  stop : Stop

/-- A confirmed stop of a folder. The first session of `todo` waits for the host. -/
structure Batch where
  connectionId : Text
  target : FolderStopTarget
  todo : List Entry
  failed : List Text := []
  reason : Option Text := none
  stop : Stop

/-- A mounted pane. -/
structure Pane where
  identity : Text
  connection : Option Text
  deriving DecidableEq

variable {F : Type}

structure State (F : Type) where
  connectionId : Option Text := none
  folder : F
  sessions : Sessions.State Handle := {}
  openPanes : List Pane := []
  /-- The keys of the composer's records. -/
  composer : List Text := []
  stopping : Option Text := none
  stopBusy : Bool := false
  createError : Option Text := none
  kills : List TabKill := []
  folderMenu : Option FolderMenuState := none
  folderStopping : Option FolderStopTarget := none
  folderStopBusy : Bool := false
  folderStopError : Option Text := none
  batches : List Batch := []
  armed : Stop := ⟨.bar, 0, none, []⟩
  folderArmed : Stop := ⟨.panel, 0, none, []⟩
  nextStop : Nat := 0
  log : List Event := []
  /-- The connection of each refresh, by its ticket. -/
  refreshes : List Text := []
  /-- The log of the list, each entry with the connection that it is about. -/
  record : List (Option Text × Sessions.Event) := []

/-- The row as one of the connection. -/
def onConnection (connection : Option Text) (row : Row) : Row :=
  { row with rest := { row.rest with connection } }

namespace State

def addLog (s : State F) (e : Event) : State F := { s with log := s.log ++ [e] }

/-- The rows of the folder that is shown. -/
def rows (rowsOf : RowsOf F) (s : State F) : List Row := rowsOf s.folder s.sessions.sessions

def forget (s : State F) (key : Text) : State F :=
  { s with composer := s.composer.filter (· ≠ key) }

/-- A call or a reply of the list of sessions. -/
def list (s : State F) (connection : Option Text) (action : Sessions.Action Handle) : State F :=
  let sessions := s.sessions.step action
  { s with
    sessions
    record := s.record ++ (sessions.log.drop s.sessions.log.length).map (connection, ·) }

def removeLocal (s : State F) (connectionId name : Text) (workspace : Option Text) (now : Int) :
    State F :=
  s.list (some connectionId) (.removeLocal name workspace now)

def refresh (s : State F) (connectionId : Text) (quiet : Bool) : State F :=
  { s.list (some connectionId) (.refresh quiet) with refreshes := s.refreshes ++ [connectionId] }

/-! ### A tab -/

/-- The `×`, the tab menu and the shortcut. -/
def arm (rowsOf : RowsOf F) (s : State F) (name : Text) : State F :=
  let stop : Stop := ⟨.bar, s.nextStop, s.connectionId, [.ofTab (s.rows rowsOf) name]⟩
  addLog { s with stopping := some name, armed := stop, nextStop := s.nextStop + 1 } (.armed stop)

/-- Kill the session, up to the host's reply. -/
def confirmStop (rowsOf : RowsOf F) (s : State F) : State F :=
  match s.stopping, s.connectionId with
  | some session, some connectionId =>
    if session = [] || connectionId = [] then { s with stopping := none }
    else
      addLog { s with
        stopBusy := true
        kills := s.kills ++ [⟨connectionId, session, s.armed⟩] }
        (.asked s.armed ⟨connectionId, session, aplexerRefFor (s.rows rowsOf) session⟩)
  | _, _ => { s with stopping := none }

/-- The `finally` of `confirmStop`. -/
def settle (s : State F) (i : Nat) : State F :=
  { s with stopBusy := false, stopping := none, kills := s.kills.eraseIdx i }

def showError (s : State F) (stop : Stop) (text : Text) : State F :=
  addLog { s with createError := some text } (.reported stop text)

/-- Take down what the desktop keeps under the session's name. -/
def takeDown (rowsOf : RowsOf F) (s : State F) (kill : TabKill) (now : Int) : State F :=
  let killedIdentity := identityFor (s.rows rowsOf) kill.session none
  let workspace := (sessionMeta (s.rows rowsOf) kill.session).bind (·.workspace)
  let s := s.removeLocal kill.connectionId kill.session workspace now
  forget { s with openPanes := s.openPanes.filter (·.identity ≠ killedIdentity) }
    (targetKey (some kill.connectionId) killedIdentity)

/-- The rest of `confirmStop`, once the host has answered. -/
def killed (rowsOf : RowsOf F) (s : State F) (i : Nat) (kill : TabKill) (answer : Answer)
    (now : Int) : State F :=
  let s := s.addLog (.answered kill.stop kill.session answer.gone)
  if answer.gone then ((s.takeDown rowsOf kill now).settle i).refresh kill.connectionId false
  else
    (s.showError kill.stop (answer.error.getD (ascii "Could not stop " ++ quoted kill.session ++
      ascii "."))).settle i

/-! ### A folder -/

def openFolderMenu (s : State F) (label : Text) (sessions : List Entry) : State F :=
  { s with folderMenu := some ⟨label, sessions, s.connectionId⟩ }

def askStopFolder (s : State F) : State F :=
  match s.folderMenu with
  | none => s
  | some target =>
    if target.sessions = [] then { s with folderMenu := none }
    else
      let stop : Stop := ⟨.panel, s.nextStop, target.openedOn, target.sessions⟩
      addLog { s with
        folderMenu := none
        folderStopError := none
        folderStopping := some ⟨target.label, target.sessions⟩
        folderArmed := stop
        nextStop := s.nextStop + 1 } (.armed stop)

/-- What is reported of a batch. -/
def stopError (batch : Batch) : Text :=
  ascii "Could not stop " ++ (ascii ", ").intercalate (batch.failed.map quoted) ++ ascii " in " ++
    batch.target.label ++ ascii "." ++
    match truthy batch.reason with
    | some reason => ascii " " ++ reason
    | none => []

/-- The end of `confirmStopFolder`. -/
def finish (s : State F) (batch : Batch) : State F :=
  let s := { s with folderStopBusy := false, folderStopping := none }
  let s :=
    if batch.failed = [] then s
    else addLog { s with folderStopError := some (stopError batch) }
      (.reported batch.stop (stopError batch))
  s.refresh batch.connectionId false

/-- The loop over what is left of the batch, up to the host's next reply. -/
def goOn (s : State F) (batch : Batch) : State F :=
  match batch.todo with
  | [] => s.finish batch
  | entry :: _ =>
    addLog { s with batches := s.batches ++ [batch] }
      (.asked batch.stop ⟨batch.connectionId, entry.name, entry.killRef⟩)

def confirmStopFolder (s : State F) : State F :=
  match s.folderStopping, s.connectionId with
  | some target, some connectionId =>
    if connectionId = [] then { s with folderStopping := none }
    else
      goOn { s with folderStopBusy := true }
        { connectionId, target, todo := target.sessions, stop := s.folderArmed }
  | _, _ => { s with folderStopping := none }

/-- A session of the batch was answered for. -/
def folderKilled (s : State F) (i : Nat) (batch : Batch) (entry : Entry) (todo : List Entry)
    (answer : Answer) (now : Int) : State F :=
  let s := addLog { s with batches := s.batches.eraseIdx i }
    (.answered batch.stop entry.name answer.gone)
  if answer.gone then
    goOn ((s.removeLocal batch.connectionId entry.name entry.workspace now).forget
      (targetKey (some batch.connectionId) entry.identityKey)) { batch with todo }
  else
    goOn s { batch with
      todo
      failed := batch.failed ++ [entry.name]
      reason := batch.reason.or answer.error }

end State

/-! ## 3. Runs -/

inductive Action (F : Type)
  | arm (name : Text)
  | cancel
  | confirm
  | answered (i : Nat) (answer : Answer) (now : Int)
  | openFolderMenu (label : Text) (sessions : List Entry)
  | closeFolderMenu
  | askStopFolder
  | cancelFolder
  | confirmFolder
  | folderAnswered (i : Nat) (answer : Answer) (now : Int)
  | connect (connectionId : Option Text)
  | showFolder (folder : F)
  | refresh (connectionId : Text) (quiet : Bool)
  | listed (request : Sessions.Request) (rows : List Row) (errors : List Text) (now later : Int)
  | listFailed (request : Sessions.Request) (message : Text)
  | addPending (connectionId : Text) (summary : Row) (now : Int)
  | renameLocal (connectionId old new : Text) (workspace : Option Text)
  | mountPanes (panes : List Pane)
  | writeComposer (keys : List Text)
  | setCreateError (error : Option Text)

/-- The buttons of the two dialogs are disabled while they are busy. Folder and host switches,
refreshes, creates, renames, mounted panes and what is composed come in between in any order. No
other surface removes a session from the list, and none clears it. -/
def State.step (rowsOf : RowsOf F) (s : State F) : Action F → State F
  | .arm name => s.arm rowsOf name
  | .cancel => { s with stopping := none }
  | .confirm => if s.stopBusy then s else s.confirmStop rowsOf
  | .answered i answer now =>
    match s.kills[i]? with
    | some kill => s.killed rowsOf i kill answer now
    | none => s
  | .openFolderMenu label sessions => s.openFolderMenu label sessions
  | .closeFolderMenu => { s with folderMenu := none }
  | .askStopFolder => s.askStopFolder
  | .cancelFolder => { s with folderStopping := none }
  | .confirmFolder => if s.folderStopBusy then s else s.confirmStopFolder
  | .folderAnswered i answer now =>
    match s.batches[i]? with
    | some batch =>
      match batch.todo with
      | entry :: todo => s.folderKilled i batch entry todo answer now
      | [] => s
    | none => s
  | .connect connectionId => { s with connectionId }
  | .showFolder folder => { s with folder, createError := none }
  | .refresh connectionId quiet => s.refresh connectionId quiet
  | .listed request rows errors now later =>
    let connection := s.refreshes[request.ticket]?
    s.list connection (.listed request (rows.map (onConnection connection)) errors now later)
  | .listFailed request message => s.list s.refreshes[request.ticket]? (.failed request message)
  | .addPending connectionId summary now =>
    s.list (some connectionId) (.addPending (onConnection (some connectionId) summary) now)
  | .renameLocal connectionId old new workspace =>
    s.list (some connectionId) (.renameLocal old new workspace)
  | .mountPanes panes => { s with openPanes := panes }
  | .writeComposer keys => { s with composer := keys }
  | .setCreateError error => { s with createError := error }

/-- A view with no records on its first folder, and what comes of it. -/
def State.run (rowsOf : RowsOf F) (folder : F) (actions : List (Action F)) : State F :=
  actions.foldl (State.step rowsOf) { folder }

end PocketShell.SessionTabs
