import PocketShell.SessionTabs.Address
import PocketShell.SessionTree.Roots

/-!
# Renaming a session

The field on a tab, its commit by Enter or blur, and what a rename moves once the host has
answered: the composer's record, the row, the pane and its handle, and the tab's place in the
selection, the history and the manual order.

* `State` and the functions of the field. `Opened` and the numbers of fields and edits are kept
  beside them, and no function of the source reads those.
* `Action`, `State.step`, `run`: the field, the host's replies, and what else writes the records.

A folder is the alias of a host with the key of a folder there, as in `workspaceMemoryKey`.
-/

namespace PocketShell.SessionTabs.Rename

open Js (Text ascii)

/-! ## 1. The state -/

structure SessionPaneRecord where
  session : Text
  identity : Text

/-- The session that a field was opened on. -/
structure Opened (F : Type) where
  connection : Option Text
  folder : F
  name : Text
  ref : Option AplexerRef

/-- A rename that waits for the host. -/
structure Request (F : Type) where
  connectionId : Text
  old : Text
  ref : Option AplexerRef
  opened : Opened F
  field : Nat
  edit : Nat

inductive Event (F : Type)
  | asked (edit : Nat) (opened : Opened F) (connectionId old new : Text) (ref : Option AplexerRef)

/-- The host's answer. A rejected call says nothing. -/
inductive Answer
  | replied (ok : Bool) (sessionName error : Option Text)
  | rejected

/-- The name the session has now. -/
def Answer.renamed : Answer → Option Text
  | .replied true sessionName _ => truthy sessionName
  | _ => none

structure State (F D : Type) where
  connectionId : Option Text := none
  folder : F
  sessions : Sessions.State Handle := {}
  composer : Text → Option D := fun _ => none
  openPanes : List SessionPaneRecord := []
  terminalRefs : Text → Option Nat := fun _ => none
  selected : Option Text := none
  terminalSession : Option Text := none
  terminalIdentity : Option Text := none
  mru : List Text := []
  tabOrders : F → List Text := fun _ => []
  /-- The selection and the history that are remembered of a folder. -/
  memory : F → Option (Option Text × List Text) := fun _ => none
  «renaming» : Option Text := none
  renameText : Text := []
  renameError : Option Text := none
  requests : List (Request F) := []
  opened : Opened F := ⟨none, folder, [], none⟩
  field : Nat := 0
  edit : Nat := 0
  nextEdit : Nat := 1
  log : List (Event F) := []

variable {F D : Type} [DecidableEq F]

/-- The name a rename commits. -/
def renamedSessionName (typed : Text) : Option Text :=
  let clean := SessionTree.sanitisePart (Js.trim typed)
  if clean.any fun unit => SessionTree.isNameUnit unit && unit ≠ 0x5f && unit ≠ 0x2d then some clean
  else none

/-- Mount a pane unless one is mounted for its identity. -/
def upsertPane (panes : List SessionPaneRecord) (fresh : SessionPaneRecord) :
    List SessionPaneRecord :=
  if panes.any (·.identity = fresh.identity) then panes else panes ++ [fresh]

/-- The first pane of an identity is pointed at another session. -/
def repoint (panes : List SessionPaneRecord) (identity : Text) (pane : SessionPaneRecord) :
    List SessionPaneRecord :=
  match panes with
  | [] => []
  | first :: rest =>
    if first.identity = identity then pane :: rest else first :: repoint rest identity pane

def relabel (old new id : Text) : Text := if id = old then new else id

/-- The manual orders once a tab of the folder has its new id. -/
def relabelOrder (orders : F → List Text) (folder : F) (old new : Text) : F → List Text :=
  if (orders folder).contains old then
    Function.update orders folder ((orders folder).map (relabel old new))
  else orders

/-- The composer's records once one has moved to another key. -/
def rekeyed (states : Text → Option D) (old new : Text) : Text → Option D :=
  if old = new then states
  else
    match states old with
    | none => states
    | some existing => Function.update (Function.update states new (some existing)) old none

/-- The panes' handles once one has moved. -/
def movedRef (refs : Text → Option Nat) (fromIdentity toIdentity : Text) : Text → Option Nat :=
  match refs fromIdentity with
  | none => refs
  | some paneRef => Function.update (Function.update refs fromIdentity none) toIdentity (some paneRef)

namespace State

def rows (rowsOf : RowsOf F) (s : State F D) : List Row := rowsOf s.folder s.sessions.sessions

/-! ## 2. The field -/

def beginRename (rowsOf : RowsOf F) (s : State F D) (session : Text) : State F D :=
  { s with
    «renaming» := some session
    renameText := session
    renameError := none
    opened := ⟨s.connectionId, s.folder, session, aplexerRefFor (s.rows rowsOf) session⟩
    field := s.nextEdit
    edit := s.nextEdit
    nextEdit := s.nextEdit + 1 }

def cancelRename (s : State F D) : State F D := { s with «renaming» := none, renameError := none }

/-- The text in the field changes. -/
def onRenameInput (s : State F D) (value : Text) : State F D :=
  { s with
    renameText := SessionTree.normalisePart value
    edit := s.nextEdit
    nextEdit := s.nextEdit + 1 }

def leavesNothing : Text := ascii "that leaves nothing a session can be called"

def send (rowsOf : RowsOf F) (s : State F D) (connectionId old new : Text) : State F D :=
  let ref := aplexerRefFor (s.rows rowsOf) old
  { s with
    requests := s.requests ++ [⟨connectionId, old, ref, s.opened, s.field, s.edit⟩]
    log := s.log ++ [.asked s.edit s.opened connectionId old new ref] }

/-- Enter and blur, up to the host's answer. -/
def commitRename (rowsOf : RowsOf F) (s : State F D) : State F D :=
  match s.renaming, s.connectionId with
  | some target, some connectionId =>
    if connectionId = [] || s.renameText = target then s.cancelRename
    else
      match renamedSessionName s.renameText with
      | none => { s with renameError := some leavesNothing }
      | some next => if next = target then s.cancelRename else s.send rowsOf connectionId target next
  | _, _ => s.cancelRename

/-! ## 3. What a rename moves -/

def persist (s : State F D) : State F D :=
  { s with memory := Function.update s.memory s.folder (some (s.selected, s.mru)) }

/-- Everything the desktop keeps under the session's old name has the new one: `composer.rekey`,
`sessions.renameLocal`, the panes less what is left over under the new identity, the pane's handle,
the refs that name a tab, and what is remembered of the folder that is shown. -/
def moveRecords (s : State F D) (connectionId old new : Text) (workspace : Option Text)
    (fromIdentity toIdentity : Text) : State F D :=
  persist { s with
    composer := rekeyed s.composer (targetKey (some connectionId) fromIdentity)
      (targetKey (some connectionId) toIdentity)
    sessions := s.sessions.renameLocal old new workspace
    openPanes := repoint (s.openPanes.filter (·.identity ≠ toIdentity)) fromIdentity
      ⟨new, toIdentity⟩
    terminalRefs := movedRef s.terminalRefs fromIdentity toIdentity
    selected := if s.selected = some old then some new else s.selected
    terminalSession := if s.terminalSession = some old then some new else s.terminalSession
    terminalIdentity :=
      if s.terminalIdentity = some fromIdentity then some toIdentity else s.terminalIdentity
    mru := if s.mru.contains old then s.mru.map (relabel old new) else s.mru
    tabOrders := relabelOrder s.tabOrders s.folder old new }

/-- Both identities are looked up before the row has its new name. -/
def adoptRenamedSession (rowsOf : RowsOf F) (s : State F D) (connectionId old new : Text)
    (workspace : Option Text) : State F D :=
  s.moveRecords connectionId old new workspace (identityFor (s.rows rowsOf) old none)
    (identityFor (s.rows rowsOf) new (some old))

def dropRequest (s : State F D) (i : Nat) : State F D :=
  { s with requests := s.requests.eraseIdx i }

/-- What is committed next is another edit. -/
def newEdit (s : State F D) : State F D := { s with edit := s.nextEdit, nextEdit := s.nextEdit + 1 }

/-- The rest of `commitRename`, once the host has answered. -/
def renamed (rowsOf : RowsOf F) (s : State F D) (i : Nat) (request : Request F) (answer : Answer) :
    State F D :=
  let s := s.dropRequest i
  match answer.renamed, answer with
  | some sessionName, _ =>
    let s := (s.adoptRenamedSession rowsOf request.connectionId request.old sessionName
      (request.ref.bind (·.workspace))).cancelRename
    { s with sessions := s.sessions.refresh false }
  | none, .replied _ _ error =>
    newEdit { s with renameError := some (error.getD (ascii "rename failed")) }
  | none, .rejected => s.newEdit

end State

/-! ## 4. Runs -/

inductive Action (F D : Type)
  | beginRename (session : Text)
  | onRenameInput (value : Text)
  | cancelRename
  | commitRename
  | answered (i : Nat) (answer : Answer)
  | connect (connectionId : Option Text)
  | showFolder (folder : F) (selected : Option Text) (mru : List Text)
  | list (action : Sessions.Action Handle)
  | select (tab : Option Text) (mru : List Text)
  | showTerminal (session identity : Text)
  | prunePanes (live : List Text)
  | mountRef (identity : Text) (handle : Option Nat)
  | writeComposer (key : Text) (record : Option D)
  | writeTabOrder (next : List Text)
  | persist

/-- A folder switch cancels the field. Kills, refreshes, other tabs and what is composed come in
between in any order. -/
def State.step (rowsOf : RowsOf F) (s : State F D) : Action F D → State F D
  | .beginRename session => s.beginRename rowsOf session
  | .onRenameInput value => s.onRenameInput value
  | .cancelRename => s.cancelRename
  | .commitRename => s.commitRename rowsOf
  | .answered i answer =>
    match s.requests[i]? with
    | some request => s.renamed rowsOf i request answer
    | none => s
  | .connect connectionId => { s with connectionId }
  | .showFolder folder selected mru => { s.cancelRename with folder, selected, mru }
  | .list action => { s with sessions := s.sessions.step action }
  | .select tab mru => { s with selected := tab, mru }
  | .showTerminal session identity =>
    { s with
      terminalSession := some session
      terminalIdentity := some identity
      openPanes := upsertPane s.openPanes ⟨session, identity⟩ }
  | .prunePanes live =>
    { s with openPanes := s.openPanes.filter fun pane => live.contains pane.identity }
  | .mountRef identity handle =>
    { s with terminalRefs := Function.update s.terminalRefs identity handle }
  | .writeComposer key record => { s with composer := Function.update s.composer key record }
  | .writeTabOrder next => { s with tabOrders := Function.update s.tabOrders s.folder next }
  | .persist => s.persist

def State.start (folder : F) : State F D := { folder }

def State.run (rowsOf : RowsOf F) (folder : F) (actions : List (Action F D)) : State F D :=
  actions.foldl (State.step rowsOf) (.start folder)

end PocketShell.SessionTabs.Rename
