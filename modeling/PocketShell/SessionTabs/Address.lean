import PocketShell.Sessions.Store

/-!
# How a session tab is addressed

A tab has a session's name. What the host is asked, the pane and the composer record of the
session are looked up from the rows of the folder that is shown.
-/

namespace PocketShell.SessionTabs

open Js (Text ascii)

inductive Backend
  | tmux
  | aplexer
  deriving DecidableEq

/-- What an address and a folder read of a row beside its name and workspace. -/
structure Handle where
  backend : Option Backend := none
  aplexerId : Option Text := none
  path : Option Text := none
  created : Int := 0
  /-- The connection that it was listed or created on, which no function of the source reads. -/
  connection : Option Text := none

abbrev Row : Type := Sessions.SessionSummary Handle

/-- The rows of a folder among those of the list. -/
abbrev RowsOf (F : Type) : Type := F → List Row → List Row

structure SessionMetaValue where
  backend : Backend
  workspace : Option Text := none
  aplexerId : Option Text := none

/-- The address that a kill or a rename carries. A tmux session has none. -/
structure AplexerRef where
  workspace : Option Text := none
  aplexerId : Option Text := none
  deriving DecidableEq

/-- The empty text counts as none. -/
def truthy (text : Option Text) : Option Text := text.filter fun t => !t.isEmpty

def metaOf (row : Row) : SessionMetaValue :=
  ⟨row.rest.backend.getD .tmux, row.workspace, row.rest.aplexerId⟩

/-- What the folder's rows say of a name. The last row of a name wins. -/
def sessionMeta (rows : List Row) (name : Text) : Option SessionMetaValue :=
  (rows.reverse.find? fun row => row.name = name).map metaOf

def SessionMetaValue.ref (m : SessionMetaValue) : Option AplexerRef :=
  match m.backend with
  | .tmux => none
  | .aplexer => some ⟨truthy m.workspace, truthy m.aplexerId⟩

def aplexerRefFor (rows : List Row) (name : Text) : Option AplexerRef :=
  (sessionMeta rows name).bind SessionMetaValue.ref

def sessionIdentityKey (name : Text) (backend : Option Backend) (workspace : Option Text) : Text :=
  match backend, truthy workspace with
  | some .aplexer, some workspace => ascii "aplexer:" ++ workspace ++ ascii ":" ++ name
  | _, _ => name

/-- The identity of a name, through the row of `like`. -/
def identityFor (rows : List Row) (name : Text) (like : Option Text) : Text :=
  let m := sessionMeta rows (like.getD name)
  sessionIdentityKey name (m.map (·.backend)) (m.bind (·.workspace))

/-- Where the composer keeps the record of a session. -/
def targetKey (connectionId : Option Text) (sessionKey : Text) : Text :=
  connectionId.getD (ascii "none") ++ ascii "/" ++ sessionKey

/-- A session, as a kill or a rename addresses it: its name, and its workspace in aplexer. -/
abbrev Session : Type := Text × Option (Option Text)

def sessionOf (name : Text) (ref : Option AplexerRef) : Session := (name, ref.map (·.workspace))

end PocketShell.SessionTabs
