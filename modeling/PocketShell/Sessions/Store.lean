import PocketShell.Js.Text

/-!
# The live session list

The list of the active connection, with two ledgers over it: the rows of sessions that were just
created, and the identities of those that were just stopped. A refresh folds both into what the
host lists.

* `State` and the operations of the store. The reads of the clock come in with the action.
* `Action`, `State.step`, `run`: calls, and the replies of refreshes in any order.
* `Belief`: what the log says about an identity, with no field of the store.
* `unlistedSince`, `killedSince`: since when the log has it wait for a listing, or has it killed.
-/

namespace PocketShell.Sessions

open Js (Text)

/-! ## 1. Rows -/

/-- A row. `rest` is what the store carries along. -/
structure SessionSummary (R : Type) where
  name : Text
  workspace : Option Text := none
  tag : Option Text := none
  rest : R

/-- The workspace and the name. The key joins them by NUL, which neither has. -/
abbrev Identity : Type := Text × Text

def identityOf (name : Text) (workspace : Option Text) : Identity := (workspace.getD [], name)

variable {R : Type}

def identity (s : SessionSummary R) : Identity := identityOf s.name s.workspace

/-- The row under its new name. -/
def renameRow (row : SessionSummary R) (name : Text) : SessionSummary R :=
  { row with name, tag := row.tag.map fun _ => name }

/-- How long a pending row survives without a refresh confirming it. -/
def PENDING_TTL_MS : Int := 30000

/-- How long a kill keeps overriding the host's listing. -/
def KILLED_TTL_MS : Int := 30000

/-- The optimistic summary and when it was filed. -/
structure PendingRow (R : Type) where
  summary : SessionSummary R
  at_ : Int

/-- A killed identity and when the kill landed. -/
structure KilledRow where
  key : Identity
  at_ : Int

/-- A refresh whose reply has not come. -/
structure Request where
  ticket : Nat
  quiet : Bool
  deriving DecidableEq

/-! ## 2. The store -/

/-- What happened, in order. `shown` tells that one of the two names was listed at the rename. -/
inductive Event
  | created (id : Identity) (now : Int)
  | killed (id : Identity) (now : Int)
  | renamed (old new : Identity) (shown : Bool)
  | requested (ticket : Nat)
  | listed (ticket : Nat) (ids : List Identity)
  | failed (ticket : Nat)
  | cleared
  deriving DecidableEq

structure State (R : Type) where
  sessions : List (SessionSummary R) := []
  loading : Bool := false
  error : Option Text := none
  listErrors : List Text := []
  pendingRows : List (PendingRow R) := []
  killedRows : List KilledRow := []
  requests : List Request := []
  nextTicket : Nat := 0
  log : List Event := []

namespace State

def addLog (s : State R) (e : Event) : State R := { s with log := s.log ++ [e] }

/-- The identities that are listed. -/
def listing (s : State R) : List Identity := s.sessions.map identity

/-- File an optimistic row for a session the host just confirmed. -/
def addPending (s : State R) (summary : SessionSummary R) (now : Int) : State R :=
  let id := identity summary
  addLog { s with
    killedRows := s.killedRows.filter (·.key ≠ id)
    pendingRows := s.pendingRows.filter (fun row => identity row.summary ≠ id) ++ [⟨summary, now⟩]
    sessions := summary :: s.sessions.filter (fun row => identity row ≠ id) } (.created id now)

/-- Fold the pending ledger into a freshly fetched list. -/
def mergePending (s : State R) (fetched : List (SessionSummary R)) (now : Int) :
    List (SessionSummary R) × State R :=
  if s.pendingRows.isEmpty then (fetched, s)
  else
    let still := s.pendingRows.filter fun row =>
      !(fetched.map identity).contains (identity row.summary) && now - row.at_ ≤ PENDING_TTL_MS
    (still.map (·.summary) ++ fetched, { s with pendingRows := still })

/-- Drop a killed session's rows, and hold its identity against the host's listing. -/
def removeLocal (s : State R) (name : Text) (workspace : Option Text) (now : Int) : State R :=
  let key := identityOf name workspace
  addLog { s with
    killedRows := s.killedRows.filter (·.key ≠ key) ++ [⟨key, now⟩]
    pendingRows := s.pendingRows.filter (fun row => identity row.summary ≠ key)
    sessions := s.sessions.filter (fun row => identity row ≠ key) } (.killed key now)

/-- Fold the kill ledger into a freshly fetched list. -/
def mergeKilled (s : State R) (fetched : List (SessionSummary R)) (now : Int) :
    List (SessionSummary R) × State R :=
  if s.killedRows.isEmpty then (fetched, s)
  else
    let alive := s.killedRows.filter fun row => now - row.at_ ≤ KILLED_TTL_MS
    (fetched.filter (fun row => !(alive.map (·.key)).contains (identity row)),
      { s with killedRows := alive })

/-- Apply a rename the host has already committed. The pending ledger keeps the old name. -/
def renameLocal (s : State R) (old new : Text) (workspace : Option Text) : State R :=
  let key := identityOf old workspace
  let lifted := identityOf new workspace
  addLog { s with
    killedRows := if lifted ≠ key then s.killedRows.filter (·.key ≠ lifted) else s.killedRows
    sessions := s.sessions.map fun row => if identity row ≠ key then row else renameRow row new }
    (.renamed key lifted (s.listing.contains key || s.listing.contains lifted))

/-- A refresh, up to its reply. -/
def refresh (s : State R) (quiet : Bool) : State R :=
  addLog { s with
    loading := if quiet then s.loading else true
    error := none
    requests := s.requests ++ [⟨s.nextTicket, quiet⟩]
    nextTicket := s.nextTicket + 1 } (.requested s.nextTicket)

/-- The `finally` of a refresh. -/
def settle (s : State R) (request : Request) : State R :=
  { s with
    requests := s.requests.erase request
    loading := if request.quiet then s.loading else false }

/-- The host's listing comes in. The two folds read the clock one after the other. -/
def listed (s : State R) (request : Request) (rows : List (SessionSummary R)) (errors : List Text)
    (now later : Int) : State R :=
  let (merged, s) := s.mergePending rows now
  let (merged, s) := s.mergeKilled merged later
  let shown : State R := { s with sessions := merged, listErrors := errors }
  (shown.settle request).addLog (.listed request.ticket (rows.map identity))

/-- The call fails. -/
def failed (s : State R) (request : Request) (message : Text) : State R :=
  (settle { s with error := some message } request).addLog (.failed request.ticket)

def clear (s : State R) : State R :=
  addLog { s with
    sessions := []
    pendingRows := []
    killedRows := []
    error := none
    listErrors := [] } .cleared

end State

/-! ## 3. Runs -/

inductive Action (R : Type)
  | addPending (summary : SessionSummary R) (now : Int)
  | removeLocal (name : Text) (workspace : Option Text) (now : Int)
  | renameLocal (old new : Text) (workspace : Option Text)
  | clear
  | refresh (quiet : Bool)
  | listed (request : Request) (rows : List (SessionSummary R)) (errors : List Text)
      (now later : Int)
  | failed (request : Request) (message : Text)

/-- A reply comes only to a refresh that waits for it. -/
def State.step (s : State R) : Action R → State R
  | .addPending summary now => s.addPending summary now
  | .removeLocal name workspace now => s.removeLocal name workspace now
  | .renameLocal old new workspace => s.renameLocal old new workspace
  | .clear => s.clear
  | .refresh quiet => s.refresh quiet
  | .listed request rows errors now later =>
    if request ∈ s.requests then s.listed request rows errors now later else s
  | .failed request message => if request ∈ s.requests then s.failed request message else s

def run (actions : List (Action R)) : State R := actions.foldl State.step {}

/-! ## 4. What the log says -/

/-- What is to be seen of an identity: a session that was created or renamed to it is listed, a
killed one is not, and one that was renamed away is, only if the last listing has it. -/
inductive Belief
  | live
  | dead
  | moved (relisted : Bool)
  deriving DecidableEq

/-- A rename ends the life of the old identity and starts that of the new one. It lifts a kill of
the new identity also when neither was listed. -/
def Belief.after (belief : Identity → Option Belief) (e : Event) (id : Identity) : Option Belief :=
  match e with
  | .created k _ => if id = k then some .live else belief id
  | .killed k _ => if id = k then some .dead else belief id
  | .renamed old new shown =>
    if old = new then belief id
    else if id = new then
      if shown then some .live else if belief id = some .dead then none else belief id
    else if id = old then if belief id = some .dead then some .dead else some (.moved false)
    else belief id
  | .listed _ ids =>
    match belief id with
    | some (.moved _) => some (.moved (ids.contains id))
    | b => b
  | .cleared => none
  | _ => belief id

def belief (log : List Event) : Identity → Option Belief := log.foldl Belief.after fun _ => none

theorem belief_snoc (log : List Event) (e : Event) :
    belief (log ++ [e]) = Belief.after (belief log) e := by
  simp [belief]

/-- A created session waits until a listing has it, it is killed or the list is cleared. A rename
is no news to whoever waits. -/
def unlistedAfter (since : Identity → Option Int) (e : Event) (id : Identity) : Option Int :=
  match e with
  | .created k now => if id = k then some now else since id
  | .killed k _ => if id = k then none else since id
  | .listed _ ids => if id ∈ ids then none else since id
  | .cleared => none
  | _ => since id

def unlistedSince (log : List Event) : Identity → Option Int := log.foldl unlistedAfter fun _ => none

/-- A killed one stays so until it is created again or renamed to, or the list is cleared. -/
def killedAfter (since : Identity → Option Int) (e : Event) (id : Identity) : Option Int :=
  match e with
  | .created k _ => if id = k then none else since id
  | .killed k now => if id = k then some now else since id
  | .renamed old new _ => if new ≠ old ∧ id = new then none else since id
  | .cleared => none
  | _ => since id

def killedSince (log : List Event) : Identity → Option Int := log.foldl killedAfter fun _ => none

theorem unlistedSince_snoc (log : List Event) (e : Event) :
    unlistedSince (log ++ [e]) = unlistedAfter (unlistedSince log) e := by
  simp [unlistedSince]

theorem killedSince_snoc (log : List Event) (e : Event) :
    killedSince (log ++ [e]) = killedAfter (killedSince log) e := by
  simp [killedSince]

end PocketShell.Sessions
