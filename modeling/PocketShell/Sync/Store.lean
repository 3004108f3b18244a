import PocketShell.Sync.Guarantee

/-!
# The account section's store

The sync store of the interface: the account it shows, the selection of the hosts that sync,
and one busy flag over its operations.

* `State` and the operations, each up to its next reply. The calls that wait for a reply are
  `calls`, and replies come in any order.
* `Action`, `State.step`, `run`: what the user and the platform do.
* `Event`, `lastDecision`: what the log says about an alias, with no field of the store.
-/

namespace PocketShell.Sync.Store

open Js (Text JsNumber)

variable {N : Type}

/-! ## 1. The selection -/

/-- Tick or untick one alias. A redundant tick does not move it. -/
def selectAlias (selection : SyncSelectionState) (hostAlias : Text) (selected : Bool) :
    SyncSelectionState :=
  let has := selection.checked.contains hostAlias
  let unticked := selection.unticked.contains hostAlias
  let rest := selection.checked.filter (· ≠ hostAlias)
  { checked := if selected = has then selection.checked else if selected then rest ++ [hostAlias] else rest
    unticked :=
      if selected && unticked then selection.unticked.filter (· ≠ hostAlias)
      else if !selected && !unticked then selection.unticked ++ [hostAlias]
      else selection.unticked }

/-- Write `next` back: the user's order is kept, and newly ticked aliases are appended. -/
def persisted (selection next : SyncSelectionState) : SyncSelectionState :=
  ⟨selection.checked ++ next.checked.filter (!selection.checked.contains ·), next.unticked⟩

/-! ## 2. The state -/

structure SyncStatus where
  loggedIn : Bool
  email : Option String
  keychainAvailable : Bool

inductive MessageKind
  | ok
  | error

structure SyncMessage where
  kind : MessageKind
  text : String

/-- Who awaits `refreshStatus`. -/
inductive Caller
  | alone
  | login (email : Option String)
  | logout

/-- A round between its replies. -/
structure Round (N : Type) where
  localHosts : List (LocalHost N)
  attempts : Nat
  selection : SyncSelectionState

/-- Only a refresh of its own leaves the store free. -/
def Caller.guards : Caller → Bool
  | .alone => false
  | _ => true

/-- What a call waits for. -/
inductive Waiting (N : Type)
  | status (caller : Caller)
  | accountHosts (caller : Caller)
  | login
  | logout
  | loadPull
  | roundPull (round : Round N)
  | roundPush (round : Round N) (hosts : List (SyncHostEntry N))
  | applyHosts (total : Nat)
  | loadHosts (total added : Nat)

/-- The operation holds the busy flag. -/
def Waiting.guards : Waiting N → Bool
  | .status caller => caller.guards
  | .accountHosts caller => caller.guards
  | _ => true

/-- It is `loadAccount` or `syncNow`. -/
def Waiting.reads : Waiting N → Bool
  | .status _ => false
  | .accountHosts _ => false
  | .login => false
  | .logout => false
  | _ => true

/-- One call of the platform. `op` is the number of the operation that makes it. -/
structure Call (N : Type) where
  ticket : Nat
  op : Nat
  waiting : Waiting N

/-- What happened. -/
inductive Event
  | decided (hostAlias : Text) (selected : Bool)
  /-- A copy of the account was taken in. -/
  | absorbed (aliases : List Text)
  | pullRequested (op : Nat) (passphrase : Text)
  | pushRequested (ticket op : Nat) (passphrase : Text) (aliases : List Text)
  | pushSynced (ticket : Nat)
  | loggedOut
  deriving DecidableEq

structure State (N : Type) where
  status : Option SyncStatus := none
  accountHosts : Option (List (SyncHostEntry N)) := none
  passphrase : Text := []
  busy : Bool := false
  message : Option SyncMessage := none
  /-- `syncSelectedHosts` and `syncUntickedHosts` of the settings. -/
  selection : SyncSelectionState := ⟨[], []⟩
  /-- `hosts` of the connection store. -/
  hosts : List (LocalHost N) := []
  calls : List (Call N) := []
  nextTicket : Nat := 0
  nextOp : Nat := 0
  /-- How many operations there were when the last logout was complete. -/
  outAt : Nat := 0
  /-- Newest first. -/
  log : List Event := []

namespace State

variable (s : State N)

def addLog (e : Event) : State N := { s with log := e :: s.log }

/-- A new operation. -/
def begin_ : State N := { s with nextOp := s.nextOp + 1 }

/-- A new operation that keeps others out. -/
def started : State N := { s.begin_ with busy := true, message := none }

/-- Await the reply of one more call. -/
def await (op : Nat) (waiting : Waiting N) : State N :=
  { s with calls := s.calls ++ [⟨s.nextTicket, op, waiting⟩], nextTicket := s.nextTicket + 1 }

def dropCall (index : Nat) : State N := { s with calls := s.calls.eraseIdx index }

def say (kind : MessageKind) (text : String) : State N := { s with message := some ⟨kind, text⟩ }

def setBusy (busy : Bool) : State N := { s with busy }

def showAccount (accountHosts : Option (List (SyncHostEntry N))) : State N := { s with accountHosts }

def setSelection (selection : SyncSelectionState) : State N := { s with selection }

/-! ## 3. Decisions and account copies -/

def setSelected (hostAlias : Text) (selected : Bool) : State N :=
  (s.setSelection (selectAlias s.selection hostAlias selected)).addLog (.decided hostAlias selected)

def persistSelection (next : SyncSelectionState) : State N :=
  s.setSelection (persisted s.selection next)

/-- Show an account copy and apply the tick rule to it. -/
def absorbAccount (remote : List (SyncHostEntry N)) : State N :=
  ((s.showAccount (some remote)).persistSelection
    (applyAccountToSelection remote s.selection)).addLog (.absorbed (remote.map (·.name)))

/-! ## 4. Refreshing, signing in and out -/

/-- The end of `logout`. -/
def signedOut : State N := { s with busy := false, outAt := s.nextOp }

/-- What a caller does after `refreshStatus`. -/
def refreshed : Caller → State N
  | .alone => s
  | .login email => (s.say .ok ("Signed in as " ++ email.getD "your Google account" ++ ".")).setBusy false
  | .logout => s.signedOut

/-- What a caller does when `refreshStatus` rejects. -/
def refreshFailed (error : String) : Caller → State N
  | .alone => s
  | .login _ => (s.say .error error).setBusy false
  | .logout => s.signedOut

def refreshStatus (op : Nat) (caller : Caller) : State N := s.await op (.status caller)

/-- The status came in. -/
def statusRead (op : Nat) (caller : Caller) (status : SyncStatus) : State N :=
  let s : State N := { s with status := some status }
  if !status.loggedIn then (s.showAccount none).refreshed caller
  else if s.accountHosts.isNone then s.await op (.accountHosts caller)
  else s.refreshed caller

/-- The session cache came in. -/
def cacheRead (caller : Caller) (cached : Option (List (SyncHostEntry N))) : State N :=
  (match cached with
  | none => s
  | some remote => s.absorbAccount remote).refreshed caller

def login : State N :=
  if s.busy then s
  else s.started.await s.nextOp .login

def logout : State N := ((s.begin_.setBusy true).await s.nextOp .logout)

/-- The sign-out came through. -/
def loggedOut (op : Nat) : State N :=
  let s : State N := { s with
    passphrase := []
    accountHosts := none
    selection := ⟨s.selection.checked, []⟩
    message := none }
  (s.addLog .loggedOut).refreshStatus op .logout

/-! ## 5. Reading the account -/

variable [JsNumber N]

/-- The lenient reader: what it cannot read is left out. -/
def parseSyncPayload (plaintext : Text) : List (SyncHostEntry N) :=
  match decodeSyncPayload plaintext with
  | .invalid _ => []
  | .ok _ entries => entries.filterMap isPlausibleHostEntry

/-- `loadAccount` and `syncNow` start alike: `start` goes on when they may. -/
def guarded (start : State N → State N) : State N :=
  if s.busy then s
  else if !(s.status.any (·.loggedIn)) then s.begin_.say .error "Sign in first."
  else if s.passphrase = [] then s.begin_.say .error "Enter your sync passphrase."
  else start s.started

omit [JsNumber N] in
def loadAccount : State N := s.guarded fun s' => s'.await s.nextOp .loadPull

def plural (count : Nat) : String := if count = 1 then "" else "s"

/-- The account came in. -/
def accountRead (plaintext : Option Text) : State N :=
  match plaintext with
  | none =>
    ((s.showAccount (some [])).say .ok "Your account has no synced hosts yet.").setBusy false
  | some plaintext =>
    let remote := parseSyncPayload plaintext
    ((s.absorbAccount remote).say .ok
      ("Your account has " ++ toString remote.length ++ " synced host" ++ plural remote.length ++ ".")).setBusy
        false

/-! ## 6. A round -/

omit [JsNumber N] in
/-- `catch` and `finally` of an operation. -/
def failed (error : String) : State N := (s.say .error error).setBusy false

omit [JsNumber N] in
/-- The `pull` effect, with the passphrase of the moment. -/
def roundPull (op : Nat) (round : Round N) : State N :=
  (s.addLog (.pullRequested op s.passphrase)).await op (.roundPull round)

omit [JsNumber N] in
def syncNow : State N :=
  s.guarded fun s' => s'.roundPull s.nextOp
    ⟨s'.hosts, 1, ⟨unique s'.selection.checked, unique s'.selection.unticked⟩⟩

/-- The one sentence for each way a round stops short of `synced`. -/
def syncFailureText (selectedCount : Nat) : SyncRoundResult N → String
  | .emptySelection =>
    if selectedCount = 0 then "Tick at least one host to sync."
    else "None of the ticked hosts exists here or in the account."
  | .error _ message => message
  | .conflictLimit .. => "the account kept changing — try again in a moment"
  | .invalidPayload .. =>
    "The account holds sync data this version cannot read, so nothing was uploaded."
  | .rejected e => e
  | .synced .. => ""

/-- What follows a round: the push carried out every pending untick, and the set is
offered to the platform. -/
def roundDone (op : Nat) (result : SyncRoundResult N) : State N :=
  match result with
  | .synced _ selectedAliases untickedAliases hosts _ =>
    let set := hosts.map (·.sent)
    ((s.persistSelection ⟨selectedAliases, untickedAliases⟩).showAccount (some set)).await op
      (.applyHosts set.length)
  | result => s.failed (syncFailureText s.selection.checked.length result)

/-- The `push` effect, with the passphrase of the moment. -/
def roundPush (op : Nat) (round : Round N) (hosts : List (SyncHostEntry N)) : State N :=
  (s.addLog (.pushRequested s.nextTicket op s.passphrase (hosts.map (·.name)))).await op
    (.roundPush round hosts)

/-- What the pull effect makes of the answer: a pull after a conflict needs an account. -/
def pulledAs (attempts : Nat) (answer : SyncRoundSnapshot) : SyncRoundSnapshot :=
  match answer with
  | .absent => if 1 < attempts then .rejected "the account changed while syncing — try again" else .absent
  | answer => answer

/-- A pull of a round came in. -/
def roundPulled (op : Nat) (round : Round N) (answer : SyncRoundSnapshot) : State N :=
  match accountOf (pulledAs round.attempts answer) with
  | .error result => s.roundDone op result
  | .ok (_, remote) =>
    let selection := applyAccountToSelection remote round.selection
    let s := ((s.showAccount (some remote)).persistSelection selection).addLog (.absorbed (remote.map (·.name)))
    let hosts := assembleSyncSet (round.localHosts.map (·.toSyncHostEntry)) remote selection.checked
    if hosts = [] then s.roundDone op .emptySelection
    else s.roundPush op { round with selection } hosts

/-- A push of a round came in. -/
def roundPushed (ticket op : Nat) (round : Round N) (hosts : List (SyncHostEntry N))
    (answer : SyncRoundPushResult) : State N :=
  match afterPush round.attempts round.selection hosts answer with
  | .again selection => s.roundPull op { round with attempts := round.attempts + 1, selection }
  | .done (.synced version selectedAliases untickedAliases hosts attempts) =>
    (s.addLog (.pushSynced ticket)).roundDone op (.synced version selectedAliases untickedAliases hosts attempts)
  | .done result => s.roundDone op result

omit [JsNumber N] in
/-- The round is through. -/
def roundOver (total added : Nat) : State N :=
  (s.say .ok ("Synced: " ++ toString total ++ " host" ++ plural total ++ " in your account" ++
    (if 0 < added then ", added " ++ toString added ++ " to ~/.ssh/config" else "") ++ ".")).setBusy false

end State

/-! ## 7. Runs -/

/-- What the platform replies. -/
inductive Reply (N : Type)
  | rejected (error : String)
  | status (status : SyncStatus)
  | accountHosts (cached : Option (List (SyncHostEntry N)))
  | login (email : Option String)
  | done
  | pulled (answer : SyncRoundSnapshot)
  | pushed (answer : SyncRoundPushResult)
  | applied (added : Nat)

inductive Action (N : Type)
  | refreshStatus
  | loadAccount
  | setSelected (hostAlias : Text) (selected : Bool)
  | setPassphrase (passphrase : Text)
  | login
  | logout
  | syncNow
  /-- The connection store read the config. -/
  | loadedHosts (hosts : List (LocalHost N))
  /-- The reply of the call at an index. -/
  | reply (index : Nat) (reply : Reply N)

namespace State

variable [JsNumber N]

/-- A call rejects. -/
def rejected (s : State N) (call : Call N) (error : String) : State N :=
  match call.waiting with
  | .status caller => s.refreshFailed error caller
  | .accountHosts caller => s.cacheRead caller none
  -- `logout` has no `catch`: the view shows the rejection
  | .logout => (s.say .error error).signedOut
  | .roundPull round => s.roundPulled call.op round (.rejected error)
  | .roundPush round hosts => s.roundPushed call.ticket call.op round hosts (.rejected error)
  | .login => s.failed error
  | .loadPull => s.failed error
  | .applyHosts _ => s.failed error
  | .loadHosts .. => s.failed error

/-- The rest of an operation, once its call is answered. Only a reply of its kind comes. -/
def resume (s : State N) (call : Call N) (reply : Reply N) : State N :=
  match call.waiting, reply with
  | .status caller, .status status => s.statusRead call.op caller status
  | .accountHosts caller, .accountHosts cached => s.cacheRead caller cached
  | .login, .login email => s.refreshStatus call.op (.login email)
  | .logout, .done => s.loggedOut call.op
  | .loadPull, .pulled .absent => s.accountRead none
  | .loadPull, .pulled (.ok _ plaintext) => s.accountRead (some plaintext)
  | .roundPull round, .pulled answer => s.roundPulled call.op round answer
  | .roundPush round hosts, .pushed answer => s.roundPushed call.ticket call.op round hosts answer
  | .applyHosts total, .applied added => s.await call.op (.loadHosts total added)
  | .loadHosts total added, .done => s.roundOver total added
  | _, .rejected error => s.rejected call error
  | _, _ => s.rejected call ""

def answered (s : State N) (index : Nat) (reply : Reply N) : State N :=
  match s.calls[index]? with
  | none => s
  | some call => (s.dropCall index).resume call reply

def step (s : State N) : Action N → State N
  | .refreshStatus => s.begin_.refreshStatus s.nextOp .alone
  | .loadAccount => s.loadAccount
  | .setSelected hostAlias selected => s.setSelected hostAlias selected
  | .setPassphrase passphrase => { s with passphrase }
  | .login => s.login
  | .logout => s.logout
  | .syncNow => s.syncNow
  | .loadedHosts hosts => { s with hosts }
  | .reply index reply => s.answered index reply

def run (s : State N) (actions : List (Action N)) : State N := actions.foldl step s

end State

/-! ## 8. What the log says -/

/-- The last decision about an alias, and what happened after it. -/
def lastDecision (hostAlias : Text) : List Event → Option (Bool × List Event)
  | [] => none
  | .decided name selected :: log =>
    if name = hostAlias then some (selected, [])
    else (lastDecision hostAlias log).map fun d => (d.1, .decided name selected :: d.2)
  | e :: log => (lastDecision hostAlias log).map fun d => (d.1, e :: d.2)

/-- The last pull that an operation requested was sealed with this passphrase. -/
def openedWith (op : Nat) : List Event → Option Text
  | [] => none
  | .pullRequested op' passphrase :: log => if op' = op then some passphrase else openedWith op log
  | _ :: log => openedWith op log

end PocketShell.Sync.Store
