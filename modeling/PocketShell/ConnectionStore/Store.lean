import PocketShell.Js.Text
import PocketShell.Reconnect.Loop

/-!
# The connection store

`packages/ui/src/app/stores/connection.ts`: the one connection the app shows, the dials, closes and
bootstraps that wait for the platform, and the recovery loop that re-dials a lost link.

* `Pending`: where each call waits. A `connect()` goes on with its `Next`, a `reconnect()` with its
  `Caller`.
* `State.connect`, `State.reconnect`, `State.disconnect`, …: the actions and the state event.
* `State.resume`: a reply of the platform.
* `step`: any order of both, and of the timers of the loop.

The host entry and the bootstrap report are any types: the store passes them on.
-/

namespace PocketShell.ConnectionStore

open Js (Text ascii)
open ReconnectLoop (Timer Dial Outcome)

/-! ## 1. Data -/

/-- The id of a connection. An answer with an empty one is a refusal. -/
def ConnectionId : Type := { id : Text // id ≠ [] }
  deriving DecidableEq

inductive ConnectionState
  | idle | connecting | connected | reconnecting | lost
  deriving DecidableEq

/-- Who waits for `reconnect()`: nobody, or a dial of the loop. -/
inductive Caller
  | user
  | loop (dial : Dial)

/-- What follows `connect()`: nothing, or the rest of `reconnect()`. -/
inductive Next
  | plain
  | replace (caller : Caller)

/-- What a call waits for. -/
inductive Pending (Host : Type)
  | dial (host : Host) (next : Next)
  | isAutoEnabled (host : Host) (id : ConnectionId) (next : Next)
  | startAuto (host : Host) (id : ConnectionId) (next : Next)
  | bootstrap (id : ConnectionId)
  | closePrevious (host : Host) (previous : ConnectionId) (caller : Caller)
  | surfaces (caller : Caller)
  | reconnectTransport (id : ConnectionId) (caller : Caller)
  | closeForDisconnect (id : ConnectionId)
  | probe (id : ConnectionId)

/-- `asked` is when the action that made the call began. -/
structure Call (Host : Type) where
  id : Nat
  asked : Nat
  pending : Pending Host

/-- How a call ends. -/
inductive Answer (Bootstrap : Type)
  | connected (id : ConnectionId)
  | refused (message : Option Text) (kind : Option Text)
  | flag (value : Bool)
  | report (report : Bootstrap)
  | done
  | failed (message : Text)

/-- What the guarantees speak about. -/
structure History (Host Bootstrap : Type) where
  clock : Nat := 0
  /-- when the last `disconnect()` began -/
  cancelledAt : Nat := 0
  /-- when the last `disconnect()` that has returned began -/
  clearedAt : Nat := 0
  /-- the number of the latest dial -/
  dials : Nat := 0
  /-- the call the latest dial waits for, and the id the dial was answered -/
  current : Option (Nat × Option ConnectionId) := none
  answered : List (ConnectionId × Host × Nat) := []
  /-- the ids that were asked to close since a dial last answered them -/
  closed : List ConnectionId := []
  /-- the connection the last write of `state` was about, if it was about one -/
  subject : Option ConnectionId := none
  reports : List (Bootstrap × ConnectionId) := []
  /-- the timers that were set when a `disconnect()` began -/
  staleTimers : List Timer := []

structure State (Host Bootstrap : Type) where
  /-- `api.ssh.reconnect` is there. It is read once. -/
  transportOwnsRecovery : Bool
  connectionId : Option ConnectionId := none
  state : ConnectionState := .idle
  error : Option Text := none
  errorKind : Option Text := none
  bootstrap : Option Bootstrap := none
  activeHost : Option Host := none
  lastKeyPath : Option Text := none
  replacingConnectionId : Option ConnectionId := none
  transportRetry : Option (Nat × Option Nat) := none
  loop : ReconnectLoop.State := {}
  calls : List (Call Host) := []
  nextId : Nat := 0
  history : History Host Bootstrap := {}

/-- The event of `ssh.onState`. -/
structure StateEvent where
  connectionId : ConnectionId
  state : ConnectionState
  error : Option Text := none
  attempt : Option Nat := none
  maxAttempts : Option Nat := none

namespace State

variable {Host Bootstrap : Type}

/-! ## 2. Dials -/

def park (s : State Host Bootstrap) (asked : Nat) (pending : Pending Host) : State Host Bootstrap :=
  { s with calls := s.calls ++ [⟨s.nextId, asked, pending⟩], nextId := s.nextId + 1 }

/-- `park`, for a stage of the latest dial. -/
def parkDial (s : State Host Bootstrap) (asked : Nat) (pending : Pending Host)
    (answered : Option ConnectionId) : State Host Bootstrap :=
  { s.park asked pending with history := { s.history with current := some (s.nextId, answered) } }

def askClose (s : State Host Bootstrap) (id : ConnectionId) : State Host Bootstrap :=
  { s with history := { s.history with closed := id :: s.history.closed } }

/-- `connect()` up to its first call. -/
def connect (s : State Host Bootstrap) (asked : Nat) (host : Host) (privateKeyPath : Option Text)
    (next : Next) : State Host Bootstrap :=
  parkDial
    { s with
      state := .connecting,
      error := none,
      errorKind := none,
      activeHost := some host,
      lastKeyPath := privateKeyPath,
      history := { s.history with dials := s.history.dials + 1, subject := none } }
    asked (.dial host next) none

/-- A `connect()` is over, with what `state` is about then. -/
def dialOver (s : State Host Bootstrap) (subject : Option ConnectionId) : State Host Bootstrap :=
  { s with history := { s.history with current := none, subject } }

/-- `state` is written, about a connection or about a dial. -/
def setState (s : State Host Bootstrap) (state : ConnectionState) (subject : Option ConnectionId) :
    State Host Bootstrap :=
  { s with state, history := { s.history with subject } }

def giveUpText : Text := ascii "Could not reconnect after 10 attempts."

/-- The loop goes on after its dial. A curve that is left spent has given up. -/
def dialReturned (s : State Host Bootstrap) (dial : Dial) (ok : Bool) (now : Int) :
    State Host Bootstrap :=
  if dial ∉ s.loop.dials then s
  else
    let loop := s.loop.answered dial (if ok then .up else .down) now
    if ok ∨ dial.gen ≠ s.loop.generation then { s with loop }
    else if loop.running then setState { s with loop } .lost none
    else setState { s with loop, error := some giveUpText } .lost none

/-- `reconnect()` returns. -/
def reconnectReturns (s : State Host Bootstrap) (caller : Caller) (ok : Bool) (now : Int) :
    State Host Bootstrap :=
  match caller with
  | .user => s
  | .loop dial => s.dialReturned dial ok now

/-- `connect()` returns. -/
def connectReturns (s : State Host Bootstrap) (asked : Nat) (next : Next) (ok : Bool) (now : Int) :
    State Host Bootstrap :=
  match next with
  | .plain => s
  | .replace caller =>
    if ok && s.connectionId.isSome then
      park { s with replacingConnectionId := none, loop := s.loop.succeeded } asked (.surfaces caller)
    else s.reconnectReturns caller ok now

def dialFailed (s : State Host Bootstrap) (asked : Nat) (next : Next) (message : Text)
    (kind : Option Text) (now : Int) : State Host Bootstrap :=
  connectReturns { s.dialOver none with state := .idle, error := some message, errorKind := kind }
    asked next false now

/-- The forwards are restored, or could not be: the new connection becomes visible. -/
def commit (s : State Host Bootstrap) (asked : Nat) (id : ConnectionId) (next : Next) (now : Int) :
    State Host Bootstrap :=
  connectReturns
    (park { s.dialOver (some id) with connectionId := some id, state := .connected } asked
      (.bootstrap id))
    asked next true now

/-- `reconnectThroughTransport()` up to its call. -/
def reconnectThroughTransport (s : State Host Bootstrap) (asked : Nat) (caller : Caller) (now : Int) :
    State Host Bootstrap :=
  match s.connectionId with
  | none => s.reconnectReturns caller false now
  | some id => s.park asked (.reconnectTransport id caller)

/-- `reconnect()` up to its first call. -/
def reconnect (s : State Host Bootstrap) (asked : Nat) (caller : Caller) (now : Int) :
    State Host Bootstrap :=
  match s.activeHost with
  | none => s.reconnectReturns caller false now
  | some host =>
    if s.transportOwnsRecovery then s.reconnectThroughTransport asked caller now
    else
      let s := { s with loop := s.loop.clearPendingStep }
      match s.connectionId with
      | none => s.connect asked host s.lastKeyPath (.replace caller)
      | some previous =>
        park (askClose { s with replacingConnectionId := some previous } previous) asked
          (.closePrevious host previous caller)

/-! ## 3. The loop -/

/-- The loop has made a step. When it dials, `reconnect()` is called. -/
def loopStepped (s : State Host Bootstrap) (asked : Nat) (loop : ReconnectLoop.State) (now : Int) :
    State Host Bootstrap :=
  if s.loop.dials.length < loop.dials.length then
    match loop.dials.getLast? with
    | none => { s with loop }
    | some dial => reconnect { s with loop } asked (.loop dial) now
  else { s with loop }

def hasTarget (s : State Host Bootstrap) : Bool := s.activeHost.isSome

def retryNow (s : State Host Bootstrap) (asked : Nat) (now : Int) : State Host Bootstrap :=
  if s.transportOwnsRecovery || !s.loop.running then s.reconnect asked .user now
  else s.loopStepped asked (s.loop.skipWait s.hasTarget) now

def fired (s : State Host Bootstrap) (timer : Timer) (now : Int) : State Host Bootstrap :=
  if timer ∈ s.loop.timers then
    s.loopStepped s.history.clock (s.loop.fired timer s.hasTarget) now
  else s

def connectionLost : Text := ascii "Connection lost"

/-- The link of `id` is found dead. -/
def linkLost (s : State Host Bootstrap) (id : ConnectionId) (now : Int) : State Host Bootstrap :=
  setState { s with error := some connectionLost, loop := s.loop.begin s.hasTarget now } .lost
    (some id)

/-- `onOsResume()` up to its probe. -/
def onOsResume (s : State Host Bootstrap) : State Host Bootstrap :=
  if s.transportOwnsRecovery || s.state ≠ .connected then s
  else
    match s.connectionId with
    | none => s
    | some id => s.park s.history.clock (.probe id)

def probed (s : State Host Bootstrap) (asked : Nat) (id : ConnectionId) (healthy : Bool) (now : Int) :
    State Host Bootstrap :=
  if healthy || s.state ≠ .connected then s else (s.linkLost id now).retryNow asked now

/-! ## 4. State events and disconnecting -/

def followTransportRecovery (s : State Host Bootstrap) (event : StateEvent) : State Host Bootstrap :=
  let followed := s.setState event.state (some event.connectionId)
  if event.state = .reconnecting then
    { followed with
      transportRetry := some (event.attempt.getD 0, event.maxAttempts),
      error := some (event.error.getD connectionLost) }
  else if event.state = .lost then
    { followed with transportRetry := none, error := some (event.error.getD connectionLost) }
  else if event.state = .connected ∧ (s.state = .reconnecting ∨ s.state = .lost) then
    park { followed with transportRetry := none, error := none } s.history.clock (.surfaces .user)
  else { followed with transportRetry := none }

def onState (s : State Host Bootstrap) (event : StateEvent) (now : Int) : State Host Bootstrap :=
  if s.connectionId ≠ some event.connectionId ∨
      s.replacingConnectionId = some event.connectionId then s
  else if s.transportOwnsRecovery then s.followTransportRecovery event
  else if event.state = .lost then s.linkLost event.connectionId now
  else s.setState event.state (some event.connectionId)

/-- The rest of `disconnect()`, after its `await`. -/
def disconnected (s : State Host Bootstrap) (asked : Nat) : State Host Bootstrap :=
  { s with
    connectionId := none,
    replacingConnectionId := none,
    transportRetry := none,
    state := .idle,
    bootstrap := none,
    activeHost := none,
    lastKeyPath := none,
    history := { s.history with clearedAt := max s.history.clearedAt asked, subject := none } }

/-- The loop and the latest dial are orphaned. -/
def cancelled (s : State Host Bootstrap) : State Host Bootstrap :=
  { s with
    loop := s.loop.cancel,
    history := { s.history with
      cancelledAt := s.history.clock,
      current := none,
      staleTimers := s.loop.cancel.timers ++ s.history.staleTimers } }

def disconnect (s : State Host Bootstrap) : State Host Bootstrap :=
  match s.connectionId with
  | none => s.cancelled.disconnected s.history.clock
  | some id => (s.cancelled.askClose id).park s.history.clock (.closeForDisconnect id)

/-! ## 5. Replies -/

/-- The dial answered a connection. -/
def dialAnswered (s : State Host Bootstrap) (asked : Nat) (host : Host) (id : ConnectionId)
    (next : Next) : State Host Bootstrap :=
  parkDial
    { s with
      history := { s.history with
        answered := (id, host, s.history.dials) :: s.history.answered,
        closed := s.history.closed.filter (· ≠ id) } }
    asked (.isAutoEnabled host id next) (some id)

def transportAnswered (s : State Host Bootstrap) (asked : Nat) (id : ConnectionId) (caller : Caller)
    (ok : Bool) (now : Int) : State Host Bootstrap :=
  if s.connectionId ≠ some id then s.reconnectReturns caller false now
  else if ok then
    park (setState { s with transportRetry := none, error := none } .connected (some id)) asked
      (.surfaces caller)
  else if s.state = .reconnecting then s.reconnectReturns caller false now
  else (s.setState .lost (some id)).reconnectReturns caller false now

/-- A call goes on with its answer. An answer of another kind than the call asks for does not come. -/
def resume (s : State Host Bootstrap) (call : Call Host) (answer : Answer Bootstrap) (now : Int) :
    State Host Bootstrap :=
  match call.pending, answer with
  | .dial host next, .connected id => s.dialAnswered call.asked host id next
  | .dial _ next, .refused message kind =>
    s.dialFailed call.asked next (message.getD (ascii "Connection failed")) kind now
  | .dial _ next, .failed message => s.dialFailed call.asked next message s.errorKind now
  | .isAutoEnabled host id next, .flag true =>
    s.parkDial call.asked (.startAuto host id next) (some id)
  | .isAutoEnabled _ id next, .flag false => s.commit call.asked id next now
  | .isAutoEnabled _ id next, .failed _ => s.commit call.asked id next now
  | .startAuto _ id next, .done => s.commit call.asked id next now
  | .startAuto _ id next, .failed _ => s.commit call.asked id next now
  | .bootstrap id, .report report =>
    { s with
      bootstrap := some report,
      history := { s.history with reports := (report, id) :: s.history.reports } }
  | .closePrevious host _ caller, .done => s.connect call.asked host s.lastKeyPath (.replace caller)
  | .closePrevious host _ caller, .failed _ => s.connect call.asked host s.lastKeyPath (.replace caller)
  | .surfaces caller, .done => s.reconnectReturns caller true now
  | .surfaces caller, .failed _ => s.reconnectReturns caller true now
  | .reconnectTransport id caller, .flag ok => s.transportAnswered call.asked id caller ok now
  | .reconnectTransport id caller, .failed message =>
    transportAnswered { s with error := some message } call.asked id caller false now
  | .closeForDisconnect _, .done => s.disconnected call.asked
  | .probe id, .flag healthy => s.probed call.asked id healthy now
  | .probe id, .failed _ => s.probed call.asked id false now
  | _, _ => s

def waiting (s : State Host Bootstrap) (id : Nat) : Option (Call Host) := s.calls.find? (·.id = id)

def withoutCall (s : State Host Bootstrap) (id : Nat) : State Host Bootstrap :=
  { s with calls := s.calls.filter fun call => call.id ≠ id }

/-- A call that waits is answered. -/
def replied (s : State Host Bootstrap) (id : Nat) (answer : Answer Bootstrap) (now : Int) :
    State Host Bootstrap :=
  match s.waiting id with
  | none => s
  | some call => (s.withoutCall id).resume call answer now

def tick (s : State Host Bootstrap) : State Host Bootstrap :=
  { s with history := { s.history with clock := s.history.clock + 1 } }

end State

/-! ## 6. Runs -/

inductive Action (Host Bootstrap : Type)
  | connect (host : Host) (privateKeyPath : Option Text)
  | reconnect (now : Int)
  | retryNow (now : Int)
  | disconnect
  | onOsResume
  | onState (event : StateEvent) (now : Int)
  | countdown (now : Int)
  /-- A timer of the loop runs out. -/
  | fired (timer : Timer) (now : Int)
  /-- The platform answers a call that waits. -/
  | reply (id : Nat) (answer : Answer Bootstrap) (now : Int)

variable {Host Bootstrap : Type}

def act (s : State Host Bootstrap) : Action Host Bootstrap → State Host Bootstrap
  | .connect host privateKeyPath => s.connect s.history.clock host privateKeyPath .plain
  | .reconnect now => s.reconnect s.history.clock .user now
  | .retryNow now => s.retryNow s.history.clock now
  | .disconnect => s.disconnect
  | .onOsResume => s.onOsResume
  | .onState event now => s.onState event now
  | .countdown now => { s with loop := s.loop.tick now }
  | .fired timer now => s.fired timer now
  | .reply id answer now => s.replied id answer now

def step (s : State Host Bootstrap) (a : Action Host Bootstrap) : State Host Bootstrap :=
  (act s a).tick

end PocketShell.ConnectionStore
