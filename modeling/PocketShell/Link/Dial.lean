import PocketShell.Connection.Link
import PocketShell.Link.Channels

/-!
# The dials of the link capability

`linkCapability.ts`: `connect`, `cancelOperation`, and the callbacks that `connectLink` gives to
the socket. An attempt, its connection and its socket go by the number of the `connect` call
that made them.

The socket factory can call back before it returns the socket (`during`). A connection id is not
guessed: a caller has those of the connections it was given (`known`).
-/

namespace PocketShell.Link

structure DialAttempt where
  requestId : String
  socket : Option Nat := none
  settled : Bool := false

structure LinkEntry where
  channels : ConnectionEntry := {}
  /-- None while there is only the placeholder. -/
  socket : Option Nat := none

/-- What callers and listeners are told, and which sockets are asked to close. -/
inductive DialItem
  /-- `connect` refused to dial. -/
  | refused (call : Nat) (error : SshCapabilityError)
  | resolved (call : Nat)
  | rejected (call : Nat) (error : SshCapabilityError)
  | closing (socket : Nat)
  | emitted (call : Nat) (state : ConnectionState)
deriving DecidableEq

structure Capability where
  calls : Nat := 0
  dial : Option Nat := none
  attempts : Nat → DialAttempt := fun _ => { requestId := "" }
  entries : Nat → LinkEntry := fun _ => {}
  /-- The keys of the map of connections. -/
  connections : List Nat := []
  known : List Nat := []
  /-- The dials whose `catch` is due. -/
  jobs : List Nat := []
  log : List DialItem := []

inductive SocketEvent
  | opened
  /-- A `ready` frame. -/
  | ready
  /-- An `error` frame. -/
  | error (message code : Option String)
  | control (frame : LinkControlFrame)
  | data (raw : Bytes)
  | closed (code : Nat) (reason : String)
  | failed (message : String)
deriving DecidableEq

namespace Capability

variable (s : Capability)

def note (items : List DialItem) : Capability := { s with log := s.log ++ items }

def setEntry (call : Nat) (entry : LinkEntry) : Capability :=
  { s with entries := Function.update s.entries call entry }

/-- `socket.close`, which the placeholder does nothing for. -/
def closeSocket (socket : Option Nat) : Capability := s.note (socket.toList.map .closing)

/-- The dial is settled; without an error it is with a result. -/
def settleDial (error : Option SshCapabilityError) : Capability :=
  match s.dial with
  | none => s
  | some call =>
    let attempt := s.attempts call
    if attempt.settled then s
    else
      let s := { s with
        attempts := Function.update s.attempts call { attempt with settled := true }
        dial := none }
      match error with
      | some error =>
        { s.closeSocket attempt.socket with
          log := (s.closeSocket attempt.socket).log ++ [.rejected call error]
          jobs := s.jobs ++ [call] }
      | none => { s with log := s.log ++ [.resolved call], known := call :: s.known }

def loseConnection (call : Nat) (reason : String) : Capability :=
  let entry := s.entries call
  if entry.channels.state = .connected then
    ((s.setEntry call { entry with channels := entry.channels.loseConnection reason }).closeSocket
      entry.socket).note [.emitted call .lost]
  else s

def dialFailed (detail : String) : SshCapabilityError :=
  { message := "Link dial failed: " ++ detail, code := "CONNECTION_LOST" }

/-- The handlers that `connectLink` makes for the socket of a call. -/
def handle (call : Nat) (event : SocketEvent) : Capability :=
  let entry := s.entries call
  let settled := (s.attempts call).settled
  match event with
  | .opened => s
  | .ready => if settled then s else s.settleDial none
  | .error message code =>
    if settled then s.loseConnection call (code.getD "error")
    else s.settleDial (some
      { message := message.getD "relay refused the link", code := code.getD "SSH_ERROR" })
  | .control frame => s.setEntry call { entry with channels := entry.channels.handleControl frame }
  | .data raw => s.setEntry call { entry with channels := entry.channels.handleData raw }
  | .closed code reason =>
    if settled then
      s.loseConnection call (if reason = "" then "closed " ++ toString code else reason)
    else s.settleDial (some (dialFailed (if reason = "" then toString code else reason)))
  | .failed message => if settled then s else s.settleDial (some (dialFailed message))

/-- `connect` up to its `await`. -/
def connect (link : LinkCapabilityOptions) (options : SshConnectOptions)
    (during : List SocketEvent) : Capability :=
  let call := s.calls
  if s.dial.isSome then
    { s with
      calls := call + 1
      log := s.log ++ [.refused call
        { message := "Another link dial is already in flight.", code := "DIAL_IN_PROGRESS" }] }
  else if options.expectedHostKey ≠ none ∧
      verifyHostKeyTrustPin options.expectedHostKey link.presentedKey ≠ .trusted then
    { s with
      calls := call + 1
      log := s.log ++ [.refused call
        { message := "Link host key changed — verify the relay URL and token.",
          code := "HOST_KEY_MISMATCH" }] }
  else
    let s := { s with
      calls := call + 1
      dial := some call
      attempts := Function.update s.attempts call { requestId := options.requestId }
      entries := Function.update s.entries call {}
      connections := call :: s.connections }
    let s := during.foldl (fun s event => s.handle call event) s
    -- the socket is kept in the entry, not in the attempt
    s.setEntry call { s.entries call with socket := some call }

/-- The `catch` of a rejected dial. -/
def runJob : Capability :=
  match s.jobs with
  | [] => s
  | call :: jobs =>
    let entry := s.entries call
    { s.setEntry call { entry with channels := { entry.channels with state := .closed } } with
      connections := s.connections.erase call
      jobs }

/-- `cancelOperation` for a dial. -/
def cancelConnect (targetRequestId : String) : Capability :=
  match s.dial with
  | none => s
  | some call =>
    if (s.attempts call).settled = false ∧ (s.attempts call).requestId = targetRequestId then
      s.settleDial (some { message := "link dial cancelled", code := "CANCELLED" })
    else s

/-- `cancelOperation` for a connection. -/
def cancelConnection (call : Nat) : Capability :=
  if call ∈ s.connections then s.loseConnection call "cancelled" else s

def closeConnection (call : Nat) : Capability :=
  let entry := s.entries call
  if call ∈ s.connections then
    ((s.setEntry call { entry with channels := entry.channels.closeConnection }).closeSocket
      entry.socket).note [.emitted call .closed]
  else s

end Capability

inductive DialAction
  | connect (options : SshConnectOptions) (during : List SocketEvent)
  | socket (call : Nat) (event : SocketEvent)
  /-- The timer of a dial, which its settlement clears. -/
  | timedOut (call : Nat)
  | cancelConnect (targetRequestId : String)
  | cancelConnection (call : Nat)
  | closeConnection (call : Nat)
  | runJob

/-- Events come from sockets that were made, and calls for connections that were given. -/
def dialStep (link : LinkCapabilityOptions) (s : Capability) : DialAction → Capability
  | .connect options during => s.connect link options during
  | .socket call event => if (s.entries call).socket.isSome then s.handle call event else s
  | .timedOut call =>
    if s.dial = some call then
      s.settleDial (some { message := "link dial timed out", code := "TIMED_OUT" })
    else s
  | .cancelConnect targetRequestId => s.cancelConnect targetRequestId
  | .cancelConnection call => if call ∈ s.known then s.cancelConnection call else s
  | .closeConnection call => if call ∈ s.known then s.closeConnection call else s
  | .runJob => s.runJob

def dialRun (link : LinkCapabilityOptions) (s : Capability) (actions : List DialAction) : Capability :=
  actions.foldl (dialStep link) s

end PocketShell.Link
