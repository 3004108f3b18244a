import PocketShell.Connection.HostCli

/-!
# What the controller awaits

The calls of the SSH capability and of the trust store the controller makes
(`sshCapability.ts`), and the awaits that stay inside it: another promise, a
timer, a consumer. `Ans q` is what an await of `q` can end in; a capability call
ends in its result or in a rejection.
-/

namespace PocketShell

structure SshConnectionRef where
  connectionId : String
  generationId : String
deriving DecidableEq

structure SshPtyRef where
  connectionId : String
  generationId : String
  channelId : String
deriving DecidableEq

def SshPtyRef.connection (pty : SshPtyRef) : SshConnectionRef :=
  ⟨pty.connectionId, pty.generationId⟩

/-- `SshConnectOptions`. `dial` numbers the dial; it is not part of the call. -/
structure SshConnectOptions where
  host : SshHostTarget
  /-- The normalized route that replaces the marker of a gateway target. -/
  route : Option GatewayTransportTarget
  requestId : String
  generationId : String
  expectedHostKey : Option HostKeyTrustPin
  connectTimeoutMs : Nat
  dial : Nat

/-- The `hostKey` of a connect result, as it crosses the bridge: a field can be
missing or not a string. -/
structure RawHostKey where
  keyType : Option String
  keyB64 : Option String
  fingerprintSha256 : Option String

structure SshConnectResult where
  requestId : String
  connectionId : String
  generationId : String
  hostKey : RawHostKey
  gatewayHostKeyVerified : Bool

def SshConnectResult.ref (result : SshConnectResult) : SshConnectionRef :=
  ⟨result.connectionId, result.generationId⟩

inductive NativeState
  | connected
  | lost
  | closed
deriving DecidableEq

structure SshStateResult where
  requestId : String
  state : NativeState

structure SshAck where
  requestId : String

structure SshCancellationResult where
  requestId : String
  cancelled : Bool

inductive SshCancellationTarget
  | connect (targetRequestId : String)
  | connection (ref : SshConnectionRef)

structure SshExecResult where
  requestId : String
  generationId : String
  outcome : HostCliExecOutcome

structure TerminalGeometry where
  cols : Int
  rows : Int

structure SshPtyOpenResult where
  requestId : String
  pty : SshPtyRef

structure SshPtyReadResult where
  requestId : String
  generationId : String
  channelId : String
  sequence : Nat
  dataBase64 : String
  eof : Bool

structure SshPtyOperationResult where
  requestId : String
  channelId : String
  sequence : Nat

inductive Refusal
  | trustRequired
  | trustMismatch
  | notConnected
  | notFound
  | superseded
  | failed
deriving DecidableEq

/-- `ConnectionActionResult`. -/
inductive ActionResult (α : Type)
  | ok (value : α)
  | refused (reason : Refusal) (message : String)
deriving DecidableEq

def ActionResult.isOk {α : Type} : ActionResult α → Bool
  | .ok _ => true
  | .refused .. => false

/-- What a PTY write or resize of a consumer carries. -/
inductive PtyPayload
  | write (dataBase64 : String)
  | resize (geometry : TerminalGeometry)

/-- What a host command is run for. -/
inductive ExecPurpose
  | refreshSessions
  | probeSessions
  | createSession
  | createListing
  | killSession
  | killListing
  | runHostCommand
deriving DecidableEq

/-- Whether an attach belongs to a consumer or to the recovery ladder. -/
inductive AttachMode
  | consumer
  | recovery
deriving DecidableEq

/-- Which attach opens a PTY: of which terminal record, with which attach token. -/
structure AttachTag where
  mode : AttachMode
  record : Nat
  token : Nat

/-- The async function of the controller another one awaits, with what it
settles in where a later step depends on it. -/
inductive Inner
  | closePty
  /-- One turn of a loop that closes PTYs; `left` are still to come. -/
  | closePtys (left : Nat)
  | cancelCapability (target : SshCancellationTarget)
  | closeAllTerminals
  | closeCurrentTransport
  | closeReturnedConnection
  | releaseSpentConnection
  | dial
  | exec (ref : SshConnectionRef)
  /-- A host-CLI call over `ref`, and the error it ends in. -/
  | hostCli (ref : SshConnectionRef) (purpose : ExecPurpose) (error : Option Thrown)
  | refreshSessions (listed : Bool)
  | reconcileUncertainMutation
  | transportLost (pty : SshPtyRef) (pumpToken : Nat) (lost : Bool)
  | openTerminal
  | reattachTerminals
  | reconnectAndAttach
  | runReconnect
  | terminalOperation

/-- The awaits of the controller. A dial number, a purpose, a tag, a record or a
ticket tells apart awaits that look alike; it is not part of the request. -/
inductive Call
  -- the SSH capability
  | connect (options : SshConnectOptions)
  | getConnectionState (ref : SshConnectionRef) (requestId : String)
  | closeConnection (ref : SshConnectionRef) (requestId : String)
  | cancelOperation (target : SshCancellationTarget) (requestId : String)
  | scheduleClose (ref : SshConnectionRef) (requestId : String) (deadlineEpochMs : Int)
  | cancelScheduledClose (ref : SshConnectionRef) (requestId : String)
  | exec (ref : SshConnectionRef) (requestId command : String) (timeoutMs : Nat)
      (purpose : ExecPurpose)
  | openPty (ref : SshConnectionRef) (requestId command : String) (geometry : TerminalGeometry)
      (tag : AttachTag)
  | readPty (pty : SshPtyRef) (requestId : String) (sequence : Nat)
  | ptyOperation (pty : SshPtyRef) (requestId : String) (sequence : Nat) (payload : PtyPayload)
      (record ticket : Nat)
  | closePty (pty : SshPtyRef) (requestId : String)
  -- the trust store
  | trustGet (hostId : String) (dial : Nat)
  | trustRecord (hostId : String) (pin : HostKeyTrustPin)
  -- promises, timers and consumers of the controller itself
  | listenerReady
  | removeListener
  | delay (milliseconds : Nat)
  | output (session : SessionRow) (bytes : List UInt8) (generationId : String)
  /-- The next microtask: an inner async function has settled. -/
  | tick (inner : Inner)
  /-- The recovery ladder started with this intent has settled. -/
  | ladder (intent : Nat)
  /-- The attach promise with this ticket has settled. -/
  | attaching (ticket : Nat)
  /-- The queued terminal operation with this ticket has settled. -/
  | turn (ticket : Nat)

/-- What an await can end in. -/
abbrev Answer : Call → Type
  | .connect _ => Except SshCapabilityError SshConnectResult
  | .getConnectionState .. => Except SshCapabilityError SshStateResult
  | .closeConnection .. => Except SshCapabilityError SshAck
  | .cancelOperation .. => Except SshCapabilityError SshCancellationResult
  | .scheduleClose .. => Except SshCapabilityError SshAck
  | .cancelScheduledClose .. => Except SshCapabilityError SshCancellationResult
  | .exec .. => Except SshCapabilityError SshExecResult
  | .openPty .. => Except SshCapabilityError SshPtyOpenResult
  | .readPty .. => Except SshCapabilityError SshPtyReadResult
  | .ptyOperation .. => Except SshCapabilityError SshPtyOperationResult
  | .closePty .. => Except SshCapabilityError SshAck
  | .trustGet .. => Except SshCapabilityError (Option HostKeyTrustPin)
  | .trustRecord .. => Except SshCapabilityError Unit
  | .listenerReady => Except SshCapabilityError Unit
  | .removeListener => Except SshCapabilityError Unit
  | .delay _ => Unit
  | .output .. => Except SshCapabilityError Unit
  | .tick _ => Unit
  | .ladder _ => Unit
  | .attaching _ => ActionResult SessionRow
  | .turn _ => Unit

/-- On whose behalf the controller awaits something. -/
inductive Operation
  | connect
  | acceptPresentedHostKey
  | refreshSessions
  | probeSessions
  | createSession
  | killSession
  | attachSession
  | detachSession
  | runHostCommand
  | reconnect
  | enterBackground
  | returnToForeground
  | close
  | writeTerminalBytes
  | resizeTerminal
  /-- `runReconnect`, by the intent it was started with. -/
  | ladder (intent : Nat)
  /-- The promise of a consumer attach of this terminal record. -/
  | attach (record : Nat)
  /-- The output pump of this terminal record. -/
  | pump (record : Nat)
  /-- A close nobody awaits. -/
  | closing

/-- An await with the operation it belongs to. -/
abbrev Req : Type := Operation × Call

abbrev Ans (q : Req) : Type := Answer q.2

end PocketShell
