import PocketShell.Connection.State

/-!
# The methods of `ConnectionController`

The async methods of `connectionController.ts`, in its order of callees first.
Every `await` of the source is an await here: of a platform call, of one of the
controller's own promises, or (`settled`) of an inner async function, whose
caller resumes in a later microtask. A method called without `await` runs up to
its own first await and is then on its own (`spawn`).

The observers of snapshots are left out: they are handed copies, and are taken
not to throw.
-/

namespace PocketShell

open Coop (Async Thread System)

/-- Where a thread waits for its next turn without awaiting a call. -/
inductive Head
  /-- The `while` of an output pump, for the PTY and the token it started with. -/
  | pump (record : Nat) (pty : SshPtyRef) (pumpToken : Nat)
  /-- `connected = await this.dial(..)` of the recovery ladder: what it has in
  hand when the dial settles. -/
  | ladderDialled (host : SshHostTarget) (reason : String) (intent attempt : Nat) (delays : List Nat)
      (requestId : String) (connected : ActionResult SshConnectionRef)

abbrev Ctl (α : Type) : Type := Async Operation State Ans Head Thrown α

namespace Ctl

/-- Issue the call `q`. -/
def request (q : Call) : Ctl Unit := do
  let op ← Async.caller
  modify (·.addLog (.asked (op, q)))

/-- Await the answer to a call that was issued. -/
def response (q : Call) : Ctl (Answer q) := do
  let op ← Async.caller
  let a ← (Async.ask (op, q) : Ctl (Ans (op, q)))
  modify (·.addLog (.answered (op, q) a))
  pure a

/-- Await the call `q`. -/
def perform (q : Call) : Ctl (Answer q) := do
  request q
  response q

/-- A rejected call throws. -/
def unwrap {α : Type} (result : Except SshCapabilityError α) : Ctl α :=
  match result with
  | .ok a => pure a
  | .error e => throw (.capability e)

/-- Await an inner async function: its caller goes on in a later microtask. -/
def settled {α : Type} (inner : Inner) (p : Ctl α) : Ctl α := do
  let outcome ← Async.attempt p
  perform (.tick inner)
  match outcome with
  | .ok a => pure a
  | .error e => throw e

/-- The same, told apart by what the inner function settles in. -/
def settledIn {α : Type} (inner : Except Thrown α → Inner) (p : Ctl α) : Ctl α := do
  let outcome ← Async.attempt p
  perform (.tick (inner outcome))
  match outcome with
  | .ok a => pure a
  | .error e => throw e

/-- Whether `refreshSessions` has a listing. -/
def refreshedIn : Except Thrown (ActionResult SessionsListing) → Inner
  | .ok result => .refreshSessions result.isOk
  | .error _ => .refreshSessions false

variable (env : Env)

def createId : Ctl String := modifyGet fun s => (env.createId s.ids, { s with ids := s.ids + 1 })

def setSnapshot (patch : ConnectionSnapshot → ConnectionSnapshot) : Ctl Unit :=
  modify (·.setSnapshot patch)

def assertLive : Ctl Unit := do
  if (← get).disposed then throw (.error "ConnectionController is closed.")

def isCurrentConnect (intent : Nat) : Ctl Bool := do
  return (← get).isCurrentConnect intent

def cancelledConnectResult {α : Type} : ActionResult α :=
  .refused .failed "SSH connect was cancelled."

/-! ## Closing -/

/-- `closePtyRef`, and `closePty(..).catch(() => undefined)`: whatever the
platform answers. -/
def closePty (pty : SshPtyRef) : Ctl Unit := do
  let requestId ← createId env
  let _ ← perform (.closePty pty requestId)

/-- `closePtyRef` awaited. -/
def closePtyRef (pty : SshPtyRef) : Ctl Unit := settled .closePty (closePty env pty)

/-- `for (const pty of ptys) await closePtyRef(pty)`. -/
def closePtyRefs : List SshPtyRef → Ctl Unit
  | [] => pure ()
  | pty :: ptys => do
    settled (.closePtys ptys.length) (closePty env pty)
    closePtyRefs ptys

/-- `for (const pty of ptys) await capability.closePty(pty).catch(..)`. -/
def closePtys : List SshPtyRef → Ctl Unit
  | [] => pure ()
  | pty :: ptys => do
    closePty env pty
    closePtys ptys

def cancelCapability (target : SshCancellationTarget) : Ctl Unit := do
  let requestId ← createId env
  let _ ← perform (.cancelOperation target requestId)

def closeConnection (ref : SshConnectionRef) : Ctl Unit := do
  let requestId ← createId env
  let _ ← perform (.closeConnection ref requestId)

/-- Cancel what runs over a connection, then close it. -/
def cancelAndClose (ref : SshConnectionRef) : Ctl Unit := do
  settled (.cancelCapability (.connection ref)) (cancelCapability env (.connection ref))
  closeConnection env ref

def closeCurrentTransport : Ctl Unit := do
  let connection := (← get).connection
  modify (·.dropConnection)
  if let some c := connection then cancelAndClose env c.ref

def closeReturnedConnection (connection : SshConnectionRef) : Ctl Unit :=
  cancelAndClose env connection

def closeAllTerminals : Ctl Unit := do
  let ptys := (← get).openPtys
  modify fun s => { s.detachTerminals with terminals := [] }
  closePtyRefs env ptys

/-! ## Dialling -/

def readPresentedKey (keyType keyB64 fingerprintSha256 : Option String) : Option PresentedHostKey :=
  match keyType, keyB64, fingerprintSha256 with
  | some keyType, some keyB64, some fingerprint => some ⟨keyType, keyB64, fingerprint⟩
  | _, _, _ => none

/-- `gatewayAdmission`: the message of a refusal. -/
def gatewayAdmission (host : SshHostTarget) : Option String :=
  (unsupportedTransport env.normalizeGatewayServerUrl host env.gatewayTransport false).map
    (transportRefusalMessage · host.hostname)

def reusesTransport (live requested : SshHostTarget) : Bool :=
  match live.gateway, requested.gateway with
  | none, none => true
  | some a, some b =>
    match normalizeGatewayTarget env.normalizeGatewayServerUrl a,
      normalizeGatewayTarget env.normalizeGatewayServerUrl b with
    | some a, some b => a.serverUrl = b.serverUrl && a.deviceId = b.deviceId
    | _, _ => false
  | _, _ => false

def presentHostKeyDecision (host : SshHostTarget) (intent : Nat) (generationId : String)
    (previouslyTrusted : Option HostKeyTrustPin) (presented : PresentedHostKey)
    (verdict : KnownHostsVerdict) : Ctl (ActionResult SshConnectionRef) := do
  let reason : KnownHostsVerdict := if verdict = .mismatch then .mismatch else .unknown
  let message :=
    if reason = .unknown then
      "First connection to " ++ host.hostname ++ "; verify " ++ presented.fingerprintSha256 ++
        " before trusting it."
    else
      "The host key for " ++ host.hostname ++ " changed. The new fingerprint is " ++
        presented.fingerprintSha256 ++ "."
  modify fun s => (s.addLog (.presented intent)).setSnapshot fun sn =>
    { sn with
      phase := .awaitingTrust
      generationId := some generationId
      trustDecision := some ⟨host.hostId, host.hostname, reason, presented, previouslyTrusted⟩
      error := some message }
  return .refused (if reason = .mismatch then .trustMismatch else .trustRequired) message

def failGatewayDial (error : Thrown) (generationId : String) :
    Ctl (ActionResult SshConnectionRef) := do
  let sshError := readSshCapabilityError error
  let gatewayFailure := classifyGatewayDialFailure sshError.code sshError.data.gatewayCloseCode
  let retryable :=
    match error with
    | .gatewayRefusal _ => false
    | _ => (gatewayFailure.map (·.retryable)).getD (isRetryableDialError error)
  modify fun s => { s with lastDialRetryable := retryable }
  let message := (gatewayFailure.map (·.userMessage)).getD sshError.message
  setSnapshot fun sn =>
    { sn with
      phase := .error
      error := some message
      generationId := some generationId
      trustDecision := none
      gatewayFailure := gatewayFailure }
  return .refused .failed message

/-- The `catch` of `dial`. -/
def dialFailed (host : SshHostTarget) (intent : Nat) (generationId : String)
    (expectedHostKey : Option HostKeyTrustPin) (error : Thrown) :
    Ctl (ActionResult SshConnectionRef) := do
  if !(← isCurrentConnect intent) then
    return cancelledConnectResult
  else if hasGatewayMarker host then
    failGatewayDial error generationId
  else do
    let sshError := readSshCapabilityError error
    modify fun s => { s with lastDialRetryable := isRetryableDialError error }
    let fail : Ctl (ActionResult SshConnectionRef) := do
      setSnapshot fun sn =>
        { sn with
          phase := .error
          error := some sshError.message
          generationId := some generationId
          trustDecision := none }
      return .refused .failed sshError.message
    let data := sshError.data
    match readPresentedKey data.keyType data.keyB64 data.fingerprintSha256 with
    | some presented =>
      let verdict := verifyHostKeyTrustPin expectedHostKey presented
      if sshError.code = "HOST_KEY_REJECTED" ∧ verdict ≠ .trusted then
        presentHostKeyDecision host intent generationId expectedHostKey presented verdict
      else fail
    | none => fail

/-- What `dial` does with the result of a connect that the platform made. -/
def dialConnected (host : SshHostTarget) (intent dial : Nat) (requestId generationId : String)
    (expectedHostKey : Option HostKeyTrustPin) (connected : SshConnectResult) :
    Ctl (ActionResult SshConnectionRef) := do
  if !(← isCurrentConnect intent) then do
    settled .closeReturnedConnection (closeReturnedConnection env connected.ref)
    return cancelledConnectResult
  else if connected.requestId ≠ requestId ∨ connected.generationId ≠ generationId then do
    settled .closeReturnedConnection (closeReturnedConnection env connected.ref)
    return .refused .failed "SSH connect returned a stale generation."
  else
    match readPresentedKey connected.hostKey.keyType connected.hostKey.keyB64
        connected.hostKey.fingerprintSha256 with
    | none => do
      settled .closeReturnedConnection (closeReturnedConnection env connected.ref)
      throw (.error "SSH connect returned an invalid host key.")
    | some presented =>
      if hasGatewayMarker host ∧ !connected.gatewayHostKeyVerified then do
        settled .closeReturnedConnection (closeReturnedConnection env connected.ref)
        throw (.gatewayRefusal
          "The gateway connection did not prove the host key matched its pairing, so it was closed before use.")
      else
        let verdict :=
          if hasGatewayMarker host then .trusted else verifyHostKeyTrustPin expectedHostKey presented
        if verdict ≠ .trusted then do
          settled .closeReturnedConnection (closeReturnedConnection env connected.ref)
          if !(← isCurrentConnect intent) then return cancelledConnectResult
          presentHostKeyDecision host intent generationId expectedHostKey presented verdict
        else do
          let connection : Connection := ⟨⟨connected.connectionId, generationId⟩, dial⟩
          modify fun s =>
            { s.addLog (.adopted connection) with
              connection := some connection, hostCli := some connection }.setSnapshot fun sn =>
              { sn with
                phase := .connected
                connectionId := some connected.connectionId
                generationId := some generationId
                trustDecision := none
                error := none
                gatewayFailure := none }
          return .ok connection.ref

/-- The rest of the `try` of `dial`, once the expected key is known. -/
def dialExpecting (host : SshHostTarget) (route : Option GatewayTransportTarget) (intent dial : Nat)
    (requestId generationId : String) (expectedHostKey : Option HostKeyTrustPin) :
    Ctl (ActionResult SshConnectionRef) := do
  if !(← isCurrentConnect intent) then
    return cancelledConnectResult
  else do
    let connected ← unwrap (← perform (.connect
      { host, route, requestId, generationId, expectedHostKey,
        connectTimeoutMs := DEFAULT_CONNECT_TIMEOUT_MS, dial }))
    dialConnected env host intent dial requestId generationId expectedHostKey connected

/-- The key a dial expects: none for a gateway target, whose platform checks the
pairing itself; else the stored pin, else an accept-once pin of the same host. -/
def expectedKey (host : SshHostTarget) (dial : Nat) :
    Ctl (Option GatewayTransportTarget × Option HostKeyTrustPin) := do
  match host.gateway with
  | some marker =>
    match gatewayAdmission env host with
    | some message => throw (.gatewayRefusal message)
    | none => return (normalizeGatewayTarget env.normalizeGatewayServerUrl marker, none)
  | none => do
    let stored ← unwrap (← perform (.trustGet host.hostId dial))
    let once := ((← get).onceTrusted.filter (·.hostId = host.hostId)).map (·.pin)
    return (none, stored <|> once)

def dial (host : SshHostTarget) (intent : Nat) (requestId : String) :
    Ctl (ActionResult SshConnectionRef) := do
  let dial := (← get).ids
  let generationId ← createId env
  modify (·.addLog (.dialled intent dial host))
  modify fun s => { s with lastDialRetryable := true }
  setSnapshot fun sn =>
    { sn with phase := .connecting, generationId := some generationId, error := none }
  match ← Async.attempt (expectedKey env host dial) with
  | .error error => dialFailed host intent generationId none error
  | .ok (route, expectedHostKey) =>
    tryCatch (dialExpecting env host route intent dial requestId generationId expectedHostKey)
      (dialFailed host intent generationId expectedHostKey)

/-! ## Host commands -/

/-- `createHostCliTransport(connection).exec`. -/
def exec (connection : Connection) (command : String) (timeoutMs : Nat) (purpose : ExecPurpose) :
    Ctl HostCliExecOutcome := do
  let requestId ← createId env
  let result ← unwrap (← perform (.exec connection.ref requestId command timeoutMs purpose))
  if result.requestId ≠ requestId ∨ result.generationId ≠ connection.ref.generationId then
    throw (.error "SSH exec returned a stale request or connection generation.")
  return result.outcome

def errorOf {α : Type} : Except Thrown α → Option Thrown
  | .ok _ => none
  | .error e => some e

/-- The outcome of a host command read by one of the host-CLI modules. -/
def hostCli {α : Type} (connection : Connection) (command : String) (timeoutMs : Nat)
    (purpose : ExecPurpose) (read : Except Thrown HostCliExecOutcome → Except Thrown α) : Ctl α := do
  let result := read (← Async.attempt (exec env connection command timeoutMs purpose))
  perform (.tick (.hostCli connection.ref purpose (errorOf result)))
  match result with
  | .ok a => pure a
  | .error e => throw e

/-- `cli.listSessions()` awaited. -/
def listSessions (connection : Connection) (purpose : ExecPurpose) : Ctl SessionsListing :=
  hostCli env connection listCommand LIST_TIMEOUT_MS purpose (listedSessions env.text)

/-- `reconcilePendingMutation`: what the mutation becomes under a fresh listing. -/
def reconciled (mutation : Option UncertainMutation) (listing : SessionsListing) :
    Option UncertainMutation :=
  mutation.bind fun m =>
    let nameExists := listing.sessions.any (·.name = m.target)
    let applied :=
      match m.kind with
      | .createSession => nameExists || listing.sessions.any (·.tag = some m.target)
      | .killSession => !nameExists
    if listing.errors.isEmpty && applied then some { m with state := .observedApplied } else none

def reconcilePendingMutation (listing : SessionsListing) : Ctl Unit := do
  match reconciled (← get).snapshot.uncertainMutation listing with
  | some mutation => setSnapshot fun sn => { sn with uncertainMutation := some mutation }
  | none => pure ()

def recordUncertainMutation (kind : MutationKind) (target : String) : Ctl Unit := do
  let now := (← get).clock
  setSnapshot fun sn => { sn with uncertainMutation := some ⟨kind, target, .unknown, now⟩ }

/-! ## Terminals -/

/-- `superseded` of `openTerminal`. -/
def attachSuperseded (s : State) (r token : Nat) (connection : SshConnectionRef) : Bool :=
  token ≠ (s.records r).attachToken || !s.terminals.contains r || !s.isCurrentGeneration connection

/-- `current` of `startPtyPump`. -/
def pumpCurrent (s : State) (r pumpToken : Nat) : Bool :=
  !s.disposed && pumpToken = (s.records r).pumpToken

/-- `transportLost`, with the attempts that are left. -/
def transportLost (pty : SshPtyRef) : Nat → Ctl Bool
  | 0 => return false
  | attempts + 1 => do
    if attempts + 1 < EOF_PROBE_ATTEMPTS then perform (.delay EOF_PROBE_RETRY_MS)
    match (← get).connection with
    | none => return true
    | some connection =>
      if connection.ref.generationId ≠ pty.generationId then return true
      let requestId ← createId env
      match ← perform (.getConnectionState connection.ref requestId) with
      | .error _ => transportLost pty attempts
      | .ok status =>
        if status.requestId ≠ requestId then transportLost pty attempts
        else return status.state = .lost || status.state = .closed

/-- `for (const listener of outputListeners) await listener(..)`. -/
def deliverOutput (session : SessionRow) (bytes : List UInt8) (generationId : String) : Nat → Ctl Unit
  | 0 => pure ()
  | n + 1 => do
    let _ ← unwrap (← perform (.output session bytes generationId))
    deliverOutput session bytes generationId n

/-- What a read result violates, if anything. -/
def readViolation (pty : SshPtyRef) (requestId : String) (readSequence : Nat)
    (result : SshPtyReadResult) : Option String :=
  if result.requestId ≠ requestId ∨ result.generationId ≠ pty.generationId ∨
      result.channelId ≠ pty.channelId then
    some "PTY read returned a stale request or generation."
  else if result.sequence < readSequence ∨ readSequence + 1 < result.sequence then
    some ("PTY output sequence gap: expected " ++ toString readSequence ++ " or " ++
      toString (readSequence + 1) ++ ", received " ++ toString result.sequence ++ ".")
  else if result.sequence = readSequence ∧ 0 < result.dataBase64.length then
    some "PTY output changed bytes without advancing its sequence."
  else if result.sequence = readSequence + 1 ∧ result.dataBase64.length = 0 then
    some "PTY output advanced its sequence without returning bytes."
  else none

/-! ## The recovery ladder, up to its dial -/

/-- `runReconnect` returns, and the `finally` of `reconnectAndAttach` follows. -/
def ladderEnd (intent : Nat) : Ctl Unit := do
  modify fun s => s.addLog (.ladderEnded intent (s.ladderView intent))
  perform (.tick .runReconnect)
  modify fun s => { s with reconnectTask := none }

/-- What `runReconnect` does when its budget is spent or a dial was refused for
good. -/
def ladderGiveUp (host : SshHostTarget) (intent : Nat) : Ctl Unit := do
  let s ← get
  if s.isCurrentConnect intent then
    let attempts := s.snapshot.retryAttempt
    let refusal :=
      if !s.lastDialRetryable || s.snapshot.gatewayFailure.isSome then trim (s.snapshot.error.getD "")
      else ""
    let cause :=
      if refusal = "" then ""
      else if refusal.toList.getLast?.any (fun c => c = '.' || c = '!' || c = '?') then " " ++ refusal
      else " " ++ refusal ++ "."
    setSnapshot fun sn =>
      { sn with
        phase := .lost
        error := some ("Could not reconnect to " ++ host.hostname ++ " after " ++ toString attempts ++
          " attempt" ++ (if attempts = 1 then "" else "s") ++ "." ++ cause) }

/-- The `for` of `runReconnect` from its `attempt` on, over the delays that are
left. -/
def ladderAttempt (host : SshHostTarget) (reason : String) (intent attempt : Nat) :
    List Nat → Ctl Unit
  | [] => do
    ladderGiveUp host intent
    ladderEnd intent
  | milliseconds :: delays => do
    if 0 < attempt then perform (.delay milliseconds)
    if !(← isCurrentConnect intent) then ladderEnd intent
    else do
      setSnapshot fun sn =>
        { sn with phase := .reconnecting, retryAttempt := attempt + 1, error := some reason }
      let requestId ← createId env
      modify fun s => { s with pendingConnectRequestId := some requestId }
      let connected ← dial env host intent requestId
      Async.loopAt (.ladderDialled host reason intent attempt delays requestId connected)

def runReconnect (host : SshHostTarget) (reason : String) (intent : Nat) : Ctl Unit := do
  let oldPtys := (← get).openPtys
  modify (·.detachTerminals)
  let oldConnection := (← get).connection
  modify (·.dropConnection)
  setSnapshot fun sn =>
    { sn with phase := .reconnecting, retryAttempt := 0, error := some reason, connectionId := none }
  closePtys env oldPtys
  if let some c := oldConnection then cancelAndClose env c.ref
  if !(← isCurrentConnect intent) then ladderEnd intent
  else ladderAttempt env host reason intent 0 env.retryDelaysMs

/-- `reconnectAndAttach`, up to the task it returns. -/
def reconnectAndAttach (reason : String) : Ctl (Option Nat) := do
  let s ← get
  match s.reconnectTask, s.host with
  | some task, _ => return some task
  | none, none => return none
  | none, some host => do
    let intent := s.connectIntent + 1
    modify fun s => { s with connectIntent := intent }
    Async.spawn (.ladder intent) (runReconnect env host reason intent)
    modify fun s => { s with reconnectTask := some intent }
    return some intent

def startReconnect (reason : String) : Ctl Unit := do
  let before ← get
  if before.snapshot.phase = .background || before.disposed then pure ()
  else do
    let _ ← reconnectAndAttach env reason
    modify fun s => s.addLog (.signalled before.recovery s.recovery)

/-- `await this.reconnectAndAttach(reason)`. -/
def reconnectAwaited (reason : String) : Ctl Unit := do
  match ← reconnectAndAttach env reason with
  | some task => perform (.ladder task)
  | none => perform (.tick .reconnectAndAttach)

/-! ## Sessions -/

/-- A listing that failed over the connection that is held. -/
def refreshReported (connection : Connection) (error : Thrown) : Ctl (ActionResult SessionsListing) := do
  let s ← get
  if (isUncertainMutation error || isCurrentTransportFailure error) &&
      !s.isCurrentGeneration connection.ref then
    return .refused .failed error.message
  else do
    let phase : ConnectionPhase :=
      if s.snapshot.phase = .reconnecting then .reconnecting
      else if s.hasLiveTerminal then .live
      else .error
    setSnapshot fun sn => { sn with error := some error.message, phase := phase }
    return .refused .failed error.message

/-- The `catch` of `refreshSessions`. -/
def refreshFailed (connection : Connection) (error : Thrown) : Ctl (ActionResult SessionsListing) := do
  if !(← get).isCurrentGeneration connection.ref then return .refused .failed error.message
  else do
    if isUncertainMutation error || isCurrentTransportFailure error then
      startReconnect env "session list lost its transport"
    refreshReported connection error

/-- The `try` of `refreshSessions`. -/
def refreshListed (connection : Connection) : Ctl (ActionResult SessionsListing) := do
  let listing ← listSessions env connection .refreshSessions
  setSnapshot fun sn =>
    { sn with sessions := listing.sessions, sessionListErrors := listing.errors }
  reconcilePendingMutation listing
  return .ok listing

def refreshSessions : Ctl (ActionResult SessionsListing) := do
  let s ← get
  match s.hostCli, s.connection with
  | some cli, some connection => do
    setSnapshot fun sn =>
      { sn with phase := if sn.phase = .live then .live else .listing, error := none }
    tryCatch (refreshListed env cli) (refreshFailed env connection)
  | _, _ => return .refused .notConnected "Connect to a host before listing sessions."

def probeListed (connection : Connection) : Ctl (ActionResult SessionsListing) := do
  let listing ← listSessions env connection .probeSessions
  if !(← get).isCurrentGeneration connection.ref then
    return .refused .failed "The transport was replaced while listing sessions."
  else return .ok listing

def probeSessions : Ctl (ActionResult SessionsListing) := do
  let s ← get
  match s.hostCli, s.connection with
  | some cli, some _ =>
    if s.snapshot.phase.isLinkUp then
      tryCatch (probeListed env cli) fun error => return .refused .failed error.message
    else return .refused .notConnected "No usable connection to list sessions on."
  | _, _ => return .refused .notConnected "No usable connection to list sessions on."

def reconcileUncertainMutation : Ctl Unit := do
  match ← settledIn refreshedIn (refreshSessions env) with
  | .ok listing => reconcilePendingMutation listing
  | .refused .. => pure ()

/-- The `catch` of `createSession` and `killSession`. -/
def mutationFailed {α : Type} (kind : MutationKind) (name lost uncertain : String)
    (error : Thrown) : Ctl (ActionResult α) := do
  if isUncertainMutation error then do
    recordUncertainMutation kind name
    if isCurrentTransportFailure error then startReconnect env lost
    else settled .reconcileUncertainMutation (reconcileUncertainMutation env)
    return .refused .failed uncertain
  else return .refused .failed error.message

/-- The `try` of `createSession`. -/
def createAndList (cli : Connection) (name : String) (options : CreateOptions) :
    Ctl (ActionResult CreatedSession) := do
  let command := createCommand name options
  let created ← hostCli env cli command CREATE_TIMEOUT_MS .createSession
    (createdSession env.text command)
  let listing ← listSessions env cli .createListing
  setSnapshot fun sn =>
    { sn with sessions := listing.sessions, sessionListErrors := listing.errors }
  return .ok created

def createSession (name : String) (options : CreateOptions) : Ctl (ActionResult CreatedSession) := do
  match (← get).hostCli with
  | none => return .refused .notConnected "Connect to a host before creating a session."
  | some cli =>
    tryCatch (createAndList env cli name options)
      (mutationFailed env .createSession name "create result was lost"
        ("The host may have created session “" ++ name ++
          "”, but the result was lost. Refresh sessions before deciding what to do next."))

/-- The `try` of `killSession`. -/
def killAndList (cli : Connection) (name : String) : Ctl (ActionResult Unit) := do
  let command := killCommand name
  hostCli env cli command KILL_TIMEOUT_MS .killSession (killedSession env.text command)
  let listing ← listSessions env cli .killListing
  setSnapshot fun sn =>
    { sn with sessions := listing.sessions, sessionListErrors := listing.errors }
  return .ok ()

def killSession (name : String) : Ctl (ActionResult Unit) := do
  match (← get).hostCli with
  | none => return .refused .notConnected "Connect to a host before stopping a session."
  | some cli =>
    tryCatch (killAndList env cli name)
      (mutationFailed env .killSession name "kill result was lost"
        ("The host may have stopped session “" ++ name ++
          "”, but the result was lost. Refresh sessions before deciding what to do next."))

def runHostCommand (command : String) (timeoutMs : Nat) : Ctl (ActionResult HostCliExecOutcome) := do
  match (← get).connection with
  | none => return .refused .notConnected "Connect to a host before running a command."
  | some connection => do
    let outcome ← Async.attempt
      (settled (.exec connection.ref) (exec env connection command timeoutMs .runHostCommand))
    match outcome with
    | .ok outcome => return .ok outcome
    | .error error => do
      if (← get).connection = some connection && isCurrentTransportFailure error then
        startReconnect env "host command observed a transport failure"
      return .refused .failed error.message

/-! ## The output pump -/

/-- The `catch` of `startPtyPump`. -/
def pumpFailed (r : Nat) (pty : SshPtyRef) (pumpToken : Nat) (error : Thrown) : Ctl Unit := do
  let s ← get
  if !pumpCurrent s r pumpToken then pure ()
  else
    let message := error.message
    let backgrounded : Bool := s.snapshot.phase = .background
    let transportFailure := isCurrentTransportFailure error
    if backgrounded || transportFailure then do
      modify (·.setRecord r fun t => { t with pty := none, pumpToken := t.pumpToken + 1 })
      Async.spawn .closing (closePty env pty)
      let live := (← get).hasLiveTerminal
      setSnapshot fun sn =>
        { sn with
          phase := if backgrounded then .background else if live then .live else .error
          error := some message }
      if transportFailure then startReconnect env "PTY output reader observed a transport failure"
    else do
      let failed := (s.records r).pty
      modify (·.removeTerminal r true)
      let live := (← get).hasLiveTerminal
      setSnapshot fun sn =>
        { sn with phase := if live then .live else .error, error := some message }
      if let some pty := failed then closePtyRef env pty

/-- The session of a pump ended; `backgrounded` is what its EOF found. -/
def pumpEnded (r : Nat) (pty : SshPtyRef) (pumpToken : Nat) (backgrounded : Bool) : Ctl Unit := do
  let s ← get
  if !pumpCurrent s r pumpToken then pure ()
  else do
    let ended := "Session “" ++ (s.records r).session.name ++ "” ended."
    if backgrounded then
      setSnapshot fun sn => { sn with phase := .background, error := some ended }
    else do
      modify (·.removeTerminal r true)
      let phase := (← get).idlePhase
      setSnapshot fun sn => { sn with phase := phase, error := some ended }
    closePty env pty

/-- The `if (result.eof)` of `startPtyPump`. -/
def pumpEof (r : Nat) (pty : SshPtyRef) (pumpToken : Nat) : Ctl Unit := do
  modify (·.setRecord r fun t => { t with pty := none })
  if (← get).snapshot.phase = .background then pumpEnded env r pty pumpToken true
  else do
    let lost ← transportLost env pty EOF_PROBE_ATTEMPTS
    perform (.tick (.transportLost pty pumpToken lost))
    if lost then do
      if pumpCurrent (← get) r pumpToken then
        startReconnect env "PTY closed because its transport was lost"
    else pumpEnded env r pty pumpToken false

/-- What a pump does after its output consumers ran. -/
def pumpNext (r : Nat) (pty : SshPtyRef) (pumpToken : Nat) (eof : Bool) : Ctl Unit :=
  if eof then pumpEof env r pty pumpToken else Async.loopAt (.pump r pty pumpToken)

/-- One round of the `while` of `startPtyPump`. -/
def pumpRound (r : Nat) (pty : SshPtyRef) (pumpToken : Nat) : Ctl Unit := do
  let s ← get
  if !pumpCurrent s r pumpToken || (s.records r).pty.map (·.channelId) ≠ some pty.channelId then
    pure ()
  else do
    let requestId ← createId env
    let result ← unwrap (← perform (.readPty pty requestId (s.records r).readSequence))
    let s ← get
    if !pumpCurrent s r pumpToken then pure ()
    else
      let readSequence := (s.records r).readSequence
      match readViolation pty requestId readSequence result with
      | some violation => throw (.error violation)
      | none =>
        if result.sequence = readSequence + 1 then do
          match env.decodeBase64 result.dataBase64 with
          | none => throw (.error "The string to be decoded is not correctly encoded.")
          | some bytes => do
            deliverOutput (s.records r).session bytes pty.generationId s.outputListeners
            if !pumpCurrent (← get) r pumpToken then pure ()
            else do
              modify (·.setRecord r fun t => { t with readSequence := result.sequence })
              pumpNext env r pty pumpToken result.eof
        else pumpNext env r pty pumpToken result.eof

def pumpTurn (r : Nat) (pty : SshPtyRef) (pumpToken : Nat) : Ctl Unit :=
  tryCatch (pumpRound env r pty pumpToken) (pumpFailed env r pty pumpToken)

def startPtyPump (r : Nat) : Ctl Unit := do
  match ((← get).records r).pty with
  | none => pure ()
  | some pty => do
    modify (·.setRecord r fun t => { t with pumpToken := t.pumpToken + 1 })
    let pumpToken := ((← get).records r).pumpToken
    pumpTurn env r pty pumpToken

/-! ## Attaching -/

/-- The `catch` of `openTerminal`. -/
def openFailed (r token : Nat) (connection : Connection) (mode : AttachMode) (error : Thrown) :
    Ctl (ActionResult SessionRow) := do
  let s ← get
  if attachSuperseded s r token connection.ref then
    return .refused .superseded "Session attach was superseded."
  else do
    if mode = .consumer then do
      setSnapshot fun sn =>
        { sn with
          phase := if s.hasLiveTerminal then .live else .error
          error := some error.message }
      if isCurrentTransportFailure error then
        startReconnect env "PTY attach failed after transport loss"
    return .refused .failed error.message

/-- The `try` of `openTerminal`. -/
def openAttached (r token : Nat) (connection : Connection) (mode : AttachMode) (session : SessionRow) :
    Ctl (ActionResult SessionRow) := do
  let openRequestId ← createId env
  let geometry := ((← get).records r).geometry
  let opened ← unwrap (← perform (.openPty connection.ref openRequestId
    (buildAttachCommand (session.id.getD session.name)) geometry ⟨mode, r, token⟩))
  let s ← get
  if opened.requestId ≠ openRequestId || opened.pty.generationId ≠ connection.ref.generationId ||
      attachSuperseded s r token connection.ref then do
    closePty env opened.pty
    return .refused .superseded "A stale session attach completed after a newer one."
  else do
    modify (·.setRecord r (·.openedOn opened.pty))
    if mode = .consumer then
      setSnapshot fun sn =>
        { sn with phase := .live, selectedSession := some session, error := none, retryAttempt := 0 }
    Async.spawn (.pump r) (startPtyPump env r)
    return .ok session

def openTerminal (r : Nat) (connection : Connection) (mode : AttachMode) :
    Ctl (ActionResult SessionRow) := do
  let record := (← get).records r
  let token := record.attachToken + 1
  modify (·.setRecord r fun t =>
    { t with attachToken := token, pumpToken := t.pumpToken + 1, pty := none })
  let session := record.session
  if mode = .consumer then do
    let live := (← get).hasLiveTerminal
    setSnapshot fun sn =>
      { sn with
        phase := if live then .live else .attaching
        error := none
        selectedSession := some session }
  if let some previous := record.pty then closePtyRef env previous
  if attachSuperseded (← get) r token connection.ref then
    return .refused .superseded "Session attach was superseded."
  else
    tryCatch (openAttached env r token connection mode session)
      (openFailed env r token connection mode)

/-- The promise `attachSession` keeps in `attaching`, with its `finally`. -/
def attachPromise (r : Nat) (connection : Connection) (ticket : Nat) : Ctl Unit := do
  let result ← settled .openTerminal (openTerminal env r connection .consumer)
  modify fun s =>
    if (s.records r).attaching = some ticket then s.setRecord r fun t => { t with attaching := none }
    else s
  modify fun s => { s with settledAttaches := (ticket, result) :: s.settledAttaches }

/-- `record.focusedAt = ++this.focusClock`. -/
def focus (r : Nat) : Ctl Unit := do
  modify fun s => { s with focusClock := s.focusClock + 1 }
  modify fun s => s.setRecord r fun t => { t with focusedAt := s.focusClock }

/-- The `while` that makes room for a new terminal; `n` bounds its rounds. -/
def evict : Nat → Ctl Unit
  | 0 => pure ()
  | n + 1 => do
    let s ← get
    if env.maxOpenPtys ≤ s.terminals.length then
      match s.leastRecentlyFocused with
      | none => pure ()
      | some r => do
        let pty := (s.records r).pty
        modify (·.removeTerminal r false)
        if let some pty := pty then Async.spawn .closing (closePty env pty)
        evict n
    else pure ()

/-- Start the attach of `r` and await it. -/
def startAttach (r : Nat) (connection : Connection) : Ctl (ActionResult SessionRow) := do
  let ticket := (← get).tickets + 1
  modify fun s => { s with tickets := ticket }
  Async.spawn (.attach r) (attachPromise env r connection ticket)
  modify (·.setRecord r fun t => { t with attaching := some ticket })
  perform (.attaching ticket)

/-- `attachSession` of a session with an open terminal. -/
def attachOpen (r : Nat) (connection : Connection) (listed : SessionRow)
    (requested : Option TerminalGeometry) : Ctl (ActionResult SessionRow) := do
  focus r
  let record := (← get).records r
  match record.attaching with
  | some ticket => perform (.attaching ticket)
  | none =>
    if record.pty.any (·.generationId = connection.ref.generationId) then do
      modify (·.setRecord r fun t => { t with geometry := requested.getD t.geometry })
      setSnapshot fun sn => { sn with selectedSession := some record.session }
      return .ok record.session
    else do
      modify (·.setRecord r fun t =>
        { t with session := listed, geometry := requested.getD t.geometry })
      startAttach env r connection

/-- `attachSession` of a session without one. -/
def attachNew (connection : Connection) (listed : SessionRow) (requested : Option TerminalGeometry) :
    Ctl (ActionResult SessionRow) := do
  evict env (← get).terminals.length
  modify fun s => { s with focusClock := s.focusClock + 1 }
  let s ← get
  let r := s.nextRecord
  let record : TerminalRecord :=
    { emptyRecord with
      session := listed
      geometry := requested.getD s.terminalGeometry
      focusedAt := s.focusClock }
  modify fun s => { s.setRecord r (fun _ => record) with
    nextRecord := r + 1, terminals := s.terminals ++ [r] }
  startAttach env r connection

def attachSession (session : SessionRow) (geometry : Option TerminalGeometry) :
    Ctl (ActionResult SessionRow) := do
  let requested := validGeometry geometry
  modify fun s => { s with terminalGeometry := requested.getD s.terminalGeometry }
  let s ← get
  match s.hostCli, s.connection, s.host with
  | some _, some connection, some _ =>
    match s.snapshot.sessions.find? (sameSession · session) with
    | none =>
      return .refused .notFound ("Session “" ++ session.name ++ "” is no longer in the host list.")
    | some listed =>
      match s.findTerminal listed with
      | some r => attachOpen env r connection listed requested
      | none => attachNew env connection listed requested
  | _, _, _ => return .refused .notConnected "Connect to a host before attaching a session."

def focusSession (session : SessionRow) : Ctl Unit := do
  match (← get).findTerminal session with
  | none => pure ()
  | some r => focus r

def detachSession (session : SessionRow) : Ctl Unit := do
  match (← get).findTerminal session with
  | none => pure ()
  | some r => do
    let pty := ((← get).records r).pty
    modify (·.removeTerminal r false)
    let s ← get
    let phase := s.snapshot.phase
    if !s.disposed && s.connection.isSome && phase ≠ .reconnecting && phase ≠ .background then
      if phase = .error && !s.hasLiveTerminal then setSnapshot id
      else setSnapshot fun sn => { sn with phase := s.idlePhase, error := none }
    else setSnapshot id
    if let some pty := pty then closePtyRef env pty

/-! ## The recovery ladder, from its dial on -/

inductive ReattachOutcome
  | done
  | retry
  | superseded

/-- Drop the terminals whose session the listing no longer has; their rows. -/
def dropVanished (listing : SessionsListing) : List Nat → Ctl (List SessionRow)
  | [] => return []
  | r :: rs => do
    let s ← get
    if !s.terminals.contains r then dropVanished listing rs
    else
      let session := (s.records r).session
      if listing.sessions.any (sameSession · session) then dropVanished listing rs
      else do
        modify (·.removeTerminal r false)
        return session :: (← dropVanished listing rs)

/-- The attach loop of `reattachTerminals`: the last failure, or the outcome
that ends the pass early. -/
def reattachEach (connection : Connection) (listing : SessionsListing) (intent : Nat)
    (failure : Option String) : List Nat → Ctl (Except ReattachOutcome (Option String))
  | [] => return .ok failure
  | r :: rs => do
    let s ← get
    if !s.terminals.contains r then reattachEach connection listing intent failure rs
    else do
      modify (·.setRecord r fun t =>
        { t with session := (listing.sessions.find? (sameSession · t.session)).getD t.session })
      let attached ← settled .openTerminal (openTerminal env r connection .recovery)
      if !(← isCurrentConnect intent) then return .error .superseded
      else
        match attached with
        | .ok _ => reattachEach connection listing intent failure rs
        | .refused .superseded _ => reattachEach connection listing intent failure rs
        | .refused _ message =>
          if isTransportFailureMessage message then do
            let opened := (← get).openPtys
            modify (·.detachTerminals)
            closePtyRefs env opened
            settled .closeCurrentTransport (closeCurrentTransport env)
            return .error .retry
          else reattachEach connection listing intent (some message) rs

/-- The end of an attach pass that ran through. -/
def reattachDone (selected : Option SessionRow) (failure : Option String) : Ctl Unit := do
  let s ← get
  let focus := (selected.bind s.findTerminal) <|> s.terminals.getLast?
  let focused := focus.map fun r => (s.records r).session
  if !s.hasLiveTerminal then
    setSnapshot fun sn =>
      { sn with
        phase := if s.terminals.isEmpty then .connected else .error
        selectedSession := focused
        error := failure }
  else
    setSnapshot fun sn =>
      { sn with phase := .live, selectedSession := focused, error := failure, retryAttempt := 0 }

def reattachTerminals (host : SshHostTarget) (listing : SessionsListing) (intent : Nat) :
    Ctl ReattachOutcome := do
  let s ← get
  match s.connection, s.hostCli with
  | some connection, some _ => do
    let selected := s.snapshot.selectedSession
    let nothingOpen : Ctl ReattachOutcome := do
      setSnapshot fun sn =>
        { sn with phase := .connected, selectedSession := none, error := none, retryAttempt := 0 }
      return .done
    if s.terminals.isEmpty then nothingOpen
    else do
      let vanished ← dropVanished listing s.terminals
      let s ← get
      if s.terminals.isEmpty then
        match vanished with
        | [] => nothingOpen
        | first :: _ => do
          let gone := (selected.bind fun row => vanished.find? (sameSession · row)).getD first
          setSnapshot fun sn =>
            { sn with
              phase := .lost
              error := some ("Session “" ++ gone.name ++ "” no longer exists on " ++ host.hostname ++ ".") }
          return .done
      else do
        setSnapshot fun sn => { sn with phase := .attaching, error := none }
        match ← reattachEach env connection listing intent none s.terminals with
        | .error outcome => return outcome
        | .ok failure => do
          reattachDone selected failure
          return .done
  | _, _ => return .retry

/-- `runReconnect` once its dial has settled. -/
def ladderDialled (host : SshHostTarget) (reason : String) (intent attempt : Nat) (delays : List Nat)
    (requestId : String) (connected : ActionResult SshConnectionRef) : Ctl Unit := do
  modify fun s =>
    if s.pendingConnectRequestId = some requestId then { s with pendingConnectRequestId := none } else s
  if !(← isCurrentConnect intent) then ladderEnd intent
  else
    match connected with
    | .refused .trustRequired _ => ladderEnd intent
    | .refused .trustMismatch _ => ladderEnd intent
    | .refused _ _ => do
      if !(← get).lastDialRetryable then do
        ladderGiveUp host intent
        ladderEnd intent
      else ladderAttempt env host reason intent (attempt + 1) delays
    | .ok _ => do
      let listing ← settledIn refreshedIn (refreshSessions env)
      if !(← isCurrentConnect intent) then ladderEnd intent
      else
        match listing with
        | .refused _ _ => do
          if (← get).snapshot.phase = .reconnecting then
            ladderAttempt env host reason intent (attempt + 1) delays
          else ladderEnd intent
        | .ok listing => do
          match ← settled .reattachTerminals (reattachTerminals env host listing intent) with
          | .retry => ladderAttempt env host reason intent (attempt + 1) delays
          | _ => ladderEnd intent

/-! ## Connecting -/

/-- The `try` around the reuse of a live transport. -/
def askReuse (live : Connection) (intent : Nat) :
    Ctl (Option (ActionResult (Option SshConnectionRef))) := do
  let stateRequestId ← createId env
  let status ← unwrap (← perform (.getConnectionState live.ref stateRequestId))
  let s ← get
  if !s.isCurrentConnect intent then return some cancelledConnectResult
  else if status.requestId ≠ stateRequestId then throw (.error "SSH state returned a stale request.")
  else if status.state = .connected then return some (.ok (s.connection.map (·.ref)))
  else return none

/-- The reuse branch of `connect`: its result, when there is one. -/
def reuseConnection (host : SshHostTarget) (intent : Nat) :
    Ctl (Option (ActionResult (Option SshConnectionRef))) := do
  let s ← get
  match s.connection, s.host with
  | some live, some liveHost =>
    if liveHost.hostId = host.hostId && reusesTransport env liveHost host then
      tryCatch (askReuse env live intent) fun _ => return none
    else return none
  | _, _ => return none

/-- The dial of `connect`, with everything closed. -/
def connectDial (host : SshHostTarget) (intent : Nat) (requestId : String) :
    Ctl (ActionResult (Option SshConnectionRef)) := do
  if !(← isCurrentConnect intent) then return cancelledConnectResult
  else do
    modify fun s => { s with host := some (hostWithoutTransientPassphrase host) }.setSnapshot fun sn =>
      { sn with
        phase := .connecting
        hostId := some host.hostId
        hostLabel := some host.hostname
        connectionId := none
        generationId := none
        sessions := []
        sessionListErrors := []
        selectedSession := none
        retryAttempt := 0
        error := none
        trustDecision := none
        uncertainMutation := none
        gatewayFailure := none }
    let result ← settled .dial (dial env host intent requestId)
    if !(← isCurrentConnect intent) then return cancelledConnectResult
    else
      match result with
      | .ok ref => do
        setSnapshot fun sn =>
          { sn with
            phase := .connected
            connectionId := some ref.connectionId
            generationId := some ref.generationId }
        return .ok (some ref)
      | .refused reason message => return .refused reason message

/-- `connect` past the reuse branch: a fresh dial. -/
def connectFresh (host : SshHostTarget) (intent : Nat) (requestId : String) :
    Ctl (ActionResult (Option SshConnectionRef)) := do
  settled .closeAllTerminals (closeAllTerminals env)
  settled .closeCurrentTransport (closeCurrentTransport env)
  connectDial env host intent requestId

/-- The `try` of `connect`. -/
def connectAdmitted (host : SshHostTarget) (intent : Nat) (requestId : String) :
    Ctl (ActionResult (Option SshConnectionRef)) := do
  unwrap (← perform .listenerReady)
  if !(← isCurrentConnect intent) then return cancelledConnectResult
  else
    match ← reuseConnection env host intent with
    | some result => return result
    | none => connectFresh env host intent requestId

def invalidKeyHandleMessage : String :=
  "SSH key handle must have a non-empty handle ID and an optional string passphrase."

/-- `connect` once nothing stands against it: it takes a new intent. -/
def connectTaken (host : SshHostTarget) : Ctl (ActionResult (Option SshConnectionRef)) := do
  let intent := (← get).connectIntent + 1
  modify fun s => { s with connectIntent := intent }
  let requestId ← createId env
  modify fun s => { s with pendingConnectRequestId := some requestId }
  Async.andFinally (connectAdmitted env host intent requestId)
    (modify fun s =>
      if s.pendingConnectRequestId = some requestId then { s with pendingConnectRequestId := none }
      else s)

def connect (host : SshHostTarget) : Ctl (ActionResult (Option SshConnectionRef)) := do
  assertLive
  if host.credential.isKeyHandle && !host.credential.isValidKeyHandle then
    return .refused .failed invalidKeyHandleMessage
  else
    match (if hasGatewayMarker host && (← get).host.isSome then gatewayAdmission env host else none) with
    | some message => return .refused .failed message
    | none => connectTaken env host

def acceptPresentedHostKey (passphrase : Option (Option String)) (persist : Bool) :
    Ctl (ActionResult (Option SshConnectionRef)) := do
  let s ← get
  match s.snapshot.trustDecision, s.host with
  | some pending, some host =>
    let retryHost := hostWithTransientPassphrase host passphrase
    if !persist && pending.reason ≠ .unknown then
      return .refused .trustMismatch "A changed host key cannot be trusted for one connection only."
    else if retryHost.credential.isKeyHandle && !retryHost.credential.isValidKeyHandle then
      return .refused .failed invalidKeyHandleMessage
    else do
      let accepted := acceptedHostKeyPin pending.previouslyTrusted pending.presented
      if persist then unwrap (← perform (.trustRecord host.hostId accepted))
      else
        modify fun s =>
          { s.addLog (.trustedOnce ⟨host.hostId, accepted⟩) with
            onceTrusted := some ⟨host.hostId, accepted⟩ }
      setSnapshot fun sn => { sn with trustDecision := none, phase := .connecting, error := none }
      connect env retryHost
  | _, _ => return .refused .failed "There is no pending host-key decision."

/-! ## Background, reconnect and close -/

def reconnect : Ctl (ActionResult Unit) := do
  assertLive
  let s ← get
  if s.host.isNone then return .refused .notConnected "There is no host to reconnect to."
  else
    let usable := s.connection.isSome && s.snapshot.phase.isUsable
    let report : Ctl (ActionResult Unit) := do
      let s ← get
      let phase := s.snapshot.phase
      if s.connection.isSome && phase ≠ .lost && phase ≠ .reconnecting then return .ok ()
      else return .refused .failed (s.snapshot.error.getD "Reconnect failed.")
    match s.reconnectTask with
    | some task => do
      perform (.ladder task)
      report
    | none =>
      if s.snapshot.phase = .background then
        return .refused .failed "The connection is in background grace; it reconnects on return."
      else do
        if !usable then reconnectAwaited env "reconnect requested"
        report

def enterBackground (graceMs : Option Int) : Ctl Unit := do
  assertLive
  match (← get).connection with
  | none => pure ()
  | some connection => do
    let grace := max 0 (min (graceMs.getD 0) env.maxBackgroundGraceMs)
    let deadlineEpochMs := (← get).clock + grace
    modify fun s => { s with graceDeadlineEpochMs := some deadlineEpochMs }
    let requestId ← createId env
    let result ← unwrap (← perform (.scheduleClose connection.ref requestId deadlineEpochMs))
    if result.requestId ≠ requestId then
      throw (.error "SSH grace schedule returned a stale request.")
    setSnapshot fun sn => { sn with phase := .background, error := none }

def releaseSpentConnection : Ctl Unit := do
  let oldPtys := (← get).openPtys
  modify (·.detachTerminals)
  let oldConnection := (← get).connection
  modify (·.dropConnection)
  modify fun s => { s with connectIntent := s.connectIntent + 1 }
  closePtys env oldPtys
  if let some c := oldConnection then cancelAndClose env c.ref
  setSnapshot fun sn =>
    { sn with
      phase := .lost
      connectionId := none
      generationId := none
      retryAttempt := 0
      error := some RECONNECT_DECLINED_MESSAGE }

/-- The loop that drops the terminals whose PTY closed during the grace. -/
def dropEnded : List Nat → Ctl Unit
  | [] => pure ()
  | r :: rs => do
    let record := (← get).records r
    if record.pty.isNone && record.attaching.isNone then modify (·.removeTerminal r false)
    dropEnded rs

/-- The `try` of `returnToForeground`: whether the transport survived. -/
def resumeGrace (connection : Connection) : Ctl Bool := do
  let cancelRequestId ← createId env
  let cancelled ← unwrap (← perform (.cancelScheduledClose connection.ref cancelRequestId))
  if cancelled.requestId ≠ cancelRequestId then
    throw (.error "SSH grace cancel returned a stale request.")
  else do
    let stateRequestId ← createId env
    let status ← unwrap (← perform (.getConnectionState connection.ref stateRequestId))
    if status.requestId ≠ stateRequestId then throw (.error "SSH state returned a stale request.")
    else if cancelled.cancelled && status.state = .connected then do
      dropEnded (← get).terminals
      let phase := (← get).idlePhase
      setSnapshot fun sn => { sn with phase := phase, error := none, retryAttempt := 0 }
      return true
    else return false

def returnToForeground (reconnect : Bool) : Ctl Unit := do
  assertLive
  let s ← get
  modify fun s => { s with graceDeadlineEpochMs := none }
  let spent (reason : String) : Ctl Unit :=
    if reconnect then reconnectAwaited env reason else settled .releaseSpentConnection (releaseSpentConnection env)
  match s.host, s.graceDeadlineEpochMs with
  | some _, some deadline =>
    match s.connection with
    | none => spent "background grace expired"
    | some connection =>
      if deadline ≤ s.clock then spent "background grace expired"
      else do
        let survived ← tryCatch (resumeGrace env connection) fun _ => return false
        if !survived then spent "connection was spent during background grace"
  | _, _ => pure ()

/-- What is left of `close` once the controller is disposed. -/
def closeRest : Ctl Unit := do
  settled .closeAllTerminals (closeAllTerminals env)
  settled .closeCurrentTransport (closeCurrentTransport env)
  modify fun s => { s with host := none, graceDeadlineEpochMs := none }.setSnapshot fun sn =>
    { sn with
      phase := .idle
      hostId := none
      hostLabel := none
      connectionId := none
      generationId := none
      sessions := []
      sessionListErrors := []
      selectedSession := none
      retryAttempt := 0
      error := none
      trustDecision := none
      uncertainMutation := none }
  let ready ← perform .listenerReady
  if let .ok _ := ready then
    let _ ← perform .removeListener

def close : Ctl Unit := do
  if (← get).disposed then pure ()
  else do
    modify fun s => { s with disposed := true }
    modify fun s => { s with connectIntent := s.connectIntent + 1 }
    let pending := (← get).pendingConnectRequestId
    modify fun s => { s with pendingConnectRequestId := none }
    if let some requestId := pending then
      settled (.cancelCapability (.connect requestId)) (cancelCapability env (.connect requestId))
    closeRest env

/-! ## Terminal input -/

/-- What tells `writeTerminalBytes` and `resizeTerminal` apart. -/
structure PtyOperation where
  payload : PtyPayload
  /-- The answer that is given without sending anything. -/
  early : TerminalRecord → Option (ActionResult Nat)
  /-- What a sent operation changes. -/
  applied : Nat → State → State
  /-- The errors that start a reconnect. -/
  reconnects : Thrown → Bool
  supersededMessage : String
  notConnectedMessage : String
  staleMessage : String
  changedMessage : String
  reconnectReason : String

/-- The `catch` of a PTY operation. -/
def operationFailed (op : PtyOperation) (r : Nat) (pty : SshPtyRef) (error : Thrown) :
    Ctl (ActionResult Nat) := do
  if ((← get).records r).pty.map (·.channelId) ≠ some pty.channelId then
    return .refused .superseded op.changedMessage
  else do
    -- `abandonPty` is called here, and what it returns is awaited at the end
    modify (·.setRecord r fun t => { t with pty := none, pumpToken := t.pumpToken + 1 })
    let requestId ← createId env
    request (.closePty pty requestId)
    let live := (← get).hasLiveTerminal
    setSnapshot fun sn =>
      { sn with phase := if live then .live else .error, error := some error.message }
    if op.reconnects error then startReconnect env op.reconnectReason
    let _ ← response (.closePty pty requestId)
    perform (.tick .closePty)
    return .refused .failed error.message

/-- The `try` of a PTY operation. -/
def operationSent (op : PtyOperation) (r : Nat) (pty : SshPtyRef) (ticket : Nat) :
    Ctl (ActionResult Nat) := do
  let sequence := ((← get).records r).operationSequence + 1
  modify (·.setRecord r fun t => { t with operationSequence := sequence })
  let requestId ← createId env
  let result ← unwrap (← perform (.ptyOperation pty requestId sequence op.payload r ticket))
  if result.requestId ≠ requestId ∨ result.sequence ≠ sequence ∨ result.channelId ≠ pty.channelId then
    throw (.error op.staleMessage)
  else do
    modify (op.applied r)
    return .ok sequence

/-- The operation handed to `withTerminalOperation`. -/
def operationBody (op : PtyOperation) (r : Nat) (selectedPty : Option SshPtyRef) (ticket : Nat) :
    Ctl (ActionResult Nat) := do
  let s ← get
  let record := s.records r
  if record.pty.map (·.channelId) ≠ selectedPty.map (·.channelId) then
    return .refused .superseded op.supersededMessage
  else
    match record.pty with
    | none => return .refused .notConnected op.notConnectedMessage
    | some pty =>
      if !s.terminals.contains r || s.snapshot.phase ≠ .live then
        return .refused .notConnected op.notConnectedMessage
      else
        match op.early record with
        | some result => return result
        | none =>
          tryCatch (operationSent env op r pty ticket) (operationFailed env op r pty)

/-- `withTerminalOperation`: wait for the operation queued before. `pty` and
`payload` are what the call was made with, for the log. -/
def withTerminalOperation {α : Type} (r ticket : Nat) (pty : Option SshPtyRef)
    (payload : PtyPayload) (operation : Ctl α) : Ctl α := do
  let behind := ((← get).records r).operationQueue
  modify fun s =>
    (s.addLog (.queued r ticket pty payload behind)).setRecord r fun t =>
      { t with operationQueue := ticket }
  perform (.turn behind)
  let outcome ← Async.attempt operation
  modify fun s => { s with settledTurns := ticket :: s.settledTurns }
  match outcome with
  | .ok a => pure a
  | .error e => throw e

def terminalOperation (op : PtyOperation) (notAttached : String) (session : SessionRow) :
    Ctl (ActionResult Nat) := do
  match (← get).findTerminal session with
  | none => return .refused .notConnected notAttached
  | some r => do
    focus r
    let selectedPty := ((← get).records r).pty
    let ticket := (← get).tickets + 1
    modify fun s => { s with tickets := ticket }
    withTerminalOperation r ticket selectedPty op.payload (operationBody env op r selectedPty ticket)

def writeOperation (bytes : List UInt8) : PtyOperation where
  payload := .write (env.encodeBase64 bytes)
  early := fun record => if bytes.isEmpty then some (.ok record.operationSequence) else none
  applied := fun _ s => s
  reconnects := fun error =>
    isCurrentTransportFailure error || (readSshCapabilityError error).code = "OPERATION_UNCERTAIN"
  supersededMessage := "The session PTY changed before terminal input was sent."
  notConnectedMessage := "Attach a session before sending terminal input."
  staleMessage := "PTY write returned a stale operation."
  changedMessage := "The session PTY changed while terminal input was sent."
  reconnectReason := "terminal input result was uncertain"

def writeTerminalBytes (session : SessionRow) (bytes : List UInt8) : Ctl (ActionResult Nat) :=
  terminalOperation env (writeOperation env bytes) "Attach a session before sending terminal input."
    session

def resizeOperation (geometry : TerminalGeometry) : PtyOperation where
  payload := .resize geometry
  early := fun _ =>
    if (validGeometry (some geometry)).isNone then
      some (.refused .failed "Terminal dimensions must be between 1 and 1000.")
    else none
  applied := fun r s =>
    { s.setRecord r fun t => { t with geometry := geometry } with terminalGeometry := geometry }
  reconnects := isCurrentTransportFailure
  supersededMessage := "The session PTY changed before terminal resize."
  notConnectedMessage := "Attach a session before resizing the terminal."
  staleMessage := "PTY resize returned a stale operation."
  changedMessage := "The session PTY changed while terminal resize ran."
  reconnectReason := "terminal resize observed a transport failure"

def resizeTerminal (session : SessionRow) (geometry : TerminalGeometry) : Ctl (ActionResult Nat) :=
  terminalOperation env (resizeOperation geometry) "Attach a session before resizing the terminal."
    session

/-! ## Native events -/

/-- `SshConnectionStateEvent`. -/
structure StateEvent where
  ref : SshConnectionRef
  lost : Bool
  reason : Option String

def onConnectionState (event : StateEvent) : Ctl Unit := do
  let s ← get
  if !s.isCurrentGeneration event.ref then pure ()
  else if !event.lost && event.reason = some "grace-expired" && s.snapshot.phase = .background then do
    modify (·.detachTerminals)
    modify (·.dropConnection)
    setSnapshot fun sn => { sn with phase := .background, connectionId := none, error := none }
  else if event.lost then startReconnect env (event.reason.getD "SSH transport lost")
  else pure ()

end Ctl

/-! ## The controller as a system -/

/-- What reaches the controller from outside: consumer calls, native events, the
clock, and consumers of terminal output coming and going. -/
inductive Input
  | connect (host : SshHostTarget)
  | acceptPresentedHostKey (passphrase : Option (Option String)) (persist : Bool)
  | refreshSessions
  | probeSessions
  | createSession (name : String) (options : CreateOptions)
  | killSession (name : String)
  | attachSession (session : SessionRow) (geometry : Option TerminalGeometry)
  | focusSession (session : SessionRow)
  | detachSession (session : SessionRow)
  | runHostCommand (command : String) (timeoutMs : Nat)
  | reconnect
  | enterBackground (graceMs : Option Int)
  | returnToForeground (reconnect : Bool)
  | close
  | writeTerminalBytes (session : SessionRow) (bytes : List UInt8)
  | resizeTerminal (session : SessionRow) (geometry : TerminalGeometry)
  | clearUncertainMutation
  | connectionState (event : Ctl.StateEvent)
  | clock (now : Int)
  | outputListeners (n : Nat)

variable (env : Env)

/-- The thread an input starts. -/
def Input.body : Input → Thread State Ans Head
  | .connect host => Async.thread .connect (Ctl.connect env host)
  | .acceptPresentedHostKey passphrase persist =>
    Async.thread .acceptPresentedHostKey (Ctl.acceptPresentedHostKey env passphrase persist)
  | .refreshSessions => Async.thread .refreshSessions (Ctl.refreshSessions env)
  | .probeSessions => Async.thread .probeSessions (Ctl.probeSessions env)
  | .createSession name options => Async.thread .createSession (Ctl.createSession env name options)
  | .killSession name => Async.thread .killSession (Ctl.killSession env name)
  | .attachSession session geometry =>
    Async.thread .attachSession (Ctl.attachSession env session geometry)
  | .focusSession session => Async.thread .attachSession (Ctl.focusSession session)
  | .detachSession session => Async.thread .detachSession (Ctl.detachSession env session)
  | .runHostCommand command timeoutMs =>
    Async.thread .runHostCommand (Ctl.runHostCommand env command timeoutMs)
  | .reconnect => Async.thread .reconnect (Ctl.reconnect env)
  | .enterBackground graceMs => Async.thread .enterBackground (Ctl.enterBackground env graceMs)
  | .returnToForeground redial =>
    Async.thread .returnToForeground (Ctl.returnToForeground env redial)
  | .close => Async.thread .close (Ctl.close env)
  | .writeTerminalBytes session bytes =>
    Async.thread .writeTerminalBytes (Ctl.writeTerminalBytes env session bytes)
  | .resizeTerminal session geometry =>
    Async.thread .resizeTerminal (Ctl.resizeTerminal env session geometry)
  | .clearUncertainMutation =>
    Async.thread .closing (Ctl.setSnapshot fun sn => { sn with uncertainMutation := none })
  | .connectionState event => Async.thread .closing (Ctl.onConnectionState env event)
  | .clock now => Async.thread .closing (modify fun s => { s with clock := now } : Ctl Unit)
  | .outputListeners n =>
    Async.thread .closing (modify fun s => { s with outputListeners := n } : Ctl Unit)

/-- What a thread does when it gets its turn at a head. -/
def Head.body : Head → Thread State Ans Head
  | .pump r pty pumpToken => Async.thread (.pump r) (Ctl.pumpTurn env r pty pumpToken)
  | .ladderDialled host reason intent attempt delays requestId connected =>
    Async.thread (.ladder intent)
      (Ctl.ladderDialled env host reason intent attempt delays requestId connected)

/-- The promises of the controller itself: an answer is ready once they have
settled. Everything else can be answered at any time. -/
def promiseReady (s : State) : (q : Req) → Ans q → Bool
  | (_, .ladder intent), _ => s.reconnectTask ≠ some intent
  | (_, .attaching ticket), result => s.settledAttaches.contains (ticket, result)
  | (_, .turn ticket), _ => s.settledTurns.contains ticket
  | _, _ => true

/-- A controller together with everything that can reach it. -/
def controller : System State Ans Head Input where
  body := Input.body env
  loop := Head.body env
  ready := promiseReady

/-- The controller as constructed, with nothing running. -/
def start : Coop.Config State Ans Head := ⟨initial, []⟩

end PocketShell
