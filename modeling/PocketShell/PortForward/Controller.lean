import PocketShell.Connection.Capability
import PocketShell.Coop.Serial
import PocketShell.PortForward.Policy

/-!
# The port-forward controller

`PortForwardController`: the tunnels one connection holds, and the passes that close
and open them as the policy says. Its async methods are queued one behind the
other; what the user asks for may change while one of them waits.

The `log` stands beside the source's fields and is read by no method: each entry is
made beside what the user had asked for at that time.
-/

namespace PocketShell.PortForward

open Coop (Async Thread Serial)
open Js (property assign remove keys)

/-! ## The state -/

structure SshPortForwardRef where
  forwardId : String
  connectionId : String
  generationId : String
  localPort : Port

structure LiveTunnel extends ActivePortForward where
  ref : SshPortForwardRef
  localPort : Port

structure PortForwardControllerOptions where
  /-- What the `n`-th call of `createRequestId` returns. -/
  createRequestId : Nat → String
  config : PortForwardPolicyConfig := {}
  desiredManualPorts : List Port := []
  sshConfigPorts : List Port := []

structure PortForwardControllerSnapshot where
  scan : PortScanResult
  /-- Remote port, local port and origin. -/
  activeForwards : List (Port × Port × ForwardOrigin)
  deferredPorts : List Port
  errors : List (Port × String)

/-- What the user asked for. -/
structure Wishes where
  desiredManualPorts : List Port
  intents : List (Port × PortIntent)
  autoEnabled : Bool

/-- What `openPortForward` resolves with; `forwardId` is `none` when it is no string. -/
structure OpenReply where
  requestId : String
  connection : SshConnectionRef
  forwardId : Option String
  localPort : Port

structure OpenRequest where
  connection : SshConnectionRef
  requestId : String
  remotePort : Port

structure CloseRequest where
  ref : SshPortForwardRef
  requestId : String

/-- Who asks to close a tunnel. -/
inductive Closer
  | pass
  | setConnection
  | closeAll
deriving DecidableEq

inductive Event
  | connected (connection : SshConnectionRef)
  | applying (input : PortForwardPlanInput)
  | closing (closer : Closer) (remotePort : Port) (request : CloseRequest)
  /-- `held` are the ports with a tunnel at that time. -/
  | opening (request : OpenRequest) (held : List Port)
  | opened (request : OpenRequest) (reply : OpenReply)

structure Entry where
  wishes : Wishes
  event : Event

structure State where
  connection : SshConnectionRef
  wishes : Wishes
  forwards : List (Port × LiveTunnel) := []
  priorMissingScans : List (Port × Nat) := []
  failedAt : List (Port × Int) := []
  errors : List (Port × String) := []
  /-- What `now()` returns. -/
  now : Int := 0
  /-- How often `createRequestId` was called. -/
  requests : Nat := 0
  log : List Entry := []

def addPort (port : Port) (ports : List Port) : List Port :=
  if ports.contains port then ports else ports ++ [port]

/-- The constructor. -/
def initial (options : PortForwardControllerOptions) (connection : SshConnectionRef) : State where
  connection := connection
  wishes :=
    { desiredManualPorts := (options.desiredManualPorts.filter isValidTcpPort).foldl
        (fun ports port => addPort port ports) []
      intents := []
      autoEnabled := true }

/-- A response answers the request on this connection. -/
def isSshResponseFor (reply : OpenReply) (requestId : String) (connection : SshConnectionRef) : Bool :=
  reply.requestId = requestId && reply.connection.connectionId = connection.connectionId &&
    reply.connection.generationId = connection.generationId

/-- The id of a reply the controller takes. -/
def OpenReply.accepted (reply : OpenReply) (requestId : String) (connection : SshConnectionRef) :
    Option String :=
  match reply.forwardId with
  | none => none
  | some forwardId =>
    if isSshResponseFor reply requestId connection && forwardId ≠ "" &&
        isValidTcpPort reply.localPort then some forwardId
    else none

/-! ## The methods that run at once -/

namespace Wishes

def setManualDesiredPort (w : Wishes) (remotePort : Port) (enabled : Bool) : Wishes :=
  if enabled then
    { w with
      desiredManualPorts := addPort remotePort w.desiredManualPorts
      intents := remove remotePort w.intents }
  else
    { w with
      desiredManualPorts := w.desiredManualPorts.filter (· ≠ remotePort)
      intents := assign remotePort .forceOff w.intents }

def followAutomaticPolicy (w : Wishes) (remotePort : Port) : Wishes :=
  { w with
    desiredManualPorts := w.desiredManualPorts.filter (· ≠ remotePort)
    intents := remove remotePort w.intents }

end Wishes

namespace State

def addLog (s : State) (e : Event) : State := { s with log := s.log ++ [⟨s.wishes, e⟩] }

def setAutoEnabled (s : State) (enabled : Bool) : State :=
  { s with wishes := { s.wishes with autoEnabled := enabled } }

/-- Throws a `RangeError` on a number that is no port. -/
def setManualDesiredPort (s : State) (remotePort : Port) (enabled : Bool) : State :=
  if !isValidTcpPort remotePort then s
  else
    { s with
      wishes := s.wishes.setManualDesiredPort remotePort enabled
      failedAt := if enabled then remove remotePort s.failedAt else s.failedAt }

def followAutomaticPolicy (s : State) (remotePort : Port) : State :=
  { s with
    wishes := s.wishes.followAutomaticPolicy remotePort
    failedAt := remove remotePort s.failedAt }

def getManualDesiredPorts (s : State) : List Port := sortPorts s.wishes.desiredManualPorts

def snapshot (s : State) (scan : PortScanResult) (deferredPorts : List Port) :
    PortForwardControllerSnapshot where
  scan := scan
  activeForwards := (s.forwards.map fun p => (p.2.remotePort, p.2.localPort, p.2.origin)).insertionSort
    fun a b => a.1 ≤ b.1
  deferredPorts := deferredPorts
  errors := s.errors

/-! ## The parts of the queued methods -/

/-- What `applyScan` hands to `planPortForwards`. -/
def planInput (s : State) (options : PortForwardControllerOptions) (scan : PortScanResult) :
    PortForwardPlanInput where
  scan := scan
  activeForwards := s.forwards.map fun p => p.2.toActivePortForward
  desiredManualPorts := s.getManualDesiredPorts
  intents := s.wishes.intents
  sshConfigPorts := options.sshConfigPorts
  autoEnabled := s.wishes.autoEnabled
  priorMissingScans := s.priorMissingScans
  failedAt := s.failedAt
  nowMs := s.now
  config := options.config

/-- A planned close was acknowledged. -/
def closed (s : State) (port : Port) : State :=
  { s with
    forwards := remove port s.forwards
    errors := remove port s.errors
    failedAt := remove port s.failedAt }

def closeFailed (s : State) (port : Port) (e : String) : State :=
  { s with errors := assign port e s.errors }

def isManual (s : State) (port : Port) : Bool :=
  s.wishes.desiredManualPorts.contains port || property port s.wishes.intents = some .forceOn

def tunnel (s : State) (port : Port) (reply : OpenReply) (forwardId : String) : LiveTunnel where
  remotePort := port
  origin := if s.isManual port then .manual else .auto
  localPort := reply.localPort
  ref :=
    ⟨forwardId, reply.connection.connectionId, reply.connection.generationId, reply.localPort⟩

def opened (s : State) (port : Port) (reply : OpenReply) (forwardId : String) : State :=
  { s with
    forwards := assign port (s.tunnel port reply forwardId) s.forwards
    failedAt := remove port s.failedAt
    errors := remove port s.errors }

def openFailed (s : State) (port : Port) (e : String) : State :=
  { s with
    failedAt := assign port s.now s.failedAt
    errors := assign port e s.errors }

/-- `setConnection` up to its await. -/
def swap (s : State) (connection : SshConnectionRef) : State :=
  { { s with connection := connection, priorMissingScans := [] }.addLog (.connected connection) with
    forwards := [] }

/-- One result of `closeAll`. -/
def closeSettled (s : State) (port : Port) : Except String Unit → State
  | .ok () => { s with forwards := remove port s.forwards, errors := remove port s.errors }
  | .error _ => s

variable (options : PortForwardControllerOptions)

/-- `closeNative` up to its await. -/
def closing (closer : Closer) (forward : LiveTunnel) (s : State) : CloseRequest × State :=
  let request : CloseRequest := ⟨forward.ref, options.createRequestId s.requests⟩
  (request, { s with requests := s.requests + 1 }.addLog (.closing closer forward.remotePort request))

/-- `forwards.map((forward) => this.closeNative(forward))`: every call runs up to its
await before the first answer. -/
def closingEach (closer : Closer) : List LiveTunnel → State → List CloseRequest × State
  | [], s => ([], s)
  | forward :: forwards, s =>
    let first := s.closing options closer forward
    let rest := closingEach closer forwards first.2
    (first.1 :: rest.1, rest.2)

end State

/-! ## The queued methods -/

inductive Request
  | scan (connection : SshConnectionRef) (requestId : String)
  | openPortForward (request : OpenRequest)
  | closePortForward (request : CloseRequest)
  /-- `Promise.allSettled` over the calls of `closePortForward`. -/
  | closePortForwards (requests : List CloseRequest)

/-- A rejection is known by its `describeError`, an acknowledgement by its request id. -/
abbrev Ans : Request → Type
  | .scan .. => PortScanResult
  | .openPortForward _ => Except String OpenReply
  | .closePortForward _ => Except String String
  | .closePortForwards _ => Nat → Except String String

abbrev Ctl (α : Type) : Type := Async Unit State Ans Empty String α

/-- The outcome of `closeNative`. -/
def closeOutcome (request : CloseRequest) : Except String String → Except String Unit
  | .error e => .error e
  | .ok requestId =>
    if requestId = request.requestId then .ok ()
    else .error "Native port-forward close returned a mismatched request ID."

namespace Ctl

variable (options : PortForwardControllerOptions)

def createRequestId : Ctl String :=
  modifyGet fun s => (options.createRequestId s.requests, { s with requests := s.requests + 1 })

def closeNative (closer : Closer) (forward : LiveTunnel) : Ctl Unit := do
  let request ← (modifyGet (·.closing options closer forward) : Ctl CloseRequest)
  let answer ← Async.ask (R := Ans) (.closePortForward request)
  match closeOutcome request answer with
  | .ok () => return
  | .error e => throw e

/-- The results of `closeNative`, each with the port of its tunnel. -/
def closeEach (closer : Closer) (forwards : List LiveTunnel) : Ctl (List (Port × Except String Unit)) := do
  let requests ← (modifyGet (State.closingEach options closer forwards) : Ctl (List CloseRequest))
  let answers ← Async.ask (R := Ans) (.closePortForwards requests)
  return (forwards.zip requests).zipIdx.map fun p =>
    (p.1.1.remotePort, closeOutcome p.1.2 (answers p.2))

def setConnection (connection : SshConnectionRef) : Ctl Unit := do
  let s ← get
  if connection.connectionId = s.connection.connectionId &&
      connection.generationId = s.connection.generationId then return
  set (s.swap connection)
  let _ ← closeEach options .setConnection (s.forwards.map Prod.snd)

def closeAll : Ctl Unit := do
  let s ← get
  let results ← closeEach options .closeAll (s.forwards.map Prod.snd)
  modify fun s => results.foldl (fun s r => s.closeSettled r.1 r.2) s

/-- The body of the loop over `closePorts`. -/
def closePort (port : Port) : Ctl Unit := do
  let s ← get
  match property port s.forwards with
  | none => return
  | some live =>
    tryCatch (do closeNative options .pass live; modify (·.closed port))
      fun e => modify (·.closeFailed port e)

def closePorts : List Port → Ctl Unit
  | [] => return
  | port :: ports => do
    closePort options port
    closePorts ports

/-- The `try` block of the loop over `openPorts`. -/
def openNative (request : OpenRequest) : Ctl Unit := do
  let answer ← Async.ask (R := Ans) (.openPortForward request)
  match answer with
  | .error e => throw e
  | .ok reply =>
    modify (·.addLog (.opened request reply))
    let s ← get
    match reply.accepted request.requestId s.connection with
    | none => throw "Native port forward returned an invalid request, connection, or local port."
    | some forwardId => modify (·.opened request.remotePort reply forwardId)

/-- The body of the loop over `openPorts`: whether the port is deferred. -/
def openPort (port : Port) : Ctl Bool := do
  let s ← get
  if min options.config.maxActiveForwards 8 ≤ s.forwards.length then return true
  let requestId ← createRequestId options
  let request : OpenRequest := ⟨s.connection, requestId, port⟩
  modify (·.addLog (.opening request (keys s.forwards)))
  tryCatch (openNative request) fun e => modify (·.openFailed port e)
  return false

/-- The ports of the list that are deferred. -/
def openPorts : List Port → Ctl (List Port)
  | [] => return []
  | port :: ports => do
    let isDeferred ← openPort options port
    let deferred ← openPorts ports
    return if isDeferred then port :: deferred else deferred

def applyScan (scan : PortScanResult) : Ctl PortForwardControllerSnapshot := do
  let s ← get
  let input := s.planInput options scan
  modify (·.addLog (.applying input))
  closePorts options (planPortForwards input).closePorts
  modify fun s => { s with priorMissingScans := (planPortForwards input).missingScans }
  let deferred ← openPorts options (planPortForwards input).openPorts
  return (← get).snapshot scan ((planPortForwards input).deferredPorts ++ deferred)

/-- The listener probe can give any result; its second exec only adds labels. -/
def scanAndReconcile : Ctl PortForwardControllerSnapshot := do
  let requestId ← createRequestId options
  let s ← get
  let scan ← Async.ask (R := Ans) (.scan s.connection requestId)
  applyScan options scan

end Ctl

/-! ## The system -/

inductive Input
  | setAutoEnabled (enabled : Bool)
  | setManualDesiredPort (remotePort : Port) (enabled : Bool)
  | followAutomaticPolicy (remotePort : Port)
  /-- Time goes on. -/
  | now (ms : Int)

inductive Work
  | setConnection (connection : SshConnectionRef)
  | scanAndReconcile
  | reconcile (scan : PortScanResult)
  | closeAll

def Input.call : Input → State → State
  | .setAutoEnabled enabled, s => s.setAutoEnabled enabled
  | .setManualDesiredPort remotePort enabled, s => s.setManualDesiredPort remotePort enabled
  | .followAutomaticPolicy remotePort, s => s.followAutomaticPolicy remotePort
  | .now ms, s => { s with now := ms }

def Work.body (options : PortForwardControllerOptions) : Work → Thread State Ans Empty
  | .setConnection connection => Async.thread () (Ctl.setConnection options connection)
  | .scanAndReconcile => Async.thread () (Ctl.scanAndReconcile options)
  | .reconcile scan => Async.thread () (Ctl.applyScan options scan)
  | .closeAll => Async.thread () (Ctl.closeAll options)

def controller (options : PortForwardControllerOptions) : Serial State Ans Input Work where
  call := Input.call
  work := Work.body options

end PocketShell.PortForward
