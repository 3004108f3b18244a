import PocketShell.Connection.Controller

/-!
# What a step is about

Predicates on the label of a step and the state it starts from. They single out
the steps in which the controller acts on a result it should have dropped, or
drops what it should have acted on; what is guaranteed of whole runs is guaranteed of
runs without such steps.

* `Stale`: the step handles a reply of a generation that is no longer current.
* `landsLate`: the handlers that do not look whether it still is.
* `dropsOpenPty`: a transport is dropped from under an open PTY.
* `wakes`: the steps that leave the background.
* `overlooked`: a transport failure the recovery ladder does not notice.
* `reusesChannel`: a PTY is opened with the channel id of an older one that input
  is still queued for.
* `reopens`: the platform hands out a PTY it has handed out before.
-/

namespace PocketShell

open Coop (Label)

abbrev StepLabel : Type := Label Ans Head Input

/-- No connection of this generation is held. -/
def State.lacksGeneration (s : State) (generationId : String) : Bool :=
  s.connection.all (·.ref.generationId ≠ generationId)

/-- The step handles the host's reply to an operation whose connection is no
longer the current one. -/
def Stale (s : State) : StepLabel → Bool
  | .reply (_, .exec ref ..) _ => !s.isCurrentGeneration ref
  | .reply (_, .tick (.exec ref)) _ => !s.isCurrentGeneration ref
  | .reply (_, .tick (.hostCli ref ..)) _ => !s.isCurrentGeneration ref
  | .reply (_, .openPty ref ..) _ => !s.isCurrentGeneration ref
  | .reply (_, .readPty pty ..) _ => s.lacksGeneration pty.generationId
  | .reply (_, .ptyOperation pty ..) _ => s.lacksGeneration pty.generationId
  | _ => false

/-- The answer to a write or resize that was taken as a failure. -/
def operationRejected (pty : SshPtyRef) (requestId : String) (sequence : Nat) :
    Except SshCapabilityError SshPtyOperationResult → Bool
  | .error _ => true
  | .ok result =>
    result.requestId ≠ requestId || result.sequence ≠ sequence || result.channelId ≠ pty.channelId

/-- The record's PTY has the channel of `pty`: all that is compared. -/
def State.sameChannel (s : State) (r : Nat) (pty : SshPtyRef) : Bool :=
  (s.records r).pty.map (·.channelId) = some pty.channelId

/-- The commands that create and kill sessions, with the listings after them. -/
def ExecPurpose.isMutation : ExecPurpose → Bool
  | .createSession | .createListing | .killSession | .killListing => true
  | _ => false

/-- The listings whose sessions are shown. -/
def ExecPurpose.isShown : ExecPurpose → Bool
  | .refreshSessions | .createListing | .killListing => true
  | _ => false

/-- The step hands a result to a handler that does not look whether the
generation it comes from is still current: the listing after a refresh, create
or kill, an uncertain create or kill, and a failed write or resize of a PTY whose
channel id the record's PTY has too. -/
def landsLate (s : State) : StepLabel → Bool
  | .reply (_, .tick (.hostCli _ purpose none)) _ => purpose.isShown
  | .reply (_, .tick (.hostCli _ purpose (some error))) _ =>
    purpose.isMutation && isUncertainMutation error
  | .reply (_, .ptyOperation pty requestId sequence _ record _) answer =>
    operationRejected pty requestId sequence answer && s.sameChannel record pty
  | _ => false

/-- The step drops the connection while a terminal that was opened since the
terminals were closed is still there. -/
def dropsOpenPty (s : State) : StepLabel → Bool
  | .reply (_, .tick .closeAllTerminals) _ => !s.terminals.isEmpty
  | .reply (.ladder _, .tick (.closePtys 0)) _ => s.connection.isSome && s.hasLiveTerminal
  | _ => false

/-- The operations every step of which may move the phase. -/
def Operation.isNoisy : Operation → Bool
  | .connect | .acceptPresentedHostKey | .ladder _ | .returnToForeground | .close => true
  | _ => false

/-- The calls that bring the controller out of the background, and a refresh or
an accepted host key. -/
def Input.wakes : Input → Bool
  | .connect _ | .acceptPresentedHostKey .. | .refreshSessions | .attachSession .. | .reconnect
  | .returnToForeground _ | .close => true
  | _ => false

/-- The step may move the phase although it is `background`. -/
def wakes (s : State) : StepLabel → Bool
  | .start input => input.wakes
  | .loop (.ladderDialled ..) => true
  | .loop (.pump ..) => false
  | .reply (op, q) answer =>
    op.isNoisy ||
      match q, answer with
      | .tick (.hostCli ref purpose (some error)), _ =>
        (purpose = .refreshSessions && s.isCurrentGeneration ref) ||
          (purpose.isMutation && isUncertainMutation error)
      | .openPty ref _ _ _ tag, _ => !Ctl.attachSuperseded s tag.record tag.token ref
      | .ptyOperation pty requestId sequence _ record _, answer =>
        operationRejected pty requestId sequence answer && s.sameChannel record pty
      | .tick (.transportLost _ pumpToken lost), _ =>
        match op with
        | .pump r => !lost && Ctl.pumpCurrent s r pumpToken
        | _ => false
      | _, _ => false

/-- The background is entered while a recovery ladder runs. -/
def entersOverLadder (s : State) : StepLabel → Bool
  | .reply (.enterBackground, .scheduleClose ..) _ => s.reconnectTask.isSome
  | _ => false

def isTransportCode (error : SshCapabilityError) : Bool := isCurrentTransportFailure (.capability error)

/-- The step hands the recovery ladder a transport failure it does not notice:
one of its listing, one of an attach whose terminal was taken from it, or one
whose message does not read like a transport failure. -/
def overlooked (s : State) : StepLabel → Bool
  | .reply (.ladder _, .exec ..) (.error error) => isTransportCode error
  | .reply (.ladder _, .openPty ref _ _ _ tag) (.error error) =>
    isTransportCode error &&
      (Ctl.attachSuperseded s tag.record tag.token ref || !isTransportFailureMessage error.message)
  | _ => false

/-- The platform opened this PTY. -/
def Event.opens (pty : SshPtyRef) : Event → Bool
  | .answered (_, .openPty ..) (.ok result) => result.pty = pty
  | _ => false

/-- A write or resize of the record that is not settled was called while its PTY
had this channel. -/
def State.queuedOn (s : State) (r : Nat) (channelId : String) : Bool :=
  s.log.any fun e =>
    match e with
    | .queued r' ticket (some pty) _ _ =>
      r' = r && pty.channelId = channelId && !s.settledTurns.contains ticket
    | _ => false

/-- A PTY is opened for a terminal with the channel id of an earlier one that
writes or resizes are still queued for. -/
def reusesChannel (s : State) : StepLabel → Bool
  | .reply (_, .openPty _ _ _ _ tag) (.ok result) => s.queuedOn tag.record result.pty.channelId
  | _ => false

/-- A PTY is opened that was opened before. -/
def reopens (s : State) : StepLabel → Bool
  | .reply (_, .openPty ..) (.ok result) => s.log.any (Event.opens result.pty)
  | _ => false

end PocketShell
