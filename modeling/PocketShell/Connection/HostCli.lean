import PocketShell.Connection.HostTarget

/-!
# The host CLI over one transport

Session rows, the errors a host command ends in, and how an exec outcome
becomes a listing, a created session or a failure (`hostCliCommon.ts`,
`hostCliSessions.ts`). The JSON shape parsers and the quoted stderr line are
parameters: they are pure, and only their results reach the controller.
-/

namespace PocketShell

/-- The fields of a `SessionRow` the controller reads. -/
structure SessionRow where
  name : String
  id : Option String
  workspace : Option String
  tag : Option String
deriving DecidableEq

structure SessionListError where
  message : String

structure SessionsListing where
  sessions : List SessionRow
  errors : List SessionListError

structure CreatedSession where
  name : String
  id : Option String
  created : Bool

/-- Two rows denote the same session: by id when either has one, else by name
and workspace. A blank id denotes nothing. -/
def sameSession (left right : SessionRow) : Bool :=
  if left.id.any isBlank || right.id.any isBlank then false
  else if left.id.isSome || right.id.isSome then left.id = right.id
  else left.name = right.name && left.workspace = right.workspace

/-! ## Errors -/

/-- The `data` fields of an `SshCapabilityError` that are read: a presented
key, and a gateway close code. -/
structure SshErrorData where
  keyType : Option String := none
  keyB64 : Option String := none
  fingerprintSha256 : Option String := none
  gatewayCloseCode : Option Int := none
deriving DecidableEq

structure SshCapabilityError where
  code : String
  message : String
  data : SshErrorData := {}
deriving DecidableEq

/-- What a `catch` of the controller can catch. -/
inductive Thrown
  /-- A capability call was rejected. -/
  | capability (error : SshCapabilityError)
  | hostCliFailed (exitCode : Option Int) (timedOut : Bool) (message : String)
  /-- `HostCliMalformed` and `HostCliTooOld`. -/
  | hostCli (message : String)
  | gatewayRefusal (message : String)
  | error (message : String)

def Thrown.message : Thrown → String
  | .capability e => e.message
  | .hostCliFailed _ _ message => message
  | .hostCli message => message
  | .gatewayRefusal message => message
  | .error message => message

/-- An error that did not come from the platform has no code of its own. -/
def readSshCapabilityError : Thrown → SshCapabilityError
  | .capability e => e
  | other => { code := "SSH_ERROR", message := other.message }

def isUncertainMutation : Thrown → Bool
  | .hostCliFailed exitCode timedOut _ => exitCode.isNone || timedOut
  | other =>
    ["CONNECTION_LOST", "CONNECTION_CLOSED", "CHANNEL_CLOSED", "SSH_IO", "EXEC_TIMEOUT"].contains
      (readSshCapabilityError other).code

def isRetryableDialError (error : Thrown) : Bool :=
  !(["AUTH_FAILED", "HOST_KEY_REJECTED", "INVALID_ARGUMENT"] : List String).contains
    (readSshCapabilityError error).code

/-- `isCurrentTransportFailure` of an error. -/
def isCurrentTransportFailure (error : Thrown) : Bool :=
  ["CONNECTION_LOST", "CONNECTION_CLOSED", "CHANNEL_CLOSED", "SSH_IO"].contains
    (readSshCapabilityError error).code

/-- `isCurrentTransportFailure` of a message: the pattern
`/connection|transport|closed|eof|socket|ssh/i`. -/
def isTransportFailureMessage (message : String) : Bool :=
  ["connection", "transport", "closed", "eof", "socket", "ssh"].any fun word =>
    (message.toList.map Char.toLower).tails.any word.toList.isPrefixOf

/-! ## Running host commands -/

/-- `HostCliExecOutcome`. -/
structure HostCliExecOutcome where
  exitCode : Option Int
  stdout : String
  stderr : String
  timedOut : Bool

/-- The pure text functions of the host CLI modules. -/
structure HostCliText where
  parseHostSessionsList : String → Except Thrown SessionsListing
  parseCreate : HostCliExecOutcome → Except Thrown CreatedSession
  /-- The first non-empty line of stderr, cut to 200 units. -/
  shortDetail : HostCliExecOutcome → String

/-- `shellQuote`. -/
def shellQuote (value : String) : String :=
  "'" ++ String.ofList (value.toList.flatMap fun c => if c = '\'' then ['\'', '\\', '\'', '\''] else [c]) ++ "'"

def exitCodeText : Option Int → String
  | some code => toString code
  | none => "null"

/-- `nonZeroExit`. -/
def nonZeroExit (text : HostCliText) (command : String) (outcome : HostCliExecOutcome) : Thrown :=
  let detail := text.shortDetail outcome
  .hostCliFailed outcome.exitCode false
    ("`" ++ command ++ "` failed on the host (exit " ++ exitCodeText outcome.exitCode ++ ")" ++
      (if detail = "" then "." else ": " ++ detail))

/-- `HostCliModule.capture`: a rejected exec and a timeout have no exit code. -/
def capture (command : String) (timeoutMs : Nat) (exec : Except Thrown HostCliExecOutcome) :
    Except Thrown HostCliExecOutcome :=
  match exec with
  | .error cause =>
    let reason := if cause.message = "" then "unknown error" else cause.message
    .error (.hostCliFailed none false ("Could not run `" ++ command ++ "` on the host: " ++ reason))
  | .ok outcome =>
    if outcome.timedOut then
      .error (.hostCliFailed none true
        ("`" ++ command ++ "` did not finish within " ++ toString timeoutMs ++ "ms on the host."))
    else .ok outcome

/-- `HostCliModule.captureJson`. -/
def captureJson (text : HostCliText) (command : String) (timeoutMs : Nat)
    (exec : Except Thrown HostCliExecOutcome) : Except Thrown String :=
  match capture command timeoutMs exec with
  | .error e => .error e
  | .ok outcome =>
    if outcome.exitCode ≠ some 0 then .error (nonZeroExit text command outcome)
    else if isBlank outcome.stdout then .error (.hostCli ("`" ++ command ++ "` printed nothing on stdout"))
    else .ok outcome.stdout

def listCommand : String := "pocketshell sessions list --json"
def LIST_TIMEOUT_MS : Nat := 20000
def CREATE_TIMEOUT_MS : Nat := 60000
def KILL_TIMEOUT_MS : Nat := 20000

/-- `CreateOptions` of `createSession`. -/
structure CreateOptions where
  cwd : Option String := none
  engine : Option String := none
  profile : Option String := none

def createCommand (name : String) (options : CreateOptions) : String :=
  let arg (flag : String) (value : Option String) : String :=
    match value with
    | some v => " " ++ flag ++ " " ++ shellQuote v
    | none => ""
  "pocketshell sessions create --json" ++ arg "--cwd" options.cwd ++ arg "--engine" options.engine ++
    arg "--profile" options.profile ++ " -- " ++ shellQuote name

def killCommand (name : String) : String := "pocketshell sessions kill -- " ++ shellQuote name

def buildAttachCommand (name : String) : String :=
  "exec pocketshell sessions attach -- " ++ shellQuote name

/-- The listing an exec of `listCommand` ends in. -/
def listedSessions (text : HostCliText) (exec : Except Thrown HostCliExecOutcome) :
    Except Thrown SessionsListing :=
  match captureJson text listCommand LIST_TIMEOUT_MS exec with
  | .error e => .error e
  | .ok stdout => text.parseHostSessionsList stdout

/-- The created session an exec of `createCommand` ends in. -/
def createdSession (text : HostCliText) (command : String) (exec : Except Thrown HostCliExecOutcome) :
    Except Thrown CreatedSession :=
  match capture command CREATE_TIMEOUT_MS exec with
  | .error e => .error e
  | .ok outcome => text.parseCreate outcome

/-- What an exec of `killCommand` ends in. -/
def killedSession (text : HostCliText) (command : String) (exec : Except Thrown HostCliExecOutcome) :
    Except Thrown Unit :=
  match capture command KILL_TIMEOUT_MS exec with
  | .error e => .error e
  | .ok outcome => if outcome.exitCode ≠ some 0 then .error (nonZeroExit text command outcome) else .ok ()

/-! ## Sessions -/

theorem sameSession_symm (a b : SessionRow) : sameSession a b = sameSession b a := by
  simp only [sameSession, Bool.or_comm a.id.isSome, Bool.or_comm (a.id.any isBlank)]
  simp only [eq_comm]

theorem sameSession_trans {a b c : SessionRow} (hab : sameSession a b = true)
    (hbc : sameSession b c = true) : sameSession a c = true := by
  simp only [sameSession] at *
  split at hab
  · cases hab
  · split at hbc
    · cases hbc
    · next h₁ h₂ =>
      simp only [Bool.or_eq_true, not_or, Bool.not_eq_true] at h₁ h₂
      grind

end PocketShell
