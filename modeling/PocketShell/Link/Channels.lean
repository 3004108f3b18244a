import PocketShell.Connection.HostCli
import PocketShell.Js.Object

/-!
# The channels of a link connection

`linkCapability.ts`: what a connection does with the frames of the relay, and how the output of
a PTY waits for its reads.

* `takeBuffered`, `PtyBuffer.flush`: the queue of one channel.
* `ConnectionEntry`: the maps of a connection, the promise callbacks that are due (`jobs`), and
  the `log` of what was received and returned.
* `Action`, `step`: a frame, a call, a timer, or the next callback.

Frames that are handled before the next callback runs are those of one turn of the event loop.
What is sent to the relay is left out: nothing here reads it.
-/

namespace PocketShell.Link

open Js (property assign remove keys)

abbrev Bytes := List UInt8

/-! ## The queue of a PTY -/

structure SshPtyReadOptions where
  /-- `Number(channelId)` -/
  channel : Nat
  requestId : String
  sequence : Nat
  maxBytes : Option Nat := none
  waitMs : Option Int := none
deriving DecidableEq

/-- `maxBytes ?? 65536` -/
def SshPtyReadOptions.limit (options : SshPtyReadOptions) : Nat := options.maxBytes.getD 65536

/-- A result, with the options of the read that it answers. -/
structure PtyRead where
  options : SshPtyReadOptions
  chunk : Bytes
  eof : Bool
deriving DecidableEq

/-- A read that waits; `deliver` closes over its options. -/
structure Waiter where
  id : Nat
  options : SshPtyReadOptions

structure PtyBuffer where
  chunks : List Bytes := []
  eof : Bool := false
  waiters : List Waiter := []

/-- The loop of `takeBuffered`, with `size` bytes taken so far: what it takes and what is left. -/
def takeChunks (maxBytes : Nat) : Nat → List Bytes → List Bytes × List Bytes
  | _, [] => ([], [])
  | size, chunk :: chunks =>
    if maxBytes ≤ size then ([], chunk :: chunks)
    else if maxBytes < size + chunk.length then
      ([chunk.take (maxBytes - size)], chunk.drop (maxBytes - size) :: chunks)
    else
      let (taken, left) := takeChunks maxBytes (size + chunk.length) chunks
      (chunk :: taken, left)

def takeBuffered (chunks : List Bytes) (maxBytes : Nat) : Bytes × List Bytes :=
  ((takeChunks maxBytes 0 chunks).1.flatten, (takeChunks maxBytes 0 chunks).2)

/-- Each waiting read is given its chunk, whatever its own `maxBytes` is. -/
def deliverAll (eof : Bool) : List Waiter → List Bytes → List PtyRead × List Bytes
  | [], chunks => ([], chunks)
  | waiter :: waiters, chunks =>
    let (chunk, left) := takeBuffered chunks 65536
    let (reads, rest) := deliverAll eof waiters left
    (⟨waiter.options, chunk, eof && left.isEmpty⟩ :: reads, rest)

def PtyBuffer.flush (buffer : PtyBuffer) : List PtyRead × PtyBuffer :=
  let (reads, chunks) := deliverAll buffer.eof buffer.waiters buffer.chunks
  (reads, { buffer with chunks, waiters := [] })

/-! ## The state of a connection -/

structure ExecPending where
  mainChannel : Nat
  errChannel : Option Nat := none
  requestId : String
  stdout : List Bytes := []
  stderr : List Bytes := []
  timedOut : Bool := false
  settled : Bool := false

/-- Who waits for the reply to an `open`. -/
inductive OpenPending
  | pty (requestId : String)
  | exec

/-- What runs once the promise of an `open` is settled. -/
inductive Job
  | ptyOpened (channel : Nat) (requestId : String)
  | ptyFailed (requestId : String) (error : SshCapabilityError)
  | execFailed (mainChannel : Nat) (error : SshCapabilityError)

/-- What was received, and what calls were answered. -/
inductive Item
  /-- The reply that opens a PTY. -/
  | opened (channel : Nat)
  | data (channel : Nat) (payload : Bytes)
  /-- `eof`, `exit` or `ch_error` was received, or the PTY was closed. -/
  | ended (channel : Nat)
  /-- The connection is gone. -/
  | lost
  | read (result : PtyRead)
  | ptyRef (channel : Nat) (requestId : String)
  | executed (requestId : String) (exitCode : Option Int) (stdout stderr : Bytes) (timedOut : Bool)
  | failed (requestId : String) (error : SshCapabilityError)
deriving DecidableEq

inductive ConnectionState
  | connected
  | lost
  | closed
deriving DecidableEq

structure ConnectionEntry where
  nextChannel : Nat := 1
  ptys : List (Nat × PtyBuffer) := []
  /-- Each channel of a command, with the main channel of that command. -/
  execs : List (Nat × Nat) := []
  /-- The commands by their main channels. -/
  pendings : List (Nat × ExecPending) := []
  opens : List (Nat × OpenPending) := []
  state : ConnectionState := .connected
  jobs : List Job := []
  nextRead : Nat := 0
  log : List Item := []

inductive FrameType
  | opened
  | exit
  | eof
  | chError
  | other
deriving DecidableEq

/-- The fields of a frame that are of the type they should have. -/
structure LinkControlFrame where
  t : FrameType
  ch : Option Nat := none
  ok : Bool := false
  errCh : Option Nat := none
  message : Option String := none
  code : Option String := none
  exitCode : Option Int := none
deriving DecidableEq

namespace ConnectionEntry

variable (e : ConnectionEntry)

def note (items : List Item) : ConnectionEntry := { e with log := e.log ++ items }

/-! ## Commands -/

def settleExec (pending : ExecPending) : ConnectionEntry :=
  if pending.settled then e
  else
    { e with
      pendings := assign pending.mainChannel { pending with settled := true } e.pendings
      execs :=
        match pending.errChannel with
        | some errChannel => remove errChannel (remove pending.mainChannel e.execs)
        | none => remove pending.mainChannel e.execs }

/-- Only the first settlement of a promise counts. -/
def resolveExec (pending : ExecPending) (exitCode : Option Int) : ConnectionEntry :=
  (e.settleExec pending).note <|
    if pending.settled then []
    else [.executed pending.requestId exitCode pending.stdout.flatten pending.stderr.flatten
      pending.timedOut]

def rejectExec (pending : ExecPending) (error : SshCapabilityError) : ConnectionEntry :=
  (e.settleExec pending).note <|
    if pending.settled then [] else [.failed pending.requestId error]

def withExec (mainChannel : Nat) (finish : ConnectionEntry → ExecPending → ConnectionEntry) :
    ConnectionEntry :=
  match property mainChannel e.pendings with
  | some pending => finish e pending
  | none => e

/-- What is done with `execs.get(channel)`. -/
def finishExec (channel : Nat) (finish : ConnectionEntry → ExecPending → ConnectionEntry) :
    ConnectionEntry :=
  match property channel e.execs with
  | some mainChannel => e.withExec mainChannel finish
  | none => e

/-! ## PTYs -/

/-- A buffer of the map is flushed. -/
def flushPty (channel : Nat) (buffer : PtyBuffer) : ConnectionEntry :=
  { e with
    ptys := assign channel buffer.flush.2 e.ptys
    log := e.log ++ buffer.flush.1.map .read }

def endPty (channel : Nat) : ConnectionEntry :=
  match property channel e.ptys with
  | some buffer => e.flushPty channel { buffer with eof := true }
  | none => e

/-! ## Frames -/

/-- `open.reject(error)` -/
def rejectOpen (channel : Nat) (pending : OpenPending) (error : SshCapabilityError) :
    ConnectionEntry :=
  { e with
    jobs := e.jobs ++
      [match pending with
      | .pty requestId => .ptyFailed requestId error
      | .exec => .execFailed channel error] }

/-- A command learns the channel of its standard error. -/
def adoptErr (channel : Nat) (errCh : Option Nat) : ConnectionEntry :=
  match errCh with
  | none => e
  | some errCh =>
    e.finishExec channel fun e pending =>
      if pending.errChannel.isNone then
        { e with
          pendings := assign pending.mainChannel { pending with errChannel := some errCh } e.pendings
          execs := assign errCh pending.mainChannel e.execs }
      else e

/-- `open.resolve(frame)`: a command that is opened only sends its input. -/
def resolveOpen (channel : Nat) : OpenPending → ConnectionEntry
  | .pty requestId => { e with
      jobs := e.jobs ++ [.ptyOpened channel requestId]
      log := e.log ++ [.opened channel] }
  | .exec => e

def handleOpened (frame : LinkControlFrame) (channel : Nat) : ConnectionEntry :=
  match property channel e.opens with
  | none => e
  | some pending =>
    let opens := remove channel e.opens
    if frame.ok then
      (({ e with opens }).adoptErr channel frame.errCh).resolveOpen channel pending
    else
      ({ e with opens }).rejectOpen channel pending
        { message := frame.message.getD "channel open failed", code := frame.code.getD "SSH_ERROR" }

def handleControl (frame : LinkControlFrame) : ConnectionEntry :=
  match frame.ch with
  | none => e
  | some channel =>
    match frame.t with
    | .opened => e.handleOpened frame channel
    | .exit =>
      ((e.note [.ended channel]).finishExec channel fun e pending =>
        e.resolveExec pending (if pending.timedOut then none else frame.exitCode)).endPty channel
    | .eof => (e.note [.ended channel]).endPty channel
    | .chError =>
      ((e.note [.ended channel]).finishExec channel fun e pending =>
        e.rejectExec pending { message := frame.message.getD "channel error",
                               code := frame.code.getD "SSH_ERROR" }).endPty channel
    | .other => e

/-- `getUint32` and the rest. -/
def parseDataFrame : Bytes → Option (Nat × Bytes)
  | b₀ :: b₁ :: b₂ :: b₃ :: payload =>
    some (((b₀.toNat * 256 + b₁.toNat) * 256 + b₂.toNat) * 256 + b₃.toNat, payload)
  | _ => none

def pushOutput (channel : Nat) (payload : Bytes) (pending : ExecPending) : ConnectionEntry :=
  let pending :=
    if channel = pending.mainChannel then { pending with stdout := pending.stdout ++ [payload] }
    else { pending with stderr := pending.stderr ++ [payload] }
  { e with pendings := assign pending.mainChannel pending e.pendings }

/-- The payload goes to the command of the channel, or else to its PTY. -/
def takeData (channel : Nat) (payload : Bytes) : ConnectionEntry :=
  match property channel e.execs with
  | some mainChannel => e.withExec mainChannel fun e pending => e.pushOutput channel payload pending
  | none =>
    match property channel e.ptys with
    | some buffer =>
      if buffer.eof then e
      else e.flushPty channel { buffer with chunks := buffer.chunks ++ [payload] }
    | none => e

def handleData (raw : Bytes) : ConnectionEntry :=
  match parseDataFrame raw with
  | some (channel, payload) => (e.note [.data channel payload]).takeData channel payload
  | none => e

/-! ## The end of a connection -/

/-- What `loseConnection` and `closeConnection` do alike. -/
def abandon (error : SshCapabilityError) : ConnectionEntry :=
  let e := (e.execs.map Prod.snd).foldl (fun e mainChannel =>
    e.withExec mainChannel fun e pending => e.rejectExec pending error) (e.note [.lost])
  let e := e.opens.foldl (fun e pending => e.rejectOpen pending.1 pending.2 error) e
  (keys e.ptys).foldl endPty { e with opens := [] }

def loseConnection (reason : String) : ConnectionEntry :=
  if e.state = .connected then
    abandon { e with state := .lost }
      { message := "Link connection lost: " ++ reason, code := "CONNECTION_LOST" }
  else e

def closeConnection : ConnectionEntry :=
  abandon { e with state := .closed } { message := "link closed", code := "CONNECTION_LOST" }

/-! ## Calls -/

def connectionLost : SshCapabilityError :=
  { message := "link connection lost", code := "CONNECTION_LOST" }

/-- `openPty` up to its `await`. -/
def openPty (requestId : String) : ConnectionEntry :=
  if e.state = .connected then
    { e with
      nextChannel := e.nextChannel + 1
      opens := assign e.nextChannel (.pty requestId) e.opens }
  else e.note [.failed requestId connectionLost]

def exec (requestId : String) : ConnectionEntry :=
  if e.state = .connected then
    { e with
      nextChannel := e.nextChannel + 1
      pendings := assign e.nextChannel { mainChannel := e.nextChannel, requestId } e.pendings
      execs := assign e.nextChannel e.nextChannel e.execs
      opens := assign e.nextChannel .exec e.opens }
  else e.note [.failed requestId connectionLost]

/-- The timer of an `open`. -/
def openTimedOut (channel : Nat) : ConnectionEntry :=
  match property channel e.opens with
  | some pending =>
    ({ e with opens := remove channel e.opens }).rejectOpen channel pending
      { message := "link channel open timed out", code := "TIMED_OUT" }
  | none => e

/-- The timer of a command, which its settlement clears. -/
def execTimedOut (mainChannel : Nat) : ConnectionEntry :=
  e.withExec mainChannel fun e pending =>
    if pending.settled then e else e.resolveExec { pending with timedOut := true } none

/-- The next callback. -/
def runJob : ConnectionEntry :=
  match e.jobs with
  | [] => e
  | .ptyOpened channel requestId :: jobs =>
    { e with jobs, ptys := assign channel {} e.ptys, log := e.log ++ [.ptyRef channel requestId] }
  | .ptyFailed requestId error :: jobs => { e with jobs, log := e.log ++ [.failed requestId error] }
  | .execFailed mainChannel error :: jobs =>
    ({ e with jobs }).withExec mainChannel fun e pending => e.rejectExec pending error

def noSuchChannel : SshCapabilityError :=
  { message := "No such PTY channel.", code := "NO_SUCH_CHANNEL" }

def readPty (options : SshPtyReadOptions) : ConnectionEntry :=
  match property options.channel e.ptys with
  | none => e.note [.failed options.requestId noSuchChannel]
  | some buffer =>
    if buffer.chunks ≠ [] then
      { e with
        ptys := assign options.channel
          { buffer with chunks := (takeBuffered buffer.chunks options.limit).2 } e.ptys
        log := e.log ++ [.read ⟨options, (takeBuffered buffer.chunks options.limit).1, false⟩] }
    else if buffer.eof then e.note [.read ⟨options, [], true⟩]
    else if options.waitMs.getD 0 ≤ 0 then e.note [.read ⟨options, [], false⟩]
    else
      { e with
        ptys := assign options.channel
          { buffer with waiters := buffer.waiters ++ [⟨e.nextRead, options⟩] } e.ptys
        nextRead := e.nextRead + 1 }

/-- The timer of a waiting read. -/
def readTimedOut (channel id : Nat) : ConnectionEntry :=
  match property channel e.ptys with
  | none => e
  | some buffer =>
    match buffer.waiters.find? (·.id = id) with
    | none => e
    | some waiter =>
      { e with
        ptys := assign channel
          { buffer with waiters := buffer.waiters.filter (·.id ≠ id) } e.ptys
        log := e.log ++ [.read ⟨waiter.options, [], false⟩] }

def closePty (channel : Nat) : ConnectionEntry :=
  match property channel e.ptys with
  | none => e
  | some buffer =>
    { e with
      ptys := remove channel e.ptys
      log := e.log ++ .ended channel ::
        (PtyBuffer.flush { buffer with eof := true }).1.map .read }

end ConnectionEntry

inductive Action
  | openPty (requestId : String)
  | exec (requestId : String)
  | readPty (options : SshPtyReadOptions)
  | closePty (channel : Nat)
  | closeConnection
  | control (frame : LinkControlFrame)
  | data (raw : Bytes)
  /-- The socket closes, an `error` frame comes, or the connection is cancelled. -/
  | lose (reason : String)
  | openTimedOut (channel : Nat)
  | execTimedOut (mainChannel : Nat)
  | readTimedOut (channel id : Nat)
  | runJob

def step (e : ConnectionEntry) : Action → ConnectionEntry
  | .openPty requestId => e.openPty requestId
  | .exec requestId => e.exec requestId
  | .readPty options => e.readPty options
  | .closePty channel => e.closePty channel
  | .closeConnection => e.closeConnection
  | .control frame => e.handleControl frame
  | .data raw => e.handleData raw
  | .lose reason => e.loseConnection reason
  | .openTimedOut channel => e.openTimedOut channel
  | .execTimedOut mainChannel => e.execTimedOut mainChannel
  | .readTimedOut channel id => e.readTimedOut channel id
  | .runJob => e.runJob

def run (e : ConnectionEntry) (actions : List Action) : ConnectionEntry := actions.foldl step e

end PocketShell.Link
