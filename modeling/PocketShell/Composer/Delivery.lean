import PocketShell.Coop.Thread
import PocketShell.Js.Text

/-!
# Composer delivery

`ComposerDeliveryController`: one composed prompt at a time goes to one PTY, as one
to four writes with pauses between them.

* `encodeComposerText`: UTF-16 code units to UTF-8 bytes.
* `Ctl.deliver`, `Ctl.setTransportState`: the two entry points.
* `State.log`: what was asked of the controller and what it did, each entry beside
  the transport at that time.
-/

namespace PocketShell.Composer

open Coop (Async Thread System)
open Js (Text ascii)

def BP_START : Text := ascii "\x1b[200~"

def BP_END : Text := ascii "\x1b[201~"

def SUBMIT_KEY : Text := ascii "\r"

def PASTE_GAP_MS : Int := 120

/-- The payload contains a line break. -/
def needsBracketedPaste (payload : Text) : Bool := payload.contains 0x0a || payload.contains 0x0d

def composerPayloadSegments (payload : Text) : List Text :=
  if needsBracketedPaste payload then [BP_START, payload, BP_END] else [payload]

/-! ## UTF-8 -/

def encodeCodePoint (codePoint : Nat) : List UInt8 :=
  if codePoint ≤ 0x7f then [codePoint.toUInt8]
  else if codePoint ≤ 0x7ff then
    [(0xc0 ||| codePoint >>> 6).toUInt8, (0x80 ||| codePoint &&& 0x3f).toUInt8]
  else if codePoint ≤ 0xffff then
    [(0xe0 ||| codePoint >>> 12).toUInt8, (0x80 ||| codePoint >>> 6 &&& 0x3f).toUInt8,
      (0x80 ||| codePoint &&& 0x3f).toUInt8]
  else
    [(0xf0 ||| codePoint >>> 18).toUInt8, (0x80 ||| codePoint >>> 12 &&& 0x3f).toUInt8,
      (0x80 ||| codePoint >>> 6 &&& 0x3f).toUInt8, (0x80 ||| codePoint &&& 0x3f).toUInt8]

def isHighSurrogate (unit : UInt16) : Bool := 0xd800 ≤ unit && unit ≤ 0xdbff

def isLowSurrogate (unit : UInt16) : Bool := 0xdc00 ≤ unit && unit ≤ 0xdfff

/-- The code point of a unit that starts no surrogate pair. -/
def loneCodePoint (unit : UInt16) : Nat :=
  if isHighSurrogate unit || isLowSurrogate unit then 0xfffd else unit.toNat

def encodeComposerText : Text → List UInt8
  | [] => []
  | [first] => encodeCodePoint (loneCodePoint first)
  | first :: second :: rest =>
    if isHighSurrogate first && isLowSurrogate second then
      encodeCodePoint (0x10000 + (first.toNat - 0xd800) <<< 10 + (second.toNat - 0xdc00)) ++
        encodeComposerText rest
    else encodeCodePoint (loneCodePoint first) ++ encodeComposerText (second :: rest)

/-! ## Requests and results -/

inductive ComposerDeliveryIntent
  | insert
  | submit
deriving DecidableEq

inductive ComposerDraftEffect
  | clear
  | retain
deriving DecidableEq

structure ComposerDeliveryRequest where
  operationId : String
  payload : Text
  intent : ComposerDeliveryIntent
deriving DecidableEq

structure ComposerWriteContext where
  operationId : String
  writeIndex : Nat
deriving DecidableEq

inductive NotSentReason
  | invalidOperationId
  | emptyPayload
  | disconnected
  | transportChanged
  | operationIdReused
deriving DecidableEq

inductive UncertainReason
  | transportLost
  | effectFailed
deriving DecidableEq

inductive Stage
  | write
  | pacing
deriving DecidableEq

/-- What a result says, by its `status`. -/
inductive Outcome
  | delivered
  | notSent (reason : NotSentReason)
  | uncertain (reason : UncertainReason) (stage : Stage) (error : String)
deriving DecidableEq

structure ComposerDeliveryResult where
  outcome : Outcome
  operationId : String
  intent : ComposerDeliveryIntent
  draftEffect : ComposerDraftEffect
  bytesAttempted : Nat
  writeCount : Nat
deriving DecidableEq

/-- `notSent` of both methods. -/
def notSent (request : ComposerDeliveryRequest) (reason : NotSentReason) : ComposerDeliveryResult :=
  ⟨.notSent reason, request.operationId, request.intent, .retain, 0, 0⟩

/-! ## The state -/

inductive TransportState
  | connected
  | lost
  | closed
deriving DecidableEq

structure Transport where
  state : TransportState
  generation : Nat
deriving DecidableEq

/-- The local variables of one `deliverOne`. -/
structure Progress where
  bytesAttempted : Nat
  writeCount : Nat
  stage : Stage

/-- What the log says of an accepted operation `n`, and of the calls that were
refused or changed the transport. -/
inductive Event
  | changed
  | refused (request : ComposerDeliveryRequest) (result : ComposerDeliveryResult)
  | accepted (n : Nat) (request : ComposerDeliveryRequest)
  | wrote (n : Nat) (bytes : List UInt8) (context : ComposerWriteContext)
  | acknowledged (n : Nat)
  | rejected (n : Nat)
  | finished (n : Nat) (result : ComposerDeliveryResult)
deriving DecidableEq

structure Entry where
  transport : Transport
  event : Event
deriving DecidableEq

structure State where
  transport : Transport
  /-- The number of the operation whose promise is the tail of the queue. -/
  queue : Nat
  operationIds : List String
  progress : Nat → Progress
  /-- The operations whose promises have settled. -/
  settled : List Nat
  log : List Entry

def initial : State := ⟨⟨.closed, 0⟩, 0, [], fun _ => ⟨0, 0, .write⟩, [0], []⟩

/-- An entry is made beside the transport of its time. -/
def State.addLog (s : State) (e : Event) : State := { s with log := s.log ++ [⟨s.transport, e⟩] }

def State.setProgress (s : State) (n : Nat) (f : Progress → Progress) : State :=
  { s with progress := fun m => if m = n then f (s.progress m) else s.progress m }

def State.isCurrent (s : State) (generation : Nat) : Bool :=
  s.transport.state = .connected && s.transport.generation = generation

@[simp] theorem State.addLog_transport (s : State) (e : Event) : (s.addLog e).transport = s.transport := rfl
@[simp] theorem State.addLog_queue (s : State) (e : Event) : (s.addLog e).queue = s.queue := rfl
@[simp] theorem State.addLog_settled (s : State) (e : Event) : (s.addLog e).settled = s.settled := rfl
@[simp] theorem State.addLog_progress (s : State) (e : Event) : (s.addLog e).progress = s.progress := rfl
@[simp] theorem State.addLog_operationIds (s : State) (e : Event) :
    (s.addLog e).operationIds = s.operationIds := rfl
@[simp] theorem State.addLog_log (s : State) (e : Event) :
    (s.addLog e).log = s.log ++ [⟨s.transport, e⟩] := rfl
@[simp] theorem State.setProgress_same (s : State) (n : Nat) (f : Progress → Progress) :
    (s.setProgress n f).progress n = f (s.progress n) := if_pos rfl
@[simp] theorem State.setProgress_log (s : State) (n : Nat) (f : Progress → Progress) :
    (s.setProgress n f).log = s.log := rfl
@[simp] theorem State.setProgress_transport (s : State) (n : Nat) (f : Progress → Progress) :
    (s.setProgress n f).transport = s.transport := rfl
@[simp] theorem State.setProgress_settled (s : State) (n : Nat) (f : Progress → Progress) :
    (s.setProgress n f).settled = s.settled := rfl

/-! ## The controller -/

/-- What an operation waits for. -/
inductive Call
  /-- The promise of the operation before it. -/
  | turn (behind : Nat)
  | write (bytes : List UInt8) (context : ComposerWriteContext)
  | sleep (ms : Int)
  /-- The return of an async function to the one that awaits it. -/
  | tick

abbrev Req : Type := Nat × Call

/-- `write` and `sleep` may reject with an error message. -/
def Ans : Req → Type
  | (_, .write ..) => Except String Unit
  | (_, .sleep _) => Except String Unit
  | (_, .turn _) => Unit
  | (_, .tick) => Unit

/-- A computation of operation `n`, given as the caller. -/
abbrev Ctl (α : Type) : Type := Async Nat State Ans Empty String α

structure ComposerDeliveryOptions where
  submitDelayMs : Int := 250
  pasteGapMs : Int := PASTE_GAP_MS

namespace Ctl

/-- Await an async function. -/
def awaited {α : Type} (n : Nat) (p : Ctl α) : Ctl α := do
  let result ← Async.attempt p
  Async.ask (R := Ans) (n, .tick)
  match result with
  | .ok a => pure a
  | .error e => throw e

def setTransportState (state : TransportState) : Ctl Unit := do
  let s ← get
  if s.transport.state = state then return
  set ({ s with transport := ⟨state, s.transport.generation + 1⟩ }.addLog .changed)

def failIfStale (generation : Nat) : Ctl Unit := do
  if !(← get).isCurrent generation then throw "Composer transport generation changed."

def write (n : Nat) (request : ComposerDeliveryRequest) (generation : Nat) (text : Text) : Ctl Unit := do
  failIfStale generation
  let bytes := encodeComposerText text
  modify (·.setProgress n fun p => ⟨p.bytesAttempted + bytes.length, p.writeCount + 1, .write⟩)
  let context := ⟨request.operationId, ((← get).progress n).writeCount⟩
  modify (·.addLog (.wrote n bytes context))
  match ← Async.ask (R := Ans) (n, .write bytes context) with
  | .ok _ =>
    modify (·.addLog (.acknowledged n))
    failIfStale generation
  | .error e =>
    modify (·.addLog (.rejected n))
    throw e

def pause (n : Nat) (generation : Nat) (ms : Int) : Ctl Unit := do
  if ms ≤ 0 then return
  failIfStale generation
  modify (·.setProgress n ({ · with stage := .pacing }))
  match ← Async.ask (R := Ans) (n, .sleep ms) with
  | .ok _ => failIfStale generation
  | .error e => throw e

variable (options : ComposerDeliveryOptions)

/-- The loop over the parts of a payload. -/
def writeParts (n : Nat) (request : ComposerDeliveryRequest) (generation : Nat) : List Text → Ctl Unit
  | [] => pure ()
  | [part] => awaited n (write n request generation part)
  | part :: parts => do
    awaited n (write n request generation part)
    awaited n (pause n generation options.pasteGapMs)
    writeParts n request generation parts

/-- The `try` block of `deliverOne`. -/
def deliverAll (n : Nat) (request : ComposerDeliveryRequest) (generation : Nat) :
    Ctl ComposerDeliveryResult := do
  writeParts options n request generation (composerPayloadSegments request.payload)
  if request.intent = .submit then
    awaited n (pause n generation options.submitDelayMs)
    awaited n (write n request generation SUBMIT_KEY)
  let progress := (← get).progress n
  return ⟨.delivered, request.operationId, request.intent, .clear, progress.bytesAttempted,
    progress.writeCount⟩

/-- Its `catch` block. -/
def deliverFailed (n : Nat) (request : ComposerDeliveryRequest) (generation : Nat) (error : String) :
    Ctl ComposerDeliveryResult := do
  let s ← get
  let progress := s.progress n
  if progress.writeCount = 0 then
    return notSent request
      (if s.transport.state = .connected then .transportChanged else .disconnected)
  return ⟨.uncertain (if s.isCurrent generation then .effectFailed else .transportLost)
    progress.stage error, request.operationId, request.intent, .retain, progress.bytesAttempted,
    progress.writeCount⟩

def deliverOne (n : Nat) (request : ComposerDeliveryRequest) (generation : Nat) :
    Ctl ComposerDeliveryResult := do
  let s ← get
  if request.payload.length = 0 then return notSent request .emptyPayload
  if s.transport.state ≠ .connected then return notSent request .disconnected
  if s.transport.generation ≠ generation then return notSent request .transportChanged
  tryCatch (deliverAll options n request generation) (deliverFailed n request generation)

/-- The callback that runs once the operation before has settled. -/
def runQueued (n : Nat) (request : ComposerDeliveryRequest) (generation : Nat) : Ctl Unit := do
  Async.ask (R := Ans) (n, .turn (n - 1))
  let result ← deliverOne options n request generation
  modify fun s => { s.addLog (.finished n result) with settled := n :: s.settled }

def deliver (request : ComposerDeliveryRequest) : Ctl Unit := do
  let s ← get
  if request.operationId = "" then
    set (s.addLog (.refused request (notSent request .invalidOperationId)))
  else if s.operationIds.contains request.operationId then
    set (s.addLog (.refused request (notSent request .operationIdReused)))
  else
    let n := s.queue + 1
    set { s.addLog (.accepted n request) with
      operationIds := request.operationId :: s.operationIds, queue := n }
    Async.spawn n (runQueued options n request s.transport.generation)

end Ctl

inductive Input
  | deliver (request : ComposerDeliveryRequest)
  | setTransportState (state : TransportState)

def Input.body (options : ComposerDeliveryOptions) : Input → Thread State Ans Empty
  | .deliver request => Async.thread 0 (Ctl.deliver options request)
  | .setTransportState state => Async.thread 0 (Ctl.setTransportState state)

/-- The controller together with everything that can reach it: a turn comes once the
promise before has settled, everything else can be answered at any time. -/
def controller (options : ComposerDeliveryOptions) : System State Ans Empty Input where
  body := Input.body options
  loop := nofun
  ready
    | s, (_, .turn behind), _ => s.settled.contains behind
    | _, _, _ => true

def start : Coop.Config State Ans Empty := ⟨initial, []⟩

end PocketShell.Composer
