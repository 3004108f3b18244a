import PocketShell.Js.Text

/-!
# The terminal pane

`packages/ui/src/app/terminalPane.ts`: the PTY of one terminal pane. A pane asks for the shell of
its target, adopts what it is answered, publishes it in the shells registry, and judges the exit of
its client.

* `sessionOutlivedClient`: the verdict over a listing of the host (`src/sessionClientExit.ts`).
* `Registry`: the shells registry (`stores/shells.ts`), with who registered what.
* `State.startShowTarget`, `State.attachAnswered`, …: `showTarget` around its `await`.
* `State.input`, `State.heardExit`, …: the streams, the judgement of an exit, and the re-joins.
* `step`, `run`: any order of the calls, the events and the answers.

What only draws is left out. A shell id is a number here: the pane only compares it.
-/

namespace PocketShell.TerminalPane

open Js (Text ascii)

/-! ## 1. The verdict over a listing -/

/-- The fields of a listed session that the verdict reads. -/
structure SessionSummary where
  name : Text
  tag : Option Text := none
  workspace : Option Text := none
  aplexerId : Option Text := none
  aplexerPhase : Option Text := none

structure ClientExitTarget where
  sessionName : Text
  workspace : Option Text
  aplexerId : Option Text

def ENDING_APLEXER_PHASES : List Text := [ascii "exiting", ascii "exited", ascii "failed"]

/-- `toLowerCase()` on a unit. No other letter than those of ASCII becomes one of an ending phase. -/
def lowerUnit (unit : UInt16) : UInt16 := if 0x41 ≤ unit && unit ≤ 0x5a then unit + 0x20 else unit

/-- `if (value)` of a text that may be missing. -/
def present (value : Option Text) : Bool := value.any (· ≠ [])

def sessionRow (listing : List SessionSummary) (target : ClientExitTarget) : Option SessionSummary :=
  if present target.aplexerId then listing.find? fun summary => summary.aplexerId = target.aplexerId
  else
    listing.find? fun summary =>
      summary.tag.getD summary.name = target.sessionName &&
        (target.workspace.isNone || summary.workspace = target.workspace)

def sessionOutlivedClient (listing : List SessionSummary) (target : ClientExitTarget) : Bool :=
  match sessionRow listing target with
  | none => false
  | some row =>
    let phase := row.aplexerPhase.map fun phase => (Js.trim phase).map lowerUnit
    !present phase || !ENDING_APLEXER_PHASES.contains (phase.getD [])

/-! ## 2. Data -/

abbrev ShellId : Type := Nat

inductive Backend
  | tmux | aplexer
  deriving DecidableEq

/-- What the pane should show: the props its component reads. -/
structure Target where
  connectionId : Text
  registryKey : Text
  backend : Option Backend := none
  session : Text := []
  workspace : Option Text := none
  aplexerId : Option Text := none
  deriving DecidableEq

/-- What the host is asked about. -/
def Target.clientExit (target : Target) : ClientExitTarget :=
  ⟨target.session, target.workspace, target.aplexerId⟩

/-- `targetOwner()`. The source compares its JSON. -/
structure Owner where
  targetGeneration : Nat
  shellId : Option ShellId
  target : Target
  deriving DecidableEq

/-- `attachedOwner`: none yet, that of another target (`''`), or an owner. -/
inductive AttachedOwner
  | unset
  | stale
  | owner (owner : Owner)
  deriving DecidableEq

/-- An input that was forwarded, with the call that acknowledges it. -/
structure InputPrefix where
  owner : Owner
  acknowledgement : Nat

/-- A typed detach. `waiting` is the exit that waits for it, with its shell. -/
structure DetachAcknowledgement where
  owner : Owner
  prefixAck : Nat
  detachAck : Nat
  waiting : Option (Nat × ShellId) := none
  settled : Option Bool := none

/-- An entry of the registry, and whether this pane made it. -/
structure Registration where
  shellId : ShellId
  mine : Bool
  deriving DecidableEq

abbrev Registry : Type := Text → Option Registration

namespace Registry

def empty : Registry := fun _ => none

def register (r : Registry) (key : Text) (shellId : ShellId) (mine : Bool) : Registry :=
  if key = [] then r else fun key' => if key' = key then some ⟨shellId, mine⟩ else r key'

/-- Drop a key's shell. A no-op when `shellId` is no longer the current one. -/
def unregister (r : Registry) (key : Text) (shellId : Option ShellId) : Registry :=
  match r key with
  | none => r
  | some entry =>
    if shellId.any (· ≠ entry.shellId) then r
    else fun key' => if key' = key then none else r key'

end Registry

/-- A call of `open()`: quiet when it is the re-join after a client exit, then with that exit. -/
structure Opening where
  rejoin : Option Nat := none

/-- A `showTarget` that waits for its shell, with what it captured before. -/
structure Request where
  generation : Nat
  owner : Owner
  previousId : Option ShellId
  target : Target
  opening : Opening

/-- What else the pane waits for. -/
inductive Pending
  | listing (exit : Nat) (id : ShellId) (owner : Owner)
  | rejoinClose (exit : Nat) (id : ShellId) (owner : Owner)
  | repairClose (id : ShellId)
  | windowSize (id : ShellId)

structure Call where
  id : Nat
  pending : Pending

/-- What `api.shell.windowSize` finds. -/
inductive GeometryProbe
  | bare | dead | client

inductive Answer
  | listed (sessions : List SessionSummary)
  | probed (far : GeometryProbe)
  | done
  | failed

/-- What the pane did and heard, in order. An exit is known by its number. -/
inductive Event
  /-- an input was forwarded. `armed`: the component armed it for its target -/
  | forwarded (owner : Owner) (data : Text) (acknowledgement : Nat) (armed : Bool)
  | opened
  /-- `open()` by the re-join after an exit, with what the pane showed -/
  | reopened (exit : Nat) (owner : Owner)
  | adopted (id : ShellId) (now : Int)
  | joinFailed
  /-- the exit of the shell on screen, and whether the link was up -/
  | heard (exit : Nat) (id : ShellId) (linkUp : Bool)
  | judged (exit : Nat) (now : Int)
  | detached (exit : Nat) (owner : Owner)
  | processExited (exit : Nat)
  | asked (exit : Nat) (owner : Owner)
  | answered (exit : Nat) (outlived : Bool)
  /-- the re-join after an exit is decided -/
  | rejoining (exit : Nat)
  /-- a re-join after a dead probe or the parser's death -/
  | repairing
  | healthy

/-- What the guarantees speak about. -/
structure History where
  log : List Event := []
  /-- the shells that were answered, with the target each was asked for -/
  answers : List (ShellId × Target) := []
  /-- the shells that were reported exited -/
  exits : List ShellId := []
  /-- the target the component armed a detach for -/
  armed : Option Owner := none
  /-- the target that the key published last names -/
  named : Option Target := none
  /-- what a composer wrote into a shell of the pane: the key it wrote to, what that key named, the shell -/
  composed : List (Text × Option Target × ShellId) := []

structure State where
  target : Target
  linkUp : Bool := true
  /-- the terminal and its container are there -/
  term : Bool := true
  shellId : Option ShellId := none
  /-- the streams of `shellId` are bound -/
  bound : Bool := false
  registeredKey : Option Text := none
  shellGone : Bool := false
  paneHidden : Bool := false
  targetGeneration : Nat := 0
  attachedOwner : AttachedOwner := .unset
  inputPrefix : Option InputPrefix := none
  pendingDetach : Option DetachAcknowledgement := none
  detachCandidate : Option Owner := none
  intentionalDetachOwner : Option Owner := none
  /-- the openings that wait for their turn -/
  showTargetChain : List Opening := []
  request : Option Request := none
  probeInFlight : Bool := false
  deadTicks : Nat := 0
  rejoinStreak : Nat := 0
  lastRejoinAt : Int := 0
  shellAttachedAt : Option Int := none
  registry : Registry := .empty
  calls : List Call := []
  /-- the inputs that were acknowledged, and how -/
  acknowledged : List (Nat × Bool) := []
  nextId : Nat := 0
  history : History := {}

def REJOIN_MIN_INTERVAL_MS : Int := 60000
def MAX_CONSECUTIVE_REJOINS : Nat := 3
def DEAD_TICKS_BEFORE_REJOIN : Nat := 2

/-- The key a detach begins with. -/
def prefixKey : Text := [2]

namespace State

/-! ## 3. Openings -/

def addLog (s : State) (e : Event) : State :=
  { s with history := { s.history with log := s.history.log ++ [e] } }

def park (s : State) (pending : Pending) : State :=
  { s with calls := s.calls ++ [⟨s.nextId, pending⟩], nextId := s.nextId + 1 }

def targetOwner (s : State) : Owner := ⟨s.targetGeneration, s.shellId, s.target⟩

def isIntentionallyDetached (s : State) : Bool := s.intentionalDetachOwner = some s.targetOwner

/-- `open()`. A re-join is known by the exit it follows. -/
def openTarget (s : State) (rejoin : Option Nat) : State :=
  addLog
    { s with
      targetGeneration := s.targetGeneration + 1,
      pendingDetach := none,
      inputPrefix := none,
      detachCandidate := none,
      intentionalDetachOwner := none,
      showTargetChain := s.showTargetChain ++ [⟨rejoin⟩] }
    (match rejoin with
    | none => .opened
    | some exit => .reopened exit s.targetOwner)

/-- The key that is published is retracted. -/
def retract (s : State) (id : Option ShellId) : State :=
  match s.registeredKey with
  | none => s
  | some key => { s with registry := s.registry.unregister key id, registeredKey := none }

/-- `showTarget` up to its request. -/
def showTarget (s : State) (opening : Opening) : State :=
  if !s.term then s
  else
    retract
      { s with
        request := some ⟨s.targetGeneration, s.targetOwner, s.shellId, s.target, opening⟩ }
      s.shellId

def withChain (s : State) (chain : List Opening) : State := { s with showTargetChain := chain }

/-- The next opening of the chain has its turn. -/
def turn (s : State) : State :=
  match s.request, s.showTargetChain with
  | none, opening :: rest => (s.withChain rest).showTarget opening
  | _, _ => s

/-- What the re-join after a client exit does once its `open()` is over. -/
def openOver (s : State) (opening : Opening) (now : Int) : State :=
  match opening.rejoin with
  | none => s
  | some exit =>
    if !s.term then s
    else if s.shellId.isNone then s.addLog (.processExited exit)
    else { s with shellGone := false, shellAttachedAt := some now }

/-- The request failed. -/
def joinFailed (s : State) (request : Request) (now : Int) : State :=
  (addLog { s with bound := false, shellId := none, shellAttachedAt := none } .joinFailed).openOver
    request.opening now

/-- Another PTY than before: its streams are bound. -/
def adoptShell (s : State) (previousId : Option ShellId) (id : ShellId) : State :=
  if some id ≠ previousId then { s with shellId := some id, shellGone := false, bound := true } else s

/-- The shell is published under the key the pane has now. -/
def publish (s : State) (attachedOwner : AttachedOwner) (id : ShellId) (now : Int) : State :=
  addLog
    { s with
      attachedOwner,
      registeredKey := some s.target.registryKey,
      registry := s.registry.register s.target.registryKey id true,
      shellAttachedAt := some now,
      history := { s.history with named := some s.target } }
    (.adopted id now)

/-- The rest of `showTarget`: the shell is adopted and published. -/
def adopt (s : State) (request : Request) (id : ShellId) (now : Int) : State :=
  let targetStillCurrent :=
    request.generation = s.targetGeneration && request.owner = s.targetOwner
  let adopted := s.adoptShell request.previousId id
  adopted.publish (if targetStillCurrent then .owner adopted.targetOwner else .stale) id now

def attachAnswered (s : State) (request : Request) (id : ShellId) (now : Int) : State :=
  if !s.term then s else (s.adopt request id now).openOver request.opening now

/-- The request is no longer in flight. -/
def requestOver (s : State) (answers : List (ShellId × Target)) : State :=
  { s with
    request := none, history := { s.history with answers := answers ++ s.history.answers } }

/-- The request in flight is answered. -/
def attached (s : State) (id : ShellId) (now : Int) : State :=
  match s.request with
  | none => s
  | some request => (s.requestOver [(id, request.target)]).attachAnswered request id now

def attachFailed (s : State) (now : Int) : State :=
  match s.request with
  | none => s
  | some request => (s.requestOver []).joinFailed request now

/-! ## 4. Inputs and exits -/

/-- `term.onData`. -/
def input (s : State) (data : Text) : State :=
  if !s.term || s.shellId.isNone || s.shellGone then s
  else
    let owner := s.targetOwner
    let detach := data = ascii "d" && s.detachCandidate = some owner &&
      s.inputPrefix.any (·.owner = owner) && s.attachedOwner = .owner owner
    addLog
      { s with
        detachCandidate := none,
        intentionalDetachOwner := none,
        inputPrefix := if data = prefixKey then some ⟨owner, s.nextId⟩ else none,
        pendingDetach :=
          if detach then
            s.inputPrefix.map fun typed => ⟨owner, typed.acknowledgement, s.nextId, none, none⟩
          else none,
        nextId := s.nextId + 1,
        history := { s.history with armed := none } }
      (.forwarded owner data s.nextId (s.history.armed = some owner))

def acknowledge (s : State) (acknowledgement : Nat) (accepted : Bool) : State :=
  { s with acknowledged := s.acknowledged ++ [(acknowledgement, accepted)] }

def cancelDetachCandidate (s : State) : State :=
  { s with detachCandidate := none, history := { s.history with armed := none } }

def expectIntentionalDetach (s : State) : State :=
  let armed : State := { s with history := { s.history with armed := some s.targetOwner } }
  if !s.shellGone && s.shellId.isSome && s.linkUp && s.target.backend = some .aplexer &&
      present s.target.aplexerId && s.attachedOwner = .owner s.targetOwner &&
      s.inputPrefix.any (·.owner = s.targetOwner) then
    { armed with detachCandidate := some s.targetOwner }
  else armed

/-- A shell that was shown long enough ends the episode. -/
def rested (s : State) (now : Int) : State :=
  if s.shellAttachedAt.any fun attachedAt => REJOIN_MIN_INTERVAL_MS ≤ now - attachedAt then
    { s with rejoinStreak := 0 }
  else s

/-- The host is asked about the session, within the budget and on a link that is up. -/
def askHost (s : State) (exit : Nat) (id : ShellId) : State :=
  if MAX_CONSECUTIVE_REJOINS ≤ s.rejoinStreak then s.addLog (.processExited exit)
  else if !s.linkUp then s.addLog (.processExited exit)
  else
    (s.park (.listing exit id s.targetOwner)).addLog (.asked exit s.targetOwner)

def rejoinAfterClientExit (s : State) (exit : Nat) (id : ShellId) (now : Int) : State :=
  if s.attachedOwner ≠ .unset ∧ s.attachedOwner ≠ .owner s.targetOwner then s
  else (s.rested now).askHost exit id

def finishClientExit (s : State) (exit : Nat) (id : ShellId) (now : Int) : State :=
  let judged := s.addLog (.judged exit now)
  if s.isIntentionallyDetached && s.linkUp then judged.addLog (.detached exit s.targetOwner)
  else if s.target.backend = some .aplexer && s.target.session ≠ [] then
    judged.rejoinAfterClientExit exit id now
  else judged.addLog (.processExited exit)

/-- The shell on screen is gone: it stops answering registry lookups. -/
def shellLost (s : State) (id : ShellId) : State :=
  addLog
    { s with
      shellGone := true,
      registry := match s.registeredKey with
        | none => s.registry
        | some key => s.registry.unregister key (some id),
      nextId := s.nextId + 1 }
    (.heard s.nextId id s.linkUp)

/-- The exit of the shell on screen. -/
def clientExited (s : State) (exit : Nat) (id : ShellId) (now : Int) : State :=
  if s.isIntentionallyDetached && s.linkUp then s.finishClientExit exit id now
  else
    match s.pendingDetach with
    | none => finishClientExit { s with intentionalDetachOwner := none } exit id now
    | some receipt =>
      if receipt.owner = s.targetOwner && s.linkUp then
        { s with
          pendingDetach := some { receipt with waiting := some (receipt.waiting.getD (exit, id)) } }
      else
        finishClientExit { s with pendingDetach := none, intentionalDetachOwner := none } exit id now

def reported (s : State) (id : ShellId) : State :=
  { s with history := { s.history with exits := id :: s.history.exits } }

/-- The platform reports a shell exited, once. -/
def exited (s : State) (id : ShellId) (now : Int) : State :=
  if s.history.exits.contains id then s
  else if s.bound && s.shellId = some id && s.term then
    ((s.reported id).shellLost id).clientExited s.nextId id now
  else s.reported id

def acknowledgementOf (s : State) (acknowledgement : Nat) : Option Bool :=
  (s.acknowledged.find? (·.1 = acknowledgement)).map (·.2)

/-- Whether the typed detach was accepted, once both acknowledgements or the time-out are there. -/
def detachVerdict (s : State) (receipt : DetachAcknowledgement) (timedOut : Bool) : Option Bool :=
  match receipt.settled with
  | some accepted => some accepted
  | none =>
    if timedOut then some false
    else
      match s.acknowledgementOf receipt.prefixAck, s.acknowledgementOf receipt.detachAck with
      | some first, some second => some (first && second)
      | _, _ => none

/-- The exit that waits for `receipt` goes on. -/
def detachConfirmed (s : State) (receipt : DetachAcknowledgement) (exit : Nat) (id : ShellId)
    (confirmed : Bool) (now : Int) : State :=
  if !s.term || s.shellId ≠ some id || receipt.owner ≠ s.targetOwner then
    { s with pendingDetach := some { receipt with waiting := none, settled := some confirmed } }
  else
    finishClientExit
      { s with
        pendingDetach := none,
        intentionalDetachOwner := if confirmed && s.linkUp then some receipt.owner else none }
      exit id now

def detachSettled (s : State) (timedOut : Bool) (now : Int) : State :=
  match s.pendingDetach with
  | none => s
  | some receipt =>
    match receipt.waiting, s.detachVerdict receipt timedOut with
    | some (exit, id), some confirmed => s.detachConfirmed receipt exit id confirmed now
    | _, _ => s

/-! ## 5. Re-joins -/

def stillCurrent (s : State) (id : ShellId) (owner : Owner) : Bool :=
  s.shellId = some id && s.term && owner = s.targetOwner

/-- The host was asked whether the session outlived its client. -/
def hostAnswered (s : State) (exit : Nat) (id : ShellId) (owner : Owner) (outlived : Bool) : State :=
  let heard := s.addLog (.answered exit outlived)
  if !s.stillCurrent id owner then heard
  else if !outlived || !s.linkUp then heard.addLog (.processExited exit)
  else
    (park { heard with rejoinStreak := s.rejoinStreak + 1 } (.rejoinClose exit id owner)).addLog
      (.rejoining exit)

def closedForRejoin (s : State) (exit : Nat) (id : ShellId) (owner : Owner) : State :=
  if s.stillCurrent id owner then s.openTarget (some exit) else s

/-- A re-join within the bounds: the shell is closed first. -/
def repair (s : State) (id : ShellId) (now : Int) : State :=
  (park
    { s with deadTicks := 0, lastRejoinAt := now, rejoinStreak := s.rejoinStreak + 1 }
    (.repairClose id)).addLog .repairing

def mayRepair (s : State) (now : Int) : Bool :=
  REJOIN_MIN_INTERVAL_MS ≤ now - s.lastRejoinAt && s.rejoinStreak < MAX_CONSECUTIVE_REJOINS

def closedForRepair (s : State) (id : ShellId) : State :=
  if s.shellId = some id && s.term then s.openTarget none else s

def scheduleRejoin (s : State) (id : ShellId) (now : Int) : State :=
  let ticked : State := { s with deadTicks := s.deadTicks + 1 }
  if ticked.deadTicks < DEAD_TICKS_BEFORE_REJOIN || !s.mayRepair now then ticked
  else ticked.repair id now

/-- `reconcileTick` up to its probe. -/
def reconcileTick (s : State) (visible : Bool) : State :=
  match s.shellId with
  | none => s
  | some id =>
    if !s.term || s.shellGone || !visible || s.probeInFlight then s
    else park { s with probeInFlight := true } (.windowSize id)

def probed (s : State) (id : ShellId) (far : GeometryProbe) (now : Int) : State :=
  if !s.term || s.shellId ≠ some id || s.shellGone then s
  else
    match far with
    | .bare => s
    | .dead => s.scheduleRejoin id now
    | .client => addLog { s with deadTicks := 0, rejoinStreak := 0 } .healthy

/-- The parse loop died. `recovering`: its throw was seen, and the loop was started again. -/
def parseStalled (s : State) (recovering : Bool) (now : Int) : State :=
  match s.shellId with
  | none => s
  | some id =>
    if !recovering || s.shellGone || !s.mayRepair now then s
    else { s.repair id now with deadTicks := s.deadTicks }

/-- The frame that `scheduleFit` asked for. -/
def fitFrame (s : State) (visible plausibleGrid : Bool) : State :=
  if !visible || !plausibleGrid || !s.term then { s with paneHidden := true }
  else
    let shown : State := { s with paneHidden := false }
    if s.shellGone && (s.isIntentionallyDetached || s.pendingDetach.any (·.owner = s.targetOwner)) then
      shown
    else if s.paneHidden && s.shellGone then openTarget { shown with shellGone := false } none
    else shown

/-- `detach()`, with `closeShell`. -/
def detach (s : State) : State :=
  { ({ s with pendingDetach := none, bound := false }.retract s.shellId) with
    shellId := none, term := false }

/-- `onSend` of a composer (`useComposerSend.ts`): its text goes to `shellIdFor(sessionKey)`. -/
def compose (s : State) (sessionKey : Text) : State :=
  match s.registry sessionKey with
  | none => s
  | some entry =>
    if entry.mine then
      { s with
        history := { s.history with
          composed := (sessionKey, s.history.named, entry.shellId) :: s.history.composed } }
    else s

def resume (s : State) (call : Call) (answer : Answer) (now : Int) : State :=
  match call.pending, answer with
  | .listing exit id owner, .listed sessions =>
    s.hostAnswered exit id owner (sessionOutlivedClient sessions owner.target.clientExit)
  | .listing exit id owner, .failed => s.hostAnswered exit id owner false
  | .rejoinClose exit id owner, .done => s.closedForRejoin exit id owner
  | .rejoinClose exit id owner, .failed => s.closedForRejoin exit id owner
  | .repairClose id, .done => s.closedForRepair id
  | .windowSize id, .probed far => probed { s with probeInFlight := false } id far now
  | .windowSize _, .failed => { s with probeInFlight := false }
  | _, _ => s

def waiting (s : State) (id : Nat) : Option Call := s.calls.find? (·.id = id)

def withoutCall (s : State) (id : Nat) : State := { s with calls := s.calls.filter fun call => call.id ≠ id }

def replied (s : State) (id : Nat) (answer : Answer) (now : Int) : State :=
  match s.waiting id with
  | none => s
  | some call => (s.withoutCall id).resume call answer now

end State

/-! ## 6. Runs -/

inductive Action
  | setTarget (target : Target)
  | setLink (up : Bool)
  /-- `open()` by the component -/
  | openTarget
  | turn
  | attached (id : ShellId) (now : Int)
  | attachFailed (now : Int)
  | input (data : Text)
  | acknowledge (acknowledgement : Nat) (accepted : Bool)
  | expectIntentionalDetach
  | cancelDetachCandidate
  /-- the platform reports a shell exited -/
  | exited (id : ShellId) (now : Int)
  | detachSettled (timedOut : Bool) (now : Int)
  | fitFrame (visible plausibleGrid : Bool)
  | reconcileTick (visible : Bool)
  | parseStalled (recovering : Bool) (now : Int)
  | reply (id : Nat) (answer : Answer) (now : Int)
  | detach
  /-- others at the registry -/
  | otherRegister (key : Text) (id : ShellId)
  | otherUnregister (key : Text) (id : Option ShellId)
  | otherClear
  /-- a composer sends to a session -/
  | compose (sessionKey : Text)

def step (s : State) : Action → State
  | .setTarget target => { s with target }
  | .setLink up => { s with linkUp := up }
  | .openTarget => s.openTarget none
  | .turn => s.turn
  | .attached id now => s.attached id now
  | .attachFailed now => s.attachFailed now
  | .input data => s.input data
  | .acknowledge acknowledgement accepted => s.acknowledge acknowledgement accepted
  | .expectIntentionalDetach => s.expectIntentionalDetach
  | .cancelDetachCandidate => s.cancelDetachCandidate
  | .exited id now => s.exited id now
  | .detachSettled timedOut now => s.detachSettled timedOut now
  | .fitFrame visible plausibleGrid => s.fitFrame visible plausibleGrid
  | .reconcileTick visible => s.reconcileTick visible
  | .parseStalled recovering now => s.parseStalled recovering now
  | .reply id answer now => s.replied id answer now
  | .detach => s.detach
  | .otherRegister key id => { s with registry := s.registry.register key id false }
  | .otherUnregister key id => { s with registry := s.registry.unregister key id }
  | .otherClear => { s with registry := .empty }
  | .compose sessionKey => s.compose sessionKey

def run (target : Target) (actions : List Action) : State := actions.foldl step { target }

end PocketShell.TerminalPane
