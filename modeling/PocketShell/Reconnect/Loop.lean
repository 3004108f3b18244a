import Mathlib

/-!
# The automatic reconnect loop

The machinery half of the reconnect: wait out the backoff curve, dial, repeat, until the link
comes back or the budget is spent. The loop is given a `dial` and reports a schedule.

A state holds the fields of the loop and what runs outside it: the timers that are set and the
dials on the wire. Each carries the generation its closure captured. The reads of the clock and
of `hasTarget` come in with the action that makes them.

This file defines the following.
* `ReconnectBackoff`: the curve, and the attempt it has come to.
* `State` and the methods of the loop.
* `Action`: a call, the firing of a timer or the outcome of a dial, and `State.step`.
* `Recovery`: what the log says about the recovery that is open, with no field of the loop.
-/

namespace PocketShell.ReconnectLoop

/-! ## 1. The curve -/

def INITIAL_DELAY_MS : Nat := 5000
def MAX_DELAY_MS : Nat := 60000
def MAX_ATTEMPTS : Nat := 10

/-- One scheduled retry. -/
structure RetryPlan where
  attempt : Nat
  delayMs : Nat
  retryAtEpochMs : Int

structure ReconnectBackoff where
  attempt : Nat := 0
  initialDelayMs : Nat := INITIAL_DELAY_MS
  maxDelayMs : Nat := MAX_DELAY_MS
  maxAttempts : Nat := MAX_ATTEMPTS

namespace ReconnectBackoff

/-- The budget is spent. -/
def exhausted (b : ReconnectBackoff) : Bool := b.maxAttempts ≤ b.attempt

/-- Consume one attempt. The curve that is left comes back with the plan. -/
def next (b : ReconnectBackoff) (now : Int) : Option (RetryPlan × ReconnectBackoff) :=
  if b.exhausted then none
  else
    let attempt := b.attempt + 1
    let delayMs := min (b.initialDelayMs * 2 ^ (attempt - 1)) b.maxDelayMs
    some (⟨attempt, delayMs, now + delayMs⟩, { b with attempt })

end ReconnectBackoff

/-! ## 2. The loop -/

structure AutoRetry where
  attempt : Nat
  retryAt : Int

/-- A timer that is set: its handle and the generation its callback captured. -/
structure Timer where
  id : Nat
  gen : Nat
  deriving DecidableEq

/-- A dial on the wire. `since` is the length of the log when it was made. -/
structure Dial where
  id : Nat
  gen : Nat
  since : Nat
  deriving DecidableEq

/-- What the loop did, in order. `reached` is a dial of the current generation that answered true.
`onDialFailed` names the moment the failed dial was made. -/
inductive Event
  | began
  | scheduled (attempt : Nat)
  | dialled
  | reached
  | onDialFailed (since : Nat)
  | onGiveUp
  | succeeded
  | cancelled
  deriving DecidableEq

structure State where
  autoRetry : Option AutoRetry := none
  retryIn : Nat := 0
  recovering : Bool := false
  backoff : Option ReconnectBackoff := none
  retryTimer : Option Nat := none
  /-- the countdown ticker, with the moment its closure counts down to -/
  countdownTimer : Option Int := none
  generation : Nat := 0
  timers : List Timer := []
  dials : List Dial := []
  /-- handles are never used twice -/
  nextId : Nat := 0
  log : List Event := []

/-- The seconds left, rounded up, and none once the moment has passed. -/
def secondsLeft (retryAt now : Int) : Nat := ((retryAt - now + 999) / 1000).toNat

namespace State

/-- A recovery curve is running. -/
def running (s : State) : Bool := s.backoff.isSome

def addLog (s : State) (e : Event) : State := { s with log := s.log ++ [e] }

def stopCountdown (s : State) : State := { s with countdownTimer := none, retryIn := 0 }

def startCountdown (s : State) (retryAt now : Int) : State :=
  { s.stopCountdown with retryIn := secondsLeft retryAt now, countdownTimer := some retryAt }

/-- One tick of the countdown label. -/
def tick (s : State) (now : Int) : State :=
  match s.countdownTimer with
  | none => s
  | some retryAt => { s with retryIn := secondsLeft retryAt now }

/-- `if (this.retryTimer) { clearTimeout(this.retryTimer); this.retryTimer = null; }` -/
def clearRetryTimer (s : State) : State :=
  match s.retryTimer with
  | none => s
  | some id => { s with timers := s.timers.filter (·.id ≠ id), retryTimer := none }

def clearPendingStep (s : State) : State :=
  { s.clearRetryTimer.stopCountdown with autoRetry := none }

/-- A dial succeeded. Neither the generation nor the timer changes. -/
def succeeded (s : State) : State :=
  ({ s with backoff := none, autoRetry := none, recovering := false }.stopCountdown).addLog
    .succeeded

def cancel (s : State) : State :=
  let cleared := ({ s with generation := s.generation + 1 }.clearRetryTimer).stopCountdown
  { cleared with backoff := none, autoRetry := none, recovering := false }.addLog .cancelled

/-- The budget is spent. -/
def giveUp (s : State) (gen : Nat) : State :=
  if gen ≠ s.generation then s
  else
    ({ s with backoff := none, autoRetry := none, recovering := false }.stopCountdown).addLog
      .onGiveUp

/-- Set the timer of the next step. The timer that was set before, if any, stays set. -/
def setRetryTimer (s : State) (gen : Nat) : State :=
  { s with
    retryTimer := some s.nextId
    timers := s.timers ++ [⟨s.nextId, gen⟩]
    nextId := s.nextId + 1 }

/-- Wait out the next step of the curve. -/
def scheduleNext (s : State) (gen : Nat) (now : Int) : State :=
  match s.backoff with
  | none => s.giveUp gen
  | some backoff =>
    match backoff.next now with
    | none => s.giveUp gen
    | some (plan, rest) =>
      (({ s with
          backoff := some rest
          autoRetry := some ⟨plan.attempt, plan.retryAtEpochMs⟩ }.startCountdown
            plan.retryAtEpochMs now).setRetryTimer gen).addLog (.scheduled plan.attempt)

def begin (s : State) (target : Bool) (now : Int) : State :=
  if s.running || !target then s
  else
    let gen := s.generation + 1
    let fresh : State := { s with backoff := some {}, recovering := true, generation := gen }
    (fresh.addLog .began).scheduleNext gen now

/-- One dial inside the loop, up to its `await`. -/
def dialStep (s : State) (gen : Nat) (target : Bool) : State :=
  if gen ≠ s.generation || !target then s
  else
    ({ s with
      dials := s.dials ++ [⟨s.nextId, gen, s.log.length⟩]
      nextId := s.nextId + 1 } : State).addLog .dialled

def skipWait (s : State) (target : Bool) : State :=
  s.clearPendingStep.dialStep s.generation target

/-- The callback of a retry timer. -/
def fired (s : State) (timer : Timer) (target : Bool) : State :=
  let spent := { s with timers := s.timers.erase timer, retryTimer := none }
  { spent.stopCountdown with autoRetry := none }.dialStep timer.gen target

end State

/-- How a dial ends: it answers true, it answers false, or it throws. -/
inductive Outcome
  | up
  | down
  | thrown

namespace State

/-- The rest of `dialStep`, after its `await`. -/
def answered (s : State) (dial : Dial) (outcome : Outcome) (now : Int) : State :=
  let s := { s with dials := s.dials.erase dial }
  if dial.gen ≠ s.generation then s
  else
    match outcome with
    | .up => s.addLog .reached
    | .down => (s.addLog (.onDialFailed dial.since)).scheduleNext dial.gen now
    | .thrown => s

end State

/-! ## 3. Runs -/

inductive Action
  | begin (target : Bool) (now : Int)
  | skipWait (target : Bool)
  | clearPendingStep
  | succeeded
  | cancel
  | tick (now : Int)
  | fired (timer : Timer) (target : Bool)
  | answered (dial : Dial) (outcome : Outcome) (now : Int)

/-- A timer fires only while it is set, and a dial answers only while it is on the wire. -/
def State.step (s : State) : Action → State
  | .begin target now => s.begin target now
  | .skipWait target => s.skipWait target
  | .clearPendingStep => s.clearPendingStep
  | .succeeded => s.succeeded
  | .cancel => s.cancel
  | .tick now => s.tick now
  | .fired timer target => if timer ∈ s.timers then s.fired timer target else s
  | .answered dial outcome now => if dial ∈ s.dials then s.answered dial outcome now else s

def run (actions : List Action) : State := actions.foldl State.step {}

/-! ## 4. The recovery the log shows -/

/-- An open recovery: the attempts that were scheduled, and whether a dial came back true. -/
structure Recovery where
  attempts : List Nat := []
  reached : Bool := false

/-- A recovery opens when it begins and closes when it succeeds, is cancelled or gives up. -/
def Recovery.after : Option Recovery → Event → Option Recovery
  | _, .began => some {}
  | _, .succeeded => none
  | _, .cancelled => none
  | _, .onGiveUp => none
  | some r, .scheduled attempt => some { r with attempts := r.attempts ++ [attempt] }
  | some r, .reached => some { r with reached := true }
  | open_, _ => open_

/-- The recovery that is open after the events of `log`. -/
def recovery (log : List Event) : Option Recovery := log.foldl Recovery.after none

@[simp] theorem recovery_nil : recovery [] = none := rfl

@[simp] theorem recovery_snoc (log : List Event) (e : Event) :
    recovery (log ++ [e]) = Recovery.after (recovery log) e := by
  simp [recovery]

/-- The recovery that is open has not reached the host yet. -/
def State.waiting (s : State) : Prop := ∃ r, recovery s.log = some r ∧ r.reached = false

/-- A dial of the current generation is on the wire. -/
def State.dialling (s : State) : Prop := ∃ dial ∈ s.dials, dial.gen = s.generation

instance (s : State) : Decidable s.waiting :=
  decidable_of_iff ((recovery s.log).any (!·.reached)) (by
    simp [State.waiting, Option.any_eq_true])

instance (s : State) : Decidable s.dialling :=
  decidable_of_iff (s.dials.any (·.gen = s.generation)) (by simp [State.dialling])

/-- `succeeded` or `cancel` was called after the dial was made. -/
def State.Settled (s : State) (dial : Dial) : Prop :=
  .succeeded ∈ s.log.drop dial.since ∨ .cancelled ∈ s.log.drop dial.since

end PocketShell.ReconnectLoop
