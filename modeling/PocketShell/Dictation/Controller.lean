import PocketShell.Coop.Thread
import PocketShell.Js.Text

/-!
# The dictation controller

`DictationController`: the recognizer turns of one dictation and the text they leave.

A method runs alone up to a call of `startRecognition`, `stopRecognition` or
`schedule`: while the adapter is in one of these it may call the controller again.
The other effects of the adapter call nothing back.
-/

namespace PocketShell.Dictation

open Coop (Async Thread System)
open Js (Text pieces join ascii)

/-! ## The state -/

inductive DictationPhase
  | idle
  | starting
  | listening
  | stopping
  | completed
  | cancelled
  | error
deriving DecidableEq

inductive DictationInterruptReason
  | background
  | targetChange
  | closed

inductive DictationRecoverableEnd
  | noMatch
  | speechTimeout
  | recognizerBusy
deriving DecidableEq

inductive DictationAudioEvidence
  | unknown
  | silent
  | sound
deriving DecidableEq

inductive DictationNoSpeechReason
  | noTextTimeout
  | emptyTurns

structure DictationNoSpeech where
  reason : DictationNoSpeechReason
  audio : DictationAudioEvidence
  emptyTurns : Nat
  afterText : Bool

structure DictationError where
  code : String
  message : String

structure DictationSnapshot where
  revision : Nat := 0
  phase : DictationPhase := .idle
  targetId : Option String := none
  requestId : Option String := none
  /-- `partial` of the source. -/
  latest : Text := []
  segments : List Text := []
  transcript : Text := []
  error : Option DictationError := none
  /-- The only reason there is. -/
  cancelledByUser : Bool := false
  interruptReason : Option DictationInterruptReason := none
  noSpeech : Option DictationNoSpeech := none

structure PendingRestart where
  token : Nat
  hasHandle : Bool

/-- A segment with the run and the request it was recognized in. -/
structure Spoken where
  run : Nat
  requestId : String
  segment : Text

structure State where
  snapshot : DictationSnapshot := {}
  usedRequestIds : List String := []
  configuredTargetId : Option String := none
  foreground : Bool := true
  revision : Nat := 0
  currentRequestId : Option String := none
  requestStartResolved : Bool := false
  stopIssued : Bool := false
  desiredListening : Bool := false
  pendingRestart : Option PendingRestart := none
  restartToken : Nat := 0
  /-- The token of the timer that is set. -/
  noTextTimer : Option Nat := none
  noTextToken : Nat := 0
  noTextElapsed : Bool := false
  emptyTurns : Nat := 0
  turnHadText : Bool := false
  textThisRun : Bool := false
  audioEvidence : DictationAudioEvidence := .unknown
  /-- How many runs were started, and all that was ever recognized in them. -/
  run : Nat := 0
  spoken : List Spoken := []

def initial : State := {}

/-- A value that was thrown. -/
inductive Thrown
  | error (message : String)
  | string (text : String)
  | other

def errorMessage : Thrown → String
  | .error message => if message = "" then "Speech recognition failed." else message
  | .string text => if text = "" then "Speech recognition failed." else text
  | .other => "Speech recognition failed."

def wordCount (text : Text) : Nat := if text = [] then 0 else pieces text

def coveringSegment (finalText latest : Text) : Text :=
  if wordCount finalText < wordCount latest then latest else finalText

namespace State

def isActive (s : State) : Bool :=
  s.snapshot.phase = .starting || s.snapshot.phase = .listening || s.snapshot.phase = .stopping

def accepts (s : State) (requestId : String) : Bool :=
  s.currentRequestId = some requestId && s.isActive

def setSnapshot (s : State) (f : DictationSnapshot → DictationSnapshot) : State :=
  { s with snapshot := f s.snapshot }

def publish (s : State) : State :=
  { s with revision := s.revision + 1 }.setSnapshot ({ · with revision := s.revision + 1 })

/-! ### Listening without text -/

def clearNoTextTimer (s : State) : State :=
  { s with noTextTimer := none, noTextToken := s.noTextToken + 1 }

def armNoTextTimer (s : State) : State :=
  let s := s.clearNoTextTimer
  { s with noTextTimer := some (s.noTextToken + 1), noTextToken := s.noTextToken + 1 }

def resetNoSpeechTracking (s : State) : State :=
  { s.clearNoTextTimer with
    noTextElapsed := false
    emptyTurns := 0
    turnHadText := false
    audioEvidence := .unknown }

def endNoSpeechTracking (s : State) : State :=
  s.resetNoSpeechTracking.setSnapshot ({ · with noSpeech := none })

def raiseNoSpeech (s : State) (reason : DictationNoSpeechReason) : State :=
  s.setSnapshot ({ · with
    noSpeech := some ⟨reason, s.audioEvidence, s.emptyTurns, s.textThisRun⟩ })

def countEmptyTurn (noTextRestartLimit : Nat) (s : State) : State :=
  let s := { s with emptyTurns := s.emptyTurns + 1 }
  match s.snapshot.noSpeech with
  | some noSpeech =>
    s.setSnapshot ({ · with noSpeech := some { noSpeech with emptyTurns := s.emptyTurns } })
  | none => if noTextRestartLimit ≤ s.emptyTurns then s.raiseNoSpeech .emptyTurns else s

def textRecognized (s : State) : State :=
  let s := { s with
    turnHadText := true
    textThisRun := true
    emptyTurns := 0
    audioEvidence := .unknown
    noTextElapsed := false }.setSnapshot ({ · with noSpeech := none })
  if s.desiredListening then s.armNoTextTimer else s

/-- `fire` of the no-text timer. -/
def noTextFired (s : State) (token : Nat) : State :=
  if s.noTextTimer ≠ some token then s
  else
    let s := { s with noTextTimer := none, noTextElapsed := true }
    if !s.desiredListening || s.snapshot.noSpeech.isSome then s
    else if s.snapshot.phase ≠ .listening && s.snapshot.phase ≠ .starting then s
    else (s.raiseNoSpeech .noTextTimeout).publish

/-! ### Turns -/

def cancelPendingRestart (s : State) : State :=
  { s with pendingRestart := none, restartToken := s.restartToken + 1 }

/-- The request is no longer current. -/
def settle (s : State) : State :=
  { s with currentRequestId := none, requestStartResolved := false, stopIssued := false }

def settleRequest (s : State) (requestId : String) : State :=
  if s.currentRequestId ≠ some requestId then s else s.settle

/-- `requestId` is the turn the segment comes from. -/
def appendSegment (s : State) (requestId : String) (segment : Text) : State :=
  let segments := s.snapshot.segments ++ [segment]
  let spoken : Spoken := ⟨s.run, requestId, segment⟩
  { s with spoken := s.spoken ++ [spoken] }.setSnapshot ({ · with
    latest := []
    segments := segments
    transcript := join (ascii " ") segments })

def promotePartial (s : State) (requestId : String) : State :=
  let latest := Js.trim s.snapshot.latest
  if latest = [] then s.setSnapshot ({ · with latest := [] }) else s.appendSegment requestId latest

/-- What `start` does before the first turn. -/
def freshRun (s : State) : State :=
  { { s.cancelPendingRestart with
      desiredListening := true
      snapshot := { revision := s.revision, targetId := s.configuredTargetId }
      run := s.run + 1 }.resetNoSpeechTracking with textThisRun := false }

/-- What `beginTurn` does before it calls the adapter. -/
def turnBegun (s : State) (requestId : String) : State :=
  { s with
    usedRequestIds := requestId :: s.usedRequestIds
    currentRequestId := some requestId
    requestStartResolved := false
    stopIssued := false
    turnHadText := false }.setSnapshot ({ · with
      phase := .starting
      requestId := some requestId
      latest := []
      error := none
      cancelledByUser := false
      interruptReason := none })

def failStart (s : State) (requestId : String) (e : Thrown) : State :=
  if s.currentRequestId ≠ some requestId then s
  else
    ({ s.settleRequest requestId with desiredListening := false }.endNoSpeechTracking.setSnapshot
      ({ · with
        phase := .error
        requestId := none
        latest := []
        error := some ⟨"start-failed", errorMessage e⟩ })).publish

def failStop (s : State) (requestId : String) (e : Thrown) : State :=
  if s.currentRequestId ≠ some requestId then s
  else
    { ((s.settleRequest requestId).promotePartial requestId).endNoSpeechTracking.setSnapshot
        ({ · with
          phase := .error
          requestId := none
          latest := []
          error := some ⟨"stop-failed", errorMessage e⟩ }) with desiredListening := false }.publish

/-- `schedule` has returned a handle. -/
def scheduled (s : State) (token : Nat) : State :=
  if s.pendingRestart.map (·.token) = some token then
    { s with pendingRestart := some ⟨token, true⟩ }
  else s

/-- The `catch` block of `scheduleNextTurn`. -/
def failSchedule (s : State) (token : Nat) (e : Thrown) : State :=
  if s.pendingRestart.map (·.token) ≠ some token then s
  else
    ({ s with pendingRestart := none, desiredListening := false }.endNoSpeechTracking.setSnapshot
      ({ · with
        phase := .error
        error := some ⟨"restart-scheduling-failed", errorMessage e⟩ })).publish

/-- A turn has ended that `stop` was not called on, or one that it was. -/
def turnOver (s : State) : State :=
  if s.desiredListening then (s.setSnapshot ({ · with phase := .listening })).publish
  else (s.endNoSpeechTracking.setSnapshot ({ · with phase := .completed })).publish

/-- What `onRecoverableEnd` makes of the turn. -/
def ended (noTextRestartLimit : Nat) (s : State) (requestId : String)
    (reason : DictationRecoverableEnd) : State :=
  let emptyTurn := !s.turnHadText && reason ≠ .recognizerBusy
  let s := ((s.settleRequest requestId).promotePartial requestId).setSnapshot
    ({ · with requestId := none })
  if s.desiredListening && emptyTurn then s.countEmptyTurn noTextRestartLimit else s

/-- What `onRecognizedSegment` makes of it. -/
def recognized (s : State) (requestId : String) (segment : Text) : State :=
  ((s.settleRequest requestId).textRecognized.appendSegment requestId segment).setSnapshot
    ({ · with requestId := none })

/-- What `stop` does first. -/
def stopListening (s : State) : State :=
  { s with desiredListening := false }.cancelPendingRestart.endNoSpeechTracking

def interrupt (s : State) (reason : DictationInterruptReason) : State :=
  if !s.isActive then s
  else
    (((s.stopListening.settle).promotePartial (s.currentRequestId.getD "")).setSnapshot ({ · with
      phase := .completed
      requestId := none
      interruptReason := some reason })).publish

def cancel (s : State) : State :=
  if !s.isActive then s
  else
    (s.stopListening.settle.setSnapshot ({ · with
      phase := .cancelled
      requestId := none
      latest := []
      cancelledByUser := true })).publish

def setTarget (s : State) (targetId : Option String) : State :=
  if targetId = s.configuredTargetId then s
  else
    let s := { s with configuredTargetId := targetId }
    if s.isActive then s.interrupt .targetChange else s

def setForeground (s : State) (foreground : Bool) : State :=
  if s.foreground = foreground then s
  else
    let s := { s with foreground := foreground }
    if !foreground && s.isActive then s.interrupt .background else s

def onPartial (s : State) (requestId : String) (text : Text) : State :=
  if !s.accepts requestId then s
  else
    let s := s.setSnapshot ({ · with latest := text })
    (if Js.trim text ≠ [] then s.textRecognized else s).publish

def onAudioLevel (s : State) (requestId : String) (soundPresent : Bool) : State :=
  if !s.accepts requestId then s
  else
    let next :=
      if soundPresent then .sound
      else if s.audioEvidence = .unknown then .silent else s.audioEvidence
    if next = s.audioEvidence then s
    else
      let s := { s with audioEvidence := next }
      match s.snapshot.noSpeech with
      | some noSpeech =>
        (s.setSnapshot ({ · with noSpeech := some { noSpeech with audio := next } })).publish
      | none => s

def onError (s : State) (requestId : String) (e : DictationError) : State :=
  if !s.accepts requestId then s
  else
    { ((s.settleRequest requestId).promotePartial requestId).endNoSpeechTracking.setSnapshot
        ({ · with
          phase := .error
          requestId := none
          latest := []
          error := some e }) with desiredListening := false }.publish

end State

/-! ## The methods that call the adapter -/

inductive Call
  | startRecognition (requestId : String)
  | stopRecognition (requestId : String)
  | schedule (token : Nat)

/-- How a call of the adapter returns; a promise settles later. -/
inductive Returned
  | threw (e : Thrown)
  | done
  | promised

abbrev Ans : Call → Type := fun _ => Returned

abbrev Ctl (α : Type) : Type := Async Unit State Ans Empty String α

namespace Ctl

def issueStop (requestId : String) : Ctl Unit := do
  let s ← get
  if s.currentRequestId ≠ some requestId || s.stopIssued then return
  set { s with stopIssued := true }
  match ← Async.ask (R := Ans) (.stopRecognition requestId) with
  | .threw e => modify (·.failStop requestId e)
  | _ => return

def startResolved (requestId : String) : Ctl Unit := do
  let s ← get
  if s.currentRequestId ≠ some requestId then return
  let s := { s with requestStartResolved := true }
  set s
  if s.snapshot.phase = .stopping then issueStop requestId
  else if s.snapshot.phase = .starting then
    let s := s.setSnapshot ({ · with phase := .listening })
    set (if s.noTextTimer = none && !s.noTextElapsed then s.armNoTextTimer else s).publish

/-- `requestId` is what `createRequestId` returns. -/
def beginTurn (requestId : String) : Ctl Unit := do
  let s ← get
  if requestId = "" || s.usedRequestIds.contains requestId then
    throw "Dictation request ids must be non-empty and unique."
  set (s.turnBegun requestId)
  match ← Async.ask (R := Ans) (.startRecognition requestId) with
  | .threw e => modify (·.failStart requestId e)
  | .done => startResolved requestId
  | .promised => return

def start (requestId : String) : Ctl Unit := do
  let s ← get
  if s.isActive || !s.foreground || s.configuredTargetId.isNone then return
  set s.freshRun
  beginTurn requestId
  modify (·.publish)

/-- What `stop` does after `stopListening`. -/
def stopTurn (s : State) : Option String → Ctl Unit
  | none =>
    set (s.setSnapshot ({ · with phase := .completed, requestId := none, latest := [] })).publish
  | some requestId => do
    set (s.setSnapshot ({ · with phase := .stopping })).publish
    if s.requestStartResolved then issueStop requestId

def stop : Ctl Unit := do
  let s ← get
  if !s.isActive then return
  stopTurn s.stopListening s.currentRequestId

def scheduleNextTurn : Ctl Unit := do
  let s ← get
  if !s.desiredListening || s.pendingRestart.isSome then return
  let token := s.restartToken + 1
  set { s with restartToken := token, pendingRestart := some ⟨token, false⟩ }
  match ← Async.ask (R := Ans) (.schedule token) with
  | .threw e => modify (·.failSchedule token e)
  | _ => modify (·.scheduled token)

/-- The callback of `schedule`. -/
def restart (token : Nat) (requestId : String) : Ctl Unit := do
  let s ← get
  if s.pendingRestart.map (·.token) ≠ some token then return
  let s := { s with pendingRestart := none }
  set s
  if !s.desiredListening || s.snapshot.phase ≠ .listening || s.currentRequestId.isSome then return
  beginTurn requestId
  modify (·.publish)

/-- What follows the end of a turn. -/
def goOn (s : State) : Ctl Unit := do
  set s.turnOver
  if s.desiredListening then scheduleNextTurn

variable (noTextRestartLimit : Nat)

def onRecoverableEnd (requestId : String) (reason : DictationRecoverableEnd) : Ctl Unit := do
  let s ← get
  if !s.accepts requestId then return
  goOn (s.ended noTextRestartLimit requestId reason)

def onRecognizedSegment (requestId : String) (text : Text) : Ctl Unit := do
  let s ← get
  if !s.accepts requestId then return
  let segment := coveringSegment (Js.trim text) (Js.trim s.snapshot.latest)
  if segment = [] then onRecoverableEnd noTextRestartLimit requestId .noMatch
  else goOn (s.recognized requestId segment)

end Ctl

/-! ## The system -/

/-- Calls, callbacks of the adapter, promises that settle, restarts and timers that fire. -/
inductive Input
  | setTarget (targetId : Option String)
  | setForeground (foreground : Bool)
  | start (requestId : String)
  | stop
  | interrupt (reason : DictationInterruptReason)
  | cancel
  | onPartial (requestId : String) (text : Text)
  | onAudioLevel (requestId : String) (soundPresent : Bool)
  | onRecognizedSegment (requestId : String) (text : Text)
  | onRecoverableEnd (requestId : String) (reason : DictationRecoverableEnd)
  | onError (requestId : String) (e : DictationError)
  | startResolved (requestId : String)
  | startRejected (requestId : String) (e : Thrown)
  | stopRejected (requestId : String) (e : Thrown)
  | restart (token : Nat) (requestId : String)
  | noTextTimer (token : Nat)

def Input.body (noTextRestartLimit : Nat) : Input → Thread State Ans Empty
  | .setTarget targetId => Async.thread () (modify (·.setTarget targetId) : Ctl Unit)
  | .setForeground foreground => Async.thread () (modify (·.setForeground foreground) : Ctl Unit)
  | .start requestId => Async.thread () (Ctl.start requestId)
  | .stop => Async.thread () Ctl.stop
  | .interrupt reason => Async.thread () (modify (·.interrupt reason) : Ctl Unit)
  | .cancel => Async.thread () (modify (·.cancel) : Ctl Unit)
  | .onPartial requestId text => Async.thread () (modify (·.onPartial requestId text) : Ctl Unit)
  | .onAudioLevel requestId soundPresent =>
    Async.thread () (modify (·.onAudioLevel requestId soundPresent) : Ctl Unit)
  | .onRecognizedSegment requestId text =>
    Async.thread () (Ctl.onRecognizedSegment noTextRestartLimit requestId text)
  | .onRecoverableEnd requestId reason =>
    Async.thread () (Ctl.onRecoverableEnd noTextRestartLimit requestId reason)
  | .onError requestId e => Async.thread () (modify (·.onError requestId e) : Ctl Unit)
  | .startResolved requestId => Async.thread () (Ctl.startResolved requestId)
  | .startRejected requestId e => Async.thread () (modify (·.failStart requestId e) : Ctl Unit)
  | .stopRejected requestId e => Async.thread () (modify (·.failStop requestId e) : Ctl Unit)
  | .restart token requestId => Async.thread () (Ctl.restart token requestId)
  | .noTextTimer token => Async.thread () (modify (·.noTextFired token) : Ctl Unit)

def controller (noTextRestartLimit : Nat) : System State Ans Empty Input where
  body := Input.body noTextRestartLimit
  loop := nofun
  ready := fun _ _ _ => true

def start : Coop.Config State Ans Empty := ⟨initial, []⟩

end PocketShell.Dictation
