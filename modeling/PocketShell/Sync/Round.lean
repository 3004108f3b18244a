import PocketShell.Sync.Merge

/-!
# One sync round

`runSyncRound`: pull, auto-check, assemble, push, and again on a conflict. The effects
are their answers, one of each kind for every attempt.
-/

namespace PocketShell.Sync

open Js (Text JsNumber)

variable {N : Type} [JsNumber N]

def SYNC_ROUND_CONFLICT_RETRIES : Nat := 3

/-- How `pull` settles. -/
inductive SyncRoundSnapshot
  /-- It rejects; the text is what `describeError` makes of the reason. -/
  | rejected (message : String)
  /-- No snapshot. -/
  | other
  | absent
  | ok (version : Int) (plaintext : Text)

/-- How `push` settles. -/
inductive SyncRoundPushResult
  | rejected (message : String)
  | other
  | ok (version : Int)
  | conflict (currentVersion : Int)
  | error (message : String)

structure SyncRoundPulled (N : Type) where
  version : Option Int
  hosts : List (SyncHostEntry N)
  selectedAliases : List Text
  untickedAliases : List Text

inductive Stage
  | pull
  | push

inductive SyncRoundResult (N : Type)
  | synced (version : Int) (selectedAliases untickedAliases : List Text)
      (hosts : List (SyncHostEntry N)) (attempts : Nat)
  | invalidPayload (reason : InvalidReason) (index : Option Nat)
  | emptySelection
  | error (stage : Stage) (message : String)
  | conflictLimit (version : Int) (attempts : Nat)
  /-- The observer threw, so the round rejects. -/
  | rejected (e : String)

/-- What the effects answer in one attempt. -/
structure Answers where
  pull : SyncRoundSnapshot
  /-- What the observer throws, if it does. -/
  onPulled : Option String
  push : SyncRoundPushResult

/-- What a round does. -/
inductive Event (N : Type)
  | pulled (answer : SyncRoundSnapshot)
  | observed (pulled : SyncRoundPulled N)
  | pushed (baseVersion : Option Int) (plaintext : Text) (answer : SyncRoundPushResult)

/-- A number that is a version. -/
def isVersion (version : Int) : Bool := 0 ≤ version && version ≤ 9007199254740991

inductive Attempt (N : Type)
  | done (result : SyncRoundResult N)
  /-- The push conflicted. -/
  | again (selection : SyncSelectionState)

/-- The account that a snapshot shows: its version and its hosts. -/
def accountOf (snapshot : SyncRoundSnapshot) :
    Except (SyncRoundResult N) (Option Int × List (SyncHostEntry N)) :=
  match snapshot with
  | .rejected message => .error (.error .pull message)
  | .other => .error (.error .pull "The sync service returned an invalid snapshot.")
  | .absent => .ok (none, [])
  | .ok version plaintext =>
    if !isVersion version then .error (.error .pull "The sync service returned an invalid snapshot.")
    else
      match parseSyncPayloadResult plaintext with
      | .invalid reason index => .error (.invalidPayload reason index)
      | .ok hosts => .ok (some version, hosts)

/-- What the answer of `push` leads to. -/
def afterPush (attempts : Nat) (selection : SyncSelectionState) (hosts : List (SyncHostEntry N))
    (pushed : SyncRoundPushResult) : Attempt N :=
  match pushed with
  | .rejected message => .done (.error .push message)
  | .other => .done (.error .push "The sync service returned an invalid response.")
  | .error message => .done (.error .push message)
  | .ok version =>
    if !isVersion version then .done (.error .push "The sync service returned an invalid response.")
    else
      .done (.synced version selection.checked (selection.unticked.filter (hasName hosts)) hosts attempts)
  | .conflict currentVersion =>
    if !isVersion currentVersion then
      .done (.error .push "The sync service returned an invalid response.")
    else if SYNC_ROUND_CONFLICT_RETRIES < attempts then .done (.conflictLimit currentVersion attempts)
    else .again selection

/-- What follows a pull that parsed. -/
def afterPull (localHosts : List (LocalHost N)) (attempts : Nat) (answers : Answers)
    (version : Option Int) (remoteHosts : List (SyncHostEntry N)) (selection : SyncSelectionState) :
    Attempt N × List (Event N) :=
  let observed := .observed ⟨version, remoteHosts, selection.checked, selection.unticked⟩
  match answers.onPulled with
  | some e => (.done (.rejected e), [observed])
  | none =>
    let hosts := assembleSyncSet (localHosts.map (·.toSyncHostEntry)) remoteHosts selection.checked
    if hosts = [] then (.done .emptySelection, [observed])
    else
      (afterPush attempts selection hosts answers.push,
        [observed, .pushed version (serializeSyncPayload hosts) answers.push])

def attempt (localHosts : List (LocalHost N)) (attempts : Nat) (selection : SyncSelectionState)
    (answers : Answers) : Attempt N × List (Event N) :=
  match accountOf answers.pull with
  | .error result => (.done result, [.pulled answers.pull])
  | .ok (version, remoteHosts) =>
    let r := afterPull localHosts attempts answers version remoteHosts
      (applyAccountToSelection remoteHosts selection)
    (r.1, .pulled answers.pull :: r.2)

/-- The loop of `runSyncRound`, with `left` attempts left. -/
def attemptsFrom (localHosts : List (LocalHost N)) (effects : Nat → Answers) :
    (left attempts : Nat) → SyncSelectionState → SyncRoundResult N × List (Event N)
  | 0, _, _ => (.conflictLimit 0 (SYNC_ROUND_CONFLICT_RETRIES + 1), [])
  | left + 1, attempts, selection =>
    match attempt localHosts attempts selection (effects attempts) with
    | (.done result, events) => (result, events)
    | (.again selection, events) =>
      let r := attemptsFrom localHosts effects left (attempts + 1) selection
      (r.1, events ++ r.2)

def runSyncRound (localHosts : List (LocalHost N)) (selection : SyncSelectionState)
    (effects : Nat → Answers) : SyncRoundResult N × List (Event N) :=
  attemptsFrom localHosts effects (SYNC_ROUND_CONFLICT_RETRIES + 1) 1
    ⟨unique selection.checked, unique selection.unticked⟩

end PocketShell.Sync
