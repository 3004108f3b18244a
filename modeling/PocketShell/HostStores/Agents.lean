import PocketShell.Coop.Late

/-!
# The agents store

Three parts that are loaded for a connection each: the provider usage, the agent profiles, and the
engines with the names on the host's path.

* `Usage`: no look at the connection after the await, so `usageFor` stands beside the fields.
* `Profiles`: a stale answer is told by the connection.
* `Kinds`: a stale answer is told by the connection and the number of the request.
-/

namespace PocketShell.HostStores.Agents

open Coop (Async Thread Scoped)

variable {C Row Profile : Type}

/-! ## 1. Usage -/

namespace Usage

structure State (C Row : Type) where
  /-- The connection of the last load. The source does not have this field. -/
  usageFor : Option C := none
  usage : List Row := []
  loading : Bool := false
  usageError : Option String := none

inductive Request (C : Type)
  | usage (connectionId : C)

/-- A rejection is known by its `errorMessage`. -/
abbrev Ans (C Row : Type) : Request C → Type
  | .usage _ => Except String (List Row)

abbrev Ctl (C Row : Type) (α : Type) : Type :=
  Async Unit (State C Row) (Ans C Row) Empty String α

/-- `message || fallback` -/
def orElse (message fallback : String) : String := if message = "" then fallback else message

/-- Never rejects, and a failure does not blank the rows. -/
def loadUsage (connectionId : C) : Ctl C Row Unit := do
  modify fun s => { s with usageFor := some connectionId, loading := true, usageError := none }
  let answer ← Async.ask (R := Ans C Row) (.usage connectionId)
  match answer with
  | .ok rows => modify fun s => { s with usage := rows }
  | .error message =>
    modify fun s => { s with
      usageError := some (orElse message "Could not read this host’s provider usage.") }
  modify fun s => { s with loading := false }

/-- The calls are the connections that are loaded. -/
def usage : Scoped (State C Row) (Ans C Row) Empty C C where
  body connectionId := Async.thread () (loadUsage connectionId)
  owner := some
  scope := State.usageFor

end Usage

/-! ## 2. Profiles -/

namespace Profiles

structure State (C Profile : Type) where
  profilesFor : Option C := none
  profiles : List Profile := []
  profilesLoading : Bool := false
  profilesError : Option String := none

inductive Request (C : Type)
  | profiles (connectionId : C)

abbrev Ans (C Row : Type) : Request C → Type
  | .profiles _ => Except String (List Row)

abbrev Ctl (C Row Profile : Type) (α : Type) : Type :=
  Async Unit (State C Profile) (Ans C Row) Empty String α

def loadProfiles [DecidableEq C] (parseProfileRows : List Row → List Profile) (connectionId : C) :
    Ctl C Row Profile Unit := do
  modify fun s => { s with
    profilesLoading := true
    profilesError := none
    profilesFor := some connectionId }
  Async.andFinally
    (do
      let answer ← Async.ask (R := Ans C Row) (.profiles connectionId)
      let s ← get
      if s.profilesFor ≠ some connectionId then return
      match answer with
      | .ok rows => modify fun s => { s with profiles := parseProfileRows rows }
      | .error message =>
        modify fun s => { s with
          profiles := []
          profilesError :=
            some (Usage.orElse message "Could not list this host’s agent profiles.") })
    (do
      let s ← get
      if s.profilesFor = some connectionId then
        modify fun s => { s with profilesLoading := false })

def profiles [DecidableEq C] (parseProfileRows : List Row → List Profile) :
    Scoped (State C Profile) (Ans C Row) Empty C C where
  body connectionId := Async.thread () (loadProfiles parseProfileRows connectionId)
  owner := some
  scope := State.profilesFor

end Profiles

/-! ## 3. Kinds -/

namespace Kinds

structure State (C : Type) where
  agentKindsFor : Option C := none
  agentKindsRequestGeneration : Nat := 0
  agentKinds : Option (List String) := none
  agentKindsResolved : Bool := false
  agentBinaries : Option (List String) := none
  agentKindsProbing : Bool := false

inductive Request (C : Type)
  | kindsAndBinaries (connectionId : C)

/-- Each of the two is none where it was rejected or is no list. -/
abbrev Ans (C : Type) : Request C → Type
  | .kindsAndBinaries _ => Option (List String) × Option (List String)

abbrev Ctl (C : Type) (α : Type) : Type := Async Unit (State C) (Ans C) Empty String α

namespace State

/-- Each open is a new query. -/
def asked (s : State C) (connectionId : C) : State C where
  agentKindsRequestGeneration := s.agentKindsRequestGeneration + 1
  agentKindsProbing := true
  agentKindsFor := some connectionId

def isCurrent [DecidableEq C] (s : State C) (connectionId : C) (requestGeneration : Nat) : Bool :=
  s.agentKindsFor = some connectionId && requestGeneration = s.agentKindsRequestGeneration

end State

def loadAgentKinds [DecidableEq C] (connectionId : C) : Ctl C Unit := do
  modify (·.asked connectionId)
  let requestGeneration := (← get).agentKindsRequestGeneration
  Async.andFinally
    (do
      let (kinds, binaries) ← Async.ask (R := Ans C) (.kindsAndBinaries connectionId)
      let s ← get
      if !s.isCurrent connectionId requestGeneration then return
      modify fun s => { s with agentKinds := kinds, agentBinaries := binaries })
    (do
      let s ← get
      if s.isCurrent connectionId requestGeneration then
        modify fun s => { s with agentKindsProbing := false, agentKindsResolved := true })

def kinds [DecidableEq C] : Scoped (State C) (Ans C) Empty C C where
  body connectionId := Async.thread () (loadAgentKinds connectionId)
  owner := some
  scope := State.agentKindsFor

end Kinds

end PocketShell.HostStores.Agents
