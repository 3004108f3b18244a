import PocketShell.Coop.Late

/-!
# The forwards store

Everything the port panel shows of the connection it is subscribed to. No action looks at that
connection again after an await.

* `State`: the fields, and the connection of the handler that is subscribed.
* `Ctl`: the actions, with their awaits; the actions on one row are `run` with a request each.
* `forwards`: the store as a program whose owner is a connection.
-/

namespace PocketShell.HostStores.Forwards

open Coop (Async Thread Scoped)

/-! ## 1. The state -/

/-- `port` is what a scan knows of it. -/
structure DiscoveredPort (Port Intent : Type) where
  port : Port
  forwarded : Bool
  localPort : Option Nat
  intent : Option Intent
  name : Option String
  eligible : Bool
  lastError : Option String

variable {C Forward Port Health Spec Intent : Type}

structure State (C Forward Port Health Intent : Type) where
  /-- The connection that `unsub` ends the subscription of. -/
  subscribed : Option C := none
  states : List Forward := []
  discovered : List (DiscoveredPort Port Intent) := []
  status : Option Health := none
  annotated : Bool := false
  autoOn : Bool := false
  loading : Bool := false
  error : Option String := none
  pending : Option Nat := none

/-- What `Promise.all` of the four readings resolves with. -/
structure Readings (Forward Port Health Intent : Type) where
  live : List Forward
  ports : List (DiscoveredPort Port Intent)
  health : Option Health
  auto : Bool

namespace State

variable (s : State C Forward Port Health Intent)

def read (readings : Readings Forward Port Health Intent) : State C Forward Port Health Intent :=
  { s with states := readings.live, status := readings.health, autoOn := readings.auto }

/-- The ports of the one-shot scan: no annotations exist. -/
def scanned (ports : List Port) : State C Forward Port Health Intent :=
  { s with
    discovered := ports.map fun port => ⟨port, false, none, none, none, false, none⟩
    annotated := false }

/-- `loading` is left as it is. -/
def clear : State C Forward Port Health Intent where
  loading := s.loading

end State

/-! ## 2. The actions -/

/-- What the actions on one row ask the host for. -/
inductive RowRequest (Intent : Type)
  | setName (remotePort : Nat) (name : Option String)
  | setRemap (remotePort localPort : Nat)
  | clearRemap (remotePort : Nat)
  | setIntent (remotePort : Nat) (intent : Option Intent)
  | togglePort (remotePort : Nat)

inductive Request (C Spec Intent : Type)
  | readings (connectionId : C)
  | scan (connectionId : C)
  | isAutoEnabled (connectionId : C)
  | startAuto (connectionId : C) (configForwards : List Spec)
  | stopAuto (connectionId : C)
  | refresh (connectionId : C)
  | addManual (connectionId : C) (spec : Spec)
  | remove (connectionId : C) (key : String)
  | row (connectionId : C) (request : RowRequest Intent)

/-- A rejection is known by its `errorMessage`. -/
abbrev Ans (C Forward Port Health Spec Intent : Type) : Request C Spec Intent → Type
  | .readings _ => Except String (Readings Forward Port Health Intent)
  | .scan _ => Except String (List Port)
  | .isAutoEnabled _ => Except String Bool
  | .startAuto .. => Except String Bool
  | .stopAuto _ => Except String Bool
  | .refresh _ => Except String Bool
  | .addManual .. => Except String Bool
  | .remove .. => Except String Bool
  | .row .. => Except String Bool

abbrev Ctl (C Forward Port Health Spec Intent : Type) (α : Type) : Type :=
  Async Unit (State C Forward Port Health Intent)
    (Ans C Forward Port Health Spec Intent) Empty String α

namespace Ctl

def ask (request : Request C Spec Intent) :
    Ctl C Forward Port Health Spec Intent (Ans C Forward Port Health Spec Intent request) :=
  Async.ask request

def orThrow {α : Type} : Except String α → Ctl C Forward Port Health Spec Intent α
  | .ok a => pure a
  | .error message => throw message

/-- The error slot of the panel. -/
def failed (message : String) : Ctl C Forward Port Health Spec Intent Unit :=
  modify fun s => { s with error := some message }

/-- The `try` block of `sync`, and its `catch`. -/
def reread (connectionId : C) : Ctl C Forward Port Health Spec Intent Unit :=
  tryCatch
    (do
      let readings ← orThrow (← ask (.readings connectionId))
      modify (·.read readings)
      if readings.ports ≠ [] ∨ readings.health ≠ none then
        modify fun s => { s with discovered := readings.ports, annotated := true }
      else
        let ports ← orThrow (← ask (.scan connectionId))
        modify (·.scanned ports)
      modify fun s => { s with error := none })
    failed

/-- Re-read everything the panel shows. `quiet` skips the spinner. -/
def sync (connectionId : C) (quiet : Bool) : Ctl C Forward Port Health Spec Intent Unit := do
  if !quiet then modify fun s => { s with loading := true }
  Async.andFinally (reread connectionId)
    (do if !quiet then modify fun s => { s with loading := false })

/-- Bring the panel up for a connection. -/
def init (connectionId : C) (configForwards : List Spec) :
    Ctl C Forward Port Health Spec Intent Unit :=
  tryCatch
    (do
      let auto ← orThrow (← ask (.isAutoEnabled connectionId))
      modify fun s => { s with autoOn := auto }
      if auto then
        let _ ← orThrow (← ask (.startAuto connectionId configForwards))
      sync connectionId false)
    failed

/-- The Scan button. -/
def scan (connectionId : C) : Ctl C Forward Port Health Spec Intent Unit := do
  modify fun s => { s with loading := true }
  Async.andFinally
    (tryCatch
      (do
        let _ ← orThrow (← ask (.refresh connectionId))
        sync connectionId true)
      failed)
    (modify fun s => { s with loading := false })

def toggleAuto (connectionId : C) (configForwards : List Spec) :
    Ctl C Forward Port Health Spec Intent Unit :=
  tryCatch
    (do
      let s ← get
      if s.autoOn then
        let _ ← orThrow (← ask (.stopAuto connectionId))
        modify fun s => { s with autoOn := false }
      else
        let _ ← orThrow (← ask (.startAuto connectionId configForwards))
        modify fun s => { s with autoOn := true }
      sync connectionId false)
    failed

def addManual (connectionId : C) (spec : Spec) : Ctl C Forward Port Health Spec Intent Bool :=
  tryCatch
    (do
      let ok ← orThrow (← ask (.addManual connectionId spec))
      sync connectionId false
      return ok)
    fun message => do
      failed message
      return false

def remove (connectionId : C) (key : String) : Ctl C Forward Port Health Spec Intent Unit :=
  tryCatch
    (do
      let _ ← orThrow (← ask (.remove connectionId key))
      sync connectionId false)
    failed

/-- Mark a row busy, run its mutation, then re-read. -/
def run (connectionId : C) (remotePort : Nat) (request : RowRequest Intent) :
    Ctl C Forward Port Health Spec Intent Unit := do
  modify fun s => { s with pending := some remotePort }
  Async.andFinally
    (tryCatch
      (do
        let _ ← orThrow (← ask (.row connectionId request))
        sync connectionId true)
      failed)
    (modify fun s => { s with pending := none })

/-- The blanks at both ends of a name are not part of it, and a blank name deletes it. -/
def rename (trim : String → String) (connectionId : C) (remotePort : Nat) (name : Option String) :
    Ctl C Forward Port Health Spec Intent Unit :=
  run connectionId remotePort (.setName remotePort ((name.map trim).filter (· ≠ "")))

def remap (connectionId : C) (remotePort localPort : Nat) :
    Ctl C Forward Port Health Spec Intent Unit :=
  run connectionId remotePort (.setRemap remotePort localPort)

def clearRemap (connectionId : C) (remotePort : Nat) :
    Ctl C Forward Port Health Spec Intent Unit :=
  run connectionId remotePort (.clearRemap remotePort)

def setIntent (connectionId : C) (remotePort : Nat) (intent : Option Intent) :
    Ctl C Forward Port Health Spec Intent Unit :=
  run connectionId remotePort (.setIntent remotePort intent)

def togglePort (connectionId : C) (remotePort : Nat) :
    Ctl C Forward Port Health Spec Intent Unit :=
  run connectionId remotePort (.togglePort remotePort)

/-- The handler of `subscribe`: the engine pushed the states of a connection. -/
def pushed [DecidableEq C] (connectionId : C) (states : List Forward) :
    Ctl C Forward Port Health Spec Intent Unit := do
  let s ← get
  if s.subscribed = some connectionId then
    modify fun s => { s with states }
    sync connectionId true

end Ctl

/-! ## 3. The store -/

inductive Call (C Forward Spec Intent : Type)
  | subscribe (connectionId : C)
  | pushed (connectionId : C) (states : List Forward)
  | sync (connectionId : C) (quiet : Bool)
  | init (connectionId : C) (configForwards : List Spec)
  | scan (connectionId : C)
  | toggleAuto (connectionId : C) (configForwards : List Spec)
  | addManual (connectionId : C) (spec : Spec)
  | remove (connectionId : C) (key : String)
  | rename (connectionId : C) (remotePort : Nat) (name : Option String)
  | remap (connectionId : C) (remotePort localPort : Nat)
  | clearRemap (connectionId : C) (remotePort : Nat)
  | setIntent (connectionId : C) (remotePort : Nat) (intent : Option Intent)
  | togglePort (connectionId : C) (remotePort : Nat)
  | clear

variable [DecidableEq C] (trim : String → String)

def Call.body : Call C Forward Spec Intent → Thread (State C Forward Port Health Intent)
    (Ans C Forward Port Health Spec Intent) Empty
  | .subscribe connectionId => Async.thread () (modify (fun s =>
      { s with subscribed := some connectionId }) : Ctl C Forward Port Health Spec Intent Unit)
  | .pushed connectionId states => Async.thread () (Ctl.pushed connectionId states)
  | .sync connectionId quiet => Async.thread () (Ctl.sync connectionId quiet)
  | .init connectionId configForwards => Async.thread () (Ctl.init connectionId configForwards)
  | .scan connectionId => Async.thread () (Ctl.scan connectionId)
  | .toggleAuto connectionId configForwards =>
    Async.thread () (Ctl.toggleAuto connectionId configForwards)
  | .addManual connectionId spec => Async.thread () (Ctl.addManual connectionId spec)
  | .remove connectionId key => Async.thread () (Ctl.remove connectionId key)
  | .rename connectionId remotePort name =>
    Async.thread () (Ctl.rename trim connectionId remotePort name)
  | .remap connectionId remotePort localPort =>
    Async.thread () (Ctl.remap connectionId remotePort localPort)
  | .clearRemap connectionId remotePort => Async.thread () (Ctl.clearRemap connectionId remotePort)
  | .setIntent connectionId remotePort intent =>
    Async.thread () (Ctl.setIntent connectionId remotePort intent)
  | .togglePort connectionId remotePort => Async.thread () (Ctl.togglePort connectionId remotePort)
  | .clear => Async.thread () (modify State.clear : Ctl C Forward Port Health Spec Intent Unit)

omit [DecidableEq C] in
def Call.owner : Call C Forward Spec Intent → Option C
  | .subscribe connectionId => some connectionId
  | .pushed connectionId _ => some connectionId
  | .sync connectionId _ => some connectionId
  | .init connectionId _ => some connectionId
  | .scan connectionId => some connectionId
  | .toggleAuto connectionId _ => some connectionId
  | .addManual connectionId _ => some connectionId
  | .remove connectionId _ => some connectionId
  | .rename connectionId _ _ => some connectionId
  | .remap connectionId _ _ => some connectionId
  | .clearRemap connectionId _ => some connectionId
  | .setIntent connectionId _ _ => some connectionId
  | .togglePort connectionId _ => some connectionId
  | .clear => none

def forwards : Scoped (State C Forward Port Health Intent)
    (Ans C Forward Port Health Spec Intent) Empty
    (Call C Forward Spec Intent) C where
  body := Call.body trim
  owner := Call.owner
  scope := State.subscribed

end PocketShell.HostStores.Forwards
