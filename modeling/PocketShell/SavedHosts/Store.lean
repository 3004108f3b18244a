import PocketShell.SavedHosts.Document

/-!
# The saved-host store

`SavedHostStore`: the hosts a client keeps, changed by operations that validate the
whole document before they write it. `written` tells that the store has written; no
operation reads it.

* `commit`: the one place that writes.
* `Call.run`: what an operation returns or throws, and the store it leaves.
* `Reached`: the stores that the operations lead to.
-/

namespace PocketShell.SavedHosts

open Js (Text Json JsInteger JSON.parse JSON.stringify ascii property assign keys)

structure Store (N : Type) where
  document : SavedHostDocument N
  storage : Option Text
  written : Bool

inductive Thrown
  /-- A `SavedHostStoreError`. -/
  | store (message : String)
  /-- `Imported hosts contain conflicting duplicate ID <id>; neither record was overwritten.` -/
  | duplicate (id : Text)
  /-- `Imported host <id> conflicts with an existing saved host; neither record was overwritten.` -/
  | conflict (id : Text)
  /-- What `setItem` throws. -/
  | storage
deriving DecidableEq

variable {N : Type} [JsInteger N]

abbrev Op (N : Type) (α : Type) : Type := ExceptT Thrown (StateM (Store N)) α

/-- Throw what a check throws. -/
def checked {α : Type} (result : Except String α) : Op N α :=
  match result with
  | .ok a => pure a
  | .error message => throw (.store message)

def SavedHostDocument.lists (document : SavedHostDocument N) (id : Text) : Bool :=
  document.hosts.any (·.id = id)

def sameHost (left right : SavedHost N) : Bool :=
  left.id = right.id && left.name = right.name && left.hostname = right.hostname &&
    left.port = right.port && left.username = right.username &&
    JSON.stringify left.credentialRef = JSON.stringify right.credentialRef &&
    JSON.stringify ((left.gateway.map GatewayTransportTarget.toJson).getD .null : Json N) =
      JSON.stringify ((right.gateway.map GatewayTransportTarget.toJson).getD .null : Json N)

section

variable (env : Env N)

/-- The document that `load` takes from the storage. -/
def loadFrom (storage : Option Text) : Except String (SavedHostDocument N) :=
  match storage with
  | none => .ok emptyDocument
  | some raw =>
    match (JSON.parse raw : Option (Json N)) with
    | none => .error "Saved hosts data contains malformed JSON; the stored data was left unchanged."
    | some parsed => validateDocument env parsed

def load : Op N Unit := do
  let s ← get
  let document ← checked (loadFrom env s.storage)
  modify fun s => { s with document := document }

/-- `accepts` tells whether `setItem` writes; it throws otherwise. -/
def commit (accepts : Bool) (next : SavedHostDocument N) : Op N Unit := do
  let validated ← checked (validateDocument env next.toJson)
  if accepts then
    modify fun s => { s with storage := some (JSON.stringify validated.toJson), written := true }
    modify fun s => { s with document := validated }
  else throw .storage

/-- The document with a new host; the first host becomes the default. -/
def SavedHostDocument.added (document : SavedHostDocument N) (host : SavedHost N) : SavedHostDocument N :=
  let next := { document with hosts := document.hosts ++ [host] }
  if next.defaultHostId = none && !next.defaultHostExplicitlySet then
    { next with defaultHostId := some host.id, defaultHostExplicitlySet := true }
  else next

/-- `id` is what `createId` returns. -/
def add (accepts : Bool) (input : SavedHostInput N) (id : Text) : Op N Unit := do
  let fields ← checked (validateSavedHostInput env input)
  let s ← get
  if id = [] || s.document.lists id then throw (.store "A stable host ID could not be allocated.")
  else commit env accepts (s.document.added { fields with id := id })

/-- Where the host is in the list. -/
def SavedHostDocument.indexOf (document : SavedHostDocument N) (id : Text) : Except String Nat :=
  orThrow (document.hosts.findIdx? (·.id = id)) "The selected host no longer exists."

def update (accepts : Bool) (id : Text) (input : SavedHostInput N) : Op N Unit := do
  let s ← get
  let index ← checked (s.document.indexOf id)
  let fields ← checked (validateSavedHostInput env input)
  commit env accepts
    { s.document with hosts := s.document.hosts.set index { fields with id := id } }

def SavedHostDocument.deleted (document : SavedHostDocument N) (id : Text) : SavedHostDocument N :=
  let deletingDefault : Bool := document.defaultHostId = some id
  { document with
    hosts := document.hosts.filter (·.id ≠ id)
    selectedHostId := if document.selectedHostId = some id then none else document.selectedHostId
    defaultHostId := if deletingDefault then none else document.defaultHostId
    defaultHostExplicitlySet := deletingDefault || document.defaultHostExplicitlySet
    importTombstones :=
      if document.importedHostIds.contains id then document.importTombstones ++ [id]
      else document.importTombstones }

def delete (accepts : Bool) (id : Text) : Op N Unit := do
  let s ← get
  if s.document.lists id then commit env accepts (s.document.deleted id)

def select (accepts : Bool) (id : Option Text) : Op N Unit := do
  let s ← get
  if !id.all s.document.lists then throw (.store "The selected host no longer exists.")
  else commit env accepts { s.document with selectedHostId := id }

def setDefault (accepts : Bool) (id : Option Text) : Op N Unit := do
  let s ← get
  if !id.all s.document.lists then throw (.store "The default host no longer exists.")
  else commit env accepts { s.document with defaultHostId := id, defaultHostExplicitlySet := true }

/-- The position a number names. -/
def SavedHostDocument.positionOf (document : SavedHostDocument N) (destinationIndex : N) :
    Except String Nat :=
  orThrow (((JsInteger.safe destinationIndex).filter fun i : Int =>
    0 ≤ i && i < document.hosts.length).map Int.toNat) "The requested host position is invalid."

def move (accepts : Bool) (id : Text) (destinationIndex : N) : Op N Unit := do
  let s ← get
  let sourceIndex ← checked (s.document.indexOf id)
  let destination ← checked (s.document.positionOf destinationIndex)
  let host ← checked (orThrow s.document.hosts[sourceIndex]? "The selected host no longer exists.")
  commit env accepts
    { s.document with hosts := (s.document.hosts.eraseIdx sourceIndex).insertIdx destination host }

/-! ## Imports -/

def SavedHostDocument.existingById (document : SavedHostDocument N) : List (Text × SavedHost N) :=
  document.hosts.foldl (fun m host => assign host.id host m) []

/-- The body of the loop over the imported hosts. -/
def admitHost (document : SavedHostDocument N) (incomingById : List (Text × SavedHost N))
    (candidate : SavedHost N) : Except Thrown (List (Text × SavedHost N)) :=
  if document.importTombstones.contains candidate.id then .ok incomingById
  else if (property candidate.id incomingById).any (!sameHost · candidate) then
    .error (.duplicate candidate.id)
  else if !document.importedHostIds.contains candidate.id &&
      (property candidate.id document.existingById).any (!sameHost · candidate) then
    .error (.conflict candidate.id)
  else .ok (assign candidate.id candidate incomingById)

def SavedHostDocument.imported (document : SavedHostDocument N) (incomingById : List (Text × SavedHost N))
    (defaultHostId : Option Text) : SavedHostDocument N :=
  let existingById := document.existingById
  let hostsById := incomingById.foldl
    (fun m p => assign p.1 ((property p.1 existingById).getD p.2) m) existingById
  let importedDefault := defaultHostId.filter (keys hostsById).contains
  let applyImportedDefault := !document.defaultHostExplicitlySet && importedDefault.isSome
  { document with
    hosts := hostsById.map Prod.snd
    selectedHostId := document.selectedHostId.or importedDefault
    defaultHostId := if applyImportedDefault then importedDefault else document.defaultHostId
    defaultHostExplicitlySet := document.defaultHostExplicitlySet || applyImportedDefault
    importedHostIds := document.importedHostIds ++
      (keys incomingById).filter fun id => !document.importedHostIds.contains id }

/-- The imported default is tombstoned, imported or there. -/
def SavedHostDocument.knows (document : SavedHostDocument N) (incomingById : List (Text × SavedHost N))
    (id : Text) : Bool :=
  document.importTombstones.contains id || (keys incomingById).contains id ||
    (keys document.existingById).contains id

def importHosts (accepts : Bool) (hosts : List (Json N)) (defaultHostId : Option Text) : Op N Unit := do
  let imported ← checked (hosts.mapM (validateHost env))
  let s ← get
  let incomingById ← (ExceptT.mk (pure (imported.foldlM (admitHost s.document) [])) : Op N _)
  if !defaultHostId.all (s.document.knows incomingById) then
    throw (.store "The imported default host is missing from the imported host list; nothing was written.")
  else commit env accepts (s.document.imported incomingById defaultHostId)

/-! ## Runs -/

inductive Call (N : Type)
  | load
  | add (input : SavedHostInput N) (id : Text)
  | update (id : Text) (input : SavedHostInput N)
  | delete (id : Text)
  | select (id : Option Text)
  | setDefault (id : Option Text)
  | move (id : Text) (destinationIndex : N)
  | importHosts (hosts : List (Json N)) (defaultHostId : Option Text)

def Call.op (accepts : Bool) : Call N → Op N Unit
  | .load => SavedHosts.load env
  | .add input id => SavedHosts.add env accepts input id
  | .update id input => SavedHosts.update env accepts id input
  | .delete id => SavedHosts.delete env accepts id
  | .select id => SavedHosts.select env accepts id
  | .setDefault id => SavedHosts.setDefault env accepts id
  | .move id destinationIndex => SavedHosts.move env accepts id destinationIndex
  | .importHosts hosts defaultHostId => SavedHosts.importHosts env accepts hosts defaultHostId

/-- What the call returns or throws, and the store it leaves. -/
def Call.run (accepts : Bool) (call : Call N) (s : Store N) : Except Thrown Unit × Store N :=
  (call.op env accepts).run s

/-- A store over a storage that may hold anything. -/
def fresh (storage : Option Text) : Store N := ⟨emptyDocument, storage, false⟩

inductive Reached (storage : Option Text) : Store N → Prop
  | fresh : Reached storage (fresh storage)
  | step {s : Store N} (call : Call N) (accepts : Bool) :
      Reached storage s → Reached storage (call.run env accepts s).2

end

end PocketShell.SavedHosts
