import PocketShell.Workspaces.Preferences

/-!
# One host's workspace roots

`HostWorkspaceRoots` sequences the registered roots of the selected host over the host
CLI. Its async calls run alone between their awaits; what is parked at an await is data:
the reply it waits for, or the outcome it goes on with, and the frames of the calls that
await it.

* `State.list`, `State.restorePrevious`, `State.mutate`, `State.resume`: what a call does
  up to its next await.
* `App.step`: a call, a reply or a continuation, in any order; a new process over the
  same storage; damage to what is stored.
* `Event`: what was sent to the host, what the changes returned and what was seeded.
-/

namespace PocketShell.Workspaces

open Js (Text JsInteger ascii naturalText)

inductive WorkspaceRootsStatus
  | idle
  | loading
  | ready
  | error

structure WorkspaceRootsState where
  hostIdentity : Option Text
  status : WorkspaceRootsStatus
  /-- The host's registrations; `none` until a listing for this host succeeded. -/
  memberships : Option (List WorkspaceMembership)
  error : Option Text
  mutating : Bool
  mutationError : Option Text
  notice : Option Text
  rootOrder : List Text

/-- Roots a previous client kept for this host. -/
structure PreviousWorkspaceRoots where
  roots : List Text
  rootOrder : List Text

structure WorkspaceRootsSelection where
  hostIdentity : Text
  previousRoots : Option PreviousWorkspaceRoots

/-- The registration change holding the lock. `started` is the generation it began with,
which no other change began with. -/
structure Operation where
  epoch : Nat
  started : Nat
  deriving DecidableEq

inductive Change
  | add (path : Text)
  | remove (path : Text)
  deriving DecidableEq

/-- Who sends a change. -/
inductive Origin
  | user
  | restore
  deriving DecidableEq

inductive Event
  | listed (host : Text)
  | sent (host : Text) (change : Change) (origin : Origin)
  /-- What `mutate` returned. -/
  | returned (host : Text) (change : Change) (success : Bool)
  /-- An order was seeded, over this stored document. -/
  | seeded (host : Text) (before : Option Text)
  deriving DecidableEq

def emptyState (hostIdentity : Option Text) (rootOrder : List Text) : WorkspaceRootsState :=
  ⟨hostIdentity, .idle, none, none, false, none, none, rootOrder⟩

/-- The object with what it was constructed with, the storage and what happened. -/
structure State where
  state : WorkspaceRootsState
  selection : Option WorkspaceRootsSelection
  epoch : Nat
  generation : Nat
  operation : Option Operation
  listSequence : Nat
  restoreDue : Bool
  relistAfterOperation : Bool
  restoreErrorShown : Bool
  order : WorkspaceRootOrderStore
  /-- `restored.loadError` -/
  loadError : Option Text
  storage : Storage
  log : List Event

/-- What an await outside `list` and the body of a change goes on with. -/
inductive Frame
  /-- `settleSuperseded` in the body of a change, in its `try` or already in its `catch`. -/
  | settling (selection : WorkspaceRootsSelection) (change : Option Change) (caught : Bool)
  /-- The body of a change: next is the `finally` of `locked`. -/
  | finishing (operation : Operation)
  /-- `flushRelist` in that `finally`: next is the outcome of the body. -/
  | resuming (outcome : Except Text Unit)

inductive Parked
  /-- `list` awaits its listing. -/
  | listing (selection : WorkspaceRootsSelection) (epoch generation sequence : Nat) (frames : List Frame)
  /-- The loop of a restore awaits the reply to one root, with `rest` still to be sent;
  `frames` are below its `locked`. -/
  | restoring (selection : WorkspaceRootsSelection) (operation : Operation) (rest : List Text)
      (missing : Nat) (latest : List WorkspaceMembership) (frames : List Frame)
  /-- The body of `mutate` awaits its reply. -/
  | changing (selection : WorkspaceRootsSelection) (operation : Operation) (change : Change)
      (success : Text)
  /-- An async call has its outcome: its caller goes on. -/
  | returning (outcome : Except Text Unit) (frames : List Frame)

section

variable (N : Type) [JsInteger N] (refuses : Refusals)

namespace State

variable (s : State)

/-- What was parked, beside the state it leaves. -/
abbrev Ran : Type := State × Option Parked

def addLog (event : Event) : State := { s with log := s.log ++ [event] }

def busy : Bool := s.operation.any (·.epoch = s.epoch)

/-- `return`, or an error that nothing catches, to the frames of the callers. -/
def answer (outcome : Except Text Unit) : List Frame → Ran
  | [] => (s, none)
  | frames => (s, some (.returning outcome frames))

/-! ## Listings -/

/-- `list` up to its await. -/
def list (frames : List Frame) : Ran :=
  match s.selection with
  | none => s.answer (.ok ()) frames
  | some selection =>
    let s' := { s with
      listSequence := s.listSequence + 1
      state := { s.state with status := .loading, error := none } }
    (s'.addLog (.listed selection.hostIdentity),
      some (.listing selection s.epoch s.generation (s.listSequence + 1) frames))

def refresh : Ran :=
  match s.selection with
  | none => (s, none)
  | some _ => { s with restoreDue := true }.list []

/-- `flushRelist`, awaited in the `finally` of a change. -/
def flushRelist (frames : List Frame) : Ran :=
  if !s.relistAfterOperation || s.busy then s.answer (.ok ()) frames
  else { s with relistAfterOperation := false }.list frames

variable (selection : WorkspaceRootsSelection)

/-- A reply that arrived after its epoch ended. -/
def settleSuperseded (frames : List Frame) : Ran :=
  if s.selection.map (·.hostIdentity) ≠ some selection.hostIdentity then s.answer (.ok ()) frames
  else if s.busy then { s with relistAfterOperation := true }.answer (.ok ()) frames
  else s.list frames

/-! ## Changes -/

/-- `locked` up to its body, with the operation it puts. -/
def locked : Operation × State :=
  let operation : Operation := ⟨s.epoch, s.generation + 1⟩
  (operation, { s with
    operation := some operation
    generation := s.generation + 1
    state := { s.state with mutating := true } })

/-- The `finally` of `locked`. -/
def finish (operation : Operation) (outcome : Except Text Unit) (frames : List Frame) : Ran :=
  let s' := { s with
    generation := s.generation + 1
    operation := if s.operation = some operation then none else s.operation }
  if operation.epoch = s.epoch then
    { s' with state := { s.state with mutating := false } }.flushRelist (.resuming outcome :: frames)
  else s'.answer outcome frames

/-- Send the next root of a restore. -/
def sendRoot (operation : Operation) (root : Text)
    (rest : List Text) (missing : Nat) (latest : List WorkspaceMembership) (frames : List Frame) : Ran :=
  (s.addLog (.sent selection.hostIdentity (.add root) .restore),
    some (.restoring selection operation rest missing latest frames))

/-- The order of the previous client, for a host that has none. -/
def seedOrder (previous : PreviousWorkspaceRoots) :
    Except Text State := do
  match ← s.order.seed N refuses s.storage selection.hostIdentity ⟨previous.rootOrder⟩ with
  | none => return s
  | some (order, storage) =>
    let rootOrder := (hostWorkspacePreferences order.document selection.hostIdentity).rootOrder
    let s' := { s with order := order, storage := storage, state := { s.state with rootOrder := rootOrder } }
    return s'.addLog (.seeded selection.hostIdentity s.storage.order)

/-- The previous roots the host does not have. -/
def missingRoots (previous : PreviousWorkspaceRoots) (memberships : List WorkspaceMembership) :
    List Text :=
  let home := homeFromWorkspaceMemberships memberships
  previous.roots.filter fun root => !(memberships.map (keyOf home ·.path)).contains (keyOf home root)

/-- The decision, once the order is seeded. -/
def decideRestore (previous : PreviousWorkspaceRoots)
    (memberships : List WorkspaceMembership) (frames : List Frame) : Ran :=
  if s.loadError.isSome && !s.restoreErrorShown then
    let s' := { s with
      restoreErrorShown := true
      state := { s.state with mutationError := s.loadError } }
    s'.answer (.ok ()) frames
  else if RestoredWorkspaceRootsLedger.has N s.storage selection.hostIdentity then
    s.answer (.ok ()) frames
  else match missingRoots previous memberships with
    | [] =>
      match RestoredWorkspaceRootsLedger.add N refuses s.storage selection.hostIdentity with
      | .error error => s.answer (.error error) frames
      | .ok storage => { s with storage := storage }.answer (.ok ()) frames
    | root :: rest =>
      let (operation, s') := s.locked
      s'.sendRoot selection operation root rest (rest.length + 1) memberships frames

def restorePrevious (memberships : List WorkspaceMembership)
    (frames : List Frame) : Ran :=
  match selection.previousRoots with
  | none => s.answer (.ok ()) frames
  | some previous =>
    match s.seedOrder N refuses selection previous with
    | .error error => s.answer (.error error) frames
    | .ok s' => s'.decideRestore N refuses selection previous memberships frames

/-- A listing that is written. -/
def accept (memberships : List WorkspaceMembership) : State :=
  { s with state := { s.state with status := .ready, memberships := some memberships, error := none } }

/-- `list` from its reply on. -/
def listed (epoch generation sequence : Nat) (frames : List Frame)
    (reply : Except Text (List WorkspaceMembership)) : Ran :=
  if epoch ≠ s.epoch || sequence ≠ s.listSequence then s.answer (.ok ()) frames
  else match reply with
    | .error error =>
      let message := ascii "Could not read workspace roots from the host: " ++ error
      let s' := { s with state := { s.state with status := .error, error := some message } }
      s'.answer (.ok ()) frames
    | .ok memberships =>
      if s.busy then { s with relistAfterOperation := true }.answer (.ok ()) frames
      else if generation ≠ s.generation then s.list frames
      else
        let s' := s.accept memberships
        if s'.restoreDue then
          { s' with restoreDue := false }.restorePrevious N refuses selection memberships frames
        else s'.answer (.ok ()) frames

/-! ## The bodies of the changes -/

/-- The body of a superseded change. -/
def superseded (change : Option Change) (caught : Bool)
    (frames : List Frame) : Ran :=
  s.settleSuperseded selection (.settling selection change caught :: frames)

def restoreFailed (error : Text) (latest : List WorkspaceMembership) : State :=
  { s with state := { s.state with
      memberships := some latest
      mutationError := some (ascii "Could not restore a workspace root saved on this device: " ++ error) } }

def restoredNotice (missing : Nat) : Text :=
  ascii "Restored " ++ naturalText missing ++
    (if missing = 1 then ascii " workspace root saved on this device."
      else ascii " workspace roots saved on this device.")

/-- The loop of a restore is through. -/
def restored (missing : Nat) (latest : List WorkspaceMembership) :
    State :=
  match RestoredWorkspaceRootsLedger.add N refuses s.storage selection.hostIdentity with
  | .error error => s.restoreFailed error latest
  | .ok storage =>
    { s with
      storage := storage
      state := { s.state with memberships := some latest, notice := some (restoredNotice missing) } }

/-- The loop of a restore from a reply on. -/
def rootAdded (operation : Operation) (rest : List Text)
    (missing : Nat) (latest : List WorkspaceMembership) (frames : List Frame)
    (reply : Except Text (List WorkspaceMembership)) : Ran :=
  let below := .finishing operation :: frames
  match reply with
  | .error error =>
    if operation.epoch ≠ s.epoch then s.superseded selection none true below
    else (s.restoreFailed error latest).answer (.ok ()) below
  | .ok memberships =>
    if operation.epoch ≠ s.epoch then s.superseded selection none false below
    else match rest with
      | [] => (s.restored N refuses selection missing memberships).answer (.ok ()) below
      | root :: rest => s.sendRoot selection operation root rest missing memberships frames

def changed (memberships : List WorkspaceMembership) (success : Text) : State :=
  { s with state := { s.state with
      memberships := some memberships
      status := .ready
      error := none
      notice := some success } }

/-- The body of `mutate` from its reply on. -/
def mutated (operation : Operation) (change : Change)
    (success : Text) (reply : Except Text (List WorkspaceMembership)) : Ran :=
  let below := [.finishing operation]
  match reply with
  | .error error =>
    if operation.epoch ≠ s.epoch then s.superseded selection (some change) true below
    else
      let s' := { s with state := { s.state with mutationError := some error } }
      (s'.addLog (.returned selection.hostIdentity change false)).answer (.ok ()) below
  | .ok memberships =>
    if operation.epoch ≠ s.epoch then s.superseded selection (some change) false below
    else
      let s' := s.changed memberships success
      (s'.addLog (.returned selection.hostIdentity change true)).answer (.ok ()) below

/-- A superseded body returns. -/
def settled (change : Option Change) : State :=
  match change with
  | none => s
  | some change => s.addLog (.returned selection.hostIdentity change false)

/-- A caller goes on with the outcome of what it awaited. -/
def resume (outcome : Except Text Unit) : List Frame → Ran
  | [] => (s, none)
  | .finishing operation :: frames => s.finish operation outcome frames
  | .resuming pending :: frames =>
    match outcome with
    | .ok _ => s.answer pending frames
    | .error error => s.answer (.error error) frames
  | .settling selection change caught :: frames =>
    match outcome with
    | .ok _ => (s.settled selection change).answer (.ok ()) frames
    | .error error =>
      -- an error in the `try` runs the `catch`, which settles once more
      if caught then s.answer (.error error) frames
      else s.superseded selection change true frames

/-! ## The calls of the client -/

def select (selection : Option WorkspaceRootsSelection) : Ran :=
  let s' := { s with
    selection := selection
    epoch := s.epoch + 1
    relistAfterOperation := false
    restoreDue := false }
  match selection with
  | none => ({ s' with state := emptyState none [] }, none)
  | some next =>
    if s.selection.map (·.hostIdentity) ≠ some next.hostIdentity then
      let rootOrder := (hostWorkspacePreferences s.order.document next.hostIdentity).rootOrder
      { s' with state := emptyState (some next.hostIdentity) rootOrder }.refresh
    else
      { s' with state := { s.state with mutating := false, mutationError := none, notice := none } }.refresh

def mutate (change : Change) (success : Text) : Ran :=
  let s' := { s with state := { s.state with mutationError := none, notice := none } }
  let (operation, s'') := s'.locked
  (s''.addLog (.sent selection.hostIdentity change .user),
    some (.changing selection operation change success))

def addRoot (raw : Text) (home : Option Text) : Ran :=
  match s.selection with
  | none => (s, none)
  | some selection =>
    if s.busy then (s, none)
    else
      let memberships := s.state.memberships.getD []
      match validateWorkspaceRootInput raw memberships
          (home.or (homeFromWorkspaceMemberships memberships)) with
      | .error message => ({ s with state := { s.state with mutationError := some message, notice := none } }, none)
      | .ok path =>
        s.mutate selection (.add path) (ascii "Added " ++ path ++ ascii " to this host's workspace roots.")

def removeRoot (path : Text) : Ran :=
  match s.selection with
  | none => (s, none)
  | some selection =>
    if s.busy then (s, none)
    else s.mutate selection (.remove path) (ascii "Removed " ++ path ++
      ascii " from this host's workspace roots. Its files and sessions were not touched.")

/-- The registered roots in display order. -/
def ordered (home : Option Text) : List WorkspaceMembership :=
  let memberships := s.state.memberships.getD []
  orderWorkspaceMemberships memberships s.state.rootOrder
    (home.or (homeFromWorkspaceMemberships memberships))

/-- A move starts and ends inside the call. -/
def moved (identity : Text) (next : List Text) : State :=
  let s' := { s with generation := s.generation + 2 }
  match s.order.set N refuses s.storage identity ⟨next⟩ with
  | .error error =>
    { s' with state := { s.state with
        mutationError := some (ascii "Could not save the root order: " ++ error) } }
  | .ok (order, storage) =>
    { s' with
      order := order
      storage := storage
      state := { s.state with rootOrder := (hostWorkspacePreferences order.document identity).rootOrder } }

def moveRoot (path : Text) (direction : Direction) (home : Option Text) : State :=
  match s.state.hostIdentity.filter (· ≠ []), s.state.memberships with
  | some identity, some _ =>
    match moveWorkspaceRoot (s.ordered home) path direction with
    | none => s
    | some next => s.moved N refuses identity next
  | _, _ => s

def clearMessages : State :=
  { s with state := { s.state with mutationError := none, notice := none } }

end State

/-- A new process over the storage another one left. -/
def launch (storage : Storage) (log : List Event) : State :=
  let (order, storage) := WorkspaceRootOrderStore.load N refuses storage
  let (loadError, storage) := RestoredWorkspaceRootsLedger.load N refuses storage
  { state := emptyState none []
    selection := none
    epoch := 0
    generation := 0
    operation := none
    listSequence := 0
    restoreDue := false
    relistAfterOperation := false
    restoreErrorShown := false
    order := order
    loadError := loadError
    storage := storage
    log := log }

/-! ## Runs -/

structure App where
  s : State
  parked : List Parked

inductive Action
  | restart
  | select (selection : Option WorkspaceRootsSelection)
  | refresh
  | addRoot (raw : Text) (home : Option Text)
  | removeRoot (path : Text)
  | moveRoot (path : Text) (direction : Direction) (home : Option Text)
  | clearMessages
  /-- The host replies to what is parked at `i`. -/
  | reply (i : Nat) (outcome : Except Text (List WorkspaceMembership))
  /-- The caller that is parked at `i` goes on. -/
  | resume (i : Nat)
  /-- What is stored is overwritten with what cannot be read. -/
  | damageOrder (text : Text)
  | damageRestored (text : Text)

def App.ran (app : App) (r : State.Ran) : App := ⟨r.1, app.parked ++ r.2.toList⟩

/-- What is parked at `i` has run. -/
def App.ranAt (app : App) (i : Nat) (r : State.Ran) : App :=
  ⟨r.1, app.parked.take i ++ r.2.toList ++ app.parked.drop (i + 1)⟩

def App.replied (app : App) (i : Nat) (outcome : Except Text (List WorkspaceMembership)) : App :=
  match app.parked[i]? with
  | some (.listing selection epoch generation sequence frames) =>
    app.ranAt i (app.s.listed N refuses selection epoch generation sequence frames outcome)
  | some (.restoring selection operation rest missing latest frames) =>
    app.ranAt i (app.s.rootAdded N refuses selection operation rest missing latest frames outcome)
  | some (.changing selection operation change success) =>
    app.ranAt i (app.s.mutated selection operation change success outcome)
  | _ => app

def App.resumed (app : App) (i : Nat) : App :=
  match app.parked[i]? with
  | some (.returning outcome frames) => app.ranAt i (app.s.resume outcome frames)
  | _ => app

def damaged (text : Text) (storage : Storage) : Storage :=
  if (RestoredWorkspaceRootsLedger.parse N text).isNone then { storage with restored := some text }
  else storage

def orderDamaged (text : Text) (storage : Storage) : Storage :=
  match parseWorkspacePreferences N (some text) with
  | .ok _ => storage
  | .error _ => { storage with order := some text }

def App.step (app : App) (action : Action) : App :=
  match action with
  | .restart => ⟨launch N refuses app.s.storage app.s.log, []⟩
  | .select selection => app.ran (app.s.select selection)
  | .refresh => app.ran app.s.refresh
  | .addRoot raw home => app.ran (app.s.addRoot raw home)
  | .removeRoot path => app.ran (app.s.removeRoot path)
  | .moveRoot path direction home => { app with s := app.s.moveRoot N refuses path direction home }
  | .clearMessages => { app with s := app.s.clearMessages }
  | .reply i outcome => app.replied N refuses i outcome
  | .resume i => app.resumed i
  | .damageOrder text => { app with s := { app.s with storage := orderDamaged N text app.s.storage } }
  | .damageRestored text => { app with s := { app.s with storage := damaged N text app.s.storage } }

end

end PocketShell.Workspaces
