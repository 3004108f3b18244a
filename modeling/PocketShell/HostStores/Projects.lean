import PocketShell.Coop.Late

/-!
# The projects store

The store that a new session is placed with: the home of a host, its folders and its repositories.
All workspaces share it; what it holds is of one connection at a time.

* `State`: the fields, and the connection they are of.
* `Ctl`: the actions, with their awaits.
* `projects`: the store as a program whose owner is a connection.
-/

namespace PocketShell.HostStores.Projects

open Coop (Async Thread Scoped)

/-! ## 1. The state -/

inductive FileType
  | file
  | dir
  | symlink
  | other
  deriving DecidableEq

structure DirEntry where
  name : String
  type : FileType

inductive ReposScopeState
  | ok
  | ghMissing
  | ghUnauthenticated
  | helperMissing
  | failed

structure HomeResult where
  ok : Bool
  home : Option String
  error : Option String

structure ReposScopeResult where
  state : ReposScopeState
  error : Option String

structure ReposListResult (Repo : Type) where
  repos : List Repo
  localScope : Option ReposScopeResult
  remote : Option ReposScopeResult

variable {C Repo : Type}

structure State (C Repo : Type) where
  scopedConnectionId : Option C := none
  scopeGeneration : Nat := 0
  browseRequest : Nat := 0
  home : Option String := none
  homeError : Option String := none
  cwd : String := ""
  dirs : List DirEntry := []
  browsing : Bool := false
  browseError : Option String := none
  repos : List Repo := []
  reposLoading : Bool := false
  remoteState : Option ReposScopeState := none
  remoteError : Option String := none
  localState : Option ReposScopeState := none
  localError : Option String := none
  cloning : Option String := none
  starting : Bool := false

namespace State

variable (s : State C Repo)

/-- True while the state still belongs to the connection that started work. -/
def isCurrent [DecidableEq C] (connectionId : C) (generation : Nat) : Bool :=
  s.scopedConnectionId = some connectionId && s.scopeGeneration = generation

def clearState : State C Repo where
  scopedConnectionId := s.scopedConnectionId
  scopeGeneration := s.scopeGeneration + 1
  browseRequest := s.browseRequest + 1

def scopeTo [DecidableEq C] (connectionId : C) : State C Repo :=
  if s.scopedConnectionId ≠ some connectionId then
    { s.clearState with scopedConnectionId := some connectionId }
  else s

def clear : State C Repo := clearState { s with scopedConnectionId := none }

/-- What `loadRepos` writes of a result. -/
def gotRepos (result : ReposListResult Repo) : State C Repo :=
  { s with
    repos := result.repos
    remoteState := result.remote.map (·.state)
    remoteError := result.remote.bind (·.error)
    localState := result.localScope.map (·.state)
    localError := result.localScope.bind (·.error) }

end State

/-! ## 2. The actions -/

inductive Request (C : Type)
  | home (connectionId : C)
  /-- `loadHome` goes on after its own await. -/
  | turn
  | realPath (connectionId : C) (path : String)
  | list (connectionId : C) (path : String)
  | reposList (connectionId : C)
  /-- The next progress message of a clone, or whether it says that the clone has finished. -/
  | cloneProgress (connectionId : C)
  | reposClone (connectionId : C) (repository : String)
  | startSession (connectionId : C) (folder : String) (customName : Option String)

/-- A rejection is known by its `errorMessage`. The results of a clone and a start go to the caller
as they are. -/
abbrev Ans (C Repo : Type) : Request C → Type
  | .home _ => Except String HomeResult
  | .turn => Unit
  | .realPath .. => Except String String
  | .list .. => Except String (List DirEntry)
  | .reposList _ => Except String (ReposListResult Repo)
  | .cloneProgress _ => Bool
  | .reposClone .. => Except String Unit
  | .startSession .. => Except String Unit

abbrev Ctl (C Repo : Type) (α : Type) : Type :=
  Async Unit (State C Repo) (Ans C Repo) Empty String α

/-- `/a/b` + `c` -> `/a/b/c`. -/
def joinPosix (base child : String) : String :=
  if child.startsWith "/" then child
  else if base.endsWith "/" then base ++ child
  else base ++ "/" ++ child

/-- `/a/b/c` -> `/a/b`; `/a` -> `/`. -/
def parentPosix (path : String) : String :=
  let chars := (path.toList.reverse.dropWhile (· = '/')).dropWhile (· ≠ '/')
  if chars.length ≤ 1 then "/" else String.ofList (path.toList.take (chars.length - 1))

namespace Ctl

def ask (request : Request C) : Ctl C Repo (Ans C Repo request) := Async.ask request

def orThrow {α : Type} : Except String α → Ctl C Repo α
  | .ok a => pure a
  | .error message => throw message

variable [DecidableEq C] (localeCompare : String → String → Int)

def scopeTo (connectionId : C) : Ctl C Repo Nat := do
  modify (·.scopeTo connectionId)
  return (← get).scopeGeneration

def ensureHome (connectionId : C) : Ctl C Repo (Option String) := do
  let generation ← scopeTo connectionId
  let s ← get
  match s.home with
  | some home => return some home
  | none =>
    let result ← orThrow (← ask (.home connectionId))
    let s ← get
    if !s.isCurrent connectionId generation then return none
    match result.ok, result.home.filter (· ≠ "") with
    | true, some home =>
      modify fun s => { s with homeError := none, home := some home }
      return some home
    | _, _ =>
      modify fun s => { s with
        homeError := some (result.error.getD "could not resolve $HOME on the host") }
      return none

/-- List the folders under `path`, directories only. -/
def browse (connectionId : C) (path : String) : Ctl C Repo Unit := do
  let generation ← scopeTo connectionId
  let request ← modifyGet fun s =>
    (s.browseRequest + 1, { s with browseRequest := s.browseRequest + 1 })
  modify fun s => { s with browsing := true, browseError := none }
  Async.andFinally
    (tryCatch
      (do
        let resolved ← orThrow (← ask (.realPath connectionId path))
        let entries ← orThrow (← ask (.list connectionId resolved))
        let s ← get
        if !s.isCurrent connectionId generation || request ≠ s.browseRequest then return
        modify fun s => { s with
          cwd := resolved
          dirs := (entries.filter (·.type = .dir)).mergeSort
            fun a b => localeCompare a.name b.name ≤ 0 })
      fun message => do
        let s ← get
        if s.isCurrent connectionId generation && request = s.browseRequest then
          modify fun s => { s with browseError := some message })
    (do
      let s ← get
      if s.isCurrent connectionId generation && request = s.browseRequest then
        modify fun s => { s with browsing := false })

def loadHome (connectionId : C) : Ctl C Repo Unit := do
  let generation ← scopeTo connectionId
  let resolved ← ensureHome connectionId
  let _ ← ask .turn
  let s ← get
  match resolved with
  | none => return
  | some home =>
    if !s.isCurrent connectionId generation then return
    if s.cwd = "" then browse localeCompare connectionId home

/-- Enter a child folder of the current directory. -/
def enter (connectionId : C) (name : String) : Ctl C Repo Unit := do
  let s ← get
  browse localeCompare connectionId (joinPosix s.cwd name)

/-- Go up one level. -/
def up (connectionId : C) : Ctl C Repo Unit := do
  let s ← get
  if s.cwd = "/" || s.cwd = "" then return
  browse localeCompare connectionId (parentPosix s.cwd)

def loadRepos (connectionId : C) : Ctl C Repo Unit := do
  let generation ← scopeTo connectionId
  modify fun s => { s with reposLoading := true }
  Async.andFinally
    (do
      let result ← orThrow (← ask (.reposList connectionId))
      let s ← get
      if !s.isCurrent connectionId generation then return
      modify (·.gotRepos result))
    (do
      let s ← get
      if s.isCurrent connectionId generation then
        modify fun s => { s with reposLoading := false })

/-- The progress messages of a clone, as many as the host sends before the result. -/
def cloneProgress (connectionId : C) : Nat → Ctl C Repo Unit
  | 0 => return
  | messages + 1 => do
    let finished ← ask (.cloneProgress connectionId)
    if finished then modify fun s => { s with cloning := none }
    cloneProgress connectionId messages

def clone (connectionId : C) (repository : String) (messages : Nat) : Ctl C Repo Unit := do
  modify fun s => { s with cloning := some repository }
  cloneProgress connectionId messages
  Async.andFinally
    (do orThrow (← ask (.reposClone connectionId repository)))
    (modify fun s => { s with cloning := none })

/-- Start (or re-open) the session for a folder. -/
def start (connectionId : C) (folder : String) (customName : Option String) : Ctl C Repo Unit := do
  modify fun s => { s with starting := true }
  Async.andFinally
    (do orThrow (← ask (.startSession connectionId folder (customName.filter (· ≠ "")))))
    (modify fun s => { s with starting := false })

end Ctl

/-! ## 3. The store -/

inductive Call (C : Type)
  | ensureHome (connectionId : C)
  | loadHome (connectionId : C)
  | browse (connectionId : C) (path : String)
  | enter (connectionId : C) (name : String)
  | up (connectionId : C)
  | loadRepos (connectionId : C)
  /-- `messages` is how many progress messages come before the result. -/
  | clone (connectionId : C) (repository : String) (messages : Nat)
  | start (connectionId : C) (folder : String) (customName : Option String)
  | clear

variable [DecidableEq C] (localeCompare : String → String → Int)

def Call.body : Call C → Thread (State C Repo) (Ans C Repo) Empty
  | .ensureHome connectionId => Async.thread () (Ctl.ensureHome connectionId)
  | .loadHome connectionId => Async.thread () (Ctl.loadHome localeCompare connectionId)
  | .browse connectionId path => Async.thread () (Ctl.browse localeCompare connectionId path)
  | .enter connectionId name => Async.thread () (Ctl.enter localeCompare connectionId name)
  | .up connectionId => Async.thread () (Ctl.up localeCompare connectionId)
  | .loadRepos connectionId => Async.thread () (Ctl.loadRepos connectionId)
  | .clone connectionId repository messages =>
    Async.thread () (Ctl.clone connectionId repository messages)
  | .start connectionId folder customName =>
    Async.thread () (Ctl.start connectionId folder customName)
  | .clear => Async.thread () (modify State.clear : Ctl C Repo Unit)

def Call.owner : Call C → Option C
  | .ensureHome connectionId => some connectionId
  | .loadHome connectionId => some connectionId
  | .browse connectionId _ => some connectionId
  | .enter connectionId _ => some connectionId
  | .up connectionId => some connectionId
  | .loadRepos connectionId => some connectionId
  | .clone connectionId _ _ => some connectionId
  | .start connectionId _ _ => some connectionId
  | .clear => none

end PocketShell.HostStores.Projects
