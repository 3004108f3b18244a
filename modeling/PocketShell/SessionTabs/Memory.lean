import PocketShell.SessionTabs.Bar

/-!
# The tabs that a folder is left with

A folder workspace keeps its Files tabs, its selection and the order they were selected in. One
instance serves folder after folder: the record of a folder is loaded into the live fields by a
watcher on the folder. A navigation makes it pending together with the watchers of the tab bar.

* `Workspace` and the operations; each ends with the watchers it makes pending, in their order.
* `Action`, `Workspace.run`: runs of one instance on one host.

The fields `opened`, `renamed`, `listings` and `left` are read by no operation.
-/

namespace PocketShell.SessionTabs.Memory

open Js (Text)
open Bar

/-! ## 1. The records -/

structure WorkspaceMemoryRecord where
  filesTabs : List FilesTabRecord := []
  activeTab : Option Text := none
  mru : List Text := []
  deriving DecidableEq

/-- What the bar is derived with. -/
structure Platform (F : Type) where
  rowsOf : RowsOf F
  localeCompare : Text → Text → Int

/-! ## 2. The workspace -/

variable {F : Type}

structure Workspace (F : Type) where
  folder : F
  /-- The rows of the session list, none before it has arrived. -/
  sessions : List Row := []
  memory : F → Option WorkspaceMemoryRecord := fun _ => none
  localStorage : F → Option WorkspaceMemoryRecord := fun _ => none
  tabOrders : F → List Text := fun _ => []
  filesTabs : List FilesTabRecord := []
  selected : Option Text := none
  mru : List Text := []
  /-- The tab in front when the watcher of the MRU looked last. -/
  seenActive : Option Text := none
  /-- The Files tabs that were opened, with their folders. -/
  opened : List (F × Text) := []
  /-- The names that a rename gave to tabs, with the folders it was asked for in. -/
  renamed : List (F × Text) := []
  listings : List (List Row) := [[]]
  /-- What a folder was left with. -/
  left : F → Option WorkspaceMemoryRecord := fun _ => none

namespace Workspace

variable (platform : Platform F) (s : Workspace F)

/-- The tabs: derived, then as the user arranged them. -/
def tabs : List Tab :=
  applyTabOrder (buildWorkspaceTabs platform.localeCompare (platform.rowsOf s.folder s.sessions)
    s.filesTabs) (s.tabOrders s.folder)

/-- The selected tab, or the first one of the bar. -/
def activeTab : Option Text :=
  ((s.tabs platform).find? fun tab => s.selected = some tab.id).or (s.tabs platform).head?
    |>.map (·.id)

/-- The live fields as a record. -/
def live : WorkspaceMemoryRecord := ⟨s.filesTabs, s.selected, s.mru⟩

variable [DecidableEq F]

/-- Write the tab state back, under the folder of now. -/
def persist : Workspace F :=
  { s with
    memory := Function.update s.memory s.folder (some s.live)
    localStorage := Function.update s.localStorage s.folder (some s.live) }

/-- The record in memory, or the one on disk, or a bare one. -/
def remembered : WorkspaceMemoryRecord :=
  ((s.memory s.folder).or (s.localStorage s.folder)).getD {}

/-- The folder's record in the live fields, under the tab that the route names. -/
def load (routedTab : Option Text) : Workspace F :=
  let state := s.remembered
  { s with
    filesTabs := state.filesTabs
    selected := routedTab.or state.activeTab
    mru := state.mru }

/-- Load the folder's record, with the tab that is then in front on top of the stack. -/
def loadFolderState (routedTab : Option Text) : Workspace F :=
  let s := s.load routedTab
  match s.activeTab platform with
  | none => s.persist
  | some active => persist { s with mru := pushMru s.mru active }

def writeTabOrder (order : List Text) : Workspace F :=
  { s with tabOrders := Function.update s.tabOrders s.folder order }

/-! ## 3. The watchers -/

/-- The watcher of the tab in front feeds the stack. -/
def watchActive : Workspace F :=
  let active := s.activeTab platform
  let seen := { s with seenActive := active }
  match active with
  | none => seen
  | some id =>
    if active = s.seenActive then seen
    else if s.mru.getLast? = some id then seen
    else persist { seen with mru := pushMru s.mru id }

def pruneAgainst (list : List Tab) : Workspace F :=
  let pruned := pruneTabIds s.mru list
  let s := if pruned.length ≠ s.mru.length then persist { s with mru := pruned } else s
  let keptOrder := pruneTabIds (s.tabOrders s.folder) list
  if keptOrder.length ≠ (s.tabOrders s.folder).length then s.writeTabOrder keptOrder else s

/-- The watcher of the bar prunes what is remembered, once the session list has arrived. -/
def watchTabs : Workspace F :=
  if s.sessions = [] then s else s.pruneAgainst (s.tabs platform)

/-- What a change of the bar makes pending. -/
def flush : Workspace F := (s.watchActive platform).watchTabs platform

/-! ## 4. The operations -/

/-- Another Files tab. `id` is the one minted for it. -/
def addFilesTab (id : Text) (path : Option Text) : Workspace F :=
  flush platform (persist { s with
    filesTabs := s.filesTabs ++ [⟨id, path⟩]
    selected := some id
    opened := (s.folder, id) :: s.opened })

def selectAfterClose (id : Text) : Workspace F :=
  persist { s with
    selected := tabAfterClose (s.tabs platform) id (s.activeTab platform) s.mru
    mru := s.mru.filter (· ≠ id) }

def closeFilesTab (id : Text) : Workspace F :=
  let s := s.selectAfterClose platform id
  flush platform (persist { s with filesTabs := s.filesTabs.filter (·.id ≠ id) })

/-- A click on a tab, or a chord for it. -/
def goToTab (index : Nat) : Workspace F :=
  match (s.tabs platform)[index]? with
  | none => s
  | some tab =>
    if some tab.id = s.activeTab platform then s
    else watchActive platform (persist { s with selected := some tab.id })

/-- A tab is dropped at a gap of the bar. -/
def drop (fromId : Text) (toIndex : Int) : Workspace F :=
  match reorderTabs (s.tabs platform) fromId toIndex with
  | none => s
  | some order => flush platform (s.writeTabOrder order)

/-- The host has renamed a session, as it was asked to in `askedIn`. -/
def adoptRenamedSession (askedIn : F) (old new : Text) (workspace : Option Text) : Workspace F :=
  let rename := fun id => if id = old then new else id
  let sessions := s.sessions.map fun row =>
    if Sessions.identity row ≠ Sessions.identityOf old workspace then row
    else Sessions.renameRow row new
  flush platform (persist { s with
    sessions
    listings := sessions :: s.listings
    selected := s.selected.map rename
    mru := s.mru.map rename
    tabOrders := Function.update s.tabOrders s.folder ((s.tabOrders s.folder).map rename)
    renamed := (askedIn, new) :: s.renamed })

/-- The session list is refreshed. -/
def refresh (sessions : List Row) : Workspace F :=
  flush platform { s with sessions, listings := sessions :: s.listings }

/-- The route's folder has changed, and no watcher has run. -/
def turn (folder : F) : Workspace F :=
  { s with folder, left := Function.update s.left s.folder (some s.live) }

/-- The watchers of the bar, when they are the first to run, see the live fields of the folder that
is left. -/
def depart (folder : F) (barFirst : Bool) : Workspace F :=
  if barFirst then (s.turn folder).flush platform else s.turn folder

/-- The route goes to another folder. The watchers of the bar were created before the one that loads
the folder's record; `barFirst` is whether the scheduler also queues them in this order. -/
def navigate (folder : F) (routedTab : Option Text) (barFirst : Bool) : Workspace F :=
  if folder = s.folder then s
  else
    let s := s.depart platform folder barFirst
    flush platform (s.loadFolderState platform routedTab)

/-- The instance is created on a folder: its watchers look once, then it is mounted. -/
def mount (routedTab : Option Text) : Workspace F :=
  let s := { s with seenActive := s.activeTab platform }
  flush platform ((s.watchTabs platform).loadFolderState platform routedTab)

end Workspace

/-! ## 5. Runs -/

inductive Action (F : Type)
  | addFilesTab (id : Text) (path : Option Text)
  | closeFilesTab (id : Text)
  | goToTab (index : Nat)
  | drop (fromId : Text) (toIndex : Int)
  | adoptRenamedSession (askedIn : F) (old new : Text) (workspace : Option Text)
  | refresh (sessions : List Row)
  | navigate (folder : F) (routedTab : Option Text) (barFirst : Bool)

variable [DecidableEq F] (platform : Platform F)

def Workspace.step (s : Workspace F) : Action F → Workspace F
  | .addFilesTab id path => s.addFilesTab platform id path
  | .closeFilesTab id => s.closeFilesTab platform id
  | .goToTab index => s.goToTab platform index
  | .drop fromId toIndex => s.drop platform fromId toIndex
  | .adoptRenamedSession askedIn old new workspace =>
    s.adoptRenamedSession platform askedIn old new workspace
  | .refresh sessions => s.refresh platform sessions
  | .navigate folder routedTab barFirst => s.navigate platform folder routedTab barFirst

def Workspace.run (s : Workspace F) (actions : List (Action F)) : Workspace F :=
  actions.foldl (Workspace.step platform) s

end PocketShell.SessionTabs.Memory
