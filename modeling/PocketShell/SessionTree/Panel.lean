import PocketShell.Js.LowerCase
import PocketShell.SessionTree.DraggedOrder
import PocketShell.SessionTree.Guarantee

/-!
# The panel

What the session panel draws of the tree, and what its sort menu, its two drags and its quick
search do to it. Five stages: the tree, the picked sort, the dragged folders, the dragged roots,
the search.

* `applyFolderSort`, `applyRootOrder`, `filterFolderRoots`: the stages after the tree.
* `canDropRootAt`, `reorderRoots`: the drag of a root.
* `Panel`, `Panel.step`: the panel with the settings it writes.
-/

namespace PocketShell.SessionTree

open Js (Text LowerCase)

variable {R : Type}

/-! ## The picked sort -/

inductive FolderSortKey
  | host
  | activity
  | name
  | created
deriving DecidableEq

/-- What the language knows of comparing labels with `localeCompare`: that one does not come
after another. -/
structure Collation where
  le : Text → Text → Bool
  trans : ∀ a b c, le a b = true → le b c = true → le a c = true
  total : ∀ a b, (le a b || le b a) = true

/-- `created || activity || 0` -/
def SessionSummary.createdAt (session : SessionSummary R) : Int :=
  if session.created ≠ 0 then session.created else session.activity

/-- The least creation time of the rows. `none` is what an infinite start is left as. -/
def oldest (rows : List (SessionTreeRow R)) : Option Int :=
  rows.foldl
    (fun least row =>
      match least with
      | none => some row.session.createdAt
      | some time => some (min time row.session.createdAt))
    none

def folderCreatedAt (dir : SessionDirectory R) : Int := (oldest dir.rows).getD 0

/-- `byKey(a, b)` is not positive. -/
def byKey (collation : Collation) (key : FolderSortKey) (a b : SessionDirectory R) : Bool :=
  match key with
  | .host => true
  -- the newest stands first
  | .activity => b.mostRecentActivity ≤ a.mostRecentActivity
  | .name => collation.le a.label b.label
  | .created => folderCreatedAt a ≤ folderCreatedAt b

def applyFolderSort (collation : Collation) (roots : List (SessionRootFolder R)) (key : FolderSortKey) :
    List (SessionRootFolder R) :=
  if key = .host then roots
  else roots.map fun root => { root with directories := root.directories.mergeSort (byKey collation key) }

/-! ## The dragged roots -/

def applyRootOrder (roots : List (SessionRootFolder R)) (order : List Text) : List (SessionRootFolder R) :=
  if order = [] then roots
  else
    let sorted := Js.sortByRank (·.key) order roots
    sorted.filter (!·.other) ++ sorted.filter (·.other)

def canDropRootAt (roots : List (SessionRootFolder R)) (fromKey : Text) (toIndex : Int) : Bool :=
  match roots[roots.findIdx (·.key = fromKey)]? with
  | none => false
  | some root =>
    if root.other then false
    else if toIndex < 0 || (roots.length : Int) < toIndex then false
    else if toIndex = roots.length && (roots.getLast?.any (·.other)) then false
    else true

/-- The keys of the roots after one was moved to a gap. `none` when there is no such root or it
stays where it is. -/
def reorderRoots (roots : List (SessionRootFolder R)) (fromKey : Text) (toIndex : Int) : Option (List Text) :=
  let start := roots.findIdx (·.key = fromKey)
  match roots[start]? with
  | none => none
  | some moving =>
    let gap := (max 0 (min (roots.length : Int) toIndex)).toNat
    -- The root is taken out first, which shifts the gaps after it.
    let to' := if start < gap then gap - 1 else gap
    if to' = start then none
    else some (((roots.eraseIdx start).insertIdx to' moving).map (·.key))

/-! ## The quick search -/

section

variable (lower : LowerCase)

/-- `value.toLowerCase().includes(needle)` -/
def hit (needle value : Text) : Bool := (lower.toLowerCase value).tails.any needle.isPrefixOf

/-- The three strings that a row can be found by. -/
def foundBy (needle : Text) (dir : SessionDirectory R) : Bool :=
  hit lower needle dir.label || hit lower needle dir.path || dir.rows.any fun row => hit lower needle row.session.name

/-- A query that names a root keeps it whole. -/
def searched (needle : Text) (root : SessionRootFolder R) : SessionRootFolder R :=
  if hit lower needle root.key || hit lower needle root.label then root
  else { root with directories := root.directories.filter (foundBy lower needle) }

def filterFolderRoots (roots : List (SessionRootFolder R)) (query : Text) : List (SessionRootFolder R) :=
  let needle := lower.toLowerCase (Js.trim query)
  if needle = [] then roots
  else (roots.map (searched lower needle)).filter (0 < ·.directories.length)

end

/-! ## The drag of a row -/

def canDropFolderAt (root : SessionRootFolder R) (fromKey : Text) (toIndex : Int) : Bool :=
  if root.directories.any (·.key = fromKey) then 0 ≤ toIndex && toIndex ≤ root.directories.length else false

/-! ## The panel -/

/-- A root order that was looked up is applied as the folder order is. -/
def applyRootFound (roots : List (SessionRootFolder R)) : Found → Option (List (SessionRootFolder R))
  | .order order => some (applyRootOrder roots order)
  | .inherited length => if length = some 0 then some roots else none

/-- The settings the panel reads, and what it shows: a host with its sessions, its home and its
registered roots, the text of the search and the drags in the air. -/
structure Panel (R : Type) where
  sessionTreeSort : FolderSortKey
  folderOrder : FolderOrder
  rootOrder : FolderOrder
  host : Text
  sessions : List (SessionSummary R)
  home : Option Text
  registered : List Text
  filterQuery : Text
  dragging : Option Text
  /-- The root and the gap of the indicator. -/
  dropTarget : Option (Text × Int)
  rootDragging : Option Text
  rootDropTarget : Option Int

/-- The settings that were never touched, before a host is connected. -/
def Panel.start : Panel R :=
  { sessionTreeSort := .host, folderOrder := .empty, rootOrder := .empty, host := [], sessions := [],
    home := none, registered := [], filterQuery := [], dragging := none, dropTarget := none,
    rootDragging := none, rootDropTarget := none }

/-- What happens to the panel. -/
inductive PanelEvent (R : Type)
  /-- The host is listed again, or another one is. -/
  | listed (host : Text) (sessions : List (SessionSummary R)) (home : Option Text) (registered : List Text)
  | search (query : Text)
  | setSessionTreeSort (key : FolderSortKey)
  | rowDragStart (key : Text)
  /-- The pointer is over a root, at a gap of its rows. -/
  | rowDragOver (root : Text) (gap : Int)
  | rowDrop
  | rootDragStart (key : Text)
  | rootDragOver (gap : Int)
  | rootDrop
  | dragEnd

namespace Panel

variable (collation : Collation) (lower : LowerCase)

/-- The home of the host, or what the paths tell of it. -/
def treeHome (s : Panel R) : Option Text := s.home <|> inferHome (s.sessions.map (·.path))

/-- The tree in the order of the host. -/
def tree (s : Panel R) : List (SessionRootFolder R) := groupSessionsIntoRoots s.sessions s.treeHome s.registered

/-- Before the quick search. `none` when a looked up order is none. -/
def arranged (s : Panel R) : Option (List (SessionRootFolder R)) :=
  (applyFound (applyFolderSort collation s.tree s.sessionTreeSort) (folderOrderFor s.folderOrder s.host)).bind
    (applyRootFound · (folderOrderFor s.rootOrder s.host))

/-- The roots as they are drawn. -/
def drawn (s : Panel R) : Option (List (SessionRootFolder R)) :=
  (s.arranged collation).map (filterFolderRoots lower · s.filterQuery)

/-- A picked sort clears the arrangement of every host. -/
def setSessionTreeSort (s : Panel R) (key : FolderSortKey) : Panel R :=
  { s with sessionTreeSort := key, folderOrder := .empty }

def rowDragOver (s : Panel R) (root : Text) (gap : Int) : Panel R :=
  match s.dragging, s.drawn collation lower with
  | some fromKey, some roots =>
    match roots.find? (·.key = root) with
    | none => s
    | some held => { s with dropTarget := if canDropFolderAt held fromKey gap then some (root, gap) else none }
  | _, _ => s

/-- A drop switches the sort off before it writes its order. -/
def rowDrop (s : Panel R) : Panel R :=
  let rested := { s with dragging := none, dropTarget := none }
  match s.dragging, s.dropTarget, s.drawn collation lower with
  | some fromKey, some target, some roots =>
    match reorderFolders roots fromKey target.2 with
    | none => rested
    | some next =>
      let plain := if rested.sessionTreeSort ≠ .host then rested.setSessionTreeSort .host else rested
      { plain with folderOrder := setFolderOrder plain.folderOrder s.host next }
  | _, _, _ => rested

def rootDragOver (s : Panel R) (gap : Int) : Panel R :=
  match s.rootDragging, s.drawn collation lower with
  | some fromKey, some roots =>
    { s with rootDropTarget := if canDropRootAt roots fromKey gap then some gap else none }
  | _, _ => s

/-- The sort is left alone: it orders no roots. -/
def rootDrop (s : Panel R) : Panel R :=
  let rested := { s with rootDragging := none, rootDropTarget := none }
  match s.rootDragging, s.rootDropTarget, s.drawn collation lower with
  | some fromKey, some target, some roots =>
    match reorderRoots roots fromKey target with
    | none => rested
    | some next => { rested with rootOrder := setFolderOrder rested.rootOrder s.host next }
  | _, _, _ => rested

def step (s : Panel R) : PanelEvent R → Panel R
  | .listed host sessions home registered => { s with host, sessions, home, registered }
  | .search query => { s with filterQuery := query }
  | .setSessionTreeSort key => s.setSessionTreeSort key
  | .rowDragStart key => { s with dragging := some key, dropTarget := none }
  | .rowDragOver root gap => s.rowDragOver collation lower root gap
  | .rowDrop => s.rowDrop collation lower
  | .rootDragStart key => { s with rootDragging := some key, rootDropTarget := none }
  | .rootDragOver gap => s.rootDragOver collation lower gap
  | .rootDrop => s.rootDrop collation lower
  | .dragEnd => { s with dragging := none, dropTarget := none, rootDragging := none, rootDropTarget := none }

def run (s : Panel R) (events : List (PanelEvent R)) : Panel R := events.foldl (step collation lower) s

end Panel

end PocketShell.SessionTree
