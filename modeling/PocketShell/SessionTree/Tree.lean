import PocketShell.SessionTree.Roots

/-!
# The tree of the session panel

The host's list folded into roots, directories and rows.

* `buildDirectories`: the rows of one root.
* `groupSessionsIntoRoots`: the tree.
-/

namespace PocketShell.SessionTree

open Js (Text)
open Workspaces

variable {R : Type}

structure SessionDirectory (R : Type) where
  key : Text
  path : Text
  label : Text
  rows : List (SessionTreeRow R)
  mostRecentActivity : Int
  active : Bool
  untracked : Bool
  inferredRoot : Bool
  deriving DecidableEq

structure SessionRootFolder (R : Type) where
  key : Text
  label : Text
  directories : List (SessionDirectory R)
  sessionCount : Nat
  mostRecentActivity : Int
  active : Bool
  other : Bool
  configured : Bool
  deriving DecidableEq

/-! ## Directories -/

def directoryPath (hostHome : Option Text) (row : SessionTreeRow R) : Text :=
  if row.untracked then untrackedPath else directoryKey row.folderPath hostHome

/-- The key a row is grouped by: an untracked session has a directory of its own name. -/
def groupKey (hostHome : Option Text) (row : SessionTreeRow R) : Text :=
  if row.untracked then untrackedPath ++ 0 :: row.session.name else directoryPath hostHome row

def openDirectory (hostHome : Option Text) (row : SessionTreeRow R) : SessionDirectory R where
  key := groupKey hostHome row
  path := directoryPath hostHome row
  label := if row.untracked then row.session.name else defaultLabelForPath (directoryPath hostHome row)
  rows := [row]
  mostRecentActivity := 0
  active := false
  untracked := row.untracked
  inferredRoot := false

def SessionDirectory.push (row : SessionTreeRow R) (dir : SessionDirectory R) : SessionDirectory R :=
  { dir with rows := dir.rows ++ [row] }

/-- The map of the directories by their keys. -/
def directoriesByKey (hostHome : Option Text) (rows : List (SessionTreeRow R)) :
    List (Text × SessionDirectory R) :=
  rows.foldl
    (fun dirs row => Js.file (groupKey hostHome row) (openDirectory hostHome row) (·.push row) dirs) []

/-- The age and the dot of a directory. -/
def SessionDirectory.summed (dir : SessionDirectory R) : SessionDirectory R :=
  { dir with
    mostRecentActivity := dir.rows.foldl (fun newest row => max newest (sessionActivity row.session)) 0
    active := dir.rows.any (·.session.attached) }

def buildDirectories (rows : List (SessionTreeRow R)) (hostHome : Option Text) : List (SessionDirectory R) :=
  (directoriesByKey hostHome rows).map (·.2.summed)

/-! ## Roots -/

/-- The home directory of the host, or what the paths tell of it. -/
def resolvedHome (sessions : List (SessionSummary R)) (hostHome : Option Text) : Option Text :=
  normaliseHome hostHome <|> inferHome (sessions.map (·.path))

/-- Pass 1: the roots that a name can be filed under. -/
def rootLabels (configured : List ResolvedRoot) (hostHome : Option Text) (rows : List (SessionTreeRow R)) :
    List (Text × Text) :=
  if configured ≠ [] then
    configured.foldl (fun labels root => Js.assign root.label root.key labels) []
  else
    (rows.filter (!·.untracked)).foldl
      (fun labels row =>
        let place := rootForPath row.folderPath hostHome
        if place.key ≠ OTHER_ROOT then Js.assign place.label place.key labels else labels)
      []

/-- Where a row's working directory belongs. -/
def placeRow (configured : List ResolvedRoot) (hostHome : Option Text) (row : SessionTreeRow R) : Placement :=
  if configured = [] then rootForPath row.folderPath hostHome
  else match bestRootForPath row.folderPath hostHome configured with
    | none => otherPlacement
    | some root => ⟨root.key, root.label⟩

/-- Where a row belongs, by its name where it has no directory. -/
def placement (configured : List ResolvedRoot) (hostHome : Option Text) (labels : List (Text × Text))
    (row : SessionTreeRow R) : Placement :=
  if row.untracked then
    match rootFromSessionName row.session.name (Js.keys labels) with
    | none => placeRow configured hostHome row
    | some recovered =>
      match Js.property recovered labels with
      | none => placeRow configured hostHome row
      | some key => ⟨key, recovered⟩
  else placeRow configured hostHome row

structure Bucket (R : Type) where
  key : Text
  label : Text
  rows : List (SessionTreeRow R)

def Bucket.push (row : SessionTreeRow R) (bucket : Bucket R) : Bucket R :=
  { bucket with rows := bucket.rows ++ [row] }

/-- The registered roots, empty. -/
def seededRoots (configured : List ResolvedRoot) : List (Text × Bucket R) :=
  configured.map fun root => (root.key, ⟨root.key, root.label, []⟩)

/-- Pass 2: every row in the bucket of its root. -/
def byRoot (configured : List ResolvedRoot) (hostHome : Option Text) (rows : List (SessionTreeRow R)) :
    List (Text × Bucket R) :=
  let labels := rootLabels configured hostHome rows
  rows.foldl
    (fun roots row =>
      let place := placement configured hostHome labels row
      Js.file place.key ⟨place.key, place.label, [row]⟩ (·.push row) roots)
    (seededRoots configured)

/-- Only a name can have brought an untracked row to a root. -/
def SessionDirectory.markInferred (rootKey : Text) (dir : SessionDirectory R) : SessionDirectory R :=
  { dir with inferredRoot := dir.untracked && rootKey ≠ OTHER_ROOT }

def SessionDirectory.relabel (dir : SessionDirectory R) (label : Text) : SessionDirectory R :=
  { dir with label }

def folderOf (configured : List ResolvedRoot) (hostHome : Option Text) (bucket : Bucket R) :
    SessionRootFolder R :=
  let directories := disambiguateLabels (·.label) (·.untracked) (·.path) SessionDirectory.relabel
    ((buildDirectories bucket.rows hostHome).map (·.markInferred bucket.key))
  { key := bucket.key
    label := bucket.label
    directories
    sessionCount := bucket.rows.length
    mostRecentActivity := directories.foldl (fun newest dir => max newest dir.mostRecentActivity) 0
    active := directories.any (·.active)
    other := bucket.key = OTHER_ROOT
    configured := (configured.map (·.key)).contains bucket.key }

/-- The place of a root in the registered list. -/
def rank (configured : List ResolvedRoot) (root : SessionRootFolder R) : Nat :=
  ((configured.map (·.key)).idxOf? root.key).getD 0

def groupSessionsIntoRoots (sessions : List (SessionSummary R)) (hostHome : Option Text)
    (roots : List Text) : List (SessionRootFolder R) :=
  let home := resolvedHome sessions hostHome
  let configured := resolveRoots roots home
  let folders := (byRoot configured home (buildRows sessions)).map (folderOf configured home ·.2)
  let rooted := folders.filter (!·.other)
  let other := folders.filter (·.other)
  (if configured = [] then rooted
    else rooted.mergeSort fun a b => rank configured a ≤ rank configured b) ++ other

end PocketShell.SessionTree
