import PocketShell.Js.Text

/-!
# The keys of directories

The path algebra of `sessionGrouping.ts`, `sessionRoots.ts` and `hostWorkspaceTree.ts`
that tells when two spellings name one directory: Windows drives in three spellings,
trailing slashes, and the home-relative form.
-/

namespace PocketShell.Workspaces

open Js (Text ascii)

def slash : UInt16 := 0x2f

/-- Sentinel path for sessions whose working directory is unknown. -/
def untrackedPath : Text := ascii "::untracked::"

def sessionRootsMax : Nat := 32

def isUpper (unit : UInt16) : Bool := 0x41 ≤ unit && unit ≤ 0x5a

def isLower (unit : UInt16) : Bool := 0x61 ≤ unit && unit ≤ 0x7a

/-- `[A-Za-z]` -/
def isDriveLetter (unit : UInt16) : Bool := isUpper unit || isLower unit

def toUpper (unit : UInt16) : UInt16 := if isLower unit then unit - 0x20 else unit

def toLower (unit : UInt16) : UInt16 := if isUpper unit then unit + 0x20 else unit

/-- What `.` of a regular expression does not match. -/
def isLineEnd (unit : UInt16) : Bool := unit = 0x0a || unit = 0x0d || unit = 0x2028 || unit = 0x2029

/-- `/\/+$/` replaced by nothing. -/
def stripSlashes (path : Text) : Text := path.rdropWhile (· = slash)

/-- `^[A-Za-z]:\/` -/
def isWindowsDrivePath : Text → Bool
  | drive :: colon :: first :: _ => isDriveLetter drive && colon = 0x3a && first = slash
  | _ => false

/-- The letter and the rest of `^([A-Za-z]):(\/.*)$`. -/
def drivePath (path : Text) : Option (UInt16 × Text) :=
  match path with
  | drive :: colon :: rest =>
    if isDriveLetter drive && colon = 0x3a && rest.head? = some slash && !rest.any isLineEnd then
      some (drive, rest)
    else none
  | _ => none

def normaliseWindowsPath (value : Text) : Option Text :=
  let slashed := value.map fun unit => if unit = 0x5c then slash else unit
  let drive := match slashed with
    | first :: rest => if first = slash then drivePath rest else drivePath slashed
    | [] => none
  drive.map fun (letter, rest) => toUpper letter :: 0x3a :: rest

/-- `/c/Users/u` as `C:/Users/u`. -/
def msysToDrivePath : Text → Option Text
  | first :: drive :: rest =>
    if first = slash && isDriveLetter drive && rest.head? = some slash && !rest.any isLineEnd then
      some (toUpper drive :: 0x3a :: rest)
    else none
  | _ => none

/-- `C:/Users/u` as `/c/Users/u`. -/
def driveToMsysPath (value : Text) : Option Text :=
  (drivePath value).map fun (drive, rest) => slash :: toLower drive :: rest

def canonicalisePath (value : Text) : Text :=
  let trimmed := Js.trim value
  if trimmed = [] then untrackedPath
  else match normaliseWindowsPath trimmed with
    | some windows => if 2 < (stripSlashes windows).length then stripSlashes windows else windows
    | none => if stripSlashes trimmed = [] then [slash] else stripSlashes trimmed

def dotDot : Text := ascii ".."

def home : Text := ascii "~"

def homePrefix : Text := ascii "~/"

/-- Absolute, under `~`, or on a Windows drive. -/
def isAnchored (path : Text) : Bool :=
  path = home || homePrefix.isPrefixOf path || path.head? = some slash || isWindowsDrivePath path

def normaliseRootPath (value : Text) : Option Text :=
  if value.any (· < 0x20) then none
  else
    let canonical := canonicalisePath value
    if canonical = untrackedPath then none
    else if (canonical.splitOn slash).contains dotDot then none
    else if isAnchored canonical then some canonical
    else none

/-- A blank home is an unknown one. -/
def normaliseHome (home : Option Text) : Option Text :=
  let trimmed := stripSlashes (Js.trim (home.getD []))
  if trimmed = [] then none else some trimmed

/-- The two sides of the comparison in one spelling, when just one of them is a drive. -/
def sameSpelling (folder home : Text) : Text × Text :=
  if isWindowsDrivePath folder && !isWindowsDrivePath home then
    ((driveToMsysPath folder).getD folder, home)
  else if !isWindowsDrivePath folder && isWindowsDrivePath home then
    ((msysToDrivePath folder).getD folder, (normaliseWindowsPath home).getD home)
  else (folder, home)

/-- The path below `$HOME`, empty for `$HOME` itself. -/
def homeRelative (folderPath : Text) (hostHome : Option Text) : Option Text :=
  if folderPath = home || folderPath = ascii "$HOME" then some []
  else if homePrefix.isPrefixOf folderPath then some (folderPath.drop 2)
  else match normaliseHome hostHome with
    | none => none
    | some known =>
      let (folder, base) := sameSpelling folderPath known
      if folder = base then some []
      else if (base ++ [slash]).isPrefixOf folder then some (folder.drop (base.length + 1))
      else none

/-- The grouping key of a directory. -/
def directoryKey (folderPath : Text) (hostHome : Option Text) : Text :=
  if folderPath = untrackedPath then untrackedPath
  else match homeRelative folderPath hostHome with
    | none => folderPath
    | some relative => if relative = [] then home else homePrefix ++ relative

/-- The key of a root in any spelling. -/
def keyOf (hostHome : Option Text) (path : Text) : Text :=
  directoryKey ((normaliseRootPath path).getD path) hostHome

/-! ## Memberships -/

structure WorkspaceMembership where
  path : Text
  displayPath : Text
  deriving DecidableEq

/-- The home one membership gives away: the part of its path before what its display
path has after `~`. -/
def homeOfMembership (workspace : WorkspaceMembership) : Option (Option Text) :=
  let display := stripSlashes (Js.trim workspace.displayPath)
  let path := stripSlashes (Js.trim workspace.path)
  if path.head? ≠ some slash then none
  else if display = home then some (normaliseHome (some path))
  else if homePrefix.isPrefixOf display then
    let suffix := display.drop 1
    if suffix.length < path.length && suffix.isSuffixOf path then
      some (normaliseHome (some (path.take (path.length - suffix.length))))
    else none
  else none

/-- The first membership that gives the home away decides. -/
def homeFromWorkspaceMemberships (workspaces : List WorkspaceMembership) : Option Text :=
  (workspaces.findSome? homeOfMembership).join

/-- The memberships with the first of each key only. -/
def firstByKey (hostHome : Option Text) : List WorkspaceMembership → List Text → List WorkspaceMembership
  | [], _ => []
  | workspace :: rest, seen =>
    let key := keyOf hostHome workspace.path
    if key ∈ seen then firstByKey hostHome rest seen
    else workspace :: firstByKey hostHome rest (key :: seen)

/-- The roots named in `order`, in that order, and what is left of the memberships. -/
def takeOrdered (hostHome : Option Text) :
    List Text → List WorkspaceMembership → List WorkspaceMembership × List WorkspaceMembership
  | [], left => ([], left)
  | path :: order, left =>
    match left.find? fun workspace => keyOf hostHome workspace.path = keyOf hostHome path with
    | none => takeOrdered hostHome order left
    | some workspace =>
      let rest := takeOrdered hostHome order (left.erase workspace)
      (workspace :: rest.1, rest.2)

def orderWorkspaceMemberships (workspaces : List WorkspaceMembership) (order : List Text)
    (hostHome : Option Text) : List WorkspaceMembership :=
  let taken := takeOrdered hostHome order (firstByKey hostHome workspaces [])
  taken.1 ++ taken.2

inductive Direction
  | up
  | down

/-- The place next to `index`. -/
def Direction.target (index : Nat) : Direction → Option Nat
  | .up => if index = 0 then none else some (index - 1)
  | .down => some (index + 1)

def moveWorkspaceRoot (ordered : List WorkspaceMembership) (path : Text) (direction : Direction) :
    Option (List Text) := do
  let paths := ordered.map (·.path)
  let index ← paths.idxOf? path
  let target ← (direction.target index).filter (· < paths.length)
  return (paths.eraseIdx index).insertIdx target path

def validateWorkspaceRootInput (raw : Text) (registered : List WorkspaceMembership)
    (hostHome : Option Text) : Except Text Text :=
  let trimmed := Js.trim raw
  if trimmed = [] then .error (ascii "Enter a folder path such as ~/git or /srv/apps.")
  else if 4096 < trimmed.length then .error (ascii "That path is too long.")
  else match normaliseRootPath trimmed with
    | none => .error (ascii "Use an absolute path or one under ~, without .. or control characters.")
    | some canonical =>
      let key := directoryKey canonical hostHome
      match registered.find? fun workspace => keyOf hostHome workspace.path = key with
      | some duplicate => .error (duplicate.displayPath ++ ascii " is already a workspace root.")
      | none =>
        if sessionRootsMax ≤ registered.length then
          .error (ascii "A host can have at most 32 workspace roots.")
        else .ok canonical

end PocketShell.Workspaces
