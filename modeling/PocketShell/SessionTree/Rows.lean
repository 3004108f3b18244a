import PocketShell.Js.Grouped
import PocketShell.Workspaces.Paths

/-!
# The rows of the session panel

One row for each session of the host's list, in its order, and the labels that directories
and rows carry.

* `SessionTreeRow`, `buildRows`: the rows.
* `defaultLabelForPath`, `disambiguateLabels`: what a directory is called.
-/

namespace PocketShell.SessionTree

open Js (Text ascii)
open Workspaces

/-! ## Labels -/

def UNTRACKED_LABEL : Text := ascii "Untracked"

def ROOT_LABEL : Text := ascii "/ (root)"

def HOME_LABEL : Text := ascii "~ (home)"

/-- The trailing segment, with names for the paths that have none. -/
def defaultLabelForPath (path : Text) : Text :=
  if path = untrackedPath then UNTRACKED_LABEL
  else
    let clean := Js.trim path
    let stripped := Workspaces.stripSlashes clean
    if clean = [] then UNTRACKED_LABEL
    else if stripped = [] then ROOT_LABEL
    else if stripped = home || stripped = ascii "$HOME" then HOME_LABEL
    else
      let tail := stripped.rtakeWhile (· ≠ slash)
      if Js.trim tail = [] then stripped else tail

/-- Characters of a label kept on the right of a middle truncation. -/
def TAIL_CHARS : Nat := 8

/-- Labels at or under this length are never split. -/
def SPLIT_THRESHOLD : Nat := 12

structure SplitLabel where
  labelHead : Text
  labelTail : Text

def splitLabel (label : Text) : SplitLabel :=
  if label.length ≤ SPLIT_THRESHOLD then ⟨label, []⟩
  else ⟨label.take (label.length - TAIL_CHARS), label.drop (label.length - TAIL_CHARS)⟩

def segments (path : Text) : List Text := (path.splitOn slash).filter (· ≠ [])

/-- The last `count` segments of a path. -/
def tailSegments (path : Text) (count : Nat) : Text :=
  Js.join [slash] ((segments path).drop ((segments path).length - count))

/-- The depth at which the tails of `paths` are told apart, or that of the deepest. -/
def grownDepth (paths : List Text) : Nat :=
  let deepest := (paths.map fun path => (segments path).length).foldl max 0
  let distinct := fun depth => ((paths.map (tailSegments · depth)).eraseDups).length = paths.length
  ((List.range' 2 (deepest - 2)).find? distinct).getD (max 2 deepest)

section

variable {T : Type} (labelOf : T → Text) (isUntracked : T → Bool) (pathOf : T → Text)

/-- The paths behind each label. -/
def pathsByLabel (items : List T) : List (Text × List Text) :=
  (items.filter (!isUntracked ·)).foldl
    (fun labels item =>
      Js.file (labelOf item) [pathOf item]
        (fun paths => if paths.contains (pathOf item) then paths else paths ++ [pathOf item]) labels)
    []

/-- Labels of several paths are grown by parent segments. `relabel` writes a label. -/
def disambiguateLabels (relabel : T → Text → T) (items : List T) : List T :=
  (pathsByLabel labelOf isUntracked pathOf items).foldl
    (fun items group =>
      if group.2.length < 2 then items
      else items.map fun item =>
        if isUntracked item || labelOf item ≠ group.1 then item
        else
          let grown := tailSegments (pathOf item) (grownDepth group.2)
          relabel item (if grown = [] then labelOf item else grown))
    items

/-- Growing labels changes nothing that does not depend on the label. -/
theorem map_disambiguateLabels {Y : Type} {relabel : T → Text → T} {f : T → Y}
    (h : ∀ item label, f (relabel item label) = f item) (items : List T) :
    (disambiguateLabels labelOf isUntracked pathOf relabel items).map f = items.map f := by
  unfold disambiguateLabels
  generalize pathsByLabel labelOf isUntracked pathOf items = groups
  induction groups generalizing items with
  | nil => rfl
  | cons group groups ih =>
    rw [List.foldl_cons, ih]
    split
    · rfl
    · rw [List.map_map]
      refine List.map_congr_left fun item _ => ?_
      dsimp only [Function.comp_apply]
      split
      · rfl
      · exact h item _

end

/-! ## Rows -/

/-- A session of the host's list. `rest` is what the tree carries along. -/
structure SessionSummary (R : Type) where
  name : Text
  created : Int
  activity : Int
  attached : Bool
  path : Option Text
  /-- The repository of a linked worktree. -/
  repoRoot : Option Text
  rest : R
  deriving DecidableEq

variable {R : Type}

/-- Last activity, falling back to the creation time. -/
def sessionActivity (session : SessionSummary R) : Int :=
  if session.activity ≠ 0 then session.activity else session.created

/-- The path a session groups under. -/
def groupingPath (session : SessionSummary R) : Text :=
  canonicalisePath ((session.repoRoot <|> session.path).getD [])

structure SessionTreeRow (R : Type) where
  session : SessionSummary R
  label : Text
  labelHead : Text
  labelTail : Text
  nameHead : Text
  nameTail : Text
  folderPath : Text
  siblings : Nat
  untracked : Bool
  deriving DecidableEq

/-- How many sessions are in each folder. -/
def folderCounts (sessions : List (SessionSummary R)) : List (Text × Nat) :=
  sessions.foldl (fun counts session => Js.file (groupingPath session) 1 (· + 1) counts) []

def rowOf (counts : List (Text × Nat)) (session : SessionSummary R) : SessionTreeRow R :=
  let folderPath := groupingPath session
  let untracked := decide (folderPath = untrackedPath)
  let label := if untracked then session.name else defaultLabelForPath folderPath
  { session
    label
    labelHead := (splitLabel label).labelHead
    labelTail := (splitLabel label).labelTail
    nameHead := (splitLabel session.name).labelHead
    nameTail := (splitLabel session.name).labelTail
    folderPath
    siblings := (Js.property folderPath counts).getD 1
    untracked }

/-- One row per session, in the order the sessions arrived. -/
def buildRows (sessions : List (SessionSummary R)) : List (SessionTreeRow R) :=
  sessions.map (rowOf (folderCounts sessions))

theorem map_session_buildRows (sessions : List (SessionSummary R)) :
    (buildRows sessions).map (·.session) = sessions := by
  rw [buildRows, List.map_map]
  exact List.map_id sessions

end PocketShell.SessionTree
