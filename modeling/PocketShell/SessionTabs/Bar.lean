import PocketShell.SessionTabs.Address

/-!
# The tab bar

The bar of a folder is derived from its sessions and its Files tabs, and then put in the order that
the user has dragged it into. That order is a ranking of ids, and it is kept within the kinds.
-/

namespace PocketShell.SessionTabs.Bar

open Js (Text)

/-! ## 1. The derived order -/

/-- A Files tab is an id and the directory it was opened at. -/
structure FilesTabRecord where
  id : Text
  path : Option Text
  deriving DecidableEq

/-- A tool tab is minted by the client, and is never derived. -/
inductive TabKind
  | session
  | files
  | tool
  deriving DecidableEq

/-- A tab without its label. -/
structure Tab where
  kind : TabKind
  id : Text

/-- Session tabs by creation, then Files tabs in the order they were opened. -/
def buildWorkspaceTabs (localeCompare : Text → Text → Int) (sessions : List Row)
    (files : List FilesTabRecord) : List Tab :=
  let sorted := sessions.mergeSort fun a b =>
    a.rest.created < b.rest.created ||
      (a.rest.created = b.rest.created && localeCompare a.name b.name ≤ 0)
  sorted.map (fun row => ⟨.session, row.name⟩) ++ files.map fun tab => ⟨.files, tab.id⟩

/-! ## 2. The manual order -/

/-- An id without a rank sorts after every ranked one. -/
def tabRank (order : List Text) (id : Text) : Nat := order.idxOf id

def applyTabOrder (tabs : List Tab) (order : List Text) : List Tab :=
  if order = [] then tabs
  else
    let byRank := fun (a b : Tab) => decide (tabRank order a.id ≤ tabRank order b.id)
    (tabs.filter (·.kind = .session)).mergeSort byRank ++
      (tabs.filter (·.kind = .files)).mergeSort byRank

/-- The last tab of the group that starts at `i`. -/
def lastOfKind (tabs : List Tab) (kind : TabKind) (first : Nat) : Nat :=
  first + ((tabs.drop first).takeWhile (·.kind = kind)).length - 1

/-- The ids of the bar with one tab moved to a gap of its group, or none. -/
def reorderTabs (tabs : List Tab) (fromId : Text) (toIndex : Int) : Option (List Text) :=
  match tabs.findIdx? (·.id = fromId) with
  | none => none
  | some start =>
    match tabs[start]? with
    | none => none
    | some moving =>
      let first := tabs.findIdx (·.kind = moving.kind)
      let last := lastOfKind tabs moving.kind first
      let gap := (max (first : Int) (min (last + 1 : Int) toIndex)).toNat
      let target := if gap > start then gap - 1 else gap
      if target = start then none
      else some (((tabs.eraseIdx start).insertIdx target moving).map (·.id))

/-- One place to the left or to the right. -/
def nudgeTabOrder (tabs : List Tab) (fromId : Text) (right : Bool) : Option (List Text) :=
  match tabs.findIdx? (·.id = fromId) with
  | none => none
  | some start => reorderTabs tabs fromId (if right then start + 2 else start - 1)

/-! ## 3. The stack -/

/-- Put the id on top, once. -/
def pushMru (mru : List Text) (id : Text) : List Text := mru.filter (· ≠ id) ++ [id]

/-- The ids that name a tab. -/
def pruneTabIds (ids : List Text) (tabs : List Tab) : List Text :=
  ids.filter fun id => tabs.any (·.id = id)

/-- Which tab is selected once a tab is gone. -/
def tabAfterClose (tabs : List Tab) (closing : Text) (active : Option Text) (mru : List Text) :
    Option Text :=
  if active ≠ none ∧ active ≠ some closing then active
  else
    let remaining := tabs.filter (·.id ≠ closing)
    match mru.reverse.find? fun id => remaining.any (·.id = id) with
    | some id => some id
    | none =>
      match tabs.findIdx? (·.id = closing) with
      | none => remaining.head?.map (·.id)
      | some index => ((remaining[index]?).or remaining.getLast?).map (·.id)

end PocketShell.SessionTabs.Bar
