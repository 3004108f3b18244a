import PocketShell.Js.Dict
import PocketShell.Js.Ranked
import PocketShell.SessionTree.Tree
import PocketShell.Workspaces.Preferences

/-!
# The manual order of the folders

The arrangement the user reached by dragging rows of the panel, and how it is stored.

* `applyFolderOrder`, `reorderFolders`: a ranking of folder keys, and the one that a drag gives.
* `FolderOrder`: the rankings of the hosts. `normaliseFolderOrder`: what is taken of stored ones.
* `setFolderOrder`, `folderOrderFor`: of the settings store.
-/

namespace PocketShell.SessionTree

open Js (Text Json JsNumber ascii property keys)
open Workspaces (protoKey)

/-! ## A ranking -/

section

variable {R : Type}

/-- The folder keys root by root, as they are drawn. -/
def folderKeys (roots : List (SessionRootFolder R)) : List Text :=
  roots.flatMap fun root => root.directories.map (·.key)

def applyFolderOrder (roots : List (SessionRootFolder R)) (order : List Text) : List (SessionRootFolder R) :=
  if order = [] then roots
  else roots.map fun root => { root with directories := Js.sortByRank (·.key) order root.directories }

/-- The keys of the whole panel after a row was moved to a gap of its root. `none` when there is
no such row or it stays where it is. -/
def reorderFolders (roots : List (SessionRootFolder R)) (fromKey : Text) (toIndex : Int) : Option (List Text) :=
  match roots.findIdx? fun root => root.directories.any (·.key = fromKey) with
  | none => none
  | some at' =>
    match roots[at']? with
    | none => none
    | some owner =>
      let start := owner.directories.findIdx (·.key = fromKey)
      match owner.directories[start]? with
      | none => none
      | some moving =>
        let gap := (max 0 (min (owner.directories.length : Int) toIndex)).toNat
        -- The row is taken out first, which shifts the gaps after it.
        let to' := if start < gap then gap - 1 else gap
        if to' = start then none
        else
          let arranged := (owner.directories.eraseIdx start).insertIdx to' moving
          some (folderKeys (roots.set at' { owner with directories := arranged }))

end

/-! ## The stored rankings -/

def FOLDER_ORDER_MAX_HOSTS : Nat := 64

def FOLDER_ORDER_MAX_ROWS : Nat := 512

/-- The own properties of the map, in the order they were made. What is assigned to
`__proto__` is none of them. -/
structure FolderOrder where
  hosts : List (Text × List Text)
  once : (keys hosts).Nodup
  named : ∀ host ∈ keys hosts, host ≠ [] ∧ host ≠ protoKey

namespace FolderOrder

variable {host : Text} {order : List Text}

def empty : FolderOrder := ⟨[], List.nodup_nil, fun _ h => by cases h⟩

theorem named_assign {values : FolderOrder} (hhost : host ≠ []) (hproto : host ≠ protoKey) :
    ∀ other ∈ keys (Js.assign host order values.hosts), other ≠ [] ∧ other ≠ protoKey := by
  intro other hother
  rcases Js.mem_keys_assign.mp hother with rfl | hother
  · exact ⟨hhost, hproto⟩
  · exact values.named other hother

/-- `values[host] = order` -/
def assign (values : FolderOrder) (host : Text) (order : List Text) : FolderOrder :=
  if h : host ≠ [] ∧ host ≠ protoKey then
    ⟨Js.assign host order values.hosts, Js.nodup_assign values.once, named_assign h.1 h.2⟩
  else values

/-- `delete values[host]` -/
def delete (values : FolderOrder) (host : Text) : FolderOrder :=
  ⟨Js.remove host values.hosts, Js.nodup_remove values.once,
    fun other hother => values.named other (Js.mem_keys_remove.mp hother).1⟩

end FolderOrder

section

variable {N : Type}

/-- The keys of one host: the first mention of each, up to a limit. -/
def placedKeys (items : List (Json N)) : List Text :=
  items.foldl
    (fun keys item =>
      if FOLDER_ORDER_MAX_ROWS ≤ keys.length then keys
      else match item.view with
        | .str key => if key = [] || keys.any (· = key) then keys else keys ++ [key]
        | _ => keys)
    []

/-- A host that has no list of keys loses its order, and no other does. -/
def normaliseHost (out : FolderOrder) (p : Text × Json N) : FolderOrder :=
  if FOLDER_ORDER_MAX_HOSTS ≤ out.hosts.length then out
  else match p.2.view with
    | .arr items =>
      if p.1 = [] then out
      else if placedKeys items = [] then out
      else out.assign p.1 (placedKeys items)
    | _ => out

/-- `none` for what cannot be trusted at all. -/
def normaliseFolderOrder (raw : Json N) : Option FolderOrder :=
  match raw.view with
  | .obj members _ => some ((Js.ownOrder members).foldl normaliseHost .empty)
  | _ => none

end

/-! ## The settings store -/

def setFolderOrder (values : FolderOrder) (host : Text) (order : List Text) : FolderOrder :=
  if host = [] then values
  else if order = [] then values.delete host
  else values.assign host order

/-- What an object has without being given it, with its `length`. -/
def objectPrototype : List (Text × Option Nat) :=
  [(ascii "constructor", some 1), (ascii "__defineGetter__", some 2), (ascii "__defineSetter__", some 2),
    (ascii "hasOwnProperty", some 1), (ascii "__lookupGetter__", some 1), (ascii "__lookupSetter__", some 1),
    (ascii "isPrototypeOf", some 1), (ascii "propertyIsEnumerable", some 1), (ascii "toString", some 0),
    (ascii "valueOf", some 0), (protoKey, none), (ascii "toLocaleString", some 0)]

/-- What is looked up under a name. -/
inductive Found
  | order (keys : List Text)
  | inherited (length : Option Nat)

/-- `values.folderOrder[host] ?? []` -/
def folderOrderFor (values : FolderOrder) (host : Text) : Found :=
  match property host values.hosts with
  | some order => .order order
  | none =>
    match property host objectPrototype with
    | some length => .inherited length
    | none => .order []

/-- The panel of what was looked up. `none` when the ranking throws: what is inherited has no `map`. -/
def applyFound {R : Type} (roots : List (SessionRootFolder R)) : Found → Option (List (SessionRootFolder R))
  | .order order => some (applyFolderOrder roots order)
  | .inherited length => if length = some 0 then some roots else none

section

variable (N : Type)

/-- The members of the map as they are written. -/
def FolderOrder.members (values : FolderOrder) : List (Text × Json N) :=
  (Js.ownOrder values.hosts).map fun p => (p.1, .arr (p.2.map .str))

theorem FolderOrder.keys_members (values : FolderOrder) :
    (keys (values.members N)).Perm (keys values.hosts) := by
  have hkeys : keys (values.members N) = keys (Js.ownOrder values.hosts) := by
    unfold members keys
    rw [List.map_map]
    rfl
  rw [hkeys]
  exact (Js.ownOrder_perm values.hosts).map Prod.fst

def FolderOrder.toJson (values : FolderOrder) : Json N :=
  .obj (values.members N) ((values.keys_members N).nodup_iff.mpr values.once)

/-- The map that the next start has: what cannot be read is the empty one. -/
def readBack [JsNumber N] (values : FolderOrder) : FolderOrder :=
  ((Js.JSON.parse (Js.JSON.stringify (values.toJson N)) : Option (Json N)).bind normaliseFolderOrder).getD .empty

end

end PocketShell.SessionTree
