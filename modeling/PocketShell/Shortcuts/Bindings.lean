import PocketShell.Js.Json
import PocketShell.Shortcuts.Table

/-!
# Bindings in force

* `validateBinding`, `conflictingBinding`: whether a chord may be bound, and why not.
* `resolveBindings`: the defaults with the stored overrides applied one after another.
* `Overrides`: what the settings keep, with the moves that change it.
* `Action`, `run`: any sequence of loads, rebinds and resets.
-/

namespace PocketShell.Shortcuts

open Js (Text Json Raw ascii keys property assign remove)

/-! ## 1. The validator -/

/-- The chords of each binding, in the order of the registry. -/
abbrev Bindings : Type := List (Text × List Chord)

inductive RefusalKind
  | unknown
  | locked
  | noModifier
  | modifierOnly
  | reserved
  | menu
  | conflict (withId : Text)

structure BindingRefusal where
  kind : RefusalKind
  message : Text

/-- Both can be pressed at one moment, and they are not rungs of one ladder. -/
def rivals (spec other : ShortcutSpec) : Bool :=
  surfacesCollide spec.surface other.surface && !spec.ladders.any (other.ladders.contains ·)

/-- A binding other than `spec` that holds `chord` where `spec` can be pressed. -/
def clashes (spec : ShortcutSpec) (id : Text) (chord : Chord) (binding : Text × List Chord) : Bool :=
  binding.1 ≠ id &&
    match shortcutById binding.1 with
    | none => false
    | some other =>
      rivals spec other && binding.2.any (chordToString · = chordToString chord)

/-- The id of a binding that already holds `chord` somewhere `id` can be pressed. -/
def conflictingBinding (id : Text) (chord : Chord) (inForce : Bindings) : Option Text :=
  match shortcutById id with
  | none => none
  | some spec => (inForce.find? (clashes spec id chord)).map Prod.fst

variable (casing : Casing)

def lockedMessage : ShortcutOwner → Text
  | .main =>
    ascii
      "This chord is recognised in the main process, before the page sees the key, so it cannot be changed from here."
  | .library => ascii "This belongs to the editor’s own keymap, not to PocketShell."
  | _ => ascii "This one is fixed. See the note beside it for why."

/-- The refusals that do not look at the other bindings, from the most specific cause on. -/
def refusedAlone (spec : ShortcutSpec) (chord : Chord) : Option BindingRefusal :=
  let spelling := chordToString chord
  if MODIFIER_KEYS.contains (casing.toUpperCase chord.key) then
    some ⟨.modifierOnly, ascii "That is a modifier on its own. Hold it and press a key."⟩
  else if ZOOM_OWNED.contains spelling then
    some ⟨.menu, formatChord chord ++
      ascii " is one of the zoom chords, which the main process handles before the page sees the key."⟩
  else
    match MENU_CLAIMED_UNSUPPRESSIBLE.find? (·.chord = spelling) with
    | some menu =>
      some ⟨.menu, ascii "Electron’s built-in menu owns " ++ formatChord chord ++ ascii " (" ++
        menu.role ++ ascii ") and the page cannot take it back — you would get both."⟩
    | none =>
      if !chord.ctrl && !chord.alt then
        some ⟨.noModifier, ascii "A shortcut needs Ctrl or Alt. Without one it would swallow ordinary typing."⟩
      else if reachesAShell spec.surface then
        match RESERVED_CHORDS.find? (·.chord = spelling) with
        | some reserved =>
          some ⟨.reserved, formatChord chord ++ ascii " belongs to the shell: " ++ reserved.why⟩
        | none =>
          if chord.alt && !chord.ctrl then
            some ⟨.reserved,
              ascii "A bare Alt chord is Meta at a terminal — it sends ESC and the key, which programs read. Add Ctrl."⟩
          else none
      else none

/-- The message of a conflict. The binding that was found is in the registry. -/
def conflictMessage (chord : Chord) (clash : Text) : Text :=
  match shortcutById clash with
  | none => []
  | some other =>
    formatChord chord ++ ascii " is already " ++ other.label ++ ascii " (" ++
      surfaceLabel other.surface ++ ascii "), and both are live at the same time."

/-- Whether `chord` may be bound to `id`, given every other binding in force. -/
def validateBinding (id : Text) (chord : Chord) (inForce : Bindings) : Option BindingRefusal :=
  match shortcutById id with
  | none => some ⟨.unknown, ascii "No shortcut is called " ++ id ++ ascii "."⟩
  | some spec =>
    if !spec.rebindable then some ⟨.locked, lockedMessage spec.owner⟩
    else
      match refusedAlone casing spec chord with
      | some refusal => some refusal
      | none =>
        match conflictingBinding id chord inForce with
        | none => none
        | some clash => some ⟨.conflict clash, conflictMessage chord clash⟩

/-! ## 2. The map in force -/

/-- The registry's own defaults, parsed. -/
def defaultBindings : Bindings :=
  SHORTCUTS.map fun spec => (spec.id, spec.defaults.filterMap (parseChord casing))

/-- One override, against the map as it is being built. -/
def applyOverride (resolved : Bindings) (override : Text × Text) : Bindings :=
  match shortcutById override.1 with
  | none => resolved
  | some spec =>
    if !spec.rebindable then resolved
    else
      match parseChord casing override.2 with
      | none => resolved
      | some chord =>
        if (validateBinding casing override.1 chord resolved).isSome then resolved
        else assign override.1 [chord] resolved

/-- Defaults with the user's overrides applied. -/
def resolveBindings (overrides : List (Text × Text)) : Bindings :=
  overrides.foldl (applyOverride casing) (defaultBindings casing)

/-! ## 3. The settings -/

/-- The overrides that are kept: each id once, in the order they were set. -/
structure Overrides where
  entries : List (Text × Text)
  once : (keys entries).Nodup

namespace Overrides

def empty : Overrides := ⟨[], List.nodup_nil⟩

def set (o : Overrides) (id : Text) (spelling : Text) : Overrides :=
  ⟨assign id spelling o.entries, Js.nodup_assign o.once⟩

def delete (o : Overrides) (id : Text) : Overrides := ⟨remove id o.entries, Js.nodup_remove o.once⟩

end Overrides

section Store

variable {N : Type}

/-- One stored entry: it is kept, in its canonical spelling, or it is dropped. -/
def keepEntry (out : Overrides) (entry : Text × Raw N) : Overrides :=
  match entry.2 with
  | .str value =>
    match shortcutById entry.1 with
    | none => out
    | some spec =>
      if !spec.rebindable then out
      else
        match parseChord casing value with
        | none => out
        | some chord => out.set entry.1 (chordToString chord)
  | _ => out

def asShortcutOverrides (raw : Json N) : Option Overrides :=
  match raw.val with
  | .obj members => some (members.foldl (keepEntry casing) .empty)
  | _ => none

/-- What the settings hold after a load. -/
def loadOverrides (stored : Option (Json N)) : Overrides :=
  (stored.bind (asShortcutOverrides casing)).getD .empty

/-- What the settings write. -/
def Overrides.toJson (o : Overrides) : Json N :=
  ⟨.obj (o.entries.map fun entry => (entry.1, .str entry.2)), by
    refine ⟨?_, Js.wfMembers_iff.mpr ?_⟩
    · have hkeys : keys (o.entries.map fun entry => (entry.1, (Raw.str entry.2 : Raw N))) =
          keys o.entries := by simp [keys]
      exact hkeys ▸ o.once
    · intro member hmember
      obtain ⟨entry, -, rfl⟩ := List.mem_map.mp hmember
      exact trivial⟩

/-- Move a shortcut to `chord`, or say why not. -/
def rebindShortcut (o : Overrides) (id : Text) (chord : Chord) : Overrides × Option BindingRefusal :=
  match validateBinding casing id chord (resolveBindings casing o.entries) with
  | some refusal => (o, some refusal)
  | none => (o.set id (chordToString chord), none)

/-- Put one shortcut back to its shipped chord. -/
def resetShortcut (o : Overrides) (id : Text) : Overrides :=
  if (property id o.entries).isSome then o.delete id else o

inductive Action (N : Type)
  | load (stored : Option (Json N))
  | reload
  | rebindShortcut (id : Text) (chord : Chord)
  | resetShortcut (id : Text)
  | resetAllShortcuts

def step (o : Overrides) : Action N → Overrides
  | .load stored => loadOverrides casing stored
  | .reload => loadOverrides casing (some (o.toJson (N := N)))
  | .rebindShortcut id chord => (rebindShortcut casing o id chord).1
  | .resetShortcut id => resetShortcut o id
  | .resetAllShortcuts => .empty

def run (actions : List (Action N)) : Overrides := actions.foldl (step casing) .empty

end Store

end PocketShell.Shortcuts
