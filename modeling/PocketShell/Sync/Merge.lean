import PocketShell.Js.Value

/-!
# The merge that decides what a sync writes

`syncMerge.ts`: the entries of a host list, the selection, and the payload.
-/

namespace PocketShell.Sync

open Js (Text Json JsNumber JSON.parse JSON.stringify View assign property keys ascii)

variable {N : Type}

def nameKey : Text := ascii "name"

def hostnameKey : Text := ascii "hostname"

def hostsKey : Text := ascii "hosts"

def schemaVersionKey : Text := ascii "schemaVersion"

def protoKey : Text := ascii "__proto__"

/-- A host crossing the sync boundary: its properties in their order, a name and a
hostname among them. -/
@[ext] structure SyncHostEntry (N : Type) where
  name : Text
  hostname : Text
  /-- A property that is `none` is `undefined`. -/
  members : List (Text × Option (Json N))
  once : (keys members).Nodup
  named : property nameKey members = some (some (.str name))
  addressed : property hostnameKey members = some (some (.str hostname))

/-- A host of this client, whose type has no property `__proto__`. -/
structure LocalHost (N : Type) extends SyncHostEntry N where
  ordinary : protoKey ∉ keys members

/-- What reading the property `key` gives; `none` is `undefined`. -/
def SyncHostEntry.get (e : SyncHostEntry N) (key : Text) : Option (Json N) :=
  (property key e.members).join

/-! ## Assembling -/

/-- `merged[key] = value`; the setter of a `__proto__` that is not there creates no
property. -/
def setProperty {V : Type} (key : Text) (value : V) (merged : List (Text × V)) : List (Text × V) :=
  if key = protoKey ∧ key ∉ keys merged then merged else assign key value merged

/-- The loop of `mergeLocalOverRemote`. -/
def overlay : List (Text × Option (Json N)) → List (Text × Option (Json N)) →
    List (Text × Option (Json N))
  | [], merged => merged
  | (key, some value) :: rest, merged => overlay rest (setProperty key (some value) merged)
  | (_, none) :: rest, merged => overlay rest merged

theorem nodup_setProperty {V : Type} {key : Text} {value : V} {merged : List (Text × V)}
    (h : (keys merged).Nodup) : (keys (setProperty key value merged)).Nodup := by
  unfold setProperty
  split
  · exact h
  · exact Js.nodup_assign h

theorem overlay_once (rest : List (Text × Option (Json N))) : ∀ merged, (keys merged).Nodup →
    (keys (overlay rest merged)).Nodup := by
  induction rest with
  | nil => exact fun _ h => h
  | cons p rest ih =>
    obtain ⟨key, value⟩ := p
    cases value with
    | none => exact ih
    | some value => exact fun merged h => ih _ (nodup_setProperty h)

variable {rest : List (Text × Option (Json N))}

/-- A defined property of the client is laid over, unless it is the one with a setter. -/
theorem property_overlay {key : Text} (hkey : key ≠ protoKey) :
    ∀ merged, (keys rest).Nodup → property key (overlay rest merged) =
      if (property key rest).join = none then property key merged else property key rest := by
  induction rest with
  | nil => exact fun _ _ => rfl
  | cons p rest ih =>
    obtain ⟨key', value⟩ := p
    intro merged hn
    obtain ⟨hk, hn'⟩ := List.nodup_cons.mp hn
    have hlast : key' = key → property key rest = none := fun h => Js.property_eq_none.mpr (h ▸ hk)
    cases value with
    | none =>
      rw [overlay, ih _ hn', Js.property_cons]
      by_cases he : key' = key
      · rw [hlast he, if_pos he]
        rfl
      · rw [if_neg he]
    | some v =>
      rw [overlay, ih _ hn', Js.property_cons]
      by_cases he : key' = key
      · subst he
        have hset : setProperty key' (some v) merged = assign key' (some v) merged :=
          if_neg fun h => hkey h.1
        rw [hlast rfl, hset, Js.property_assign_self, if_pos rfl]
        rfl
      · have hset : property key (setProperty key' (some v) merged) = property key merged := by
          unfold setProperty
          split
          · rfl
          · exact Js.property_assign_other (Ne.symm he)
        rw [hset, if_neg he]

/-- A client that has no such property leaves the account's as it is. -/
theorem property_overlay_proto (h : protoKey ∉ keys rest) :
    ∀ merged, property protoKey (overlay rest merged) = property protoKey merged := by
  induction rest with
  | nil => exact fun _ => rfl
  | cons p rest ih =>
    obtain ⟨key, value⟩ := p
    intro merged
    have hne : protoKey ≠ key := fun he => h (he ▸ List.mem_cons_self)
    have hrest : protoKey ∉ keys rest := fun hm => h (List.mem_cons_of_mem _ hm)
    cases value with
    | none => exact ih hrest merged
    | some v =>
      have hset : setProperty key (some v) merged = assign key (some v) merged :=
        if_neg fun he => hne he.1.symm
      rw [overlay, ih hrest, hset, Js.property_assign_other hne]

/-- What the client calls an entry stands. -/
theorem overlay_text {key text : Text} (hkey : key ≠ protoKey)
    (hn : (keys rest).Nodup) (h : property key rest = some (some (.str text)))
    (merged : List (Text × Option (Json N))) :
    property key (overlay rest merged) = some (some (.str text)) := by
  rw [property_overlay hkey merged hn, h]
  rfl

theorem nameKey_ne_proto : nameKey ≠ protoKey := by decide

theorem hostnameKey_ne_proto : hostnameKey ≠ protoKey := by decide

/-- Explicit local values win; the others retain the account's. An entry of the
account is never the client's own object. -/
def mergeLocalOverRemote (host : SyncHostEntry N) : Option (SyncHostEntry N) → SyncHostEntry N
  | none => host
  | some remote => {
      name := host.name
      hostname := host.hostname
      members := overlay host.members remote.members
      once := overlay_once _ _ remote.once
      named := overlay_text nameKey_ne_proto host.once host.named _
      addressed := overlay_text hostnameKey_ne_proto host.once host.addressed _ }

/-- `new Map(hosts.map((host) => [host.name, host])).get(alias)` -/
def byName (hosts : List (SyncHostEntry N)) (hostAlias : Text) : Option (SyncHostEntry N) :=
  hosts.reverse.find? (·.name = hostAlias)

/-- What a ticked alias contributes. -/
def entryOf (hosts remote : List (SyncHostEntry N)) (hostAlias : Text) : Option (SyncHostEntry N) :=
  match byName hosts hostAlias with
  | some host => some (mergeLocalOverRemote host (byName remote hostAlias))
  | none => byName remote hostAlias

/-- The loop of `assembleSyncSet`. -/
def assembleFrom (hosts remote : List (SyncHostEntry N)) (seen : List Text) :
    List Text → List (SyncHostEntry N)
  | [] => []
  | hostAlias :: checked =>
    if hostAlias ∈ seen then assembleFrom hosts remote seen checked
    else
      (entryOf hosts remote hostAlias).toList ++ assembleFrom hosts remote (hostAlias :: seen) checked

def assembleSyncSet (hosts remote : List (SyncHostEntry N)) (checked : List Text) :
    List (SyncHostEntry N) :=
  assembleFrom hosts remote [] checked

/-! ## The selection -/

structure SyncSelectionState where
  checked : List Text
  unticked : List Text

/-- `new Set(hosts.map((host) => host.name)).has(alias)` -/
def hasName (hosts : List (SyncHostEntry N)) (hostAlias : Text) : Bool := hostAlias ∈ hosts.map (·.name)

/-- `[...new Set(aliases)]` -/
def unique (aliases : List Text) : List Text := aliases.eraseDups

/-- The loop of `aliasesToAutoCheck`. -/
def autoCheckFrom (off known : List Text) : List (SyncHostEntry N) → List Text
  | [] => []
  | host :: remote =>
    if host.name ∈ known ∨ host.name ∈ off then autoCheckFrom off known remote
    else host.name :: autoCheckFrom off (host.name :: known) remote

def aliasesToAutoCheck (remote : List (SyncHostEntry N)) (checked unticked : List Text) : List Text :=
  autoCheckFrom unticked checked remote

def applyAccountToSelection (remote : List (SyncHostEntry N)) (selection : SyncSelectionState) :
    SyncSelectionState :=
  let checked := unique selection.checked
  let checked := checked ++ aliasesToAutoCheck remote checked selection.unticked
  ⟨checked, (unique selection.unticked).filter fun hostAlias =>
    hasName remote hostAlias && hostAlias ∉ checked⟩

/-! ## The payload -/

inductive InvalidReason
  | invalidJson
  | invalidShape
  | invalidHostEntry
  | unsupportedVersion

inductive SyncPayloadParseResult (N : Type)
  | ok (hosts : List (SyncHostEntry N))
  | invalid (reason : InvalidReason) (index : Option Nat)

def SyncPayloadParseResult.isInvalid : SyncPayloadParseResult N → Bool
  | .ok _ => false
  | .invalid .. => true

/-- The properties that `JSON.stringify` writes. -/
def defined (members : List (Text × Option (Json N))) : List (Text × Json N) :=
  members.filterMap fun p => p.2.map (p.1, ·)

theorem keys_defined {members : List (Text × Option (Json N))} :
    (keys (defined members)).Sublist (keys members) := by
  induction members with
  | nil => exact .slnil
  | cons p members ih =>
    obtain ⟨key, value⟩ := p
    cases value with
    | none => exact ih.cons key
    | some v => exact ih.cons_cons key

def SyncHostEntry.toJson (e : SyncHostEntry N) : Json N :=
  .obj (defined e.members) (keys_defined.nodup e.once)

/-- The payload `{ hosts }`. -/
def payload (entries : List (Json N)) : Json N := .obj [(hostsKey, .arr entries)] Js.nodup_single

/-- The properties of an object that was read. -/
def readMembers (members : List (Text × Json N)) : List (Text × Option (Json N)) :=
  members.map fun p => (p.1, some p.2)

variable {members : List (Text × Json N)}

theorem readMembers_keys : keys (readMembers members) = keys members := by
  rw [keys, readMembers, List.map_map]
  rfl

theorem property_readMembers {key : Text} :
    property key (readMembers members) = (property key members).map some := by
  induction members with
  | nil => rfl
  | cons p members ih =>
    obtain ⟨key', v⟩ := p
    rw [readMembers, List.map_cons, Js.property_cons, Js.property_cons]
    split
    · rfl
    · exact ih

/-- The text that a property is. -/
def textOf (key : Text) (members : List (Text × Json N)) : Option Text :=
  match (property key members).map Json.view with
  | some (.str text) => some text
  | _ => none

theorem textOf_property {key text : Text}
    (h : textOf key members = some text) : property key (readMembers members) = some (some (.str text)) := by
  rw [property_readMembers]
  unfold textOf at h
  cases hp : property key members with
  | none =>
    rw [hp] at h
    cases h
  | some v =>
    rw [hp] at h
    have hv : v = .str text := by
      split at h
      · next s hs =>
        cases h
        exact Json.eq_of_view_str (Option.some.inj hs)
      · cases h
    rw [hv]
    rfl

/-- A name and a hostname, not blank. -/
def namedEntry (members : List (Text × Json N)) (once : (keys members).Nodup) :
    Option (SyncHostEntry N) :=
  match hname : textOf nameKey members with
  | none => none
  | some name =>
    match hhostname : textOf hostnameKey members with
    | none => none
    | some hostname =>
      if Js.trim name ≠ [] ∧ Js.trim hostname ≠ [] then
        some {
          name
          hostname
          members := readMembers members
          once := by rw [readMembers_keys]; exact once
          named := textOf_property hname
          addressed := textOf_property hhostname }
      else none

/-- The check is a cast: the entry with the name and the hostname that it found. -/
def isPlausibleHostEntry (entry : Json N) : Option (SyncHostEntry N) :=
  match entry.view with
  | .obj members once => namedEntry members once
  | _ => none

theorem isPlausible_obj {once : (keys members).Nodup} :
    isPlausibleHostEntry (Json.obj members once) = namedEntry members once := by
  rw [isPlausibleHostEntry, Json.view_obj]

variable [JsNumber N]

def serializeSyncPayload (hosts : List (SyncHostEntry N)) : Text :=
  JSON.stringify (payload (hosts.map SyncHostEntry.toJson))

inductive Decoded (N : Type)
  | ok (root : List (Text × Json N)) (entries : List (Json N))
  | invalid (reason : InvalidReason)

def decodeSyncPayload (plaintext : Text) : Decoded N :=
  match JSON.parse plaintext with
  | none => .invalid .invalidJson
  | some parsed =>
    match parsed.view with
    | .obj root _ =>
      match (property hostsKey root).map Json.view with
      | some (.arr entries) => .ok root entries
      | _ => .invalid .invalidShape
    | _ => .invalid .invalidShape

/-- The loop of `parseSyncPayloadResult`. -/
def parseEntries (index : Nat) (hosts : List (SyncHostEntry N)) :
    List (Json N) → SyncPayloadParseResult N
  | [] => .ok hosts
  | entry :: entries =>
    match isPlausibleHostEntry entry with
    | some host => parseEntries (index + 1) (hosts ++ [host]) entries
    | none => .invalid .invalidHostEntry (some index)

def parseSyncPayloadResult (plaintext : Text) : SyncPayloadParseResult N :=
  match decodeSyncPayload plaintext with
  | .invalid reason => .invalid reason none
  | .ok root entries =>
    if schemaVersionKey ∈ keys root then .invalid .unsupportedVersion none
    else if ∃ key ∈ keys root, key ≠ hostsKey then .invalid .invalidShape none
    else parseEntries 0 [] entries

end PocketShell.Sync
