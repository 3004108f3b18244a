import PocketShell.SavedHosts.Document
import PocketShell.Workspaces.Paths

/-!
# What the workspace roots keep in storage

* `WorkspacePreferencesDocument`, `WorkspaceRootOrderStore`: the order of the roots, for
  each host.
* `RestoredWorkspaceRootsLedger`: the hosts whose roots of a previous client were
  restored. It fails closed.
-/

namespace PocketShell.Workspaces

open Js (Text Json JsInteger ascii property assign keys)
open SavedHosts (isControl itemsOf numberOf require orThrow bind_ok orThrow_ok schemaVersionKey hostsKey)

/-! ## Storage -/

/-- The entries that are written: the order, the ledger and the copies of either that
could not be read. -/
inductive StorageKey
  | order
  | restored
  | orderCopy
  | restoredCopy

structure Storage where
  order : Option Text
  restored : Option Text
  orderCopies : List Text
  restoredCopies : List Text

/-- What `setItem` throws for a key, if it does. -/
abbrev Refusals : Type := StorageKey → Option Text

def Storage.written (storage : Storage) (key : StorageKey) (value : Text) : Storage :=
  match key with
  | .order => { storage with order := some value }
  | .restored => { storage with restored := some value }
  | .orderCopy => { storage with orderCopies := storage.orderCopies ++ [value] }
  | .restoredCopy => { storage with restoredCopies := storage.restoredCopies ++ [value] }

def Storage.setItem (refuses : Refusals) (key : StorageKey) (value : Text) (storage : Storage) :
    Except Text Storage :=
  match refuses key with
  | some error => .error error
  | none => .ok (storage.written key value)

/-! ## The order of the roots -/

structure HostWorkspacePreferences where
  rootOrder : List Text

/-- The hosts with their preferences, by the identity passed to `workspaces --host`. -/
structure WorkspacePreferencesDocument where
  hosts : List (Text × HostWorkspacePreferences)
  once : (keys hosts).Nodup

def emptyWorkspacePreferences : WorkspacePreferencesDocument := ⟨[], List.nodup_nil⟩

def WorkspacePreferencesDocument.entered (document : WorkspacePreferencesDocument) (hostIdentity : Text)
    (preferences : HostWorkspacePreferences) : WorkspacePreferencesDocument :=
  ⟨assign hostIdentity preferences document.hosts, Js.nodup_assign document.once⟩

def hostIdentityMax : Nat := 256

def rootIdentityMax : Nat := 4096

def isValidWorkspaceHostIdentity (value : Text) : Bool :=
  Js.trim value ≠ [] && value.length ≤ hostIdentityMax && !value.any isControl

def validRootIdentity (value : Text) : Bool :=
  Js.trim value ≠ [] && value.length ≤ rootIdentityMax && !value.any isControl

section

variable {N : Type} [JsInteger N]

def rootOrderKey : Text := ascii "rootOrder"

/-- An assignment to this property of an object sets its prototype. -/
def protoKey : Text := ascii "__proto__"

def rootIdentityOf (item : Json N) : Option Text :=
  match item.view with
  | .str s => if validRootIdentity s then some s else none
  | _ => none

/-- A list of different roots. -/
def rootOrderOf (entry : List (Text × Json N)) : Option (List Text) := do
  let items ← (itemsOf (property rootOrderKey entry)).filter (·.length ≤ sessionRootsMax * 4)
  let order ← items.mapM rootIdentityOf
  if order.Nodup then some order else none

def malformedEntry : String := "Saved workspace root order has a malformed host entry."

def parseEntry (p : Text × Json N) : Except String (Text × HostWorkspacePreferences) :=
  match p.2.view with
  | .obj entry _ => do
    require (isValidWorkspaceHostIdentity p.1) malformedEntry
    let order ← orThrow (rootOrderOf entry) "Saved workspace root order has a malformed root list."
    return (p.1, ⟨order⟩)
  | _ => .error malformedEntry

/-- `hosts[hostId] = ...` -/
def WorkspacePreferencesDocument.read (document : WorkspacePreferencesDocument)
    (p : Text × HostWorkspacePreferences) : WorkspacePreferencesDocument :=
  if p.1 = protoKey then document else document.entered p.1 p.2

/-- The members of `value.hosts` when the document has the supported format. -/
def hostMembers (value : Json N) : Option (List (Text × Json N)) :=
  match value.view with
  | .obj members _ => do
    let _ ← ((numberOf schemaVersionKey members).bind JsInteger.safe).filter (· = 1)
    match (property hostsKey members).map Json.view with
    | some (.obj hosts _) => some hosts
    | _ => none
  | _ => none

variable (N) in
/-- Absent storage is an empty document; anything malformed throws. -/
def parseWorkspacePreferences (raw : Option Text) : Except String WorkspacePreferencesDocument :=
  match raw with
  | none => .ok emptyWorkspacePreferences
  | some text => do
    let value : Json N ← orThrow (Js.JSON.parse text) "Saved workspace root order is not valid JSON."
    let members ← orThrow (hostMembers value) "Saved workspace root order has an unsupported format."
    let entries ← members.mapM parseEntry
    return entries.foldl .read emptyWorkspacePreferences

end

def HostWorkspacePreferences.toJson {N : Type} (preferences : HostWorkspacePreferences) : Json N :=
  .obj [(rootOrderKey, .arr (preferences.rootOrder.map .str))] Js.nodup_single

section

variable (N : Type) [JsInteger N] (refuses : Refusals)

def WorkspacePreferencesDocument.members (document : WorkspacePreferencesDocument) : List (Text × Json N) :=
  document.hosts.map fun p => (p.1, p.2.toJson)

omit [JsInteger N] in
theorem WorkspacePreferencesDocument.keys_members (document : WorkspacePreferencesDocument) :
    keys (document.members N) = keys document.hosts := by
  unfold members keys
  rw [List.map_map]
  rfl

def WorkspacePreferencesDocument.toJson (document : WorkspacePreferencesDocument) : Json N :=
  .obj [(schemaVersionKey, .num (JsInteger.ofInt 1)),
    (hostsKey, .obj (document.members N) (document.keys_members N ▸ document.once))]
    (Js.once_of [schemaVersionKey, hostsKey] rfl (by decide))

def serializeWorkspacePreferences (document : WorkspacePreferencesDocument) : Text :=
  Js.JSON.stringify (document.toJson N)

def hostWorkspacePreferences (document : WorkspacePreferencesDocument) (hostIdentity : Text) :
    HostWorkspacePreferences :=
  (property hostIdentity document.hosts).getD ⟨[]⟩

def withHostWorkspacePreferences (document : WorkspacePreferencesDocument) (hostIdentity : Text)
    (update : HostWorkspacePreferences) : Except String WorkspacePreferencesDocument := do
  require (isValidWorkspaceHostIdentity hostIdentity) "A workspace host identity is required."
  return document.entered hostIdentity ⟨(update.rootOrder.filter validRootIdentity).eraseDups⟩

/-- `none` when the host has an entry: then the document is untouched. -/
def seedHostWorkspacePreferences (document : WorkspacePreferencesDocument) (hostIdentity : Text)
    (seed : HostWorkspacePreferences) : Except String (Option WorkspacePreferencesDocument) :=
  if (keys document.hosts).contains hostIdentity then .ok none
  else (withHostWorkspacePreferences document hostIdentity seed).map some

/-- Durable order of the roots of each host. -/
structure WorkspaceRootOrderStore where
  document : WorkspacePreferencesDocument
  /-- Why the stored order could not be read. -/
  loadError : Option Text

/-- The constructor, with the storage it leaves. -/
def WorkspaceRootOrderStore.load (storage : Storage) : WorkspaceRootOrderStore × Storage :=
  match parseWorkspacePreferences N storage.order with
  | .ok document => (⟨document, none⟩, storage)
  | .error error =>
    match storage.setItem refuses .orderCopy (storage.order.getD []) with
    | .ok storage' =>
      let message := ascii error ++ ascii " Root order starts fresh; the unreadable copy was kept."
      (⟨emptyWorkspacePreferences, some message⟩, storage')
    | .error _ =>
      let message := ascii "Saved workspace root order is unreadable and could not be preserved."
      (⟨emptyWorkspacePreferences, some message⟩, storage)

def WorkspaceRootOrderStore.commit (store : WorkspaceRootOrderStore) (storage : Storage)
    (next : WorkspacePreferencesDocument) : Except Text (WorkspaceRootOrderStore × Storage) := do
  let storage ← storage.setItem refuses .order (serializeWorkspacePreferences N next)
  return ({ store with document := next }, storage)

/-- What a `WorkspacePreferencesError` says. -/
def thrown {α : Type} (result : Except String α) : Except Text α := result.mapError ascii

def WorkspaceRootOrderStore.set (store : WorkspaceRootOrderStore) (storage : Storage)
    (hostIdentity : Text) (preferences : HostWorkspacePreferences) :
    Except Text (WorkspaceRootOrderStore × Storage) := do
  let next ← thrown (withHostWorkspacePreferences store.document hostIdentity preferences)
  store.commit N refuses storage next

/-- Seed a host that has no order yet; `none` when nothing was written. -/
def WorkspaceRootOrderStore.seed (store : WorkspaceRootOrderStore) (storage : Storage)
    (hostIdentity : Text) (preferences : HostWorkspacePreferences) :
    Except Text (Option (WorkspaceRootOrderStore × Storage)) := do
  match ← thrown (seedHostWorkspacePreferences store.document hostIdentity preferences) with
  | none => return none
  | some next => (store.commit N refuses storage next).map some

/-! ## The ledger of the restore -/

/-- The ledger entry that marks every host as already restored. -/
def allHostsRestored : Text := ascii "*"

def stringOf (item : Json N) : Option Text :=
  match item.view with
  | .str s => some s
  | _ => none

namespace RestoredWorkspaceRootsLedger

def parse (raw : Text) : Option (List Text) := do
  let value : Json N ← Js.JSON.parse raw
  let items ← itemsOf (some value)
  items.mapM (stringOf N)

/-- `none` when the record cannot be read. -/
def read (storage : Storage) : Option (List Text) :=
  match storage.restored with
  | none => some []
  | some raw => parse N raw

/-- Whether a record that can be read marks the host. -/
def marks (hostIdentity : Text) (current : List Text) : Bool :=
  current.contains allHostsRestored || current.contains hostIdentity

/-- A record that cannot be read counts as every host already restored. -/
def has (storage : Storage) (hostIdentity : Text) : Bool := (read N storage).all (marks hostIdentity)

def recordOf (hosts : List Text) : Text := Js.JSON.stringify (.arr (hosts.map .str) : Json N)

def add (storage : Storage) (hostIdentity : Text) : Except Text Storage :=
  match read N storage with
  | none => .ok storage
  | some current =>
    if marks hostIdentity current then .ok storage
    else storage.setItem refuses .restored (recordOf N (current ++ [hostIdentity]))

def unreadableKept : Text :=
  ascii "The workspace roots restore record is unreadable, so roots saved on this device were not " ++
    ascii "restored again; the unreadable copy was kept."

def unreadableLost : Text :=
  ascii "The workspace roots restore record is unreadable and could not be preserved; " ++
    ascii "roots saved on this device were not restored again."

/-- Keep a copy, and only then repair the record to the closed, readable form. Beside
the error, what is left in storage. -/
def repair (raw : Text) (storage : Storage) : Text × Storage :=
  match storage.setItem refuses .restoredCopy raw with
  | .error _ => (unreadableLost, storage)
  | .ok kept =>
    match kept.setItem refuses .restored (recordOf N [allHostsRestored]) with
    | .error _ => (unreadableLost, kept)
    | .ok repaired => (unreadableKept, repaired)

/-- The constructor: `loadError`, and what is left in storage. -/
def load (storage : Storage) : Option Text × Storage :=
  match storage.restored with
  | none => (none, storage)
  | some raw =>
    match parse N raw with
    | some _ => (none, storage)
    | none =>
      let repaired := repair N refuses raw storage
      (some repaired.1, repaired.2)

end RestoredWorkspaceRootsLedger

end

/-! ## What is read of what was written -/

section

variable {N : Type} [JsInteger N]

omit [JsInteger N] in
theorem parseEntry_key {p : Text × Json N} {entry : Text × HostWorkspacePreferences}
    (h : parseEntry p = .ok entry) : entry.1 = p.1 := by
  unfold parseEntry at h
  split at h
  · obtain ⟨_, _, h⟩ := bind_ok h
    obtain ⟨_, _, h⟩ := bind_ok h
    cases h
    rfl
  · cases h

omit [JsInteger N] in
theorem mapM_parseEntry_keys : ∀ {members : List (Text × Json N)}
    {entries : List (Text × HostWorkspacePreferences)}, members.mapM parseEntry = .ok entries →
    keys entries = keys members
  | [], _, h => by
    cases h
    rfl
  | p :: members, _, h => by
    rw [List.mapM_cons] at h
    obtain ⟨entry, hentry, h⟩ := bind_ok h
    obtain ⟨rest, hrest, h⟩ := bind_ok h
    cases h
    have hkey := parseEntry_key hentry
    have hkeys := mapM_parseEntry_keys hrest
    unfold keys at hkeys ⊢
    rw [List.map_cons, List.map_cons, hkeys, hkey]

variable {document : WorkspacePreferencesDocument}

theorem entered_keys {hostIdentity host : Text} {preferences : HostWorkspacePreferences}
    (h : host ∈ keys (document.entered hostIdentity preferences).hosts) :
    host = hostIdentity ∨ host ∈ keys document.hosts := by
  obtain ⟨p, hp, rfl⟩ := List.mem_map.mp h
  rcases Js.mem_assign hp with rfl | hp
  · exact .inl rfl
  · exact .inr (List.mem_map_of_mem hp)

theorem foldl_read_keys {host : Text} {entries : List (Text × HostWorkspacePreferences)} :
    ∀ {document : WorkspacePreferencesDocument}, host ∈ keys (entries.foldl .read document).hosts →
      host ∈ keys document.hosts ∨ host ∈ keys entries := by
  induction entries with
  | nil => exact fun h => .inl h
  | cons p entries ih =>
    intro document h
    rcases ih h with h | h
    · unfold WorkspacePreferencesDocument.read at h
      split at h
      · exact .inl h
      · rcases entered_keys h with rfl | h
        · exact .inr List.mem_cons_self
        · exact .inl h
    · exact .inr (List.mem_cons_of_mem p.1 h)

theorem hostMembers_toJson {members : List (Text × Json N)}
    (h : hostMembers (document.toJson N).written = some members) : keys members = keys document.hosts := by
  unfold WorkspacePreferencesDocument.toJson at h
  rw [Js.Json.written_obj] at h
  unfold hostMembers at h
  rw [Js.Json.view_obj] at h
  obtain ⟨_, _, h⟩ := Option.bind_eq_some_iff.mp h
  have hview : ((property hostsKey ([(schemaVersionKey, Js.Json.num (JsInteger.ofInt 1)),
      (hostsKey, .obj (document.members N) (document.keys_members N ▸ document.once))].map fun p =>
        (p.1, p.2.written))).map Js.Json.view) =
      some (Js.Json.written (.obj (document.members N)
        (document.keys_members N ▸ document.once))).view := rfl
  rw [hview, Js.Json.written_obj, Js.Json.view_obj] at h
  cases h
  rw [Js.Json.keys_written, document.keys_members]

/-- A document that is read back has no hosts beside those that were written. -/
theorem parse_serialize_keys {document read : WorkspacePreferencesDocument} {host : Text}
    (h : parseWorkspacePreferences N (some (serializeWorkspacePreferences N document)) = .ok read)
    (hhost : host ∈ keys read.hosts) : host ∈ keys document.hosts := by
  unfold parseWorkspacePreferences serializeWorkspacePreferences at h
  simp only [Js.JSON.parse_stringify] at h
  obtain ⟨value, hvalue, h⟩ := bind_ok h
  cases hvalue
  obtain ⟨members, hmembers, h⟩ := bind_ok h
  obtain ⟨entries, hentries, h⟩ := bind_ok h
  cases h
  rcases foldl_read_keys hhost with hhost | hhost
  · cases hhost
  · rwa [mapM_parseEntry_keys hentries, hostMembers_toJson (orThrow_ok hmembers)] at hhost

/-! ## The ledger and the order over the writes -/

/-- An order is stored for the host, in a document that can be read. -/
def hasOrder (N : Type) [JsInteger N] (stored : Option Text) (host : Text) : Prop :=
  ∃ document, parseWorkspacePreferences N stored = .ok document ∧ host ∈ keys document.hosts

variable {refuses : Refusals} {storage storage' : Storage}

theorem setItem_ok {key : StorageKey} {value : Text}
    (h : storage.setItem refuses key value = .ok storage') : storage' = storage.written key value := by
  unfold Storage.setItem at h
  split at h
  · cases h
  · cases h
    rfl

namespace WorkspaceRootOrderStore

variable {store store' : WorkspaceRootOrderStore} {hostIdentity : Text} {preferences : HostWorkspacePreferences}

/-- The document in memory is the one that was written. -/
def Committed (N : Type) [JsInteger N] (storage : Storage) (written : WorkspaceRootOrderStore × Storage) : Prop :=
  written.2 = storage.written .order (serializeWorkspacePreferences N written.1.document)

theorem commit_ok {next : WorkspacePreferencesDocument}
    (h : store.commit N refuses storage next = .ok (store', storage')) :
    Committed N storage (store', storage') := by
  unfold commit at h
  obtain ⟨_, hwritten, h⟩ := bind_ok h
  cases h
  exact setItem_ok hwritten

theorem set_ok (h : store.set N refuses storage hostIdentity preferences = .ok (store', storage')) :
    Committed N storage (store', storage') := by
  unfold set at h
  obtain ⟨_, _, h⟩ := bind_ok h
  exact commit_ok h

theorem seed_ok (h : store.seed N refuses storage hostIdentity preferences = .ok (some (store', storage'))) :
    hostIdentity ∉ keys store.document.hosts ∧ Committed N storage (store', storage') := by
  unfold seed at h
  obtain ⟨next, hnext, h⟩ := bind_ok h
  cases next with
  | none => cases h
  | some next =>
    have hnew : hostIdentity ∉ keys store.document.hosts := by
      intro hmem
      unfold seedHostWorkspacePreferences at hnext
      rw [if_pos (List.contains_iff_mem.mpr hmem)] at hnext
      cases hnext
    cases hcommit : store.commit N refuses storage next with
    | error error =>
      simp only [hcommit] at h
      cases h
    | ok written =>
      simp only [hcommit] at h
      cases h
      exact ⟨hnew, commit_ok hcommit⟩

/-- What is read back of a written order is in memory. -/
theorem Committed.remembers (h : Committed N storage (store, storage')) {host : Text}
    (hhost : hasOrder N storage'.order host) : host ∈ keys store.document.hosts := by
  obtain ⟨document, hread, hmem⟩ := hhost
  have hstorage : storage' = storage.written .order (serializeWorkspacePreferences N store.document) := h
  rw [hstorage] at hread
  exact parse_serialize_keys hread hmem

/-- A store that was loaded remembers what can be read. -/
theorem load_remembers {host : Text} (h : hasOrder N (load N refuses storage).2.order host) :
    host ∈ keys (load N refuses storage).1.document.hosts := by
  unfold load at h ⊢
  cases hparse : parseWorkspacePreferences N storage.order with
  | ok document =>
    simp only [hparse] at h ⊢
    obtain ⟨document', hread, hmem⟩ := h
    rw [hparse] at hread
    cases hread
    exact hmem
  | error error =>
    have hnone : ¬hasOrder N storage.order host := by
      rintro ⟨document, hread, -⟩
      rw [hparse] at hread
      cases hread
    simp only [hparse] at h
    split at h
    · next hkept =>
      cases setItem_ok hkept
      exact absurd h hnone
    · exact absurd h hnone

theorem load_restored : (load N refuses storage).2.restored = storage.restored := by
  unfold load
  split
  · rfl
  · split
    · next hkept =>
      cases setItem_ok hkept
      rfl
    · rfl

end WorkspaceRootOrderStore

namespace RestoredWorkspaceRootsLedger

variable {host hostIdentity : Text}

omit [JsInteger N] in
theorem mapM_stringOf (hosts : List Text) : (hosts.map Json.str).mapM (stringOf N) = some hosts := by
  induction hosts with
  | nil => rfl
  | cons host hosts ih =>
    rw [List.map_cons, List.mapM_cons, ih]
    rfl

theorem parse_recordOf (hosts : List Text) : parse N (recordOf N hosts) = some hosts := by
  unfold parse recordOf
  rw [Js.JSON.parse_stringify]
  have hwritten : (Json.arr (hosts.map .str) : Json N).written = .arr (hosts.map .str) := by
    refine Js.Json.written_arr_self fun v hv => ?_
    obtain ⟨host, _, rfl⟩ := List.mem_map.mp hv
    rfl
  have hitems : itemsOf (some (Json.arr (hosts.map .str) : Json N)) = some (hosts.map .str) := by
    unfold itemsOf
    rw [Option.map_some, Js.Json.view_arr]
  rw [hwritten]
  simp only [Option.bind_eq_bind, Option.bind_some, hitems, mapM_stringOf]

theorem read_written (hosts : List Text) :
    read N (storage.written .restored (recordOf N hosts)) = some hosts := parse_recordOf hosts

/-- Only the ledger itself is asked. -/
theorem has_congr (h : storage'.restored = storage.restored) : has N storage' host = has N storage host := by
  unfold has read
  rw [h]

/-- What the ledger has it keeps. -/
theorem has_add (h : add N refuses storage hostIdentity = .ok storage') (hhas : has N storage host = true) :
    has N storage' host = true := by
  unfold add at h
  split at h
  · cases h
    exact hhas
  · next current hread =>
    split at h
    · cases h
      exact hhas
    · cases setItem_ok h
      unfold has at hhas ⊢
      rw [hread, Option.all_some] at hhas
      rw [read_written, Option.all_some]
      simp only [marks, Bool.or_eq_true, List.contains_iff_mem, List.mem_append] at hhas ⊢
      tauto

theorem has_load (hhas : has N storage host = true) : has N (load N refuses storage).2 host = true := by
  unfold load
  split
  · exact hhas
  · split
    · exact hhas
    · next raw hraw hparse =>
      unfold repair
      split
      · exact hhas
      · next kept hkept =>
        cases setItem_ok hkept
        split
        · exact hhas
        · next repaired hrepaired =>
          cases setItem_ok hrepaired
          show (read N (Storage.written _ .restored (recordOf N [allHostsRestored]))).all (marks host) = true
          rw [read_written]
          rfl

theorem load_order : (load N refuses storage).2.order = storage.order := by
  unfold load
  split
  · rfl
  · split
    · rfl
    · unfold repair
      split
      · rfl
      · next hkept =>
        cases setItem_ok hkept
        split
        · rfl
        · next hrepaired =>
          cases setItem_ok hrepaired
          rfl

/-- A record that cannot be read is closed. -/
theorem has_of_unreadable (h : read N storage = none) : has N storage host = true := by
  unfold has
  rw [h]
  rfl

end RestoredWorkspaceRootsLedger

end

end PocketShell.Workspaces
