import PocketShell.Js.Grouped
import PocketShell.Workspaces.Preferences

/-!
# The order of the roots over restarts

What `WorkspaceRootOrderStore` writes is read by the next one.

* `parse_serialize`: which documents can be read, and what is read of them.
* `Effect`, `Call`: the calls, with what they leave when they throw.
* `order_survives`: over a run, the order survives exactly while no list is written that is
  longer than the reader takes and none under `__proto__`.
-/

namespace PocketShell.Workspaces.RootOrder

open Js (Text Json JsInteger ascii property assign keys)
open SavedHosts (itemsOf numberOf require orThrow bind_ok orThrow_ok require_ok schemaVersionKey hostsKey)

/-! ## What is read of a document -/

/-- What the reader takes of a host entry. -/
structure Readable (p : Text × HostWorkspacePreferences) : Prop where
  identity : isValidWorkspaceHostIdentity p.1 = true
  length : p.2.rootOrder.length ≤ sessionRootsMax * 4
  roots : ∀ root ∈ p.2.rootOrder, validRootIdentity root = true
  once : p.2.rootOrder.Nodup

section

variable {N : Type}

theorem rootIdentityOf_ok {item : Json N} {root : Text} (h : rootIdentityOf item = some root) :
    validRootIdentity root = true := by
  unfold rootIdentityOf at h
  split at h
  · split at h
    · next hvalid =>
      cases h
      exact hvalid
    · cases h
  · cases h

theorem mapM_rootIdentityOf : ∀ {items : List (Json N)} {order : List Text}, items.mapM rootIdentityOf = some order →
    order.length = items.length ∧ ∀ root ∈ order, validRootIdentity root = true
  | [], _, h => by
    cases h
    exact ⟨rfl, fun _ h => by cases h⟩
  | item :: items, _, h => by
    rw [List.mapM_cons] at h
    obtain ⟨root, hroot, h⟩ := Option.bind_eq_some_iff.mp h
    obtain ⟨order, horder, h⟩ := Option.bind_eq_some_iff.mp h
    cases h
    obtain ⟨hlength, hvalid⟩ := mapM_rootIdentityOf horder
    exact ⟨congrArg Nat.succ hlength, List.forall_mem_cons.mpr ⟨rootIdentityOf_ok hroot, hvalid⟩⟩

/-- What was taken can be taken. -/
theorem parseEntry_readable {p : Text × Json N} {entry : Text × HostWorkspacePreferences}
    (h : parseEntry p = .ok entry) : Readable entry := by
  unfold parseEntry at h
  split at h
  · obtain ⟨_, hidentity, h⟩ := bind_ok h
    obtain ⟨order, horder, h⟩ := bind_ok h
    cases h
    obtain ⟨items, hitems, hrest⟩ := Option.bind_eq_some_iff.mp (orThrow_ok horder)
    obtain ⟨-, hshort⟩ := Option.filter_eq_some_iff.mp hitems
    obtain ⟨order', hmap, hrest⟩ := Option.bind_eq_some_iff.mp hrest
    split at hrest
    · next honce =>
      cases hrest
      obtain ⟨hlength, hvalid⟩ := mapM_rootIdentityOf hmap
      exact ⟨require_ok hidentity, hlength ▸ of_decide_eq_true hshort, hvalid, honce⟩
    · cases hrest
  · cases h

theorem mapM_rootIdentityOf_str : ∀ {order : List Text}, (∀ root ∈ order, validRootIdentity root = true) →
    (order.map (Json.str : Text → Json N)).mapM rootIdentityOf = some order
  | [], _ => rfl
  | root :: order, h => by
    obtain ⟨hroot, hrest⟩ := List.forall_mem_cons.mp h
    have hone : rootIdentityOf (Json.str root : Json N) = some root := by
      unfold rootIdentityOf
      rw [Js.Json.view_str]
      exact if_pos hroot
    rw [List.map_cons, List.mapM_cons, hone, mapM_rootIdentityOf_str hrest]
    rfl

theorem mapM_rootIdentityOf_same : ∀ {order order' : List Text},
    (order.map (Json.str : Text → Json N)).mapM rootIdentityOf = some order' → order' = order
  | [], _, h => by
    cases h
    rfl
  | root :: order, _, h => by
    rw [List.map_cons, List.mapM_cons] at h
    obtain ⟨root', hroot, h⟩ := Option.bind_eq_some_iff.mp h
    obtain ⟨rest, hrest, h⟩ := Option.bind_eq_some_iff.mp h
    cases h
    unfold rootIdentityOf at hroot
    rw [Js.Json.view_str] at hroot
    dsimp only at hroot
    split at hroot
    · cases hroot
      rw [mapM_rootIdentityOf_same hrest]
    · cases hroot

theorem itemsOf_rootOrder (order : List Text) :
    itemsOf (property rootOrderKey [(rootOrderKey, Json.arr (order.map (Json.str : Text → Json N)))]) =
      some (order.map Json.str) := by
  unfold itemsOf
  rw [Js.property_cons, if_pos rfl, Option.map_some, Js.Json.view_arr]

theorem parseEntry_toJson {p : Text × HostWorkspacePreferences} (h : Readable p) :
    parseEntry (p.1, (p.2.toJson : Json N)) = .ok p := by
  have horder : rootOrderOf [(rootOrderKey, Json.arr (p.2.rootOrder.map (Json.str : Text → Json N)))] =
      some p.2.rootOrder := by
    unfold rootOrderOf
    rw [itemsOf_rootOrder]
    simp only [Option.filter_some, List.length_map, decide_eq_true h.length, if_true, Option.bind_eq_bind,
      Option.bind_some, mapM_rootIdentityOf_str h.roots, if_pos h.once]
  unfold parseEntry HostWorkspacePreferences.toJson
  simp only [Js.Json.view_obj, h.identity, horder]
  rfl

/-- Nothing else is taken of an entry that was written. -/
theorem parseEntry_same {p entry : Text × HostWorkspacePreferences}
    (h : parseEntry (p.1, (p.2.toJson : Json N)) = .ok entry) : entry = p := by
  unfold parseEntry HostWorkspacePreferences.toJson at h
  rw [Js.Json.view_obj] at h
  obtain ⟨_, _, h⟩ := bind_ok h
  obtain ⟨order, horder, h⟩ := bind_ok h
  cases h
  have hread := orThrow_ok horder
  unfold rootOrderOf at hread
  rw [itemsOf_rootOrder] at hread
  obtain ⟨items, hitems, hrest⟩ := Option.bind_eq_some_iff.mp hread
  obtain ⟨hsame, -⟩ := Option.filter_eq_some_iff.mp hitems
  cases hsame
  obtain ⟨order', hmap, hrest⟩ := Option.bind_eq_some_iff.mp hrest
  split at hrest
  · cases hrest
    rw [mapM_rootIdentityOf_same hmap]
  · cases hrest

end

section

variable {N : Type} [JsInteger N]

theorem written_toJson (preferences : HostWorkspacePreferences) :
    (preferences.toJson : Json N).written = preferences.toJson := by
  refine Js.Json.written_obj_self Js.nodup_single fun p hp => ?_
  rw [List.mem_singleton.mp hp]
  refine Js.Json.written_arr_self fun item hitem => ?_
  obtain ⟨root, -, rfl⟩ := List.mem_map.mp hitem
  rfl

variable (N) in
theorem document_written (document : WorkspacePreferencesDocument) :
    (document.toJson N).written = document.toJson N := by
  refine Js.Json.written_obj_self (Js.once_of [schemaVersionKey, hostsKey] rfl (by decide)) fun p hp => ?_
  rcases List.mem_cons.mp hp with rfl | hp
  · exact Js.written_ofInt (by decide)
  · rw [List.mem_singleton.mp hp]
    refine Js.Json.written_obj_self (document.keys_members N ▸ document.once) fun q hq => ?_
    obtain ⟨entry, -, rfl⟩ := List.mem_map.mp hq
    exact written_toJson entry.2

theorem hostMembers_document (document : WorkspacePreferencesDocument) :
    hostMembers (document.toJson N) = some (document.members N) := by
  have hversion : (numberOf schemaVersionKey [(schemaVersionKey, Json.num (JsInteger.ofInt 1)),
      (hostsKey, (Json.obj (document.members N) (document.keys_members N ▸ document.once) : Json N))]).bind
        JsInteger.safe = some 1 := JsInteger.safe_ofInt 1
  have hhosts : (property hostsKey [(schemaVersionKey, (Json.num (JsInteger.ofInt 1) : Json N)),
      (hostsKey, Json.obj (document.members N) (document.keys_members N ▸ document.once))]).map Json.view =
        some (.obj (document.members N) (document.keys_members N ▸ document.once)) :=
    congrArg some Js.Json.view_obj
  unfold hostMembers WorkspacePreferencesDocument.toJson
  rw [Js.Json.view_obj]
  dsimp only
  rw [hversion, hhosts]
  rfl

omit [JsInteger N] in
theorem mapM_parseEntry {hosts entries : List (Text × HostWorkspacePreferences)} :
    (hosts.map fun p => (p.1, (p.2.toJson : Json N))).mapM parseEntry = .ok entries ↔
      (∀ p ∈ hosts, Readable p) ∧ entries = hosts := by
  induction hosts generalizing entries with
  | nil =>
    constructor
    · intro h
      exact ⟨fun _ hp => (by cases hp), (Except.ok.inj h).symm⟩
    · rintro ⟨-, rfl⟩
      rfl
  | cons p hosts ih =>
    rw [List.map_cons, List.mapM_cons]
    constructor
    · intro h
      obtain ⟨entry, hentry, h⟩ := bind_ok h
      obtain ⟨rest, hrest, h⟩ := bind_ok h
      cases h
      obtain ⟨hreadable, rfl⟩ := ih.mp hrest
      obtain rfl := parseEntry_same hentry
      exact ⟨List.forall_mem_cons.mpr ⟨parseEntry_readable hentry, hreadable⟩, rfl⟩
    · rintro ⟨hreadable, rfl⟩
      obtain ⟨hp, hrest⟩ := List.forall_mem_cons.mp hreadable
      rw [parseEntry_toJson hp, ih.mpr ⟨hrest, rfl⟩]
      rfl

/-- What is read of a document that was written. -/
theorem parse_serialize {document read : WorkspacePreferencesDocument} :
    parseWorkspacePreferences N (some (serializeWorkspacePreferences N document)) = .ok read ↔
      (∀ p ∈ document.hosts, Readable p) ∧ read = document.hosts.foldl .read emptyWorkspacePreferences := by
  have hparse : parseWorkspacePreferences N (some (serializeWorkspacePreferences N document)) =
      (document.members N).mapM parseEntry >>= fun entries =>
        .ok (entries.foldl .read emptyWorkspacePreferences) := by
    unfold parseWorkspacePreferences serializeWorkspacePreferences
    simp only [Js.JSON.parse_stringify, document_written]
    show (orThrow (hostMembers (document.toJson N)) _ >>= _) = _
    rw [hostMembers_document]
    rfl
  rw [hparse]
  constructor
  · intro h
    obtain ⟨entries, hentries, h⟩ := bind_ok h
    obtain ⟨hreadable, rfl⟩ := mapM_parseEntry.mp hentries
    cases h
    exact ⟨hreadable, rfl⟩
  · rintro ⟨hreadable, rfl⟩
    have hentries : (document.members N).mapM parseEntry = .ok document.hosts :=
      mapM_parseEntry.mpr ⟨hreadable, rfl⟩
    rw [hentries]
    rfl

/-- Hosts are read but for `__proto__`; a later entry is over an earlier one. -/
theorem property_foldl_read {host : Text} : ∀ {entries : List (Text × HostWorkspacePreferences)}
    {document : WorkspacePreferencesDocument}, (keys entries).Nodup →
      property host (entries.foldl .read document).hosts =
        if host = protoKey then property host document.hosts
        else (property host entries).or (property host document.hosts)
  | [], document, _ => by simp
  | p :: entries, document, hnodup => by
    obtain ⟨hnew, hrest⟩ := List.nodup_cons.mp hnodup
    rw [List.foldl_cons, property_foldl_read hrest]
    have hread : property host (document.read p).hosts =
        if p.1 = host ∧ p.1 ≠ protoKey then some p.2 else property host document.hosts := by
      unfold WorkspacePreferencesDocument.read
      split
      · next hproto => rw [if_neg fun h => h.2 hproto]
      · next hproto =>
        unfold WorkspacePreferencesDocument.entered
        by_cases hhost : p.1 = host
        · rw [if_pos ⟨hhost, hproto⟩, ← hhost, Js.property_assign_self]
        · rw [if_neg fun h => hhost h.1, Js.property_assign_other (Ne.symm hhost)]
    rw [hread]
    split
    · next hproto => rw [if_neg fun h => h.2 (h.1.trans hproto)]
    · next hproto =>
      obtain ⟨key, preferences⟩ := p
      rw [Js.property_cons]
      by_cases hhost : key = host
      · have hnone : property host entries = none := Js.property_eq_none.mpr (hhost ▸ hnew)
        rw [if_pos ⟨hhost, hhost ▸ hproto⟩, if_pos hhost, hnone]
        rfl
      · rw [if_neg fun h => hhost h.1, if_neg hhost]

/-- A host is answered as it was, but for `__proto__`. -/
theorem hostWorkspacePreferences_read (document : WorkspacePreferencesDocument) (host : Text) :
    hostWorkspacePreferences (document.hosts.foldl .read emptyWorkspacePreferences) host =
      if host = protoKey then ⟨[]⟩ else hostWorkspacePreferences document host := by
  have hempty : property host emptyWorkspacePreferences.hosts = none := rfl
  unfold hostWorkspacePreferences
  rw [property_foldl_read document.once, hempty, Option.or_none]
  split <;> rfl

omit [JsInteger N] in
theorem mapM_parseEntry_readable : ∀ {members : List (Text × Json N)}
    {entries : List (Text × HostWorkspacePreferences)}, members.mapM parseEntry = .ok entries →
      ∀ entry ∈ entries, Readable entry
  | [], _, h => by
    cases h
    exact fun _ hp => by cases hp
  | p :: members, _, h => by
    rw [List.mapM_cons] at h
    obtain ⟨entry, hentry, h⟩ := bind_ok h
    obtain ⟨rest, hrest, h⟩ := bind_ok h
    cases h
    exact List.forall_mem_cons.mpr ⟨parseEntry_readable hentry, mapM_parseEntry_readable hrest⟩

theorem mem_foldl_read {p : Text × HostWorkspacePreferences} {entries : List (Text × HostWorkspacePreferences)} :
    ∀ {document : WorkspacePreferencesDocument}, p ∈ (entries.foldl .read document).hosts →
      p ∈ document.hosts ∨ p ∈ entries ∧ p.1 ≠ protoKey := by
  induction entries with
  | nil => exact fun h => .inl h
  | cons q entries ih =>
    intro document h
    rcases ih h with h | ⟨h, hproto⟩
    · unfold WorkspacePreferencesDocument.read at h
      split at h
      · exact .inl h
      · next hproto =>
        rcases Js.mem_assign h with rfl | h
        · exact .inr ⟨List.mem_cons_self, hproto⟩
        · exact .inl h
    · exact .inr ⟨List.mem_cons_of_mem q h, hproto⟩

/-- What has been read can be written. -/
theorem parse_readable {raw : Option Text} {document : WorkspacePreferencesDocument}
    (h : parseWorkspacePreferences N raw = .ok document) :
    ∀ p ∈ document.hosts, Readable p ∧ p.1 ≠ protoKey := by
  cases raw with
  | none =>
    cases h
    exact fun _ hp => by cases hp
  | some text =>
    obtain ⟨_, _, h⟩ := bind_ok h
    obtain ⟨members, _, h⟩ := bind_ok h
    obtain ⟨entries, hentries, h⟩ := bind_ok h
    cases h
    intro p hp
    rcases mem_foldl_read hp with hp | ⟨hp, hproto⟩
    · cases hp
    · exact ⟨mapM_parseEntry_readable hentries p hp, hproto⟩

end

/-! ## The calls -/

/-- The store and what it writes to. -/
structure World where
  store : WorkspaceRootOrderStore
  storage : Storage

/-- What a call gives or throws, and what it leaves. -/
abbrev Effect (α : Type) : Type := World → Except Text α × World

inductive Call
  | set (hostIdentity : Text) (preferences : HostWorkspacePreferences)
  | seed (hostIdentity : Text) (preferences : HostWorkspacePreferences)

def Call.hostIdentity : Call → Text
  | .set hostIdentity _ => hostIdentity
  | .seed hostIdentity _ => hostIdentity

def Call.preferences : Call → HostWorkspacePreferences
  | .set _ preferences => preferences
  | .seed _ preferences => preferences

/-- The order that is written. -/
def Call.rootOrder (call : Call) : List Text := (call.preferences.rootOrder.filter validRootIdentity).eraseDups

section

variable (N : Type) [JsInteger N] (refuses : Refusals)

namespace World

/-- The document is replaced after `setItem` did not throw. -/
def commit (next : WorkspacePreferencesDocument) : Effect Unit := fun world =>
  match world.storage.setItem refuses .order (serializeWorkspacePreferences N next) with
  | .error error => (.error error, world)
  | .ok storage => (.ok (), { store := { world.store with document := next }, storage })

def set (hostIdentity : Text) (preferences : HostWorkspacePreferences) : Effect Unit := fun world =>
  match thrown (withHostWorkspacePreferences world.store.document hostIdentity preferences) with
  | .error error => (.error error, world)
  | .ok next => commit N refuses next world

/-- `true` when it was written. -/
def seed (hostIdentity : Text) (preferences : HostWorkspacePreferences) : Effect Bool := fun world =>
  match thrown (seedHostWorkspacePreferences world.store.document hostIdentity preferences) with
  | .error error => (.error error, world)
  | .ok none => (.ok false, world)
  | .ok (some next) =>
    let committed := commit N refuses next world
    (committed.1.map fun _ => true, committed.2)

/-- What was thrown, if anything was. -/
def threw {α : Type} : Except Text α → Option Text
  | .error error => some error
  | .ok _ => none

/-- A call: what it throws, and what it leaves. -/
def perform (call : Call) (world : World) : Option Text × World :=
  match call with
  | .set hostIdentity preferences =>
    let result := set N refuses hostIdentity preferences world
    (threw result.1, result.2)
  | .seed hostIdentity preferences =>
    let result := seed N refuses hostIdentity preferences world
    (threw result.1, result.2)

/-- The calls are those of the store, which leave what they take when they throw. -/
theorem set_eq (hostIdentity : Text) (preferences : HostWorkspacePreferences) (world : World) :
    set N refuses hostIdentity preferences world =
      match world.store.set N refuses world.storage hostIdentity preferences with
      | .error error => (.error error, world)
      | .ok written => (.ok (), ⟨written.1, written.2⟩) := by
  unfold set WorkspaceRootOrderStore.set
  cases thrown (withHostWorkspacePreferences world.store.document hostIdentity preferences) with
  | error error => rfl
  | ok next =>
    show commit N refuses next world = match world.store.commit N refuses world.storage next with
      | .error error => (.error error, world)
      | .ok written => (.ok (), ⟨written.1, written.2⟩)
    unfold commit WorkspaceRootOrderStore.commit
    cases world.storage.setItem refuses .order (serializeWorkspacePreferences N next) <;> rfl

theorem seed_eq (hostIdentity : Text) (preferences : HostWorkspacePreferences) (world : World) :
    seed N refuses hostIdentity preferences world =
      match world.store.seed N refuses world.storage hostIdentity preferences with
      | .error error => (.error error, world)
      | .ok none => (.ok false, world)
      | .ok (some written) => (.ok true, ⟨written.1, written.2⟩) := by
  unfold seed WorkspaceRootOrderStore.seed
  cases thrown (seedHostWorkspacePreferences world.store.document hostIdentity preferences) with
  | error error => rfl
  | ok next =>
    cases next with
    | none => rfl
    | some next =>
      show (((commit N refuses next world).1.map fun _ => true), (commit N refuses next world).2) =
        match (world.store.commit N refuses world.storage next).map some with
        | .error error => (.error error, world)
        | .ok none => (.ok false, world)
        | .ok (some written) => (.ok true, ⟨written.1, written.2⟩)
      unfold commit WorkspaceRootOrderStore.commit
      cases world.storage.setItem refuses .order (serializeWorkspacePreferences N next) <;> rfl

/-- What is left of a call that writes. -/
def wrote (call : Call) (world : World) : World :=
  let document := world.store.document.entered call.hostIdentity ⟨call.rootOrder⟩
  { store := { world.store with document }
    storage := world.storage.written .order (serializeWorkspacePreferences N document) }

end World

/-- The call writes: it does not throw, and is no seed of a host that has an entry. -/
def Writes (call : Call) (world : World) : Prop :=
  isValidWorkspaceHostIdentity call.hostIdentity = true ∧ refuses .order = none ∧
    ∀ hostIdentity preferences, call = .seed hostIdentity preferences →
      hostIdentity ∉ keys world.store.document.hosts

/-- What is written is no longer than what is read, and not under `__proto__`. -/
def Careful (call : Call) (world : World) : Prop :=
  Writes refuses call world → call.rootOrder.length ≤ sessionRootsMax * 4 ∧
    (call.hostIdentity = protoKey → call.rootOrder = [])

/-- The store that the storage is read by. -/
def World.start (storage : Storage) : World :=
  let loaded := WorkspaceRootOrderStore.load N refuses storage
  ⟨loaded.1, loaded.2⟩

/-- The calls, each with what the storage refuses then. -/
abbrev Steps : Type := List (Refusals × Call)

def World.run (world : World) (steps : Steps) : World :=
  steps.foldl (fun world step => (World.perform N step.1 step.2 world).2) world

def CarefulFrom (world : World) : Steps → Prop
  | [] => True
  | step :: rest => Careful step.1 step.2 world ∧ CarefulFrom (World.perform N step.1 step.2 world).2 rest

/-- The next store reads the text and answers as this one. -/
def OrderKept (world : World) : Prop :=
  ∃ document, parseWorkspacePreferences N world.storage.order = .ok document ∧
    ∀ host, hostWorkspacePreferences document host = hostWorkspacePreferences world.store.document host

/-- The order of each host over a run. -/
structure Survives (world : World) (steps : Steps) : Prop where
  kept : ∀ before after, steps = before ++ after → OrderKept N (world.run N before)
  others : ∀ before refuses call after, steps = before ++ (refuses, call) :: after →
    ∀ host, host ≠ call.hostIdentity →
      hostWorkspacePreferences (World.perform N refuses call (world.run N before)).2.store.document host =
        hostWorkspacePreferences (world.run N before).store.document host
  seeded : ∀ before refuses hostIdentity preferences after,
    steps = before ++ (refuses, .seed hostIdentity preferences) :: after →
      hostIdentity ∈ keys (world.run N before).store.document.hosts →
        World.perform N refuses (.seed hostIdentity preferences) (world.run N before) =
          (none, world.run N before)
  thrown : ∀ before refuses call after error, steps = before ++ (refuses, call) :: after →
    (World.perform N refuses call (world.run N before)).1 = some error →
      (World.perform N refuses call (world.run N before)).2 = world.run N before

end

/-! ## One call -/

section

variable {N : Type} [JsInteger N] {refuses : Refusals} {world : World} {call : Call}

variable {next : WorkspacePreferencesDocument}

theorem commit_refused {error : Text} (h : refuses .order = some error) :
    World.commit N refuses next world = (.error error, world) := by
  unfold World.commit Storage.setItem
  rw [h]

theorem commit_taken (h : refuses .order = none) :
    World.commit N refuses next world = (.ok (), ⟨{ world.store with document := next },
      world.storage.written .order (serializeWorkspacePreferences N next)⟩) := by
  unfold World.commit Storage.setItem
  rw [h]

variable {preferences : HostWorkspacePreferences} {document : WorkspacePreferencesDocument}

theorem with_invalid {host : Text} (h : isValidWorkspaceHostIdentity host ≠ true) :
    ∃ error, withHostWorkspacePreferences document host preferences = .error error := by
  unfold withHostWorkspacePreferences require
  rw [if_neg h]
  exact ⟨_, rfl⟩

theorem with_valid {host : Text} (h : isValidWorkspaceHostIdentity host = true) :
    withHostWorkspacePreferences document host preferences =
      .ok (document.entered host ⟨(preferences.rootOrder.filter validRootIdentity).eraseDups⟩) := by
  unfold withHostWorkspacePreferences require
  rw [if_pos h]
  rfl

theorem perform_writes (h : Writes refuses call world) :
    World.perform N refuses call world = (none, World.wrote N call world) := by
  obtain ⟨hvalid, htaken, hnew⟩ := h
  cases call with
  | set hostIdentity preferences =>
    have hvalid : isValidWorkspaceHostIdentity hostIdentity = true := hvalid
    unfold World.perform World.set
    simp only [with_valid hvalid, thrown, Except.mapError, commit_taken htaken]
    rfl
  | seed hostIdentity preferences =>
    have hvalid : isValidWorkspaceHostIdentity hostIdentity = true := hvalid
    have hnot : ¬(keys world.store.document.hosts).contains hostIdentity = true := fun hmem =>
      hnew hostIdentity preferences rfl (List.contains_iff_mem.mp hmem)
    unfold World.perform World.seed seedHostWorkspacePreferences
    simp only [if_neg hnot, with_valid hvalid, thrown, Except.map, Except.mapError, commit_taken htaken]
    rfl

theorem perform_seeded {hostIdentity : Text} (h : hostIdentity ∈ keys world.store.document.hosts) :
    World.perform N refuses (.seed hostIdentity preferences) world = (none, world) := by
  unfold World.perform World.seed seedHostWorkspacePreferences
  simp only [if_pos (List.contains_iff_mem.mpr h), thrown, Except.mapError]
  rfl

/-- A call that does not write leaves everything as it is. -/
theorem perform_idle (h : ¬Writes refuses call world) : (World.perform N refuses call world).2 = world := by
  cases call with
  | set hostIdentity preferences =>
    by_cases hvalid : isValidWorkspaceHostIdentity hostIdentity = true
    · cases hrefused : refuses .order with
      | none => exact absurd ⟨hvalid, hrefused, fun _ _ heq => by cases heq⟩ h
      | some error =>
        unfold World.perform World.set
        simp only [with_valid hvalid, thrown, Except.mapError, commit_refused hrefused]
    · obtain ⟨error, herror⟩ := @with_invalid preferences world.store.document hostIdentity hvalid
      unfold World.perform World.set
      simp only [herror, thrown, Except.mapError]
  | seed hostIdentity preferences =>
    by_cases hmem : hostIdentity ∈ keys world.store.document.hosts
    · rw [perform_seeded hmem]
    have hnot : ¬(keys world.store.document.hosts).contains hostIdentity = true := fun hcontains =>
      hmem (List.contains_iff_mem.mp hcontains)
    by_cases hvalid : isValidWorkspaceHostIdentity hostIdentity = true
    · cases hrefused : refuses .order with
      | none =>
        refine absurd ⟨hvalid, hrefused, fun other _ heq => ?_⟩ h
        cases heq
        exact hmem
      | some error =>
        unfold World.perform World.seed seedHostWorkspacePreferences
        simp only [if_neg hnot, with_valid hvalid, thrown, Except.map, Except.mapError, commit_refused hrefused]
    · obtain ⟨error, herror⟩ := @with_invalid preferences world.store.document hostIdentity hvalid
      unfold World.perform World.seed seedHostWorkspacePreferences
      simp only [if_neg hnot, herror, thrown, Except.map, Except.mapError]

theorem perform_thrown {error : Text} (h : (World.perform N refuses call world).1 = some error) :
    (World.perform N refuses call world).2 = world := by
  by_cases hwrites : Writes refuses call world
  · rw [perform_writes hwrites] at h
    cases h
  · exact perform_idle hwrites

/-- The other hosts are answered as before. -/
theorem perform_others {host : Text} (h : host ≠ call.hostIdentity) :
    hostWorkspacePreferences (World.perform N refuses call world).2.store.document host =
      hostWorkspacePreferences world.store.document host := by
  by_cases hwrites : Writes refuses call world
  · rw [perform_writes hwrites]
    show (property host (assign call.hostIdentity ⟨call.rootOrder⟩ world.store.document.hosts)).getD ⟨[]⟩ = _
    rw [Js.property_assign_other h]
    rfl
  · rw [perform_idle hwrites]

/-! ## Runs -/

/-- Every entry can be read, and nothing is lost of one under `__proto__`. -/
def Fine (document : WorkspacePreferencesDocument) : Prop :=
  ∀ p ∈ document.hosts, Readable p ∧ (p.1 = protoKey → p.2.rootOrder = [])

theorem fine_wrote (hfine : Fine world.store.document) (hwrites : Writes refuses call world) :
    Fine (World.wrote N call world).store.document ↔
      call.rootOrder.length ≤ sessionRootsMax * 4 ∧ (call.hostIdentity = protoKey → call.rootOrder = []) := by
  have hmem : (call.hostIdentity, HostWorkspacePreferences.mk call.rootOrder) ∈
      (World.wrote N call world).store.document.hosts := by
    refine Js.mem_of_property ?_
    exact Js.property_assign_self
  constructor
  · intro h
    obtain ⟨hreadable, hproto⟩ := h _ hmem
    exact ⟨hreadable.length, hproto⟩
  · rintro ⟨hlength, hproto⟩ p hp
    rcases Js.mem_assign hp with rfl | hp
    · refine ⟨⟨hwrites.1, hlength, fun root hroot => ?_, Js.nodup_eraseDups _⟩, hproto⟩
      exact (List.mem_filter.mp (List.mem_eraseDups.mp hroot)).2
    · exact hfine p hp

/-- The next store reads what was written exactly when it is fine. -/
theorem kept_written (h : world.storage.order = some (serializeWorkspacePreferences N world.store.document)) :
    OrderKept N world ↔ Fine world.store.document := by
  unfold OrderKept
  rw [h]
  constructor
  · rintro ⟨document, hparse, hsame⟩ p hp
    obtain ⟨hreadable, rfl⟩ := parse_serialize.mp hparse
    refine ⟨hreadable p hp, fun hproto => ?_⟩
    have hread := hsame protoKey
    rw [hostWorkspacePreferences_read, if_pos rfl] at hread
    have hentry : property protoKey world.store.document.hosts = some p.2 :=
      (Js.property_eq_some world.store.document.once).mpr (hproto ▸ hp)
    unfold hostWorkspacePreferences at hread
    rw [hentry] at hread
    exact (congrArg HostWorkspacePreferences.rootOrder hread).symm
  · intro hfine
    refine ⟨_, parse_serialize.mpr ⟨fun p hp => (hfine p hp).1, rfl⟩, fun host => ?_⟩
    rw [hostWorkspacePreferences_read]
    split
    · next hproto =>
      unfold hostWorkspacePreferences
      cases hentry : property host world.store.document.hosts with
      | none => rfl
      | some preferences =>
        have hempty := (hfine _ (Js.mem_of_property hentry)).2 hproto
        exact congrArg HostWorkspacePreferences.mk hempty.symm
    · rfl

/-- One call keeps the order exactly when it is careful. -/
theorem kept_perform (hfine : Fine world.store.document) (hkept : OrderKept N world) :
    OrderKept N (World.perform N refuses call world).2 ↔ Careful refuses call world := by
  by_cases hwrites : Writes refuses call world
  · rw [perform_writes hwrites]
    show OrderKept N (World.wrote N call world) ↔ _
    rw [kept_written rfl, fine_wrote hfine hwrites, Careful]
    exact ⟨fun h _ => h, fun h => h hwrites⟩
  · rw [perform_idle hwrites]
    exact iff_of_true hkept fun h => absurd h hwrites

theorem fine_perform (hfine : Fine world.store.document) (hcareful : Careful refuses call world) :
    Fine (World.perform N refuses call world).2.store.document := by
  by_cases hwrites : Writes refuses call world
  · rw [perform_writes hwrites]
    exact (fine_wrote hfine hwrites).mpr (hcareful hwrites)
  · rw [perform_idle hwrites]
    exact hfine

/-- Every state of a run, from the first one on. -/
theorem kept_run (steps : Steps) : ∀ {world : World}, Fine world.store.document → OrderKept N world →
    ((∀ before after, steps = before ++ after → OrderKept N (world.run N before)) ↔ CarefulFrom N world steps) := by
  induction steps with
  | nil =>
    intro world _ hkept
    refine iff_of_true (fun before after heq => ?_) trivial
    rw [(List.append_eq_nil_iff.mp heq.symm).1]
    exact hkept
  | cons step rest ih =>
    intro world hfine hkept
    constructor
    · intro hall
      have hstep := hall [step] rest rfl
      have hcareful := (kept_perform hfine hkept).mp hstep
      refine ⟨hcareful, (ih (fine_perform hfine hcareful) hstep).mp fun before after heq => ?_⟩
      exact hall (step :: before) after (by rw [heq]; rfl)
    · rintro ⟨hcareful, hrest⟩ before after heq
      have hstep := (kept_perform (N := N) hfine hkept).mpr hcareful
      have hall := (ih (fine_perform hfine hcareful) hstep).mpr hrest
      cases before with
      | nil => exact hkept
      | cons first before =>
        obtain ⟨rfl, hsplit⟩ := List.cons.inj heq
        exact hall before after hsplit

theorem start_eq {storage : Storage} (h : parseWorkspacePreferences N storage.order = .ok document) :
    World.start N refuses storage = ⟨⟨document, none⟩, storage⟩ := by
  unfold World.start WorkspaceRootOrderStore.load
  rw [h]

/-- From any document that can be read, the order of the roots survives every call of a run
exactly when each list that is written is no longer than what is read, and none but an empty
one is written under `__proto__`. -/
theorem order_survives (N : Type) [JsInteger N] (refuses : Refusals) (storage : Storage)
    (document : WorkspacePreferencesDocument) (hread : parseWorkspacePreferences N storage.order = .ok document)
    (steps : Steps) :
    Survives N (World.start N refuses storage) steps ↔ CarefulFrom N (World.start N refuses storage) steps := by
  have hstart : World.start N refuses storage = ⟨⟨document, none⟩, storage⟩ := start_eq hread
  have hfine : Fine (World.start N refuses storage).store.document := by
    rw [hstart]
    exact fun p hp => ⟨(parse_readable hread p hp).1, fun h => absurd h (parse_readable hread p hp).2⟩
  have hkept : OrderKept N (World.start N refuses storage) := by
    rw [hstart]
    exact ⟨document, hread, fun _ => rfl⟩
  rw [← kept_run steps hfine hkept]
  refine ⟨Survives.kept, fun h => ⟨h, ?_, ?_, ?_⟩⟩
  · exact fun _ _ _ _ _ _ hhost => perform_others hhost
  · exact fun _ _ _ _ _ _ hmem => perform_seeded hmem
  · exact fun _ _ _ _ _ _ hthrown => perform_thrown hthrown

end

/-! A storage with nothing in it, that takes what is written. -/

def blank : Storage := ⟨none, none, [], []⟩

def takesAll : Refusals := fun _ => none

def shortSteps : Steps :=
  [(takesAll, .set (ascii "box") ⟨[ascii "/srv", ascii "/home"]⟩), (takesAll, .seed (ascii "nas") ⟨[ascii "/data"]⟩)]

theorem order_survives_short :
    Survives Js.Numeral (World.start Js.Numeral takesAll blank) shortSteps := by
  refine (order_survives Js.Numeral takesAll blank emptyWorkspacePreferences rfl shortSteps).mpr ?_
  exact ⟨fun _ => ⟨by decide, fun h => absurd h (by decide)⟩,
    fun _ => ⟨by decide, fun h => absurd h (by decide)⟩, trivial⟩

/-- One root more than are read. -/
def manyRoots : List Text := (List.range 129).map fun n => [UInt16.ofNat (0x100 + n)]

/-- No call throws, and the next store cannot read what the first one wrote, or answers
nothing for the host of the second. -/
theorem order_lost :
    (∀ call ∈ [Call.set (ascii "box") ⟨manyRoots⟩, Call.set protoKey ⟨[ascii "/srv"]⟩],
      (World.perform Js.Numeral takesAll call (World.start Js.Numeral takesAll blank)).1 = none) ∧
    (∀ document, parseWorkspacePreferences Js.Numeral (World.perform Js.Numeral takesAll
      (.set (ascii "box") ⟨manyRoots⟩) (World.start Js.Numeral takesAll blank)).2.storage.order ≠ .ok document) ∧
    ¬OrderKept Js.Numeral (World.perform Js.Numeral takesAll (.set protoKey ⟨[ascii "/srv"]⟩)
      (World.start Js.Numeral takesAll blank)).2 := by
  have hwrites : ∀ call : Call, isValidWorkspaceHostIdentity call.hostIdentity = true →
      Writes takesAll call (World.start Js.Numeral takesAll blank) := fun call hvalid =>
    ⟨hvalid, rfl, fun _ _ _ hmem => by cases hmem⟩
  have hmany := hwrites (.set (ascii "box") ⟨manyRoots⟩) (by decide)
  have hproto := hwrites (.set protoKey ⟨[ascii "/srv"]⟩) (by decide)
  refine ⟨fun call hcall => ?_, fun document hparse => ?_, fun hkept => ?_⟩
  · rcases List.mem_cons.mp hcall with rfl | hcall
    · rw [perform_writes hmany]
    · rw [List.mem_singleton.mp hcall, perform_writes hproto]
  · rw [perform_writes hmany] at hparse
    obtain ⟨hreadable, -⟩ := parse_serialize.mp hparse
    have hlength := (hreadable (ascii "box", ⟨(Call.set (ascii "box") ⟨manyRoots⟩).rootOrder⟩) (by
      exact List.mem_singleton.mpr rfl)).length
    exact absurd hlength (by decide +kernel)
  · have hcareful := (kept_perform (fun p hp => by cases hp) ⟨emptyWorkspacePreferences, rfl, fun _ => rfl⟩).mp hkept
    exact absurd ((hcareful hproto).2 rfl) (by decide)

end PocketShell.Workspaces.RootOrder
