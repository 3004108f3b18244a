import PocketShell.SavedHosts.Gateway

/-!
# The saved-host document

What `savedHosts.ts` stores: hosts, the selected and the default one, and what came
with imports, validated in full whenever they are read or written.

* `validateSavedHostInput`, `validateHost`, `validateDocument`: the checks, each with
  the error it throws.
* `SavedHostDocument.Valid`: what the checks leave.
* `validateDocument_valid`, `validateDocument_toJson`: what passes is valid, and what is
  valid passes unchanged.
-/

namespace PocketShell.SavedHosts

open Js (Text Json JsInteger ascii isSpace property keys)

/-- What the store is given: the URL parser of the platform and the validator of
credential references, which throws or returns the reference (`null` for no key). -/
structure Env (N : Type) where
  parseUrl : UrlParser
  validateCredential : Json N → Except String (Json N)

/-- What is entered of a host. -/
structure SavedHostInput (N : Type) where
  name : Text
  hostname : Text
  port : N
  username : Text
  credentialRef : Json N
  /-- `none` when it is `undefined`. -/
  gateway : Option (Json N)

/-- A normalized `SavedHostInput`. -/
structure SavedHostFields (N : Type) where
  name : Text
  hostname : Text
  port : Int
  username : Text
  credentialRef : Json N
  gateway : Option GatewayTransportTarget

structure SavedHost (N : Type) extends SavedHostFields N where
  id : Text

structure SavedHostDocument (N : Type) where
  hosts : List (SavedHost N)
  selectedHostId : Option Text
  defaultHostId : Option Text
  defaultHostExplicitlySet : Bool
  importedHostIds : List Text
  importTombstones : List Text

def emptyDocument {N : Type} : SavedHostDocument N := ⟨[], none, none, false, [], []⟩

/-! ## The checks -/

/-- `[\u0000-\u001f\u007f]` -/
def isControl (unit : UInt16) : Bool := unit ≤ 0x1f || unit = 0x7f

def isName (name : Text) : Bool := name ≠ [] && name.length ≤ 80 && !name.any isControl

def isHostname (hostname : Text) : Bool :=
  hostname ≠ [] && hostname.length ≤ 253 &&
    !hostname.any fun unit => isSpace unit || unit = 0x2f || unit = 0x40 || isControl unit

def isUsername (username : Text) : Bool :=
  username ≠ [] && username.length ≤ 128 && !username.any fun unit => isSpace unit || isControl unit

def isHostId (id : Text) : Bool := Js.trim id ≠ [] && id.length ≤ 128 && !id.any isControl

def isPortNumber (port : Int) : Bool := 1 ≤ port && port ≤ 65535

/-- Throw unless the condition holds. -/
def require (condition : Bool) (message : String) : Except String Unit :=
  if condition then .ok () else .error message

def orThrow {α : Type} (value : Option α) (message : String) : Except String α :=
  match value with
  | some a => .ok a
  | none => .error message

section

variable {N : Type} [JsInteger N] (env : Env N)

/-- The port that `isValidTcpPort` accepts. -/
def portOf (port : N) : Option Int := (JsInteger.safe port).filter isPortNumber

def validateGatewayMarker (value : Option (Json N)) : Except String (Option GatewayTransportTarget) :=
  match value with
  | none => .ok none
  | some value =>
    match normalizeGatewayTarget env.parseUrl value with
    | none => .error "Enter the gateway address as a wss:// origin and the device id the gateway enrolled."
    | some target => .ok (some target)

def validateSavedHostInput (input : SavedHostInput N) : Except String (SavedHostFields N) := do
  require (isName (Js.trim input.name)) "Enter a host name with 1 to 80 printable characters."
  require (isHostname (Js.trim input.hostname)) "Enter a valid host name or IP address."
  let port ← orThrow (portOf input.port) "Port must be a whole number from 1 to 65535."
  require (isUsername (Js.trim input.username)) "Enter a valid SSH user name."
  let credentialRef ← env.validateCredential input.credentialRef
  let gateway ← validateGatewayMarker env input.gateway
  return ⟨Js.trim input.name, Js.trim input.hostname, port, Js.trim input.username, credentialRef, gateway⟩

def idKey : Text := ascii "id"
def nameKey : Text := ascii "name"
def hostnameKey : Text := ascii "hostname"
def portKey : Text := ascii "port"
def usernameKey : Text := ascii "username"
def credentialRefKey : Text := ascii "credentialRef"
def gatewayKey : Text := ascii "gateway"

/-- `value[name]` when it is a number. -/
def numberOf (name : Text) (members : List (Text × Json N)) : Option N :=
  match (property name members).map Json.view with
  | some (.num n) => some n
  | _ => none

/-- The fields of a host record when they have their types. -/
def hostInput (value : Json N) : Option (Text × SavedHostInput N) :=
  match value.view with
  | .obj members _ => do
    let id ← textOf idKey members
    let name ← textOf nameKey members
    let hostname ← textOf hostnameKey members
    let port ← numberOf portKey members
    let username ← textOf usernameKey members
    let credentialRef := (property credentialRefKey members).getD .null
    return (id, ⟨name, hostname, port, username, credentialRef, property gatewayKey members⟩)
  | _ => none

def validateHost (value : Json N) : Except String (SavedHost N) := do
  let (id, input) ← orThrow (hostInput value) "A saved host record is malformed."
  require (isHostId id) "A saved host record is malformed."
  let fields ← validateSavedHostInput env input
  return { fields with id := id }

/-- A non-empty string. -/
def stringOf (item : Json N) : Option Text :=
  match item.view with
  | .str s => if s = [] then none else some s
  | _ => none

def itemsOf (value : Option (Json N)) : Option (List (Json N)) :=
  match value.map Json.view with
  | some (.arr items) => some items
  | _ => none

def uniqueStrings (value : Option (Json N)) : Option (List Text) := do
  let items ← itemsOf value
  let strings ← items.mapM stringOf
  if strings.Nodup then some strings else none

/-- An id or `null`. -/
def idOf (value : Option (Json N)) : Option (Option Text) :=
  match value.map Json.view with
  | some .null => some none
  | some (.str s) => some (some s)
  | _ => none

def boolOf (value : Option (Json N)) : Option Bool :=
  match value.map Json.view with
  | some (.bool b) => some b
  | _ => none

def malformed : String :=
  "Saved hosts data is malformed or uses an unsupported version; the stored data was left unchanged."

def conflictingMarkers : String :=
  "Saved hosts contain conflicting import markers; the stored data was left unchanged."

def hostsKey : Text := ascii "hosts"
def schemaVersionKey : Text := ascii "schemaVersion"
def selectedHostIdKey : Text := ascii "selectedHostId"
def defaultHostIdKey : Text := ascii "defaultHostId"
def defaultHostExplicitlySetKey : Text := ascii "defaultHostExplicitlySet"
def importedHostIdsKey : Text := ascii "importedHostIds"
def importTombstonesKey : Text := ascii "importTombstones"

/-- The fields of a document that `validateDocument` checks first. -/
structure Frame (N : Type) where
  hosts : List (Json N)
  selectedHostId : Option Text
  defaultHostId : Option Text
  defaultHostExplicitlySet : Bool
  importedHostIds : Option (Json N)
  importTombstones : Option (Json N)

def frameOf (value : Json N) : Option (Frame N) :=
  match value.view with
  | .obj members _ => do
    let _ ← ((numberOf schemaVersionKey members).bind JsInteger.safe).filter (· = 1)
    let hosts ← itemsOf (property hostsKey members)
    let selectedHostId ← idOf (property selectedHostIdKey members)
    let defaultHostId ← idOf (property defaultHostIdKey members)
    let explicitlySet ← boolOf (property defaultHostExplicitlySetKey members)
    return ⟨hosts, selectedHostId, defaultHostId, explicitlySet, property importedHostIdsKey members,
      property importTombstonesKey members⟩
  | _ => none

def isListed (hosts : List (SavedHost N)) : Option Text → Bool
  | none => true
  | some id => hosts.any (·.id = id)

/-- The import markers of a document. -/
def markersOf (frame : Frame N) : Option (List Text × List Text) := do
  let importedHostIds ← uniqueStrings frame.importedHostIds
  let importTombstones ← uniqueStrings frame.importTombstones
  if importTombstones.all importedHostIds.contains then some (importedHostIds, importTombstones)
  else none

def validateDocument (value : Json N) : Except String (SavedHostDocument N) := do
  let frame ← orThrow (frameOf value) malformed
  let (importedHostIds, importTombstones) ← orThrow (markersOf frame) conflictingMarkers
  let hosts ← frame.hosts.mapM (validateHost env)
  require (hosts.map (·.id)).Nodup
    "Saved hosts contain a conflicting duplicate host ID; the stored data was left unchanged."
  require (isListed hosts frame.selectedHostId && isListed hosts frame.defaultHostId)
    "Saved hosts refer to a missing selected or default host; the stored data was left unchanged."
  return ⟨hosts, frame.selectedHostId, frame.defaultHostId, frame.defaultHostExplicitlySet,
    importedHostIds, importTombstones⟩

/-! ## The documents as they are stored -/

def SavedHost.members (host : SavedHost N) : List (Text × Json N) :=
  [(idKey, .str host.id), (nameKey, .str host.name), (hostnameKey, .str host.hostname),
    (portKey, .num (JsInteger.ofInt host.port)), (usernameKey, .str host.username),
    (credentialRefKey, host.credentialRef)] ++
  match host.gateway with
  | none => []
  | some target => [(gatewayKey, target.toJson)]

theorem SavedHost.once (host : SavedHost N) : (keys host.members).Nodup := by
  unfold SavedHost.members
  cases host.gateway with
  | none =>
    exact Js.once_of [idKey, nameKey, hostnameKey, portKey, usernameKey, credentialRefKey] rfl (by decide)
  | some =>
    exact Js.once_of [idKey, nameKey, hostnameKey, portKey, usernameKey, credentialRefKey, gatewayKey]
      rfl (by decide)

def SavedHost.toJson (host : SavedHost N) : Json N := .obj host.members host.once

def idValue : Option Text → Json N
  | none => .null
  | some id => .str id

def SavedHostDocument.members (document : SavedHostDocument N) : List (Text × Json N) :=
  [(schemaVersionKey, .num (JsInteger.ofInt 1)), (hostsKey, .arr (document.hosts.map SavedHost.toJson)),
    (selectedHostIdKey, idValue document.selectedHostId),
    (defaultHostIdKey, idValue document.defaultHostId),
    (defaultHostExplicitlySetKey, .bool document.defaultHostExplicitlySet),
    (importedHostIdsKey, .arr (document.importedHostIds.map .str)),
    (importTombstonesKey, .arr (document.importTombstones.map .str))]

theorem SavedHostDocument.once (document : SavedHostDocument N) : (keys document.members).Nodup :=
  Js.once_of [schemaVersionKey, hostsKey, selectedHostIdKey, defaultHostIdKey,
    defaultHostExplicitlySetKey, importedHostIdsKey, importTombstonesKey] rfl (by decide)

def SavedHostDocument.toJson (document : SavedHostDocument N) : Json N := .obj document.members document.once

/-! ## Key references -/

def kindKey : Text := ascii "kind"
def handleIdKey : Text := ascii "handleId"
def labelKey : Text := ascii "label"
def passphraseRequiredKey : Text := ascii "passphraseRequired"

def keyRefKeys : List Text := [kindKey, handleIdKey, labelKey, passphraseRequiredKey]

def keyRef (handleId label : Text) (passphraseRequired : Bool) : Json N :=
  .obj [(kindKey, .str (ascii "key-handle")), (handleIdKey, .str handleId), (labelKey, .str label),
    (passphraseRequiredKey, .bool passphraseRequired)] (Js.once_of keyRefKeys rfl (by decide))

/-- The reference a record holds. -/
def keyRefOf (members : List (Text × Json N)) : Option (Json N) := do
  let _ ← (textOf kindKey members).filter (· = ascii "key-handle")
  let handleId ← (textOf handleIdKey members).filter (Js.trim · ≠ [])
  let label ← (textOf labelKey members).filter (Js.trim · ≠ [])
  let passphraseRequired ← boolOf (property passphraseRequiredKey members)
  if (keys members).all keyRefKeys.contains then some (keyRef handleId label passphraseRequired) else none

def validateSavedHostKeyRef (value : Json N) : Except String (Json N) :=
  match value.view with
  | .null => .ok .null
  | .obj members _ => orThrow (keyRefOf members) "A saved host has a malformed key reference."
  | _ => .error "A saved host has a malformed key reference."

/-! ## What the checks leave -/

/-- The store of the platform: URLs keep their origins, and a credential reference that
was validated is a JSON value that passes again unchanged. -/
structure Env.Stable (env : Env N) : Prop where
  origins : KeepsOrigins env.parseUrl
  credential : ∀ value reference, env.validateCredential value = .ok reference →
    env.validateCredential reference = .ok reference ∧ reference.written = reference

/-- Normalized fields. -/
structure SavedHostFields.Valid (fields : SavedHostFields N) : Prop where
  name : Js.trim fields.name = fields.name ∧ isName fields.name = true
  hostname : Js.trim fields.hostname = fields.hostname ∧ isHostname fields.hostname = true
  port : isPortNumber fields.port = true
  username : Js.trim fields.username = fields.username ∧ isUsername fields.username = true
  credential : env.validateCredential fields.credentialRef = .ok fields.credentialRef
  written : fields.credentialRef.written = fields.credentialRef
  gateway : ∀ target, fields.gateway = some target →
    normalizeGatewayTarget env.parseUrl (target.toJson : Json N) = some target

structure SavedHost.Valid (host : SavedHost N) : Prop where
  fields : host.toSavedHostFields.Valid env
  id : isHostId host.id = true

structure SavedHostDocument.Valid (document : SavedHostDocument N) : Prop where
  hosts : ∀ host ∈ document.hosts, host.Valid env
  unique : (document.hosts.map (·.id)).Nodup
  selected : ∀ id, document.selectedHostId = some id → id ∈ document.hosts.map (·.id)
  default : ∀ id, document.defaultHostId = some id → id ∈ document.hosts.map (·.id)
  imported : document.importedHostIds.Nodup ∧ [] ∉ document.importedHostIds
  tombstones : document.importTombstones.Nodup ∧ document.importTombstones ⊆ document.importedHostIds

variable {env}

/-! ## Hosts -/

/-- The fields as they are entered again. -/
def SavedHostFields.input (fields : SavedHostFields N) : SavedHostInput N :=
  ⟨fields.name, fields.hostname, JsInteger.ofInt fields.port, fields.username, fields.credentialRef,
    fields.gateway.map GatewayTransportTarget.toJson⟩

theorem portOf_ofInt {port : Int} (h : isPortNumber port = true) :
    portOf (JsInteger.ofInt port : N) = some port := by
  have hsafe : Js.isSafe port = true := by
    unfold isPortNumber at h
    unfold Js.isSafe Js.maxSafe
    simp only [Bool.and_eq_true, decide_eq_true_eq] at h ⊢
    omega
  rw [portOf, JsInteger.safe_ofInt, if_pos hsafe]
  simp [h]

theorem validateGatewayMarker_valid (hs : env.Stable) {value : Option (Json N)}
    {gateway : Option GatewayTransportTarget} (h : validateGatewayMarker env value = .ok gateway) :
    ∀ target, gateway = some target →
      normalizeGatewayTarget env.parseUrl (target.toJson : Json N) = some target := by
  rintro target rfl
  unfold validateGatewayMarker at h
  split at h
  · cases h
  split at h
  · cases h
  next hnormal =>
  cases h
  exact normalizeGatewayTarget_canonical hs.origins hnormal

theorem bind_ok {ε α β : Type} {x : Except ε α} {f : α → Except ε β} {b : β}
    (h : x >>= f = .ok b) : ∃ a, x = .ok a ∧ f a = .ok b := by
  cases x with
  | error => cases h
  | ok a => exact ⟨a, rfl, h⟩

theorem require_ok {condition : Bool} {message : String} {u : Unit}
    (h : require condition message = .ok u) : condition = true := by
  unfold require at h
  split at h
  · assumption
  · cases h

theorem orThrow_ok {α : Type} {value : Option α} {message : String} {a : α}
    (h : orThrow value message = .ok a) : value = some a := by
  unfold orThrow at h
  split at h
  · cases h
    rfl
  · cases h

theorem validateSavedHostInput_valid (hs : env.Stable) {input : SavedHostInput N}
    {fields : SavedHostFields N} (h : validateSavedHostInput env input = .ok fields) : fields.Valid env := by
  unfold validateSavedHostInput at h
  obtain ⟨_, hname, h⟩ := bind_ok h
  obtain ⟨_, hhostname, h⟩ := bind_ok h
  obtain ⟨port, hport, h⟩ := bind_ok h
  obtain ⟨_, husername, h⟩ := bind_ok h
  obtain ⟨reference, hreference, h⟩ := bind_ok h
  obtain ⟨gateway, hgateway, h⟩ := bind_ok h
  cases h
  obtain ⟨hagain, hwritten⟩ := hs.credential _ _ hreference
  obtain ⟨-, hnumber⟩ := Option.filter_eq_some_iff.mp (orThrow_ok hport)
  exact ⟨⟨Js.trim_trim _, require_ok hname⟩, ⟨Js.trim_trim _, require_ok hhostname⟩, hnumber,
    ⟨Js.trim_trim _, require_ok husername⟩, hagain, hwritten, validateGatewayMarker_valid hs hgateway⟩

theorem validateSavedHostInput_input {fields : SavedHostFields N} (h : fields.Valid env) :
    validateSavedHostInput env fields.input = .ok fields := by
  obtain ⟨⟨hname, hname'⟩, ⟨hhostname, hhostname'⟩, hport, ⟨husername, husername'⟩, hreference, -, hgateway⟩ := h
  have hmarker : validateGatewayMarker env fields.input.gateway = .ok fields.gateway := by
    unfold validateGatewayMarker SavedHostFields.input
    cases hg : fields.gateway with
    | none => rfl
    | some target => simp [hgateway target hg]
  unfold validateSavedHostInput
  rw [hmarker]
  simp only [SavedHostFields.input, hname, hname', hhostname, hhostname', husername, husername',
    portOf_ofInt hport, hreference, require, orThrow, if_true]
  rfl

omit [JsInteger N] in
theorem numberOf_mem {name : Text} {n : N} {members : List (Text × Json N)} (once : (keys members).Nodup)
    (h : (name, Json.num n) ∈ members) : numberOf name members = some n := by
  unfold numberOf
  rw [(Js.property_eq_some once).mpr h]
  rfl

theorem property_gateway (host : SavedHost N) :
    property gatewayKey host.members = host.gateway.map GatewayTransportTarget.toJson := by
  cases hg : host.gateway with
  | none =>
    refine Js.property_eq_none.mpr ?_
    have hkeys : keys host.members = [idKey, nameKey, hostnameKey, portKey, usernameKey, credentialRefKey] := by
      unfold SavedHost.members
      rw [hg]
      rfl
    rw [hkeys]
    decide
  | some target =>
    refine (Js.property_eq_some host.once).mpr (List.mem_append_right _ ?_)
    rw [hg]
    exact List.mem_singleton.mpr rfl

theorem hostInput_toJson (host : SavedHost N) : hostInput host.toJson = some (host.id, host.input) := by
  have hmem : ∀ p, p ∈ [(idKey, (.str host.id : Json N)), (nameKey, .str host.name),
      (hostnameKey, .str host.hostname), (portKey, .num (JsInteger.ofInt host.port)),
      (usernameKey, .str host.username), (credentialRefKey, host.credentialRef)] → p ∈ host.members :=
    fun p hp => List.mem_append_left _ hp
  have hid := textOf_mem host.once (hmem _ (.head _))
  have hname := textOf_mem host.once (hmem _ (.tail _ (.head _)))
  have hhostname := textOf_mem host.once (hmem _ (.tail _ (.tail _ (.head _))))
  have hport := numberOf_mem host.once (hmem _ (.tail _ (.tail _ (.tail _ (.head _)))))
  have husername := textOf_mem host.once (hmem _ (.tail _ (.tail _ (.tail _ (.tail _ (.head _))))))
  have hreference := (Js.property_eq_some host.once).mpr
    (hmem _ (.tail _ (.tail _ (.tail _ (.tail _ (.tail _ (.head _)))))))
  unfold hostInput SavedHost.toJson
  rw [Json.view_obj]
  simp only [hid, hname, hhostname, hport, husername, hreference, property_gateway]
  rfl

variable {host : SavedHost N}

/-- What passes is valid. -/
theorem validateHost_valid (hs : env.Stable) {value : Json N}
    (h : validateHost env value = .ok host) : host.Valid env := by
  unfold validateHost at h
  obtain ⟨⟨id, input⟩, -, h⟩ := bind_ok h
  obtain ⟨_, hid, h⟩ := bind_ok h
  obtain ⟨fields, hfields, h⟩ := bind_ok h
  cases h
  exact ⟨validateSavedHostInput_valid hs hfields, require_ok hid⟩

/-- What is valid passes unchanged. -/
theorem validateHost_toJson (h : host.Valid env) : validateHost env host.toJson = .ok host := by
  unfold validateHost
  rw [hostInput_toJson]
  show (require (isHostId host.id) _ >>= fun _ => validateSavedHostInput env host.input >>= fun fields =>
    pure (⟨fields, host.id⟩ : SavedHost N)) = _
  rw [h.id, validateSavedHostInput_input h.fields]
  rfl

theorem written_port {port : Int} (h : isPortNumber port = true) :
    (Json.num (JsInteger.ofInt port) : Json N).written = .num (JsInteger.ofInt port) := by
  have hsmall : port.natAbs ≤ 9007199254740992 := by
    unfold isPortNumber at h
    simp only [Bool.and_eq_true, decide_eq_true_eq] at h
    omega
  exact Js.written_ofInt hsmall

/-- A valid host is read as it was written. -/
theorem written_host (h : host.Valid env) : host.toJson.written = host.toJson := by
  refine Json.written_obj_self _ fun p hp => ?_
  rcases List.mem_append.mp hp with hp | hp
  · simp only [List.mem_cons, List.not_mem_nil, or_false] at hp
    rcases hp with rfl | rfl | rfl | rfl | rfl | rfl
    · rfl
    · rfl
    · rfl
    · exact written_port h.fields.port
    · rfl
    · exact h.fields.written
  · split at hp
    · cases hp
    · cases List.mem_singleton.mp hp
      refine Json.written_obj_self (Js.once_of [serverUrlKey, deviceIdKey] rfl (by decide)) fun q hq => ?_
      simp only [List.mem_cons, List.not_mem_nil, or_false] at hq
      rcases hq with rfl | rfl <;> rfl

/-! ## Documents -/

omit [JsInteger N] in
theorem stringOf_some {item : Json N} {s : Text} (h : stringOf item = some s) : s ≠ [] := by
  unfold stringOf at h
  split at h
  · split at h
    · cases h
    · next hne =>
      cases h
      exact hne
  · cases h

theorem mapM_some {α β : Type} {f : α → Option β} : ∀ {xs : List α} {ys : List β}, xs.mapM f = some ys →
    ∀ y ∈ ys, ∃ x ∈ xs, f x = some y := by
  intro xs
  induction xs with
  | nil =>
    intro ys h y hy
    cases h
    cases hy
  | cons x xs ih =>
    intro ys h y hy
    rw [List.mapM_cons] at h
    obtain ⟨b, hb, h⟩ := Option.bind_eq_some_iff.mp h
    obtain ⟨bs, hbs, h⟩ := Option.bind_eq_some_iff.mp h
    cases h
    rcases List.mem_cons.mp hy with rfl | hy
    · exact ⟨x, List.mem_cons_self, hb⟩
    · obtain ⟨x', hx', hfx⟩ := ih hbs y hy
      exact ⟨x', List.mem_cons_of_mem _ hx', hfx⟩

theorem mapM_ok {α β : Type} {f : α → Except String β} : ∀ {xs : List α} {ys : List β}, xs.mapM f = .ok ys →
    ∀ y ∈ ys, ∃ x ∈ xs, f x = .ok y := by
  intro xs
  induction xs with
  | nil =>
    intro ys h y hy
    cases h
    cases hy
  | cons x xs ih =>
    intro ys h y hy
    rw [List.mapM_cons] at h
    obtain ⟨b, hb, h⟩ := bind_ok h
    obtain ⟨bs, hbs, h⟩ := bind_ok h
    cases h
    rcases List.mem_cons.mp hy with rfl | hy
    · exact ⟨x, List.mem_cons_self, hb⟩
    · obtain ⟨x', hx', hfx⟩ := ih hbs y hy
      exact ⟨x', List.mem_cons_of_mem _ hx', hfx⟩

/-- Values that are read back. -/
theorem mapM_map {α β : Type} {m : Type → Type} [Monad m] [LawfulMonad m] {f : α → m β} {g : β → α}
    {ys : List β} (h : ∀ y ∈ ys, f (g y) = pure y) : (ys.map g).mapM f = pure ys := by
  induction ys with
  | nil => exact List.mapM_nil
  | cons y ys ih =>
    obtain ⟨hy, hys⟩ := List.forall_mem_cons.mp h
    rw [List.map_cons, List.mapM_cons, hy, ih hys, pure_bind, pure_bind]

variable {ids : List Text}

omit [JsInteger N] in
theorem uniqueStrings_some {value : Option (Json N)} (h : uniqueStrings value = some ids) :
    ids.Nodup ∧ [] ∉ ids := by
  obtain ⟨items, -, h⟩ := Option.bind_eq_some_iff.mp h
  obtain ⟨strings, hstrings, h⟩ := Option.bind_eq_some_iff.mp h
  split at h
  · next hnodup =>
    cases h
    refine ⟨hnodup, fun hmem => ?_⟩
    obtain ⟨item, -, hitem⟩ := mapM_some hstrings _ hmem
    exact stringOf_some hitem rfl
  · cases h

omit [JsInteger N] in
theorem uniqueStrings_ids (hne : [] ∉ ids) :
    uniqueStrings (some (.arr (ids.map .str) : Json N)) = if ids.Nodup then some ids else none := by
  have hread : (ids.map .str : List (Json N)).mapM stringOf = some ids := by
    refine mapM_map fun id hid => ?_
    unfold stringOf
    rw [Json.view_str]
    exact if_neg (ne_of_mem_of_not_mem hid hne)
  unfold uniqueStrings itemsOf
  rw [Option.map_some, Json.view_arr]
  simp only [bind, Option.bind, hread]

omit [JsInteger N] in
theorem isListed_iff {hosts : List (SavedHost N)} {id : Option Text} :
    isListed hosts id = true ↔ ∀ i, id = some i → i ∈ hosts.map (·.id) := by
  cases id with
  | none => simp [isListed]
  | some id => simp [isListed]

omit [JsInteger N] in
theorem idOf_idValue (id : Option Text) : idOf (some (idValue id : Json N)) = some id := by
  cases id <;> rfl

omit [JsInteger N] in
theorem markersOf_some {frame : Frame N} {imported tombstones : List Text}
    (h : markersOf frame = some (imported, tombstones)) :
    (imported.Nodup ∧ [] ∉ imported) ∧ tombstones.Nodup ∧ tombstones ⊆ imported := by
  obtain ⟨ids, hids, h⟩ := Option.bind_eq_some_iff.mp h
  obtain ⟨deleted, hdeleted, h⟩ := Option.bind_eq_some_iff.mp h
  split at h
  · next hsub =>
    cases h
    refine ⟨uniqueStrings_some hids, (uniqueStrings_some hdeleted).1, fun id hid => ?_⟩
    simpa using List.all_eq_true.mp hsub id hid
  · cases h

variable {document : SavedHostDocument N}

/-- What passes is valid. -/
theorem validateDocument_valid (hs : env.Stable) {value : Json N}
    (h : validateDocument env value = .ok document) : document.Valid env := by
  unfold validateDocument at h
  obtain ⟨frame, -, h⟩ := bind_ok h
  obtain ⟨⟨imported, tombstones⟩, hmarkers, h⟩ := bind_ok h
  obtain ⟨hosts, hhosts, h⟩ := bind_ok h
  obtain ⟨_, hunique, h⟩ := bind_ok h
  obtain ⟨_, hlisted, h⟩ := bind_ok h
  cases h
  obtain ⟨himported, htombstones⟩ := markersOf_some (orThrow_ok hmarkers)
  obtain ⟨hselected, hdefault⟩ := Bool.and_eq_true_iff.mp (require_ok hlisted)
  refine ⟨fun host hhost => ?_, of_decide_eq_true (require_ok hunique), isListed_iff.mp hselected,
    isListed_iff.mp hdefault, himported, htombstones⟩
  obtain ⟨value, -, hvalue⟩ := mapM_ok hhosts host hhost
  exact validateHost_valid hs hvalue

/-- The fields of a document that is written out. -/
def SavedHostDocument.frame (document : SavedHostDocument N) : Frame N :=
  ⟨document.hosts.map SavedHost.toJson, document.selectedHostId, document.defaultHostId,
    document.defaultHostExplicitlySet, some (.arr (document.importedHostIds.map .str)),
    some (.arr (document.importTombstones.map .str))⟩

theorem frameOf_toJson (document : SavedHostDocument N) : frameOf document.toJson = some document.frame := by
  have hproperty : ∀ {key v}, (key, v) ∈ document.members → property key document.members = some v :=
    fun hmem => (Js.property_eq_some document.once).mpr hmem
  have hversion := numberOf_mem document.once (.head _)
  have hhosts := hproperty (.tail _ (.head _))
  have hselected := hproperty (.tail _ (.tail _ (.head _)))
  have hdefault := hproperty (.tail _ (.tail _ (.tail _ (.head _))))
  have hexplicit := hproperty (.tail _ (.tail _ (.tail _ (.tail _ (.head _)))))
  have himported := hproperty (.tail _ (.tail _ (.tail _ (.tail _ (.tail _ (.head _))))))
  have htombstones := hproperty (.tail _ (.tail _ (.tail _ (.tail _ (.tail _ (.tail _ (.head _)))))))
  have hone : (JsInteger.safe (JsInteger.ofInt 1 : N)) = some 1 := by
    rw [JsInteger.safe_ofInt]
    rfl
  have hlist : itemsOf (some (Json.arr (document.hosts.map SavedHost.toJson))) =
      some (document.hosts.map SavedHost.toJson) := by
    unfold itemsOf
    rw [Option.map_some, Json.view_arr]
  unfold frameOf SavedHostDocument.toJson
  rw [Json.view_obj]
  simp only [hversion, hhosts, hselected, hdefault, hexplicit, himported, htombstones, idOf_idValue, hlist,
    Option.bind_some, hone]
  rfl

theorem markersOf_frame (h : document.Valid env) :
    markersOf document.frame = some (document.importedHostIds, document.importTombstones) := by
  have himported : uniqueStrings document.frame.importedHostIds = some document.importedHostIds :=
    (uniqueStrings_ids h.imported.2).trans (if_pos h.imported.1)
  have htombstones : uniqueStrings document.frame.importTombstones = some document.importTombstones :=
    (uniqueStrings_ids fun hmem => h.imported.2 (h.tombstones.2 hmem)).trans (if_pos h.tombstones.1)
  have hsub : document.importTombstones.all document.importedHostIds.contains = true :=
    List.all_eq_true.mpr fun id hid => by simpa using h.tombstones.2 hid
  unfold markersOf
  rw [himported, htombstones]
  simp only [bind, Option.bind, hsub, if_true]

/-- What is valid passes unchanged. -/
theorem validateDocument_toJson (h : document.Valid env) :
    validateDocument env document.toJson = .ok document := by
  have hhosts : document.frame.hosts.mapM (validateHost env) = .ok document.hosts :=
    mapM_map fun host hhost => validateHost_toJson (h.hosts host hhost)
  have hselected : isListed document.hosts document.frame.selectedHostId = true :=
    isListed_iff.mpr h.selected
  have hdefault : isListed document.hosts document.frame.defaultHostId = true := isListed_iff.mpr h.default
  unfold validateDocument
  rw [frameOf_toJson]
  show (orThrow (markersOf document.frame) _ >>= _) = _
  rw [markersOf_frame h]
  show (document.frame.hosts.mapM (validateHost env) >>= _) = _
  rw [hhosts]
  show (require (decide (document.hosts.map (·.id)).Nodup) _ >>= _) = _
  rw [decide_eq_true h.unique]
  show (require (isListed document.hosts _ && isListed document.hosts _) _ >>= _) = _
  rw [hselected, hdefault]
  rfl

theorem written_ids : (Json.arr (ids.map .str) : Json N).written = .arr (ids.map .str) := by
  refine Json.written_arr_self fun v hv => ?_
  obtain ⟨id, -, rfl⟩ := List.mem_map.mp hv
  rfl

/-- A valid document is read as it was written. -/
theorem written_document (h : document.Valid env) : document.toJson.written = document.toJson := by
  have hid : ∀ id : Option Text, (idValue id : Json N).written = idValue id := by
    intro id
    cases id <;> rfl
  have hhosts : (Json.arr (document.hosts.map SavedHost.toJson)).written =
      Json.arr (document.hosts.map SavedHost.toJson) := by
    refine Json.written_arr_self fun v hv => ?_
    obtain ⟨host, hhost, rfl⟩ := List.mem_map.mp hv
    exact written_host (h.hosts host hhost)
  refine Json.written_obj_self _ fun p hp => ?_
  unfold SavedHostDocument.members at hp
  simp only [List.mem_cons, List.not_mem_nil, or_false] at hp
  rcases hp with rfl | rfl | rfl | rfl | rfl | rfl | rfl
  · exact Js.written_ofInt (by decide)
  · exact hhosts
  · exact hid _
  · exact hid _
  · rfl
  · exact written_ids
  · exact written_ids

end

end PocketShell.SavedHosts
