import PocketShell.Js.Dict
import PocketShell.KeyVault.Bytes

/-!
# The wire format of the vault

`types.ts` and `format.ts`: the decoded forms, and the strict parsers and serializers of the
header, the key blobs and the index. `dateParses` tells of which texts `Date.parse` gives a time.
The fields `v` and `kdf.alg` have one value each and are left out of the decoded forms.
-/

namespace PocketShell.KeyVault

open Js (Text Bytes Json JSON.parse JSON.stringify JsNumber JsInteger property keys ascii Dict once_of
  ownOrder)

/-! ## Decoded forms -/

inductive GatewayAuthPolicy
  | host
  | managed
  | both
deriving DecidableEq

structure HostKeyBinding where
  keyId : Text
  gatewayAuth : GatewayAuthPolicy

inductive VaultEntryType
  | ed25519
  | nistp256
  | nistp384
  | nistp521
  | rsa
  | password
deriving DecidableEq

structure VaultKeyEntry where
  keyId : Text
  name : Text
  type : VaultEntryType
  fingerprint : Option Text
  createdAt : Text
  rotatedFrom : Option Text
deriving DecidableEq

structure VaultIndex where
  keys : List VaultKeyEntry
  hosts : Dict HostKeyBinding
  /-- `sync.passphrase` -/
  sync : Option Text

structure VaultKdfParams where
  m : Int
  t : Int
  p : Int
  salt : Text

structure VaultSealed where
  n : Text
  ct : Text

structure VaultHeader where
  vaultId : Text
  kdf : VaultKdfParams
  wrappedDek : VaultSealed
  check : VaultSealed
  index : VaultSealed
  epoch : Int
  updatedAt : Text

structure VaultKeyBlob where
  vaultId : Text
  keyId : Text
  n : Text
  ct : Text
  pub : Option VaultSealed

/-! ## Constants -/

def VAULT_NAME_MAX : Nat := 256

def VAULT_KDF_MIN_M : Int := 32768

def VAULT_KDF_MAX_M : Int := 262144

def VAULT_KDF_MIN_T : Int := 3

def VAULT_KDF_MAX_T : Int := 10

def VAULT_KDF_MAX_P : Int := 8

def protoKey : Text := ascii "__proto__"

/-! ## Parts of a JSON value -/

section

variable {N : Type}

/-- The own properties of a value that `isRecord` accepts. -/
def record (value : Option (Json N)) : Option (List (Text × Json N)) :=
  match value.map Json.view with
  | some (.obj members _) => some members
  | _ => none

def string (value : Option (Json N)) : Option Text :=
  match value.map Json.view with
  | some (.str s) => some s
  | _ => none

def array (value : Option (Json N)) : Option (List (Json N)) :=
  match value.map Json.view with
  | some (.arr items) => some items
  | _ => none

variable [JsInteger N]

def safeInteger (value : Option (Json N)) : Option Int :=
  match value.map Json.view with
  | some (.num n) => JsInteger.safe n
  | _ => none

/-- The integer that `isBoundedInt` accepts. -/
def boundedInt (value : Option (Json N)) (min max : Int) : Option Int :=
  (safeInteger value).filter fun z => min ≤ z ∧ z ≤ max

/-- `v` is the version of the format. -/
def isVersion (value : Option (Json N)) : Bool := safeInteger value = some 1

end

def isB64Len (text : Text) (length : Nat) : Bool :=
  match fromB64url text with
  | some bytes => bytes.length = length
  | none => false

/-- A 16-byte identifier. -/
def isId16 (text : Text) : Bool := isB64Len text 16

/-- A string that is one. -/
def id16 {N : Type} (value : Option (Json N)) : Option Text := (string value).filter isId16

/-- GCM appends a 16-byte tag; anything shorter cannot be a sealed value. -/
def isSealed (minCt : Nat) (box : VaultSealed) : Bool :=
  isB64Len box.n 12 && (fromB64url box.ct).any fun bytes => minCt + 16 ≤ bytes.length

/-- The box of an object's own `n` and `ct`. -/
def sealedOf {N : Type} (members : List (Text × Json N)) (minCt : Nat) : Option VaultSealed := do
  let n ← string (property (ascii "n") members)
  let ct ← string (property (ascii "ct") members)
  if isSealed minCt ⟨n, ct⟩ then some ⟨n, ct⟩ else none

def parseSealed {N : Type} (value : Option (Json N)) (minCt : Nat) : Option VaultSealed := do
  let members ← record value
  sealedOf members minCt

variable (N : Type) [JsInteger N] (dateParses : Text → Bool)

def isIsoTime (text : Text) : Bool := text.length ≤ 64 && dateParses text

def isoTime {N : Type} (value : Option (Json N)) : Option Text :=
  (string value).filter (isIsoTime dateParses)

/-! ## The header -/

def parseKdfParams {N : Type} [JsInteger N] (value : Option (Json N)) : Option VaultKdfParams := do
  let members ← record value
  if string (property (ascii "alg") members) = some (ascii "argon2id") then
    let m ← boundedInt (property (ascii "m") members) VAULT_KDF_MIN_M VAULT_KDF_MAX_M
    let t ← boundedInt (property (ascii "t") members) VAULT_KDF_MIN_T VAULT_KDF_MAX_T
    let p ← boundedInt (property (ascii "p") members) 1 VAULT_KDF_MAX_P
    let salt ← id16 (property (ascii "salt") members)
    some ⟨m, t, p, salt⟩
  else none

def parseVaultHeader (text : Text) : Option VaultHeader := do
  let raw ← record (JSON.parse text : Option (Json N))
  if isVersion (property (ascii "v") raw) then
    let vaultId ← id16 (property (ascii "vaultId") raw)
    let kdf ← parseKdfParams (property (ascii "kdf") raw)
    let wrappedDek ← parseSealed (property (ascii "wrappedDek") raw) 32
    let check ← parseSealed (property (ascii "check") raw) 0
    let index ← parseSealed (property (ascii "index") raw) 0
    let epoch ← boundedInt (property (ascii "epoch") raw) 1 Js.maxSafe
    let updatedAt ← isoTime dateParses (property (ascii "updatedAt") raw)
    some ⟨vaultId, kdf, wrappedDek, check, index, epoch, updatedAt⟩
  else none

section

variable {N : Type} [JsInteger N]

def intValue (z : Int) : Json N := .num (JsInteger.ofInt z)

def kdfMembers (kdf : VaultKdfParams) : List (Text × Json N) :=
  [(ascii "alg", .str (ascii "argon2id")), (ascii "m", intValue kdf.m), (ascii "t", intValue kdf.t),
    (ascii "p", intValue kdf.p), (ascii "salt", .str kdf.salt)]

theorem kdfMembers_once (kdf : VaultKdfParams) : (keys (kdfMembers (N := N) kdf)).Nodup :=
  once_of [ascii "alg", ascii "m", ascii "t", ascii "p", ascii "salt"] rfl (by decide)

def sealedMembers (box : VaultSealed) : List (Text × Json N) :=
  [(ascii "n", .str box.n), (ascii "ct", .str box.ct)]

omit [JsInteger N] in
theorem sealedMembers_once (box : VaultSealed) : (keys (sealedMembers (N := N) box)).Nodup :=
  once_of [ascii "n", ascii "ct"] rfl (by decide)

def sealedValue (box : VaultSealed) : Json N := .obj (sealedMembers box) (sealedMembers_once box)

def headerMembers (header : VaultHeader) : List (Text × Json N) :=
  [(ascii "v", intValue 1), (ascii "vaultId", .str header.vaultId),
    (ascii "kdf", .obj (kdfMembers header.kdf) (kdfMembers_once header.kdf)),
    (ascii "wrappedDek", sealedValue header.wrappedDek), (ascii "check", sealedValue header.check),
    (ascii "index", sealedValue header.index), (ascii "epoch", intValue header.epoch),
    (ascii "updatedAt", .str header.updatedAt)]

theorem headerMembers_once (header : VaultHeader) : (keys (headerMembers (N := N) header)).Nodup :=
  once_of [ascii "v", ascii "vaultId", ascii "kdf", ascii "wrappedDek", ascii "check", ascii "index",
    ascii "epoch", ascii "updatedAt"] rfl (by decide)

end

def serializeVaultHeader (header : VaultHeader) : Text :=
  JSON.stringify (Json.obj (headerMembers header) (headerMembers_once header) : Json N)

/-! ## Key blobs -/

/-- The vault and the key that a caller asks for. -/
structure BlobName where
  vaultId : Text
  keyId : Text

/-- `pub` is absent or a box. -/
def parsePub {N : Type} (value : Option (Json N)) : Option (Option VaultSealed) :=
  match value with
  | none => some none
  | some value => (parseSealed (some value) 1).map some

/-- A blob from another vault or of another key is refused. -/
def parseVaultKeyBlob (text : Text) (expect : Option BlobName) : Option VaultKeyBlob := do
  let raw ← record (JSON.parse text : Option (Json N))
  if isVersion (property (ascii "v") raw) then
    let vaultId ← id16 (property (ascii "vaultId") raw)
    let keyId ← id16 (property (ascii "keyId") raw)
    let box ← sealedOf raw 1
    if expect.all fun name => name.vaultId = vaultId && name.keyId = keyId then
      let pub ← parsePub (property (ascii "pub") raw)
      some ⟨vaultId, keyId, box.n, box.ct, pub⟩
    else none
  else none

section

variable {N : Type} [JsInteger N]

def blobMembers (blob : VaultKeyBlob) : List (Text × Json N) :=
  [(ascii "v", intValue 1), (ascii "vaultId", .str blob.vaultId), (ascii "keyId", .str blob.keyId),
    (ascii "n", .str blob.n), (ascii "ct", .str blob.ct)] ++
    (blob.pub.map fun pub => (ascii "pub", sealedValue pub)).toList

theorem blobMembers_once (blob : VaultKeyBlob) : (keys (blobMembers (N := N) blob)).Nodup := by
  unfold blobMembers
  cases blob.pub with
  | none =>
    exact once_of [ascii "v", ascii "vaultId", ascii "keyId", ascii "n", ascii "ct"] rfl (by decide)
  | some pub =>
    exact once_of [ascii "v", ascii "vaultId", ascii "keyId", ascii "n", ascii "ct", ascii "pub"] rfl
      (by decide)

end

def serializeVaultKeyBlob (blob : VaultKeyBlob) : Text :=
  JSON.stringify (Json.obj (blobMembers blob) (blobMembers_once blob) : Json N)

/-! ## The index -/

def VaultEntryType.text : VaultEntryType → Text
  | .ed25519 => ascii "ssh-ed25519"
  | .nistp256 => ascii "ecdsa-sha2-nistp256"
  | .nistp384 => ascii "ecdsa-sha2-nistp384"
  | .nistp521 => ascii "ecdsa-sha2-nistp521"
  | .rsa => ascii "ssh-rsa"
  | .password => ascii "password"

def ENTRY_TYPES : List VaultEntryType := [.ed25519, .nistp256, .nistp384, .nistp521, .rsa, .password]

def GatewayAuthPolicy.text : GatewayAuthPolicy → Text
  | .host => ascii "host"
  | .managed => ascii "managed"
  | .both => ascii "both"

def GATEWAY_AUTH_POLICIES : List GatewayAuthPolicy := [.host, .managed, .both]

/-- `[A-Za-z0-9+/]` -/
def isB64Unit (unit : UInt16) : Bool :=
  0x41 ≤ unit && unit ≤ 0x5a || 0x61 ≤ unit && unit ≤ 0x7a || 0x30 ≤ unit && unit ≤ 0x39 ||
    unit = 0x2b || unit = 0x2f

/-- `^SHA256:[A-Za-z0-9+/]{43}$` -/
def isFingerprint (text : Text) : Bool :=
  text.take 7 = ascii "SHA256:" && text.length = 50 && (text.drop 7).all isB64Unit

section

variable {N : Type}

def entryType (value : Option (Json N)) : Option VaultEntryType :=
  (string value).bind fun text => ENTRY_TYPES.find? (·.text = text)

/-- A fingerprint goes with a key and not with a password. -/
def parseFingerprint (type : VaultEntryType) (value : Option (Json N)) : Option (Option Text) :=
  if type = .password then if value.isNone then some none else none
  else ((string value).filter isFingerprint).map some

def parseRotatedFrom (value : Option (Json N)) : Option (Option Text) :=
  match value with
  | none => some none
  | some value => (id16 (some value)).map some

def entryName (value : Option (Json N)) : Option Text :=
  (string value).filter fun name => name.length ≤ VAULT_NAME_MAX

def parseKeyEntry (value : Json N) : Option VaultKeyEntry := do
  let members ← record (some value)
  let keyId ← id16 (property (ascii "keyId") members)
  let name ← entryName (property (ascii "name") members)
  let type ← entryType (property (ascii "type") members)
  let createdAt ← isoTime dateParses (property (ascii "createdAt") members)
  let fingerprint ← parseFingerprint type (property (ascii "fingerprint") members)
  let rotatedFrom ← parseRotatedFrom (property (ascii "rotatedFrom") members)
  some ⟨keyId, name, type, fingerprint, createdAt, rotatedFrom⟩

/-- The loop over `raw.keys`; the ids of `entries` are in `seen`. -/
def parseKeyEntries (entries : List VaultKeyEntry) : List (Json N) → Option (List VaultKeyEntry)
  | [] => some entries
  | item :: rest => do
    let entry ← parseKeyEntry dateParses item
    if entries.any (·.keyId = entry.keyId) then none else parseKeyEntries (entries ++ [entry]) rest

def policy (value : Option (Json N)) : Option GatewayAuthPolicy :=
  (string value).bind fun text => GATEWAY_AUTH_POLICIES.find? (·.text = text)

def parseBinding (value : Json N) : Option HostKeyBinding := do
  let members ← record (some value)
  let keyId ← id16 (property (ascii "keyId") members)
  let gatewayAuth ← policy (property (ascii "gatewayAuth") members)
  some ⟨keyId, gatewayAuth⟩

/-- The loop over `Object.entries(raw.hosts)`. -/
def parseHosts (hosts : Dict HostKeyBinding) : List (Text × Json N) → Option (Dict HostKeyBinding)
  | [] => some hosts
  | (hostAlias, item) :: rest => do
    let binding ← parseBinding item
    if hostAlias = [] ∨ hostAlias = protoKey then none
    else parseHosts (hosts.set hostAlias binding) rest

def parseSync (value : Option (Json N)) : Option (Option Text) :=
  match value with
  | none => some none
  | some value => do
    let members ← record (some value)
    let passphrase ← string (property (ascii "passphrase") members)
    some (some passphrase)

end

/-- Parse the decrypted index. -/
def parseVaultIndex (text : Text) : Option VaultIndex := do
  let raw ← record (JSON.parse text : Option (Json N))
  let items ← array (property (ascii "keys") raw)
  let members ← record (property (ascii "hosts") raw)
  let keys ← parseKeyEntries dateParses [] items
  let hosts ← parseHosts .empty (ownOrder members)
  let sync ← parseSync (property (ascii "sync") raw)
  some ⟨keys, hosts, sync⟩

section

variable {N : Type}

def textMember (key : Text) (value : Option Text) : List (Text × Json N) :=
  (value.map fun text => (key, Json.str text)).toList

def entryMembers (entry : VaultKeyEntry) : List (Text × Json N) :=
  [(ascii "keyId", .str entry.keyId), (ascii "name", .str entry.name),
    (ascii "type", .str entry.type.text)] ++
    textMember (ascii "fingerprint") entry.fingerprint ++ [(ascii "createdAt", .str entry.createdAt)] ++
    textMember (ascii "rotatedFrom") entry.rotatedFrom

theorem entryMembers_once (entry : VaultKeyEntry) : (keys (entryMembers (N := N) entry)).Nodup := by
  unfold entryMembers textMember
  cases entry.fingerprint <;> cases entry.rotatedFrom
  · exact once_of [ascii "keyId", ascii "name", ascii "type", ascii "createdAt"] rfl (by decide)
  · exact once_of [ascii "keyId", ascii "name", ascii "type", ascii "createdAt", ascii "rotatedFrom"]
      rfl (by decide)
  · exact once_of [ascii "keyId", ascii "name", ascii "type", ascii "fingerprint", ascii "createdAt"]
      rfl (by decide)
  · exact once_of [ascii "keyId", ascii "name", ascii "type", ascii "fingerprint", ascii "createdAt",
      ascii "rotatedFrom"] rfl (by decide)

def entryValue (entry : VaultKeyEntry) : Json N := .obj (entryMembers entry) (entryMembers_once entry)

def bindingMembers (binding : HostKeyBinding) : List (Text × Json N) :=
  [(ascii "keyId", .str binding.keyId), (ascii "gatewayAuth", .str binding.gatewayAuth.text)]

theorem bindingMembers_once (binding : HostKeyBinding) :
    (keys (bindingMembers (N := N) binding)).Nodup :=
  once_of [ascii "keyId", ascii "gatewayAuth"] rfl (by decide)

def bindingValue (binding : HostKeyBinding) : Json N :=
  .obj (bindingMembers binding) (bindingMembers_once binding)

/-- The new object: its aliases are assigned in the order of `sort`, of which an assignment to
`__proto__` makes no property. -/
def sortedHosts (hosts : Dict HostKeyBinding) : List (Text × HostKeyBinding) :=
  ownOrder (hosts.entries.filter (·.1 ≠ protoKey))

def hostsMembers (hosts : Dict HostKeyBinding) : List (Text × Json N) :=
  (sortedHosts hosts).map fun q => (q.1, bindingValue q.2)

theorem hostsMembers_keys (hosts : Dict HostKeyBinding) :
    keys (hostsMembers (N := N) hosts) = keys (sortedHosts hosts) := by
  unfold hostsMembers keys
  rw [List.map_map]
  rfl

theorem hostsMembers_once (hosts : Dict HostKeyBinding) :
    (keys (hostsMembers (N := N) hosts)).Nodup := by
  rw [hostsMembers_keys]
  refine ((Js.ownOrder_perm _).map Prod.fst).nodup_iff.mpr ?_
  exact (List.filter_sublist.map Prod.fst).nodup hosts.nodup_keys

def hostsValue (hosts : Dict HostKeyBinding) : Json N :=
  .obj (hostsMembers hosts) (hostsMembers_once hosts)

def syncValue (passphrase : Text) : Json N :=
  .obj [(ascii "passphrase", .str passphrase)] (once_of [ascii "passphrase"] rfl (by decide))

def indexMembers (index : VaultIndex) : List (Text × Json N) :=
  [(ascii "keys", .arr (index.keys.map entryValue)), (ascii "hosts", hostsValue index.hosts)] ++
    (index.sync.map fun passphrase => (ascii "sync", syncValue passphrase)).toList

theorem indexMembers_once (index : VaultIndex) : (keys (indexMembers (N := N) index)).Nodup := by
  unfold indexMembers
  cases index.sync with
  | none => exact once_of [ascii "keys", ascii "hosts"] rfl (by decide)
  | some passphrase => exact once_of [ascii "keys", ascii "hosts", ascii "sync"] rfl (by decide)

end

def serializeVaultIndex (index : VaultIndex) : Text :=
  JSON.stringify (Json.obj (indexMembers index) (indexMembers_once index) : Json N)

end PocketShell.KeyVault
