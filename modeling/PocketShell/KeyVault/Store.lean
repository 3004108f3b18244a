import PocketShell.KeyVault.Crypto

/-!
# The vault over the settings slots

`store.ts`: adding a password and reading a secret, over a transport that answers as it likes.

A `World` is the store together with the slots of the account. Every call of the transport takes
the next `Turn`: what becomes of the call, whether `lock()` comes before its answer, and what the
clock then shows. Only this store writes. A copy of the index by way of its JSON is the index.
-/

namespace PocketShell.KeyVault.Store

open Js (Text Bytes Json JsInteger ascii utf8 fromUtf8)

structure Platform where
  Key : Type
  cipher : Cipher Key
  dateParses : Text → Bool

variable (N : Type) [JsInteger N] (platform : Platform)

/-- What `toISOString` gives. -/
abbrev IsoTime : Type := {text : Text // isIsoTime platform.dateParses text = true}

/-- What is held while the vault is unlocked. -/
structure Unlocked where
  header : VaultHeader
  version : Nat
  dekKey : platform.Key
  index : VaultIndex
  valid : header.Valid platform.dateParses

structure Slot where
  version : Nat
  data : Text

/-- What becomes of a call of the transport. -/
inductive Weather
  /-- It is answered; a slot that is written has this version. -/
  | fine (version : Nat)
  | gated
  /-- It fails, by an error answer or by throwing; a write may have been done, with this version. -/
  | fails (message : Text) (throws : Bool) (done : Option Nat)

structure Turn where
  weather : Weather
  /-- After a `gated` answer: the silent re-verify is accepted. -/
  verified : Bool
  /-- `lock()` is called before the answer. -/
  locks : Bool
  now : IsoTime platform

structure World where
  unlocked : Option (Unlocked platform)
  generation : Nat
  now : IsoTime platform
  slots : Text → Option Slot
  turns : List (Turn platform)
  /-- What `randomBytes(12)` still gives. -/
  nonces : Nat → Nonce
  drawn : Nat

abbrev VaultM (α : Type) : Type := StateM (World platform) α

/-! ## Results -/

inductive PullResult
  | absent
  | ok (version : Nat) (data : Text)
  | gated

inductive PushResult
  | ok (version : Nat)
  | conflict (currentVersion : Nat)
  | gated
  | error (message : Text)

inductive VaultWriteFailure
  | locked
  | gated
  | vaultChanged
  | indexFull
  | conflictLimit
  | error (message : Text)
deriving DecidableEq

inductive VaultWriteResult
  | ok
  | failed (failure : VaultWriteFailure)

inductive VaultAddPasswordResult
  | ok (entry : VaultKeyEntry)
  | tooLarge
  | failed (failure : VaultWriteFailure)
deriving DecidableEq

inductive VaultSecretResult
  | key (pem : Text)
  | password (password : Text)
  | locked
  | missingKey (keyId : Text)
  | gated
  | corrupt
  /-- Without a message: the platform's own, of a decoder that throws. -/
  | error (message : Option Text)
deriving DecidableEq

inductive BlobWriteResult
  | ok
  | gated
  | error (message : Text)

/-- What `mutate` makes of the index. -/
inductive Mutation
  | changed (index : VaultIndex)
  | unchanged
  | refused (failure : VaultWriteFailure)

/-! ## The transport -/

def VAULT_HEADER_SLOT : Text := ascii "vault"

def VAULT_KEY_SLOT_PREFIX : Text := ascii "vk-"

def VAULT_SLOT_LIMIT_BYTES : Nat := 8192

def CONFLICT_RETRIES : Nat := 3

def PASSWORD_MAX_BYTES : Nat := 4096

def vaultKeySlot (keyId : Text) : Text := VAULT_KEY_SLOT_PREFIX ++ keyId

def byteLength (text : Text) : Nat := (utf8 text).length

section

variable {platform}

/-- Forget the key and the index. -/
def World.lock (w : World platform) : World platform :=
  { w with generation := w.generation + 1, unlocked := none }

/-- With nothing to come, calls are answered. -/
def World.turn (w : World platform) : Turn platform := w.turns.headD ⟨.fine 1, false, false, w.now⟩

/-- The next turn is over. -/
def World.pass (w : World platform) : World platform :=
  let passed := { w with now := w.turn.now, turns := w.turns.tail }
  if w.turn.locks then passed.lock else passed

def World.version (w : World platform) (slot : Text) : Nat := ((w.slots slot).map Slot.version).getD 0

def World.store (w : World platform) (slot : Text) (value : Option Slot) : World platform :=
  { w with slots := Function.update w.slots slot value }

def transportPull (slot : Text) : VaultM platform (Except Text PullResult) := fun w =>
  let answer := match w.turn.weather with
    | .fine _ => match w.slots slot with
      | none => .ok .absent
      | some stored => .ok (.ok stored.version stored.data)
    | .gated => .ok .gated
    | .fails message _ _ => .error message
  (answer, w.pass)

/-- A write on a stale base is refused. -/
def transportPush (slot data : Text) (baseVersion : Nat) : VaultM platform (Except Text PushResult) :=
  fun w =>
    match w.turn.weather with
    | .fine version =>
      if baseVersion = w.version slot then (.ok (.ok version), (w.store slot (some ⟨version, data⟩)).pass)
      else (.ok (.conflict (w.version slot)), w.pass)
    | .gated => (.ok .gated, w.pass)
    | .fails message throws done =>
      let written := match done with
        | some version =>
          if baseVersion = w.version slot then w.store slot (some ⟨version, data⟩) else w
        | none => w
      (if throws then .error message else .ok (.error message), written.pass)

/-- The caller of a delete does not look at how it ended. -/
def transportDelete (slot : Text) : VaultM platform Unit := fun w =>
  match w.turn.weather with
  | .fine _ | .fails _ _ (some _) => ((), (w.store slot none).pass)
  | _ => ((), w.pass)

/-- The silent re-verify after a `gated` answer, of which `pull` and `push` know the outcome. -/
def reverify {α : Type} (isGated : α → Bool) (call : VaultM platform α) : VaultM platform α := fun w =>
  let first := call w
  if isGated first.1 && w.turn.verified then call first.2 else first

def isGatedPull : Except Text PullResult → Bool
  | .ok .gated => true
  | _ => false

def isGatedPush : Except Text PushResult → Bool
  | .ok .gated => true
  | _ => false

def pull (slot : Text) : VaultM platform (Except Text PullResult) :=
  reverify isGatedPull (transportPull slot)

def push (slot data : Text) (baseVersion : Nat) : VaultM platform (Except Text PushResult) :=
  reverify isGatedPush (transportPush slot data baseVersion)

/-- `randomBytes(12)` -/
def randomNonce : VaultM platform Nonce := fun w => (w.nonces w.drawn, { w with drawn := w.drawn + 1 })

end

/-! ## Reading the header -/

inductive HeaderResult
  | ok (header : VaultHeader) (version : Nat) (valid : header.Valid platform.dateParses)
  | noVault
  /-- Of a newer format, or corrupt. -/
  | unreadable
  | gated

variable {platform} in
/-- The answer for the data of the header's slot. -/
def readHeader (version : Nat) (data : Text) : HeaderResult platform :=
  match h : parseVaultHeader N platform.dateParses data with
  | some header => .ok header version (parseVaultHeader_valid h)
  | none => .unreadable

def pullHeader : VaultM platform (Except Text (HeaderResult platform)) := do
  let pulled ← pull VAULT_HEADER_SLOT
  match pulled with
  | .error message => pure (.error message)
  | .ok .absent => pure (.ok .noVault)
  | .ok .gated => pure (.ok .gated)
  | .ok (.ok version data) => pure (.ok (readHeader N version data))

variable {platform}

/-! ## Reading a secret -/

/-- The secret in the blob of an entry. -/
def openSecret (unlocked : Unlocked platform) (entry : VaultKeyEntry) (blob : VaultKeyBlob) :
    VaultSecretResult :=
  match openKeyBlob platform.cipher unlocked.dekKey blob with
  | none => .corrupt
  | some plaintext =>
    match fromUtf8 plaintext with
    | none => .error none
    | some text => if entry.type = .password then .password text else .key text

/-- Decrypt one vault entry by keyId. -/
def decryptKey (keyId : Text) : VaultM platform VaultSecretResult := do
  let w ← get
  match w.unlocked with
  | none => pure .locked
  | some unlocked =>
    match unlocked.index.keys.find? (·.keyId = keyId) with
    | none => pure (.missingKey keyId)
    | some entry => do
      let pulled ← pull (vaultKeySlot keyId)
      match pulled with
      | .error message => pure (.error (some message))
      | .ok .gated => pure .gated
      | .ok .absent => pure (.missingKey keyId)
      | .ok (.ok _ data) =>
        match parseVaultKeyBlob N data (some ⟨unlocked.header.vaultId, keyId⟩) with
        | none => pure .corrupt
        | some blob => do
          let after ← get
          if w.generation ≠ after.generation then pure .locked
          else pure (openSecret unlocked entry blob)

/-! ## Writes -/

/-- The index survives serialize and parse. -/
def indexRoundTrips (dateParses : Text → Bool) (index : VaultIndex) : Bool :=
  (parseVaultIndex N dateParses (serializeVaultIndex N index)).isSome

/-- The state object, as long as it is the one in use. -/
def keepState (state : Unlocked platform) : VaultM platform Unit :=
  modify fun w => if w.unlocked.isSome then { w with unlocked := some state } else w

def lockNow : VaultM platform Unit := modify World.lock

/-- Re-pull the header after a conflict and re-open it with the key we hold. -/
def rebase (state : Unlocked platform) :
    VaultM platform (Except VaultWriteFailure (Unlocked platform)) := do
  let pulled ← pullHeader N platform
  match pulled with
  | .error message => pure (.error (.error message))
  | .ok .gated => pure (.error .gated)
  | .ok (.ok header version valid) =>
    if header.vaultId ≠ state.header.vaultId ∨ header.epoch ≠ state.header.epoch then do
      lockNow
      pure (.error .vaultChanged)
    else
      match openIndex platform.cipher state.dekKey N platform.dateParses header with
      | none => do
        lockNow
        pure (.error .vaultChanged)
      | some index => do
        let rebased : Unlocked platform := ⟨header, version, state.dekKey, index, valid⟩
        keepState rebased
        pure (.ok rebased)
  | .ok _ => do
    lockNow
    pure (.error .vaultChanged)

def unreadableIndex : Text := ascii "refusing to write a vault index other devices could not read"

/-- The header around a new index. -/
def renewed (header : VaultHeader) {minCt : Nat} (box : Box minCt) (now : IsoTime platform) :
    VaultHeader :=
  { header with index := box.1, updatedAt := now.1 }

omit [JsInteger N] in
theorem renewed_valid {header : VaultHeader} (h : header.Valid platform.dateParses) {minCt : Nat}
    (box : Box minCt) (now : IsoTime platform) :
    (renewed header box now).Valid platform.dateParses where
  vaultId := h.vaultId
  kdf := h.kdf
  wrappedDek := h.wrappedDek
  check := h.check
  index := isSealed_mono (Nat.zero_le _) box.2
  epoch := h.epoch
  updatedAt := now.2

/-- The state with a new index in its header, not yet pushed. -/
def sealState (state : Unlocked platform) (index : VaultIndex) : VaultM platform (Unlocked platform) := do
  let w ← get
  let nonce ← randomNonce
  let box := sealIndex platform.cipher state.dekKey N state.header.vaultId index nonce
  pure ⟨renewed state.header box w.now, state.version, state.dekKey, index,
    renewed_valid state.valid box w.now⟩

/-- Rebase after a conflict and go on with `next`. -/
def retryIndex (generation : Nat) (state : Unlocked platform)
    (next : Unlocked platform → VaultM platform VaultWriteResult) :
    VaultM platform VaultWriteResult := do
  let w ← get
  if generation ≠ w.generation then pure (.failed .locked)
  else
    let rebased ← rebase N state
    match rebased with
    | .error failure => pure (.failed failure)
    | .ok state => do
      let after ← get
      if generation ≠ after.generation then pure (.failed .locked) else next state

/-- Push the header of `sealed`, which is made from `state`, and go on with `next` after a
conflict. -/
def pushIndex (generation : Nat) (state sealed : Unlocked platform)
    (next : Unlocked platform → VaultM platform VaultWriteResult) :
    VaultM platform VaultWriteResult := do
  let data := serializeVaultHeader N sealed.header
  if VAULT_SLOT_LIMIT_BYTES < byteLength data then pure (.failed .indexFull)
  else
    let pushed ← push VAULT_HEADER_SLOT data state.version
    match pushed with
    | .error message => pure (.failed (.error message))
    | .ok (.error message) => pure (.failed (.error message))
    | .ok .gated => pure (.failed .gated)
    | .ok (.ok version) => do
      keepState { sealed with version := version }
      pure .ok
    | .ok (.conflict _) => retryIndex N generation state next

/-- The attempts that are left, each on the header that the state holds. -/
def writeIndexFrom (mutate : VaultIndex → Mutation) (generation : Nat) :
    Nat → Unlocked platform → VaultM platform VaultWriteResult
  | 0, _ => pure (.failed .conflictLimit)
  | attempts + 1, state =>
    match mutate state.index with
    | .unchanged => pure .ok
    | .refused failure => pure (.failed failure)
    | .changed index =>
      if indexRoundTrips N platform.dateParses index = false then
        pure (.failed (.error unreadableIndex))
      else do
        let w ← get
        if generation ≠ w.generation then pure (.failed .locked)
        else
          let sealed ← sealState N state index
          pushIndex N generation state sealed (writeIndexFrom mutate generation attempts)

/-- Re-seal the index after `mutate`. -/
def writeIndex (mutate : VaultIndex → Mutation) : VaultM platform VaultWriteResult := do
  let w ← get
  match w.unlocked with
  | none => pure (.failed .locked)
  | some state => writeIndexFrom N mutate w.generation (CONFLICT_RETRIES + 1) state

def writeBlobFrom (slot data : Text) : Nat → Nat → VaultM platform BlobWriteResult
  | 0, _ => pure (.error (ascii "could not write " ++ slot ++ ascii ": too many conflicts"))
  | attempts + 1, base => do
    let pushed ← push slot data base
    match pushed with
    | .error message => pure (.error message)
    | .ok (.ok _) => pure .ok
    | .ok .gated => pure .gated
    | .ok (.error message) => pure (.error message)
    | .ok (.conflict currentVersion) => writeBlobFrom slot data attempts currentVersion

/-- Write a `vk-` slot: create it, or overwrite whatever is there. -/
def writeBlob (keyId data : Text) : VaultM platform BlobWriteResult :=
  writeBlobFrom (vaultKeySlot keyId) data (CONFLICT_RETRIES + 1) 0

/-! ## Adding a password -/

def capName (name : Text) : Text :=
  if VAULT_NAME_MAX < name.length then
    let cut := name.take VAULT_NAME_MAX
    Js.trimEnd (if cut.getLast?.any Js.isHigh then cut.dropLast else cut)
  else name

/-- Trim and cap an entry name. -/
def clampVaultName (name fallback : Text) : Text :=
  let out := capName (Js.trim name)
  if out = [] then fallback else out

def appendEntry (entry : VaultKeyEntry) (index : VaultIndex) : Mutation :=
  .changed { index with keys := index.keys ++ [entry] }

def passwordEntry (keyId name : Text) (now : IsoTime platform) : VaultKeyEntry :=
  ⟨keyId, clampVaultName name (ascii "Password"), .password, none, now.1, none⟩

/-- Add a host password under a random id. -/
def addPassword (password name : Text) (random : {bytes : Bytes // bytes.length = 16}) :
    VaultM platform VaultAddPasswordResult := do
  let w ← get
  match w.unlocked with
  | none => pure (.failed .locked)
  | some unlocked =>
    let plaintext := utf8 password
    if plaintext.length = 0 ∨ PASSWORD_MAX_BYTES < plaintext.length then pure .tooLarge
    else
      let keyId := toB64url random.1
      let nonce ← randomNonce
      let blob := sealKeyBlob platform.cipher unlocked.dekKey unlocked.header.vaultId keyId plaintext
        nonce none
      let wrote ← writeBlob keyId (serializeVaultKeyBlob N blob)
      match wrote with
      | .gated => pure (.failed .gated)
      | .error message => pure (.failed (.error message))
      | .ok => do
        let after ← get
        let entry := passwordEntry keyId name after.now
        let result ← writeIndex N (appendEntry entry)
        match result with
        | .ok => pure (.ok entry)
        | .failed failure => do
          transportDelete (vaultKeySlot keyId)
          pure (.failed failure)

/-- The vault as it is opened from the slots with its key. -/
def openVault (dekKey : platform.Key) (slots : Text → Option Slot) : Option (Unlocked platform) :=
  match slots VAULT_HEADER_SLOT with
  | none => none
  | some slot =>
    match (readHeader N slot.version slot.data : HeaderResult platform) with
    | .ok header version valid =>
      (openIndex platform.cipher dekKey N platform.dateParses header).map fun index =>
        ⟨header, version, dekKey, index, valid⟩
    | _ => none

end PocketShell.KeyVault.Store
