import PocketShell.Js.WellFormed
import PocketShell.KeyVault.Codec

/-!
# Sealed values

`vaultCrypto.ts` over an ideal cipher: what is sealed under a key and a context opens under
them to the same bytes.
-/

namespace PocketShell.KeyVault

open Js (Text Bytes Json JsInteger ascii utf8 fromUtf8)

/-- AES-GCM of the platform, with a tag of 16 bytes. -/
structure Cipher (Key : Type) where
  encrypt : (key : Key) → (nonce data plaintext : Bytes) → Bytes
  decrypt : (key : Key) → (nonce data ct : Bytes) → Option Bytes
  encrypt_length : ∀ key nonce data plaintext,
    (encrypt key nonce data plaintext).length = plaintext.length + 16
  decrypt_encrypt : ∀ key nonce data plaintext,
    decrypt key nonce data (encrypt key nonce data plaintext) = some plaintext

abbrev Nonce : Type := {bytes : Bytes // bytes.length = 12}

/-- A box of at least `minCt` bytes. -/
abbrev Box (minCt : Nat) : Type := {box : VaultSealed // isSealed minCt box = true}

theorem isB64Len_toB64url (bytes : Bytes) : isB64Len (toB64url bytes) bytes.length = true := by
  simp [isB64Len, fromB64url_toB64url]

theorem isId16_toB64url {bytes : Bytes} (h : bytes.length = 16) : isId16 (toB64url bytes) = true := by
  unfold isId16
  rw [← h]
  exact isB64Len_toB64url bytes

theorem isSealed_toB64url {nonce ct : Bytes} {minCt : Nat} (hn : nonce.length = 12)
    (hct : minCt + 16 ≤ ct.length) : isSealed minCt ⟨toB64url nonce, toB64url ct⟩ = true := by
  have hnonce : isB64Len (toB64url nonce) 12 = true := hn ▸ isB64Len_toB64url nonce
  simp [isSealed, hnonce, fromB64url_toB64url, hct]

theorem isSealed_mono {box : VaultSealed} {minCt least : Nat} (hle : least ≤ minCt)
    (h : isSealed minCt box = true) : isSealed least box = true := by
  obtain ⟨hn, hct⟩ := Bool.and_eq_true_iff.mp h
  refine Bool.and_eq_true_iff.mpr ⟨hn, ?_⟩
  obtain ⟨bytes, hbytes, hlength⟩ := (Option.any_eq_true _ _).mp hct
  refine (Option.any_eq_true _ _).mpr ⟨bytes, hbytes, ?_⟩
  exact decide_eq_true (le_trans (by omega) (of_decide_eq_true hlength))

section

variable {Key : Type} (cipher : Cipher Key) (key : Key)

def «seal» (plaintext : Bytes) (aad : Text) (nonce : Nonce) : Box plaintext.length :=
  ⟨⟨toB64url nonce.1, toB64url (cipher.encrypt key nonce.1 (utf8 aad) plaintext)⟩,
    isSealed_toB64url nonce.2 (cipher.encrypt_length ..).ge⟩

/-- `none` when the tag does not verify. -/
def «open» (box : VaultSealed) (aad : Text) : Option Bytes := do
  let nonce ← fromB64url box.n
  let ct ← fromB64url box.ct
  if nonce.length ≠ 12 ∨ ct.length < 16 then none
  else cipher.decrypt key nonce (utf8 aad) ct

theorem open_seal (plaintext : Bytes) (aad : Text) (nonce : Nonce) :
    «open» cipher key («seal» cipher key plaintext aad nonce).1 aad = some plaintext := by
  have hlong : ¬(nonce.1.length ≠ 12 ∨
      (cipher.encrypt key nonce.1 (utf8 aad) plaintext).length < 16) := by
    rw [cipher.encrypt_length, nonce.2]
    omega
  unfold «open» «seal»
  simp only [fromB64url_toB64url, Option.bind_eq_bind, Option.bind_some]
  rw [if_neg hlong, cipher.decrypt_encrypt]

end

/-! ## Blobs and the index -/

def VAULT_AAD_INDEX : Text := ascii "pocketshell-vault/v1/index|"

def VAULT_AAD_KEY : Text := ascii "pocketshell-vault/v1/key|"

def VAULT_AAD_PUB : Text := ascii "pocketshell-vault/v1/pub|"

/-- The context of a blob: its vault and its key. -/
def blobAad (aad vaultId keyId : Text) : Text := aad ++ vaultId ++ ascii "|" ++ keyId

section

variable {Key : Type} (cipher : Cipher Key) (dek : Key)

/-- Seal a `vk-` blob; `publicKey` comes with the nonce it is sealed with. -/
def sealKeyBlob (vaultId keyId : Text) (plaintext : Bytes) (nonce : Nonce)
    (publicKey : Option (Text × Nonce)) : VaultKeyBlob :=
  let box := «seal» cipher dek plaintext (blobAad VAULT_AAD_KEY vaultId keyId) nonce
  let pub := publicKey.map fun q =>
    («seal» cipher dek (utf8 q.1) (blobAad VAULT_AAD_PUB vaultId keyId) q.2).1
  ⟨vaultId, keyId, box.1.n, box.1.ct, pub⟩

/-- Open a key blob; its vault and its key are part of the context. -/
def openKeyBlob (blob : VaultKeyBlob) : Option Bytes :=
  «open» cipher dek ⟨blob.n, blob.ct⟩ (blobAad VAULT_AAD_KEY blob.vaultId blob.keyId)

theorem openKeyBlob_sealKeyBlob (vaultId keyId : Text) (plaintext : Bytes) (nonce : Nonce)
    (publicKey : Option (Text × Nonce)) :
    openKeyBlob cipher dek (sealKeyBlob cipher dek vaultId keyId plaintext nonce publicKey) =
      some plaintext :=
  open_seal cipher dek plaintext _ nonce

theorem sealKeyBlob_valid {vaultId keyId : Text} {plaintext : Bytes} (nonce : Nonce)
    (hvault : isId16 vaultId = true) (hkey : isId16 keyId = true) (hne : 1 ≤ plaintext.length) :
    (sealKeyBlob cipher dek vaultId keyId plaintext nonce none).Valid where
  vaultId := hvault
  keyId := hkey
  box := isSealed_mono hne («seal» cipher dek plaintext _ nonce).2
  pub := fun _ h => by cases h

variable (N : Type) [JsInteger N] (dateParses : Text → Bool)

def sealIndex (vaultId : Text) (index : VaultIndex) (nonce : Nonce) :
    Box (utf8 (serializeVaultIndex N index)).length :=
  «seal» cipher dek (utf8 (serializeVaultIndex N index)) (VAULT_AAD_INDEX ++ vaultId) nonce

def openIndex (header : VaultHeader) : Option VaultIndex := do
  let bytes ← «open» cipher dek header.index (VAULT_AAD_INDEX ++ header.vaultId)
  let text ← fromUtf8 bytes
  parseVaultIndex N dateParses text

/-- The index that is sealed is the one that is parsed. -/
theorem openIndex_sealIndex {header : VaultHeader} {index : VaultIndex} {nonce : Nonce}
    (h : header.index = (sealIndex cipher dek N header.vaultId index nonce).1) :
    openIndex cipher dek N dateParses header =
      parseVaultIndex N dateParses (serializeVaultIndex N index) := by
  unfold openIndex
  rw [h, sealIndex, open_seal, Option.bind_eq_bind, Option.bind_some]
  unfold serializeVaultIndex
  rw [Js.fromUtf8_stringify]
  rfl

end

end PocketShell.KeyVault
