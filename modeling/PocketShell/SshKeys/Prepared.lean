import PocketShell.SshKeys.Keys

/-!
# A prepared key

How `prepareSshPrivateKey` comes to a key, the type that a public key blob names and the parts of an
OpenSSH file.
-/

namespace PocketShell.SshKeys

open Js (Text Bytes ascii utf8)
open KeyVault (VaultEntryType)

variable {P : Primitives} {check : Check}

/-! ## The label of a file -/

variable {label : Text}

theorem format_cases {format : SshKeyFormat} (h : PEM_FORMATS.lookup label = some format) :
    label = OPENSSH_LABEL ∧ format = .openssh ∨ label = ascii "RSA PRIVATE KEY" ∧ format = .pkcs1 ∨
      label = ascii "EC PRIVATE KEY" ∧ format = .sec1 ∨
      label = ascii "PRIVATE KEY" ∧ format = .pkcs8 := by
  unfold PEM_FORMATS at h
  simp only [List.lookup] at h
  split at h
  · next heq =>
    cases h
    exact .inl ⟨eq_of_beq heq, rfl⟩
  split at h
  · next heq =>
    cases h
    exact .inr (.inl ⟨eq_of_beq heq, rfl⟩)
  split at h
  · next heq =>
    cases h
    exact .inr (.inr (.inl ⟨eq_of_beq heq, rfl⟩))
  split at h
  · next heq =>
    cases h
    exact .inr (.inr (.inr ⟨eq_of_beq heq, rfl⟩))
  · cases h

theorem openssh_label (h : PEM_FORMATS.lookup label = some .openssh) : label = OPENSSH_LABEL := by
  rcases format_cases h with ⟨rfl, -⟩ | ⟨-, h⟩ | ⟨-, h⟩ | ⟨-, h⟩
  · rfl
  all_goals cases h

theorem pkcs8_label (h : PEM_FORMATS.lookup label = some .pkcs8) : label = ascii "PRIVATE KEY" := by
  rcases format_cases h with ⟨-, h⟩ | ⟨-, h⟩ | ⟨-, h⟩ | ⟨rfl, -⟩
  · cases h
  · cases h
  · cases h
  · rfl

/-! ## The ways to a key -/

/-- How `preparePem` comes to a key. -/
inductive Prepared (P : Primitives) (check : Check) (pem : Pem) (passphrase : Text) :
    PreparedSshKey → Prop
  | openSsh {container : OpenSshContainer} {info : SshPublicKeyInfo} :
    PEM_FORMATS.lookup pem.label = some .openssh → parseOpenSsh pem.body = .ok container →
    sshPublicKeyInfo P container.publicBlob = .ok info → container.cipher = ascii "none" →
    container.kdf = ascii "none" →
    checkOpenSshSection P container.privateSection container.publicBlob = .ok () →
    Prepared P check pem passphrase ⟨info, .openssh, emitPem pem.label pem.body, false⟩
  | encrypted {container : OpenSshContainer} {info : SshPublicKeyInfo} {section' : Bytes} :
    PEM_FORMATS.lookup pem.label = some .openssh → parseOpenSsh pem.body = .ok container →
    sshPublicKeyInfo P container.publicBlob = .ok info → container.cipher ≠ ascii "none" →
    decryptOpenSshSection P container passphrase = .ok section' →
    checkOpenSshSection P section' container.publicBlob = .ok () →
    Prepared P check pem passphrase
      ⟨info, .openssh, buildUnencryptedOpenSsh container.publicBlob section', true⟩
  | legacy {format : SshKeyFormat} {proc : Text} {der blob : Bytes} {info : SshPublicKeyInfo} :
    PEM_FORMATS.lookup pem.label = some format → format ≠ .openssh →
    pem.header (ascii "Proc-Type") = some proc → decryptLegacyPem P pem passphrase = .ok der →
    derBlob P format der = .ok blob → sshPublicKeyInfo P blob = .ok info →
    Prepared P check pem passphrase ⟨info, format, emitPem pem.label der, true⟩
  | plain {format : SshKeyFormat} {blob : Bytes} {info : SshPublicKeyInfo} {stored : Text} :
    PEM_FORMATS.lookup pem.label = some format → format ≠ .openssh →
    pem.header (ascii "Proc-Type") = none → derBlob P format pem.body = .ok blob →
    sshPublicKeyInfo P blob = .ok info → storedPem check pem info = .ok stored →
    Prepared P check pem passphrase ⟨info, format, stored, false⟩

section

variable {pem : Pem} {passphrase : Text} {key : PreparedSshKey} {format : SshKeyFormat}

theorem preparePem_openssh (h : PEM_FORMATS.lookup pem.label = some .openssh) :
    preparePem P check pem passphrase = prepareOpenSsh P pem passphrase := by
  unfold preparePem
  rw [h]

theorem preparePem_der (h : PEM_FORMATS.lookup pem.label = some format) (hne : format ≠ .openssh)
    (hnone : pem.header (ascii "Proc-Type") = none) :
    preparePem P check pem passphrase = preparePlain P check pem format := by
  unfold preparePem
  rw [h, hnone]
  cases format with
  | openssh => exact absurd rfl hne
  | pkcs1 => rfl
  | sec1 => rfl
  | pkcs8 => rfl

theorem preparePem_proc {proc : Text} (h : PEM_FORMATS.lookup pem.label = some format)
    (hne : format ≠ .openssh) (hproc : pem.header (ascii "Proc-Type") = some proc) :
    preparePem P check pem passphrase = prepareLegacy P pem format proc passphrase := by
  unfold preparePem
  rw [h, hproc]
  cases format with
  | openssh => exact absurd rfl hne
  | pkcs1 => rfl
  | sec1 => rfl
  | pkcs8 => rfl

theorem blobOfDecrypted_ok {der blob : Bytes} (h : blobOfDecrypted P format der = .ok blob) :
    derBlob P format der = .ok blob := by
  unfold blobOfDecrypted at h
  split at h
  · cases h
  · exact h

theorem prepareOpenSsh_ok (hlabel : PEM_FORMATS.lookup pem.label = some .openssh)
    (h : prepareOpenSsh P pem passphrase = .ok (.ok key)) : Prepared P check pem passphrase key := by
  obtain ⟨container, hcontainer, h⟩ := bind_eq_ok.mp h
  obtain ⟨info, hinfo, h⟩ := bind_eq_ok.mp h
  split at h
  · next hcipher =>
    split at h
    · cases h
    · next hkdf =>
      obtain ⟨_, hcheck, h⟩ := bind_eq_ok.mp h
      cases h
      exact .openSsh hlabel hcontainer hinfo hcipher (not_not.mp hkdf) hcheck
  next hcipher =>
  split at h
  · cases h
  · obtain ⟨section', hsection, h⟩ := bind_eq_ok.mp h
    obtain ⟨_, hcheck, h⟩ := bind_eq_ok.mp h
    cases h
    exact .encrypted hlabel hcontainer hinfo hcipher hsection hcheck

theorem prepareLegacy_ok {proc : Text} (hlabel : PEM_FORMATS.lookup pem.label = some format)
    (hne : format ≠ .openssh) (hproc : pem.header (ascii "Proc-Type") = some proc)
    (h : prepareLegacy P pem format proc passphrase = .ok (.ok key)) :
    Prepared P check pem passphrase key := by
  unfold prepareLegacy at h
  split at h
  · cases h
  split at h
  · cases h
  · obtain ⟨der, hder, h⟩ := bind_eq_ok.mp h
    obtain ⟨blob, hblob, h⟩ := bind_eq_ok.mp h
    obtain ⟨info, hinfo, h⟩ := bind_eq_ok.mp h
    cases h
    exact .legacy hlabel hne hproc hder (blobOfDecrypted_ok hblob) hinfo

theorem preparePlain_ok (hlabel : PEM_FORMATS.lookup pem.label = some format)
    (hne : format ≠ .openssh) (hnone : pem.header (ascii "Proc-Type") = none)
    (h : preparePlain P check pem format = .ok (.ok key)) : Prepared P check pem passphrase key := by
  obtain ⟨blob, hblob, h⟩ := bind_eq_ok.mp h
  obtain ⟨info, hinfo, h⟩ := bind_eq_ok.mp h
  obtain ⟨stored, hstored, h⟩ := bind_eq_ok.mp h
  cases h
  exact .plain hlabel hne hnone hblob hinfo hstored

theorem preparePem_ok (h : preparePem P check pem passphrase = .ok (.ok key)) :
    Prepared P check pem passphrase key := by
  cases hlabel : PEM_FORMATS.lookup pem.label with
  | none =>
    unfold preparePem at h
    rw [hlabel] at h
    cases h
  | some format =>
    by_cases hopen : format = .openssh
    · subst hopen
      rw [preparePem_openssh hlabel] at h
      exact prepareOpenSsh_ok hlabel h
    · cases hproc : pem.header (ascii "Proc-Type") with
      | none =>
        rw [preparePem_der hlabel hopen hproc] at h
        exact preparePlain_ok hlabel hopen hproc h
      | some proc =>
        rw [preparePem_proc hlabel hopen hproc] at h
        exact prepareLegacy_ok hlabel hopen hproc h

theorem settled_ok {outcome : Outcome PrepareSshKeyResult}
    (h : settled outcome = some (.ok key)) : outcome = .ok (.ok key) := by
  unfold settled at h
  split at h
  · exact congrArg Except.ok (Option.some.inj h)
  all_goals cases h

theorem prepareSshPrivateKey_ok {text : Text} {keyPassphrase : Option Text}
    (h : prepareSshPrivateKey P check text keyPassphrase = some (.ok key)) :
    ∃ pem, parsePem text = .ok pem ∧ Prepared P check pem (keyPassphrase.getD []) key := by
  unfold prepareSshPrivateKey at h
  split at h
  · cases h
  split at h
  · cases h
  · obtain ⟨pem, hpem, h⟩ := bind_eq_ok.mp (settled_ok h)
    exact ⟨pem, hpem, preparePem_ok h⟩

end

/-! ## The type that a blob names -/

theorem readText_sshText {text : Text} {rest : Bytes} (hlength : (utf8 text).length < 4294967296)
    (htext : Js.decodeText (utf8 text) = text) :
    readText (sshText text ++ rest) = .ok (text, rest) := by
  unfold readText sshText
  rw [readString_sshString hlength, ok_bind]
  dsimp only
  rw [htext]
  rfl

theorem readText_type (type : VaultEntryType) (rest : Bytes) :
    readText (sshText type.text ++ rest) = .ok (type.text, rest) := by
  refine readText_sshText ?_ ?_ <;> cases type <;> decide

theorem readText_ident (curve : Curve) (rest : Bytes) :
    readText (sshText curve.ident ++ rest) = .ok (curve.ident, rest) := by
  refine readText_sshText ?_ ?_ <;> cases curve <;> decide

theorem find_type {type : VaultEntryType} (h : type ∈ VAULT_SSH_KEY_TYPES) :
    VAULT_SSH_KEY_TYPES.find? (·.text = type.text) = some type := by
  cases type with
  | password => exact absurd h (by decide)
  | _ => decide

section

variable {blob rest : Bytes} {info : SshPublicKeyInfo} {type : VaultEntryType}

theorem sshPublicKeyInfo_ok (h : sshPublicKeyInfo P blob = .ok info) :
    ∃ field, readText blob = .ok field ∧
      VAULT_SSH_KEY_TYPES.find? (·.text = field.1) = some info.type ∧ info.publicKeyBlob = blob := by
  obtain ⟨field, hfield, h⟩ := bind_eq_ok.mp h
  split at h
  · cases h
  · next hfind =>
    cases h
    exact ⟨field, hfield, hfind, rfl⟩

theorem info_type (h : sshPublicKeyInfo P (sshText type.text ++ rest) = .ok info)
    (htype : type ∈ VAULT_SSH_KEY_TYPES) : info.type = type := by
  obtain ⟨field, hfield, hfind, -⟩ := sshPublicKeyInfo_ok h
  rw [readText_type] at hfield
  cases hfield
  exact Option.some.inj (hfind.symm.trans (find_type htype))

end

/-! ## OpenSSH files -/

/-- What is packed without a passphrase is unpacked. -/
theorem parseOpenSsh_body {publicBlob section' : Bytes} (hblob : publicBlob.length < 4294967296)
    (hsection : section'.length < 4294967296) :
    parseOpenSsh (openSshBody publicBlob section') =
      .ok ⟨ascii "none", ascii "none", [], publicBlob, section', []⟩ := by
  have hnone : ∀ rest, readText (sshText (ascii "none") ++ rest) = .ok (ascii "none", rest) :=
    fun rest => readText_sshText (by decide) (by decide)
  unfold parseOpenSsh openSshBody
  rw [List.take_left, List.drop_left, if_neg (not_not.mpr rfl), hnone, ok_bind, hnone, ok_bind,
    readString_sshString (by decide), ok_bind, readU32_u32be (by decide), ok_bind,
    if_neg (not_not.mpr rfl), readString_sshString hblob, ok_bind, readString_whole hsection]
  rfl

theorem parseOpenSsh_blob_lt {body : Bytes} {container : OpenSshContainer}
    (h : parseOpenSsh body = .ok container) : container.publicBlob.length < 4294967296 := by
  unfold parseOpenSsh at h
  split at h
  · cases h
  obtain ⟨cipher, -, h⟩ := bind_eq_ok.mp h
  obtain ⟨kdf, -, h⟩ := bind_eq_ok.mp h
  obtain ⟨kdfOptions, -, h⟩ := bind_eq_ok.mp h
  obtain ⟨count, -, h⟩ := bind_eq_ok.mp h
  split at h
  · cases h
  obtain ⟨publicBlob, hblob, h⟩ := bind_eq_ok.mp h
  obtain ⟨privateSection, -, h⟩ := bind_eq_ok.mp h
  cases h
  exact readString_lt hblob

end PocketShell.SshKeys
