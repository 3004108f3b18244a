import PocketShell.SshKeys.Half

/-!
# One identity for a key

The public key blob, the fingerprint and the id that are given for a key are those of its private
half.

* `publicKeyBlob_canonical`: the blob is the one that belongs to the private half, for every file
  but an OpenSSH file whose own public blob is written otherwise.
* `padded_blob`: a file with a longer exponent, and another id.
-/

namespace PocketShell.SshKeys

open Js (Text Bytes ascii byte join utf8)
open KeyVault (VaultEntryType)

variable {P : Primitives} {check : Check}

/-! ## Blobs that are written in one way -/

/-- The content of an mpint that is not negative and has no byte too many. -/
def isMinimal : Bytes → Bool
  | [] => true
  | [b] => 0 < b && b < 0x80
  | a :: b :: _ => a < 0x80 && (a ≠ 0 || 0x80 ≤ b)

/-- A type and its fields as they are written, with nothing after them. -/
inductive PlainBlob : Bytes → Prop
  | ed25519 (pub : Bytes) : PlainBlob (sshText VaultEntryType.ed25519.text ++ sshString pub)
  | ec (curve : Curve) (point : Bytes) :
    PlainBlob (sshText curve.type.text ++ (sshText curve.ident ++ sshString point))
  | rsa (e n : Bytes) : isMinimal e = true → isMinimal n = true →
    PlainBlob (sshText VaultEntryType.rsa.text ++ (sshString e ++ sshString n))

section

variable {bytes e n blob : Bytes}

theorem sshMpint_isMinimal (bytes : Bytes) :
    ∃ content, sshMpint bytes = sshString content ∧ isMinimal content = true := by
  unfold sshMpint
  split
  · exact ⟨[], rfl, rfl⟩
  · next first rest hdrop =>
    have hfirst : first ≠ 0 := by
      have hne : minimalBytes bytes ≠ [] := by
        unfold minimalBytes
        rw [hdrop]
        exact List.cons_ne_nil _ _
      have hhead := List.head_dropWhile_not (fun b : UInt8 => decide (b = 0)) hne
      simp only [hdrop, List.head_cons, decide_eq_false_iff_not] at hhead
      exact hhead
    refine ⟨_, rfl, ?_⟩
    split
    · next hhigh => simp [isMinimal, hhigh]
    · next hlow =>
      have hlt : first < 0x80 := UInt8.not_le.mp hlow
      cases rest with
      | nil => simp [isMinimal, hlt, UInt8.pos_iff_ne_zero, hfirst]
      | cons b rest => simp [isMinimal, hlt, hfirst]

/-- An mpint without a byte too many is what is written for its integer. -/
theorem sshMpint_of_isMinimal (h : isMinimal bytes = true) : sshMpint bytes = sshString bytes := by
  unfold isMinimal at h
  split at h
  · rfl
  · next b =>
    obtain ⟨hpos, hlow⟩ : 0 < b ∧ b < 0x80 := by simpa using h
    have hb : b ≠ 0 := UInt8.pos_iff_ne_zero.mp hpos
    unfold sshMpint
    rw [List.dropWhile_cons_of_neg (by simpa using hb)]
    dsimp only
    rw [if_neg (UInt8.not_le.mpr hlow)]
  · next a b rest =>
    obtain ⟨hlow, hlead⟩ : a < 0x80 ∧ (a ≠ 0 ∨ 0x80 ≤ b) := by simpa using h
    by_cases ha : a = 0
    · subst ha
      have hb : 0x80 ≤ b := hlead.resolve_left fun hne => hne rfl
      have hne : b ≠ 0 := by
        rintro rfl
        exact absurd hb (by decide)
      have hdrop : (0 :: b :: rest).dropWhile (fun x : UInt8 => decide (x = 0)) = b :: rest := by
        rw [List.dropWhile_cons_of_pos rfl, List.dropWhile_cons_of_neg (by simpa using hne)]
      unfold sshMpint
      rw [hdrop]
      dsimp only
      rw [if_pos hb]
    · unfold sshMpint
      rw [List.dropWhile_cons_of_neg (by simpa using ha)]
      dsimp only
      rw [if_neg (UInt8.not_le.mpr hlow)]

theorem rsaBlob_plain (e n : Bytes) : PlainBlob (rsaBlob e n) := by
  obtain ⟨e', he, hminimal⟩ := sshMpint_isMinimal e
  obtain ⟨n', hn, hminimal'⟩ := sshMpint_isMinimal n
  unfold rsaBlob
  rw [he, hn]
  exact .rsa e' n' hminimal hminimal'

theorem canonicalBlob_plain {half : PrivateHalf} (h : canonicalBlob P half = .ok blob) :
    PlainBlob blob := by
  cases half with
  | ed25519 seed =>
    unfold canonicalBlob ed25519Blob at h
    dsimp only at h
    split at h
    · cases h
    · cases h
      exact .ed25519 _
  | ec curve scalar =>
    obtain ⟨point, -, h⟩ := bind_eq_ok.mp h
    unfold ecBlob at h
    split at h
    · cases h
    · cases h
      exact .ec curve point
  | rsa e d p q =>
    cases h
    exact rsaBlob_plain _ _

end

/-! ## The private half of a file -/

/-- What a private section holds. -/
def sectionHalf (section' : Bytes) : Outcome PrivateHalf := do
  let check1 ← readU32 section'
  let check2 ← readU32 check1.2
  let type ← readText check2.2
  if type.1 = VaultEntryType.ed25519.text then do
    let key ← readString type.2
    let priv ← readString key.2
    return .ed25519 (priv.1.take 32)
  else if (literal (ascii "ecdsa-sha2-") type.1).isSome then do
    let ident ← readText type.2
    let point ← readString ident.2
    let d ← readString point.2
    let curve ← curveByIdent ident.1
    return .ec curve (bigUnsigned d.1)
  else do
    let n ← readString type.2
    let e ← readString n.2
    let d ← readString e.2
    let iqmp ← readString d.2
    let p ← readString iqmp.2
    let q ← readString p.2
    return .rsa (bigUnsigned e.1) (bigUnsigned d.1) (bigUnsigned p.1) (bigUnsigned q.1)

section

variable (P) (passphrase : Text)

def openSshHalf (container : OpenSshContainer) : Outcome PrivateHalf :=
  if container.cipher = ascii "none" then sectionHalf container.privateSection
  else do
    let section' ← decryptOpenSshSection P container passphrase
    sectionHalf section'

def pemHalf (pem : Pem) : Outcome PrivateHalf :=
  match PEM_FORMATS.lookup pem.label with
  | none => unsupported (ascii "unsupported key file (" ++ pem.label ++ ascii ")")
  | some .openssh => do
    let container ← parseOpenSsh pem.body
    openSshHalf P passphrase container
  | some format =>
    if (pem.header (ascii "Proc-Type")).isSome then do
      let der ← decryptLegacyPem P pem passphrase
      derHalf format der
    else derHalf format pem.body

def fileHalf (text : Text) : Outcome PrivateHalf := do
  let pem ← parsePem text
  pemHalf P passphrase pem

end

/-- The public blob of an OpenSSH file is written in one way. -/
def PlainFile (text : Text) : Prop :=
  ∀ pem container, parsePem text = .ok pem → pem.label = OPENSSH_LABEL →
    parseOpenSsh pem.body = .ok container → PlainBlob container.publicBlob

/-! ## The private section of a public blob -/

section

variable {rest reader blob section' : Bytes} {type : VaultEntryType}

theorem checkEd25519_half (h : checkEd25519 P rest reader = .ok ()) :
    ∃ blobKey key priv, readString rest = .ok blobKey ∧ readString reader = .ok key ∧
      readString key.2 = .ok priv ∧ (priv.1.take 32).length = 32 ∧
      P.ed25519PublicFromSeed (priv.1.take 32) = blobKey.1 := by
  obtain ⟨blobKey, hblob, h⟩ := bind_eq_ok.mp h
  obtain ⟨key, hkey, h⟩ := bind_eq_ok.mp h
  obtain ⟨priv, hpriv, h⟩ := bind_eq_ok.mp h
  split at h
  · cases h
  next hfields =>
  obtain ⟨hlength, hfields⟩ := not_or.mp hfields
  obtain ⟨hkeys, -⟩ := not_or.mp hfields
  split at h
  · cases h
  next hderived =>
  refine ⟨blobKey, key, priv, hblob, hkey, hpriv, ?_, (not_not.mp hderived).trans (not_not.mp hkeys)⟩
  rw [List.length_take, not_not.mp hlength]
  rfl

theorem ecPoint_head {curve : Curve} {d point : Bytes} (h : ecPointFromPrivate P curve d = .ok point) :
    point.head? = some 0x04 := by
  unfold ecPointFromPrivate at h
  dsimp only at h
  split at h
  · cases h
  split at h
  · cases h
  split at h
  · split at h
    · cases h
    · cases h
      rfl
  · cases h

theorem checkEc_half (h : checkEc P rest reader = .ok ()) :
    ∃ blobIdent blobPoint ident point d curve, readText rest = .ok blobIdent ∧
      readString blobIdent.2 = .ok blobPoint ∧ readText reader = .ok ident ∧
      readString ident.2 = .ok point ∧ readString point.2 = .ok d ∧ ident.1 = blobIdent.1 ∧
      curveByIdent ident.1 = .ok curve ∧ ecPointFromPrivate P curve d.1 = .ok blobPoint.1 := by
  obtain ⟨blobIdent, hblobIdent, h⟩ := bind_eq_ok.mp h
  obtain ⟨blobPoint, hblobPoint, h⟩ := bind_eq_ok.mp h
  obtain ⟨ident, hident, h⟩ := bind_eq_ok.mp h
  obtain ⟨point, hpoint, h⟩ := bind_eq_ok.mp h
  obtain ⟨d, hd, h⟩ := bind_eq_ok.mp h
  split at h
  · cases h
  next hfields =>
  obtain ⟨hidents, hpoints⟩ := not_or.mp hfields
  obtain ⟨curve, hcurve, h⟩ := bind_eq_ok.mp h
  obtain ⟨derived, hderived, h⟩ := bind_eq_ok.mp h
  split at h
  · cases h
  next hsame =>
  refine ⟨blobIdent, blobPoint, ident, point, d, curve, hblobIdent, hblobPoint, hident, hpoint, hd,
    not_not.mp hidents, hcurve, ?_⟩
  rw [hderived, not_not.mp hsame, not_not.mp hpoints]

theorem checkOpenSshRsa_half (h : checkOpenSshRsa rest reader = .ok ()) :
    ∃ blobE blobN n e d iqmp p q, readString rest = .ok blobE ∧ readString blobE.2 = .ok blobN ∧
      readString reader = .ok n ∧ readString n.2 = .ok e ∧ readString e.2 = .ok d ∧
      readString d.2 = .ok iqmp ∧ readString iqmp.2 = .ok p ∧ readString p.2 = .ok q ∧
      bigUnsigned e.1 = bigUnsigned blobE.1 ∧
      bigUnsigned p.1 * bigUnsigned q.1 = bigUnsigned blobN.1 := by
  obtain ⟨blobE, hblobE, h⟩ := bind_eq_ok.mp h
  obtain ⟨blobN, hblobN, h⟩ := bind_eq_ok.mp h
  obtain ⟨n, hn, h⟩ := bind_eq_ok.mp h
  obtain ⟨e, he, h⟩ := bind_eq_ok.mp h
  obtain ⟨d, hd, h⟩ := bind_eq_ok.mp h
  obtain ⟨iqmp, hiqmp, h⟩ := bind_eq_ok.mp h
  obtain ⟨p, hp, h⟩ := bind_eq_ok.mp h
  obtain ⟨q, hq, h⟩ := bind_eq_ok.mp h
  split at h
  · cases h
  next hfields =>
  obtain ⟨hmodulus, hexponent⟩ := not_or.mp hfields
  refine ⟨blobE, blobN, n, e, d, iqmp, p, q, hblobE, hblobN, hn, he, hd, hiqmp, hp, hq,
    not_not.mp hexponent, ?_⟩
  rw [← checkRsa_ok h, not_not.mp hmodulus]

end

/-! ## A blob that is written in one way -/

section

variable {blob : Bytes} {field : Text × Bytes}

theorem length_sshString (data : Bytes) : (sshString data).length = 4 + data.length := by
  simp only [sshString, u32be, List.length_append, List.length_cons, List.length_nil]

theorem curve_type_ne (curve : Curve) : curve.type.text ≠ VaultEntryType.ed25519.text := by
  cases curve <;> decide

theorem curve_type_ecdsa (curve : Curve) :
    (literal (ascii "ecdsa-sha2-") curve.type.text).isSome = true := by
  cases curve <;> decide

theorem plain_ed25519 {key : Bytes × Bytes} (h : PlainBlob blob) (hlength : blob.length < 4294967296)
    (hfield : readText blob = .ok field) (htype : field.1 = VaultEntryType.ed25519.text)
    (hkey : readString field.2 = .ok key) :
    blob = sshText VaultEntryType.ed25519.text ++ sshString key.1 := by
  cases h with
  | ed25519 pub =>
    rw [readText_type] at hfield
    cases hfield
    have hpub : pub.length < 4294967296 := by
      rw [List.length_append, length_sshString] at hlength
      omega
    rw [readString_whole hpub] at hkey
    cases hkey
    rfl
  | ec curve point =>
    rw [readText_type] at hfield
    cases hfield
    exact absurd htype (curve_type_ne curve)
  | rsa e n =>
    rw [readText_type] at hfield
    cases hfield
    have hne : VaultEntryType.rsa.text ≠ VaultEntryType.ed25519.text := by decide
    exact absurd htype hne

theorem plain_ec {ident : Text × Bytes} {point : Bytes × Bytes} {curve : Curve} (h : PlainBlob blob)
    (hlength : blob.length < 4294967296) (hfield : readText blob = .ok field)
    (htype : (literal (ascii "ecdsa-sha2-") field.1).isSome = true)
    (hident : readText field.2 = .ok ident) (hpoint : readString ident.2 = .ok point)
    (hcurve : curveByIdent ident.1 = .ok curve) :
    blob = sshText curve.type.text ++ (sshText curve.ident ++ sshString point.1) := by
  cases h with
  | ed25519 pub =>
    rw [readText_type] at hfield
    cases hfield
    cases htype
  | ec curve' point' =>
    rw [readText_type] at hfield
    cases hfield
    rw [readText_ident] at hident
    cases hident
    have hpub : point'.length < 4294967296 := by
      rw [List.length_append, List.length_append, length_sshString] at hlength
      omega
    rw [readString_whole hpub] at hpoint
    cases hpoint
    have hsame : curveByIdent curve'.ident = .ok curve' := by cases curve' <;> decide
    cases hsame.symm.trans hcurve
    rfl
  | rsa e n =>
    rw [readText_type] at hfield
    cases hfield
    cases htype

theorem plain_rsa {e n : Bytes × Bytes} (h : PlainBlob blob) (hlength : blob.length < 4294967296)
    (hfield : readText blob = .ok field)
    (hother : field.1 ≠ VaultEntryType.ed25519.text)
    (htype : ¬ (literal (ascii "ecdsa-sha2-") field.1).isSome = true)
    (he : readString field.2 = .ok e) (hn : readString e.2 = .ok n) : blob = rsaBlob e.1 n.1 := by
  cases h with
  | ed25519 pub =>
    rw [readText_type] at hfield
    cases hfield
    exact absurd rfl hother
  | ec curve point =>
    rw [readText_type] at hfield
    cases hfield
    exact absurd (curve_type_ecdsa curve) htype
  | rsa e' n' he' hn' =>
    rw [readText_type] at hfield
    cases hfield
    rw [List.length_append, List.length_append, length_sshString, length_sshString] at hlength
    rw [readString_sshString (by omega)] at he
    cases he
    rw [readString_whole (by omega)] at hn
    cases hn
    unfold rsaBlob
    rw [sshMpint_of_isMinimal he', sshMpint_of_isMinimal hn']

end

/-- A private section that was checked, and the public blob of its private half. -/
theorem section_half {section' blob : Bytes} (h : checkOpenSshSection P section' blob = .ok ())
    (hlength : blob.length < 4294967296) :
    ∃ half, sectionHalf section' = .ok half ∧ (PlainBlob blob → canonicalBlob P half = .ok blob) := by
  obtain ⟨check1, hcheck1, h⟩ := bind_eq_ok.mp h
  obtain ⟨check2, hcheck2, h⟩ := bind_eq_ok.mp h
  split at h
  · cases h
  obtain ⟨type, htype, h⟩ := bind_eq_ok.mp h
  obtain ⟨pubType, hpubType, h⟩ := bind_eq_ok.mp h
  split at h
  · cases h
  next htypes =>
  have hsame : pubType.1 = type.1 := (not_not.mp htypes).symm
  unfold sectionHalf
  rw [hcheck1, ok_bind, hcheck2, ok_bind, htype, ok_bind]
  split at h
  · next hed =>
    obtain ⟨blobKey, key, priv, hblobKey, hkey, hpriv, hseed, hderived⟩ := checkEd25519_half h
    rw [if_pos hed, hkey, ok_bind, hpriv, ok_bind]
    refine ⟨.ed25519 (priv.1.take 32), rfl, fun hplain => ?_⟩
    have hpoint := P.ed25519_length _ hseed
    unfold canonicalBlob ed25519Blob
    dsimp only
    rw [if_neg (not_not.mpr hpoint), hderived,
      ← plain_ed25519 hplain hlength hpubType (hsame.trans hed) hblobKey]
  next hed =>
  rw [if_neg hed]
  split at h
  · next hec =>
    obtain ⟨blobIdent, blobPoint, ident, point, d, curve, hblobIdent, hblobPoint, hident, hpoint, hd,
      hidents, hcurve, hderived⟩ := checkEc_half h
    rw [if_pos hec, hident, ok_bind, hpoint, ok_bind, hd, ok_bind, hcurve, ok_bind]
    refine ⟨.ec curve (bigUnsigned d.1), rfl, fun hplain => ?_⟩
    rw [← hsame] at hec
    rw [hidents] at hcurve
    unfold canonicalBlob ecBlob
    dsimp only
    rw [ecPointFromPrivate_natBytes, hderived, ok_bind, if_neg (not_not.mpr (ecPoint_head hderived)),
      ← plain_ec hplain hlength hpubType hec hblobIdent hblobPoint hcurve]
  next hec =>
  rw [if_neg hec]
  split at h
  · obtain ⟨blobE, blobN, n, e, d, iqmp, p, q, hblobE, hblobN, hn, he, hd, hiqmp, hp, hq, hexponent,
      hmodulus⟩ := checkOpenSshRsa_half h
    rw [hn, ok_bind, he, ok_bind, hd, ok_bind, hiqmp, ok_bind, hp, ok_bind, hq, ok_bind]
    refine ⟨.rsa (bigUnsigned e.1) (bigUnsigned d.1) (bigUnsigned p.1) (bigUnsigned q.1), rfl,
      fun hplain => ?_⟩
    rw [← hsame] at hed hec
    unfold canonicalBlob
    dsimp only
    rw [hexponent, hmodulus, plain_rsa hplain hlength hpubType hed hec hblobE hblobN]
    unfold rsaBlob
    rw [sshMpint_natBytes, sshMpint_natBytes]
  · cases h

/-! ## A key that was prepared -/

section

variable {pem : Pem} {passphrase : Text} {key : PreparedSshKey} {format : SshKeyFormat}

theorem prepared_info (h : Prepared P check pem passphrase key) :
    sshPublicKeyInfo P key.publicKeyBlob = .ok key.toSshPublicKeyInfo := by
  have hsame : ∀ {blob info}, sshPublicKeyInfo P blob = .ok info →
      sshPublicKeyInfo P info.publicKeyBlob = .ok info := by
    intro blob info hinfo
    obtain ⟨_, -, -, heq⟩ := sshPublicKeyInfo_ok hinfo
    rw [heq, hinfo]
  cases h with
  | openSsh _ _ hinfo | encrypted _ _ hinfo | legacy _ _ _ _ _ hinfo | plain _ _ _ _ hinfo =>
    exact hsame hinfo

theorem pemHalf_der (hlabel : PEM_FORMATS.lookup pem.label = some format) (hne : format ≠ .openssh) :
    pemHalf P passphrase pem =
      if (pem.header (ascii "Proc-Type")).isSome then do
        let der ← decryptLegacyPem P pem passphrase
        derHalf format der
      else derHalf format pem.body := by
  unfold pemHalf
  rw [hlabel]
  cases format with
  | openssh => exact absurd rfl hne
  | pkcs1 => rfl
  | sec1 => rfl
  | pkcs8 => rfl

variable {container : OpenSshContainer}

theorem pemHalf_openSsh (hlabel : PEM_FORMATS.lookup pem.label = some .openssh)
    (hcontainer : parseOpenSsh pem.body = .ok container) :
    pemHalf P passphrase pem = openSshHalf P passphrase container := by
  unfold pemHalf
  rw [hlabel]
  dsimp only
  rw [hcontainer]
  rfl

/-- The private half of a file that was prepared, and its public blob. -/
theorem prepared_half (h : Prepared P check pem passphrase key) :
    ∃ half, pemHalf P passphrase pem = .ok half ∧
      ((∀ container, pem.label = OPENSSH_LABEL → parseOpenSsh pem.body = .ok container →
        PlainBlob container.publicBlob) → canonicalBlob P half = .ok key.publicKeyBlob) := by
  cases h with
  | @openSsh container info hlabel hcontainer hinfo hcipher hkdf hcheck =>
    obtain ⟨half, hhalf, hcanonical⟩ := section_half hcheck (parseOpenSsh_blob_lt hcontainer)
    refine ⟨half, ?_, fun hplain => ?_⟩
    · rw [pemHalf_openSsh hlabel hcontainer]
      unfold openSshHalf
      rw [if_pos hcipher, hhalf]
    · obtain ⟨_, -, -, heq⟩ := sshPublicKeyInfo_ok hinfo
      rw [hcanonical (hplain container (openssh_label hlabel) hcontainer), heq]
  | @encrypted container info section' hlabel hcontainer hinfo hcipher hsection hcheck =>
    obtain ⟨half, hhalf, hcanonical⟩ := section_half hcheck (parseOpenSsh_blob_lt hcontainer)
    refine ⟨half, ?_, fun hplain => ?_⟩
    · rw [pemHalf_openSsh hlabel hcontainer]
      unfold openSshHalf
      rw [if_neg hcipher, hsection, ok_bind, hhalf]
    · obtain ⟨_, -, -, heq⟩ := sshPublicKeyInfo_ok hinfo
      rw [hcanonical (hplain container (openssh_label hlabel) hcontainer), heq]
  | @legacy format proc der blob info hlabel hne hproc hder hblob hinfo =>
    obtain ⟨half, hhalf, hcanonical⟩ := derBlob_half hblob
    obtain ⟨_, -, -, heq⟩ := sshPublicKeyInfo_ok hinfo
    refine ⟨half, ?_, fun _ => ?_⟩
    · rw [pemHalf_der hlabel hne, if_pos (Option.isSome_iff_exists.mpr ⟨proc, hproc⟩), hder, ok_bind,
        hhalf]
    · rw [hcanonical, heq]
  | @plain format blob info stored hlabel hne hnone hblob hinfo hstored =>
    obtain ⟨half, hhalf, hcanonical⟩ := derBlob_half hblob
    obtain ⟨_, -, -, heq⟩ := sshPublicKeyInfo_ok hinfo
    refine ⟨half, ?_, fun _ => ?_⟩
    · rw [pemHalf_der hlabel hne, hnone, if_neg (by decide), hhalf]
    · rw [hcanonical, heq]

/-- An OpenSSH file gives its own blob. -/
theorem prepared_own (h : Prepared P check pem passphrase key)
    (hlabel : pem.label = OPENSSH_LABEL) (hcontainer : parseOpenSsh pem.body = .ok container) :
    key.publicKeyBlob = container.publicBlob := by
  have hlookup : PEM_FORMATS.lookup pem.label = some .openssh := by
    rw [hlabel]
    rfl
  cases h with
  | openSsh _ hother hinfo =>
    cases hcontainer.symm.trans hother
    obtain ⟨_, -, -, heq⟩ := sshPublicKeyInfo_ok hinfo
    exact heq
  | encrypted _ hother hinfo =>
    cases hcontainer.symm.trans hother
    obtain ⟨_, -, -, heq⟩ := sshPublicKeyInfo_ok hinfo
    exact heq
  | legacy hformat hne => exact absurd (Option.some.inj (hformat.symm.trans hlookup)) hne
  | plain hformat hne => exact absurd (Option.some.inj (hformat.symm.trans hlookup)) hne

end

/-- What names a key in the vault. -/
structure SameIdentity (key other : PreparedSshKey) : Prop where
  publicKeyBlob : other.publicKeyBlob = key.publicKeyBlob
  fingerprint : other.fingerprint = key.fingerprint
  keyId : other.keyId = key.keyId

theorem canonical_iff {text : Text} {keyPassphrase : Option Text} {key : PreparedSshKey}
    (h : prepareSshPrivateKey P check text keyPassphrase = some (.ok key)) :
    ∃ half, fileHalf P (keyPassphrase.getD []) text = .ok half ∧
      (canonicalBlob P half = .ok key.publicKeyBlob ↔ PlainFile text) := by
  obtain ⟨pem, hpem, hprepared⟩ := prepareSshPrivateKey_ok h
  obtain ⟨half, hhalf, hcanonical⟩ := prepared_half hprepared
  refine ⟨half, ?_, fun hblob other container hother hlabel hcontainer => ?_, fun hplain => ?_⟩
  · unfold fileHalf
    rw [hpem, ok_bind, hhalf]
  · cases hpem.symm.trans hother
    rw [← prepared_own hprepared hlabel hcontainer]
    exact canonicalBlob_plain hblob
  · exact hcanonical fun container => hplain pem container hpem

/-- The public key blob of a key is the one of its private half unless it is that of an OpenSSH file
which writes it otherwise; else files of one public key have one blob, fingerprint and id. -/
theorem publicKeyBlob_canonical {text : Text} {keyPassphrase : Option Text} {key : PreparedSshKey}
    (h : prepareSshPrivateKey P check text keyPassphrase = some (.ok key)) :
    (∃ half, fileHalf P (keyPassphrase.getD []) text = .ok half ∧
      (canonicalBlob P half = .ok key.publicKeyBlob ↔ PlainFile text)) ∧
    ∀ (check' : Check) (text' : Text) (keyPassphrase' : Option Text) (key' : PreparedSshKey)
      (half half' : PrivateHalf),
      prepareSshPrivateKey P check' text' keyPassphrase' = some (.ok key') →
      fileHalf P (keyPassphrase.getD []) text = .ok half →
      fileHalf P (keyPassphrase'.getD []) text' = .ok half' →
      canonicalBlob P half = canonicalBlob P half' → PlainFile text → PlainFile text' →
      SameIdentity key key' := by
  refine ⟨canonical_iff h, fun check' text' keyPassphrase' key' half half' h' hhalf hhalf' hpublic
    hplain hplain' => ?_⟩
  obtain ⟨own, hown, hcanonical⟩ := canonical_iff h
  obtain ⟨own', hown', hcanonical'⟩ := canonical_iff h'
  cases hhalf.symm.trans hown
  cases hhalf'.symm.trans hown'
  have hblob : key'.publicKeyBlob = key.publicKeyBlob := by
    have heq := (hcanonical.mpr hplain).symm.trans (hpublic.trans (hcanonical'.mpr hplain'))
    exact (Except.ok.inj heq).symm
  obtain ⟨pem, -, hprepared⟩ := prepareSshPrivateKey_ok h
  obtain ⟨pem', -, hprepared'⟩ := prepareSshPrivateKey_ok h'
  have hinfo := prepared_info hprepared'
  rw [hblob, prepared_info hprepared] at hinfo
  have hsame := Except.ok.inj hinfo
  exact ⟨hblob, congrArg SshPublicKeyInfo.fingerprint hsame.symm,
    congrArg SshPublicKeyInfo.keyId hsame.symm⟩

/-! ## A small RSA key -/

/-- `n = 33`, `e = 3`, `d = 7`, `p = 3`, `q = 11` as PKCS#1. -/
def rsaDer : Bytes :=
  [0x30, 0x1b, 0x02, 0x01, 0x00, 0x02, 0x01, 0x21, 0x02, 0x01, 0x03, 0x02, 0x01, 0x07, 0x02, 0x01,
    0x03, 0x02, 0x01, 0x0b, 0x02, 0x01, 0x01, 0x02, 0x01, 0x07, 0x02, 0x01, 0x02]

/-- The same numbers as a private section. -/
def rsaSection : Bytes :=
  [1, 2, 3, 4, 1, 2, 3, 4] ++ (sshText (ascii "ssh-rsa") ++ (sshString [33] ++ (sshString [3] ++
    (sshString [7] ++ (sshString [2] ++ (sshString [3] ++ (sshString [11] ++
    (sshString [] ++ [1, 2, 3]))))))))

/-- The public blob with these bytes for the exponent. -/
def rsaPublic (exponent : Bytes) : Bytes :=
  sshText (ascii "ssh-rsa") ++ (sshString exponent ++ sshString [33])

def rsaDigests : List (Bytes × Bytes) :=
  [(rsaPublic [3],
      [0x8a, 0xab, 0x78, 0x7b, 0x05, 0xfb, 0x91, 0x2e, 0xe2, 0x48, 0x43, 0x42, 0xb6, 0xea, 0xf5, 0x80,
        0x06, 0xc4, 0x1b, 0xaa, 0xf8, 0xc6, 0x26, 0x1d, 0xa8, 0xd7, 0xd3, 0x90, 0xd4, 0x3d, 0x5d, 0xf9]),
    (rsaPublic [0, 3],
      [0x43, 0x9e, 0xe9, 0x3c, 0x9c, 0xd8, 0xe7, 0x37, 0x1e, 0x57, 0x28, 0xfe, 0x75, 0x6c, 0xc7, 0x3d,
        0xa7, 0xba, 0x04, 0xf6, 0x5a, 0x90, 0xb2, 0xf1, 0x17, 0xf0, 0xd9, 0xb9, 0x8f, 0x2d, 0x03, 0x54])]

/-- The digests of these blobs; nothing else is asked for. -/
def rsaPrimitives : Primitives where
  sha256 data := (rsaDigests.lookup data).getD []
  ed25519PublicFromSeed _ := List.replicate 32 0
  ed25519_length _ _ := rfl
  ecJwk _ _ := none
  bcrypt _ _ _ _ := []
  md5 _ := []
  aesCtrDecrypt _ _ _ := none
  aesCbcEncrypt _ _ _ := none
  aesCbcDecrypt _ _ _ := none
  aesGcmDecrypt _ _ _ := none

def rsaDrawn : Check := ⟨[5, 6, 7, 8], rfl⟩

def rsaFile : Text := emitPem (ascii "RSA PRIVATE KEY") rsaDer

def rsaOpenSsh (exponent : Bytes) : Text := buildUnencryptedOpenSsh (rsaPublic exponent) rsaSection

def rsaInfo : SshPublicKeyInfo :=
  ⟨.rsa, rsaPublic [3], ascii "ssh-rsa AAAAB3NzaC1yc2EAAAABAwAAAAEh",
    ascii "SHA256:iqt4ewX7kS7iSENCtur1gAbEG6r4xiYdqNfTkNQ9Xfk", ascii "iqt4ewX7kS7iSENCtur1gA"⟩

def paddedInfo : SshPublicKeyInfo :=
  ⟨.rsa, rsaPublic [0, 3], ascii "ssh-rsa AAAAB3NzaC1yc2EAAAACAAMAAAABIQ==",
    ascii "SHA256:Q57pPJzY5zceVyj+dWzHPae6BPZakLLxF/DZuY8tA1Q", ascii "Q57pPJzY5zceVyj-dWzHPQ"⟩

theorem rsaFile_prepared : prepareSshPrivateKey rsaPrimitives rsaDrawn rsaFile none =
    some (.ok ⟨rsaInfo, .pkcs1, rsaFile, false⟩) := by
  rw [rsaInfo, rsaFile]
  repeat rw [Js.ascii_ofList]
  decide

theorem rsaOpenSsh_prepared : prepareSshPrivateKey rsaPrimitives rsaDrawn (rsaOpenSsh [3]) none =
    some (.ok ⟨rsaInfo, .openssh, rsaOpenSsh [3], false⟩) := by
  rw [rsaInfo]
  repeat rw [Js.ascii_ofList]
  decide +kernel

theorem paddedOpenSsh_prepared : prepareSshPrivateKey rsaPrimitives rsaDrawn (rsaOpenSsh [0, 3]) none =
    some (.ok ⟨paddedInfo, .openssh, rsaOpenSsh [0, 3], false⟩) := by
  rw [paddedInfo]
  repeat rw [Js.ascii_ofList]
  decide +kernel

theorem rsaFile_half : fileHalf rsaPrimitives [] rsaFile = .ok (.rsa 3 7 3 11) := by
  rw [rsaFile, Js.ascii_ofList]
  decide

theorem publicKeyBlob_canonical_rsa : SameIdentity ⟨rsaInfo, .pkcs1, rsaFile, false⟩
    ⟨rsaInfo, .openssh, rsaOpenSsh [3], false⟩ := by
  have hother : fileHalf rsaPrimitives [] (rsaOpenSsh [3]) = .ok (.rsa 3 7 3 11) := by decide +kernel
  have hplain : PlainFile rsaFile := by
    intro pem container hpem hlabel
    have hparsed : parsePem rsaFile = .ok ⟨ascii "RSA PRIVATE KEY", [], rsaDer⟩ := by
      rw [rsaFile, Js.ascii_ofList]
      decide +kernel
    cases hparsed.symm.trans hpem
    exact absurd hlabel (by decide)
  have hplain' : PlainFile (rsaOpenSsh [3]) := by
    intro pem container hpem _ hcontainer
    have hparsed : parsePem (rsaOpenSsh [3]) =
        .ok ⟨OPENSSH_LABEL, [], openSshBody (rsaPublic [3]) rsaSection⟩ := by decide +kernel
    cases hparsed.symm.trans hpem
    have hbody : parseOpenSsh (openSshBody (rsaPublic [3]) rsaSection) =
        .ok ⟨ascii "none", ascii "none", [], rsaPublic [3], rsaSection, []⟩ :=
      parseOpenSsh_body (by decide) (by decide)
    cases hbody.symm.trans hcontainer
    exact .rsa [3] [33] rfl rfl
  exact (publicKeyBlob_canonical rsaFile_prepared).2 rsaDrawn (rsaOpenSsh [3]) none _ _ _
    rsaOpenSsh_prepared rsaFile_half hother rfl hplain hplain'

/-- With a zero before the exponent of its public blob the key has another id. -/
theorem padded_blob :
    prepareSshPrivateKey rsaPrimitives rsaDrawn rsaFile none =
        some (.ok ⟨rsaInfo, .pkcs1, rsaFile, false⟩) ∧
      prepareSshPrivateKey rsaPrimitives rsaDrawn (rsaOpenSsh [0, 3]) none =
        some (.ok ⟨paddedInfo, .openssh, rsaOpenSsh [0, 3], false⟩) ∧
      fileHalf rsaPrimitives [] rsaFile = fileHalf rsaPrimitives [] (rsaOpenSsh [0, 3]) ∧
      rsaInfo.publicKeyBlob ≠ paddedInfo.publicKeyBlob ∧
      rsaInfo.fingerprint ≠ paddedInfo.fingerprint ∧ rsaInfo.keyId ≠ paddedInfo.keyId := by
  have hhalf : fileHalf rsaPrimitives [] (rsaOpenSsh [0, 3]) = .ok (.rsa 3 7 3 11) := by decide +kernel
  refine ⟨rsaFile_prepared, paddedOpenSsh_prepared, rsaFile_half.trans hhalf.symm, ?_⟩
  rw [rsaInfo, paddedInfo]
  repeat rw [Js.ascii_ofList]
  decide +kernel

end PocketShell.SshKeys
