import PocketShell.SshKeys.Prepared

/-!
# The private half of a key

What a key file holds, whatever its container, and the public key blob that belongs to it.

* `derBlob_half`: the blob that is made of a DER file is that of its private half.
-/

namespace PocketShell.SshKeys

open Js (Text Bytes ascii byte utf8)
open KeyVault (VaultEntryType)

variable {P : Primitives}

/-! ## Unsigned integers -/

/-- The bytes of an unsigned integer, without a leading zero. -/
def natBytes (n : Nat) : Bytes := (Nat.digits 256 n).reverse.map byte

def minimalBytes (bytes : Bytes) : Bytes := bytes.dropWhile (· = 0)

theorem bigUnsigned_minimal (bytes : Bytes) : bigUnsigned (minimalBytes bytes) = bigUnsigned bytes := by
  induction bytes with
  | nil => rfl
  | cons b bytes ih =>
    unfold minimalBytes at ih ⊢
    by_cases hb : b = 0
    · subst hb
      exact ih
    · rw [List.dropWhile_cons_of_neg (by simpa using hb)]

theorem bigUnsigned_digits (bytes : Bytes) :
    bigUnsigned bytes = Nat.ofDigits 256 (bytes.reverse.map UInt8.toNat) := by
  unfold bigUnsigned
  rw [← List.reverse_reverse bytes, List.foldl_reverse, List.reverse_reverse]
  generalize bytes.reverse = digits
  induction digits with
  | nil => rfl
  | cons b digits ih =>
    rw [List.foldr_cons, ih, List.map_cons, Nat.ofDigits_cons]
    ring

theorem natBytes_bigUnsigned (bytes : Bytes) : natBytes (bigUnsigned bytes) = minimalBytes bytes := by
  have hlast : ∀ h : (minimalBytes bytes).reverse.map UInt8.toNat ≠ [],
      ((minimalBytes bytes).reverse.map UInt8.toNat).getLast h ≠ 0 := by
    intro h
    have hne : minimalBytes bytes ≠ [] := by
      rintro hnil
      rw [hnil] at h
      exact h rfl
    rw [List.getLast_map, List.getLast_reverse]
    have hhead := List.head_dropWhile_not (fun b : UInt8 => decide (b = 0)) hne
    exact fun hzero => of_decide_eq_false hhead (UInt8.toNat_inj.mp hzero)
  rw [← bigUnsigned_minimal, bigUnsigned_digits]
  unfold natBytes
  rw [Nat.digits_ofDigits 256 (by decide) _ _ hlast]
  · rw [← List.map_reverse, List.reverse_reverse, List.map_map]
    refine (List.map_congr_left fun b _ => ?_).trans (List.map_id _)
    exact Js.byte_toNat rfl
  · intro digit hdigit
    obtain ⟨b, -, rfl⟩ := List.mem_map.mp hdigit
    exact b.toNat_lt

theorem minimal_idem (bytes : Bytes) : minimalBytes (minimalBytes bytes) = minimalBytes bytes :=
  List.dropWhile_idempotent _ bytes

theorem natBytes_minimal (bytes : Bytes) : minimalBytes (natBytes (bigUnsigned bytes)) = minimalBytes bytes := by
  rw [natBytes_bigUnsigned, minimal_idem]

/-- An mpint is of the integer alone. -/
theorem sshMpint_natBytes (bytes : Bytes) : sshMpint (natBytes (bigUnsigned bytes)) = sshMpint bytes := by
  have h := natBytes_minimal bytes
  unfold minimalBytes at h
  unfold sshMpint
  rw [h]

theorem stripZeros_minimal (bytes : Bytes) : stripZeros bytes = minimalBytes bytes ∨
    minimalBytes bytes = [] ∧ stripZeros bytes = [0] := by
  induction bytes with
  | nil => exact .inl rfl
  | cons b bytes ih =>
    unfold minimalBytes at ih ⊢
    by_cases hb : b = 0
    · subst hb
      cases bytes with
      | nil => exact .inr ⟨rfl, rfl⟩
      | cons c bytes => exact ih
    · rw [List.dropWhile_cons_of_neg (by simpa using hb)]
      cases bytes with
      | nil => exact .inl rfl
      | cons c bytes =>
        rw [stripZeros, if_neg hb]
        exact .inl rfl

theorem stripZeros_of_minimal (bytes : Bytes) : stripZeros (minimalBytes bytes) = minimalBytes bytes := by
  rcases stripZeros_minimal (minimalBytes bytes) with h | ⟨hnil, h⟩
  · rw [h, minimal_idem]
  · rw [minimal_idem] at hnil
    rw [hnil] at h
    cases h

/-- A scalar is of the integer alone, zero as well. -/
theorem ecPointFromPrivate_natBytes (curve : Curve) (d : Bytes) :
    ecPointFromPrivate P curve (natBytes (bigUnsigned d)) = ecPointFromPrivate P curve d := by
  unfold ecPointFromPrivate
  rw [natBytes_bigUnsigned, stripZeros_of_minimal]
  rcases stripZeros_minimal d with h | ⟨hnil, hzero⟩
  · rw [h]
  · rw [hnil, hzero]
    cases curve <;> rfl

/-! ## What a file holds -/

inductive PrivateHalf
  | ed25519 (seed : Bytes)
  | ec (curve : Curve) (scalar : Nat)
  | rsa (e d p q : Nat)
deriving DecidableEq

def PrivateHalf.type : PrivateHalf → VaultEntryType
  | .ed25519 _ => .ed25519
  | .ec curve _ => curve.type
  | .rsa .. => .rsa

def pkcs1Half (der : Bytes) : Outcome PrivateHalf := do
  let root ← derRoot der 0x30
  let items ← derChildren root
  let e ← need items[2]? 0x02
  let d ← need items[3]? 0x02
  let p ← need items[4]? 0x02
  let q ← need items[5]? 0x02
  return .rsa (bigUnsigned e.content) (bigUnsigned d.content) (bigUnsigned p.content)
    (bigUnsigned q.content)

def sec1Half (der : Bytes) (outerCurve : Option (List Nat)) : Outcome PrivateHalf := do
  let root ← derRoot der 0x30
  let items ← derChildren root
  let d ← need items[1]? 0x04
  let fields ← sec1Fields outerCurve none (items.drop 2)
  let curve ← curveOf (fields.1.getD [])
  return .ec curve (bigUnsigned d.content)

def pkcs8Half (der : Bytes) : Outcome PrivateHalf := do
  let root ← derRoot der 0x30
  let items ← derChildren root
  let algorithm ← need items[1]? 0x30
  let alg ← derChildren algorithm
  let oid ← derOid alg[0]?
  let inner ← need items[2]? 0x04
  if oid = OID_RSA then pkcs1Half inner.content
  else if oid = OID_EC then do
    let curve ← optionalOid alg[1]?
    sec1Half inner.content curve
  else if oid = OID_ED25519 then do
    let seed ← ed25519Seed inner.content
    return .ed25519 seed
  else unsupported (ascii "unsupported PKCS#8 key algorithm " ++ oidText oid)

def derHalf (format : SshKeyFormat) (der : Bytes) : Outcome PrivateHalf :=
  match format with
  | .pkcs1 => pkcs1Half der
  | .sec1 => sec1Half der none
  | _ => pkcs8Half der

/-! ## Its public key -/

variable (P) in
/-- The public key blob that belongs to a private half. -/
def canonicalBlob : PrivateHalf → Outcome Bytes
  | .ed25519 seed => ed25519Blob (P.ed25519PublicFromSeed seed)
  | .ec curve scalar => do
    let point ← ecPointFromPrivate P curve (natBytes scalar)
    ecBlob curve point
  | .rsa e _ p q => .ok (rsaBlob (natBytes e) (natBytes (p * q)))

theorem checkRsa_ok {n e d p q : Bytes} (h : checkRsa n e d p q = .ok ()) :
    bigUnsigned n = bigUnsigned p * bigUnsigned q := by
  unfold checkRsa at h
  dsimp only at h
  split at h
  · cases h
  · next hnot =>
    by_contra hne
    exact hnot (.inr (.inr hne))

/-- The blob of an RSA key whose numbers belong together. -/
theorem rsaBlob_half {n e d p q : Bytes} (h : checkRsa n e d p q = .ok ()) :
    rsaBlob (natBytes (bigUnsigned e)) (natBytes (bigUnsigned p * bigUnsigned q)) = rsaBlob e n := by
  unfold rsaBlob
  rw [← checkRsa_ok h, sshMpint_natBytes, sshMpint_natBytes]

section

variable {der blob : Bytes} {format : SshKeyFormat}

theorem pkcs1Blob_half (h : pkcs1Blob der = .ok blob) :
    ∃ half, pkcs1Half der = .ok half ∧ canonicalBlob P half = .ok blob := by
  obtain ⟨root, hroot, h⟩ := bind_eq_ok.mp h
  obtain ⟨items, hitems, h⟩ := bind_eq_ok.mp h
  split at h
  · cases h
  obtain ⟨n, hn, h⟩ := bind_eq_ok.mp h
  obtain ⟨e, he, h⟩ := bind_eq_ok.mp h
  obtain ⟨d, hd, h⟩ := bind_eq_ok.mp h
  obtain ⟨p, hp, h⟩ := bind_eq_ok.mp h
  obtain ⟨q, hq, h⟩ := bind_eq_ok.mp h
  obtain ⟨_, hcheck, h⟩ := bind_eq_ok.mp h
  cases h
  refine ⟨.rsa (bigUnsigned e.content) (bigUnsigned d.content) (bigUnsigned p.content)
    (bigUnsigned q.content), ?_, congrArg Except.ok (rsaBlob_half hcheck)⟩
  unfold pkcs1Half
  rw [hroot, ok_bind, hitems, ok_bind, he, ok_bind, hd, ok_bind, hp, ok_bind, hq]
  rfl

theorem sec1Blob_half {outerCurve : Option (List Nat)} (h : sec1Blob P der outerCurve = .ok blob) :
    ∃ half, sec1Half der outerCurve = .ok half ∧ canonicalBlob P half = .ok blob := by
  obtain ⟨root, hroot, h⟩ := bind_eq_ok.mp h
  obtain ⟨items, hitems, h⟩ := bind_eq_ok.mp h
  obtain ⟨d, hd, h⟩ := bind_eq_ok.mp h
  obtain ⟨fields, hfields, h⟩ := bind_eq_ok.mp h
  split at h
  · cases h
  · next oid hoid =>
    obtain ⟨curve, hcurve, h⟩ := bind_eq_ok.mp h
    obtain ⟨derived, hderived, h⟩ := bind_eq_ok.mp h
    split at h
    · cases h
    · refine ⟨.ec curve (bigUnsigned d.content), ?_, ?_⟩
      · unfold sec1Half
        rw [hroot, ok_bind, hitems, ok_bind, hd, ok_bind, hfields, ok_bind, hoid, Option.getD_some,
          hcurve]
        rfl
      · unfold canonicalBlob
        dsimp only
        rw [ecPointFromPrivate_natBytes, hderived, ok_bind, h]

theorem pkcs8Blob_half (h : pkcs8Blob P der = .ok blob) :
    ∃ half, pkcs8Half der = .ok half ∧ canonicalBlob P half = .ok blob := by
  obtain ⟨root, hroot, h⟩ := bind_eq_ok.mp h
  obtain ⟨items, hitems, h⟩ := bind_eq_ok.mp h
  obtain ⟨algorithm, halgorithm, h⟩ := bind_eq_ok.mp h
  obtain ⟨alg, halg, h⟩ := bind_eq_ok.mp h
  obtain ⟨oid, hoid, h⟩ := bind_eq_ok.mp h
  obtain ⟨inner, hinner, h⟩ := bind_eq_ok.mp h
  unfold pkcs8Half
  rw [hroot, ok_bind, hitems, ok_bind, halgorithm, ok_bind, halg, ok_bind, hoid, ok_bind, hinner,
    ok_bind]
  split at h
  · next hrsa =>
    rw [if_pos hrsa]
    exact pkcs1Blob_half h
  next hrsa =>
  rw [if_neg hrsa]
  split at h
  · next hec =>
    obtain ⟨curve, hcurve, h⟩ := bind_eq_ok.mp h
    rw [if_pos hec, hcurve, ok_bind]
    exact sec1Blob_half h
  next hec =>
  rw [if_neg hec]
  split at h
  · next hed =>
    obtain ⟨seed, hseed, h⟩ := bind_eq_ok.mp h
    obtain ⟨_, -, h⟩ := bind_eq_ok.mp h
    rw [if_pos hed, hseed, ok_bind]
    exact ⟨.ed25519 seed, rfl, h⟩
  · cases h

/-- The blob that is made of a DER file is that of its private half. -/
theorem derBlob_half (h : derBlob P format der = .ok blob) :
    ∃ half, derHalf format der = .ok half ∧ canonicalBlob P half = .ok blob := by
  cases format with
  | openssh => exact pkcs8Blob_half h
  | pkcs1 => exact pkcs1Blob_half h
  | sec1 => exact sec1Blob_half h
  | pkcs8 => exact pkcs8Blob_half h

end

/-! ## Its type -/

section

variable {half : PrivateHalf} {blob der seed : Bytes} {info : SshPublicKeyInfo} {format : SshKeyFormat}

theorem type_mem (half : PrivateHalf) : half.type ∈ VAULT_SSH_KEY_TYPES := by
  cases half with
  | ed25519 seed => exact .head _
  | ec curve scalar =>
    show curve.type ∈ VAULT_SSH_KEY_TYPES
    cases curve <;> decide
  | rsa e d p q =>
    show VaultEntryType.rsa ∈ VAULT_SSH_KEY_TYPES
    decide

theorem canonicalBlob_type (h : canonicalBlob P half = .ok blob) :
    ∃ rest, blob = sshText half.type.text ++ rest := by
  cases half with
  | ed25519 seed =>
    unfold canonicalBlob ed25519Blob at h
    dsimp only at h
    split at h
    · cases h
    · exact ⟨_, (Except.ok.inj h).symm⟩
  | ec curve scalar =>
    obtain ⟨point, -, h⟩ := bind_eq_ok.mp h
    unfold ecBlob at h
    split at h
    · cases h
    · exact ⟨_, (Except.ok.inj h).symm⟩
  | rsa e d p q => exact ⟨_, (Except.ok.inj h).symm⟩

theorem canonicalBlob_info (h : canonicalBlob P half = .ok blob)
    (hinfo : sshPublicKeyInfo P blob = .ok info) : info.type = half.type := by
  obtain ⟨rest, rfl⟩ := canonicalBlob_type h
  exact info_type hinfo (type_mem half)

theorem type_ed25519 (h : half.type = .ed25519) : ∃ seed, half = .ed25519 seed := by
  cases half with
  | ed25519 seed => exact ⟨seed, rfl⟩
  | ec curve scalar => cases curve <;> cases h
  | rsa e d p q => cases h

theorem pkcs1Half_ne (h : pkcs1Half der = .ok (.ed25519 seed)) : False := by
  obtain ⟨_, -, h⟩ := bind_eq_ok.mp h
  obtain ⟨_, -, h⟩ := bind_eq_ok.mp h
  obtain ⟨_, -, h⟩ := bind_eq_ok.mp h
  obtain ⟨_, -, h⟩ := bind_eq_ok.mp h
  obtain ⟨_, -, h⟩ := bind_eq_ok.mp h
  obtain ⟨_, -, h⟩ := bind_eq_ok.mp h
  cases h

theorem sec1Half_ne {outerCurve : Option (List Nat)}
    (h : sec1Half der outerCurve = .ok (.ed25519 seed)) : False := by
  obtain ⟨_, -, h⟩ := bind_eq_ok.mp h
  obtain ⟨_, -, h⟩ := bind_eq_ok.mp h
  obtain ⟨_, -, h⟩ := bind_eq_ok.mp h
  obtain ⟨_, -, h⟩ := bind_eq_ok.mp h
  obtain ⟨_, -, h⟩ := bind_eq_ok.mp h
  cases h

/-- Where a PKCS#8 file holds its seed. -/
theorem pkcs8Half_ed25519 (h : pkcs8Half der = .ok (.ed25519 seed)) :
    ∃ root items inner, derRoot der 0x30 = .ok root ∧ derChildren root = .ok items ∧
      need items[2]? 0x04 = .ok inner ∧ ed25519Seed inner.content = .ok seed := by
  obtain ⟨root, hroot, h⟩ := bind_eq_ok.mp h
  obtain ⟨items, hitems, h⟩ := bind_eq_ok.mp h
  obtain ⟨_, -, h⟩ := bind_eq_ok.mp h
  obtain ⟨_, -, h⟩ := bind_eq_ok.mp h
  obtain ⟨_, -, h⟩ := bind_eq_ok.mp h
  obtain ⟨inner, hinner, h⟩ := bind_eq_ok.mp h
  split at h
  · exact (pkcs1Half_ne h).elim
  split at h
  · obtain ⟨_, -, h⟩ := bind_eq_ok.mp h
    exact (sec1Half_ne h).elim
  split at h
  · obtain ⟨found, hseed, h⟩ := bind_eq_ok.mp h
    cases h
    exact ⟨root, items, inner, hroot, hitems, hinner, hseed⟩
  · cases h

theorem derHalf_ed25519 (hne : format ≠ .openssh) (h : derHalf format der = .ok (.ed25519 seed)) :
    format = .pkcs8 := by
  cases format with
  | openssh => exact absurd rfl hne
  | pkcs1 => exact (pkcs1Half_ne h).elim
  | sec1 => exact (sec1Half_ne h).elim
  | pkcs8 => rfl

theorem ed25519Seed_length (h : ed25519Seed der = .ok seed) : seed.length = 32 := by
  obtain ⟨root, -, h⟩ := bind_eq_ok.mp h
  split at h
  · cases h
  · next hlength =>
    cases h
    exact not_not.mp hlength

end

end PocketShell.SshKeys
