import PocketShell.KeyVault.Format

/-!
# What is read of what is written

Everything that a parser returns is valid (`parseVaultHeader_valid` and its like), and a valid
header, key blob or index comes back from its text; so do the bytes of base64url
(`codecs_round_trip`).
-/

namespace PocketShell.KeyVault

open Js (Text Bytes Json JSON.parse JSON.stringify JsNumber JsInteger property keys ascii Dict ownOrder)

/-! ## Values -/

section

variable {N : Type} {members : List (Text × Json N)} {once : (keys members).Nodup} {s : Text}
  {value : Option (Json N)}

@[simp] theorem record_obj : record (some (Json.obj members once)) = some members := by
  simp [record]

@[simp] theorem string_str : string (some (Json.str s : Json N)) = some s := by simp [string]

@[simp] theorem array_arr {items : List (Json N)} : array (some (Json.arr items)) = some items := by
  simp [array]

theorem id16_str (h : isId16 s = true) : id16 (some (Json.str s : Json N)) = some s := by
  simp [id16, h]

/-- Whatever else is asked of a string, it is that string. -/
theorem filter_str_some {p : Text → Bool} {t : Text}
    (h : (string (some (Json.str s : Json N))).filter p = some t) : t = s := by
  rw [string_str] at h
  exact (Option.some.inj (Option.filter_eq_some_iff.mp h).1).symm

theorem id16_str_some {t : Text} (h : id16 (some (Json.str s : Json N)) = some t) : t = s :=
  filter_str_some h

theorem id16_some (h : id16 value = some s) : isId16 s = true := (Option.filter_eq_some_iff.mp h).2

theorem isoTime_str {dateParses : Text → Bool} (h : isIsoTime dateParses s = true) :
    isoTime dateParses (some (Json.str s : Json N)) = some s := by
  simp [isoTime, h]

theorem isoTime_some {dateParses : Text → Bool} (h : isoTime dateParses value = some s) :
    isIsoTime dateParses s = true := (Option.filter_eq_some_iff.mp h).2

/-- A property that stands in an object is the one that is found. -/
theorem property_mem (h : (keys members).Nodup) (key : Text) (v : Json N) (hm : (key, v) ∈ members) :
    property key members = some v := (Js.property_eq_some h).mpr hm

variable [JsInteger N] {z min max : Int}

omit [JsInteger N] in
theorem isSafe_of (hmin : -Js.maxSafe ≤ z) (hmax : z ≤ Js.maxSafe) : Js.isSafe z = true :=
  Bool.and_eq_true_iff.mpr ⟨decide_eq_true hmin, decide_eq_true hmax⟩

theorem safeInteger_intValue (h : Js.isSafe z = true) :
    safeInteger (some (intValue z : Json N)) = some z := by
  have hview : (intValue z : Json N).view = .num (JsInteger.ofInt z) := rfl
  simp [safeInteger, hview, JsInteger.safe_ofInt, h]

theorem boundedInt_intValue (hmin : min ≤ z) (hmax : z ≤ max) (hs : Js.isSafe z = true) :
    boundedInt (some (intValue z : Json N)) min max = some z := by
  simp [boundedInt, safeInteger_intValue hs, hmin, hmax]

theorem boundedInt_some (h : boundedInt value min max = some z) : min ≤ z ∧ z ≤ max :=
  of_decide_eq_true (Option.filter_eq_some_iff.mp h).2

theorem isVersion_one : isVersion (some (intValue 1 : Json N)) = true := by
  unfold isVersion
  rw [safeInteger_intValue rfl]
  rfl

theorem written_intValue (h : z.natAbs ≤ 9007199254740992) :
    (intValue z : Json N).written = intValue z := Js.written_ofInt h

end

/-! ## Boxes -/

section

variable {N : Type} {box : VaultSealed} {minCt : Nat}

variable {members : List (Text × Json N)}

theorem sealedOf_some (h : sealedOf members minCt = some box) : isSealed minCt box = true := by
  unfold sealedOf at h
  simp only [Option.bind_eq_bind, Option.bind_eq_some_iff] at h
  obtain ⟨n, -, ct, -, h⟩ := h
  split at h
  · next hs => exact Option.some.inj h ▸ hs
  · cases h

theorem parseSealed_some {value : Option (Json N)} (h : parseSealed value minCt = some box) :
    isSealed minCt box = true := by
  obtain ⟨members, -, hm⟩ := Option.bind_eq_some_iff.mp h
  exact sealedOf_some hm

theorem sealedOf_members (h : isSealed minCt box = true)
    (hn : property (ascii "n") members = some (.str box.n))
    (hct : property (ascii "ct") members = some (.str box.ct)) :
    sealedOf members minCt = some box := by
  simp [sealedOf, hn, hct, h]

theorem parseSealed_sealedValue (h : isSealed minCt box = true) :
    parseSealed (some (sealedValue box : Json N)) minCt = some box := by
  have honce := sealedMembers_once (N := N) box
  unfold parseSealed sealedValue
  rw [record_obj]
  exact sealedOf_members h (property_mem honce _ _ (by simp [sealedMembers]))
    (property_mem honce _ _ (by simp [sealedMembers]))

theorem written_sealedValue [JsNumber N] : (sealedValue box : Json N).written = sealedValue box :=
  Json.written_obj_self _ (by simp [sealedMembers])

end

/-! ## The header -/

structure VaultKdfParams.Valid (kdf : VaultKdfParams) : Prop where
  m : VAULT_KDF_MIN_M ≤ kdf.m ∧ kdf.m ≤ VAULT_KDF_MAX_M
  t : VAULT_KDF_MIN_T ≤ kdf.t ∧ kdf.t ≤ VAULT_KDF_MAX_T
  p : 1 ≤ kdf.p ∧ kdf.p ≤ VAULT_KDF_MAX_P
  salt : isId16 kdf.salt = true

structure VaultHeader.Valid (dateParses : Text → Bool) (header : VaultHeader) : Prop where
  vaultId : isId16 header.vaultId = true
  kdf : header.kdf.Valid
  wrappedDek : isSealed 32 header.wrappedDek = true
  check : isSealed 0 header.check = true
  index : isSealed 0 header.index = true
  epoch : 1 ≤ header.epoch ∧ header.epoch ≤ Js.maxSafe
  updatedAt : isIsoTime dateParses header.updatedAt = true

section

variable {N : Type} [JsInteger N] {dateParses : Text → Bool} {header : VaultHeader}
  {kdf : VaultKdfParams}

theorem parseKdfParams_valid {value : Option (Json N)} (h : parseKdfParams value = some kdf) :
    kdf.Valid := by
  unfold parseKdfParams at h
  obtain ⟨members, -, h⟩ := Option.bind_eq_some_iff.mp h
  split at h
  · simp only [Option.bind_eq_bind, Option.bind_eq_some_iff] at h
    obtain ⟨m, hm, t, ht, p, hp, salt, hsalt, h⟩ := h
    cases h
    exact ⟨boundedInt_some hm, boundedInt_some ht, boundedInt_some hp, id16_some hsalt⟩
  · cases h

theorem VaultKdfParams.Valid.safe (h : kdf.Valid) :
    Js.isSafe kdf.m = true ∧ Js.isSafe kdf.t = true ∧ Js.isSafe kdf.p = true := by
  obtain ⟨⟨hm, hm'⟩, ⟨ht, ht'⟩, ⟨hp, hp'⟩, -⟩ := h
  simp only [VAULT_KDF_MIN_M, VAULT_KDF_MAX_M, VAULT_KDF_MIN_T, VAULT_KDF_MAX_T,
    VAULT_KDF_MAX_P] at hm hm' ht ht' hp hp'
  refine ⟨isSafe_of ?_ ?_, isSafe_of ?_ ?_, isSafe_of ?_ ?_⟩ <;> unfold Js.maxSafe <;> omega

theorem parseKdfParams_members (h : kdf.Valid) (once : (keys (kdfMembers (N := N) kdf)).Nodup) :
    parseKdfParams (some (Json.obj (kdfMembers kdf) once : Json N)) = some kdf := by
  obtain ⟨hm, ht, hp⟩ := h.safe
  have find := property_mem once
  unfold parseKdfParams
  simp only [record_obj, Option.bind_eq_bind, Option.bind_some,
    find (ascii "alg") (.str (ascii "argon2id")) (by simp [kdfMembers]), string_str, if_true,
    find (ascii "m") (intValue kdf.m) (by simp [kdfMembers]), boundedInt_intValue h.m.1 h.m.2 hm,
    find (ascii "t") (intValue kdf.t) (by simp [kdfMembers]), boundedInt_intValue h.t.1 h.t.2 ht,
    find (ascii "p") (intValue kdf.p) (by simp [kdfMembers]), boundedInt_intValue h.p.1 h.p.2 hp,
    find (ascii "salt") (.str kdf.salt) (by simp [kdfMembers]), id16_str h.salt]

theorem isSafe_natAbs {z : Int} (h : Js.isSafe z = true) : z.natAbs ≤ 9007199254740992 := by
  obtain ⟨hmin, hmax⟩ := Bool.and_eq_true_iff.mp h
  have hmin' := of_decide_eq_true hmin
  have hmax' := of_decide_eq_true hmax
  simp only [Js.maxSafe] at hmin' hmax'
  omega

theorem written_kdfMembers (h : kdf.Valid) (once : (keys (kdfMembers (N := N) kdf)).Nodup) :
    (Json.obj (kdfMembers kdf) once : Json N).written = .obj (kdfMembers kdf) once := by
  obtain ⟨hm, ht, hp⟩ := h.safe
  refine Json.written_obj_self once ?_
  simp [kdfMembers, written_intValue (isSafe_natAbs hm), written_intValue (isSafe_natAbs ht),
    written_intValue (isSafe_natAbs hp)]

theorem parseVaultHeader_valid {text : Text} (h : parseVaultHeader N dateParses text = some header) :
    header.Valid dateParses := by
  unfold parseVaultHeader at h
  obtain ⟨members, -, h⟩ := Option.bind_eq_some_iff.mp h
  split at h
  · simp only [Option.bind_eq_bind, Option.bind_eq_some_iff] at h
    obtain ⟨vaultId, hid, kdf, hkdf, dek, hdek, check, hcheck, index, hindex, epoch, hepoch, time,
      htime, h⟩ := h
    cases h
    exact ⟨id16_some hid, parseKdfParams_valid hkdf, parseSealed_some hdek, parseSealed_some hcheck,
      parseSealed_some hindex, boundedInt_some hepoch, isoTime_some htime⟩
  · cases h

/-- A valid header comes back. -/
theorem parseVaultHeader_serialize (h : header.Valid dateParses) :
    parseVaultHeader N dateParses (serializeVaultHeader N header) = some header := by
  have once := headerMembers_once (N := N) header
  have find := property_mem once
  have hepoch : Js.isSafe header.epoch = true := by
    refine isSafe_of (le_trans ?_ h.epoch.1) h.epoch.2
    decide
  have hwritten : (Json.obj (headerMembers header) once : Json N).written =
      .obj (headerMembers header) once := by
    refine Json.written_obj_self once ?_
    simp [headerMembers, written_sealedValue, written_intValue (isSafe_natAbs hepoch),
      written_kdfMembers h.kdf, written_intValue (N := N) (z := 1) (by decide)]
  unfold parseVaultHeader serializeVaultHeader
  rw [Js.JSON.parse_stringify, hwritten]
  simp only [record_obj, Option.bind_eq_bind, Option.bind_some,
    find (ascii "v") (intValue 1) (by simp [headerMembers]), isVersion_one, if_true,
    find (ascii "vaultId") (.str header.vaultId) (by simp [headerMembers]), id16_str h.vaultId,
    find (ascii "kdf") (.obj (kdfMembers header.kdf) (kdfMembers_once header.kdf))
      (by simp [headerMembers]), parseKdfParams_members h.kdf,
    find (ascii "wrappedDek") (sealedValue header.wrappedDek) (by simp [headerMembers]),
    parseSealed_sealedValue h.wrappedDek,
    find (ascii "check") (sealedValue header.check) (by simp [headerMembers]),
    parseSealed_sealedValue h.check,
    find (ascii "index") (sealedValue header.index) (by simp [headerMembers]),
    parseSealed_sealedValue h.index,
    find (ascii "epoch") (intValue header.epoch) (by simp [headerMembers]),
    boundedInt_intValue h.epoch.1 h.epoch.2 hepoch,
    find (ascii "updatedAt") (.str header.updatedAt) (by simp [headerMembers]),
    isoTime_str h.updatedAt]

end

/-! ## Key blobs -/

structure VaultKeyBlob.Valid (blob : VaultKeyBlob) : Prop where
  vaultId : isId16 blob.vaultId = true
  keyId : isId16 blob.keyId = true
  box : isSealed 1 ⟨blob.n, blob.ct⟩ = true
  pub : ∀ pub ∈ blob.pub, isSealed 1 pub = true

/-- The blob is the one that is asked for. -/
def VaultKeyBlob.Named (blob : VaultKeyBlob) (expect : Option BlobName) : Prop :=
  ∀ name ∈ expect, name = ⟨blob.vaultId, blob.keyId⟩

section

variable {N : Type} [JsInteger N] {blob : VaultKeyBlob} {expect : Option BlobName}

theorem parseVaultKeyBlob_valid {text : Text} (h : parseVaultKeyBlob N text expect = some blob) :
    blob.Valid ∧ blob.Named expect := by
  unfold parseVaultKeyBlob at h
  obtain ⟨members, -, h⟩ := Option.bind_eq_some_iff.mp h
  split at h
  · simp only [Option.bind_eq_bind, Option.bind_eq_some_iff] at h
    obtain ⟨vaultId, hvault, keyId, hkey, box, hbox, h⟩ := h
    split at h
    · next hname =>
      obtain ⟨pub, hpub, h⟩ := Option.bind_eq_some_iff.mp h
      cases h
      refine ⟨⟨id16_some hvault, id16_some hkey, sealedOf_some hbox, fun other hother => ?_⟩,
        fun name hmem => ?_⟩
      · unfold parsePub at hpub
        split at hpub
        · cases hpub
          cases hother
        · obtain ⟨found, hfound, rfl⟩ := Option.map_eq_some_iff.mp hpub
          cases hother
          exact parseSealed_some hfound
      · obtain rfl : expect = some name := hmem
        obtain ⟨hv, hk⟩ := Bool.and_eq_true_iff.mp (Option.all_some ▸ hname)
        obtain ⟨_, _⟩ := name
        exact congrArg₂ BlobName.mk (of_decide_eq_true hv) (of_decide_eq_true hk)
    · cases h
  · cases h

/-- A valid blob comes back, when it is asked for. -/
theorem parseVaultKeyBlob_serialize (h : blob.Valid) (hname : blob.Named expect) :
    parseVaultKeyBlob N (serializeVaultKeyBlob N blob) expect = some blob := by
  have once := blobMembers_once (N := N) blob
  have find := property_mem once
  have hexpect : (expect.all fun name => name.vaultId = blob.vaultId && name.keyId = blob.keyId) =
      true := by
    cases hsome : expect with
    | none => rfl
    | some name =>
      rw [hname name hsome]
      simp
  have hpub : parsePub (property (ascii "pub") (blobMembers (N := N) blob)) = some blob.pub := by
    cases hp : blob.pub with
    | none =>
      have hnone : property (ascii "pub") (blobMembers (N := N) blob) = none := by
        refine Js.property_eq_none.mpr ?_
        rw [show keys (blobMembers (N := N) blob) = [ascii "v", ascii "vaultId", ascii "keyId",
          ascii "n", ascii "ct"] by unfold blobMembers; rw [hp]; rfl]
        decide
      rw [hnone]
      rfl
    | some pub =>
      rw [find (ascii "pub") (sealedValue pub) (by simp [blobMembers, hp])]
      show (parseSealed (some (sealedValue pub)) 1).map some = some (some pub)
      rw [parseSealed_sealedValue (h.pub pub hp)]
      rfl
  have hwritten : (Json.obj (blobMembers blob) once : Json N).written =
      .obj (blobMembers blob) once := by
    refine Json.written_obj_self once ?_
    cases hp : blob.pub <;>
      simp [blobMembers, hp, written_sealedValue, written_intValue (N := N) (z := 1) (by decide)]
  unfold parseVaultKeyBlob serializeVaultKeyBlob
  rw [Js.JSON.parse_stringify, hwritten]
  simp only [record_obj, Option.bind_eq_bind, Option.bind_some,
    find (ascii "v") (intValue 1) (by simp [blobMembers]), isVersion_one, if_true,
    find (ascii "vaultId") (.str blob.vaultId) (by simp [blobMembers]), id16_str h.vaultId,
    find (ascii "keyId") (.str blob.keyId) (by simp [blobMembers]), id16_str h.keyId,
    sealedOf_members h.box (find (ascii "n") (.str blob.n) (by simp [blobMembers]))
      (find (ascii "ct") (.str blob.ct) (by simp [blobMembers])), hexpect, hpub]

end

/-! ## The index -/

structure VaultKeyEntry.Valid (dateParses : Text → Bool) (entry : VaultKeyEntry) : Prop where
  keyId : isId16 entry.keyId = true
  name : entry.name.length ≤ VAULT_NAME_MAX
  createdAt : isIsoTime dateParses entry.createdAt = true
  /-- A password has no fingerprint, and a key has one. -/
  fingerprint : entry.type = .password ∧ entry.fingerprint = none ∨
    entry.type ≠ .password ∧ ∃ text, entry.fingerprint = some text ∧ isFingerprint text = true
  rotatedFrom : ∀ keyId ∈ entry.rotatedFrom, isId16 keyId = true

/-- An alias with its binding. -/
structure ValidHost (host : Text × HostKeyBinding) : Prop where
  notEmpty : host.1 ≠ []
  notProto : host.1 ≠ protoKey
  keyId : isId16 host.2.keyId = true

structure VaultIndex.Valid (dateParses : Text → Bool) (index : VaultIndex) : Prop where
  keys : ∀ entry ∈ index.keys, entry.Valid dateParses
  once : (index.keys.map (·.keyId)).Nodup
  hosts : ∀ host ∈ index.hosts.entries, ValidHost host

theorem find_type (type : VaultEntryType) : ENTRY_TYPES.find? (·.text = type.text) = some type := by
  cases type <;> decide

theorem find_policy (policy : GatewayAuthPolicy) :
    GATEWAY_AUTH_POLICIES.find? (·.text = policy.text) = some policy := by
  cases policy <;> decide

section

variable {N : Type} {dateParses : Text → Bool} {entry : VaultKeyEntry} {binding : HostKeyBinding}

theorem parseFingerprint_some {type : VaultEntryType} {value : Option (Json N)}
    {fingerprint : Option Text} (h : parseFingerprint type value = some fingerprint) :
    type = .password ∧ fingerprint = none ∨
      type ≠ .password ∧ ∃ text, fingerprint = some text ∧ isFingerprint text = true := by
  unfold parseFingerprint at h
  split at h
  · next htype =>
    split at h
    · cases h
      exact .inl ⟨htype, rfl⟩
    · cases h
  · next htype =>
    obtain ⟨text, htext, rfl⟩ := Option.map_eq_some_iff.mp h
    exact .inr ⟨htype, text, rfl, (Option.filter_eq_some_iff.mp htext).2⟩

theorem parseRotatedFrom_some {value : Option (Json N)} {rotatedFrom : Option Text}
    (h : parseRotatedFrom value = some rotatedFrom) : ∀ keyId ∈ rotatedFrom, isId16 keyId = true := by
  unfold parseRotatedFrom at h
  split at h
  · cases h
    exact fun _ hmem => by cases hmem
  · obtain ⟨text, htext, rfl⟩ := Option.map_eq_some_iff.mp h
    rintro keyId hmem
    cases hmem
    exact id16_some htext

theorem parseKeyEntry_valid {value : Json N} (h : parseKeyEntry dateParses value = some entry) :
    entry.Valid dateParses := by
  unfold parseKeyEntry at h
  simp only [Option.bind_eq_bind, Option.bind_eq_some_iff] at h
  obtain ⟨members, -, keyId, hid, name, hname, type, -, createdAt, htime, fingerprint, hfinger,
    rotatedFrom, hrotated, h⟩ := h
  cases h
  exact ⟨id16_some hid, of_decide_eq_true (Option.filter_eq_some_iff.mp hname).2, isoTime_some htime,
    parseFingerprint_some hfinger, parseRotatedFrom_some hrotated⟩

theorem any_keyId {entries : List VaultKeyEntry} {keyId : Text} :
    entries.any (·.keyId = keyId) = true ↔ keyId ∈ entries.map (·.keyId) := by
  simp

variable {entries result : List VaultKeyEntry}

theorem parseKeyEntries_valid {items : List (Json N)}
    (h : parseKeyEntries dateParses entries items = some result)
    (hvalid : ∀ entry ∈ entries, entry.Valid dateParses) (honce : (entries.map (·.keyId)).Nodup) :
    (∀ entry ∈ result, entry.Valid dateParses) ∧ (result.map (·.keyId)).Nodup := by
  induction items generalizing entries with
  | nil =>
    cases h
    exact ⟨hvalid, honce⟩
  | cons item items ih =>
    rw [parseKeyEntries] at h
    obtain ⟨entry, hentry, h⟩ := Option.bind_eq_some_iff.mp h
    split at h
    · cases h
    · next hnew =>
      refine ih h (fun other hother => ?_) ?_
      · rcases List.mem_append.mp hother with hother | hother
        · exact hvalid other hother
        · rw [List.mem_singleton.mp hother]
          exact parseKeyEntry_valid hentry
      · rw [List.map_append]
        exact honce.append (List.nodup_singleton _)
          (List.disjoint_singleton.mpr (mt any_keyId.mpr hnew))

theorem parseBinding_valid {value : Json N} (h : parseBinding value = some binding) :
    isId16 binding.keyId = true := by
  unfold parseBinding at h
  simp only [Option.bind_eq_bind, Option.bind_eq_some_iff] at h
  obtain ⟨members, -, keyId, hid, policy, -, h⟩ := h
  cases h
  exact id16_some hid

variable {members : List (Text × Json N)}

theorem parseHosts_valid {hosts result : Dict HostKeyBinding}
    (h : parseHosts hosts members = some result) (hvalid : ∀ host ∈ hosts.entries, ValidHost host) :
    ∀ host ∈ result.entries, ValidHost host := by
  induction members generalizing hosts with
  | nil =>
    cases h
    exact hvalid
  | cons member members ih =>
    rw [parseHosts] at h
    obtain ⟨binding, hbinding, h⟩ := Option.bind_eq_some_iff.mp h
    split at h
    · cases h
    · next halias =>
      obtain ⟨hempty, hproto⟩ := not_or.mp halias
      refine ih h fun host hhost => ?_
      rcases Dict.mem_insert hhost with rfl | hhost
      · exact ⟨hempty, hproto, parseBinding_valid hbinding⟩
      · exact hvalid host hhost

/-! ### What is written of it -/

theorem property_fingerprint : property (ascii "fingerprint") (entryMembers (N := N) entry) =
    entry.fingerprint.map Json.str := by
  have once := entryMembers_once (N := N) entry
  cases hf : entry.fingerprint with
  | none =>
    refine Js.property_eq_none.mpr ?_
    unfold entryMembers textMember
    cases entry.rotatedFrom <;> simp [hf, Js.keys] <;> decide
  | some text => exact property_mem once _ (.str text) (by simp [entryMembers, textMember, hf])

theorem property_rotatedFrom : property (ascii "rotatedFrom") (entryMembers (N := N) entry) =
    entry.rotatedFrom.map Json.str := by
  have once := entryMembers_once (N := N) entry
  cases hr : entry.rotatedFrom with
  | none =>
    refine Js.property_eq_none.mpr ?_
    unfold entryMembers textMember
    cases entry.fingerprint <;> simp [hr, Js.keys] <;> decide
  | some keyId => exact property_mem once _ (.str keyId) (by simp [entryMembers, textMember, hr])

theorem parseRotatedFrom_member (h : entry.Valid dateParses) :
    parseRotatedFrom (property (ascii "rotatedFrom") (entryMembers (N := N) entry)) =
      some entry.rotatedFrom := by
  rw [property_rotatedFrom]
  cases hr : entry.rotatedFrom with
  | none => rfl
  | some keyId =>
    show (id16 (some (.str keyId : Json N))).map some = _
    rw [id16_str (h.rotatedFrom keyId hr)]
    rfl

theorem parseRotatedFrom_self {rotatedFrom : Option Text}
    (h : parseRotatedFrom (property (ascii "rotatedFrom") (entryMembers (N := N) entry)) =
      some rotatedFrom) : rotatedFrom = entry.rotatedFrom := by
  rw [property_rotatedFrom] at h
  cases hr : entry.rotatedFrom with
  | none =>
    rw [hr] at h
    exact (Option.some.inj h).symm
  | some keyId =>
    rw [hr] at h
    obtain ⟨text, htext, rfl⟩ := Option.map_eq_some_iff.mp h
    rw [id16_str_some htext]

theorem parseFingerprint_member (h : entry.Valid dateParses) :
    parseFingerprint entry.type (property (ascii "fingerprint") (entryMembers (N := N) entry)) =
      some entry.fingerprint := by
  unfold parseFingerprint
  rw [property_fingerprint]
  rcases h.fingerprint with ⟨htype, hnone⟩ | ⟨htype, text, htext, hvalid⟩
  · rw [if_pos htype, hnone]
    rfl
  · rw [if_neg htype, htext, Option.map_some, string_str]
    simp [hvalid]

theorem parseFingerprint_self {fingerprint : Option Text}
    (h : parseFingerprint entry.type (property (ascii "fingerprint") (entryMembers (N := N) entry)) =
      some fingerprint) : fingerprint = entry.fingerprint := by
  unfold parseFingerprint at h
  rw [property_fingerprint] at h
  split at h
  · cases hf : entry.fingerprint with
    | none =>
      rw [hf] at h
      exact (Option.some.inj h).symm
    | some text =>
      rw [hf] at h
      cases h
  · obtain ⟨text, htext, rfl⟩ := Option.map_eq_some_iff.mp h
    cases hf : entry.fingerprint with
    | none =>
      rw [hf] at htext
      cases htext
    | some found =>
      rw [hf] at htext
      exact congrArg some (filter_str_some htext)

theorem entryType_text : entryType (some (.str entry.type.text : Json N)) = some entry.type := by
  unfold entryType
  rw [string_str]
  exact find_type entry.type

theorem parseKeyEntry_entryValue (h : entry.Valid dateParses) :
    parseKeyEntry dateParses (entryValue entry : Json N) = some entry := by
  have once := entryMembers_once (N := N) entry
  have find := property_mem once
  have hname : entryName (some (.str entry.name : Json N)) = some entry.name := by
    simp [entryName, h.name]
  unfold parseKeyEntry entryValue
  simp only [record_obj, Option.bind_eq_bind, Option.bind_some,
    find (ascii "keyId") (.str entry.keyId) (by simp [entryMembers]), id16_str h.keyId,
    find (ascii "name") (.str entry.name) (by simp [entryMembers]), hname,
    find (ascii "type") (.str entry.type.text) (by simp [entryMembers]), entryType_text,
    find (ascii "createdAt") (.str entry.createdAt) (by simp [entryMembers]), isoTime_str h.createdAt,
    parseFingerprint_member h, parseRotatedFrom_member h]

theorem parseKeyEntries_entryValues (before : List VaultKeyEntry) {entries : List VaultKeyEntry}
    (hvalid : ∀ entry ∈ entries, entry.Valid dateParses)
    (honce : ((before ++ entries).map (·.keyId)).Nodup) :
    parseKeyEntries dateParses before (entries.map entryValue : List (Json N)) =
      some (before ++ entries) := by
  induction entries generalizing before with
  | nil =>
    rw [List.append_nil]
    rfl
  | cons entry entries ih =>
    obtain ⟨hentry, hrest⟩ := List.forall_mem_cons.mp hvalid
    have hsplit : before ++ entry :: entries = (before ++ [entry]) ++ entries := by simp
    have hnew : entry.keyId ∉ before.map (·.keyId) := by
      rw [List.map_append] at honce
      exact fun hmem => (List.nodup_append.mp honce).2.2 _ hmem _ List.mem_cons_self rfl
    rw [List.map_cons, parseKeyEntries, parseKeyEntry_entryValue hentry, Option.bind_eq_bind,
      Option.bind_some, if_neg (mt any_keyId.mp hnew), hsplit]
    exact ih _ hrest (hsplit ▸ honce)

/-- Of any entry, what is read is the entry that was written. -/
theorem parseKeyEntry_self {result : VaultKeyEntry}
    (h : parseKeyEntry dateParses (entryValue entry : Json N) = some result) : result = entry := by
  have once := entryMembers_once (N := N) entry
  have find := property_mem once
  unfold parseKeyEntry entryValue at h
  simp only [record_obj, Option.bind_eq_bind, Option.bind_some,
    find (ascii "keyId") (.str entry.keyId) (by simp [entryMembers]),
    find (ascii "name") (.str entry.name) (by simp [entryMembers]),
    find (ascii "type") (.str entry.type.text) (by simp [entryMembers]), entryType_text,
    find (ascii "createdAt") (.str entry.createdAt) (by simp [entryMembers])] at h
  simp only [Option.bind_eq_some_iff] at h
  obtain ⟨keyId, hid, name, hname, createdAt, htime, fingerprint, hfinger, rotatedFrom, hrotated,
    h⟩ := h
  obtain rfl : keyId = entry.keyId := id16_str_some hid
  obtain rfl : name = entry.name := filter_str_some hname
  obtain rfl : createdAt = entry.createdAt := filter_str_some htime
  obtain rfl : fingerprint = entry.fingerprint := parseFingerprint_self hfinger
  obtain rfl : rotatedFrom = entry.rotatedFrom := parseRotatedFrom_self hrotated
  exact (Option.some.inj h).symm

theorem parseKeyEntries_self (before : List VaultKeyEntry)
    (h : parseKeyEntries dateParses before (entries.map entryValue : List (Json N)) = some result) :
    result = before ++ entries := by
  induction entries generalizing before with
  | nil =>
    cases h
    rw [List.append_nil]
  | cons entry entries ih =>
    rw [List.map_cons, parseKeyEntries] at h
    obtain ⟨found, hfound, hrest⟩ := Option.bind_eq_some_iff.mp h
    obtain rfl := parseKeyEntry_self hfound
    split at hrest
    · cases hrest
    · rw [ih _ hrest, List.append_assoc]
      rfl

theorem parseBinding_bindingValue (h : isId16 binding.keyId = true) :
    parseBinding (bindingValue binding : Json N) = some binding := by
  have once := bindingMembers_once (N := N) binding
  have hpolicy : policy (some (.str binding.gatewayAuth.text : Json N)) = some binding.gatewayAuth := by
    unfold policy
    rw [string_str]
    exact find_policy binding.gatewayAuth
  unfold parseBinding bindingValue
  simp only [record_obj, Option.bind_eq_bind, Option.bind_some,
    property_mem once (ascii "keyId") (.str binding.keyId) (by simp [bindingMembers]), id16_str h,
    property_mem once (ascii "gatewayAuth") (.str binding.gatewayAuth.text)
      (by simp [bindingMembers]), hpolicy]

/-- The entry of a member of the hosts. -/
def readHost (q : Text × Json N) : Text × HostKeyBinding :=
  (q.1, (parseBinding q.2).getD ⟨[], .host⟩)

theorem parseHosts_members (hosts : Dict HostKeyBinding)
    (h : ∀ q ∈ members, (parseBinding q.2).isSome = true ∧ q.1 ≠ [] ∧ q.1 ≠ protoKey) :
    parseHosts hosts members =
      some ((members.map readHost).foldl (fun d q => d.set q.1 q.2) hosts) := by
  induction members generalizing hosts with
  | nil => rfl
  | cons member members ih =>
    obtain ⟨⟨hsome, hempty, hproto⟩, hrest⟩ := List.forall_mem_cons.mp h
    obtain ⟨binding, hbinding⟩ := Option.isSome_iff_exists.mp hsome
    obtain ⟨hostAlias, item⟩ := member
    rw [parseHosts, hbinding, Option.bind_eq_bind, Option.bind_some,
      if_neg (by simp only [hempty, hproto, or_self, not_false_eq_true]), ih _ hrest, List.map_cons,
      List.foldl_cons, readHost, hbinding]
    rfl

/-- The hosts come back, in whatever order their members are listed. -/
theorem parseHosts_hostsMembers {hosts : Dict HostKeyBinding}
    (h : ∀ host ∈ hosts.entries, ValidHost host)
    (hperm : members.Perm (hostsMembers hosts)) : parseHosts .empty members = some hosts := by
  have hall : hosts.entries.filter (·.1 ≠ protoKey) = hosts.entries :=
    List.filter_eq_self.mpr fun host hhost => decide_eq_true (h host hhost).notProto
  have hsorted : (sortedHosts hosts).Perm hosts.entries := by
    unfold sortedHosts
    rw [hall]
    exact Js.ownOrder_perm _
  have hread : (hostsMembers (N := N) hosts).map readHost = sortedHosts hosts := by
    unfold hostsMembers
    rw [List.map_map]
    refine (List.map_congr_left fun q hq => ?_).trans (List.map_id _)
    have hvalid := h q (hsorted.mem_iff.mp hq)
    show (q.1, (parseBinding (bindingValue q.2 : Json N)).getD ⟨[], .host⟩) = q
    rw [parseBinding_bindingValue hvalid.keyId]
    rfl
  rw [parseHosts_members .empty fun q hq => ?_]
  · refine congrArg some (Dict.ofList_perm ?_)
    exact ((hperm.map readHost).trans (hread ▸ .refl _)).trans hsorted
  · obtain ⟨host, hhost, rfl⟩ := List.mem_map.mp (hperm.mem_iff.mp hq)
    have hvalid := h host (hsorted.mem_iff.mp hhost)
    refine ⟨?_, hvalid.notEmpty, hvalid.notProto⟩
    dsimp only
    rw [parseBinding_bindingValue hvalid.keyId]
    rfl

end

section

variable {N : Type} [JsInteger N] {dateParses : Text → Bool} {index : VaultIndex}

theorem parseVaultIndex_valid {text : Text} (h : parseVaultIndex N dateParses text = some index) :
    index.Valid dateParses := by
  unfold parseVaultIndex at h
  simp only [Option.bind_eq_bind, Option.bind_eq_some_iff] at h
  obtain ⟨raw, -, items, -, members, -, entries, hentries, hosts, hhosts, sync, -, h⟩ := h
  cases h
  obtain ⟨hvalid, honce⟩ := parseKeyEntries_valid hentries (by simp) (by simp)
  exact ⟨hvalid, honce, parseHosts_valid hhosts fun host hmem => by cases hmem⟩

theorem written_entryValue (entry : VaultKeyEntry) :
    (entryValue entry : Json N).written = entryValue entry := by
  refine Json.written_obj_self _ ?_
  cases hf : entry.fingerprint <;> cases hr : entry.rotatedFrom <;>
    simp [entryMembers, textMember, hf, hr]

theorem written_hostsValue (hosts : Dict HostKeyBinding) :
    (hostsValue hosts : Json N).written = hostsValue hosts := by
  refine Json.written_obj_self _ fun q hq => ?_
  obtain ⟨host, -, rfl⟩ := List.mem_map.mp hq
  exact Json.written_obj_self (bindingMembers_once host.2) (by simp [bindingMembers])

theorem written_syncValue (passphrase : Text) :
    (syncValue passphrase : Json N).written = syncValue passphrase :=
  Json.written_obj_self _ (by simp)

omit [JsInteger N] in
theorem parseSync_member :
    parseSync (property (ascii "sync") (indexMembers (N := N) index)) = some index.sync := by
  have once := indexMembers_once (N := N) index
  cases hs : index.sync with
  | none =>
    have hnone : property (ascii "sync") (indexMembers (N := N) index) = none := by
      refine Js.property_eq_none.mpr ?_
      unfold indexMembers
      simp [hs, Js.keys]
      decide
    rw [hnone]
    rfl
  | some passphrase =>
    have hsync : (ascii "passphrase", Json.str passphrase) ∈
        [(ascii "passphrase", (Json.str passphrase : Json N))] := List.mem_singleton_self _
    rw [property_mem once _ (syncValue passphrase) (by simp [indexMembers, hs])]
    unfold parseSync syncValue
    simp only [record_obj, Option.bind_eq_bind, Option.bind_some,
      property_mem Js.nodup_single _ _ hsync, string_str]

theorem parseVaultIndex_serialize_eq : parseVaultIndex N dateParses (serializeVaultIndex N index) =
    (parseKeyEntries dateParses [] (index.keys.map (entryValue (N := N)))).bind fun entries =>
      (parseHosts .empty (ownOrder (hostsMembers (N := N) index.hosts))).bind fun hosts =>
        some ⟨entries, hosts, index.sync⟩ := by
  have once := indexMembers_once (N := N) index
  have find := property_mem once
  have hwritten : (Json.obj (indexMembers index) once : Json N).written =
      .obj (indexMembers index) once := by
    have harr : (Json.arr (index.keys.map entryValue) : Json N).written =
        .arr (index.keys.map entryValue) := by
      refine Json.written_arr_self fun v hv => ?_
      obtain ⟨entry, -, rfl⟩ := List.mem_map.mp hv
      exact written_entryValue entry
    refine Json.written_obj_self once ?_
    cases hs : index.sync <;>
      simp [indexMembers, hs, harr, written_hostsValue, written_syncValue]
  have hhosts : record (some (hostsValue index.hosts : Json N)) = some (hostsMembers index.hosts) :=
    record_obj
  unfold parseVaultIndex serializeVaultIndex
  rw [Js.JSON.parse_stringify, hwritten]
  simp only [record_obj, Option.bind_eq_bind, Option.bind_some,
    find (ascii "keys") (.arr (index.keys.map entryValue)) (by simp [indexMembers]), array_arr,
    find (ascii "hosts") (hostsValue index.hosts) (by simp [indexMembers]), hhosts, parseSync_member]

/-- A valid index comes back. -/
theorem parseVaultIndex_serialize (h : index.Valid dateParses) :
    parseVaultIndex N dateParses (serializeVaultIndex N index) = some index := by
  rw [parseVaultIndex_serialize_eq, parseKeyEntries_entryValues [] h.keys h.once,
    parseHosts_hostsMembers h.hosts (Js.ownOrder_perm _)]
  rfl

/-- Of any index, what is read lists the entries that were written. -/
theorem parseVaultIndex_keys {result : VaultIndex}
    (h : parseVaultIndex N dateParses (serializeVaultIndex N index) = some result) :
    result.keys = index.keys := by
  rw [parseVaultIndex_serialize_eq] at h
  obtain ⟨entries, hentries, h⟩ := Option.bind_eq_some_iff.mp h
  obtain ⟨hosts, -, h⟩ := Option.bind_eq_some_iff.mp h
  cases h
  exact parseKeyEntries_self [] hentries

end

/-- What a parser accepts comes back from what is written of it, and so do the bytes and texts of
base64url. -/
theorem codecs_round_trip (N : Type) [JsInteger N] (dateParses : Text → Bool) :
    (∀ text header, parseVaultHeader N dateParses text = some header →
      parseVaultHeader N dateParses (serializeVaultHeader N header) = some header) ∧
    (∀ text expect blob, parseVaultKeyBlob N text expect = some blob →
      parseVaultKeyBlob N (serializeVaultKeyBlob N blob) expect = some blob) ∧
    (∀ text index, parseVaultIndex N dateParses text = some index →
      parseVaultIndex N dateParses (serializeVaultIndex N index) = some index) ∧
    (∀ text bytes, fromB64url text = some bytes → toB64url bytes = text) ∧
    ∀ bytes, fromB64url (toB64url bytes) = some bytes := by
  refine ⟨fun text header h => parseVaultHeader_serialize (parseVaultHeader_valid h),
    fun text expect blob h => ?_,
    fun text index h => parseVaultIndex_serialize (parseVaultIndex_valid h),
    fun text bytes h => toB64url_fromB64url h, fromB64url_toB64url⟩
  obtain ⟨hvalid, hname⟩ := parseVaultKeyBlob_valid h
  exact parseVaultKeyBlob_serialize hvalid hname

/-- A key of one byte without a public half. -/
def shortBlob : VaultKeyBlob where
  vaultId := ascii "AAAAAAAAAAAAAAAAAAAAAA"
  keyId := ascii "AQEBAQEBAQEBAQEBAQEBAQ"
  n := ascii "AAAAAAAAAAAAAAAA"
  ct := ascii "AAAAAAAAAAAAAAAAAAAAAAA"
  pub := none

theorem shortBlob_valid : shortBlob.Valid where
  vaultId := by decide
  keyId := by decide
  box := by decide
  pub := fun _ h => by cases h

/-- Boxes of the least length. -/
def shortHeader : VaultHeader where
  vaultId := shortBlob.vaultId
  kdf := ⟨32768, 3, 1, shortBlob.keyId⟩
  wrappedDek := ⟨shortBlob.n, List.replicate 64 0x41⟩
  check := ⟨shortBlob.n, List.replicate 22 0x41⟩
  index := ⟨shortBlob.n, List.replicate 22 0x41⟩
  epoch := 1
  updatedAt := []

theorem shortHeader_valid : shortHeader.Valid fun _ => true where
  vaultId := by decide
  kdf := ⟨by decide, by decide, by decide, by decide⟩
  wrappedDek := by decide
  check := by decide
  index := by decide
  epoch := by decide
  updatedAt := rfl

/-- A password with half of a surrogate pair in its name, for the hosts `10` and `9`. -/
def shortIndex : VaultIndex where
  keys := [⟨shortBlob.keyId, [0xd800], .password, none, [], none⟩]
  hosts := (Dict.empty.set (ascii "10") ⟨shortBlob.keyId, .host⟩).set (ascii "9") ⟨shortBlob.keyId, .both⟩
  sync := some []

theorem shortIndex_valid : shortIndex.Valid fun _ => true where
  keys entry h := by
    cases List.mem_singleton.mp h
    exact ⟨by decide, by decide, rfl, .inl ⟨rfl, rfl⟩, fun _ h => by cases h⟩
  once := by decide
  hosts host h := by
    have hkey : isId16 shortBlob.keyId = true := by decide
    rcases Dict.mem_insert h with rfl | h
    · exact ⟨by decide, by decide, hkey⟩
    · cases List.mem_singleton.mp h
      exact ⟨by decide, by decide, hkey⟩

theorem codecs_round_trip_shortBlob :
    parseVaultKeyBlob Js.Numeral (serializeVaultKeyBlob Js.Numeral shortBlob) none = some shortBlob ∧
    toB64url (List.replicate 16 1) = shortBlob.keyId ∧
    parseVaultHeader Js.Numeral (fun _ => true) (serializeVaultHeader Js.Numeral shortHeader) = some shortHeader ∧
    parseVaultIndex Js.Numeral (fun _ => true) (serializeVaultIndex Js.Numeral shortIndex) = some shortIndex := by
  have round := codecs_round_trip Js.Numeral fun _ => true
  exact ⟨round.2.1 _ none shortBlob (parseVaultKeyBlob_serialize shortBlob_valid fun _ h => by cases h),
    round.2.2.2.1 shortBlob.keyId _ (by decide +kernel),
    round.1 _ shortHeader (parseVaultHeader_serialize shortHeader_valid),
    round.2.2.1 _ shortIndex (parseVaultIndex_serialize shortIndex_valid)⟩

end PocketShell.KeyVault
