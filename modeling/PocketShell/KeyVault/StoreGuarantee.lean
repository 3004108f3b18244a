import PocketShell.KeyVault.Store

/-!
# What comes back of a password

What a vault answers for a password that it has added.

* `Wrote`: the state after an index write that succeeded.
* `decryptKey_added`: the password that is answered.
* `password_comes_back`: when that is the one that was added.
-/

namespace PocketShell.KeyVault.Store

open Js (Text Bytes Json JsInteger ascii utf8 fromUtf8 wellFormed stripMark repaired)

variable {N : Type} [JsInteger N] {platform : Platform} {α β : Type}

/-! ## Steps -/

theorem bind_apply (x : VaultM platform α) (f : α → VaultM platform β) (w : World platform) :
    (x >>= f) w = f (x w).1 (x w).2 := rfl

theorem pure_apply (a : α) (w : World platform) : (pure a : VaultM platform α) w = (a, w) := rfl

theorem get_apply (w : World platform) : (get : VaultM platform (World platform)) w = (w, w) := rfl

/-- `state` is the state object in use, or has been dropped. -/
def Linked (state : Unlocked platform) (w : World platform) : Prop :=
  w.unlocked = some state ∨ w.unlocked = none

/-- Nothing but `slot` is written, and the state object is the one in use or has been dropped. -/
structure Touches (slot : Text) (w w' : World platform) : Prop where
  others : ∀ other, other ≠ slot → w'.slots other = w.slots other
  unlocked : w'.unlocked = w.unlocked ∨ w'.unlocked = none

namespace Touches

variable {slot : Text} {w w₁ w₂ : World platform}

theorem refl : Touches slot w w := ⟨fun _ _ => rfl, .inl rfl⟩

theorem trans (h₁ : Touches slot w w₁) (h₂ : Touches slot w₁ w₂) : Touches slot w w₂ where
  others := fun other hne => (h₂.others other hne).trans (h₁.others other hne)
  unlocked := by
    rcases h₂.unlocked with h | h
    · exact h₁.unlocked.imp (fun h' => h.trans h') fun h' => h.trans h'
    · exact .inr h

theorem linked {state : Unlocked platform} (h : Touches slot w w₁) (hstate : Linked state w) :
    Linked state w₁ := by
  rcases h.unlocked with h | h
  · exact hstate.imp (fun h' => h.trans h') fun h' => h.trans h'
  · exact .inr h

theorem pass : Touches slot w w.pass := by
  unfold World.pass
  dsimp only
  split
  · exact ⟨fun _ _ => rfl, .inr rfl⟩
  · exact ⟨fun _ _ => rfl, .inl rfl⟩

theorem store (value : Option Slot) : Touches slot w (w.store slot value) where
  others := fun _ hne => Function.update_of_ne hne _ _
  unlocked := .inl rfl

theorem transportPush (data : Text) (base : Nat) :
    Touches slot w (transportPush slot data base w).2 := by
  unfold Store.transportPush
  split
  · split
    · exact (store _).trans pass
    · exact pass
  · exact pass
  · dsimp only
    refine trans ?_ pass
    split
    · split
      · exact store _
      · exact refl
    · exact refl

theorem reverify {isGated : α → Bool} {call : VaultM platform α}
    (h : ∀ w, Touches slot w (call w).2) : Touches slot w (reverify isGated call w).2 := by
  unfold Store.reverify
  dsimp only
  split
  · exact (h w).trans (h _)
  · exact h w

theorem push (data : Text) (base : Nat) : Touches slot w (push slot data base w).2 :=
  reverify fun _ => transportPush data base

end Touches

theorem pass_slots (w : World platform) : w.pass.slots = w.slots := by
  unfold World.pass
  dsimp only
  split <;> rfl

variable {w : World platform}

theorem transportPush_ok {slot data : Text} {base version : Nat}
    (h : (transportPush slot data base w).1 = .ok (.ok version)) :
    (transportPush slot data base w).2.slots slot = some ⟨version, data⟩ := by
  unfold transportPush at h ⊢
  split at h
  · split at h
    · next hbase =>
      cases h
      simp only [hbase, if_true, pass_slots]
      exact Function.update_self ..
    · cases h
  · cases h
  · dsimp only at h
    split at h <;> cases h

/-- A slot that a push has written. -/
theorem push_ok {slot data : Text} {base version : Nat}
    (h : (push slot data base w).1 = .ok (.ok version)) :
    (push slot data base w).2.slots slot = some ⟨version, data⟩ := by
  unfold push reverify at h ⊢
  dsimp only at h ⊢
  split at h
  · next hg =>
    rw [if_pos hg]
    exact transportPush_ok h
  · next hg =>
    rw [if_neg hg]
    exact transportPush_ok h

/-- What a pull leaves as it was. -/
theorem pull_slots {slot : Text}: (pull slot w).2.slots = w.slots := by
  have hcall : ∀ w : World platform, (transportPull slot w).2.slots = w.slots := pass_slots
  unfold pull reverify
  dsimp only
  split
  · exact (hcall _).trans (hcall w)
  · exact hcall w

theorem Touches.pull {slot : Text}: Touches slot w (pull slot w).2 :=
  reverify fun _ => pass

/-! ## A blob is written -/

theorem writeBlobFrom_touches {slot data : Text} (attempts : Nat) :
    ∀ {base : Nat} {w : World platform},
      Touches slot w (writeBlobFrom slot data attempts base w).2 := by
  induction attempts with
  | zero => exact Touches.refl
  | succ attempts ih =>
    intro base w
    have hpush : Touches slot w (push slot data base w).2 := Touches.push data base
    rw [writeBlobFrom, bind_apply]
    generalize push slot data base w = pushed at hpush
    obtain ⟨_ | ⟨_ | _ | _ | _⟩, w₁⟩ := pushed
    · exact hpush
    · exact hpush
    · exact hpush.trans ih
    · exact hpush
    · exact hpush

theorem writeBlobFrom_ok {slot data : Text} (attempts : Nat) :
    ∀ {base : Nat} {w : World platform}, (writeBlobFrom slot data attempts base w).1 = .ok →
      ∃ version, (writeBlobFrom slot data attempts base w).2.slots slot = some ⟨version, data⟩ := by
  induction attempts with
  | zero =>
    intro base w h
    cases h
  | succ attempts ih =>
    intro base w
    rw [writeBlobFrom, bind_apply]
    cases hpush : push slot data base w with
    | mk pushed w₁ =>
      intro h
      cases pushed with
      | error message => cases h
      | ok answer =>
        cases answer with
        | ok version =>
          have hslot := push_ok (congrArg Prod.fst hpush)
          rw [hpush] at hslot
          exact ⟨version, hslot⟩
        | conflict current => exact ih h
        | gated => cases h
        | error message => cases h

/-! ## The index is written -/

/-- After an index write that succeeded: the state object at its end. -/
structure Wrote (N : Type) [JsInteger N] (state : Unlocked platform)
    (mutate : VaultIndex → Mutation) (w w' : World platform) (session : Unlocked platform) :
    Prop where
  dekKey : session.dekKey = state.dekKey
  vaultId : session.header.vaultId = state.header.vaultId
  mutated : ∃ index, mutate index = .changed session.index
  roundTrips : indexRoundTrips N platform.dateParses session.index = true
  sealed : ∃ nonce, session.header.index =
    (sealIndex platform.cipher session.dekKey N session.header.vaultId session.index nonce).1
  header : ∃ version, w'.slots VAULT_HEADER_SLOT =
    some ⟨version, serializeVaultHeader N session.header⟩
  others : ∀ slot, slot ≠ VAULT_HEADER_SLOT → w'.slots slot = w.slots slot
  linked : Linked session w'

theorem keepState_linked {state session : Unlocked platform}
    (h : Linked state w) : Linked session (keepState session w).2 := by
  show (if w.unlocked.isSome then { w with unlocked := some session } else w).unlocked = _ ∨
    (if w.unlocked.isSome then { w with unlocked := some session } else w).unlocked = _
  rcases h with h | h
  · exact .inl (by rw [h]; rfl)
  · exact .inr (by rw [h]; exact h)

theorem keepState_slots {session : Unlocked platform} :
    (keepState session w).2.slots = w.slots := by
  show (if w.unlocked.isSome then { w with unlocked := some session } else w).slots = _
  split <;> rfl

theorem pullHeader_world:
    (pullHeader N platform w).2 = (pull VAULT_HEADER_SLOT w).2 := by
  unfold pullHeader
  rw [bind_apply]
  generalize pull VAULT_HEADER_SLOT w = pulled
  obtain ⟨_ | ⟨_ | _ | _⟩, w₁⟩ := pulled <;> rfl

/-- A state that has been rebased is of the same vault. -/
theorem rebase_ok {state rebased : Unlocked platform}
    (hstate : Linked state w) (h : (rebase N state w).1 = .ok rebased) :
    rebased.dekKey = state.dekKey ∧ rebased.header.vaultId = state.header.vaultId ∧
      (rebase N state w).2.slots = w.slots ∧ Linked rebased (rebase N state w).2 := by
  have hslots : (pullHeader N platform w).2.slots = w.slots := by
    rw [pullHeader_world]
    exact pull_slots
  have hlinked : Linked state (pullHeader N platform w).2 := by
    rw [pullHeader_world]
    exact Touches.pull.linked hstate
  unfold rebase at h ⊢
  rw [bind_apply] at h ⊢
  generalize pullHeader N platform w = pulled at h hslots hlinked ⊢
  obtain ⟨_ | header, w₁⟩ := pulled
  · cases h
  cases header with
  | gated => cases h
  | noVault => cases h
  | unreadable => cases h
  | ok header version valid =>
    dsimp only at h ⊢
    split at h
    · cases h
    · next hsame =>
      rw [if_neg hsame]
      cases hindex : openIndex platform.cipher state.dekKey N platform.dateParses header with
      | none =>
        rw [hindex] at h
        cases h
      | some index =>
        rw [hindex] at h
        cases h
        refine ⟨rfl, not_not.mp (not_or.mp hsame).1, ?_, ?_⟩
        · exact keepState_slots.trans hslots
        · exact keepState_linked hlinked

variable {state : Unlocked platform}

theorem sealState_spec {index : VaultIndex} :
    ∃ nonce, (sealState N state index w).1.header.index =
      (sealIndex platform.cipher state.dekKey N state.header.vaultId index nonce).1 :=
  ⟨w.nonces w.drawn, rfl⟩

variable {generation : Nat}

variable {next : Unlocked platform → VaultM platform VaultWriteResult}

theorem retryIndex_ok
    (hstate : Linked state w) (h : (retryIndex N generation state next w).1 = .ok) :
    ∃ rebased w₁, rebased.dekKey = state.dekKey ∧ rebased.header.vaultId = state.header.vaultId ∧
      w₁.slots = w.slots ∧ Linked rebased w₁ ∧ (next rebased w₁).1 = .ok ∧
      (retryIndex N generation state next w).2 = (next rebased w₁).2 := by
  unfold retryIndex at h ⊢
  rw [bind_apply, get_apply] at h ⊢
  dsimp only at h ⊢
  split at h
  · cases h
  next hgen =>
  rw [if_neg hgen]
  rw [bind_apply] at h ⊢
  cases hrebase : rebase N state w with
  | mk rebased w₁ =>
    rw [hrebase] at h
    cases rebased with
    | error failure => cases h
    | ok rebased =>
      have hok := rebase_ok hstate (congrArg Prod.fst hrebase)
      rw [hrebase] at hok
      obtain ⟨hkey, hvault, hslots, hlinked⟩ := hok
      dsimp only at h ⊢
      rw [bind_apply, get_apply] at h ⊢
      dsimp only at h ⊢
      split at h
      · cases h
      · next hafter =>
        rw [if_neg hafter]
        exact ⟨rebased, w₁, hkey, hvault, hslots, hlinked, h, rfl⟩

/-- A push that ends well has written the header, at once or after a conflict. -/
theorem pushIndex_ok {state sealed : Unlocked platform}
    (hstate : Linked state w) (h : (pushIndex N generation state sealed next w).1 = .ok) :
    (∃ version, (pushIndex N generation state sealed next w).2.slots VAULT_HEADER_SLOT =
        some ⟨version, serializeVaultHeader N sealed.header⟩ ∧
      (∀ slot, slot ≠ VAULT_HEADER_SLOT →
        (pushIndex N generation state sealed next w).2.slots slot = w.slots slot) ∧
      Linked { sealed with version := version } (pushIndex N generation state sealed next w).2) ∨
    ∃ w₁, Touches VAULT_HEADER_SLOT w w₁ ∧ (retryIndex N generation state next w₁).1 = .ok ∧
      (pushIndex N generation state sealed next w).2 = (retryIndex N generation state next w₁).2 := by
  have htouches : Touches VAULT_HEADER_SLOT w
      (push VAULT_HEADER_SLOT (serializeVaultHeader N sealed.header) state.version w).2 :=
    Touches.push _ _
  unfold pushIndex at h ⊢
  split at h
  · cases h
  next hlimit =>
  rw [if_neg hlimit]
  rw [bind_apply] at h ⊢
  cases hpush : push VAULT_HEADER_SLOT (serializeVaultHeader N sealed.header) state.version w with
  | mk pushed w₁ =>
    rw [hpush] at h htouches
    cases pushed with
    | error message => cases h
    | ok answer =>
      cases answer with
      | error message => cases h
      | gated => cases h
      | conflict current => exact .inr ⟨w₁, htouches, h, rfl⟩
      | ok version =>
        have hslot := push_ok (congrArg Prod.fst hpush)
        rw [hpush] at hslot
        refine .inl ⟨version, ?_, fun slot hne => ?_, ?_⟩
        · exact (congrFun keepState_slots _).trans hslot
        · exact (congrFun keepState_slots _).trans (htouches.others slot hne)
        · exact keepState_linked (htouches.linked hstate)

variable {mutate : VaultIndex → Mutation}

theorem writeIndexFrom_ok
    (hmutate : ∀ index, ∃ changed, mutate index = .changed changed) (attempts : Nat) :
    ∀ {state : Unlocked platform} {w : World platform},
      Linked state w → (writeIndexFrom N mutate generation attempts state w).1 = .ok →
      ∃ session, Wrote N state mutate w (writeIndexFrom N mutate generation attempts state w).2
        session := by
  induction attempts with
  | zero =>
    intro state w _ h
    cases h
  | succ attempts ih =>
    intro state w hstate h
    obtain ⟨index, hindex⟩ := hmutate state.index
    rw [writeIndexFrom, hindex] at h ⊢
    dsimp only at h ⊢
    split at h
    · cases h
    next htrips =>
    rw [if_neg htrips]
    rw [bind_apply, get_apply] at h ⊢
    dsimp only at h ⊢
    split at h
    · cases h
    next hgen =>
    rw [if_neg hgen]
    rw [bind_apply] at h ⊢
    obtain ⟨nonce, hnonce⟩ := @sealState_spec N _ platform w state index
    have hworld : Linked state (sealState N state index w).2 := hstate
    rcases pushIndex_ok hworld h with ⟨version, hheader, hothers, hlinked⟩ | ⟨w₁, htouches, h₁, heq⟩
    · let session : Unlocked platform := { (sealState N state index w).1 with version := version }
      exact ⟨session, rfl, rfl, ⟨state.index, hindex⟩, Bool.not_eq_false _ ▸ htrips, ⟨nonce, hnonce⟩,
        ⟨version, hheader⟩, hothers, hlinked⟩
    · obtain ⟨rebased, w₂, hkey, hvault, hslots, hlinked, hnext, heq'⟩ :=
        retryIndex_ok (htouches.linked hworld) h₁
      obtain ⟨session, hwrote⟩ := ih hlinked hnext
      rw [heq, heq']
      exact ⟨session, hwrote.dekKey.trans hkey, hwrote.vaultId.trans hvault, hwrote.mutated,
        hwrote.roundTrips, hwrote.sealed, hwrote.header, fun slot hne =>
          (hwrote.others slot hne).trans ((congrFun hslots slot).trans (htouches.others slot hne)),
        hwrote.linked⟩

theorem writeIndex_ok
   (hmutate : ∀ index, ∃ changed, mutate index = .changed changed)
    (hstate : Linked state w) (h : (writeIndex N mutate w).1 = .ok) :
    ∃ session, Wrote N state mutate w (writeIndex N mutate w).2 session := by
  unfold writeIndex at h ⊢
  rw [bind_apply, get_apply] at h ⊢
  dsimp only at h ⊢
  rcases hstate with hsome | hnone
  · rw [hsome] at h ⊢
    exact writeIndexFrom_ok hmutate _ (.inl hsome) h
  · rw [hnone] at h
    cases h

/-! ## A password is added -/

/-- What a session must hold for the secret of `entry` to be read with `key`. -/
structure Knows (key : platform.Key) (vaultId : Text) (entry : VaultKeyEntry)
    (session : Unlocked platform) : Prop where
  dekKey : session.dekKey = key
  vaultId : session.header.vaultId = vaultId
  listed : session.index.keys.find? (·.keyId = entry.keyId) = some entry

/-- After `addPassword` has answered `ok`. -/
structure Added (N : Type) [JsInteger N] (unlocked : Unlocked platform) (password : Text)
    (entry : VaultKeyEntry) (w' : World platform) (session : Unlocked platform) : Prop where
  type : entry.type = .password
  keyId : isId16 entry.keyId = true
  notEmpty : 1 ≤ (utf8 password).length
  blob : ∃ nonce version, w'.slots (vaultKeySlot entry.keyId) = some ⟨version,
    serializeVaultKeyBlob N (sealKeyBlob platform.cipher unlocked.dekKey unlocked.header.vaultId
      entry.keyId (utf8 password) nonce none)⟩
  wrote : ∃ w, Wrote N unlocked (appendEntry entry) w w' session

theorem appendEntry_changed (entry : VaultKeyEntry) (index : VaultIndex) :
    ∃ changed, appendEntry entry index = .changed changed := ⟨_, rfl⟩

theorem vaultKeySlot_ne (keyId : Text) : vaultKeySlot keyId ≠ VAULT_HEADER_SLOT := by
  intro h
  have hsecond := congrArg (fun text : Text => text[1]?) h
  have hkey : (vaultKeySlot keyId)[1]? = some 0x6b := rfl
  have hheader : VAULT_HEADER_SLOT[1]? = some 0x61 := rfl
  rw [hkey, hheader] at hsecond
  cases hsecond

variable {entry : VaultKeyEntry}

theorem addPassword_ok {password name : Text} {random : {bytes : Bytes // bytes.length = 16}}
   {unlocked : Unlocked platform}
    (hunlocked : w.unlocked = some unlocked)
    (h : (addPassword N password name random w).1 = .ok entry) :
    ∃ session, Added N unlocked password entry (addPassword N password name random w).2 session := by
  unfold addPassword at h ⊢
  rw [bind_apply, get_apply] at h ⊢
  dsimp only at h ⊢
  rw [hunlocked] at h ⊢
  dsimp only at h ⊢
  split at h
  · cases h
  next hlength =>
  rw [if_neg hlength]
  rw [bind_apply, bind_apply] at h ⊢
  generalize hkeyId : toB64url random.1 = keyId at h ⊢
  have hid : isId16 keyId = true := hkeyId ▸ isId16_toB64url random.2
  generalize hdata : serializeVaultKeyBlob N (sealKeyBlob platform.cipher unlocked.dekKey
    unlocked.header.vaultId keyId (utf8 password) (randomNonce w).1 none) = data at h ⊢
  cases hblob : writeBlob keyId data (randomNonce w).2 with
  | mk wrote w₁ =>
    rw [hblob] at h
    cases wrote with
    | gated => cases h
    | error message => cases h
    | ok =>
      have htouches : Touches (vaultKeySlot keyId) w w₁ := by
        have hstep := @writeBlobFrom_touches platform (vaultKeySlot keyId) data
          (CONFLICT_RETRIES + 1) 0 (randomNonce w).2
        rw [show writeBlobFrom _ _ _ _ _ = _ from hblob] at hstep
        exact ⟨hstep.others, hstep.unlocked⟩
      obtain ⟨version, hstored⟩ := writeBlobFrom_ok (CONFLICT_RETRIES + 1) (congrArg Prod.fst hblob)
      rw [show writeBlobFrom _ _ _ _ _ = _ from hblob] at hstored
      dsimp only at h ⊢
      rw [bind_apply, get_apply] at h ⊢
      dsimp only at h ⊢
      rw [bind_apply] at h ⊢
      cases hindex : writeIndex N (appendEntry (passwordEntry keyId name w₁.now)) w₁ with
      | mk result w₂ =>
        rw [hindex] at h
        cases result with
        | failed failure => cases h
        | ok =>
          cases h
          obtain ⟨session, hwrote⟩ := writeIndex_ok (appendEntry_changed _)
            (htouches.linked (.inl hunlocked)) (congrArg Prod.fst hindex)
          rw [hindex] at hwrote
          refine ⟨session, rfl, hid, by omega, ⟨(randomNonce w).1, version, ?_⟩, w₁, hwrote⟩
          rw [show (passwordEntry keyId name w₁.now).keyId = keyId from rfl, hdata]
          exact (hwrote.others _ (vaultKeySlot_ne keyId)).trans hstored

/-! ## The password is read -/

theorem roundTrips_keys {dateParses : Text → Bool} {index : VaultIndex}
    (h : indexRoundTrips N dateParses index = true) : (index.keys.map (·.keyId)).Nodup := by
  obtain ⟨result, hresult⟩ := Option.isSome_iff_exists.mp h
  rw [← parseVaultIndex_keys hresult]
  exact (parseVaultIndex_valid hresult).once

theorem find_last {entries : List VaultKeyEntry} (h : ((entries ++ [entry]).map (·.keyId)).Nodup) :
    (entries ++ [entry]).find? (·.keyId = entry.keyId) = some entry := by
  have hnew : ∀ other ∈ entries, other.keyId ≠ entry.keyId := fun other hother heq => by
    rw [List.map_append] at h
    exact (List.nodup_append.mp h).2.2 _ (List.mem_map_of_mem hother) _
      (List.mem_map_of_mem (List.mem_singleton_self entry)) heq
  rw [List.find?_append, List.find?_eq_none.mpr fun other hother => by simp [hnew other hother]]
  simp

/-- The session at the end of the write lists the entry. -/
theorem Wrote.knows {unlocked session : Unlocked platform}
    {w w' : World platform} (h : Wrote N unlocked (appendEntry entry) w w' session) :
    Knows unlocked.dekKey unlocked.header.vaultId entry session := by
  refine ⟨h.dekKey, h.vaultId, ?_⟩
  obtain ⟨index, hindex⟩ := h.mutated
  have hkeys := roundTrips_keys h.roundTrips
  injection hindex with hindex
  rw [← hindex] at hkeys ⊢
  exact find_last hkeys

/-- So does a session that opens the vault again. -/
theorem Wrote.knows_again {unlocked session again : Unlocked platform}
    {w w' : World platform} (h : Wrote N unlocked (appendEntry entry) w w' session)
    (hopen : openVault N unlocked.dekKey w'.slots = some again) :
    Knows unlocked.dekKey unlocked.header.vaultId entry again := by
  obtain ⟨version, hslot⟩ := h.header
  obtain ⟨nonce, hsealed⟩ := h.sealed
  unfold openVault at hopen
  rw [hslot] at hopen
  have hread : (readHeader N version (serializeVaultHeader N session.header) : HeaderResult platform) =
      .ok session.header version session.valid := by
    unfold readHeader
    split
    · next header hheader =>
      rw [parseVaultHeader_serialize session.valid] at hheader
      cases hheader
      rfl
    · next hnone =>
      rw [parseVaultHeader_serialize session.valid] at hnone
      cases hnone
  dsimp only at hopen
  rw [hread] at hopen
  obtain ⟨index, hindex, rfl⟩ := Option.map_eq_some_iff.mp hopen
  rw [← h.dekKey, openIndex_sealIndex _ _ _ _ hsealed] at hindex
  have hfound := h.knows.listed
  rw [← parseVaultIndex_keys hindex] at hfound
  exact ⟨rfl, h.vaultId, hfound⟩

/-- The next call of the transport is answered, and no lock comes before. -/
structure Answered (w : World platform) : Prop where
  fine : ∃ version, w.turn.weather = .fine version
  unlocked : w.turn.locks = false

theorem pull_answered {slot data : Text} {version : Nat}(h : Answered w)
    (hslot : w.slots slot = some ⟨version, data⟩) :
    (pull slot w).1 = .ok (.ok version data) ∧ (pull slot w).2.generation = w.generation := by
  obtain ⟨fresh, hfine⟩ := h.fine
  have hcall : transportPull slot w = (.ok (.ok version data), w.pass) := by
    unfold transportPull
    rw [hfine]
    dsimp only
    rw [hslot]
  have hpull : pull slot w = (.ok (.ok version data), w.pass) := by
    unfold pull reverify
    dsimp only
    rw [hcall]
    rfl
  rw [hpull]
  refine ⟨rfl, ?_⟩
  show w.pass.generation = w.generation
  unfold World.pass
  rw [h.unlocked]
  rfl

variable {password : Text}

/-- What is answered for a password that has been added: its text as it is read back. -/
theorem decryptKey_added {unlocked session later : Unlocked platform} {w' w : World platform}
    (hadded : Added N unlocked password entry w' session) (hslots : w.slots = w'.slots)
    (hlater : w.unlocked = some later)
    (hknows : Knows unlocked.dekKey unlocked.header.vaultId entry later) (hanswered : Answered w) :
    (decryptKey N entry.keyId w).1 = .password (stripMark (repaired password)) := by
  obtain ⟨nonce, version, hblob⟩ := hadded.blob
  rw [← hslots] at hblob
  obtain ⟨hpulled, hgeneration⟩ := pull_answered hanswered hblob
  have hparse : parseVaultKeyBlob N (serializeVaultKeyBlob N (sealKeyBlob platform.cipher
      unlocked.dekKey unlocked.header.vaultId entry.keyId (utf8 password) nonce none))
      (some ⟨later.header.vaultId, entry.keyId⟩) = some (sealKeyBlob platform.cipher
      unlocked.dekKey unlocked.header.vaultId entry.keyId (utf8 password) nonce none) := by
    refine parseVaultKeyBlob_serialize
      (sealKeyBlob_valid _ _ _ unlocked.valid.vaultId hadded.keyId hadded.notEmpty) ?_
    rintro name hname
    cases hname
    rw [hknows.vaultId]
    rfl
  unfold decryptKey
  rw [bind_apply, get_apply]
  dsimp only
  rw [hlater]
  dsimp only
  rw [hknows.listed]
  dsimp only
  rw [bind_apply, hpulled]
  dsimp only
  rw [hparse]
  dsimp only
  rw [bind_apply, get_apply]
  dsimp only
  rw [if_neg (not_not.mpr hgeneration.symm)]
  show openSecret later entry _ = _
  unfold openSecret
  rw [hknows.dekKey, openKeyBlob_sealKeyBlob]
  dsimp only
  rw [Js.fromUtf8_utf8]
  dsimp only
  rw [if_pos hadded.type]

/-- The vault is unlocked as `addPassword` has left it, or opened again from its slots. -/
def Reads (N : Type) [JsInteger N] (unlocked : Unlocked platform) (w' w : World platform) : Prop :=
  w.slots = w'.slots ∧ ∃ session, w.unlocked = some session ∧
    (w'.unlocked = some session ∨ openVault N unlocked.dekKey w'.slots = some session)

/-- A password comes back exactly when every half of a surrogate pair in it stands in its pair and
it does not begin with U+FEFF. -/
theorem password_comes_back {password name : Text}
    {random : {bytes : Bytes // bytes.length = 16}} {entry : VaultKeyEntry}
    {w w' later : World platform} {unlocked : Unlocked platform}
    (hunlocked : w.unlocked = some unlocked)
    (hok : addPassword N password name random w = (.ok entry, w'))
    (hlater : Reads N unlocked w' later) (hanswered : Answered later) :
    (decryptKey N entry.keyId later).1 = .password password ↔
      wellFormed password = true ∧ stripMark password = password := by
  obtain ⟨session, hadded⟩ := addPassword_ok hunlocked (congrArg Prod.fst hok)
  rw [hok] at hadded
  obtain ⟨hslots, again, hagain, hsession⟩ := hlater
  obtain ⟨before, hwrote⟩ := hadded.wrote
  have hknows : Knows unlocked.dekKey unlocked.header.vaultId entry again := by
    rcases hsession with hsession | hopen
    · rcases hwrote.linked with hlinked | hnone
      · obtain rfl : session = again := Option.some.inj (hlinked.symm.trans hsession)
        exact hwrote.knows
      · rw [hnone] at hsession
        cases hsession
    · exact hwrote.knows_again hopen
  rw [decryptKey_added hadded hslots hagain hknows hanswered, VaultSecretResult.password.injEq,
    ← Js.fromUtf8_utf8_iff, Js.fromUtf8_utf8, Option.some.injEq]

/-- A cipher that only appends a tag. -/
def tagging : Cipher Unit where
  encrypt := fun _ _ _ plaintext => plaintext ++ List.replicate 16 0
  decrypt := fun _ _ _ ct => some (ct.take (ct.length - 16))
  encrypt_length := fun _ _ _ plaintext => by simp
  decrypt_encrypt := fun _ _ _ plaintext => by simp

def tagged : Platform := ⟨Unit, tagging, fun text => text.length = 24⟩

def zeroNonce : Nonce := ⟨List.replicate 12 0, rfl⟩

def newYear : IsoTime tagged := ⟨ascii "2026-01-01T00:00:00.000Z", by decide⟩

def zeroId : Text := ascii "AAAAAAAAAAAAAAAAAAAAAA"

def emptyIndex : VaultIndex := ⟨[], .empty, none⟩

def zeroBox : VaultSealed := («seal» tagging () (List.replicate 32 0) [] zeroNonce).1

def emptyHeader : VaultHeader where
  vaultId := zeroId
  kdf := ⟨65536, 3, 1, zeroId⟩
  wrappedDek := zeroBox
  check := zeroBox
  index := (sealIndex tagging () Js.Numeral zeroId emptyIndex zeroNonce).1
  epoch := 1
  updatedAt := newYear.1

theorem emptyHeader_valid : emptyHeader.Valid tagged.dateParses where
  vaultId := by decide
  kdf := ⟨by decide, by decide, by decide, by decide⟩
  wrappedDek := («seal» tagging () (List.replicate 32 0) [] zeroNonce).2
  check := isSealed_mono (Nat.zero_le _) («seal» tagging () (List.replicate 32 0) [] zeroNonce).2
  index := isSealed_mono (Nat.zero_le _) (sealIndex tagging () Js.Numeral zeroId emptyIndex zeroNonce).2
  epoch := by decide
  updatedAt := newYear.2

def emptyVault : Unlocked tagged := ⟨emptyHeader, 1, (), emptyIndex, emptyHeader_valid⟩

/-- An unlocked vault without keys, every call of which is answered. -/
def emptyWorld : World tagged where
  unlocked := some emptyVault
  generation := 0
  now := newYear
  slots := fun slot =>
    if slot = VAULT_HEADER_SLOT then some ⟨1, serializeVaultHeader Js.Numeral emptyHeader⟩ else none
  turns := []
  nonces := fun _ => zeroNonce
  drawn := 0

def onesId : {bytes : Bytes // bytes.length = 16} := ⟨List.replicate 16 1, rfl⟩

/-- The password is added to the empty vault. -/
def added (password : Text) : VaultAddPasswordResult × World tagged :=
  addPassword Js.Numeral password (ascii "nas") onesId emptyWorld

def nasEntry : VaultKeyEntry := passwordEntry (toB64url onesId.1) (ascii "nas") newYear

theorem added_hunter : (added (ascii "hunter2")).1 = .ok nasEntry ∧
    (added (ascii "hunter2")).2.unlocked.isSome = true ∧
    (added (ascii "hunter2")).2.turns.isEmpty = true := by
  decide +kernel

/-- U+FEFF and a letter: only the letter comes back. -/
theorem added_marked : (added [0xfeff, 0x61]).1 = .ok nasEntry ∧
    (added [0xfeff, 0x61]).2.unlocked.isSome = true ∧
    (added [0xfeff, 0x61]).2.turns.isEmpty = true ∧
    (decryptKey Js.Numeral nasEntry.keyId (added [0xfeff, 0x61]).2).1 = .password (ascii "a") := by
  decide +kernel

theorem added_ok (h : (added password).1 = .ok entry) :
    addPassword Js.Numeral password (ascii "nas") onesId emptyWorld =
      (.ok entry, (added password).2) := by
  show added password = _
  exact Prod.ext h rfl

theorem added_reads (h : (added password).2.unlocked.isSome = true) :
    Reads Js.Numeral emptyVault (added password).2 (added password).2 := by
  obtain ⟨session, hsession⟩ := Option.isSome_iff_exists.mp h
  exact ⟨rfl, session, hsession, .inl hsession⟩

theorem answered_calm(h : w.turns.isEmpty = true) : Answered w := by
  have hturn : w.turn = ⟨.fine 1, false, false, w.now⟩ := by
    rw [World.turn, List.isEmpty_iff.mp h]
    rfl
  exact ⟨⟨1, by rw [hturn]⟩, by rw [hturn]⟩

theorem password_comes_back_hunter :
    (decryptKey Js.Numeral nasEntry.keyId (added (ascii "hunter2")).2).1 =
      .password (ascii "hunter2") :=
  have comes := password_comes_back (rfl : emptyWorld.unlocked = some emptyVault)
    (added_ok added_hunter.1) (added_reads added_hunter.2.1) (answered_calm added_hunter.2.2)
  comes.mpr ⟨by decide, by decide⟩

/-- A password that is accepted and does not come back. -/
theorem password_loses_mark : ¬∀ (password name : Text)
    (random : {bytes : Bytes // bytes.length = 16}) (entry : VaultKeyEntry)
    (w w' later : World tagged) (unlocked : Unlocked tagged), w.unlocked = some unlocked →
    addPassword Js.Numeral password name random w = (.ok entry, w') →
    Reads Js.Numeral unlocked w' later → Answered later →
    (decryptKey Js.Numeral entry.keyId later).1 = .password password := by
  intro h
  obtain ⟨hok, hunlocked, hturns, hread⟩ := added_marked
  have hclaim := h [0xfeff, 0x61] (ascii "nas") onesId nasEntry emptyWorld _ _ emptyVault rfl
    (added_ok hok) (added_reads hunlocked) (answered_calm hturns)
  have hsame := VaultSecretResult.password.inj (hread.symm.trans hclaim)
  exact absurd hsame (by decide)

end PocketShell.KeyVault.Store
