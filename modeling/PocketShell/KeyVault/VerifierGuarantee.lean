import PocketShell.KeyVault.Verifier

/-!
# What a change of passphrase owes the server

The header and the server's verifier change in two steps. The proof for the second step is one
field, and neither a held proof nor the generation is looked at before it is written.

* `InStep`, `Owed`: the server has the AUTH of the passphrase that opens the header, or one retry
  will give it that AUTH.
* `Careful`: a change lands its header while no proof is held, and it does not keep a proof after a
  lock.
* `Inv`: between two steps of an operation, and `Left`: after a lock.
-/

namespace PocketShell.KeyVault

variable {P K M E A I : Type} (keys : KeyDerivation P K M E A)

/-! ## 1. The verifier and the header -/

/-- The passphrase opens the stored header. -/
def Server.Opens (server : Server K E A I) (passphrase : P) : Prop :=
  keys.kekOf passphrase server.header.kdf = server.header.kek

/-- The server's AUTH is the one of the passphrase that opens the header. -/
structure InStep (server : Server K E A I) : Prop where
  opens : ∃ passphrase, server.Opens keys passphrase
  auth : ∀ passphrase, server.Opens keys passphrase →
    server.auth = some (keys.authOf passphrase server.header.kdf)

/-- The held proof leads from the server's AUTH to the one of the passphrase that opens the
header. -/
structure Owed (server : Server K E A I) (pending : PendingVerifier A) : Prop where
  opens : ∃ passphrase, server.Opens keys passphrase
  auth : ∀ passphrase, server.Opens keys passphrase →
    pending.auth = keys.authOf passphrase server.header.kdf
  proof : server.auth = some pending.currentAuth

/-- What holds whenever no change is publishing. -/
def Settled (s : State P K E A I) : Prop :=
  InStep keys s.server ∧ s.pendingVerifier = none ∨
    ∃ pending, s.pendingVerifier = some pending ∧ Owed keys s.server pending

/-- Two passphrases that open one header have one AUTH. -/
theorem Server.Opens.auth_unique {server : Server K E A I} {p p' : P}
    (h : server.Opens keys p) (h' : server.Opens keys p') :
    keys.authOf p server.header.kdf = keys.authOf p' server.header.kdf := by
  unfold Server.Opens KeyDerivation.kekOf at h h'
  have hmaster := keys.kek_injective _ _ (h.trans h'.symm)
  unfold KeyDerivation.authOf
  rw [hmaster]

theorem Settled.auth_some {s : State P K E A I} (h : Settled keys s) :
    ∃ auth, s.server.auth = some auth := by
  rcases h with ⟨hstep, _⟩ | ⟨pending, _, howed⟩
  · obtain ⟨p, hp⟩ := hstep.opens
    exact ⟨_, hstep.auth p hp⟩
  · exact ⟨_, howed.proof⟩

/-! ## 2. Publishing -/

/-- The server takes the update. -/
def Server.Accepts (server : Server K E A I) (publish : Publish A) : Prop :=
  publish.epoch = server.epoch ∧ (server.auth = none ∨ server.auth = publish.currentAuth)

/-- The update is sent once more, with the server's epoch. -/
def Server.Adopts (server : Server K E A I) (publish : Publish A) : Prop :=
  publish.epoch ≠ server.epoch ∧ publish.adopted = false

variable {publish : Publish A}

theorem publishReply_accepted [DecidableEq A] {s : State P K E A I} (h : s.server.Accepts publish) :
    s.publishReply publish .reached =
      ({ s with server := { s.server with auth := some publish.auth } }, .ok .ok) := by
  obtain ⟨hepoch, hauth⟩ := h
  unfold State.publishReply Server.setVerifier
  simp [hepoch, hauth]

theorem publishReply_adopted [DecidableEq A] {s : State P K E A I} (h : s.server.Adopts publish) :
    s.publishReply publish .reached =
      (s, .error { publish with epoch := s.server.epoch, adopted := true }) := by
  obtain ⟨hepoch, hadopted⟩ := h
  unfold State.publishReply Server.setVerifier
  simp [hepoch, hadopted]

/-- A publish is accepted, asked once more, or leaves the server as it is. -/
theorem publishReply_cases [DecidableEq A] (s : State P K E A I) (publish : Publish A) (reply : Reply K) :
    (reply = .reached ∧ s.server.Accepts publish ∧ s.publishReply publish reply =
      ({ s with server := { s.server with auth := some publish.auth } }, .ok .ok)) ∨
    (reply = .reached ∧ s.server.Adopts publish ∧ s.publishReply publish reply =
      (s, .error { publish with epoch := s.server.epoch, adopted := true })) ∨
    ∃ result, result ≠ .ok ∧ s.publishReply publish reply = (s, .ok result) ∧
      ¬ (reply = .reached ∧ (s.server.Accepts publish ∨ s.server.Adopts publish)) := by
  by_cases hreached : reply = .reached
  · subst hreached
    by_cases haccepts : s.server.Accepts publish
    · exact .inl ⟨rfl, haccepts, publishReply_accepted haccepts⟩
    by_cases hadopts : s.server.Adopts publish
    · exact .inr (.inl ⟨rfl, hadopts, publishReply_adopted hadopts⟩)
    refine .inr (.inr ?_)
    by_cases hepoch : publish.epoch = s.server.epoch
    · refine ⟨.refused, by simp, ?_, by simp [haccepts, hadopts]⟩
      have hauth : ¬ (s.server.auth = none ∨ s.server.auth = publish.currentAuth) :=
        fun h => haccepts ⟨hepoch, h⟩
      unfold State.publishReply Server.setVerifier
      simp [hepoch, hauth]
    · refine ⟨.epochMismatch s.server.epoch, by simp, ?_, by simp [haccepts, hadopts]⟩
      have hadopted : publish.adopted = true := by
        cases hb : publish.adopted with
        | true => rfl
        | false => exact absurd ⟨hepoch, hb⟩ hadopts
      unfold State.publishReply Server.setVerifier
      simp [hepoch, hadopted]
  · refine .inr (.inr ⟨.unavailable, by simp, ?_, by simp [hreached]⟩)
    unfold State.publishReply
    cases reply <;> first | rfl | exact absurd rfl hreached

/-! ## 3. The invariant -/

namespace Server

/-- The vault as the server has it now. -/
def snapshot (server : Server K E A I) : Unlocked K E I := ⟨server.header, server.version⟩

end Server

/-- The publish is the one of a held proof. -/
def Repairs (s : State P K E A I) (publish : Publish A) : Prop :=
  ∃ pending, s.pendingVerifier = some pending ∧ publish.auth = pending.auth ∧
    publish.currentAuth = some pending.currentAuth

/-- What an operation on its way knows. A conflict cannot happen, there is one device. -/
def Phase.Fits (s : State P K E A I) : Phase P K E A I → Prop
  | .changeDeriving change =>
    change.generation = s.generation ∧ change.state = s.server.snapshot ∧
      change.oldKdf = s.server.header.kdf
  | .changePushing change header =>
    change.generation = s.generation ∧ change.state = s.server.snapshot ∧
      change.oldKdf = s.server.header.kdf ∧ s.server.Opens keys change.current ∧
      header.kdf = change.kdf ∧ header.kek = keys.kekOf change.next change.kdf
  | .changeRebasing _ => False
  | .changePublishing change publish =>
    s.pendingVerifier = none ∧ publish.auth = keys.authOf change.next change.kdf ∧
      publish.currentAuth = some (keys.authOf change.current change.oldKdf) ∧
      s.server.auth = some (keys.authOf change.current change.oldKdf) ∧
      s.server.header.kdf = change.kdf ∧
      s.server.header.kek = keys.kekOf change.next change.kdf
  | .retrying publish => Repairs s publish
  | .unlockStatus _ => True
  | .unlockVerifying _ _ => True
  | .unlockPulling _ _ => True
  | .unlockVerdict _ opened => opened = s.server.snapshot
  | .unlockPublishing _ opened publish repairs =>
    opened = s.server.snapshot ∧
      if repairs then Repairs s publish else publish.currentAuth = none
  | .unlockOpening _ opened => opened = s.server.snapshot
  | .indexPushing write header =>
    write.generation = s.generation ∧ write.state = s.server.snapshot ∧
      header.kdf = s.server.header.kdf ∧ header.kek = s.server.header.kek
  | .indexRebasing _ => False

/-- A change that waits for the verifier. -/
def Phase.Publishes : Phase P K E A I → Prop
  | .changePublishing _ _ => True
  | _ => False

structure Inv (s : State P K E A I) : Prop where
  queue : ∀ job ∈ s.queue, job.generation = s.generation
  memory : ∀ state, s.unlocked = some state → state = s.server.snapshot
  fits : ∀ phase, s.running = some phase → phase.Fits keys s
  settled : (∀ phase, s.running = some phase → ¬ phase.Publishes) → Settled keys s

/-- A state that no change is publishing in. -/
structure Calm (s : State P K E A I) : Prop where
  queue : ∀ job ∈ s.queue, job.generation = s.generation
  memory : ∀ state, s.unlocked = some state → state = s.server.snapshot
  settled : Settled keys s

variable {keys} {s : State P K E A I}

theorem Inv.calm (h : Inv keys s)
    (hrun : ∀ phase, s.running = some phase → ¬ phase.Publishes) : Calm keys s :=
  ⟨h.queue, h.memory, h.settled hrun⟩

theorem Calm.ended (h : Calm keys s) : Inv keys s.ended :=
  ⟨h.queue, h.memory, fun _ hrun => absurd hrun (by simp [State.ended]), fun _ => h.settled⟩

theorem Calm.wait (h : Calm keys s) {phase : Phase P K E A I} (hfits : phase.Fits keys s) :
    Inv keys (s.wait phase) := by
  refine ⟨h.queue, h.memory, ?_, fun _ => h.settled⟩
  intro phase' hrun
  obtain rfl : phase = phase' := Option.some.inj hrun
  exact hfits

/-! ## 4. One step of a change -/

theorem keep_current {generation : Nat} (h : generation = s.generation)
    (state : Unlocked K E I) : s.keep generation state = { s with unlocked := some state } := by
  unfold State.keep
  rw [if_pos h]

theorem Calm.changeLoop (h : Calm keys s) (change : Change P K E I)
    (hgen : change.generation = s.generation) (hstate : change.state = s.server.snapshot)
    (hkdf : change.oldKdf = s.server.header.kdf) (hopens : s.server.Opens keys change.current) :
    Inv keys (s.changeLoop keys change) := by
  unfold State.changeLoop
  by_cases hattempt : CONFLICT_RETRIES < change.attempt
  · rw [if_pos hattempt]
    exact h.ended
  rw [if_neg hattempt, if_neg (by simp [hgen])]
  by_cases hcheck : change.state.header.check ≠ change.verifiedCheck
  · rw [if_pos hcheck]
    exact h.ended
  rw [if_neg hcheck]
  have hcalm : Calm keys { s with nextCheck := s.nextCheck + 1 } :=
    ⟨h.queue, h.memory, h.settled⟩
  exact hcalm.wait ⟨hgen, hstate, hkdf, hopens, rfl, rfl⟩

theorem Calm.changeDerived [DecidableEq E] (h : Calm keys s) (change : Change P K E I)
    (hfits : (Phase.changeDeriving change : Phase P K E A I).Fits keys s) :
    Inv keys (s.changeDerived keys change) := by
  obtain ⟨hgen, hstate, hkdf⟩ := hfits
  unfold State.changeDerived
  by_cases hkek : keys.kekOf change.current change.oldKdf = change.state.header.kek
  · rw [if_pos hkek]
    refine h.changeLoop change hgen hstate hkdf ?_
    rw [hkdf, hstate] at hkek
    exact hkek
  · rw [if_neg hkek]
    exact h.ended

/-- With no proof held, the header lands and the verifier is asked for with the server's AUTH. -/
theorem Calm.changePushed (h : Calm keys s) (change : Change P K E I) (header : Header K E I)
    (reply : Reply K)
    (hfits : (Phase.changePushing change header : Phase P K E A I).Fits keys s)
    (hcareful : reply = .reached → change.state.version = s.server.version →
      s.pendingVerifier = none) :
    Inv keys (s.changePushed keys change header reply) := by
  obtain ⟨hgen, hstate, hkdf, hopens, hnewKdf, hnewKek⟩ := hfits
  by_cases hreached : reply = .reached
  · subst hreached
    have hversion : change.state.version = s.server.version := by rw [hstate]; rfl
    have hnone := hcareful rfl hversion
    have hauth : s.server.auth = some (keys.authOf change.current change.oldKdf) := by
      rcases h.settled with ⟨hstep, _⟩ | ⟨pending, hsome, _⟩
      · rw [hkdf]
        exact hstep.auth _ hopens
      · rw [hnone] at hsome
        cases hsome
    unfold State.changePushed
    simp only [if_pos hversion]
    rw [keep_current (by exact hgen)]
    refine ⟨h.queue, ?_, ?_, ?_⟩
    · intro state hstate'
      obtain rfl := Option.some.inj hstate'
      rfl
    · intro phase hrun
      obtain rfl := Option.some.inj hrun
      exact ⟨hnone, rfl, rfl, hauth, hnewKdf, hnewKek⟩
    · intro hrun
      exact absurd trivial (hrun _ rfl)
  · have hended : s.changePushed keys change header reply = s.ended := by
      unfold State.changePushed
      cases reply <;> first | rfl | exact absurd rfl hreached
    rw [hended]
    exact h.ended

/-- The publish of a change ends in step, or with a proof that leads from the old AUTH to the new
one. -/
theorem Inv.changePublishing [DecidableEq E] [DecidableEq A] (h : Inv keys s) (change : Change P K E I)
    (publish : Publish A) (reply : Reply K) (hrun : s.running = some (.changePublishing change publish)) :
    Inv keys (s.reply keys reply) := by
  obtain ⟨hnone, hauth, hcurrent, hserver, hkdf, hkek⟩ := h.fits _ hrun
  have hopens : s.server.Opens keys change.next := by
    unfold Server.Opens
    rw [hkdf, hkek]
  have hnew : ∀ p, s.server.Opens keys p →
      keys.authOf p s.server.header.kdf = keys.authOf change.next change.kdf := by
    intro p hp
    rw [hp.auth_unique keys hopens, hkdf]
  unfold State.reply
  simp only [hrun]
  rcases publishReply_cases s publish reply with
    ⟨_, _, heq⟩ | ⟨_, _, heq⟩ | ⟨result, hresult, heq, _⟩
  · rw [heq]
    refine Calm.ended ⟨h.queue, h.memory, .inl ⟨⟨⟨change.next, hopens⟩, ?_⟩, rfl⟩⟩
    intro p hp
    show some publish.auth = _
    rw [hauth]
    exact congrArg some (hnew p hp).symm
  · rw [heq]
    refine ⟨h.queue, h.memory, ?_, ?_⟩
    · intro phase hphase
      obtain rfl := Option.some.inj hphase
      exact ⟨hnone, hauth, hcurrent, hserver, hkdf, hkek⟩
    · intro hphase
      exact absurd trivial (hphase _ rfl)
  · rw [heq]
    refine Calm.ended ⟨h.queue, h.memory, .inr ⟨_, if_neg hresult, ⟨change.next, hopens⟩, ?_, ?_⟩⟩
    · intro p hp
      exact (hnew p hp).symm
    · exact hserver

/-! ## 5. Retrying and unlocking -/

variable {pending : PendingVerifier A}

/-- A held proof that the server takes brings it in step. -/
theorem Owed.accepted {server : Server K E A I}
    (h : Owed keys server pending) : InStep keys { server with auth := some pending.auth } := by
  refine ⟨h.opens, ?_⟩
  intro p hp
  exact congrArg some (h.auth p hp)

variable {result : SetVerifierResult}

/-- The end of a publish of the held proof. -/
theorem Calm.settleRetry [DecidableEq A] (h : Calm keys s) (hrepairs : Repairs s publish)
    {reply : Reply K} {s' : State P K E A I}
    (hreply : s.publishReply publish reply = (s', .ok result)) :
    Calm keys (s'.settleRetry result) ∧
      (s'.settleRetry result).server.snapshot = s.server.snapshot := by
  obtain ⟨pending, hsome, hauth, hcurrent⟩ := hrepairs
  rcases publishReply_cases s publish reply with
    ⟨_, _, heq⟩ | ⟨_, _, heq⟩ | ⟨result', hresult, heq, _⟩
  · rw [heq] at hreply
    obtain ⟨rfl, hok⟩ := Prod.mk.inj hreply
    obtain rfl : SetVerifierResult.ok = result := by simpa using hok
    refine ⟨⟨h.queue, h.memory, .inl ⟨?_, rfl⟩⟩, rfl⟩
    rcases h.settled with ⟨_, hnone⟩ | ⟨pending', hsome', howed⟩
    · rw [hsome] at hnone
      cases hnone
    · obtain rfl : pending = pending' := Option.some.inj (hsome.symm.trans hsome')
      show InStep keys { s.server with auth := some publish.auth }
      rw [hauth]
      exact howed.accepted
  · rw [heq] at hreply
    cases (Prod.mk.inj hreply).2
  · rw [heq] at hreply
    obtain ⟨rfl, hok⟩ := Prod.mk.inj hreply
    obtain rfl : result' = result := by simpa using hok
    have hsame : s.settleRetry result' = s := by
      unfold State.settleRetry
      rw [if_neg hresult]
    rw [hsame]
    exact ⟨h, rfl⟩

theorem Calm.retryStart (h : Calm keys s) : Inv keys s.retryStart := by
  unfold State.retryStart
  cases hpending : s.pendingVerifier with
  | none => exact h.ended
  | some pending => exact h.wait ⟨pending, hpending, rfl, rfl⟩

theorem Calm.unlockChecked [DecidableEq E] [DecidableEq A] (h : Calm keys s) (unlock : Unlock P)
    (verdict : VerifyResult) :
    Inv keys (s.unlockChecked keys unlock s.server.snapshot verdict) := by
  have hopening : Inv keys (s.wait (.unlockOpening unlock s.server.snapshot)) := h.wait rfl
  unfold State.unlockChecked
  dsimp only
  split
  · exact h.ended
  · split
    · exact h.wait ⟨rfl, rfl⟩
    · next pending hpending =>
      split
      · exact h.wait ⟨rfl, pending, hpending, rfl, rfl⟩
      · exact hopening
    · exact hopening

/-- A publish that is sent once more. -/
theorem publishReply_error [DecidableEq A] {publish publish' : Publish A} {reply : Reply K}
    {s' : State P K E A I} (h : s.publishReply publish reply = (s', .error publish')) :
    s' = s ∧ publish'.auth = publish.auth ∧ publish'.currentAuth = publish.currentAuth := by
  rcases publishReply_cases s publish reply with
    ⟨_, _, heq⟩ | ⟨_, _, heq⟩ | ⟨result, _, heq, _⟩
  · rw [heq] at h
    cases (Prod.mk.inj h).2
  · rw [heq] at h
    obtain ⟨rfl, hpublish⟩ := Prod.mk.inj h
    obtain rfl := Except.error.inj hpublish
    exact ⟨rfl, rfl, rfl⟩
  · rw [heq] at h
    cases (Prod.mk.inj h).2

/-- Without a proof the server, which has a verifier, stays as it is. -/
theorem Calm.unproved [DecidableEq A] (h : Calm keys s) (hproof : publish.currentAuth = none)
    {reply : Reply K} {s' : State P K E A I}
    (hreply : s.publishReply publish reply = (s', .ok result)) : s' = s := by
  rcases publishReply_cases s publish reply with
    ⟨_, haccepts, _⟩ | ⟨_, _, heq⟩ | ⟨result', _, heq, _⟩
  · obtain ⟨auth, hauth⟩ := h.settled.auth_some
    have hnone := haccepts.2
    simp [hauth, hproof] at hnone
  · rw [heq] at hreply
    cases (Prod.mk.inj hreply).2
  · rw [heq] at hreply
    exact (Prod.mk.inj hreply).1.symm

theorem Calm.unlockPublished [DecidableEq E] [DecidableEq A] (h : Calm keys s) {unlock : Unlock P}
    {opened : Unlocked K E I}
    {repairs : Bool} {reply : Reply K}
    (hrun : s.running = some (.unlockPublishing unlock opened publish repairs))
    (hfits : (Phase.unlockPublishing unlock opened publish repairs : Phase P K E A I).Fits keys s) :
    Inv keys (s.reply keys reply) := by
  obtain ⟨hopened, hpublish⟩ := hfits
  unfold State.reply
  simp only [hrun]
  rcases hreply : s.publishReply publish reply with ⟨s', publish' | result⟩
  · obtain ⟨rfl, hauth, hcurrent⟩ := publishReply_error hreply
    refine h.wait ⟨hopened, ?_⟩
    cases repairs with
    | true =>
      obtain ⟨pending, hsome, hpublishAuth, hpublishCurrent⟩ := hpublish
      exact ⟨pending, hsome, hauth.trans hpublishAuth, hcurrent.trans hpublishCurrent⟩
    | false => exact hcurrent.trans hpublish
  · cases repairs with
    | true =>
      obtain ⟨hsettled, hsame⟩ := h.settleRetry hpublish hreply
      exact hsettled.wait (hopened.trans hsame.symm)
    | false =>
      obtain rfl := h.unproved hpublish hreply
      exact h.wait hopened

theorem Calm.install (h : Calm keys s) (unlock : Unlock P) :
    Inv keys (s.install unlock s.server.snapshot) := by
  unfold State.install
  split
  · exact h.ended
  · refine Calm.ended ⟨h.queue, ?_, h.settled⟩
    intro state hstate
    exact (Option.some.inj hstate).symm

/-! ## 6. The index -/

/-- A header that opens with the same key. -/
theorem Settled.pushed (h : Settled keys s) {header : Header K E I}
    (hkdf : header.kdf = s.server.header.kdf) (hkek : header.kek = s.server.header.kek) :
    Settled keys { s with server := s.server.push header } := by
  have hopens : ∀ p, (s.server.push header).Opens keys p ↔ s.server.Opens keys p := by
    intro p
    unfold Server.Opens Server.push
    rw [hkdf, hkek]
  rcases h with ⟨hstep, hnone⟩ | ⟨pending, hsome, howed⟩
  · refine .inl ⟨⟨?_, ?_⟩, hnone⟩
    · obtain ⟨p, hp⟩ := hstep.opens
      exact ⟨p, (hopens p).mpr hp⟩
    · intro p hp
      show s.server.auth = some (keys.authOf p header.kdf)
      rw [hkdf]
      exact hstep.auth p ((hopens p).mp hp)
  · refine .inr ⟨pending, hsome, ⟨?_, ?_, howed.proof⟩⟩
    · obtain ⟨p, hp⟩ := howed.opens
      exact ⟨p, (hopens p).mpr hp⟩
    · intro p hp
      show pending.auth = keys.authOf p header.kdf
      rw [hkdf]
      exact howed.auth p ((hopens p).mp hp)

theorem Calm.writeLoop (h : Calm keys s) (write : IndexWrite K E I)
    (hgen : write.generation = s.generation) (hstate : write.state = s.server.snapshot) :
    Inv keys (s.writeLoop write) := by
  unfold State.writeLoop
  split
  · exact h.ended
  split
  · exact h.ended
  split
  · exact h.ended
  · refine h.wait ⟨hgen, hstate, ?_, ?_⟩
    · rw [hstate]
      rfl
    · rw [hstate]
      rfl

theorem Calm.indexPushed (h : Calm keys s) (write : IndexWrite K E I) (header : Header K E I)
    (reply : Reply K)
    (hfits : (Phase.indexPushing write header : Phase P K E A I).Fits keys s) :
    Inv keys (s.indexPushed write header reply) := by
  obtain ⟨hgen, hstate, hkdf, hkek⟩ := hfits
  unfold State.indexPushed
  split
  · have hversion : write.state.version = s.server.version := by rw [hstate]; rfl
    rw [if_pos hversion, keep_current (by exact hgen)]
    refine Calm.ended ⟨h.queue, ?_, h.settled.pushed hkdf hkek⟩
    intro state hstate'
    exact (Option.some.inj hstate').symm
  · exact h.ended

/-! ## 7. Steps without a lock -/

theorem Inv.next (h : Inv keys s) (backoff : Bool) : Inv keys (s.next backoff) := by
  unfold State.next
  split
  · next job rest hrun hqueue =>
    have hcalm : Calm keys { s with queue := rest } := by
      refine ⟨?_, h.memory, h.settled (by simp [hrun])⟩
      intro job' hjob'
      exact h.queue job' (by rw [hqueue]; exact List.mem_cons_of_mem _ hjob')
    have hidle : Inv keys { s with queue := rest } :=
      ⟨hcalm.queue, hcalm.memory, fun phase hphase => absurd hphase (by simp [hrun]),
        fun _ => hcalm.settled⟩
    have hgen : job.generation = s.generation := by
      refine h.queue job ?_
      rw [hqueue]
      exact List.mem_cons_self
    dsimp only
    split
    · split
      · next state hstate =>
        split
        · exact hidle
        · refine hcalm.wait ⟨hgen, h.memory state hstate, ?_⟩
          rw [h.memory state hstate]
          rfl
      · exact hidle
    · exact hcalm.retryStart
    · split
      · exact hidle
      · exact hcalm.wait trivial
    · split
      · next state hstate => exact hcalm.writeLoop _ rfl (h.memory state hstate)
      · exact hidle
  · exact h

/-- A change lands its header while no proof is held, and a publish that ends after a `lock` has
been accepted. -/
def Careful (s : State P K E A I) : Action P K I → Prop
  | .reply reply =>
    match s.running with
    | some (.changePushing change _) =>
      reply = .reached → change.state.version = s.server.version → s.pendingVerifier = none
    | some (.changePublishing change publish) =>
      change.generation = s.generation ∨
        reply = .reached ∧ (s.server.Accepts publish ∨ s.server.Adopts publish)
    | _ => True
  | _ => True

variable {action : Action P K I} {actions : List (Action P K I)}

section

variable [DecidableEq E] [DecidableEq A]

theorem Inv.reply (h : Inv keys s) (reply : Reply K)
    (hcareful : Careful s (.reply reply : Action P K I)) :
    Inv keys (s.reply keys reply) := by
  cases hrun : s.running with
  | none =>
    unfold State.reply
    rw [hrun]
    exact h
  | some phase =>
    have hfits := h.fits phase hrun
    have hcalm : ¬ phase.Publishes → Calm keys s := by
      intro hphase
      refine h.calm ?_
      intro phase' hrun'
      obtain rfl := Option.some.inj (hrun.symm.trans hrun')
      exact hphase
    cases phase with
    | changePublishing change publish => exact h.changePublishing change publish reply hrun
    | changeDeriving change =>
      unfold State.reply
      rw [hrun]
      exact (hcalm (fun hp => hp)).changeDerived change hfits
    | changePushing change header =>
      unfold Careful at hcareful
      rw [hrun] at hcareful
      unfold State.reply
      rw [hrun]
      exact (hcalm (fun hp => hp)).changePushed change header reply hfits hcareful
    | changeRebasing change => exact hfits.elim
    | retrying publish =>
      have hrest := hcalm (fun hp => hp)
      unfold State.reply
      simp only [hrun]
      rcases hpublish : s.publishReply publish reply with ⟨s', publish' | result⟩
      · obtain ⟨rfl, hauth, hcurrent⟩ := publishReply_error hpublish
        obtain ⟨pending, hsome, hpublishAuth, hpublishCurrent⟩ := hfits
        exact hrest.wait
          ⟨pending, hsome, hauth.trans hpublishAuth, hcurrent.trans hpublishCurrent⟩
      · exact (hrest.settleRetry hfits hpublish).1.ended
    | unlockStatus unlock =>
      have hrest := hcalm (fun hp => hp)
      unfold State.reply
      simp only [hrun]
      split
      · exact hrest.ended
      · exact hrest.wait trivial
      · exact hrest.wait trivial
      · exact hrest.wait trivial
    | unlockVerifying unlock kdf =>
      have hrest := hcalm (fun hp => hp)
      unfold State.reply
      simp only [hrun]
      split
      · exact hrest.ended
      · exact hrest.ended
      · exact hrest.wait trivial
      · exact hrest.wait trivial
    | unlockPulling unlock verdict =>
      have hrest := hcalm (fun hp => hp)
      unfold State.reply
      simp only [hrun]
      split
      · exact hrest.unlockChecked unlock _
      · exact hrest.wait rfl
      · exact hrest.ended
    | unlockVerdict unlock opened =>
      have hrest := hcalm (fun hp => hp)
      obtain rfl : opened = s.server.snapshot := hfits
      unfold State.reply
      simp only [hrun]
      split
      · exact hrest.ended
      · exact hrest.unlockChecked unlock _
      · exact hrest.unlockChecked unlock _
    | unlockPublishing unlock opened publish repairs =>
      have hrest := hcalm (fun hp => hp)
      exact hrest.unlockPublished hrun hfits
    | unlockOpening unlock opened =>
      obtain rfl : opened = s.server.snapshot := hfits
      unfold State.reply
      rw [hrun]
      exact (hcalm (fun hp => hp)).install unlock
    | indexPushing write header =>
      unfold State.reply
      rw [hrun]
      exact (hcalm (fun hp => hp)).indexPushed write header reply hfits
    | indexRebasing write => exact hfits.elim

theorem Inv.step (h : Inv keys s) (hlock : action ≠ .lock)
    (hcareful : Careful s action) : Inv keys (s.step keys action) := by
  cases action with
  | call work =>
    refine ⟨?_, h.memory, h.fits, h.settled⟩
    intro job hjob
    rcases List.mem_append.mp hjob with hold | hnew
    · exact h.queue job hold
    · rw [List.mem_singleton.mp hnew]
      rfl
  | next backoff => exact h.next backoff
  | reply reply => exact h.reply reply hcareful
  | lock => exact absurd rfl hlock

variable (keys) in
/-- Every step of the run is careful. -/
def CarefulFrom (s : State P K E A I) : List (Action P K I) → Prop
  | [] => True
  | action :: actions => Careful s action ∧ CarefulFrom (s.step keys action) actions

theorem Inv.run : ∀ {s : State P K E A I}, Inv keys s → .lock ∉ actions → CarefulFrom keys s actions →
      Inv keys (s.run keys actions) := by
  induction actions with
  | nil => exact fun h _ _ => h
  | cons action actions ih =>
    intro s h hlock hcareful
    rw [List.mem_cons, not_or] at hlock
    exact ih (h.step (Ne.symm hlock.1) hcareful.1) hlock.2 hcareful.2

/-! ## 8. Repair -/

variable (keys) in
/-- A retry whose calls reach the server. -/
def State.retried (s : State P K E A I) : State P K E A I :=
  (s.retryStart.reply keys .reached).reply keys .reached

variable (keys) in
theorem retrying_accepted (hrun : s.running = some (.retrying publish)) (h : s.server.Accepts publish) :
    s.reply keys .reached =
      { s with
        server := { s.server with auth := some publish.auth }
        pendingVerifier := none
        running := none } := by
  unfold State.reply
  simp only [hrun, publishReply_accepted h]
  rfl

theorem retrying_adopted (hrun : s.running = some (.retrying publish)) (h : s.server.Adopts publish) :
    s.reply keys .reached =
      s.wait (.retrying { publish with epoch := s.server.epoch, adopted := true }) := by
  unfold State.reply
  simp only [hrun, publishReply_adopted h]

/-- The server's epoch is adopted where it differs, and the second call is accepted. -/
theorem retrying_reached (hrun : s.running = some (.retrying publish))
    (hadopted : publish.adopted = false) (hproof : s.server.auth = publish.currentAuth) :
    (s.reply keys .reached).reply keys .reached =
      { s with
        server := { s.server with auth := some publish.auth }
        pendingVerifier := none
        running := none } := by
  by_cases hepoch : publish.epoch = s.server.epoch
  · rw [retrying_accepted keys hrun ⟨hepoch, .inr hproof⟩]
    rfl
  · rw [retrying_adopted hrun ⟨hepoch, hadopted⟩]
    have hrun' : (s.wait (.retrying { publish with
        epoch := s.server.epoch, adopted := true })).running = some (.retrying { publish with
          epoch := s.server.epoch, adopted := true }) := rfl
    have hdone := retrying_accepted keys hrun' ⟨rfl, .inr hproof⟩
    exact hdone

theorem Owed.retried (h : Owed keys s.server pending) (hpending : s.pendingVerifier = some pending) :
    InStep keys (s.retried keys).server ∧ (s.retried keys).pendingVerifier = none ∧
      (s.retried keys).running = none := by
  have hstart : s.retryStart =
      s.wait (.retrying ⟨pending.auth, some pending.currentAuth, pending.epoch, false⟩) := by
    unfold State.retryStart
    rw [hpending]
  unfold State.retried
  rw [hstart, retrying_reached rfl rfl (by exact h.proof)]
  exact ⟨h.accepted, rfl, rfl⟩

end

/-! ## 9. After a lock -/

/-- The change that an operation belongs to was asked for in this generation. -/
def Phase.asked : Phase P K E A I → Option Nat
  | .changeDeriving change => some change.generation
  | .changePushing change _ => some change.generation
  | .changeRebasing change => some change.generation
  | .changePublishing change _ => some change.generation
  | _ => none

def State.asked (s : State P K E A I) : Option Nat := s.running.bind Phase.asked

def Work.IsChange : Work P K I → Prop
  | .changePassphrase _ _ _ => True
  | _ => False

/-- Every change that was asked for and has not ended was asked for in this generation or before. -/
structure AskedBy (generation : Nat) (s : State P K E A I) : Prop where
  queue : ∀ job ∈ s.queue, job.work.IsChange → job.generation ≤ generation
  running : ∀ asked, s.asked = some asked → asked ≤ generation

/-- What the operation on its way leaves when it goes on. -/
structure GoesOn (s s' : State P K E A I) : Prop where
  queue : s'.queue = s.queue
  asked : s'.asked = none ∨ s'.asked = s.asked
  generation : s.generation ≤ s'.generation
  pending : s'.pendingVerifier = none ∨
    s'.pendingVerifier = s.pendingVerifier ∧ s'.generation = s.generation

variable {s' : State P K E A I}

theorem GoesOn.of_same (hqueue : s'.queue = s.queue)
    (hasked : s'.asked = none ∨ s'.asked = s.asked) (hgen : s'.generation = s.generation)
    (hpending : s'.pendingVerifier = s.pendingVerifier) : GoesOn s s' :=
  ⟨hqueue, hasked, Nat.le_of_eq hgen.symm, .inr ⟨hpending, hgen⟩⟩

theorem goesOn_ended : GoesOn s s.ended := .of_same rfl (.inl rfl) rfl rfl

theorem goesOn_wait {phase : Phase P K E A I} (h : phase.asked = none ∨ phase.asked = s.asked) :
    GoesOn s (s.wait phase) := .of_same rfl h rfl rfl

theorem GoesOn.trans {s'' : State P K E A I} (h : GoesOn s s') (h' : GoesOn s' s'') :
    GoesOn s s'' := by
  refine ⟨h'.queue.trans h.queue, ?_, h.generation.trans h'.generation, ?_⟩
  · rcases h'.asked with hnone | hsame
    · exact .inl hnone
    · rw [hsame]
      exact h.asked
  · rcases h'.pending with hnone | ⟨hsame, hgen⟩
    · exact .inl hnone
    · rw [hsame, hgen]
      exact h.pending

theorem goesOn_keep (generation : Nat) (state : Unlocked K E I) :
    GoesOn s (s.keep generation state) := by
  unfold State.keep
  split <;> exact .of_same rfl (.inr rfl) rfl rfl

theorem goesOn_server (server : Server K E A I) : GoesOn s { s with server } :=
  .of_same rfl (.inr rfl) rfl rfl

variable {change : Change P K E I}

theorem goesOn_changeLoop (h : s.asked = some change.generation) :
    GoesOn s (s.changeLoop keys change) := by
  unfold State.changeLoop
  split
  · exact goesOn_ended
  split
  · exact goesOn_ended
  split
  · exact goesOn_ended
  · exact .of_same rfl (.inr h.symm) rfl rfl

theorem goesOn_changeDerived [DecidableEq E] (h : s.asked = some change.generation) :
    GoesOn s (s.changeDerived keys change) := by
  unfold State.changeDerived
  split
  · exact goesOn_changeLoop h
  · exact goesOn_ended

theorem goesOn_changePushed {header : Header K E I} {reply : Reply K}
    (h : s.asked = some change.generation) :
    GoesOn s (s.changePushed keys change header reply) := by
  unfold State.changePushed
  split
  · split
    · refine ((goesOn_server _).trans (goesOn_keep _ _)).trans (goesOn_wait (.inr ?_))
      unfold State.keep
      split <;> exact h.symm
    · exact goesOn_wait (.inr h.symm)
  · exact goesOn_ended

theorem goesOn_rebase (state : Unlocked K E I) (reply : Reply K) :
    GoesOn s (s.rebase state reply).1 ∧ (s.rebase state reply).1.asked = s.asked := by
  unfold State.rebase
  split
  · split
    · exact ⟨.of_same rfl (.inr rfl) rfl rfl, rfl⟩
    · exact ⟨⟨rfl, .inr rfl, Nat.le_succ _, .inl rfl⟩, rfl⟩
  · exact ⟨.of_same rfl (.inr rfl) rfl rfl, rfl⟩

theorem goesOn_changeRebased {reply : Reply K}
    (h : s.asked = some change.generation) : GoesOn s (s.changeRebased keys change reply) := by
  obtain ⟨hrebase, hasked⟩ := goesOn_rebase (s := s) change.state reply
  unfold State.changeRebased
  rcases hr : s.rebase change.state reply with ⟨s', _ | state⟩
  · rw [hr] at hrebase
    exact hrebase.trans goesOn_ended
  · rw [hr] at hrebase hasked
    refine hrebase.trans ((goesOn_keep _ _).trans (goesOn_changeLoop ?_))
    unfold State.keep
    split <;> exact hasked.trans h

theorem goesOn_writeLoop (write : IndexWrite K E I) : GoesOn s (s.writeLoop write) := by
  unfold State.writeLoop
  split
  · exact goesOn_ended
  split
  · exact goesOn_ended
  split
  · exact goesOn_ended
  · exact goesOn_wait (.inl rfl)

theorem goesOn_indexPushed (write : IndexWrite K E I) (header : Header K E I) (reply : Reply K) :
    GoesOn s (s.indexPushed write header reply) := by
  unfold State.indexPushed
  split
  · split
    · exact ((goesOn_server _).trans (goesOn_keep _ _)).trans goesOn_ended
    split
    · exact goesOn_ended
    · exact goesOn_wait (.inl rfl)
  · exact goesOn_ended

theorem goesOn_indexRebased (write : IndexWrite K E I) (reply : Reply K) :
    GoesOn s (s.indexRebased write reply) := by
  obtain ⟨hrebase, _⟩ := goesOn_rebase (s := s) write.state reply
  unfold State.indexRebased
  rcases hr : s.rebase write.state reply with ⟨s', _ | state⟩
  · rw [hr] at hrebase
    exact hrebase.trans goesOn_ended
  · rw [hr] at hrebase
    dsimp only
    split
    · exact hrebase.trans goesOn_ended
    · exact hrebase.trans ((goesOn_keep _ _).trans (goesOn_writeLoop _))

theorem goesOn_publishReply [DecidableEq A] (publish : Publish A) (reply : Reply K) :
    GoesOn s (s.publishReply publish reply).1 ∧
      (s.publishReply publish reply).1.asked = s.asked := by
  rcases publishReply_cases s publish reply with
    ⟨_, _, heq⟩ | ⟨_, _, heq⟩ | ⟨_, _, heq, _⟩ <;> rw [heq]
  · exact ⟨goesOn_server _, rfl⟩
  · exact ⟨.of_same rfl (.inr rfl) rfl rfl, rfl⟩
  · exact ⟨.of_same rfl (.inr rfl) rfl rfl, rfl⟩

theorem goesOn_settleRetry (result : SetVerifierResult) : GoesOn s (s.settleRetry result) := by
  unfold State.settleRetry
  split
  · exact ⟨rfl, .inr rfl, Nat.le_refl _, .inl rfl⟩
  · exact .of_same rfl (.inr rfl) rfl rfl

theorem goesOn_install (unlock : Unlock P) (opened : Unlocked K E I) :
    GoesOn s (s.install unlock opened) := by
  unfold State.install
  split
  · exact goesOn_ended
  · exact .of_same rfl (.inl rfl) rfl rfl

variable {generation : Nat}

theorem AskedBy.goesOn (h : AskedBy generation s) (hgoes : GoesOn s s') :
    AskedBy generation s' := by
  refine ⟨?_, ?_⟩
  · rw [hgoes.queue]
    exact h.queue
  · rcases hgoes.asked with hnone | hsame
    · intro asked hasked
      rw [hnone] at hasked
      cases hasked
    · rw [hsame]
      exact h.running

/-- A queued call starts, and no proof is kept or dropped by that. -/
theorem AskedBy.next (h : AskedBy generation s) (backoff : Bool) :
    AskedBy generation (s.next backoff) ∧
      (s.next backoff).pendingVerifier = s.pendingVerifier ∧
      (s.next backoff).generation = s.generation := by
  unfold State.next
  split
  · next job rest hrun hqueue =>
    have hrest : AskedBy generation { s with queue := rest } := by
      refine ⟨?_, h.running⟩
      intro job' hjob'
      exact h.queue job' (by rw [hqueue]; exact List.mem_cons_of_mem _ hjob')
    have hidle {phase : Phase P K E A I} (hphase : phase.asked = none) :
        AskedBy generation (State.wait { s with queue := rest } phase) :=
      hrest.goesOn (goesOn_wait (.inl hphase))
    dsimp only
    split
    · next hwork =>
      split
      · split
        · exact ⟨hrest, rfl, rfl⟩
        · refine ⟨⟨hrest.queue, ?_⟩, rfl, rfl⟩
          intro asked hasked
          obtain rfl : job.generation = asked := Option.some.inj hasked
          refine h.queue job ?_ ?_
          · rw [hqueue]
            exact List.mem_cons_self
          · rw [hwork]
            trivial
      · exact ⟨hrest, rfl, rfl⟩
    · unfold State.retryStart
      split
      · exact ⟨hrest.goesOn goesOn_ended, rfl, rfl⟩
      · exact ⟨hidle rfl, rfl, rfl⟩
    · split
      · exact ⟨hrest, rfl, rfl⟩
      · exact ⟨hidle rfl, rfl, rfl⟩
    · split
      · refine ⟨hrest.goesOn (goesOn_writeLoop _), ?_⟩
        unfold State.writeLoop
        split
        · exact ⟨rfl, rfl⟩
        split
        · exact ⟨rfl, rfl⟩
        split <;> exact ⟨rfl, rfl⟩
      · exact ⟨hrest, rfl, rfl⟩
  · exact ⟨h, rfl, rfl⟩

theorem AskedBy.mono {later : Nat} (h : AskedBy generation s) (hle : generation ≤ later) :
    AskedBy later s :=
  ⟨fun job hjob hchange => (h.queue job hjob hchange).trans hle,
    fun asked hasked => (h.running asked hasked).trans hle⟩

variable [DecidableEq E] [DecidableEq A]

theorem goesOn_unlockChecked (unlock : Unlock P) (opened : Unlocked K E I)
    (verdict : VerifyResult) : GoesOn s (s.unlockChecked keys unlock opened verdict) := by
  unfold State.unlockChecked
  dsimp only
  split
  · exact goesOn_ended
  split
  · exact goesOn_wait (.inl rfl)
  · split <;> exact goesOn_wait (.inl rfl)
  · exact goesOn_wait (.inl rfl)

variable (keys s) in
/-- A change keeps a proof at the end of its publish only, when the server has not taken it. -/
theorem reply_goesOn (reply : Reply K) :
    GoesOn s (s.reply keys reply) ∨
      ∃ change publish, s.running = some (.changePublishing change publish) ∧
        ¬ (reply = .reached ∧ (s.server.Accepts publish ∨ s.server.Adopts publish)) ∧
        s.reply keys reply = State.ended { s with
          pendingVerifier := some (State.proofOf keys change change.state.header.epoch) } := by
  -- a proof is left behind by the publish of a change alone, when no reply tells that it was taken
  cases hrun : s.running with
  | none =>
    unfold State.reply
    rw [hrun]
    exact .inl (.of_same rfl (.inr rfl) rfl rfl)
  | some phase =>
    have hasked : s.asked = phase.asked := by
      unfold State.asked
      rw [hrun]
      rfl
    unfold State.reply
    rw [hrun]
    cases phase with
    | changeDeriving change => exact .inl (goesOn_changeDerived hasked)
    | changePushing change header => exact .inl (goesOn_changePushed hasked)
    | changeRebasing change => exact .inl (goesOn_changeRebased hasked)
    | changePublishing change publish =>
      rcases publishReply_cases s publish reply with
        ⟨_, _, heq⟩ | ⟨_, _, heq⟩ | ⟨result, hresult, heq, hnot⟩
      · left
        simp only [heq]
        exact ⟨rfl, .inl rfl, Nat.le_refl _, .inl rfl⟩
      · left
        simp only [heq]
        exact goesOn_wait (.inr hasked.symm)
      · refine .inr ⟨change, publish, rfl, hnot, ?_⟩
        simp only [heq]
        unfold State.changePublished
        rw [if_neg hresult]
        rfl
    | retrying publish =>
      obtain ⟨hpublish, _⟩ := goesOn_publishReply (s := s) publish reply
      left
      dsimp only
      rcases hr : s.publishReply publish reply with ⟨s', publish' | result⟩
      · rw [hr] at hpublish
        exact hpublish.trans (goesOn_wait (.inl rfl))
      · rw [hr] at hpublish
        exact hpublish.trans ((goesOn_settleRetry result).trans goesOn_ended)
    | unlockStatus unlock =>
      left
      dsimp only
      split
      · exact goesOn_ended
      · exact goesOn_wait (.inl rfl)
      · exact goesOn_wait (.inl rfl)
      · exact goesOn_wait (.inl rfl)
    | unlockVerifying unlock kdf =>
      left
      dsimp only
      split
      · exact goesOn_ended
      · exact goesOn_ended
      · exact goesOn_wait (.inl rfl)
      · exact goesOn_wait (.inl rfl)
    | unlockPulling unlock verdict =>
      left
      dsimp only
      split
      · exact goesOn_unlockChecked _ _ _
      · exact goesOn_wait (.inl rfl)
      · exact goesOn_ended
    | unlockVerdict unlock opened =>
      left
      dsimp only
      split
      · exact goesOn_ended
      · exact goesOn_unlockChecked _ _ _
      · exact goesOn_unlockChecked _ _ _
    | unlockPublishing unlock opened publish repairs =>
      obtain ⟨hpublish, _⟩ := goesOn_publishReply (s := s) publish reply
      left
      dsimp only
      rcases hr : s.publishReply publish reply with ⟨s', publish' | result⟩
      · rw [hr] at hpublish
        exact hpublish.trans (goesOn_wait (.inl rfl))
      · rw [hr] at hpublish
        refine hpublish.trans (GoesOn.trans ?_ (goesOn_wait (.inl rfl)))
        cases repairs with
        | true => exact goesOn_settleRetry result
        | false => exact .of_same rfl (.inr rfl) rfl rfl
    | unlockOpening unlock opened => exact .inl (goesOn_install _ _)
    | indexPushing write header => exact .inl (goesOn_indexPushed _ _ _)
    | indexRebasing write => exact .inl (goesOn_indexRebased _ _)

variable (keys) in
theorem AskedBy.reply (h : AskedBy generation s) (reply : Reply K) :
    AskedBy generation (s.reply keys reply) := by
  rcases reply_goesOn keys s reply with hgoes | ⟨change, publish, _, _, heq⟩
  · exact h.goesOn hgoes
  · rw [heq]
    exact ⟨h.queue, fun _ hasked => absurd hasked (by simp [State.asked, State.ended])⟩

/-- Every change was asked for in the generation of now or before, and a held proof was kept by a
change that was asked for since the last lock. -/
structure Held (s : State P K E A I) : Prop where
  asked : AskedBy s.generation s
  proof : ∀ pending, s.pendingVerifier = some pending → pending.setBy = s.generation

theorem Held.step (h : Held s) (hcareful : Careful s action) : Held (s.step keys action) := by
  cases action with
  | call work =>
    refine ⟨⟨?_, h.asked.running⟩, h.proof⟩
    intro job hjob hchange
    rcases List.mem_append.mp hjob with hold | hnew
    · exact h.asked.queue job hold hchange
    · rw [List.mem_singleton.mp hnew]
      exact Nat.le_refl _
  | next backoff =>
    obtain ⟨hasked, hpending, hgen⟩ := h.asked.next backoff
    refine ⟨hasked.mono (Nat.le_of_eq hgen.symm), ?_⟩
    intro pending hsome
    exact (h.proof pending (hpending.symm.trans hsome)).trans hgen.symm
  | lock =>
    have hasked : AskedBy s.generation s.lock := ⟨h.asked.queue, h.asked.running⟩
    refine ⟨hasked.mono (Nat.le_succ _), ?_⟩
    intro pending hsome
    cases hsome
  | reply reply =>
    have hasked := h.asked.reply keys reply
    rcases reply_goesOn keys s reply with hgoes | ⟨change, publish, hrun, hnot, heq⟩
    · refine ⟨hasked.mono hgoes.generation, ?_⟩
      intro pending hsome
      rcases hgoes.pending with hnone | ⟨hsame, hgen⟩
      · exact absurd (hnone.symm.trans hsome) (by simp)
      · exact (h.proof pending (hsame.symm.trans hsome)).trans hgen.symm
    · show Held (s.reply keys reply)
      unfold Careful at hcareful
      rw [hrun] at hcareful
      rw [heq] at hasked ⊢
      refine ⟨hasked, ?_⟩
      intro pending hsome
      obtain rfl := Option.some.inj hsome
      rcases hcareful with hgen | hreached
      · exact hgen
      · exact absurd hreached hnot

/-- The changes that were asked for before a lock are the only ones, and no proof is held. -/
structure Left (generation : Nat) (s : State P K E A I) : Prop where
  asked : AskedBy generation s
  later : generation < s.generation
  none : s.pendingVerifier = none

theorem Left.step (h : Left generation s)
    (hcall : ∀ work, action = .call work → ¬ work.IsChange) (hcareful : Careful s action) :
    Left generation (s.step keys action) := by
  cases action with
  | call work =>
    refine ⟨⟨?_, h.asked.running⟩, h.later, h.none⟩
    intro job hjob hchange
    rcases List.mem_append.mp hjob with hold | hnew
    · exact h.asked.queue job hold hchange
    · rw [List.mem_singleton.mp hnew] at hchange
      exact absurd hchange (hcall work rfl)
  | next backoff =>
    obtain ⟨hasked, hpending, hgen⟩ := h.asked.next backoff
    exact ⟨hasked, hgen ▸ h.later, hpending.trans h.none⟩
  | lock =>
    exact ⟨⟨h.asked.queue, h.asked.running⟩, h.later.trans (Nat.lt_succ_self _), rfl⟩
  | reply reply =>
    have hasked := h.asked.reply keys reply
    rcases reply_goesOn keys s reply with hgoes | ⟨change, publish, hrun, hnot, heq⟩
    · refine ⟨hasked, h.later.trans_le hgoes.generation, ?_⟩
      rcases hgoes.pending with hnone | ⟨hsame, _⟩
      · exact hnone
      · exact hsame.trans h.none
    · exfalso
      have hle : change.generation ≤ generation := by
        refine h.asked.running _ ?_
        unfold State.asked
        rw [hrun]
        rfl
      unfold Careful at hcareful
      rw [hrun] at hcareful
      rcases hcareful with hgen | hreached
      · exact absurd h.later (by rw [← hgen]; exact Nat.not_lt.mpr hle)
      · exact hnot hreached

/-! ## 10. Whole runs -/

theorem Held.run :
    ∀ {s : State P K E A I}, Held s → CarefulFrom keys s actions → Held (s.run keys actions) := by
  induction actions with
  | nil => exact fun h _ => h
  | cons action actions ih => exact fun h hcareful => ih (h.step hcareful.1) hcareful.2

theorem Left.run :
    ∀ {s : State P K E A I}, Left generation s → (∀ work, .call work ∈ actions → ¬ work.IsChange) →
      CarefulFrom keys s actions → Left generation (s.run keys actions) := by
  induction actions with
  | nil => exact fun h _ _ => h
  | cons action actions ih =>
    intro s h hcall hcareful
    refine ih (h.step ?_ hcareful.1) ?_ hcareful.2
    · intro work hwork
      exact hcall work (by rw [hwork]; exact List.mem_cons_self)
    · intro work hwork
      exact hcall work (List.mem_cons_of_mem _ hwork)

theorem CarefulFrom.split {before after : List (Action P K I)} :
    ∀ {s : State P K E A I}, CarefulFrom keys s (before ++ after) →
      CarefulFrom keys s before ∧ CarefulFrom keys (s.run keys before) after := by
  induction before with
  | nil => exact fun h => ⟨trivial, h⟩
  | cons action before ih =>
    intro s h
    obtain ⟨hbefore, hafter⟩ := ih h.2
    exact ⟨⟨h.1, hbefore⟩, hafter⟩

variable (keys) in
/-- A store with no operation, and a server whose verifier is the one of the header. -/
structure Started (s : State P K E A I) : Prop where
  inStep : InStep keys s.server
  memory : ∀ state, s.unlocked = some state → state = s.server.snapshot
  pending : s.pendingVerifier = none
  queue : s.queue = []
  running : s.running = none

omit [DecidableEq E] [DecidableEq A] in
theorem Started.inv (h : Started keys s) : Inv keys s := by
  refine ⟨?_, h.memory, ?_, fun _ => .inl ⟨h.inStep, h.pending⟩⟩
  · rw [h.queue]
    exact fun _ hjob => absurd hjob List.not_mem_nil
  · rw [h.running]
    exact fun _ hphase => absurd hphase (by simp)

omit [DecidableEq E] [DecidableEq A] in
theorem Started.held (h : Started keys s) : Held s := by
  refine ⟨⟨?_, ?_⟩, ?_⟩
  · rw [h.queue]
    exact fun _ hjob => absurd hjob List.not_mem_nil
  · unfold State.asked
    rw [h.running]
    exact fun _ hasked => absurd hasked (by simp)
  · rw [h.pending]
    exact fun _ hpending => absurd hpending (by simp)

omit [DecidableEq E] [DecidableEq A] in
theorem State.created_started (passphrase : P) (kdf : K) (vaultId epoch serverEpoch : Nat)
    (index : I) :
    Started keys (State.created keys passphrase kdf vaultId epoch serverEpoch index) := by
  have hopens : (State.created keys passphrase kdf vaultId epoch serverEpoch index).server.Opens
      keys passphrase := rfl
  refine ⟨⟨⟨passphrase, hopens⟩, ?_⟩, fun _ h => absurd h (by simp [State.created]), rfl, rfl, rfl⟩
  intro p hp
  exact congrArg some (hopens.auth_unique keys hp)

/-- While no operation is in progress the verifier is in step, or one retry brings it in step; and
no proof outlives a lock. -/
theorem verifier_repairable (h : Started keys s) (actions : List (Action P K I))
    (hcareful : CarefulFrom keys s actions) :
    (.lock ∉ actions → (s.run keys actions).running = none →
      InStep keys (s.run keys actions).server ∨
        ∃ pending, (s.run keys actions).pendingVerifier = some pending ∧
          Owed keys (s.run keys actions).server pending ∧
          InStep keys ((s.run keys actions).retried keys).server) ∧
    (∀ before after, actions = before ++ .lock :: after →
      (∀ work, .call work ∈ after → ¬ work.IsChange) →
      (s.run keys actions).pendingVerifier = none) ∧
    ∀ pending, (s.run keys actions).pendingVerifier = some pending →
      pending.setBy = (s.run keys actions).generation := by
  refine ⟨?_, ?_, (h.held.run hcareful).proof⟩
  · intro hlock hrun
    have hsettled := (h.inv.run hlock hcareful).settled (by simp [hrun])
    rcases hsettled with ⟨hstep, _⟩ | ⟨pending, hpending, howed⟩
    · exact .inl hstep
    · exact .inr ⟨pending, hpending, howed, (howed.retried hpending).1⟩
  · intro before after hactions hcall
    subst hactions
    obtain ⟨hbefore, _, hafter⟩ := hcareful.split
    have hheld := h.held.run hbefore
    -- The generation before the lock bounds the changes that are in flight at it.
    have hleft : Left (s.run keys before).generation ((s.run keys before).step keys .lock) :=
      ⟨⟨hheld.asked.queue, hheld.asked.running⟩, Nat.lt_succ_self _, rfl⟩
    have hrun : s.run keys (before ++ .lock :: after) =
        State.run keys ((s.run keys before).step keys .lock) after := by
      unfold State.run
      rw [List.foldl_append, List.foldl_cons]
    rw [hrun]
    exact (hleft.run hcall hafter).none

/-! ## 11. Two changes without the server, and a lock inside a publish -/

/-- A passphrase and its parameters are their own keys. -/
def plainKeys : KeyDerivation Nat Nat (Nat × Nat) (Nat × Nat) (Nat × Nat) where
  deriveMasterKey := Prod.mk
  kek := id
  auth := id
  kek_injective := fun _ _ h => h

def openVault : List (Action Nat Nat Unit) :=
  [.call (.unlock 1), .next false, .reply .unavailable, .reply .reached, .reply (.verdict .ok),
    .reply .reached]

def changeUnanswered (current next : Nat) : List (Action Nat Nat Unit) :=
  [.call (.changePassphrase current next next), .next false, .reply .reached, .reply .reached,
    .reply .unavailable]

def newVault : State Nat Nat (Nat × Nat) (Nat × Nat) Unit := State.created plainKeys 1 1 0 0 0 ()

def oneUnanswered : List (Action Nat Nat Unit) := openVault ++ changeUnanswered 1 2

def twoUnanswered : List (Action Nat Nat Unit) := oneUnanswered ++ changeUnanswered 2 3

def lockedInPublish : List (Action Nat Nat Unit) :=
  openVault ++ [.call (.changePassphrase 1 2 2), .next false, .reply .reached, .reply .reached,
    .lock, .reply .unavailable]

theorem verifier_repairable_oneUnanswered :
    (InStep plainKeys (newVault.run plainKeys oneUnanswered).server ∨
      ∃ pending, (newVault.run plainKeys oneUnanswered).pendingVerifier = some pending ∧
        Owed plainKeys (newVault.run plainKeys oneUnanswered).server pending ∧
        InStep plainKeys ((newVault.run plainKeys oneUnanswered).retried plainKeys).server) ∧
    (newVault.run plainKeys (oneUnanswered ++ [.lock])).pendingVerifier = none := by
  have hstarted : Started plainKeys newVault := State.created_started 1 1 0 0 0 ()
  have hcareful : CarefulFrom plainKeys newVault (oneUnanswered ++ [.lock]) :=
    ⟨trivial, trivial, trivial, trivial, trivial, trivial, trivial, trivial, trivial,
      fun _ _ => rfl, .inl rfl, trivial, trivial⟩
  refine ⟨(verifier_repairable hstarted oneUnanswered hcareful.split.1).1
    (by simp [oneUnanswered, openVault, changeUnanswered]) rfl, ?_⟩
  exact (verifier_repairable hstarted _ hcareful).2.1 oneUnanswered [] rfl fun _ h => by cases h

theorem verifier_beyond_repair :
    (.lock ∉ twoUnanswered ∧ (newVault.run plainKeys twoUnanswered).running = none ∧
      ¬ InStep plainKeys (newVault.run plainKeys twoUnanswered).server ∧
      ∀ pending, (newVault.run plainKeys twoUnanswered).pendingVerifier = some pending →
        ¬ Owed plainKeys (newVault.run plainKeys twoUnanswered).server pending) ∧
    (newVault.run plainKeys lockedInPublish).running = none ∧
      (newVault.run plainKeys lockedInPublish).queue = [] ∧
      (newVault.run plainKeys lockedInPublish).pendingVerifier ≠ none := by
  have hauth : (newVault.run plainKeys twoUnanswered).server.auth = some (1, 1) := rfl
  have hopens : (newVault.run plainKeys twoUnanswered).server.Opens plainKeys 3 := rfl
  refine ⟨⟨by simp [twoUnanswered, oneUnanswered, openVault, changeUnanswered], rfl, ?_, ?_⟩, rfl,
    rfl, ?_⟩
  · intro h
    have hnew := hauth.symm.trans (h.auth 3 hopens)
    cases hnew
  · intro pending hpending h
    obtain rfl := Option.some.inj hpending
    have hold := hauth.symm.trans h.proof
    cases hold
  · intro h
    cases h

end PocketShell.KeyVault
