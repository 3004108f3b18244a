import PocketShell.Connection.Link
import PocketShell.Connection.Recovery

/-!
# What a dial over a link ends in

* `LinkTurn`: how the awaits of a dial are answered over a link that is up, with a given
  pin in the trust store, while nobody takes the dial's place.
* `link_dial`: when the dial ends as a trust decision or a connection.
-/

namespace PocketShell

open Coop (Async Thread)

variable {env : Env} {link : LinkCapabilityOptions} {host : SshHostTarget}
  {stored : Option HostKeyTrustPin} {n : Nat} {c : Operation} {s s' : State}

/-! ## The turns of a dial -/

/-- The dial's intent stays the current one, and no key is accepted once. -/
structure Undisturbed (n : Nat) (s s' : State) : Prop where
  current : s'.isCurrentConnect n = s.isCurrentConnect n
  once : s'.onceTrusted = s.onceTrusted

theorem Undisturbed.refl : Undisturbed n s s := ⟨rfl, rfl⟩

theorem Undisturbed.trans {s'' : State} (h : Undisturbed n s s') (h' : Undisturbed n s' s'') :
    Undisturbed n s s'' := ⟨h'.current.trans h.current, h'.once.trans h.once⟩

/-- The trust store has the pin `stored` for the host, and the relay is ready. Whatever
else is asked can be answered in any way. -/
def answeredOver (link : LinkCapabilityOptions) (host : SshHostTarget)
    (stored : Option HostKeyTrustPin) : (q : Call) → Answer q → Prop
  | .trustGet hostId _, a => hostId = host.hostId → a = .ok stored
  | .connect options, a => ∃ id, a = link.connect false options (.ready id)
  | _, _ => True

def LinkTurn (link : LinkCapabilityOptions) (host : SshHostTarget) (stored : Option HostKeyTrustPin)
    (n : Nat) (s : State) (q : Req) (a : Ans q) (s' : State) : Prop :=
  Undisturbed n s s' ∧ answeredOver link host stored q.2 a

section

variable {post : Thread State Ans Head → State → Prop} {err : Thrown → Thread State Ans Head}

theorem ends_modify {f : State → State} {K : PUnit → Thread State Ans Head}
    (h : (K ()).Ends (LinkTurn link host stored n) post (f s)) :
    ((modify f : Ctl PUnit) c K err).Ends (LinkTurn link host stored n) post s :=
  .read (.write h)

theorem ends_perform {q : Call} {K : Answer q → Thread State Ans Head}
    (hsome : ∃ a, answeredOver link host stored q a)
    (h : ∀ a s', Undisturbed n s s' → answeredOver link host stored q a →
      (K a).Ends (LinkTurn link host stored n) post s') :
    (Ctl.perform q c K err).Ends (LinkTurn link host stored n) post s := by
  obtain ⟨a, ha⟩ := hsome
  refine .read (.write (.await ⟨a, _, .refl, ha⟩ fun a s₁ ht => .read (.write ?_)))
  exact h a _ ⟨ht.1.current, ht.1.once⟩ ht.2

/-- A connection that is not kept is closed first. -/
theorem ends_close {ref : SshConnectionRef} {K : Unit → Thread State Ans Head}
    (h : ∀ s', Undisturbed n s s' → (K ()).Ends (LinkTurn link host stored n) post s') :
    (Ctl.settled .closeReturnedConnection (Ctl.closeReturnedConnection env ref) c K err).Ends
      (LinkTurn link host stored n) post s := by
  simp only [Ctl.settled, Ctl.closeReturnedConnection, Ctl.cancelAndClose, Ctl.cancelCapability,
    Ctl.closeConnection, Ctl.createId, Async.bind_apply, Async.attempt_apply, Async.modifyGet_apply]
  refine .read (.write (ends_perform ⟨.error ⟨"", "", {}⟩, trivial⟩ fun _ s₁ h₁ _ => ?_))
  refine ends_perform ⟨(), trivial⟩ fun _ s₂ h₂ _ => ?_
  refine .read (.write (ends_perform ⟨.error ⟨"", "", {}⟩, trivial⟩ fun _ s₃ h₃ _ => ?_))
  refine ends_perform ⟨(), trivial⟩ fun _ s₄ h₄ _ => h _ ?_
  have hfirst := h₁.trans h₂
  have hlast := h₃.trans h₄
  exact ⟨hlast.current.trans hfirst.current, hlast.once.trans hfirst.once⟩

end

/-! ## How a dial ends -/

/-- The pin is that of exactly this key. -/
def PinOf (key : PresentedHostKey) (pin : HostKeyTrustPin) : Prop :=
  pin = .sha256Fingerprint key.fingerprintSha256 ∨ pin = .wireKey key

/-- The dial ended in a decision put to the user. -/
def Decides (host : SshHostTarget) (key : PresentedHostKey) (reason : KnownHostsVerdict)
    (previouslyTrusted : Option HostKeyTrustPin) (s : State) : Prop :=
  s.snapshot.phase = .awaitingTrust ∧
    s.snapshot.trustDecision = some ⟨host.hostId, host.hostname, reason, key, previouslyTrusted⟩

/-- The dial ended in a connection that is held. -/
def Connects (result : ActionResult SshConnectionRef) (s : State) : Prop :=
  ∃ ref, result = .ok ref ∧ s.snapshot.phase = .connected ∧ s.connection.map (·.ref) = some ref

/-- The dial ended as a failure that is tried again. -/
def Fails (result : ActionResult SshConnectionRef) (s : State) : Prop :=
  (∃ message, result = .refused .failed message) ∧ s.snapshot.phase = .error ∧
    s.snapshot.trustDecision = none ∧ s.lastDialRetryable = true

/-- The key that the dial expects of the host: the stored one, or the one that was
accepted once. -/
def expectedPin (host : SshHostTarget) (stored : Option HostKeyTrustPin) (s : State) :
    Option HostKeyTrustPin :=
  stored <|> (s.onceTrusted.filter (·.hostId = host.hostId)).map (·.pin)

/-- The rule for a host of which `expected` is known: an unknown key and a changed one are
decisions, the pinned one connects. -/
def Judged (host : SshHostTarget) (key : PresentedHostKey) (expected : Option HostKeyTrustPin)
    (result : ActionResult SshConnectionRef) (s : State) : Prop :=
  match expected with
  | none => Decides host key .unknown none s
  | some pin =>
    (PinOf key pin → Connects result s) ∧ (¬ PinOf key pin → Decides host key .mismatch (some pin) s)

instance {key : PresentedHostKey} {pin : HostKeyTrustPin} : Decidable (PinOf key pin) :=
  inferInstanceAs (Decidable (_ ∨ _))

theorem verify_trusted_of {key : PresentedHostKey} {pin : HostKeyTrustPin} (h : PinOf key pin) :
    verifyHostKeyTrustPin (some pin) key = .trusted := by
  rcases h with rfl | rfl <;> simp [verifyHostKeyTrustPin, verifyHostKeyPin]

/-- What a dial of a host without a gateway comes to, by the key it expects. -/
inductive LinkOutcome (host : SshHostTarget) (key : PresentedHostKey) (expected : Option HostKeyTrustPin)
    (result : ActionResult SshConnectionRef) (s : State) : Prop
  | unknown : expected = none → Decides host key .unknown none s → LinkOutcome host key expected result s
  | trusted : verifyHostKeyTrustPin expected key = .trusted → Connects result s →
      LinkOutcome host key expected result s
  | changed : expected ≠ none → verifyHostKeyTrustPin expected key ≠ .trusted → Fails result s →
      LinkOutcome host key expected result s

/-! ## The way of a dial -/

section

variable {K : ActionResult SshConnectionRef → Thread State Ans Head}
  {err : Thrown → Thread State Ans Head} {requestId generationId : String} {dial : Nat}
  {expected : Option HostKeyTrustPin}

/-- The point where a dial goes back to its caller. -/
def BackWith (K : ActionResult SshConnectionRef → Thread State Ans Head)
    (p : ActionResult SshConnectionRef → State → Prop) (t : Thread State Ans Head) (s : State) : Prop :=
  ∃ result, t = K result ∧ p result s

theorem presented_ends {reason : KnownHostsVerdict} {presented : PresentedHostKey}
    (hr : reason = .unknown ∨ reason = .mismatch) :
    (Ctl.presentHostKeyDecision host n generationId expected presented reason c K err).Ends
      (LinkTurn link host stored n) (BackWith K fun _ => Decides host presented reason expected) s := by
  simp only [Ctl.presentHostKeyDecision, Async.bind_apply, Async.pure_apply]
  refine ends_modify (.here ⟨_, rfl, rfl, ?_⟩)
  rcases hr with rfl | rfl <;> rfl

/-- A connect that the relay answered. -/
theorem connected_ends (hgw : host.gateway = none) (hcur : s.isCurrentConnect n = true) {id : String}
    (hok : expected = none ∨ verifyHostKeyTrustPin expected link.presentedKey = .trusted) :
    (Ctl.dialConnected env host n dial requestId generationId expected
        ⟨requestId, id, generationId, ⟨some link.presentedKey.keyType, some link.presentedKey.keyB64,
          some link.presentedKey.fingerprintSha256⟩, false⟩ c K err).Ends (LinkTurn link host stored n)
      (BackWith K (LinkOutcome host link.presentedKey expected)) s := by
  have hmarker : hasGatewayMarker host = false := by rw [hasGatewayMarker, hgw]; rfl
  simp only [Ctl.dialConnected, Ctl.isCurrentConnect, Async.bind_apply, Async.get_apply,
    Async.pure_apply, hmarker, Ctl.readPresentedKey]
  refine .read ?_
  rw [hcur]
  simp only [Bool.not_true, Bool.false_eq_true, if_false, ne_eq, not_true_eq_false, or_self, false_and]
  rcases hok with rfl | htrusted
  · -- nothing was expected: the connection is closed and the user is asked
    simp only [verifyHostKeyTrustPin, reduceCtorEq, not_false_eq_true]
    refine ends_close fun s₁ h₁ => .read ?_
    simp only [Async.pure_apply, h₁.current, hcur, Bool.not_true, Bool.false_eq_true, if_false]
    refine (presented_ends (.inl rfl)).mono ?_
    rintro t s' ⟨result, ht, hd⟩
    exact ⟨result, ht, .unknown rfl hd⟩
  · rw [if_neg (by rw [htrusted]; exact not_not.mpr rfl)]
    refine ends_modify (.here ⟨_, rfl, .trusted htrusted ?_⟩)
    exact ⟨_, rfl, rfl, rfl⟩

/-- A connect that the link itself refused. -/
theorem mismatch_ends (expected : Option HostKeyTrustPin) (hgw : host.gateway = none)
    (hcur : s.isCurrentConnect n = true)
    {message : String} :
    (Ctl.dialFailed host n generationId expected
        (.capability { message, code := "HOST_KEY_MISMATCH" }) c K err).Ends
      (LinkTurn link host stored n) (BackWith K Fails) s := by
  have hmarker : hasGatewayMarker host = false := by rw [hasGatewayMarker, hgw]; rfl
  simp only [Ctl.dialFailed, Ctl.isCurrentConnect, Async.bind_apply, Async.get_apply,
    Async.pure_apply, hmarker]
  refine .read ?_
  rw [hcur]
  simp only [Bool.not_true, Bool.false_eq_true, if_false]
  refine ends_modify ?_
  -- its data has none of the fields of a presented key
  exact ends_modify (.here ⟨_, rfl, ⟨_, rfl⟩, rfl, rfl, rfl⟩)

/-- The `try` of a dial that knows what to expect. -/
theorem expecting_ends (hgw : host.gateway = none) (hcur : s.isCurrentConnect n = true) :
    (tryCatch (Ctl.dialExpecting env host none n dial requestId generationId expected)
        (Ctl.dialFailed host n generationId expected) c K err).Ends (LinkTurn link host stored n)
      (BackWith K (LinkOutcome host link.presentedKey expected)) s := by
  simp only [Async.tryCatch_apply, Ctl.dialExpecting, Ctl.isCurrentConnect, Async.bind_apply,
    Async.get_apply, Async.pure_apply]
  refine .read ?_
  simp only [hcur, Bool.not_true, Bool.false_eq_true, if_false, Async.bind_apply]
  refine ends_perform ⟨_, "", rfl⟩ fun a s₁ h₁ ha => ?_
  have hcur₁ : s₁.isCurrentConnect n = true := h₁.current.trans hcur
  obtain ⟨id, rfl⟩ := ha
  simp only [LinkCapabilityOptions.connect, Bool.false_eq_true, if_false]
  split
  · next hm =>
    refine (mismatch_ends expected hgw hcur₁).mono ?_
    rintro t s' ⟨result, ht, hf⟩
    exact ⟨result, ht, .changed hm.1 hm.2 hf⟩
  · next hm =>
    refine connected_ends hgw hcur₁ ?_
    by_cases hnone : expected = none
    · exact .inl hnone
    · exact .inr (not_not.mp fun h => hm ⟨hnone, h⟩)

theorem dial_ends (hgw : host.gateway = none) (hcur : s.isCurrentConnect n = true) :
    (Ctl.dial env host n requestId c K err).Ends (LinkTurn link host stored n)
      (BackWith K (LinkOutcome host link.presentedKey (expectedPin host stored s))) s := by
  simp only [Ctl.dial, Ctl.createId, Ctl.setSnapshot, Async.bind_apply, Async.get_apply,
    Async.modifyGet_apply, Async.attempt_apply, Ctl.expectedKey, hgw]
  refine .read (.read (.write (ends_modify (ends_modify (ends_modify ?_)))))
  refine ends_perform ⟨.ok stored, fun _ => rfl⟩ fun a s₁ h₁ ha => ?_
  obtain rfl := ha rfl
  have hpin : (stored <|> (s₁.onceTrusted.filter (·.hostId = host.hostId)).map (·.pin)) =
      expectedPin host stored s := by
    rw [expectedPin, h₁.once]
    rfl
  simp only [Ctl.unwrap, Async.pure_apply]
  refine .read ?_
  rw [← hpin]
  exact expecting_ends hgw (h₁.current.trans hcur)

/-- A dial of a host with a gateway marker fails in the gateway's own way. -/
theorem gateway_failed_ends (expected : Option HostKeyTrustPin)
    (hgw : hasGatewayMarker host = true) (hcur : s.isCurrentConnect n = true)
    {error : Thrown} :
    (Ctl.dialFailed host n generationId expected error c K err).Ends (LinkTurn link host stored n)
      (BackWith K fun _ s => s.snapshot.phase = .error) s := by
  simp only [Ctl.dialFailed, Ctl.isCurrentConnect, Async.bind_apply, Async.get_apply,
    Async.pure_apply, hgw]
  refine .read ?_
  simp only [hcur, Bool.not_true, Bool.false_eq_true, if_false, if_true, Ctl.failGatewayDial,
    Async.bind_apply]
  exact ends_modify (ends_modify (.here ⟨_, rfl, rfl⟩))

/-- The link's word for the key is not a pairing. -/
theorem gateway_expecting_ends (hgw : hasGatewayMarker host = true)
    (hcur : s.isCurrentConnect n = true) {route : Option GatewayTransportTarget} :
    (tryCatch (Ctl.dialExpecting env host route n dial requestId generationId none)
        (Ctl.dialFailed host n generationId none) c K err).Ends (LinkTurn link host stored n)
      (BackWith K fun _ s => s.snapshot.phase = .error) s := by
  simp only [Async.tryCatch_apply, Ctl.dialExpecting, Ctl.isCurrentConnect, Async.bind_apply,
    Async.get_apply, Async.pure_apply]
  refine .read ?_
  simp only [hcur, Bool.not_true, Bool.false_eq_true, if_false, Async.bind_apply]
  refine ends_perform ⟨_, "", rfl⟩ fun a s₁ h₁ ha => ?_
  have hcur₁ : s₁.isCurrentConnect n = true := h₁.current.trans hcur
  obtain ⟨id, rfl⟩ := ha
  simp only [LinkCapabilityOptions.connect, Bool.false_eq_true, if_false, ne_eq, not_true_eq_false,
    false_and, Ctl.unwrap, Async.pure_apply, Ctl.dialConnected, Ctl.isCurrentConnect, Async.bind_apply,
    Async.get_apply, hgw, Ctl.readPresentedKey]
  refine .read ?_
  simp only [hcur₁, Bool.not_true, Bool.false_eq_true, if_false, not_true_eq_false, or_self,
    Bool.not_false, and_self, if_true, Async.bind_apply]
  refine ends_close fun s₂ h₂ => ?_
  exact gateway_failed_ends none hgw (h₂.current.trans hcur₁)

theorem gateway_ends (hgw : host.gateway ≠ none) (hcur : s.isCurrentConnect n = true) :
    (Ctl.dial env host n requestId c K err).Ends (LinkTurn link host stored n)
      (BackWith K fun _ s => s.snapshot.phase = .error) s := by
  obtain ⟨marker, hm⟩ := Option.ne_none_iff_exists'.mp hgw
  have hmarker : hasGatewayMarker host = true := by rw [hasGatewayMarker, hm]; rfl
  simp only [Ctl.dial, Ctl.createId, Ctl.setSnapshot, Async.bind_apply, Async.get_apply,
    Async.modifyGet_apply, Async.attempt_apply, Ctl.expectedKey, hm]
  refine .read (.read (.write (ends_modify (ends_modify (ends_modify ?_)))))
  cases Ctl.gatewayAdmission env host with
  | some message =>
    refine gateway_failed_ends none hmarker ?_
    exact hcur
  | none =>
    refine gateway_expecting_ends hmarker ?_
    exact hcur

theorem accepted_pinOf (previous : Option HostKeyTrustPin) (key : PresentedHostKey) :
    PinOf key (acceptedHostKeyPin previous key) := by
  rcases previous with _ | pin
  · exact .inr rfl
  · cases pin
    · exact .inl rfl
    · exact .inr rfl

variable {result : ActionResult SshConnectionRef}

theorem LinkOutcome.judged_iff {key : PresentedHostKey} (h : LinkOutcome host key expected result s) :
    Judged host key expected result s ↔ ∀ pin, expected = some pin → PinOf key pin := by
  cases h with
  | unknown hnone hd =>
    subst hnone
    refine ⟨fun _ pin hpin => ?_, fun _ => hd⟩
    cases hpin
  | trusted htrusted hc =>
    obtain _ | pin := expected
    · cases htrusted
    · obtain ⟨ref, -, hphase, -⟩ := id hc
      constructor
      · intro hj _ hpin
        obtain rfl := Option.some.inj hpin
        by_contra hne
        -- the user is not asked about a connection that is held
        have hasked := (hj.2 hne).1
        rw [hphase] at hasked
        cases hasked
      · exact fun hpin => ⟨fun _ => hc, fun hne => absurd (hpin _ rfl) hne⟩
  | changed hsome hverdict hf =>
    obtain _ | pin := expected
    · exact absurd rfl hsome
    · have hne : ¬ PinOf key pin := fun hpin => hverdict (verify_trusted_of hpin)
      constructor
      · intro hj
        have hasked := (hj.2 hne).1
        rw [hf.2.1] at hasked
        cases hasked
      · exact fun hpin => absurd (hpin _ rfl) hne

theorem not_judged_of_error {key : PresentedHostKey}
    (h : s.snapshot.phase = .error) : ¬ Judged host key expected result s := by
  intro hj
  obtain _ | pin := expected
  · have hasked := hj.1
    rw [h] at hasked
    cases hasked
  · by_cases hpin : PinOf key pin
    · obtain ⟨ref, -, hphase, -⟩ := hj.1 hpin
      rw [h] at hphase
      cases hphase
    · have hasked := (hj.2 hpin).1
      rw [h] at hasked
      cases hasked

/-- However it is started, a dial over a link that is up ends as the rule says exactly for
a host without a gateway of which no key is expected, or the one of this relay and token.
What the user accepts of it is such a key. -/
theorem link_dial (h : s.isCurrentConnect n = true) :
    (Ctl.dial env host n requestId c K err).Ends (LinkTurn link host stored n)
      (BackWith K fun result s' =>
        Judged host link.presentedKey (expectedPin host stored s) result s' ↔
          host.gateway = none ∧
            ∀ pin, expectedPin host stored s = some pin → PinOf link.presentedKey pin) s ∧
      ∀ previous, PinOf link.presentedKey (acceptedHostKeyPin previous link.presentedKey) := by
  refine ⟨?_, fun previous => accepted_pinOf previous _⟩
  by_cases hgw : host.gateway = none
  · refine (dial_ends hgw h).mono ?_
    rintro t s' ⟨result, ht, hout⟩
    exact ⟨result, ht, hout.judged_iff.trans (iff_and_self.mpr fun _ => hgw)⟩
  · refine (gateway_ends hgw h).mono ?_
    rintro t s' ⟨result, ht, herror⟩
    refine ⟨result, ht, fun hj => absurd hj (not_judged_of_error herror), fun hc => ?_⟩
    exact absurd hc.1 hgw

end

/-- A link whose user has just changed the token. -/
def rekeyedLink : LinkCapabilityOptions := ⟨"wss://relay.example/link", "new", id⟩

/-- What was trusted under the token before. -/
def formerPin : HostKeyTrustPin :=
  .wireKey { rekeyedLink with token := "old" : LinkCapabilityOptions }.presentedKey

theorem link_dial_rekeyed :
    (Ctl.dial obligingEnv (plainHost "A") 0 "r" .connect (fun _ => .done) (fun _ => .done)).Ends
      (LinkTurn rekeyedLink (plainHost "A") (some formerPin) 0)
      (BackWith (fun _ => .done) fun result s' =>
        Judged (plainHost "A") rekeyedLink.presentedKey
            (expectedPin (plainHost "A") (some formerPin) initial) result s' ↔
          (plainHost "A").gateway = none ∧
            ∀ pin, expectedPin (plainHost "A") (some formerPin) initial = some pin →
              PinOf rekeyedLink.presentedKey pin) initial ∧
      ∀ previous, PinOf rekeyedLink.presentedKey (acceptedHostKeyPin previous rekeyedLink.presentedKey) :=
  link_dial rfl

/-- The platform of a rekeyed link. -/
def rekeyed : (q : Req) → Option (Ans q)
  | (_, .connect options) => some (rekeyedLink.connect false options (.ready "1"))
  | (_, .trustGet _ _) => some (.ok (some formerPin))
  | q => obliging "1" q

/-- The user is not asked about the changed link: its refusal is taken for one that is
worth another dial. -/
theorem changed_link_retried :
    ∃ cfg, (controller obligingEnv).Reach Coop.System.any start cfg ∧
      ¬ PinOf rekeyedLink.presentedKey formerPin ∧ cfg.parked = [] ∧
      cfg.state.snapshot.phase = .error ∧ cfg.state.snapshot.trustDecision = none ∧
      cfg.state.lastDialRetryable = true := by
  have hplay := Coop.System.played_any (controller obligingEnv) start
    (.start (.connect (plainHost "A")) :: List.replicate 6 (.reply 0 rekeyed))
    (p := fun c => c.parked.isEmpty && decide (c.state.snapshot.phase = .error) &&
      c.state.snapshot.trustDecision.isNone && c.state.lastDialRetryable) (by decide +kernel)
  obtain ⟨cfg, hreach, hp⟩ := hplay
  simp only [Bool.and_eq_true, List.isEmpty_iff, decide_eq_true_eq, Option.isNone_iff_eq_none] at hp
  obtain ⟨⟨⟨hparked, hphase⟩, hdecision⟩, hretry⟩ := hp
  exact ⟨cfg, hreach, by decide +kernel, hparked, hphase, hdecision, hretry⟩

end PocketShell
