import PocketShell.Connection.Recovery

/-!
# Which transports are trusted

* `trust_kept`: the connection that is held, the ones that were not, the pins that
  were written and the keys that were accepted once.
-/

namespace PocketShell

open Coop (System)

variable {env : Env} {ok : Allowed} {cfg : Coop.Config State Ans Head} {g : Segment} {o : Set Tok}
  {s : State}

/-- Every call that was issued has been answered. -/
def Settled (log : List Event) : Prop := ∀ q, .asked q ∈ log → ∃ a, .answered q a ∈ log

/-- The platform returned this connection for a dial. -/
def ReturnedFor (log : List Event) (dial : Nat) (ref : SshConnectionRef) : Prop :=
  ∃ op options result, .answered (op, .connect options) (.ok result) ∈ log ∧
    options.dial = dial ∧ result.ref = ref

/-- A returned connection is held for a while, or is asked to be cancelled, and
then to be closed. -/
theorem returned_closed (h : (controller env).Reach ok start cfg) (hs : Settled cfg.state.log)
    {dial : Nat} {ref : SshConnectionRef} (hr : ReturnedFor cfg.state.log dial ref) :
    (∃ c : Connection, c.ref = ref ∧ c.dial = dial ∧ .adopted c ∈ cfg.state.log) ∨
      ∃ op id, .asked (op, .closeConnection ref id) ∈ cfg.state.log := by
  obtain ⟨op, options, result, ha, rfl, rfl⟩ := hr
  have hans := reach_answered h
  rcases (hans _ _ ha).returned _ _ _ rfl with hheld | ⟨op, id, hcancel⟩
  · exact .inl hheld
  · obtain ⟨a, hcancelled⟩ := hs _ hcancel
    have htick := (hans _ _ hcancelled).cancelled _ _ _ _ rfl
    obtain ⟨a', hticked⟩ := hs _ htick
    obtain ⟨id', hclose⟩ := (hans _ _ hticked).closed _ _ _ rfl
    exact .inr ⟨op, id', hclose⟩

/-- The key of the decision that is pending in `s`, as the pin it is accepted as. -/
def AcceptsPending (s : State) (hostId : String) (pin : HostKeyTrustPin) : Prop :=
  ∃ d, s.snapshot.trustDecision = some d ∧ d.hostId = hostId ∧
    pin = acceptedHostKeyPin d.previouslyTrusted d.presented ∧
    verifyHostKeyTrustPin (some pin) d.presented = .trusted

theorem AcceptsPending.of_host (hi : LinkInv s) {d : PendingHostKeyDecision} {host : SshHostTarget}
    (hd : s.snapshot.trustDecision = some d) (hh : s.host = some host) :
    AcceptsPending s host.hostId (acceptedHostKeyPin d.previouslyTrusted d.presented) := by
  obtain ⟨host', hh', hid, _⟩ := hi.decision d hd
  rw [hh] at hh'
  cases hh'
  exact ⟨d, hd, hid.symm, rfl, verify_accepted _ _⟩

/-- A pin is written in the step of a call that accepts the pending key for good. -/
theorem Entered.record (hi : LinkInv g.source) {op : Operation} {hostId : String}
    {pin : HostKeyTrustPin} (h : Entered ok env g o s (.asked (op, .trustRecord hostId pin))) :
    ∃ passphrase, g.label = .start (.acceptPresentedHostKey passphrase true) ∧
      AcceptsPending g.source hostId pin := by
  obtain ⟨passphrase, d, host, hlabel, hd, hh, rfl, rfl⟩ := h.2
  exact ⟨passphrase, hlabel, .of_host hi hd hh⟩

/-- A key is accepted once in the step of a call that accepts it so, and only where
the host had no pin. -/
theorem Entered.once (hi : LinkInv g.source) {once : OnceTrusted}
    (h : Entered ok env g o s (.trustedOnce once)) :
    ∃ passphrase, g.label = .start (.acceptPresentedHostKey passphrase false) ∧
      AcceptsPending g.source once.hostId once.pin ∧
      ∃ d, g.source.snapshot.trustDecision = some d ∧ d.reason = .unknown ∧
        d.previouslyTrusted = none := by
  obtain ⟨passphrase, d, host, hlabel, hd, hh, hreason, rfl⟩ := h
  refine ⟨passphrase, hlabel, .of_host hi hd hh, d, hd, hreason, ?_⟩
  obtain ⟨_, _, _, _, hcase⟩ := hi.decision d hd
  rcases hcase with ⟨_, hprev⟩ | ⟨hmis, _⟩
  · exact hprev
  · rw [hmis] at hreason
    cases hreason

/-- The held connection is the one the host CLI runs over and the one the snapshot
names; it came from a dial of the current host with a verified key, and so did every
connection held before. What the platform returned beside those is closed. Pins are
written, and keys accepted once, only for the decision that is pending. -/
theorem trust_kept (h : (controller env).Reach ok start cfg) :
    (∀ c, cfg.state.connection = some c →
      ∃ host, cfg.state.host = some (hostWithoutTransientPassphrase host) ∧
        Verified cfg.state.log host c) ∧
    (cfg.state.hostCli = cfg.state.connection ∧
      (∀ id, cfg.state.snapshot.connectionId = some id →
        ∃ c, .adopted c ∈ cfg.state.log ∧ c.ref.connectionId = id) ∧
      ∀ c, .adopted c ∈ cfg.state.log → ∃ host, Verified cfg.state.log host c) ∧
    (Settled cfg.state.log → ∀ dial ref, ReturnedFor cfg.state.log dial ref →
      (∃ c : Connection, c.ref = ref ∧ c.dial = dial ∧ .adopted c ∈ cfg.state.log) ∨
        ∃ op id, .asked (op, .closeConnection ref id) ∈ cfg.state.log) ∧
    ∀ l cfg', ok cfg.state l → (controller env).Step cfg l cfg' →
      ∃ es, cfg'.state.log = cfg.state.log ++ es ∧
        (∀ op hostId pin, .asked (op, .trustRecord hostId pin) ∈ es →
          ∃ passphrase, l = .start (.acceptPresentedHostKey passphrase true) ∧
            AcceptsPending cfg.state hostId pin) ∧
        ∀ once, .trustedOnce once ∈ es →
          ∃ passphrase, l = .start (.acceptPresentedHostKey passphrase false) ∧
            AcceptsPending cfg.state once.hostId once.pin ∧
            ∃ d, cfg.state.snapshot.trustDecision = some d ∧ d.reason = .unknown ∧
              d.previouslyTrusted = none := by
  have hi := reach_inv h
  refine ⟨hi.verified, ⟨hi.hostCli, hi.named, hi.adopted⟩, fun hs dial ref => returned_closed h hs, ?_⟩
  intro l cfg' hok hs
  obtain ⟨es, hl, hes⟩ := step_entries h hok hs
  refine ⟨es, hl, fun op hostId pin he => ?_, fun once he => ?_⟩
  · obtain ⟨o, s, _, _, _, hent⟩ := hes _ he
    exact hent.record hi.toLinkInv
  · obtain ⟨o, s, _, _, _, hent⟩ := hes _ he
    exact hent.once hi.toLinkInv

theorem trust_kept_connected :
    ∃ cfg c host, (controller obligingEnv).Reach System.any start cfg ∧
      cfg.state.connection = some c ∧ Verified cfg.state.log host c := by
  obtain ⟨cfg, hreach, hp⟩ := System.played_any (controller obligingEnv) start (connecting "A" 0)
    (p := fun c => c.state.connection.isSome) (by decide +kernel)
  obtain ⟨c, hc⟩ := Option.isSome_iff_exists.mp hp
  obtain ⟨host, _, hv⟩ := (trust_kept hreach).1 c hc
  exact ⟨cfg, c, host, hreach, hc, hv⟩

end PocketShell
