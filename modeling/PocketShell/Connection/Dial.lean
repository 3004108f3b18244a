import PocketShell.Connection.Closing

/-!
# Dialling

What a dial keeps and what it leaves behind, whoever makes it.

* `MayShow`: the step under way may change the snapshot.
* `Dialling`: what a dial knows while it runs; `DialEnded`: what is known when it
  has ended.
* `Expected`: the key a dial expects is one that makes the presented key trusted.
* `dial_spec`: the rule for `dial`.
-/

namespace PocketShell

open Coop (Async Thread Discipline)

variable {env : Env} {ok : Allowed} {c : Operation} {g : Segment} {o : Set Tok}
  {post : State → Prop} {s s' : State}

/-! ## Steps that may change the snapshot -/

structure MayShow (ok : Allowed) (g : Segment) (s : State) : Prop where
  shows : Shows ok g
  awake : s.snapshot.phase ≠ .background ∨ wakes g.source g.label = true

theorem Calm.mayShow (h : Calm c g) (hc : c.isNoisy = true) : MayShow ok g s :=
  ⟨h.shows, .inr (h.wakes hc)⟩

theorem MayShow.turn {g' : Segment} (h : MayShow ok g s) (hc : c.isNoisy = true)
    (ht : Turn c g s g' s') : MayShow ok g' s' := by
  rcases ht with ⟨rfl, hs⟩ | hg
  · exact ⟨h.shows, hs ▸ h.awake⟩
  · exact hg.mayShow hc

variable {p : ConnectionSnapshot → ConnectionSnapshot}

/-- A snapshot update that leaves the background. -/
theorem MayShow.patch (h : MayShow ok g s) (hp : (p s.snapshot).phase ≠ .background)
    (hc : (p s.snapshot).phase = .reconnecting → s.snapshot.phase = .reconnecting ∨ s.connection = none)
    (ht : (p s.snapshot).trustDecision = s.snapshot.trustDecision ∨
      ((p s.snapshot).trustDecision = none ∧ (course s.connectIntent s.log).shown = false))
    (hl : Linked s.log s.snapshot (p s.snapshot)) : Patch ok g s p where
  trust := ht.imp id fun ⟨h₁, h₂⟩ => ⟨h₁, .inr h₂⟩
  leaves := fun hb => .inr (h.awake.resolve_left fun hn => hn hb)
  enters := fun hb => absurd hb hp
  climbs := hc
  shows := .inr h.shows
  link := hl

/-- `setSnapshot`, out of the background. -/
theorem Ctx.publish {K : Unit → Thread State Ans Head}
    {err : Thrown → Thread State Ans Head} (h : Ctx env ok c g o post s) (hm : MayShow ok g s)
    (hp : (p s.snapshot).phase ≠ .background)
    (hc : (p s.snapshot).phase = .reconnecting → s.snapshot.phase = .reconnecting ∨ s.connection = none)
    (ht : (p s.snapshot).trustDecision = s.snapshot.trustDecision ∨
      ((p s.snapshot).trustDecision = none ∧ (course s.connectIntent s.log).shown = false))
    (hl : Linked s.log s.snapshot (p s.snapshot))
    (hk : Rely o s (s.setSnapshot p) → Ctx env ok c g o post (s.setSnapshot p) →
      MayShow ok g (s.setSnapshot p) → Runs env ok (K ()) o (s.setSnapshot p) post) :
    Runs env ok (Ctl.setSnapshot p c K err) o s post := by
  have w : ∀ o, Write ok env g o true s (s.setSnapshot p) := fun _ =>
    .patch p (hm.patch hp hc ht hl)
  exact h.update (w o) fun h' => hk (.of_write h.inv (w ∅)) h' ⟨hm.shows, .inl hp⟩

/-- A snapshot update that neither enters nor leaves the background. -/
theorem Patch.stay (hs : Shows ok g)
    (hb : (p s.snapshot).phase = .background ↔ s.snapshot.phase = .background)
    (hc : (p s.snapshot).phase ≠ .reconnecting)
    (ht : (p s.snapshot).trustDecision = s.snapshot.trustDecision)
    (hl : Linked s.log s.snapshot (p s.snapshot)) : Patch ok g s p where
  trust := .inl ht
  leaves := fun h => .inl (hb.mpr h)
  enters := fun h => .inl (hb.mp h)
  climbs := fun h => absurd h hc
  shows := .inr hs
  link := hl

/-- `setSnapshot` under the same phase. -/
theorem Ctx.amend {K : Unit → Thread State Ans Head}
    {err : Thrown → Thread State Ans Head} (h : Ctx env ok c g o post s)
    (hp : (p s.snapshot).phase = s.snapshot.phase)
    (ht : (p s.snapshot).trustDecision = s.snapshot.trustDecision)
    (hs : SameView s.snapshot (p s.snapshot) ∨ Shows ok g)
    (hl : Linked s.log s.snapshot (p s.snapshot))
    (hk : Rely o s (s.setSnapshot p) → Ctx env ok c g o post (s.setSnapshot p) →
      Runs env ok (K ()) o (s.setSnapshot p) post) :
    Runs env ok (Ctl.setSnapshot p c K err) o s post := by
  have w : ∀ o, Write ok env g o true s (s.setSnapshot p) := fun _ =>
    .patch p ⟨.inl ht, fun hb => .inl (hp.trans hb), fun hb => .inl (hp ▸ hb),
      fun hr => .inl (hp ▸ hr), hs, hl⟩
  exact h.update (w o) fun h' => hk (.of_write h.inv (w ∅)) h'

/-- Awaiting the platform's answer to a connect. -/
theorem Ctx.connect {options : SshConnectOptions}
    {K : Except SshCapabilityError SshConnectResult → Thread State Ans Head}
    {err : Thrown → Thread State Ans Head} (h : Ctx env ok c g o post s) (hc : c.isNoisy = true)
    (ha : MayShow ok g s)
    (hok : ∀ g' post' s' result, g'.label = .reply (c, .connect options) (.ok result) →
      Rely o s s' → .answered (c, .connect options) (.ok result) ∈ s'.log → MayShow ok g' s' →
      Quiet ok s' → Mid env ok c g' o post' s' → Runs env ok (K (.ok result)) o s' post')
    (herr : ∀ g' post' s' e, Rely o s s' → MayShow ok g' s' → Ctx env ok c g' o post' s' →
      Runs env ok (K (.error e)) o s' post') :
    Runs env ok (Ctl.perform (.connect options) c K err) o s post := by
  refine h.perform ha.awake (fun _ _ _ _ _ _ he => by cases he) fun s₁ a post' hr hq _ hm => ?_
  have hr₁ : Rely o s (s₁.addLog (.answered (c, .connect options) a)) := by
    have hasked : Rely o s (s.addLog (.asked (c, .connect options))) :=
      .addLog _ (fun _ _ => rfl) fun _ => id
    refine (hasked.trans hr).trans (.addLog _ (fun n k => ?_) fun _ => id)
    have hf : ladderFailure n (c, .connect options) a = false := by cases c <;> rfl
    simp [Course.step, hf]
  have hshow : ∀ s₂, MayShow ok ⟨.reply (c, .connect options) a, s₁⟩ s₂ :=
    fun _ => ⟨.inl rfl, .inr (by simp [wakes, hc])⟩
  have hq' : Quiet ok (s₁.addLog (.answered (c, .connect options) a)) :=
    hq.addLog _ (fun k => Course.step_answered_shown _ k (c, .connect options) a) fun _ => rfl
  cases a with
  | ok result =>
    exact hok _ post' _ result rfl hr₁ (List.mem_append_right _ (List.mem_singleton.mpr rfl))
      (hshow _) hq' hm
  | error e =>
    exact herr _ post' _ e hr₁ (hshow _) (hm.settle ⟨hq', .failed⟩)

/-! ## What a dial knows -/

/-- The `k`-th dial of the intent `n`, numbered `d`, is under way. -/
structure Dialling (ok : Allowed) (c : Operation) (host : SshHostTarget) (n k d : Nat) (s : State) :
    Prop where
  dialled : .dialled n d host ∈ s.log
  course : course n s.log = ⟨k, false, false⟩
  host : s.isCurrentConnect n = true → s.host = some (hostWithoutTransientPassphrase host)
  connection : s.isCurrentConnect n = true → s.connection = none
  terminals : ¬ DropsOpenPty ok → s.isCurrentConnect n = true → s.terminals = [] ∨ ∃ m, c = .ladder m

/-- How a dial left things. -/
structure DialEnded (host : SshHostTarget) (n k : Nat) (result : ActionResult SshConnectionRef)
    (s : State) : Prop where
  dials : (course n s.log).dials = k
  fresh : (course n s.log).failed = false
  host : s.isCurrentConnect n = true → s.host = some (hostWithoutTransientPassphrase host)
  refused : s.isCurrentConnect n = true → ∀ reason message, result = .refused reason message →
    s.connection = none ∧
      (reason = .trustRequired ∨ reason = .trustMismatch → (course n s.log).shown = true)
  held : ∀ ref, result = .ok ref →
    ∃ c h, c.ref = ref ∧ .dialled n c.dial h ∈ s.log ∧ Since n (.adopted c) s.log

/-- A key that is trusted against `expected` is one the host was verified by. -/
def Expected (log : List Event) (host : SshHostTarget) (d : Nat) (expected : Option HostKeyTrustPin) :
    Prop :=
  hasGatewayMarker host = false → ∀ presented,
    verifyHostKeyTrustPin expected presented = .trusted → TrustedKey log host d presented

variable {host : SshHostTarget} {n k d : Nat} {expected : Option HostKeyTrustPin}

theorem Expected.mono {log log' : List Event} (h : Expected log host d expected) (hl : log ⊆ log') :
    Expected log' host d expected :=
  fun hg presented hv => (h hg presented hv).mono hl

namespace Dialling

theorem current (h : Dialling ok c host n k d s) : (PocketShell.course n s.log).shown = false := by
  rw [h.course]

/-- Nobody but the owner of the intent disturbs its dial. -/
theorem later (h : Dialling ok c host n k d s) (hr : Rely o s s') (ho : .intent n ∈ o)
    (hn : n ≤ s.connectIntent) : Dialling ok c host n k d s' where
  dialled := hr.1.log_subset h.dialled
  course := ((hr.2 _ ho).dials hn).trans h.course
  host := fun hc => ((hr.2 _ ho).host hn hc).trans (h.host ((hr.2 _ ho).current hn hc))
  connection := fun hc => by
    have hs := h.connection ((hr.2 _ ho).current hn hc)
    rcases (hr.2 _ ho).connection hn hc with he | he
    · rw [he, hs]
    · exact he
  terminals := fun hd hc => by
    have hc' := (hr.2 _ ho).current hn hc
    refine (h.terminals hd hc').imp (fun ht => ?_) id
    have hsub := (hr.2 _ ho).terminals hn hc (h.connection hc')
    rw [ht] at hsub
    exact List.eq_nil_of_subset_nil hsub

/-- A dial that was given up, or that failed without asking the user anything. -/
theorem ended (h : Dialling ok c host n k d s) (message : String) :
    DialEnded host n k (.refused .failed message) s where
  dials := by rw [h.course]
  fresh := by rw [h.course]
  host := h.host
  refused := by
    rintro hc reason m he
    cases he
    exact ⟨h.connection hc, fun ht => by rcases ht with ht | ht <;> cases ht⟩
  held := fun _ he => by cases he

end Dialling

/-! ## Refused dials -/

section

variable {K : ActionResult SshConnectionRef → Thread State Ans Head}
  {err : Thrown → Thread State Ans Head} {generationId : String}

/-- Where a dial leaves off. -/
def Resumes (env : Env) (ok : Allowed) (c : Operation) (host : SshHostTarget) (n k : Nat) (o : Set Tok)
    (K : ActionResult SshConnectionRef → Thread State Ans Head) : Prop :=
  ∀ result g post s, DialEnded host n k result s → Ctx env ok c g o post s →
    Runs env ok (K result) o s post

theorem presentHostKeyDecision_spec {presented : PresentedHostKey} {verdict : KnownHostsVerdict}
    (h : Ctx env ok c g o post s) (ho : .intent n ∈ o) (hm : MayShow ok g s)
    (hd : Dialling ok c host n k d s) (hcur : s.isCurrentConnect n = true)
    (hgw : hasGatewayMarker host = false)
    (hv : verdict = verifyHostKeyTrustPin expected presented) (hne : verdict ≠ .trusted)
    (hk : Resumes env ok c host n k o K) :
    Runs env ok (Ctl.presentHostKeyDecision host n generationId expected presented verdict c K err)
      o s post := by
  have hdec : (if verdict = .mismatch then KnownHostsVerdict.mismatch else .unknown) = .unknown ∧
        expected = none ∨
      (if verdict = .mismatch then KnownHostsVerdict.mismatch else .unknown) = .mismatch ∧
        expected ≠ none := by
    cases hver : verdict with
    | trusted => exact absurd hver hne
    | unknown => exact .inl ⟨rfl, verify_unknown_iff.mp (hv ▸ hver)⟩
    | mismatch =>
      refine .inr ⟨rfl, fun he => ?_⟩
      rw [hver, he] at hv
      cases hv
  simp only [Ctl.presentHostKeyDecision, Async.bind_apply, Async.pure_apply]
  refine h.update (.presented n _ _ (hostWithoutTransientPassphrase host) ho hcur (hd.host hcur)
    (hostWithoutTransientPassphrase_hostId host) ?_ hdec rfl rfl hm.awake hm.shows (.inl rfl))
    fun h' => ?_
  · simpa [hasGatewayMarker] using hgw
  · refine hk _ g post _ ?_ h'
    refine ⟨?_, ?_, hd.host, fun _ reason m _ => ⟨hd.connection hcur, fun _ => ?_⟩,
      fun _ he => by cases he⟩ <;>
    simp [Course.step, hd.course]

theorem failGatewayDial_spec {error : Thrown} (h : Ctx env ok c g o post s) (ho : .intent n ∈ o)
    (hm : MayShow ok g s) (hd : Dialling ok c host n k d s) (hcur : s.isCurrentConnect n = true)
    (hk : Resumes env ok c host n k o K) :
    Runs env ok (Ctl.failGatewayDial error generationId c K err) o s post := by
  have hn := (State.isCurrentConnect_iff.mp hcur).2
  simp only [Ctl.failGatewayDial, Async.bind_apply, Async.pure_apply]
  refine h.update (.retryable n _ ho hcur) fun h₁ => ?_
  refine h₁.publish ⟨hm.shows, hm.awake⟩ (by simp) (by simp) (.inr ⟨rfl, ?_⟩) (.inl rfl) fun _ h₂ _ => ?_
  · show (course s.connectIntent s.log).shown = false
    rw [hn, hd.course]
  · exact hk _ g post _ ⟨(hd.ended "").dials, (hd.ended "").fresh, hd.host, (hd.ended _).refused,
      fun _ he => by cases he⟩ h₂

theorem dialFailed_spec {error : Thrown} (h : Ctx env ok c g o post s) (ho : .intent n ∈ o)
    (hm : MayShow ok g s) (hd : Dialling ok c host n k d s) (hk : Resumes env ok c host n k o K) :
    Runs env ok (Ctl.dialFailed host n generationId expected error c K err) o s post := by
  simp only [Ctl.dialFailed, Ctl.isCurrentConnect, Async.bind_apply, Async.get_apply,
    Async.pure_apply, Discipline.wp_read]
  split
  · exact hk _ g post s (hd.ended _) h
  · next hcur =>
    have hcur : s.isCurrentConnect n = true := by simpa using hcur
    have hn := (State.isCurrentConnect_iff.mp hcur).2
    split
    · exact failGatewayDial_spec h ho hm hd hcur hk
    · next hgw =>
      have hgw : hasGatewayMarker host = false := by simpa using hgw
      refine h.update (.retryable n _ ho hcur) fun h₁ => ?_
      have hd₁ : Dialling ok c host n k d
          { s with lastDialRetryable := isRetryableDialError error } := ⟨hd.1, hd.2, hd.3, hd.4, hd.5⟩
      have hfail : ∀ message : String, Runs env ok
          ((do
            Ctl.setSnapshot fun sn =>
              { sn with
                phase := .error
                error := some message
                generationId := some generationId
                trustDecision := none }
            return .refused .failed message : Ctl (ActionResult SshConnectionRef)) c K err)
          o { s with lastDialRetryable := isRetryableDialError error } post := by
        intro message
        refine h₁.publish ⟨hm.shows, hm.awake⟩ (by simp) (by simp) (.inr ⟨rfl, ?_⟩) (.inl rfl) fun _ h₂ _ => ?_
        · show (course s.connectIntent s.log).shown = false
          rw [hn, hd.course]
        · exact hk _ g post _ ⟨(hd.ended "").dials, (hd.ended "").fresh, hd.host,
            (hd.ended message).refused, fun _ he => by cases he⟩ h₂
      split
      · split
        · next hrej =>
          exact presentHostKeyDecision_spec h₁ ho ⟨hm.shows, hm.awake⟩ hd₁ hcur hgw rfl hrej.2 hk
        · exact hfail _
      · exact hfail _

end

/-! ## Answered dials -/

section

variable {options : SshConnectOptions} {connected : SshConnectResult}

/-- A connection that is not wanted is asked to be cancelled before anything else. -/
theorem Mid.closeReturned {K : Unit → Thread State Ans Head} {err : Thrown → Thread State Ans Head}
    (h : Mid env ok c g o post s) (hq : Quiet ok s)
    (hl : g.label = .reply (c, .connect options) (.ok connected))
    (hk : ∀ g' post' s', Calm c g' → Rely o s s' → Ctx env ok c g' o post' s' →
      Runs env ok (K ()) o s' post') :
    Runs env ok (Ctl.settled .closeReturnedConnection
      (Ctl.closeReturnedConnection env connected.ref) c K err) o s post := by
  simp only [Ctl.settled, Ctl.closeReturnedConnection, Async.bind_apply, Async.attempt_apply]
  refine h.cancelAndClose hq (fun id => ?_) fun g₁ post₁ s₁ _ hr₁ h₁ => ?_
  · rw [hl]
    exact .connected (.inr ⟨c, id, List.mem_append_right _ (List.mem_singleton.mpr rfl)⟩)
  · exact h₁.pause rfl rfl trivial fun _ g₂ post₂ s₂ hg₂ hr₂ h₂ => hk g₂ post₂ s₂ hg₂ (hr₁.trans hr₂) h₂

/-- A key that passes the checks of the dial it was presented in is verified. -/
theorem Dialling.verified {log : List Event} {requestId generationId : String}
    {presented : PresentedHostKey} (hd : .dialled n d host ∈ log) (he : Expected log host d expected)
    (ha : .answered (c, .connect options) (.ok connected) ∈ log)
    (hopt : options.host = host ∧ options.dial = d ∧ options.generationId = generationId ∧
      options.requestId = requestId)
    (hid : connected.requestId = requestId ∧ connected.generationId = generationId)
    (hp : Ctl.readPresentedKey connected.hostKey.keyType connected.hostKey.keyB64
      connected.hostKey.fingerprintSha256 = some presented)
    (hgw : hasGatewayMarker host = true → connected.gatewayHostKeyVerified = true)
    (hv : hasGatewayMarker host = false → verifyHostKeyTrustPin expected presented = .trusted) :
    Verified log host ⟨⟨connected.connectionId, generationId⟩, d⟩ := by
  refine ⟨⟨n, hd⟩, c, options, connected, presented, ha, hopt.1, hopt.2.1, hopt.2.2.1, ?_, ?_, hp, ?_⟩
  · rw [hid.1, hopt.2.2.2]
  · rw [SshConnectResult.ref, hid.2]
  · split
    · next hgm => exact hgw hgm
    · next hgm =>
      have hgm : hasGatewayMarker host = false := by simpa using hgm
      exact he hgm presented (hv hgm)

section

variable {K : ActionResult SshConnectionRef → Thread State Ans Head}
  {err : Thrown → Thread State Ans Head} {generationId : String}

/-- The end of a dial that is accepted. -/
theorem Mid.adopted {p : ConnectionSnapshot → ConnectionSnapshot} {conn : Connection}
    (h : Mid env ok c g o post s) (hq : Quiet ok s) (ho : .intent n ∈ o) (hm : MayShow ok g s)
    (hd : Dialling ok c host n k d s) (hcur : s.isCurrentConnect n = true)
    (hv : Verified s.log host conn) (hl : g.label = .reply (c, .connect options) (.ok connected))
    (hconn : connected.ref = conn.ref) (hdial : options.dial = conn.dial) (hnum : conn.dial = d)
    (hp : ∀ sn, (p sn).phase = .connected ∧ (p sn).trustDecision = none)
    (hlink : ∀ sn, (p sn).connectionId = some conn.ref.connectionId)
    (hk : Resumes env ok c host n k o K) :
    Runs env ok ((do
      modify fun s =>
        { s.addLog (.adopted conn) with
          connection := some conn, hostCli := some conn }.setSnapshot p
      return .ok conn.ref : Ctl (ActionResult SshConnectionRef)) c K err) o s post := by
  have hterm : ¬ DropsOpenPty ok →
      s.terminals = [] ∨ ∃ m q a, g.label = .reply (.ladder m, q) a := by
    intro hdr
    refine (hd.terminals hdr hcur).imp id ?_
    rintro ⟨m, rfl⟩
    exact ⟨m, _, _, hl⟩
  have w : Write ok env g o true s
      ({ s.addLog (.adopted conn) with
        connection := some conn, hostCli := some conn }.setSnapshot p) :=
    .adopt n host conn p ho hcur (hd.connection hcur) (hd.host hcur) hv hterm (hp _).2 hd.current
      (hp _).1 hm.awake hm.shows (hlink _)
  have hq₁ := w.quiet h.inv h.source h.allowed hq
  have hret : Answered g.label (s.addLog (.adopted conn)).log := by
    rw [hl]
    exact .connected
      (.inl ⟨conn, hconn.symm, hdial.symm, List.mem_append_right _ (List.mem_singleton.mpr rfl)⟩)
  have hcourse : course n (s.log ++ [.adopted conn]) = ⟨k, false, false⟩ := by
    rw [course_snoc, hd.course]
    rfl
  simp only [Async.bind_apply, Async.modify_apply, Discipline.wp_read]
  refine h.run w fun h₁ => ?_
  refine hk _ g post _ ⟨?_, ?_, hd.host, (fun _ _ _ he => by cases he), fun ref he => ?_⟩
    (h₁.settle ⟨hq₁, hret⟩)
  · exact congrArg Course.dials hcourse
  · exact congrArg Course.failed hcourse
  · cases he
    exact ⟨conn, host, rfl, List.mem_append_left _ (hnum ▸ hd.dialled), Since.entered rfl⟩

theorem dialConnected_spec {requestId : String} (h : Mid env ok c g o post s) (hq : Quiet ok s)
    (hc : c.isNoisy = true) (ho : .intent n ∈ o) (hm : MayShow ok g s) (hd : Dialling ok c host n k d s)
    (he : Expected s.log host d expected)
    (hl : g.label = .reply (c, .connect options) (.ok connected))
    (ha : .answered (c, .connect options) (.ok connected) ∈ s.log)
    (hopt : options.host = host ∧ options.dial = d ∧ options.generationId = generationId ∧
      options.requestId = requestId)
    (hk : Resumes env ok c host n k o K)
    (herr : ∀ e g' post' s', MayShow ok g' s' → Dialling ok c host n k d s' →
      Ctx env ok c g' o post' s' → Runs env ok (err e) o s' post') :
    Runs env ok (Ctl.dialConnected env host n d requestId generationId expected connected c K err)
      o s post := by
  have hn : n ≤ s.connectIntent := h.owned ho
  simp only [Ctl.dialConnected, Ctl.isCurrentConnect, Async.bind_apply, Async.get_apply,
    Async.pure_apply, Discipline.wp_read]
  split
  · exact h.closeReturned hq hl fun g' post' s' _ hr h' => hk _ g' post' s' ((hd.later hr ho hn).ended _) h'
  · next hcur =>
    have hcur : s.isCurrentConnect n = true := by simpa using hcur
    split
    · exact h.closeReturned hq hl fun g' post' s' _ hr h' =>
        hk _ g' post' s' ((hd.later hr ho hn).ended _) h'
    · next hid =>
      rw [not_or, not_not, not_not] at hid
      cases hp : Ctl.readPresentedKey connected.hostKey.keyType connected.hostKey.keyB64
        connected.hostKey.fingerprintSha256 with
      | none =>
        simp only [Async.bind_apply, Async.throw_apply]
        exact h.closeReturned hq hl fun g' post' s' hg hr h' =>
          herr _ g' post' s' (hg.mayShow hc) (hd.later hr ho hn) h'
      | some presented =>
        dsimp only
        split
        · simp only [Async.bind_apply, Async.throw_apply]
          exact h.closeReturned hq hl fun g' post' s' hg hr h' =>
            herr _ g' post' s' (hg.mayShow hc) (hd.later hr ho hn) h'
        · next hgw =>
          generalize hver : (if hasGatewayMarker host = true then KnownHostsVerdict.trusted
            else verifyHostKeyTrustPin expected presented) = verdict
          split
          · next hne =>
            have hng : hasGatewayMarker host = false := by
              by_contra hgm
              rw [if_pos (by simpa using hgm)] at hver
              exact hne hver.symm
            rw [if_neg (by simp [hng])] at hver
            simp only [Async.bind_apply]
            refine h.closeReturned hq hl fun g' post' s' hg hr h' => ?_
            have hd' := hd.later hr ho hn
            simp only [Async.get_apply, Discipline.wp_read, Async.pure_apply]
            split
            · exact hk _ g' post' s' (hd'.ended _) h'
            · next hcur' =>
              exact presentHostKeyDecision_spec h' ho (hg.mayShow hc) hd' (by simpa using hcur') hng
                hver.symm hne hk
          · next hne =>
            have hne : verdict = .trusted := by simpa using hne
            have hv : Verified s.log host ⟨⟨connected.connectionId, generationId⟩, d⟩ := by
              refine Dialling.verified hd.dialled he ha hopt hid hp (fun hgm => ?_) fun hgm => ?_
              · simpa [hgm] using hgw
              · rwa [if_neg (by simp [hgm]), hne] at hver
            exact h.adopted hq ho hm hd hcur hv hl (by rw [SshConnectResult.ref, hid.2]) hopt.2.1 rfl
              (fun _ => ⟨rfl, rfl⟩) (fun _ => rfl) hk

theorem dialExpecting_spec {route : Option GatewayTransportTarget} {requestId : String}
    (h : Ctx env ok c g o post s) (hc : c.isNoisy = true) (ho : .intent n ∈ o) (hm : MayShow ok g s)
    (hd : Dialling ok c host n k d s) (he : Expected s.log host d expected)
    (hk : Resumes env ok c host n k o K)
    (herr : ∀ e g' post' s', MayShow ok g' s' → Dialling ok c host n k d s' →
      Ctx env ok c g' o post' s' → Runs env ok (err e) o s' post') :
    Runs env ok (Ctl.dialExpecting env host route n d requestId generationId expected c K err)
      o s post := by
  have hn : n ≤ s.connectIntent := h.owned ho
  simp only [Ctl.dialExpecting, Ctl.isCurrentConnect, Async.bind_apply, Async.get_apply,
    Async.pure_apply, Discipline.wp_read]
  split
  · exact hk _ g post s (hd.ended _) h
  · simp only [Async.bind_apply]
    refine h.connect hc hm ?_ ?_
    · intro g' post' s' result hl hr ha hm' hq' h'
      exact dialConnected_spec h' hq' hc ho hm' (hd.later hr ho hn) (he.mono hr.1.log_subset) hl ha
        ⟨rfl, rfl, rfl, rfl⟩ hk herr
    · intro g' post' s' e hr hm' h'
      exact herr _ g' post' s' hm' (hd.later hr ho hn) h'

end

/-! ## The whole dial -/

section

variable {K : ActionResult SshConnectionRef → Thread State Ans Head}
  {err : Thrown → Thread State Ans Head}

theorem expectedKey_spec {K : Option GatewayTransportTarget × Option HostKeyTrustPin → Thread State Ans Head}
    (h : Ctx env ok c g o post s) (hc : c.isNoisy = true) (ho : .intent n ∈ o) (hm : MayShow ok g s)
    (hd : Dialling ok c host n k d s)
    (hk : ∀ route expected g' post' s', MayShow ok g' s' → Dialling ok c host n k d s' →
      Expected s'.log host d expected → Ctx env ok c g' o post' s' →
      Runs env ok (K (route, expected)) o s' post')
    (herr : ∀ e g' post' s', MayShow ok g' s' → Dialling ok c host n k d s' →
      Ctx env ok c g' o post' s' → Runs env ok (err e) o s' post') :
    Runs env ok (Ctl.expectedKey env host d c K err) o s post := by
  have hn : n ≤ s.connectIntent := h.owned ho
  unfold Ctl.expectedKey
  cases hg : host.gateway with
  | some marker =>
    dsimp only
    cases Ctl.gatewayAdmission env host with
    | some message => exact herr _ g post s hm hd h
    | none =>
      refine hk _ _ g post s hm hd (fun hgm => ?_) h
      simp [hasGatewayMarker, hg] at hgm
  | none =>
    simp only [Async.bind_apply]
    refine h.ask rfl trivial fun s₁ a post₁ hr _ _ _ h₁ => ?_
    have hcalm : Calm c ⟨.reply (c, .trustGet host.hostId d) a, s₁⟩ := ⟨_, _, rfl, rfl⟩
    have hd₁ := hd.later hr ho hn
    cases a with
    | error e => exact herr _ _ post₁ _ (hcalm.mayShow hc) hd₁ h₁
    | ok stored =>
      refine hk _ _ _ post₁ _ (hcalm.mayShow hc) hd₁ (fun _ presented hv => ?_) h₁
      refine ⟨c, stored, List.mem_append_right _ (List.mem_singleton.mpr rfl), ?_⟩
      cases stored with
      | some pin => exact .inl ⟨pin, rfl, hv⟩
      | none =>
        refine .inr ⟨rfl, ?_⟩
        cases honce : s₁.onceTrusted with
        | none => simp [honce, verifyHostKeyTrustPin] at hv
        | some once =>
          simp only [State.addLog_onceTrusted, honce, Option.filter_some] at hv
          split at hv
          · next hid =>
            have hid : once.hostId = host.hostId := by simpa using hid
            refine ⟨once.pin, ?_, hv⟩
            have hlog := h₁.inv.once once honce
            rwa [show (⟨host.hostId, once.pin⟩ : OnceTrusted) = once by rw [← hid]]
          · cases hv

/-- A dial of the current intent, with no connection held. -/
theorem dial_spec {requestId : String} (h : Ctx env ok c g o post s) (hc : c.isNoisy = true)
    (ho : .intent n ∈ o) (hm : MayShow ok g s) (hcur : s.isCurrentConnect n = true)
    (hhost : s.host = some (hostWithoutTransientPassphrase host)) (hconn : s.connection = none)
    (hterm : ¬ DropsOpenPty ok → s.terminals = [] ∨ ∃ m, c = .ladder m)
    (hdials : (course n s.log).dials + 1 = k) (hk : Resumes env ok c host n k o K) :
    Runs env ok (Ctl.dial env host n requestId c K err) o s post := by
  simp only [Ctl.dial, Async.bind_apply, Async.get_apply, Discipline.wp_read]
  generalize s.ids = d
  refine h.createId fun generationId s₁ hs _ h₁ => ?_
  have hcur₁ : s₁.isCurrentConnect n = true := hs.isCurrentConnect n ▸ hcur
  refine h₁.update (.dialled n d host ho hcur₁) fun h₂ => ?_
  refine h₂.update (.retryable n true ho hcur₁) fun h₃ => ?_
  refine h₃.publish ⟨hm.shows, by simpa [hs.snapshot] using hm.awake⟩ (by simp) (by simp)
    (.inl rfl) (.inl rfl) fun _ h₄ hm₄ => ?_
  simp only [Async.attempt_apply]
  refine expectedKey_spec (k := k) h₄ hc ho hm₄ ?_ ?_ ?_
  · refine ⟨List.mem_append_right _ (List.mem_singleton.mpr rfl), ?_, fun _ => hs.host.trans hhost,
      fun _ => hs.connection.trans hconn, fun hdr _ => (hterm hdr).imp (hs.terminals.trans ·) id⟩
    simp [Course.step, hs.log, hdials]
  · intro route expected g' post' s' hm' hd' he' h'
    refine dialExpecting_spec h' hc ho hm' hd' he' hk fun e g'' post'' s'' hm'' hd'' h'' => ?_
    exact dialFailed_spec h'' ho hm'' hd'' hk
  · intro e g' post' s' hm' hd' h'
    exact dialFailed_spec h' ho hm' hd' hk

end

end

end PocketShell
