import PocketShell.Connection.Reattach

/-!
# Connecting

`connect` and `acceptPresentedHostKey`: a new intent is taken, a live transport is
asked whether it still serves, and otherwise everything is closed and dialled
again.
-/

namespace PocketShell

open Coop (Async Thread Discipline)

variable {env : Env} {ok : Allowed} {c : Operation} {g : Segment} {o : Set Tok}
  {post : State → Prop} {s s' : State} {n : Nat} {host : SshHostTarget}

theorem Stops.extend {t : Thread State Ans Head} {o' : Set Tok} (h : Stops env ok c o t) (ho : o ⊆ o')
    (hc : Acts c o) : Stops env ok c o' t :=
  fun g post s h' => Runs.extend ho (h g post s (h'.part ho hc))

theorem Goes.extend {α : Type} {K : α → Thread State Ans Head} {I : State → Prop} {o' : Set Tok}
    (h : Goes env ok c o I K) (ho : o ⊆ o') (hc : Acts c o) : Goes env ok c o' I K :=
  fun result g post s hi h' => Runs.extend ho (h result g post s hi (h'.part ho hc))

/-! ## The reuse of a live transport -/

section

variable {K : Option (ActionResult (Option SshConnectionRef)) → Thread State Ans Head}
  {err : Thrown → Thread State Ans Head}

theorem reuseConnection_spec (h : Ctx env ok c g o post s) (hc : c.isNoisy = true)
    (hm : MayShow ok g s)
    (hk : ∀ result g' post' s', Rely o s s' → MayShow ok g' s' → Ctx env ok c g' o post' s' →
      Runs env ok (K result) o s' post') :
    Runs env ok (Ctl.reuseConnection env host n c K err) o s post := by
  simp only [Ctl.reuseConnection, Async.bind_apply, Async.get_apply, Discipline.wp_read]
  cases s.connection with
  | none => exact hk _ g post s .refl hm h
  | some live =>
    cases s.host with
    | none => exact hk _ g post s .refl hm h
    | some liveHost =>
      dsimp only
      split
      · simp only [Async.tryCatch_apply, Ctl.askReuse, Async.bind_apply]
        refine h.createId fun id s₁ _ hr₁ h₁ => ?_
        refine h₁.pause rfl rfl trivial fun a g₂ post₂ s₂ hg₂ hr₂ h₂ => ?_
        have hgo := fun result => hk result g₂ post₂ s₂ (hr₁.trans hr₂) (hg₂.mayShow hc) h₂
        cases a with
        | error e => exact hgo _
        | ok status =>
          simp only [Ctl.unwrap, Async.pure_apply, Async.get_apply, Discipline.wp_read]
          split
          · exact hgo _
          · split
            · exact hgo _
            · split
              · exact hgo _
              · exact hgo _
      · exact hk _ g post s .refl hm h

end

/-! ## A fresh dial -/

section

variable {K : ActionResult (Option SshConnectionRef) → Thread State Ans Head}
  {err : Thrown → Thread State Ans Head} {requestId : String}

theorem connectDial_spec (h : Ctx env ok c g o post s) (hc : c.isNoisy = true) (ho : .intent n ∈ o)
    (hg : Calm c g) (hcourse : course n s.log = ⟨0, false, false⟩)
    (hconn : s.isCurrentConnect n = true → s.connection = none)
    (hterm : ¬ DropsOpenPty ok → s.isCurrentConnect n = true → s.terminals = [])
    (hk : Goes env ok c o (fun _ => True) K) :
    Runs env ok (Ctl.connectDial env host n requestId c K err) o s post := by
  simp only [Ctl.connectDial, Ctl.isCurrentConnect, Async.bind_apply, Async.get_apply, Async.pure_apply,
    Discipline.wp_read]
  split
  · exact hk _ g post s trivial h
  · next hcur =>
    have hcur : s.isCurrentConnect n = true := by simpa using hcur
    have hm : MayShow ok g s := hg.mayShow hc
    simp only [Async.bind_apply]
    refine h.update (.rehost n host _ ho hcur (hconn hcur) rfl (by rw [hcourse]) (by simp)
      (hg.wakes hc) hm.shows (.inr (.inl rfl))) fun h₁ => ?_
    simp only [Ctl.settled, Async.bind_apply, Async.attempt_apply]
    refine dial_spec (k := 1) h₁ hc ho (hg.mayShow hc) hcur rfl (hconn hcur)
      (fun hd => .inl (hterm hd hcur)) ?_ fun result g₂ post₂ s₂ hd₂ h₂ => ?_
    · exact congrArg (·.dials + 1) hcourse
    refine h₂.pause rfl rfl trivial fun _ g₃ post₃ s₃ hg₃ hr₃ h₃ => ?_
    simp only [Async.pure_apply, Async.get_apply, Discipline.wp_read]
    split
    · exact hk _ g₃ post₃ s₃ trivial h₃
    · cases result with
      | ok ref =>
        simp only [Async.bind_apply]
        obtain ⟨conn, _, href, _, hconn⟩ := hd₂.held ref rfl
        exact h₃.publish (hg₃.mayShow hc) (by simp) (by simp) (.inl rfl)
          (.inr (.inr ⟨conn, hr₃.1.log_subset hconn.mem, href ▸ rfl⟩)) fun _ h₄ _ =>
            hk _ g₃ post₃ _ trivial h₄
      | refused reason message => exact hk _ g₃ post₃ s₃ trivial h₃

theorem connectFresh_spec (h : Ctx env ok c g o post s) (hc : c.isNoisy = true) (ho : .intent n ∈ o)
    (hcourse : course n s.log = ⟨0, false, false⟩) (hk : Goes env ok c o (fun _ => True) K) :
    Runs env ok (Ctl.connectFresh env host n requestId c K err) o s post := by
  rw [Ctl.connectFresh]
  refine closeEverything_spec h fun s₁ g₂ post₂ s₂ hr₁ hclosed hg₂ hr₂ h₂ => ?_
  have hn₁ : n ≤ s₁.connectIntent := (h.owned ho).trans hr₁.1.intent
  refine connectDial_spec h₂ hc ho hg₂ ?_ (fun hcur => ?_) (fun hd hcur => ?_) hk
  · rw [(hr₂.2 _ ho).dials hn₁, (hr₁.2 _ ho).dials (h.owned ho), hcourse]
  · rcases (hr₂.2 _ ho).connection hn₁ hcur with he | he
    · rw [he, hclosed.connection]
    · exact he
  · have hsub := (hr₂.2 _ ho).terminals hn₁ hcur hclosed.connection
    rw [hclosed.terminals hd] at hsub
    exact List.eq_nil_of_subset_nil hsub

theorem connectAdmitted_spec (h : Ctx env ok c g o post s) (hc : c.isNoisy = true) (ho : .intent n ∈ o)
    (hcourse : course n s.log = ⟨0, false, false⟩) (hk : Goes env ok c o (fun _ => True) K)
    (herr : ∀ e, Stops env ok c o (err e)) :
    Runs env ok (Ctl.connectAdmitted env host n requestId c K err) o s post := by
  simp only [Ctl.connectAdmitted, Async.bind_apply]
  refine h.pause rfl rfl trivial fun a g₁ post₁ s₁ hg₁ hr₁ h₁ => ?_
  cases a with
  | error e => exact herr _ g₁ post₁ s₁ h₁
  | ok _ =>
    simp only [Ctl.unwrap, Ctl.isCurrentConnect, Async.pure_apply, Async.bind_apply, Async.get_apply,
      Discipline.wp_read]
    split
    · exact hk _ g₁ post₁ s₁ trivial h₁
    · simp only [Async.bind_apply]
      refine reuseConnection_spec h₁ hc (hg₁.mayShow hc) fun result g₂ post₂ s₂ hr₂ _ h₂ => ?_
      cases result with
      | some result => exact hk _ g₂ post₂ s₂ trivial h₂
      | none =>
        refine connectFresh_spec h₂ hc ho ?_ hk
        rw [((hr₁.trans hr₂).2 _ ho).dials (h.owned ho)]
        exact hcourse

/-! ## Taking a new intent -/

/-- A new intent has not been put any host key. -/
theorem Quiet.bump (hi : Inv ok s) (hclimb : s.snapshot.phase = .reconnecting → s.connection = none)
    (hnum : ¬ Reopens ok → ∀ r pty, (s.records r).pty = some pty →
      (s.records r).operationSequence = sent pty s.log)
    (hun : ¬ Reopens ok → ∀ r r' pty, (s.records r).pty = some pty →
      (s.records r').pty = some pty → r = r') :
    Quiet ok { s with connectIntent := s.connectIntent + 1 } where
  climbing := hclimb
  shown := fun _ hs => by
    have hs' : (course (s.connectIntent + 1) s.log).shown = true := hs
    rw [hi.unborn _ (Nat.lt_succ_self _)] at hs'
    cases hs'
  numbered := hnum
  unique := hun

/-- `connect`, once nothing stands against it. The thread need not have come to
rest before: the new intent brings it there. -/
theorem connectTaken_spec (host : SshHostTarget) (h : Mid env ok c g o post s) (hc : c.isNoisy = true) (hs : Shows ok g)
    (hq : Quiet ok { s with connectIntent := s.connectIntent + 1 }) (ha : Answered g.label s.log)
    (hk : Goes env ok c o (fun _ => True) K) (herr : ∀ e, Stops env ok c o (err e)) :
    Runs env ok (Ctl.connectTaken env host c K err) o s post := by
  have hfresh : Tok.intent (s.connectIntent + 1) ∉ minted s := Nat.not_succ_le_self _
  have ho : o ⊆ insert (Tok.intent (s.connectIntent + 1)) o := Set.subset_insert _ _
  have w : Write ok env g o true s { s with connectIntent := s.connectIntent + 1 } := .intent hs
  have h₁ : Ctx env ok c g (insert (.intent (s.connectIntent + 1)) o) post
      { s with connectIntent := s.connectIntent + 1 } :=
    ((h.write w).settle ⟨hq, ha⟩).give (Nat.le_refl _)
  simp only [Ctl.connectTaken, Async.bind_apply, Async.get_apply, Discipline.wp_read]
  rw [Async.modify_apply, Discipline.wp_read]
  refine runs_write h.inv w (Set.insert_subset (.inr ⟨Nat.le_refl _, hfresh⟩) Set.subset_union_left) ?_
  -- the request id is taken back whatever comes of it
  have hback : ∀ (id : String) (t : Thread State Ans Head), Stops env ok c o t →
      Stops env ok c (insert (.intent (s.connectIntent + 1)) o) ((modify fun s =>
        if s.pendingConnectRequestId = some id then { s with pendingConnectRequestId := none }
        else s : Ctl Unit) c (fun _ => t) err) := by
    intro id t ht g' post' s' h'
    refine h'.minor ?_ ?_ ?_ fun s₂ _ _ h₂ => ht.extend ho h.acts g' post' s₂ h₂
    · split <;> rfl
    · split <;> exact le_rfl
    · split <;> exact le_rfl
  refine h₁.createId fun id s₂ hs₂ _ h₂ => ?_
  refine h₂.minor rfl le_rfl le_rfl fun s₃ hs₃ _ h₃ => ?_
  simp only [Async.andFinally_apply]
  refine connectAdmitted_spec h₃ hc (Set.mem_insert _ _) ?_ (fun result g' post' s' _ h' => ?_)
    fun e => hback id _ (herr e)
  · rw [hs₃.log, hs₂.log]
    exact h.inv.unborn _ (Nat.lt_succ_self _)
  · exact hback id _ (fun g post s h => hk result g post s trivial h) g' post' s' h'

theorem connect_spec (h : Ctx env ok c g o post s) (hc : c.isNoisy = true) (hs : Shows ok g)
    (hk : Goes env ok c o (fun _ => True) K) (herr : ∀ e, Stops env ok c o (err e)) :
    Runs env ok (Ctl.connect env host c K err) o s post := by
  have htaken := connectTaken_spec host h.toMid hc hs
    (.bump h.inv h.rest.climbing h.rest.numbered h.rest.unique) h.rest.answered hk herr
  simp only [Ctl.connect, Ctl.assertLive, Async.bind_apply, Async.get_apply, Discipline.wp_read]
  split
  · exact herr _ g post s h
  · simp only [Async.pure_apply]
    split
    · exact hk _ g post s trivial h
    · simp only [Async.bind_apply, Async.get_apply, Discipline.wp_read]
      cases (if (hasGatewayMarker host && s.host.isSome) = true then Ctl.gatewayAdmission env host
        else none) with
      | some message => exact hk _ g post s trivial h
      | none => exact htaken

/-! ## Accepting a host key -/

/-- The connect that follows an accepted key: nothing stands against it but that
the controller was closed in the meantime. -/
theorem acceptedConnect_spec {p : ConnectionSnapshot → ConnectionSnapshot}
    (h : Ctx env ok c g o post s) (hc : c.isNoisy = true) (hm : MayShow ok g s)
    (hw : wakes g.source g.label = true)
    (hp : ∀ sn, (p sn).trustDecision = none ∧ (p sn).phase = .connecting)
    (hlink : ∀ log sn, Linked log sn (p sn))
    (hkey : (host.credential.isKeyHandle && !host.credential.isValidKeyHandle) = false)
    (hgw : hasGatewayMarker host = false)
    (hk : Goes env ok c o (fun _ => True) K) (herr : ∀ e, Stops env ok c o (err e)) :
    Runs env ok ((do
      Ctl.setSnapshot p
      Ctl.connect env host : Ctl (ActionResult (Option SshConnectionRef))) c K err) o s post := by
  have hclimb : (s.setSnapshot p).snapshot.phase ≠ .reconnecting := by
    rw [State.setSnapshot_phase, (hp _).2]
    simp
  simp only [Async.bind_apply, Ctl.setSnapshot, Async.modify_apply, Discipline.wp_read]
  refine h.toMid.run (.accepting p (hp _).1 (by rw [(hp _).2]; simp) hw hm.shows (hlink _ _)) fun h₁ => ?_
  simp only [Ctl.connect, Ctl.assertLive, Async.bind_apply, Async.get_apply, Discipline.wp_read]
  split
  · next hd =>
    have hd : s.disposed = true := hd
    refine herr _ g post _ (h₁.settle ⟨⟨fun hr => absurd hr hclimb, fun hd' _ => ?_, h.rest.numbered,
      h.rest.unique⟩, h.rest.answered⟩)
    have hd'' : s.disposed = false := hd'
    rw [hd] at hd''
    cases hd''
  · simp only [Async.pure_apply, hkey, hgw, Bool.false_and, Bool.false_eq_true, if_false,
      Async.bind_apply, Async.get_apply, Discipline.wp_read]
    exact connectTaken_spec host h₁ hc hm.shows
      (.bump h₁.inv (fun hr => absurd hr hclimb) h.rest.numbered h.rest.unique) h.rest.answered hk herr

theorem hostWithTransientPassphrase_gateway (host : SshHostTarget) (passphrase : Option (Option String)) :
    (hostWithTransientPassphrase host passphrase).gateway = host.gateway := by
  unfold hostWithTransientPassphrase
  split <;> rfl

theorem acceptPresentedHostKey_spec {passphrase : Option (Option String)} {persist : Bool}
    (hg : g = ⟨.start (.acceptPresentedHostKey passphrase persist), s⟩)
    (h : Ctx env ok c g o post s) (hc : c.isNoisy = true)
    (hk : Goes env ok c o (fun _ => True) K) (herr : ∀ e, Stops env ok c o (err e)) :
    Runs env ok (Ctl.acceptPresentedHostKey env passphrase persist c K err) o s post := by
  have hm : ∀ s', MayShow ok g s' := fun _ => by rw [hg]; exact ⟨.inl rfl, .inr rfl⟩
  simp only [Ctl.acceptPresentedHostKey, Async.bind_apply, Async.get_apply, Discipline.wp_read]
  cases hd : s.snapshot.trustDecision with
  | none => exact hk _ g post s trivial h
  | some pending =>
    cases hh : s.host with
    | none => exact hk _ g post s trivial h
    | some host =>
      -- a decision is never about a gateway host
      have hgw : hasGatewayMarker (hostWithTransientPassphrase host passphrase) = false := by
        obtain ⟨host', hhost, _, hno, _⟩ := h.inv.decision pending hd
        rw [hh] at hhost
        cases hhost
        simp [hasGatewayMarker, hostWithTransientPassphrase_gateway, hno]
      dsimp only
      split
      · exact hk _ g post s trivial h
      · next hreason =>
        split
        · exact hk _ g post s trivial h
        · next hkey =>
          have hkey := Bool.eq_false_iff.mpr hkey
          cases persist with
          | true =>
            simp only [if_true, Async.bind_apply]
            refine h.pause rfl rfl ?_ fun a g₁ post₁ s₁ hg₁ _ h₁ => ?_
            · exact ⟨passphrase, pending, host, by rw [hg], by rw [hg]; exact hd, by rw [hg]; exact hh,
                rfl, rfl⟩
            · cases a with
              | error e => exact herr _ g₁ post₁ s₁ h₁
              | ok _ =>
                exact acceptedConnect_spec h₁ hc (hg₁.mayShow hc) (hg₁.wakes hc) (fun _ => ⟨rfl, rfl⟩)
                  (fun _ _ => .inl rfl) hkey hgw hk herr
          | false =>
            have hunknown : pending.reason = .unknown := by simpa using hreason
            simp only [Bool.false_eq_true, if_false, Async.bind_apply]
            refine h.update (.once ⟨host.hostId, _⟩ passphrase pending host (by rw [hg]) ?_ ?_ hunknown
              rfl) fun h₁ => ?_
            · rw [hg]
              exact hd
            · rw [hg]
              exact hh
            · exact acceptedConnect_spec h₁ hc (hm _) (by rw [hg]; rfl) (fun _ => ⟨rfl, rfl⟩)
                (fun _ _ => .inl rfl) hkey hgw hk herr

end

end PocketShell
