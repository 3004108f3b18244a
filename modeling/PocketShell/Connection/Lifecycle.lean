import PocketShell.Connection.Connecting

/-!
# Background, reconnect and close

The calls that take the controller to the background and back, `reconnect`, `close`
and the connection events of the platform.
-/

namespace PocketShell

open Coop (Async Thread Discipline)

variable {env : Env} {ok : Allowed} {c : Operation} {g : Segment} {o : Set Tok}
  {post : State → Prop} {s s' : State}

/-! ## Reconnecting on request -/

theorem reconnect_spec {K : ActionResult Unit → Thread State Ans Head}
    {err : Thrown → Thread State Ans Head} (h : Ctx env ok c g o post s) (hm : MayShow ok g s)
    (hk : Goes env ok c o (fun _ => True) K) (herr : ∀ e, Stops env ok c o (err e)) :
    Runs env ok (Ctl.reconnect env c K err) o s post := by
  -- what is reported at the end
  have hreport : ∀ g' post' s', Ctx env ok c g' o post' s' →
      Runs env ok ((do
        let s ← get
        let phase := s.snapshot.phase
        if s.connection.isSome && phase ≠ .lost && phase ≠ .reconnecting then return .ok ()
        else return .refused .failed (s.snapshot.error.getD "Reconnect failed.") :
        Ctl (ActionResult Unit)) c K err) o s' post' := by
    intro g' post' s' h'
    simp only [Async.bind_apply, Async.get_apply, Discipline.wp_read]
    split
    · exact hk _ g' post' s' trivial h'
    · exact hk _ g' post' s' trivial h'
  simp only [Ctl.reconnect, Ctl.assertLive, Async.bind_apply, Async.get_apply, Discipline.wp_read]
  split
  · exact herr _ g post s h
  · simp only [Async.pure_apply, Discipline.wp_read]
    split
    · exact hk _ g post s trivial h
    · cases s.reconnectTask with
      | some task => exact h.pause rfl rfl trivial fun _ g₁ post₁ s₁ _ _ h₁ => hreport g₁ post₁ s₁ h₁
      | none =>
        dsimp only
        split
        · exact hk _ g post s trivial h
        · split
          · simp only [Async.bind_apply]
            exact reconnectAwaited_spec h hm fun g₁ post₁ s₁ _ _ h₁ => hreport g₁ post₁ s₁ h₁
          · exact hreport g post s h

/-! ## The background and back -/

section

variable {K : Unit → Thread State Ans Head} {err : Thrown → Thread State Ans Head}

theorem enterBackground_spec {graceMs : Option Int} (h : Ctx env ok .enterBackground g o post s)
    (hk : Stops env ok .enterBackground o (K ())) (herr : ∀ e, Stops env ok .enterBackground o (err e)) :
    Runs env ok (Ctl.enterBackground env graceMs .enterBackground K err) o s post := by
  simp only [Ctl.enterBackground, Ctl.assertLive, Async.bind_apply, Async.get_apply, Discipline.wp_read]
  split
  · exact herr _ g post s h
  · simp only [Async.pure_apply, Discipline.wp_read]
    cases s.connection with
    | none => exact hk g post s h
    | some connection =>
      simp only [Async.bind_apply, Async.get_apply, Discipline.wp_read]
      refine h.minor rfl le_rfl le_rfl fun s₁ _ _ h₁ => ?_
      refine h₁.createId fun requestId s₂ _ _ h₂ => ?_
      refine h₂.ask rfl trivial fun s₃ a post₃ _ _ _ _ h₃ => ?_
      cases a with
      | error e => exact herr _ _ post₃ _ h₃
      | ok result =>
        simp only [Ctl.unwrap, Async.pure_apply]
        split
        · exact herr _ _ post₃ _ h₃
        · refine h₃.update (.patch _ ⟨.inl rfl, fun _ => .inl rfl, fun _ => .inr ?_, by simp,
            .inr (.inl rfl), .inl rfl⟩) fun h₄ => hk _ post₃ _ h₄
          cases ht : s₃.reconnectTask with
          | none => exact .inl ht
          | some task => exact .inr (by simp [entersOverLadder, ht])

theorem releaseSpentConnection_spec (h : Ctx env ok c g o post s) (hc : c.isNoisy = true)
    (hm : MayShow ok g s)
    (hk : ∀ g' post' s', Ctx env ok c g' o post' s' → Runs env ok (K ()) o s' post') :
    Runs env ok (Ctl.releaseSpentConnection env c K err) o s post := by
  simp only [Ctl.releaseSpentConnection, Async.bind_apply, Async.get_apply, Discipline.wp_read]
  refine h.update .detach fun h₁ => ?_
  simp only [Discipline.wp_read]
  refine h₁.update (.drop fun _ _ r hr => ?_) fun h₂ => ?_
  · show (s.detachTerminals.records r).pty = none
    rw [State.detachTerminals_records, if_pos (show r ∈ s.terminals from hr)]
  refine h₂.update (.intent hm.shows) fun h₃ => ?_
  have hm₃ : MayShow ok g { s.detachTerminals.dropConnection with
      connectIntent := s.detachTerminals.dropConnection.connectIntent + 1 } := ⟨hm.shows, hm.awake⟩
  have hlost : ∀ {p : ConnectionSnapshot → ConnectionSnapshot} g' post' s', MayShow ok g' s' →
      (∀ sn, (p sn).phase = .lost ∧ (p sn).trustDecision = sn.trustDecision ∧
        (p sn).connectionId = none) →
      Ctx env ok c g' o post' s' → Runs env ok (Ctl.setSnapshot p c K err) o s' post' := by
    intro p g' post' s' hm' hp h'
    refine h'.publish hm' ?_ ?_ (.inl (hp _).2.1) (.inr (.inl (hp _).2.2)) fun _ h₂ _ =>
      hk g' post' _ h₂
    · rw [(hp _).1]
      simp
    · rw [(hp _).1]
      simp
  refine closePtys_mild _ h₃ fun _ g₄ post₄ s₄ ht₄ _ h₄ => ?_
  cases s.detachTerminals.connection with
  | none => exact hlost g₄ post₄ s₄ (hm₃.turn hc ht₄) (fun _ => ⟨rfl, rfl, rfl⟩) h₄
  | some conn =>
    refine cancelAndClose_mild _ h₄ fun _ g₅ post₅ s₅ ht₅ _ h₅ => ?_
    exact hlost g₅ post₅ s₅ (hm₃.turn hc (ht₄.trans ht₅)) (fun _ => ⟨rfl, rfl, rfl⟩) h₅

theorem dropEnded_spec (rs : List Nat) (h : Ctx env ok c g o post s) (hs : Shows ok g)
    (hrs : ∀ r ∈ rs, r < s.nextRecord)
    (hk : ∀ s', s'.snapshot.phase = s.snapshot.phase → Ctx env ok c g o post s' →
      Runs env ok (K ()) o s' post) :
    Runs env ok (Ctl.dropEnded rs c K err) o s post := by
  induction rs generalizing s with
  | nil => exact hk s rfl h
  | cons r rs ih =>
    have hrs' : ∀ q ∈ rs, q < s.nextRecord := fun q hq => hrs q (List.mem_cons_of_mem _ hq)
    simp only [Ctl.dropEnded, Async.bind_apply, Async.get_apply, Discipline.wp_read]
    split
    · refine h.update (.remove r false (hrs r List.mem_cons_self) hs) fun h₁ => ?_
      refine ih h₁ ?_ fun s₂ hp h₂ => hk s₂ ?_ h₂
      · rw [State.removeTerminal_nextRecord]
        exact hrs'
      · rw [hp, State.removeTerminal_phase]
    · exact ih h hrs' hk

theorem resumeGrace_spec {connection : Connection} {K : Bool → Thread State Ans Head}
    (h : Ctx env ok c g o post s) (hc : c.isNoisy = true)
    (hk : ∀ survived g' post' s', Calm c g' → Ctx env ok c g' o post' s' →
      Runs env ok (K survived) o s' post') :
    Runs env ok (tryCatch (Ctl.resumeGrace env connection) (fun _ => return false) c K err)
      o s post := by
  simp only [Async.tryCatch_apply, Async.pure_apply, Ctl.resumeGrace, Async.bind_apply]
  refine h.createId fun cancelRequestId s₁ _ _ h₁ => ?_
  refine h₁.pause rfl rfl trivial fun a g₂ post₂ s₂ hg₂ _ h₂ => ?_
  cases a with
  | error e => exact hk false g₂ post₂ s₂ hg₂ h₂
  | ok cancelled =>
    simp only [Ctl.unwrap, Async.pure_apply]
    split
    · exact hk false g₂ post₂ s₂ hg₂ h₂
    · simp only [Async.bind_apply]
      refine h₂.createId fun stateRequestId s₃ _ _ h₃ => ?_
      refine h₃.pause rfl rfl trivial fun a g₄ post₄ s₄ hg₄ _ h₄ => ?_
      cases a with
      | error e => exact hk false g₄ post₄ s₄ hg₄ h₄
      | ok status =>
        simp only [Async.pure_apply]
        split
        · exact hk false g₄ post₄ s₄ hg₄ h₄
        · split
          · simp only [Async.bind_apply, Async.get_apply, Discipline.wp_read]
            refine dropEnded_spec _ h₄ hg₄.shows h₄.inv.bound fun s₅ _ h₅ => ?_
            simp only [Discipline.wp_read]
            refine h₅.publish (hg₄.mayShow hc) ?_ ?_ (.inl rfl) (.inl rfl) fun _ h₆ _ => hk true g₄ post₄ _ hg₄ h₆
            · dsimp only
              rcases s₅.idlePhase_cases with hi | hi | hi <;> simp [hi]
            · intro hrec
              dsimp only at hrec
              rcases s₅.idlePhase_cases with hi | hi | hi <;> simp [hi] at hrec
          · exact hk false g₄ post₄ s₄ hg₄ h₄

theorem returnToForeground_spec {reconnect : Bool} (h : Ctx env ok c g o post s)
    (hc : c.isNoisy = true) (hm : MayShow ok g s) (hk : Stops env ok c o (K ()))
    (herr : ∀ e, Stops env ok c o (err e)) :
    Runs env ok (Ctl.returnToForeground env reconnect c K err) o s post := by
  -- a spent connection is dialled again, or given up
  have hspent : ∀ reason g' post' s', MayShow ok g' s' → Ctx env ok c g' o post' s' →
      Runs env ok ((if reconnect then Ctl.reconnectAwaited env reason
        else Ctl.settled .releaseSpentConnection (Ctl.releaseSpentConnection env) : Ctl Unit) c K err)
        o s' post' := by
    intro reason g' post' s' hm' h'
    cases reconnect with
    | true => exact reconnectAwaited_spec h' hm' fun g₁ post₁ s₁ _ _ h₁ => hk g₁ post₁ s₁ h₁
    | false =>
      simp only [Bool.false_eq_true, if_false, Ctl.settled, Async.bind_apply, Async.attempt_apply]
      refine releaseSpentConnection_spec h' hc hm' fun g₁ post₁ s₁ h₁ => ?_
      exact h₁.pause rfl rfl trivial fun _ g₂ post₂ s₂ _ _ h₂ => hk g₂ post₂ s₂ h₂
  simp only [Ctl.returnToForeground, Ctl.assertLive, Async.bind_apply, Async.get_apply,
    Discipline.wp_read]
  split
  · exact herr _ g post s h
  · simp only [Async.pure_apply, Discipline.wp_read]
    refine h.minor rfl le_rfl le_rfl fun s₁ hs₁ _ h₁ => ?_
    have hm₁ : MayShow ok g s₁ := ⟨hm.shows, hs₁.snapshot ▸ hm.awake⟩
    cases s.host with
    | none => exact hk g post s₁ h₁
    | some host =>
      cases s.graceDeadlineEpochMs with
      | none => exact hk g post s₁ h₁
      | some deadline =>
        cases s.connection with
        | none => exact hspent _ g post s₁ hm₁ h₁
        | some connection =>
          dsimp only
          split
          · exact hspent _ g post s₁ hm₁ h₁
          · simp only [Async.bind_apply]
            refine resumeGrace_spec h₁ hc fun survived g₂ post₂ s₂ hg₂ h₂ => ?_
            cases survived with
            | true => exact hk g₂ post₂ s₂ h₂
            | false => exact hspent _ g₂ post₂ s₂ (hg₂.mayShow hc) h₂

/-! ## Closing the controller -/

theorem close_spec (h : Ctx env ok c g o post s) (hc : c.isNoisy = true) (hs : Shows ok g)
    (hk : Stops env ok c o (K ())) : Runs env ok (Ctl.close env c K err) o s post := by
  have hclose : ∀ g' post' s', s'.disposed = true → Ctx env ok c g' o post' s' →
      Runs env ok (Ctl.closeRest env c K err) o s' post' := by
    intro g' post' s' hd h'
    unfold Ctl.closeRest
    refine closeEverything_spec h' fun s₁ g₂ post₂ s₂ hr₁ hclosed hg₂ hr₂ h₂ => ?_
    have hd₁ := hr₁.1.disposed hd
    simp only [Async.bind_apply]
    refine h₂.update (.unhost _ (hr₂.1.disposed hd₁) (hr₂.1.spent hd₁ hclosed.connection) rfl (by simp)
      (hg₂.wakes hc) hg₂.shows (.inr (.inl rfl))) fun h₃ => ?_
    refine h₃.pause rfl rfl trivial fun ready g₄ post₄ s₄ _ _ h₄ => ?_
    cases ready with
    | error e => exact hk g₄ post₄ s₄ h₄
    | ok _ => exact h₄.pause rfl rfl trivial fun _ g₅ post₅ s₅ _ _ h₅ => hk g₅ post₅ s₅ h₅
  simp only [Ctl.close, Async.bind_apply, Async.get_apply, Discipline.wp_read]
  split
  · exact hk g post s h
  · simp only [Async.bind_apply, Async.get_apply]
    refine h.update .dispose fun h₁ => ?_
    refine h₁.update (.intent hs) fun h₂ => ?_
    simp only [Discipline.wp_read]
    refine h₂.minor rfl le_rfl le_rfl fun s₃ hs₃ _ h₃ => ?_
    have hd₃ : s₃.disposed = true := hs₃.disposed
    cases s.pendingConnectRequestId with
    | none => exact hclose g post s₃ hd₃ h₃
    | some requestId =>
      simp only [Ctl.settled, Async.bind_apply, Async.attempt_apply]
      refine cancelConnect_mild _ h₃ fun _ g₄ post₄ s₄ _ hr₄ h₄ => ?_
      refine h₄.pause rfl rfl trivial fun _ g₅ post₅ s₅ _ hr₅ h₅ => ?_
      exact hclose g₅ post₅ s₅ ((hr₄.trans hr₅).1.disposed hd₃) h₅

/-! ## Events of the platform -/

theorem onConnectionState_spec {event : Ctl.StateEvent} (h : Ctx env ok c g o post s)
    (hs : Shows ok g) (hk : Stops env ok c o (K ())) :
    Runs env ok (Ctl.onConnectionState env event c K err) o s post := by
  simp only [Ctl.onConnectionState, Async.bind_apply, Async.get_apply, Discipline.wp_read]
  split
  · exact hk g post s h
  · split
    · next hexpired =>
      have hphase : s.snapshot.phase = .background := by
        simp only [Bool.and_eq_true, decide_eq_true_eq] at hexpired
        exact hexpired.2
      simp only [Async.bind_apply]
      refine h.update .detach fun h₁ => ?_
      refine h₁.update (.drop fun _ _ r hr => ?_) fun h₂ => ?_
      · rw [State.detachTerminals_records, if_pos (show r ∈ s.terminals from hr)]
      · exact h₂.amend hphase.symm rfl (.inr hs) (.inr (.inl rfl)) fun _ h₃ => hk g post _ h₃
    · split
      · exact startReconnect_spec h hs fun s₁ _ h₁ => hk g post s₁ h₁
      · exact hk g post s h

end

end PocketShell
