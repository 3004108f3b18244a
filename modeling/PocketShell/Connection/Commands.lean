import PocketShell.Connection.Ladder

/-!
# Host commands

The session listing, the commands that change sessions, and host commands: what
they do when the host answers.

* `Stable`: knowledge a thread keeps across its awaits and host answers.
* `hostCli_spec`: the rule for a host command that is read by the host CLI.
* `refreshSessions_spec`, `probeSessions_spec`, `createSession_spec`,
  `killSession_spec`, `runHostCommand_spec`: the rules for the calls.
-/

namespace PocketShell

open Coop (Async Thread Discipline)

variable {env : Env} {ok : Allowed} {c : Operation} {g : Segment} {o : Set Tok}
  {err : Thrown → Thread State Ans Head} {post : State → Prop} {s s' : State} {α β : Type} {I : State → Prop}

/-- Knowledge that survives what others do, and the host's answers to the
commands of `c`. -/
structure Stable (ok : Allowed) (c : Operation) (o : Set Tok) (I : State → Prop) : Prop where
  rely : ∀ {s s'}, o ⊆ minted s → Rely o s s' → I s → I s'
  heard : ∀ {s ref id command timeoutMs purpose} (a : Answer (.exec ref id command timeoutMs purpose)),
    ok s (.reply (c, .exec ref id command timeoutMs purpose) a) → I s →
      I (s.addLog (.answered (c, .exec ref id command timeoutMs purpose) a))

theorem Stable.true : Stable ok c o fun _ => True := ⟨fun _ _ _ => trivial, fun _ _ _ => trivial⟩

/-! ## Running a command -/

variable {timeoutMs : Nat} {command : String}

theorem exec_spec {conn : Connection} {purpose : ExecPurpose}
    {K : HostCliExecOutcome → Thread State Ans Head}
    (h : Ctx env ok c g o post s) (hI : Stable ok c o I) (hi : I s)
    (hk : ∀ outcome g' post' s', I s' → Ctx env ok c g' o post' s' →
      Runs env ok (K outcome) o s' post')
    (herr : ∀ e g' post' s', I s' → Ctx env ok c g' o post' s' → Runs env ok (err e) o s' post') :
    Runs env ok (Ctl.exec env conn command timeoutMs purpose c K err) o s post := by
  simp only [Ctl.exec, Async.bind_apply]
  refine h.createId fun requestId s₁ _ hr₁ h₁ => ?_
  refine h₁.perform trivial (fun _ _ _ _ _ _ he => by cases he) fun s₂ a post₂ hr₂ hq₂ _ h₂ => ?_
  have hasked : Rely o s₁ (s₁.addLog (.asked (c, .exec conn.ref requestId command timeoutMs purpose))) :=
    .addLog _ (fun _ _ => rfl) fun _ => id
  have hi₂ := hI.heard a h₂.allowed (hI.rely h.owned (hr₁.trans (hasked.trans hr₂)) hi)
  have hc₂ := h₂.settle ⟨hq₂.addLog _ (fun k => Course.step_answered_shown _ k
    (c, .exec conn.ref requestId command timeoutMs purpose) a) fun _ => rfl, .free rfl⟩
  cases a with
  | error e => exact herr _ _ post₂ _ hi₂ hc₂
  | ok result =>
    simp only [Ctl.unwrap, Async.pure_apply]
    split
    · exact herr _ _ post₂ _ hi₂ hc₂
    · exact hk _ _ post₂ _ hi₂ hc₂

/-- The step that brings `c` what a host command was read as. -/
def HostCliTurn (c : Operation) (conn : Connection) (purpose : ExecPurpose) (error : Option Thrown)
    (g : Segment) : Prop :=
  g.label = .reply (c, .tick (.hostCli conn.ref purpose error)) ()

/-- What is left of `hostCli` once its command is through. -/
def hostCliRest (conn : Connection) (purpose : ExecPurpose) (result : Except Thrown α) : Ctl α := do
  Ctl.perform (.tick (.hostCli conn.ref purpose (Ctl.errorOf result)))
  match result with
  | .ok a => pure a
  | .error e => throw e

theorem hostCli_spec {conn : Connection} {purpose : ExecPurpose}
    {read : Except Thrown HostCliExecOutcome → Except Thrown α} {K : α → Thread State Ans Head}
    (h : Ctx env ok c g o post s) (hI : Stable ok c o I) (hi : I s)
    (hk : ∀ a g' post' s', HostCliTurn c conn purpose none g' → I s' → Ctx env ok c g' o post' s' →
      Runs env ok (K a) o s' post')
    (herr : ∀ e s₁ post', let g' : Segment := ⟨.reply (c, .tick (.hostCli conn.ref purpose (some e))) (), s₁⟩
      let s' := s₁.addLog (.answered (c, .tick (.hostCli conn.ref purpose (some e))) ())
      I s' → Ctx env ok c g' o post' s' → Runs env ok (err e) o s' post') :
    Runs env ok (Ctl.hostCli env conn command timeoutMs purpose read c K err) o s post := by
  have hread : ∀ result g' post' s', I s' → Ctx env ok c g' o post' s' →
      Runs env ok (hostCliRest conn purpose result c K err) o s' post' := by
    intro result g' post' s' hi' h'
    simp only [hostCliRest, Async.bind_apply]
    refine h'.ask rfl trivial fun s₁ a post₁ hr _ _ _ h₁ => ?_
    have hi₁ := hI.rely h'.owned hr hi'
    cases result with
    | ok value => exact hk value ⟨_, s₁⟩ post₁ _ rfl hi₁ h₁
    | error e => exact herr e s₁ post₁ hi₁ h₁
  simp only [Ctl.hostCli, Async.bind_apply, Async.attempt_apply]
  refine exec_spec h hI hi ?_ ?_
  · exact fun outcome g' post' s' hi' h' => hread _ g' post' s' hi' h'
  · exact fun e g' post' s' hi' h' => hread _ g' post' s' hi' h'

/-! ## The session listing -/

section

variable {conn : Connection} {error : Option Thrown} {purpose : ExecPurpose}

theorem HostCliTurn.shows (h : HostCliTurn c conn purpose none g)
    (hp : purpose.isShown = true) : Shows ok g := by
  refine .inr (.inl ?_)
  rw [h]
  exact hp

variable {K : Unit → Thread State Ans Head}

theorem reconcilePendingMutation_spec {listing : SessionsListing} (h : Ctx env ok c g o post s)
    (hs : Shows ok g)
    (hk : ∀ s', Rely o s s' → Ctx env ok c g o post s' → Runs env ok (K ()) o s' post) :
    Runs env ok (Ctl.reconcilePendingMutation listing c K err) o s post := by
  simp only [Ctl.reconcilePendingMutation, Async.bind_apply, Async.get_apply, Discipline.wp_read]
  cases Ctl.reconciled s.snapshot.uncertainMutation listing with
  | some mutation => exact h.amend rfl rfl (.inr hs) (.inl rfl) fun hr h₁ => hk _ hr h₁
  | none => exact hk s .refl h

/-- The sessions of a listing that is shown. -/
theorem setSessions_spec {listing : SessionsListing} (h : Ctx env ok c g o post s) (hs : Shows ok g)
    (hk : ∀ s', Rely o s s' → Ctx env ok c g o post s' → Runs env ok (K ()) o s' post) :
    Runs env ok (Ctl.setSnapshot (fun sn =>
      { sn with sessions := listing.sessions, sessionListErrors := listing.errors }) c K err) o s post :=
  h.amend rfl rfl (.inr hs) (.inl rfl) fun hr h₁ => hk _ hr h₁

end

section

variable {K : ActionResult SessionsListing → Thread State Ans Head}

/-- Where a call leaves off, when nothing is known of its result. -/
def Goes (env : Env) (ok : Allowed) (c : Operation) (o : Set Tok) (I : State → Prop)
    (K : α → Thread State Ans Head) : Prop :=
  ∀ result g post s, I s → Ctx env ok c g o post s → Runs env ok (K result) o s post

theorem refreshListed_spec {conn : Connection} (h : Ctx env ok c g o post s) (hI : Stable ok c o I)
    (hi : I s) (hk : Goes env ok c o I K)
    (herr : ∀ e s₁ post', let g' : Segment :=
        ⟨.reply (c, .tick (.hostCli conn.ref .refreshSessions (some e))) (), s₁⟩
      let s' := s₁.addLog (.answered (c, .tick (.hostCli conn.ref .refreshSessions (some e))) ())
      I s' → Ctx env ok c g' o post' s' → Runs env ok (err e) o s' post') :
    Runs env ok (Ctl.refreshListed env conn c K err) o s post := by
  simp only [Ctl.refreshListed, Ctl.listSessions, Async.bind_apply]
  refine hostCli_spec h hI hi (fun listing g₁ post₁ s₁ hg hi₁ h₁ => ?_) herr
  have hs : Shows ok g₁ := hg.shows rfl
  refine setSessions_spec h₁ hs fun s₂ hr₂ h₂ => ?_
  refine reconcilePendingMutation_spec h₂ hs fun s₃ hr₃ h₃ => ?_
  exact hk _ g₁ post₁ s₃ (hI.rely h₁.owned (hr₂.trans hr₃) hi₁) h₃

/-- The listing failed over the connection it was made over. -/
theorem refreshFailed_spec {conn : Connection} {e : Thrown} {s₁ : State}
    (hg : g = ⟨.reply (c, .tick (.hostCli conn.ref .refreshSessions (some e))) (), s₁⟩)
    (hs : s = s₁.addLog (.answered (c, .tick (.hostCli conn.ref .refreshSessions (some e))) ()))
    (h : Ctx env ok c g o post s) (hI : Stable ok c o I) (hi : I s) (hk : Goes env ok c o I K) :
    Runs env ok (Ctl.refreshFailed env conn e c K err) o s post := by
  simp only [Ctl.refreshFailed, Async.bind_apply, Async.get_apply, Discipline.wp_read]
  split
  · exact hk _ g post s hi h
  · next hcur =>
    have hcur : s₁.isCurrentGeneration conn.ref = true := by
      rw [hs] at hcur
      simpa using hcur
    have hm : ∀ s', MayShow ok g s' := by
      refine fun _ => ⟨.inl ?_, .inr ?_⟩
      · simp [hg, Stale, hcur]
      · simp [hg, wakes, hcur]
    -- the phase is set once the failure is known to concern the connection that is held
    have hset : ∀ s', Rely o s s' → Ctx env ok c g o post s' →
        Runs env ok (Ctl.refreshReported conn e c K err) o s' post := by
      intro s' hr h'
      simp only [Ctl.refreshReported, Async.bind_apply, Async.get_apply, Discipline.wp_read]
      split
      · exact hk _ g post s' (hI.rely h.owned hr hi) h'
      · simp only [Async.bind_apply]
        refine h'.publish (hm s') ?_ ?_ (.inl rfl) (.inl rfl) fun hr₂ h₂ _ =>
          hk _ g post _ (hI.rely h.owned (hr.trans hr₂) hi) h₂
        · dsimp only
          split
          · simp
          · split <;> simp
        · intro hrec
          dsimp only at hrec
          split at hrec
          · next hp => exact .inl hp
          · split at hrec <;> cases hrec
    split
    · simp only [Async.bind_apply]
      exact startReconnect_spec h (hm s).shows fun s' hr h' => hset s' hr h'
    · exact hset s .refl h

theorem refreshSessions_spec (h : Ctx env ok c g o post s) (hm : MayShow ok g s)
    (hI : Stable ok c o I) (hi : I s) (hk : Goes env ok c o I K) :
    Runs env ok (Ctl.refreshSessions env c K err) o s post := by
  simp only [Ctl.refreshSessions, Async.bind_apply, Async.get_apply, Discipline.wp_read]
  have hcli := h.inv.hostCli
  cases hc : s.connection with
  | none =>
    rw [hcli, hc]
    exact hk _ g post s hi h
  | some conn =>
    rw [hcli, hc]
    simp only [Async.bind_apply]
    refine h.publish hm ?_ ?_ (.inl rfl) (.inl rfl) fun hr₁ h₁ _ => ?_
    · dsimp only
      split <;> simp
    · intro hrec
      dsimp only at hrec
      split at hrec <;> cases hrec
    · refine refreshListed_spec h₁ hI (hI.rely h.owned hr₁ hi) hk fun e s₂ post₂ hi₂ h₂ => ?_
      exact refreshFailed_spec rfl rfl h₂ hI hi₂ hk

end

/-! ## Commands that change sessions -/

theorem reconcileUncertainMutation_spec {K : Unit → Thread State Ans Head}
    (h : Ctx env ok c g o post s) (hm : MayShow ok g s)
    (hk : ∀ g' post' s', Calm c g' → Ctx env ok c g' o post' s' → Runs env ok (K ()) o s' post') :
    Runs env ok (Ctl.reconcileUncertainMutation env c K err) o s post := by
  simp only [Ctl.reconcileUncertainMutation, Ctl.settledIn, Async.bind_apply, Async.attempt_apply]
  refine refreshSessions_spec h hm .true trivial fun result g₁ post₁ s₁ _ h₁ => ?_
  refine h₁.pause rfl rfl trivial fun _ g₂ post₂ s₂ hg₂ _ h₂ => ?_
  simp only [Async.pure_apply]
  cases result with
  | ok listing => exact reconcilePendingMutation_spec h₂ hg₂.shows fun s₃ _ h₃ => hk g₂ post₂ s₃ hg₂ h₃
  | refused reason message => exact hk g₂ post₂ s₂ hg₂ h₂

section

variable {K : ActionResult α → Thread State Ans Head}

theorem mutationFailed_spec {conn : Connection} {purpose : ExecPurpose} {kind : MutationKind}
    {name lost uncertain : String} {e : Thrown} (h : Ctx env ok c g o post s)
    (hg : HostCliTurn c conn purpose (some e) g) (hp : purpose.isMutation = true)
    (hk : Goes env ok c o (fun _ => True) K) :
    Runs env ok (Ctl.mutationFailed env kind name lost uncertain e c K err) o s post := by
  simp only [Ctl.mutationFailed]
  split
  · next hu =>
    have hm : ∀ s', MayShow ok g s' := by
      refine fun _ => ⟨.inr (.inl ?_), .inr ?_⟩
      · rw [hg]
        simp [landsLate, hp, hu]
      · rw [hg]
        simp [wakes, hp, hu]
    simp only [Ctl.recordUncertainMutation, Async.bind_apply, Async.get_apply, Discipline.wp_read]
    refine h.amend rfl rfl (.inr (hm s).shows) (.inl rfl) fun _ h₁ => ?_
    split
    · simp only [Async.bind_apply]
      exact startReconnect_spec h₁ (hm s).shows fun s₂ _ h₂ => hk _ g post s₂ trivial h₂
    · simp only [Ctl.settled, Async.bind_apply, Async.attempt_apply]
      refine reconcileUncertainMutation_spec h₁ (hm _) fun g₂ post₂ s₂ _ h₂ => ?_
      refine h₂.pause rfl rfl trivial fun _ g₃ post₃ s₃ _ _ h₃ => ?_
      exact hk _ g₃ post₃ s₃ trivial h₃
  · exact hk _ g post s trivial h

end

theorem createSession_spec {name : String} {options : CreateOptions}
    {K : ActionResult CreatedSession → Thread State Ans Head}
    (h : Ctx env ok c g o post s) (hk : Goes env ok c o (fun _ => True) K) :
    Runs env ok (Ctl.createSession env name options c K err) o s post := by
  simp only [Ctl.createSession, Async.bind_apply, Async.get_apply, Discipline.wp_read]
  cases hc : s.hostCli with
  | none => exact hk _ g post s trivial h
  | some cli =>
    simp only [Async.tryCatch_apply, Ctl.createAndList, Ctl.listSessions, Async.bind_apply]
    refine hostCli_spec h .true trivial (fun created g₁ post₁ s₁ _ _ h₁ => ?_) ?_
    · refine hostCli_spec h₁ .true trivial (fun listing g₂ post₂ s₂ hg₂ _ h₂ => ?_) ?_
      · exact setSessions_spec h₂ (hg₂.shows rfl) fun s₃ _ h₃ =>
          hk _ g₂ post₂ s₃ trivial h₃
      · exact fun e s₂ post₂ _ h₂ => mutationFailed_spec h₂ rfl rfl hk
    · exact fun e s₁ post₁ _ h₁ => mutationFailed_spec h₁ rfl rfl hk

theorem killSession_spec {name : String} {K : ActionResult Unit → Thread State Ans Head}
    (h : Ctx env ok c g o post s)
    (hk : Goes env ok c o (fun _ => True) K) :
    Runs env ok (Ctl.killSession env name c K err) o s post := by
  simp only [Ctl.killSession, Async.bind_apply, Async.get_apply, Discipline.wp_read]
  cases hc : s.hostCli with
  | none => exact hk _ g post s trivial h
  | some cli =>
    simp only [Async.tryCatch_apply, Ctl.killAndList, Ctl.listSessions, Async.bind_apply]
    refine hostCli_spec h .true trivial (fun _ g₁ post₁ s₁ _ _ h₁ => ?_) ?_
    · refine hostCli_spec h₁ .true trivial (fun listing g₂ post₂ s₂ hg₂ _ h₂ => ?_) ?_
      · exact setSessions_spec h₂ (hg₂.shows rfl) fun s₃ _ h₃ =>
          hk _ g₂ post₂ s₃ trivial h₃
      · exact fun e s₂ post₂ _ h₂ => mutationFailed_spec h₂ rfl rfl hk
    · exact fun e s₁ post₁ _ h₁ => mutationFailed_spec h₁ rfl rfl hk

/-! ## Other commands -/

theorem probeSessions_spec {K : ActionResult SessionsListing → Thread State Ans Head}
    (h : Ctx env ok c g o post s)
    (hk : Goes env ok c o (fun _ => True) K) :
    Runs env ok (Ctl.probeSessions env c K err) o s post := by
  simp only [Ctl.probeSessions, Async.bind_apply, Async.get_apply, Discipline.wp_read]
  have hcli := h.inv.hostCli
  cases hc : s.connection with
  | none =>
    rw [hcli, hc]
    exact hk _ g post s trivial h
  | some conn =>
    rw [hcli, hc]
    dsimp only
    split
    · simp only [Async.tryCatch_apply, Ctl.probeListed, Ctl.listSessions, Async.bind_apply,
        Async.get_apply]
      refine hostCli_spec h .true trivial (fun listing g₁ post₁ s₁ _ _ h₁ => ?_) ?_
      · simp only [Discipline.wp_read]
        split
        · exact hk _ g₁ post₁ s₁ trivial h₁
        · exact hk _ g₁ post₁ s₁ trivial h₁
      · exact fun e s₁ post₁ _ h₁ => hk _ _ post₁ _ trivial h₁
    · exact hk _ g post s trivial h

theorem runHostCommand_spec
    {K : ActionResult HostCliExecOutcome → Thread State Ans Head}
    (h : Ctx env ok c g o post s) (hk : Goes env ok c o (fun _ => True) K) :
    Runs env ok (Ctl.runHostCommand env command timeoutMs c K err) o s post := by
  simp only [Ctl.runHostCommand, Async.bind_apply, Async.get_apply, Discipline.wp_read]
  cases hc : s.connection with
  | none => exact hk _ g post s trivial h
  | some conn =>
    simp only [Async.bind_apply, Async.attempt_apply, Ctl.settled]
    refine exec_spec h .true trivial ?_ ?_
    · intro outcome g₁ post₁ s₁ _ h₁
      exact h₁.ask rfl trivial fun s₂ _ post₂ _ _ _ _ h₂ => hk _ _ post₂ _ trivial h₂
    · intro e g₁ post₁ s₁ _ h₁
      refine h₁.ask rfl trivial fun s₂ _ post₂ _ _ _ _ h₂ => ?_
      simp only [Async.throw_apply, Async.get_apply, Discipline.wp_read]
      split
      · next hfail =>
        have hcur : s₂.connection = some conn := of_decide_eq_true (Bool.and_eq_true_iff.mp hfail).1
        have hs : Stale s₂ (.reply (c, .tick (.exec conn.ref)) ()) = false := by
          simp [Stale, State.isCurrentGeneration, hcur]
        simp only [Async.bind_apply]
        exact startReconnect_spec h₂ (.inl hs) fun s₃ _ h₃ => hk _ _ post₂ s₃ trivial h₃
      · exact hk _ _ post₂ _ trivial h₂

end PocketShell
