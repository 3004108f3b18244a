import PocketShell.Connection.Logic

/-!
# Closing PTYs and connections

The methods that only ask the platform to close something: they change nothing
that anybody relies on, whatever the platform answers.
-/

namespace PocketShell

open Coop (Async Thread)

variable {env : Env} {ok : Allowed} {c : Operation} {α β : Type}

/-- The computation ends, without an error, and changes nothing anybody relies on. -/
def Mild (env : Env) (ok : Allowed) (c : Operation) (p : Ctl α) : Prop :=
  ∀ ⦃g : Segment⦄ ⦃o : Set Tok⦄ ⦃post : State → Prop⦄ ⦃s : State⦄ ⦃K : α → Thread State Ans Head⦄
    ⦃err : Thrown → Thread State Ans Head⦄, Ctx env ok c g o post s →
    (∀ a g' post' s', Turn c g s g' s' → Rely o s s' → Ctx env ok c g' o post' s' →
      Runs env ok (K a) o s' post') →
    Runs env ok (p c K err) o s post

namespace Mild

theorem pure (a : α) : Mild env ok c (Pure.pure a : Ctl α) :=
  fun _ _ _ _ _ _ h hk => hk a _ _ _ (.inl ⟨rfl, rfl⟩) .refl h

theorem bind {p : Ctl α} {f : α → Ctl β} (hp : Mild env ok c p) (hf : ∀ a, Mild env ok c (f a)) :
    Mild env ok c (p >>= f) := by
  intro g o post s K err h hk
  refine hp h fun a g₁ post₁ s₁ ht₁ hr₁ h₁ => ?_
  exact hf a h₁ fun b g₂ post₂ s₂ ht₂ hr₂ h₂ => hk b g₂ post₂ s₂ (ht₁.trans ht₂) (hr₁.trans hr₂) h₂

theorem get {f : State → Ctl α} (hf : ∀ s, Mild env ok c (f s)) : Mild env ok c (MonadState.get >>= f) :=
  fun _ _ _ s _ _ h hk => hf s h hk

theorem perform {q : Call} (hq : q.isPlain = true) (hc : q.isCalm = true)
    (ha : ∀ g s, Asks g s (c, q)) : Mild env ok c (Ctl.perform q) := by
  intro g o post s K err h hk
  exact h.pause hq hc (ha _ _) fun a g' post' s' hg => hk a g' post' s' (.inr hg)

/-- Awaited, it ends in a later step. -/
theorem settled {p : Ctl α} {inner : Inner} {g : Segment} {o : Set Tok} {post : State → Prop}
    {s : State} {K : α → Thread State Ans Head} {err : Thrown → Thread State Ans Head}
    (hp : Mild env ok c p) (hi : (Call.tick inner).isCalm = true) (h : Ctx env ok c g o post s)
    (hk : ∀ a g' post' s', Calm c g' → Rely o s s' → Ctx env ok c g' o post' s' →
      Runs env ok (K a) o s' post') (hf : (Call.tick inner).isPlain = true) :
    Runs env ok (Ctl.settled inner p c K err) o s post := by
  refine hp h fun a g₁ post₁ s₁ _ hr₁ h₁ => ?_
  exact h₁.pause hf hi trivial fun _ g' post' s' hg hr h' => hk a g' post' s' hg (hr₁.trans hr) h'

theorem await {p : Ctl α} {inner : Inner} (hp : Mild env ok c p)
    (hi : (Call.tick inner).isCalm = true) (hf : (Call.tick inner).isPlain = true) :
    Mild env ok c (Ctl.settled inner p) :=
  fun _ _ _ _ _ _ h hk => hp.settled hi h (fun a g' post' s' hg => hk a g' post' s' (.inr hg)) hf

end Mild

theorem createId_mild : Mild env ok c (Ctl.createId env) := by
  intro g o post s K err h hk
  exact h.createId fun id s' hs hr h' => hk id g post s' (.inl ⟨rfl, hs.snapshot⟩) hr h'

theorem closePty_mild (pty : SshPtyRef) : Mild env ok c (Ctl.closePty env pty) :=
  .bind createId_mild fun _ => .bind (.perform rfl rfl fun _ _ => trivial) fun _ => .pure _

/-- What a close nobody awaits leaves alone before its await. -/
structure SameTerminals (s s' : State) : Prop where
  snapshot : s'.snapshot = s.snapshot
  connection : s'.connection = s.connection
  terminals : s'.terminals = s.terminals
  records : s'.records = s.records
  nextRecord : s'.nextRecord = s.nextRecord

theorem Ctx.spawnClosePty {g : Segment} {o : Set Tok} {post : State → Prop} {s : State}
    {K : Unit → Thread State Ans Head} {err : Thrown → Thread State Ans Head} {pty : SshPtyRef}
    (h : Ctx env ok c g o post s)
    (hk : ∀ s', SameTerminals s s' → Rely o s s' → Ctx env ok c g o post s' →
      Runs env ok (K ()) o s' post) :
    Runs env ok (Async.spawn .closing (Ctl.closePty env pty) c K err) o s post := by
  refine h.spawn ∅ o (Set.empty_subset _) (Set.Subset.refl _) (Set.empty_disjoint _)
    (fun _ hn => by cases hn) h.acts (fun post₁ h₁ => ?_) fun s₁ hs₁ hr h₁ => ?_
  · exact closePty_mild pty h₁ fun _ _ _ _ _ _ h₂ => h₂.finish
  · subst hs₁
    exact hk _ ⟨rfl, rfl, rfl, rfl, rfl⟩ hr h₁

theorem closePtyRef_mild (pty : SshPtyRef) : Mild env ok c (Ctl.closePtyRef env pty) :=
  (closePty_mild pty).await rfl rfl

theorem closePtyRefs_mild (ptys : List SshPtyRef) : Mild env ok c (Ctl.closePtyRefs env ptys) := by
  induction ptys with
  | nil => exact .pure _
  | cons pty ptys ih => exact .bind ((closePty_mild pty).await rfl rfl) fun _ => ih

theorem closePtys_mild (ptys : List SshPtyRef) : Mild env ok c (Ctl.closePtys env ptys) := by
  induction ptys with
  | nil => exact .pure _
  | cons pty ptys ih => exact .bind (closePty_mild pty) fun _ => ih

theorem cancelConnect_mild (requestId : String) :
    Mild env ok c (Ctl.cancelCapability env (.connect requestId)) :=
  .bind createId_mild fun _ => .bind (.perform rfl rfl fun _ _ => trivial) fun _ => .pure _

/-- `cancelAndClose`, from where a step may owe the cancelling: whatever the platform
answers, the closing is asked for. -/
theorem Mid.cancelAndClose {g : Segment} {o : Set Tok} {post : State → Prop} {s : State}
    {K : Unit → Thread State Ans Head} {err : Thrown → Thread State Ans Head} {ref : SshConnectionRef}
    (h : Mid env ok c g o post s) (hq : Quiet ok s)
    (hans : ∀ id, Answered g.label
      (s.log ++ [.asked (c, .cancelOperation (.connection ref) id)]))
    (hk : ∀ g' post' s', Calm c g' → Rely o s s' → Ctx env ok c g' o post' s' →
      Runs env ok (K ()) o s' post') :
    Runs env ok (Ctl.cancelAndClose env ref c K err) o s post := by
  simp only [Ctl.cancelAndClose, Ctl.settled, Ctl.cancelCapability, Ctl.closeConnection, Ctl.perform,
    Async.bind_apply, Async.attempt_apply, Async.pure_apply]
  refine h.createId fun id s₁ hs₁ hr₁ h₁ => ?_
  refine h₁.issue (hq.core hs₁) rfl trivial ?_ fun hr₂ h₂ => ?_
  · rw [State.addLog_log, hs₁.log]
    exact hans id
  refine h₂.owed rfl fun s₃ a post₃ hr₃ hq₃ h₃ => ?_
  refine h₃.issue hq₃ rfl trivial (.cancel ?_) fun hr₄ h₄ => ?_
  · exact List.mem_append_right _ (List.mem_singleton.mpr rfl)
  refine h₄.owed rfl fun s₅ a' post₅ hr₅ hq₅ h₅ => ?_
  refine h₅.createId fun id' s₆ hs₆ hr₆ h₆ => ?_
  refine h₆.issue (hq₅.core hs₆) rfl trivial (.close id' ?_) fun hr₇ h₇ => ?_
  · exact List.mem_append_right _ (List.mem_singleton.mpr rfl)
  refine h₇.reply rfl fun s₈ a'' post₈ hr₈ _ _ _ h₈ => ?_
  have hr := ((hr₁.trans hr₂).trans hr₃).trans (hr₄.trans hr₅)
  exact hk _ post₈ _ ⟨_, a'', rfl, rfl⟩ (hr.trans ((hr₆.trans hr₇).trans hr₈)) h₈

theorem cancelAndClose_mild (ref : SshConnectionRef) : Mild env ok c (Ctl.cancelAndClose env ref) :=
  fun _ _ _ _ _ _ h hk => h.toMid.cancelAndClose h.rest.toQuiet
    (fun _ => h.rest.answered.mono (List.subset_append_left _ _))
    fun g' post' s' hg => hk () g' post' s' (.inr hg)

/-! ## Closing what the controller holds -/

section

variable {g : Segment} {o : Set Tok} {post : State → Prop} {s : State}
  {K : Unit → Thread State Ans Head} {err : Thrown → Thread State Ans Head}

/-- `closeCurrentTransport`: the connection is gone before anything is awaited. -/
theorem closeCurrentTransport_spec (h : Ctx env ok c g o post s)
    (hd : ¬ DropsOpenPty ok → s.connection.isSome → ∀ r ∈ s.terminals, (s.records r).pty = none)
    (hk : ∀ g' post' s', Turn c g s g' s' → Rely o s.dropConnection s' → Ctx env ok c g' o post' s' →
      Runs env ok (K ()) o s' post') :
    Runs env ok (Ctl.closeCurrentTransport env c K err) o s post := by
  refine h.run (.drop hd) fun h' => ?_
  cases hc : s.connection with
  | none =>
    exact hk g post _ (.inl ⟨rfl, rfl⟩) .refl h'
  | some conn =>
    exact cancelAndClose_mild _ h' fun _ => hk

/-- `closeAllTerminals`: no terminal is left before anything is awaited. -/
theorem closeAllTerminals_mild : Mild env ok c (Ctl.closeAllTerminals env) := by
  intro g o post s K err h hk
  refine h.free (fun _ => .empty) fun h' hr => ?_
  exact closePtyRefs_mild _ h' fun a g' post' s' ht hr' => hk a g' post' s' ht (hr.trans hr')

/-- The transport is gone, and with it every terminal that was opened before. -/
structure Closed (ok : Allowed) (s : State) : Prop where
  connection : s.connection = none
  terminals : ¬ DropsOpenPty ok → s.terminals = []

/-- The terminals and then the transport are closed, as `connect` and `close` do. -/
theorem closeEverything_spec {p : Ctl α} {K : α → Thread State Ans Head} (h : Ctx env ok c g o post s)
    (hk : ∀ s₁ g' post' s', Rely o s s₁ → Closed ok s₁ → Calm c g' → Rely o s₁ s' →
      Ctx env ok c g' o post' s' → Runs env ok (p c K err) o s' post') :
    Runs env ok ((do
      Ctl.settled .closeAllTerminals (Ctl.closeAllTerminals env)
      Ctl.settled .closeCurrentTransport (Ctl.closeCurrentTransport env)
      p) c K err) o s post := by
  simp only [Ctl.settled, Async.bind_apply, Async.attempt_apply]
  refine closeAllTerminals_mild h fun _ g₁ post₁ s₁ _ hr₁ h₁ => ?_
  refine h₁.ask rfl trivial fun s₂ a post₂ hr₂ _ _ _ h₂ => ?_
  -- nothing was opened while the terminals were closed
  have hnone : ¬ DropsOpenPty ok → s₂.terminals = [] := by
    intro hd
    by_contra hne
    exact hd ⟨s₂, _, h₂.allowed, by simp [dropsOpenPty, hne]⟩
  have hdrop : ¬ DropsOpenPty ok → s₂.connection.isSome →
      ∀ r ∈ s₂.terminals, (s₂.records r).pty = none := fun hd _ r hr => by
    rw [hnone hd] at hr
    cases hr
  have w : Write ok env ⟨.reply (c, .tick .closeAllTerminals) a, s₂⟩ ∅ true
      (s₂.addLog (.answered (c, .tick .closeAllTerminals) a))
      (s₂.addLog (.answered (c, .tick .closeAllTerminals) a)).dropConnection := .drop hdrop
  refine closeCurrentTransport_spec h₂ hdrop fun g₃ post₃ s₃ _ hr₃ h₃ => ?_
  refine h₃.pause rfl rfl trivial fun _ g₄ post₄ s₄ hg₄ hr₄ h₄ => ?_
  exact hk _ g₄ post₄ s₄ ((hr₁.trans hr₂).trans (.of_write h₂.inv w)) ⟨rfl, hnone⟩ hg₄
    (hr₃.trans hr₄) h₄

end

end PocketShell
