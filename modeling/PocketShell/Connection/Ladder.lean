import PocketShell.Connection.Dial

/-!
# Starting the recovery ladder

The ladder up to its dial, and the calls that start one.

* `MayEnd`: the ladder has a reason to return.
* `Climbing`: what the ladder knows at the top of its loop.
* `runReconnect_run`: what the first run of a ladder leaves alone.
* `startReconnect_spec`, `reconnectAwaited_spec`: the rules for the calls that
  start a ladder.
-/

namespace PocketShell

open Coop (Async Thread Discipline)

variable {env : Env} {ok : Allowed} {c : Operation} {g : Segment} {o : Set Tok}
  {post : State → Prop} {s s' : State} {n : Nat} {K : Unit → Thread State Ans Head}
  {err : Thrown → Thread State Ans Head}

/-- Whatever comes next can be reached from anywhere. -/
def Stops (env : Env) (ok : Allowed) (c : Operation) (o : Set Tok) (t : Thread State Ans Head) : Prop :=
  ∀ g post s, Ctx env ok c g o post s → Runs env ok t o s post

/-! ## The end of a ladder -/

/-- A ladder returns, and if it is current it may. -/
def MayEnd (env : Env) (ok : Allowed) (n : Nat) (s : State) : Prop :=
  s.isCurrentConnect n = true → MayReturn ok env n s

theorem MayEnd.of_stale (h : ¬ s.isCurrentConnect n = true) : MayEnd env ok n s :=
  fun hc => absurd hc h

theorem ladderEnd_spec (h : Ctx env ok (.ladder n) g o post s) (ho : .intent n ∈ o)
    (hend : MayEnd env ok n s) (hk : Stops env ok (.ladder n) o (K ())) :
    Runs env ok (Ctl.ladderEnd n (.ladder n) K err) o s post := by
  simp only [Ctl.ladderEnd, Async.bind_apply]
  refine h.update (.ladderEnded n ho hend) fun h₁ => ?_
  refine h₁.pause rfl rfl trivial fun _ g₂ post₂ s₂ hg₂ _ h₂ => ?_
  exact h₂.update (.taskEnd n ho hg₂.shows) (hk _ _ _)

/-- The look a ladder takes before it goes on: one that was overtaken ends. -/
theorem unlessStale_spec {go : Ctl Unit} (h : Ctx env ok (.ladder n) g o post s) (ho : .intent n ∈ o)
    (hgo : s.isCurrentConnect n = true → Runs env ok (go (.ladder n) K err) o s post)
    (hk : Stops env ok (.ladder n) o (K ())) :
    Runs env ok ((do if !(← Ctl.isCurrentConnect n) then Ctl.ladderEnd n else go : Ctl Unit)
      (.ladder n) K err) o s post := by
  simp only [Ctl.isCurrentConnect, Async.bind_apply, Async.get_apply, Async.pure_apply,
    Discipline.wp_read]
  split
  · next hcur => exact ladderEnd_spec h ho (.of_stale (by simpa using hcur)) hk
  · next hcur => exact hgo (by simpa using hcur)

variable {host : SshHostTarget}

theorem ladderGiveUp_spec (h : Ctx env ok c g o post s) (hm : MayShow ok g s)
    (hk : ∀ s', s'.log = s.log → s'.lastDialRetryable = s.lastDialRetryable →
      s'.snapshot.trustDecision = s.snapshot.trustDecision →
      s'.isCurrentConnect n = s.isCurrentConnect n → Ctx env ok c g o post s' →
      Runs env ok (K ()) o s' post) :
    Runs env ok (Ctl.ladderGiveUp host n c K err) o s post := by
  simp only [Ctl.ladderGiveUp, Async.bind_apply, Async.get_apply, Discipline.wp_read]
  split
  · exact h.publish hm (by simp) (by simp) (.inl rfl) (.inl rfl) fun _ h₁ _ => hk _ rfl rfl rfl rfl h₁
  · exact hk s rfl rfl rfl rfl h

/-- A ladder that was given up in time ends. -/
theorem ladderStop_spec (h : Ctx env ok (.ladder n) g o post s)
    (hm : MayShow ok g s) (ho : .intent n ∈ o) (hend : MayEnd env ok n s)
    (hk : Stops env ok (.ladder n) o (K ())) :
    Runs env ok ((do
      Ctl.ladderGiveUp host n
      Ctl.ladderEnd n : Ctl Unit) (.ladder n) K err) o s post := by
  simp only [Async.bind_apply]
  refine ladderGiveUp_spec h hm fun s' hl hr ht hc h' => ladderEnd_spec h' ho (fun hcur => ?_) hk
  obtain ⟨hdialled, hleft⟩ := hend (hc ▸ hcur)
  constructor
  · rw [hl]
    exact hdialled
  · rw [hl, hr, ht]
    exact hleft

/-! ## The loop of the ladder -/

/-- The ladder of the intent `n` is about to make the attempt number `attempt`. -/
structure Climbing (env : Env) (host : SshHostTarget) (n attempt : Nat) (delays : List Nat) (s : State) :
    Prop where
  held : s.isCurrentConnect n = true → s.host = some host
  stripped : hostWithoutTransientPassphrase host = host
  budget : attempt + delays.length = env.retryDelaysMs.length
  dials : (course n s.log).dials = attempt
  connection : s.isCurrentConnect n = true → s.connection = none

theorem Climbing.later {attempt : Nat} {delays : List Nat}
    (h : Climbing env host n attempt delays s) (hr : Rely o s s') (ho : .intent n ∈ o)
    (hn : n ≤ s.connectIntent) : Climbing env host n attempt delays s' where
  held := fun hc => ((hr.2 _ ho).host hn hc).trans (h.held ((hr.2 _ ho).current hn hc))
  stripped := h.stripped
  budget := h.budget
  dials := by rw [(hr.2 _ ho).dials hn, h.dials]
  connection := fun hc => by
    have hs := h.connection ((hr.2 _ ho).current hn hc)
    rcases (hr.2 _ ho).connection hn hc with he | he
    · rw [he, hs]
    · exact he

/-- A thread that parks at a loop head. -/
theorem Ctx.goto {l : Head} (h : Ctx env ok c g o post s)
    (hl : ∀ s₁, Rely o s s₁ → LoopInv env l o s₁) : Runs env ok (.goto l) o s post :=
  ⟨fun _ _ => id, h.atRest, fun s₁ hr _ _ => hl s₁ hr⟩

variable {reason : String}

theorem ladderAttempt_spec {attempt : Nat} {delays : List Nat}
    (h : Ctx env ok (.ladder n) g o post s) (ho : .intent n ∈ o) (hm : MayShow ok g s)
    (hc : Climbing env host n attempt delays s) (hk : Stops env ok (.ladder n) o (K ())) :
    Runs env ok (Ctl.ladderAttempt env host reason n attempt delays (.ladder n) K err) o s post := by
  cases delays with
  | nil =>
    have hb : attempt = env.retryDelaysMs.length := hc.budget
    refine ladderStop_spec h hm ho (fun _ => ⟨?_, fun hlt => ?_⟩) hk
    · rw [hc.dials, hb, List.length_pos_iff]
      exact eq_or_ne _ _
    · rw [hc.dials, hb] at hlt
      exact absurd hlt (lt_irrefl _)
  | cons milliseconds delays =>
    -- the attempt itself, once the delay is over
    have hgo : ∀ g' post' s', Ctx env ok (.ladder n) g' o post' s' → MayShow ok g' s' →
        Climbing env host n attempt (milliseconds :: delays) s' →
        Runs env ok ((do
          if !(← Ctl.isCurrentConnect n) then Ctl.ladderEnd n
          else do
            Ctl.setSnapshot fun sn =>
              { sn with phase := .reconnecting, retryAttempt := attempt + 1, error := some reason }
            let requestId ← Ctl.createId env
            modify fun s => { s with pendingConnectRequestId := some requestId }
            let connected ← Ctl.dial env host n requestId
            Async.loopAt (.ladderDialled host reason n attempt delays requestId connected) : Ctl Unit)
          (.ladder n) K err) o s' post' := by
      intro g' post' s' h' hm' hc'
      refine unlessStale_spec h' ho (fun hcur => ?_) hk
      simp only [Async.bind_apply]
      refine h'.publish hm' (by simp) (fun _ => .inr (hc'.connection hcur)) (.inl rfl) (.inl rfl) fun _ h₁ hm₁ => ?_
      refine h₁.createId fun requestId s₂ hs₂ _ h₂ => ?_
      refine h₂.minor rfl le_rfl le_rfl fun s₃ hs₃ _ h₃ => ?_
      refine dial_spec (k := attempt + 1) h₃ rfl ho ⟨hm₁.shows, ?_⟩ ?_ ?_ ?_ ?_ ?_ ?_
      · rw [hs₃.snapshot, hs₂.snapshot]
        exact hm₁.awake
      · rw [hs₃.isCurrentConnect, hs₂.isCurrentConnect]
        exact hcur
      · rw [hs₃.host, hs₂.host, hc'.stripped]
        exact hc'.held hcur
      · rw [hs₃.connection, hs₂.connection]
        exact hc'.connection hcur
      · exact fun _ => .inr ⟨n, rfl⟩
      · rw [hs₃.log, hs₂.log]
        exact congrArg (· + 1) hc'.dials
      · intro connected g₄ post₄ s₄ hd h₄
        refine h₄.goto fun s₅ hr => ⟨ho, ?_⟩
        have hn : n ≤ s₄.connectIntent := h₄.owned ho
        have hkept := hr.2 _ ho
        have hb := hc'.budget
        refine ⟨fun hcur => ?_, hc'.stripped, by simp at hb; omega, ?_, ?_, fun hcur reason m he => ?_,
          fun ref he => ?_⟩
        · rw [hkept.host hn hcur, hd.host (hkept.current hn hcur), hc'.stripped]
        · rw [hkept.dials hn, hd.dials]
        · rw [hkept.dials hn, hd.fresh]
        · obtain ⟨hconn, hshown⟩ := hd.refused (hkept.current hn hcur) reason m he
          refine ⟨?_, fun ht => by rw [hkept.dials hn]; exact hshown ht⟩
          rcases hkept.connection hn hcur with he' | he'
          · rw [he', hconn]
          · exact he'
        · obtain ⟨conn, hst, href, hdialled, hsince⟩ := hd.held ref he
          exact ⟨conn, hst, href, hr.1.log_subset hdialled,
            hsince.grow hr.1.log (by rw [hkept.dials hn])⟩
    by_cases hz : 0 < attempt
    · simp only [Ctl.ladderAttempt, if_pos hz]
      refine h.pause rfl rfl trivial fun _ g' post' s' hg hr h' => ?_
      exact hgo g' post' s' h' (hg.mayShow rfl) (hc.later hr ho (h.owned ho))
    · simp only [Ctl.ladderAttempt, if_neg hz]
      exact hgo g post s h hm hc

/-! ## Starting a ladder -/

/-- `runReconnect`, by the ladder of a new intent. -/
theorem runReconnect_spec
    (h : Ctx env ok (.ladder n) g o post s) (ho : .intent n ∈ o) (hm : MayShow ok g s)
    (hhost : s.isCurrentConnect n = true → s.host = some host)
    (hstrip : hostWithoutTransientPassphrase host = host) (hdials : (course n s.log).dials = 0)
    (hk : Stops env ok (.ladder n) o (K ())) :
    Runs env ok (Ctl.runReconnect env host reason n (.ladder n) K err) o s post := by
  -- once everything that was held is closed
  have hgo : ∀ g' post' s', Ctx env ok (.ladder n) g' o post' s' → MayShow ok g' s' →
      Climbing env host n 0 env.retryDelaysMs s' →
      Runs env ok ((do
        if !(← Ctl.isCurrentConnect n) then Ctl.ladderEnd n
        else Ctl.ladderAttempt env host reason n 0 env.retryDelaysMs : Ctl Unit) (.ladder n) K err)
        o s' post' := by
    intro g' post' s' h' hm' hc'
    exact unlessStale_spec h' ho (fun _ => ladderAttempt_spec h' ho hm' hc' hk) hk
  simp only [Ctl.runReconnect, Async.bind_apply, Async.get_apply, Discipline.wp_read]
  refine h.update .detach fun h₁ => ?_
  simp only [Discipline.wp_read]
  refine h₁.update (.drop fun _ _ r hr => ?_) fun h₂ => ?_
  · show (s.detachTerminals.records r).pty = none
    rw [State.detachTerminals_records, if_pos (show r ∈ s.terminals from hr)]
  refine h₂.publish ⟨hm.shows, hm.awake⟩ (by simp) (fun _ => .inr rfl) (.inl rfl) (.inr (.inl rfl)) fun _ h₃ hm₃ => ?_
  refine closePtys_mild _ h₃ fun _ g₄ post₄ s₄ ht₄ hr₄ h₄ => ?_
  have hc₄ : Climbing env host n 0 env.retryDelaysMs s₄ := by
    refine Climbing.later ?_ hr₄ ho (h₃.owned ho)
    exact ⟨hhost, hstrip, Nat.zero_add _, hdials, fun _ => rfl⟩
  cases hconn : s.detachTerminals.connection with
  | none => exact hgo g₄ post₄ s₄ h₄ (hm₃.turn rfl ht₄) hc₄
  | some conn =>
    refine cancelAndClose_mild _ h₄ fun _ g₅ post₅ s₅ ht₅ hr₅ h₅ => ?_
    exact hgo g₅ post₅ s₅ h₅ (hm₃.turn rfl (ht₄.trans ht₅)) (hc₄.later hr₅ ho (h₄.owned ho))

/-- What the first run of a ladder leaves alone: it stops at its first await. -/
structure LeavesAlone (s s' : State) : Prop where
  connectIntent : s'.connectIntent = s.connectIntent
  reconnectTask : s'.reconnectTask = s.reconnectTask
  phase : s'.snapshot.phase ≠ .background

theorem dial_run {requestId : String} {l : ActionResult SshConnectionRef → Head} :
    LeavesAlone s ((Ctl.dial env host n requestId c (fun r => .goto (l r)) err).run s).1 := by
  simp only [Ctl.dial, Async.bind_apply, Async.attempt_apply, Ctl.expectedKey]
  cases hg : host.gateway with
  | none => exact ⟨rfl, rfl, fun h => by cases h⟩
  | some marker =>
    have hmarker : hasGatewayMarker host = true := by simp [hasGatewayMarker, hg]
    cases Ctl.gatewayAdmission env host with
    | some message =>
      simp only [Async.throw_apply, Ctl.dialFailed, hmarker, Ctl.isCurrentConnect, Async.bind_apply,
        Async.get_apply, Async.pure_apply, Thread.run, Ctl.createId, Ctl.setSnapshot,
        Async.modifyGet_apply, Async.modify_apply]
      split
      · exact ⟨rfl, rfl, fun h => by cases h⟩
      · exact ⟨rfl, rfl, fun h => by cases h⟩
    | none =>
      simp only [Async.pure_apply, Async.tryCatch_apply, Ctl.dialExpecting, Ctl.isCurrentConnect,
        Async.bind_apply, Async.get_apply, Thread.run, Ctl.createId, Ctl.setSnapshot,
        Async.modifyGet_apply, Async.modify_apply]
      split
      · exact ⟨rfl, rfl, fun h => by cases h⟩
      · exact ⟨rfl, rfl, fun h => by cases h⟩

theorem runReconnect_run :
    LeavesAlone s ((Async.thread (.ladder n) (Ctl.runReconnect env host reason n)).run s).1 := by
  simp only [Async.thread, Ctl.runReconnect, Async.bind_apply, Async.get_apply, Thread.run,
    Async.modify_apply]
  cases hp : s.openPtys with
  | cons pty ptys => exact ⟨rfl, rfl, fun h => by cases h⟩
  | nil =>
    cases hc : s.detachTerminals.connection with
    | some _ => exact ⟨rfl, rfl, fun h => by cases h⟩
    | none =>
      simp only [Ctl.closePtys, Async.pure_apply, Async.bind_apply, Ctl.setSnapshot,
        Async.modify_apply, Thread.run, Ctl.isCurrentConnect, Async.get_apply]
      split
      · exact ⟨rfl, rfl, fun h => by cases h⟩
      · cases env.retryDelaysMs with
        | nil =>
          simp only [Ctl.ladderAttempt, Ctl.ladderGiveUp, Async.bind_apply, Async.get_apply,
            Thread.run]
          split
          · exact ⟨rfl, rfl, fun h => by cases h⟩
          · exact ⟨rfl, rfl, fun h => by cases h⟩
        | cons milliseconds delays =>
          simp only [Ctl.ladderAttempt, Nat.lt_irrefl, if_false, Async.bind_apply, Async.pure_apply,
            Async.get_apply, Thread.run, Ctl.isCurrentConnect]
          split
          · exact ⟨rfl, rfl, fun h => by cases h⟩
          · simp only [Async.bind_apply, Ctl.setSnapshot, Async.modify_apply, Thread.run, Ctl.createId,
              Async.modifyGet_apply, Async.loopAt_apply]
            exact ⟨dial_run.connectIntent, dial_run.reconnectTask, dial_run.phase⟩

/-- The first run of a ladder makes no dial while there is a connection to close. -/
theorem runReconnect_dials {m : Nat} (h : s.connection.isSome = true) :
    (course m ((Async.thread (.ladder n) (Ctl.runReconnect env host reason n)).run s).1.log).dials =
      (course m s.log).dials := by
  have hasked : ∀ q, (course m (s.log ++ [.asked q])).dials = (course m s.log).dials := fun q => by
    rw [course_snoc]
    rfl
  simp only [Async.thread, Ctl.runReconnect, Async.bind_apply, Async.get_apply, Thread.run,
    Async.modify_apply]
  cases hp : s.openPtys with
  | cons pty ptys => exact hasked _
  | nil =>
    cases hc : s.detachTerminals.connection with
    | some _ => exact hasked _
    | none =>
      have hnone : s.connection = none := hc
      rw [hnone] at h
      cases h

/-- A recovery signal was taken: by a ladder that runs already, by nobody for want
of a host, or by a new ladder of the current intent. -/
inductive Taken (s s' : State) : Prop
  | running (h : s' = s) (ht : s.reconnectTask ≠ none)
  | homeless (h : s' = s) (hh : s.host = none)
  | started (h : s.reconnectTask = none) (ht : s'.reconnectTask = some s'.connectIntent)
      (hd : s.connection.isSome = true → (course s'.connectIntent s'.log).dials = 0)

theorem reconnectAndAttach_spec {K : Option Nat → Thread State Ans Head}
    (h : Ctx env ok c g o post s) (hm : MayShow ok g s)
    (hk : ∀ result s', Taken s s' → Rely o s s' → Ctx env ok c g o post s' →
      Runs env ok (K result) o s' post) :
    Runs env ok (Ctl.reconnectAndAttach env reason c K err) o s post := by
  simp only [Ctl.reconnectAndAttach, Async.bind_apply, Async.get_apply, Discipline.wp_read]
  cases htask : s.reconnectTask with
  | some task => exact hk _ s (.running rfl (by simp [htask])) .refl h
  | none =>
    cases hhost : s.host with
    | none => exact hk _ s (.homeless rfl hhost) .refl h
    | some host =>
      simp only [Async.bind_apply, Async.modify_apply, Discipline.wp_read]
      have w : ∀ o, Write ok env g o true s { s with connectIntent := s.connectIntent + 1 } :=
        fun _ => .intent hm.shows
      have hfresh : Tok.intent (s.connectIntent + 1) ∉ minted s := Nat.not_succ_le_self _
      have hr₁ : Rely o s { s with connectIntent := s.connectIntent + 1 } := .of_write h.inv (w ∅)
      have hapart : Disjoint {Tok.intent (s.connectIntent + 1)} o :=
        Set.disjoint_singleton_left.mpr fun hmem => hfresh (h.owned hmem)
      refine h.mint (x := .intent (s.connectIntent + 1)) (w o) (Nat.le_refl _) hfresh fun h₁ => ?_
      refine h₁.spawn {.intent (s.connectIntent + 1)} o (by simp)
        (Set.subset_insert _ _) hapart ?_ h.acts (fun post₁ h₂ => ?_) fun s₃ hs₃ hr₃ h₃ => ?_
      · exact fun m hm => by cases hm; rfl
      · refine runReconnect_spec h₂ rfl ⟨hm.shows, hm.awake⟩ (fun _ => hhost)
          (h.inv.stripped host hhost) ?_ fun _ _ _ h' => h'.finish
        exact congrArg Course.dials (h.inv.unborn _ (Nat.lt_succ_self _))
      · have halone : LeavesAlone { s with connectIntent := s.connectIntent + 1 } s₃ :=
          hs₃ ▸ runReconnect_run
        have hnone : s₃.reconnectTask = none := halone.reconnectTask.trans htask
        have w₃ : ∀ o, Write ok env g o true s₃
            { s₃ with reconnectTask := some (s.connectIntent + 1) } := fun _ =>
          .task _ halone.phase hnone halone.connectIntent.ge hm.shows
        refine h₃.run (w₃ o) fun h₄ => hk _ _ (.started htask ?_ fun hconn => ?_)
          ((hr₁.trans hr₃).trans (.of_write h₃.inv (w₃ ∅))) h₄
        · exact congrArg some halone.connectIntent.symm
        · have hn : s₃.connectIntent = s.connectIntent + 1 := halone.connectIntent
          have hd : (course (s.connectIntent + 1) s₃.log).dials = (course (s.connectIntent + 1) s.log).dials :=
            hs₃ ▸ runReconnect_dials hconn
          rw [hn, hd, h.inv.unborn _ (Nat.lt_succ_self _)]

/-- `startReconnect`. It looks at the phase first, so it may be called in any step
that may change the snapshot. -/
theorem startReconnect_spec (h : Ctx env ok c g o post s) (hs : Shows ok g)
    (hk : ∀ s', Rely o s s' → Ctx env ok c g o post s' → Runs env ok (K ()) o s' post) :
    Runs env ok (Ctl.startReconnect env reason c K err) o s post := by
  simp only [Ctl.startReconnect, Async.bind_apply, Async.get_apply, Discipline.wp_read]
  split
  · exact hk s .refl h
  · next hquiet =>
    have hphase : s.snapshot.phase ≠ .background := fun hb => hquiet (by simp [hb])
    simp only [Async.bind_apply]
    refine reconnectAndAttach_spec h ⟨hs, .inl hphase⟩ fun result s₁ ht hr h₁ => ?_
    have w : ∀ o, Write ok env g o true s₁ (s₁.addLog (.signalled s.recovery s₁.recovery)) := by
      refine fun _ => .signalled s.recovery fun hconn => ?_
      cases ht with
      | running he htask =>
        subst he
        exact ⟨by simp [State.recovery, htask], fun hnone => absurd hnone htask⟩
      | homeless he hhost =>
        subst he
        obtain ⟨conn, hconn⟩ := Option.isSome_iff_exists.mp hconn
        obtain ⟨host, hh, _⟩ := h.inv.verified conn hconn
        rw [hhost] at hh
        cases hh
      | started hnone htask hdials => exact ⟨by simp [State.recovery, hnone, htask], fun _ => hdials hconn⟩
    exact h₁.update (w o) fun h₂ => hk _ (hr.trans (.of_write h₁.inv (w ∅))) h₂

/-- `await reconnectAndAttach(..)`. -/
theorem reconnectAwaited_spec (h : Ctx env ok c g o post s) (hm : MayShow ok g s)
    (hk : ∀ g' post' s', Calm c g' → Rely o s s' → Ctx env ok c g' o post' s' →
      Runs env ok (K ()) o s' post') :
    Runs env ok (Ctl.reconnectAwaited env reason c K err) o s post := by
  simp only [Ctl.reconnectAwaited, Async.bind_apply]
  refine reconnectAndAttach_spec h hm fun result s₁ _ hr h₁ => ?_
  cases result with
  | some task =>
    exact h₁.pause rfl rfl trivial fun _ g₂ post₂ s₂ hg₂ hr₂ h₂ =>
      hk g₂ post₂ s₂ hg₂ (hr.trans hr₂) h₂
  | none =>
    exact h₁.pause rfl rfl trivial fun _ g₂ post₂ s₂ hg₂ hr₂ h₂ =>
      hk g₂ post₂ s₂ hg₂ (hr.trans hr₂) h₂

end PocketShell
