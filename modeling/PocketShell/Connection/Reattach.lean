import PocketShell.Connection.Attach

/-!
# The recovery ladder from its dial on

* `Dialled`, `Unfailed`: what the ladder knows after a dial, and as long as it was
  answered no transport failure it took note of.
* `reattachTerminals_spec`: how a pass over the terminals ends.
* `ladderDialled_spec`: one turn of the ladder.
-/

namespace PocketShell

open Coop (Async Thread Discipline)

variable {env : Env} {ok : Allowed} {c : Operation} {g : Segment} {o : Set Tok}
  {post : State → Prop} {s s' : State} {n k : Nat} {host : SshHostTarget}

/-! ## What the ladder knows -/

/-- What lasts until the next dial of `n`. -/
structure Lasting (n : Nat) where
  holds : List Event → Prop
  grow : ∀ {log log' : List Event}, log <+: log' → (course n log').dials = (course n log).dials →
    holds log → holds log'

namespace Lasting

def nothing (n : Nat) : Lasting n := ⟨fun _ => True, fun _ _ => id⟩

/-- The last dial ended in a connection. -/
def held (n : Nat) : Lasting n where
  holds := fun log => ∃ c h, .dialled n c.dial h ∈ log ∧ Since n (.adopted c) log
  grow := fun hl hd ⟨c, h, hdialled, hsince⟩ => ⟨c, h, hl.subset hdialled, hsince.grow hl hd⟩

/-- And the host was listed over it. -/
def listed (n : Nat) : Lasting n where
  holds := fun log => (held n).holds log ∧
    Since n (.answered (.ladder n, .tick (.refreshSessions true)) ()) log
  grow := fun hl hd ⟨hheld, hsince⟩ => ⟨(held n).grow hl hd hheld, hsince.grow hl hd⟩

end Lasting

variable {F : Lasting n}

/-- The ladder of `n` has made `k` dials of its host, and `F` since the last of them. -/
structure Dialled (host : SshHostTarget) (n k : Nat) (F : Lasting n) (s : State) : Prop where
  dials : (course n s.log).dials = k
  host : s.isCurrentConnect n = true → s.host = some host
  since : F.holds s.log

/-- It was answered no transport failure since, or failures are overlooked. -/
structure Unfailed (ok : Allowed) (host : SshHostTarget) (n k : Nat) (F : Lasting n) (s : State) :
    Prop extends Dialled host n k F s where
  fresh : (course n s.log).failed = false ∨ Overlooks ok

theorem Dialled.later (h : Dialled host n k F s) (hr : Rely o s s') (ho : .intent n ∈ o)
    (hn : n ≤ s.connectIntent) : Dialled host n k F s' where
  dials := by rw [(hr.2 _ ho).dials hn, h.dials]
  host := fun hc => ((hr.2 _ ho).host hn hc).trans (h.host ((hr.2 _ ho).current hn hc))
  since := F.grow hr.1.log (by rw [(hr.2 _ ho).dials hn]) h.since

theorem Dialled.answered {q : Req} {a : Ans q} (h : Dialled host n k F s) :
    Dialled host n k F (s.addLog (.answered q a)) := by
  have hd : (course n (s.addLog (.answered q a)).log).dials = (course n s.log).dials := by
    rw [State.addLog_log, course_snoc]
    simp only [Course.step]
    split <;> rfl
  exact ⟨hd.trans h.dials, h.host, F.grow (List.prefix_append _ _) hd h.since⟩

/-- An answer that is no failure of the ladder leaves it unfailed. -/
theorem Unfailed.answered {q : Req} {a : Ans q} (h : Unfailed ok host n k F s)
    (hf : ladderFailure n q a = false) : Unfailed ok host n k F (s.addLog (.answered q a)) := by
  refine ⟨h.toDialled.answered, h.fresh.imp (fun hfresh => ?_) id⟩
  rw [State.addLog_log, course_snoc]
  simpa [Course.step, hf] using hfresh

/-- A ladder that ran through returns. -/
theorem Unfailed.mayEnd (h : Unfailed ok host n (k + 1) F s)
    (hrun : (course n s.log).failed = false → RanThrough n s.log) : MayEnd env ok n s := fun _ =>
  ⟨.inr (h.dials ▸ Nat.succ_pos k), fun _ => .inr (.inr (h.fresh.imp_left hrun))⟩

theorem Dialled.stable (ho : .intent n ∈ o) : Stable ok c o (Dialled host n k F) where
  rely := fun hsub hr h => h.later hr ho (hsub ho)
  heard := fun _ _ h => h.answered

/-- A listing that fails with the transport is one the ladder overlooks. -/
theorem Unfailed.stable (ho : .intent n ∈ o) :
    Stable ok (.ladder n) o (Unfailed ok host n k F) where
  rely := fun hsub hr h => ⟨h.toDialled.later hr ho (hsub ho), by
    rw [(hr.2 _ ho).dials (hsub ho)]
    exact h.fresh⟩
  heard := fun {s ref id command timeoutMs purpose} a hok h => by
    cases hf : ladderFailure n (.ladder n, .exec ref id command timeoutMs purpose) a with
    | false => exact h.answered hf
    | true =>
      refine ⟨h.toDialled.answered, .inr ⟨s, _, hok, ?_⟩⟩
      cases a with
      | ok => cases hf
      | error e => simpa [ladderFailure, overlooked] using hf

/-- A failed attach is one the ladder takes note of, or overlooks. -/
theorem Unfailed.attaching (ho : .intent n ∈ o) :
    Attaching ok (.ladder n) o (Unfailed ok host n k F) (Dialled host n k F) where
  before := Unfailed.stable ho
  after := Dialled.stable ho
  opened := fun {s ref id command geometry tag} a hok h => by
    cases hf : ladderFailure n (.ladder n, .openPty ref id command geometry tag) a with
    | false => exact .inl (h.answered hf)
    | true =>
      cases a with
      | ok => cases hf
      | error e =>
        have hcode : isTransportCode e = true := by simpa [ladderFailure] using hf
        by_cases hover : overlooked s (.reply (.ladder n, .openPty ref id command geometry tag)
            (.error e)) = true
        · exact .inl ⟨h.toDialled.answered, .inr ⟨s, _, hok, hover⟩⟩
        · simp only [overlooked, hcode, Bool.true_and, Bool.or_eq_true, not_or, Bool.not_eq_true,
            Bool.not_eq_false'] at hover
          exact .inr ⟨h.toDialled.answered, e, rfl, hover.2, hover.1⟩

/-! ## Closing PTYs before a connection -/

/-- Unless there was nothing to close, the last close ends in a step of its own. -/
theorem closePtyRefs_spec {K : Unit → Thread State Ans Head} {err : Thrown → Thread State Ans Head}
    (ptys : List SshPtyRef) (h : Ctx env ok c g o post s)
    (hk : ∀ g' post' s', (ptys = [] ∧ g' = g ∧ s' = s) ∨
        (∃ s₁, g' = ⟨.reply (c, .tick (.closePtys 0)) (), s₁⟩ ∧
          s' = s₁.addLog (.answered (c, .tick (.closePtys 0)) ())) →
      Rely o s s' → Ctx env ok c g' o post' s' → Runs env ok (K ()) o s' post') :
    Runs env ok (Ctl.closePtyRefs env ptys c K err) o s post := by
  induction ptys generalizing g post s with
  | nil => exact hk g post s (.inl ⟨rfl, rfl, rfl⟩) .refl h
  | cons pty ptys ih =>
    simp only [Ctl.closePtyRefs, Ctl.settled, Async.bind_apply, Async.attempt_apply]
    refine closePty_mild pty h fun _ g₁ post₁ s₁ _ hr₁ h₁ => ?_
    refine h₁.ask rfl trivial fun s₂ _ post₂ hr₂ _ _ _ h₂ => ?_
    refine ih h₂ fun g₃ post₃ s₃ hlast hr₃ h₃ => ?_
    refine hk g₃ post₃ s₃ (.inr ?_) ((hr₁.trans hr₂).trans hr₃) h₃
    rcases hlast with ⟨rfl, rfl, rfl⟩ | hlast
    · exact ⟨s₂, rfl, rfl⟩
    · exact hlast

/-! ## A pass over the terminals -/

section

variable {connection : Connection} {listing : SessionsListing}

variable {err : Thrown → Thread State Ans Head}

theorem dropVanished_spec {K : List SessionRow → Thread State Ans Head}
    (rs : List Nat) (h : Ctx env ok c g o post s)
    (hm : MayShow ok g s)
    (hk : ∀ vanished s', Rely o s s' → MayShow ok g s' → Ctx env ok c g o post s' →
      Runs env ok (K vanished) o s' post) :
    Runs env ok (Ctl.dropVanished listing rs c K err) o s post := by
  induction rs generalizing s K with
  | nil => exact hk [] s .refl hm h
  | cons r rs ih =>
    simp only [Ctl.dropVanished, Async.bind_apply, Async.get_apply, Discipline.wp_read]
    split
    · exact ih h hm hk
    · next hr =>
      have hr : r ∈ s.terminals := by simpa using hr
      split
      · exact ih h hm hk
      · have w : ∀ o, Write ok env g o true s (s.removeTerminal r false) :=
          fun _ => .remove r false (h.inv.bound r hr) hm.shows
        simp only [Async.bind_apply]
        refine h.update (w o) fun h₁ => ih h₁ ⟨hm.shows, ?_⟩ fun vanished s₂ hr₂ hm₂ h₂ => ?_
        · rw [State.removeTerminal_phase]
          exact hm.awake
        · exact hk _ s₂ ((Rely.of_write h.inv (w ∅)).trans hr₂) hm₂ h₂

/-- How an attach pass of the ladder ends. -/
inductive PassEnded (ok : Allowed) (host : SshHostTarget) (n k : Nat) (F : Lasting n) (s : State) :
    Except Ctl.ReattachOutcome (Option String) → Prop
  | through (failure : Option String) (h : Unfailed ok host n k F s) : PassEnded ok host n k F s (.ok failure)
  | superseded (h : ¬ s.isCurrentConnect n = true) : PassEnded ok host n k F s (.error .superseded)
  | retry (h : Dialled host n k F s) (hc : s.isCurrentConnect n = true → s.connection = none) :
      PassEnded ok host n k F s (.error .retry)

variable {K : Except Ctl.ReattachOutcome (Option String) → Thread State Ans Head}

/-- A transport failure takes the PTYs and the connection down. -/
theorem reattachLost_spec (h : Ctx env ok (.ladder n) g o post s) (ho : .intent n ∈ o)
    (hd : Dialled host n k F s)
    (hk : ∀ result g' post' s', Calm (.ladder n) g' → PassEnded ok host n k F s' result →
      Ctx env ok (.ladder n) g' o post' s' → Runs env ok (K result) o s' post') :
    Runs env ok ((do
      let opened := (← get).openPtys
      modify (·.detachTerminals)
      Ctl.closePtyRefs env opened
      Ctl.settled .closeCurrentTransport (Ctl.closeCurrentTransport env)
      return .error .retry : Ctl (Except Ctl.ReattachOutcome (Option String))) (.ladder n) K err)
      o s post := by
  simp only [Async.bind_apply, Async.get_apply, Discipline.wp_read]
  have w : ∀ o, Write ok env g o true s s.detachTerminals := fun _ => .detach
  refine h.update (w o) fun h₁ => ?_
  refine closePtyRefs_spec _ h₁ fun g₂ post₂ s₂ hlast hr₂ h₂ => ?_
  have hdrop : ¬ DropsOpenPty ok → s₂.connection.isSome →
      ∀ r ∈ s₂.terminals, (s₂.records r).pty = none := by
    intro hno hconn
    rcases hlast with ⟨_, _, rfl⟩ | ⟨s₃, rfl, rfl⟩
    · intro r hr
      rw [State.detachTerminals_records, if_pos (show r ∈ s.terminals from hr)]
    · refine State.hasLiveTerminal_eq_false.mp (Bool.eq_false_iff.mpr fun hlive => hno ⟨s₃, _, h₂.allowed, ?_⟩)
      exact Bool.and_eq_true_iff.mpr ⟨hconn, hlive⟩
  simp only [Ctl.settled, Async.bind_apply, Async.attempt_apply]
  refine closeCurrentTransport_spec h₂ hdrop fun g₃ post₃ s₃ _ hr₃ h₃ => ?_
  refine h₃.pause rfl rfl trivial fun _ g₄ post₄ s₄ hg₄ hr₄ h₄ => ?_
  have hd₂ : Dialled host n k F s₂ :=
    (hd.later (.of_write h.inv (w ∅)) ho (h.owned ho)).later hr₂ ho (h₁.owned ho)
  have hd₃ : Dialled host n k F s₂.dropConnection := ⟨hd₂.dials, hd₂.host, hd₂.since⟩
  have hr := hr₃.trans hr₄
  have hn : n ≤ s₂.connectIntent := h₂.owned ho
  refine hk _ g₄ post₄ s₄ hg₄ (.retry (hd₃.later hr ho hn) fun hcur => ?_) h₄
  rcases (hr.2 _ ho).connection hn hcur with he | he
  · exact he
  · exact he

/-- What is left of `reattachEach` once an attach is refused with `message`. -/
def reattachRefused (env : Env) (connection : Connection) (listing : SessionsListing) (n : Nat)
    (message : String) (rs : List Nat) : Ctl (Except Ctl.ReattachOutcome (Option String)) := do
  if isTransportFailureMessage message then
    let opened := (← get).openPtys
    modify (·.detachTerminals)
    Ctl.closePtyRefs env opened
    Ctl.settled .closeCurrentTransport (Ctl.closeCurrentTransport env)
    return .error .retry
  else Ctl.reattachEach env connection listing n (some message) rs

theorem reattachEach_spec (failure : Option String) (rs : List Nat)
    (h : Ctx env ok (.ladder n) g o post s) (ho : .intent n ∈ o) (hm : MayShow ok g s)
    (hu : Unfailed ok host n k F s)
    (hk : ∀ result g' post' s', MayShow ok g' s' → PassEnded ok host n k F s' result →
      Ctx env ok (.ladder n) g' o post' s' → Runs env ok (K result) o s' post') :
    Runs env ok (Ctl.reattachEach env connection listing n failure rs (.ladder n) K err) o s post := by
  induction rs generalizing g post s failure with
  | nil => exact hk _ g post s hm (.through failure hu) h
  | cons r rs ih =>
    simp only [Ctl.reattachEach, Async.bind_apply, Async.get_apply, Discipline.wp_read]
    split
    · exact ih failure h hm hu
    · next hr =>
      have hr : r ∈ s.terminals := by simpa using hr
      simp only [Async.bind_apply, Ctl.settled, Async.attempt_apply]
      have hrow : (listing.sessions.find? (sameSession · (s.records r).session)).getD
            (s.records r).session = (s.records r).session ∨
          sameSession ((listing.sessions.find? (sameSession · (s.records r).session)).getD
            (s.records r).session) (s.records r).session = true := by
        cases hf : listing.sessions.find? (sameSession · (s.records r).session) with
        | none => exact .inl rfl
        | some row => exact .inr (by simpa using List.find?_some hf)
      have w : ∀ o, Write ok env g o true s (s.setRecord r fun t =>
          { t with session := (listing.sessions.find? (sameSession · t.session)).getD t.session }) :=
        fun _ => .rekey r _ _ hr rfl hrow
      refine h.update (w o) fun h₁ => ?_
      have hu₁ := (Unfailed.stable ho).rely h.owned (.of_write h.inv (w ∅)) hu
      refine openTerminal_spec h₁ hr (fun he => by cases he) (Unfailed.attaching ho) hu₁
        fun result g₂ post₂ s₂ hatt h₂ => ?_
      refine h₂.pause rfl rfl trivial fun _ g₃ post₃ s₃ hg₃ hr₃ h₃ => ?_
      have hatt₃ : Attached (Unfailed ok host n k F) (Dialled host n k F) result s₃ :=
        hatt.imp ((Unfailed.stable ho).rely h₂.owned hr₃)
          fun hd => ⟨hd.1.later hr₃ ho (h₂.owned ho), hd.2⟩
      simp only [Async.pure_apply, Ctl.isCurrentConnect, Async.bind_apply, Async.get_apply,
        Discipline.wp_read]
      have hm₃ : MayShow ok g₃ s₃ := hg₃.mayShow rfl
      split
      · next hcur => exact hk _ g₃ post₃ s₃ hm₃ (.superseded (by simpa using hcur)) h₃
      · cases result with
        | ok row =>
          exact ih failure h₃ hm₃ (hatt₃.resolve_right (by rintro ⟨_, _, he, _⟩; cases he))
        | refused reason message =>
          by_cases hsup : reason = .superseded
          · subst hsup
            exact ih failure h₃ hm₃ (hatt₃.resolve_right (by rintro ⟨_, _, he, _⟩; cases he))
          · have hd₃ : Dialled host n k F s₃ := hatt₃.elim Unfailed.toDialled And.left
            have hpass : Runs env ok
                (reattachRefused env connection listing n message rs (.ladder n) K err) o s₃ post₃ := by
              unfold reattachRefused
              split
              · exact reattachLost_spec h₃ ho hd₃
                  fun result g' post' s' hg' he h' => hk result g' post' s' (hg'.mayShow rfl) he h'
              · next hmsg =>
                refine ih (some message) h₃ hm₃ (hatt₃.resolve_right ?_)
                rintro ⟨_, m, he, hm'⟩
                cases he
                exact hmsg hm'
            cases reason with
            | superseded => exact absurd rfl hsup
            | _ => exact hpass

theorem reattachDone_spec {selected : Option SessionRow} {failure : Option String}
    {K : Unit → Thread State Ans Head}
    (h : Ctx env ok c g o post s) (hm : MayShow ok g s)
    (hk : ∀ s', Rely o s s' → Ctx env ok c g o post s' → Runs env ok (K ()) o s' post) :
    Runs env ok (Ctl.reattachDone selected failure c K err) o s post := by
  simp only [Ctl.reattachDone, Async.bind_apply, Async.get_apply, Discipline.wp_read]
  split
  · refine h.publish hm ?_ ?_ (.inl rfl) (.inl rfl) fun hr h₁ _ => hk _ hr h₁
    · dsimp only
      split <;> simp
    · intro hrec
      dsimp only at hrec
      split at hrec <;> cases hrec
  · exact h.publish hm (by simp) (by simp) (.inl rfl) (.inl rfl) fun hr h₁ _ => hk _ hr h₁

/-- How `reattachTerminals` ends. -/
inductive Reattached (ok : Allowed) (host : SshHostTarget) (n k : Nat) (F : Lasting n) (s : State) :
    Ctl.ReattachOutcome → Prop
  | done (h : Unfailed ok host n k F s) : Reattached ok host n k F s .done
  | superseded (h : ¬ s.isCurrentConnect n = true) : Reattached ok host n k F s .superseded
  | retry (h : Dialled host n k F s) (hc : s.isCurrentConnect n = true → s.connection = none) :
      Reattached ok host n k F s .retry

theorem Reattached.later {outcome : Ctl.ReattachOutcome} (h : Reattached ok host n k F s outcome)
    (hr : Rely o s s') (ho : .intent n ∈ o) (hsub : o ⊆ minted s) :
    Reattached ok host n k F s' outcome := by
  have hn : n ≤ s.connectIntent := hsub ho
  cases h with
  | done h => exact .done ((Unfailed.stable ho).rely hsub hr h)
  | superseded h => exact .superseded fun hc => h ((hr.2 _ ho).current hn hc)
  | retry h hc =>
    refine .retry (h.later hr ho hn) fun hcur => ?_
    rcases (hr.2 _ ho).connection hn hcur with he | he
    · rw [he, hc ((hr.2 _ ho).current hn hcur)]
    · exact he

theorem reattachTerminals_spec {K : Ctl.ReattachOutcome → Thread State Ans Head}
    (h : Ctx env ok (.ladder n) g o post s) (ho : .intent n ∈ o)
    (hm : MayShow ok g s) (hu : Unfailed ok host n k F s)
    (hk : ∀ outcome g' post' s', Reattached ok host n k F s' outcome →
      Ctx env ok (.ladder n) g' o post' s' → Runs env ok (K outcome) o s' post') :
    Runs env ok (Ctl.reattachTerminals env host listing n (.ladder n) K err) o s post := by
  have hstable : Stable ok (.ladder n) o (Unfailed ok host n k F) := Unfailed.stable ho
  -- nothing is left to attach
  have hnone : ∀ s', Unfailed ok host n k F s' → MayShow ok g s' → Ctx env ok (.ladder n) g o post s' →
      Runs env ok ((do
        Ctl.setSnapshot fun sn =>
          { sn with phase := .connected, selectedSession := none, error := none, retryAttempt := 0 }
        return .done : Ctl Ctl.ReattachOutcome) (.ladder n) K err) o s' post := by
    intro s' hu' hm' h'
    simp only [Async.bind_apply]
    exact h'.publish hm' (by simp) (by simp) (.inl rfl) (.inl rfl) fun hr h₁ _ =>
      hk _ g post _ (.done (hstable.rely h'.owned hr hu')) h₁
  simp only [Ctl.reattachTerminals, Async.bind_apply, Async.get_apply, Discipline.wp_read]
  have hcli := h.inv.hostCli
  cases hconn : s.connection with
  | none =>
    rw [hcli, hconn]
    exact hk _ g post s (.retry hu.toDialled fun _ => hconn) h
  | some connection =>
    rw [hcli, hconn]
    dsimp only
    split
    · exact hnone s hu hm h
    · simp only [Async.bind_apply]
      refine dropVanished_spec _ h hm fun vanished s₁ hr₁ hm₁ h₁ => ?_
      have hu₁ := hstable.rely h.owned hr₁ hu
      simp only [Async.get_apply, Discipline.wp_read]
      split
      · cases vanished with
        | nil => exact hnone s₁ hu₁ hm₁ h₁
        | cons first rest =>
          simp only [Async.bind_apply]
          exact h₁.publish hm₁ (by simp) (by simp) (.inl rfl) (.inl rfl) fun hr₂ h₂ _ =>
            hk _ g post _ (.done (hstable.rely h₁.owned hr₂ hu₁)) h₂
      · simp only [Async.bind_apply]
        refine h₁.publish hm₁ (by simp) (by simp) (.inl rfl) (.inl rfl) fun hr₂ h₂ hm₂ => ?_
        refine reattachEach_spec none _ h₂ ho hm₂ (hstable.rely h₁.owned hr₂ hu₁)
          fun result g₃ post₃ s₃ hm₃ he h₃ => ?_
        cases he with
        | through failure hu₃ =>
          simp only [Async.bind_apply]
          exact reattachDone_spec h₃ hm₃ fun s₄ hr₄ h₄ =>
            hk _ g₃ post₃ s₄ (.done (hstable.rely h₃.owned hr₄ hu₃)) h₄
        | superseded hcur => exact hk _ g₃ post₃ s₃ (.superseded hcur) h₃
        | retry hd hc => exact hk _ g₃ post₃ s₃ (.retry hd hc) h₃

end

/-! ## One turn of the ladder -/

section

variable {K : Unit → Thread State Ans Head} {err : Thrown → Thread State Ans Head} {attempt : Nat}
  {delays : List Nat} {reason requestId : String}

theorem Dialled.climbing (h : Dialled host n (attempt + 1) F s)
    (hs : hostWithoutTransientPassphrase host = host)
    (hb : attempt + 1 + delays.length = env.retryDelaysMs.length)
    (hc : s.isCurrentConnect n = true → s.connection = none) :
    Climbing env host n (attempt + 1) delays s :=
  ⟨h.host, hs, hb, h.dials, hc⟩

/-- The ladder goes on, or ends, once its listing and its attaches are through. -/
theorem ladderListed_spec {listing : ActionResult SessionsListing}
    (h : Ctx env ok (.ladder n) g o post s) (ho : .intent n ∈ o) (hg : Calm (.ladder n) g)
    (hu : Unfailed ok host n (attempt + 1) (.held n) s)
    (hl : Since n (.answered (.ladder n, .tick (.refreshSessions listing.isOk)) ()) s.log)
    (hs : hostWithoutTransientPassphrase host = host)
    (hb : attempt + 1 + delays.length = env.retryDelaysMs.length)
    (hk : Stops env ok (.ladder n) o (K ())) :
    Runs env ok ((do
      if !(← Ctl.isCurrentConnect n) then Ctl.ladderEnd n
      else
        match listing with
        | .refused _ _ => do
          if (← get).snapshot.phase = .reconnecting then
            Ctl.ladderAttempt env host reason n (attempt + 1) delays
          else Ctl.ladderEnd n
        | .ok listing => do
          match ← Ctl.settled .reattachTerminals (Ctl.reattachTerminals env host listing n) with
          | .retry => Ctl.ladderAttempt env host reason n (attempt + 1) delays
          | _ => Ctl.ladderEnd n : Ctl Unit) (.ladder n) K err) o s post := by
  refine unlessStale_spec h ho (fun _ => ?_) hk
  -- a refused listing dials again only where the phase is still reconnecting
  cases listing with
  | refused _ _ =>
    simp only [Async.bind_apply, Async.get_apply, Discipline.wp_read]
    split
    · next hphase =>
      refine ladderAttempt_spec h ho (hg.mayShow rfl) ?_ hk
      exact hu.toDialled.climbing hs hb fun _ => h.rest.climbing hphase
    · exact ladderEnd_spec h ho (hu.mayEnd fun hf => ⟨hu.since, .inl hl, hf⟩) hk
  | ok listing =>
    have hu' : Unfailed ok host n (attempt + 1) (.listed n) s :=
      ⟨⟨hu.dials, hu.host, hu.since, hl⟩, hu.fresh⟩
    simp only [Ctl.settled, Async.bind_apply, Async.attempt_apply]
    refine reattachTerminals_spec h ho (hg.mayShow rfl) hu' fun outcome g₁ post₁ s₁ hout h₁ => ?_
    refine h₁.ask rfl trivial fun s₂ _ post₂ hr₂ _ _ _ h₂ => ?_
    have hg₂ : Calm (.ladder n) ⟨.reply (.ladder n, .tick .reattachTerminals) (), s₂⟩ := ⟨_, _, rfl, rfl⟩
    cases hout.later hr₂ ho h₁.owned with
    | done hu₂ =>
      have hpass : Since n (.answered (.ladder n, .tick .reattachTerminals) ())
          (s₂.addLog (.answered (.ladder n, .tick .reattachTerminals) ())).log := .entered rfl
      exact ladderEnd_spec h₂ ho (hu₂.mayEnd fun hf => ⟨hu₂.since.1, .inr ⟨hu₂.since.2, hpass⟩, hf⟩) hk
    | superseded hcur => exact ladderEnd_spec h₂ ho (.of_stale hcur) hk
    | retry hd hc =>
      exact ladderAttempt_spec h₂ ho (hg₂.mayShow rfl) (hd.climbing hs hb hc) hk

theorem ladderDialled_spec {connected : ActionResult SshConnectionRef}
    (h : Ctx env ok (.ladder n) g o post s) (ho : .intent n ∈ o) (hm : MayShow ok g s)
    (hl : LadderKnows env host n attempt delays connected s) (hk : Stops env ok (.ladder n) o (K ())) :
    Runs env ok (Ctl.ladderDialled env host reason n attempt delays requestId connected (.ladder n) K err)
      o s post := by
  simp only [Ctl.ladderDialled, Async.bind_apply]
  refine h.minor ?_ ?_ ?_ fun s₁ hs₁ hr₁ h₁ => ?_
  · split <;> rfl
  · split <;> exact le_rfl
  · split <;> exact le_rfl
  have hlater : ∀ F : Lasting n, F.holds s.log → Unfailed ok host n (attempt + 1) F s₁ := fun F hF =>
    (Unfailed.stable ho).rely h.owned hr₁ ⟨⟨hl.dials, hl.held, hF⟩, .inl hl.fresh⟩
  have hm₁ : MayShow ok g s₁ := ⟨hm.shows, hs₁.snapshot ▸ hm.awake⟩
  refine unlessStale_spec h₁ ho (fun hcur₁ => ?_) hk
  have hcur₀ : s.isCurrentConnect n = true := by rw [← hs₁.isCurrentConnect]; exact hcur₁
  cases connected with
  | ok ref =>
    obtain ⟨conn, hst, _, hheld⟩ := hl.adopted ref rfl
    have hu₁ := hlater (.held n) ⟨conn, hst, hheld⟩
    simp only [Ctl.settledIn, Async.bind_apply, Async.attempt_apply]
    refine refreshSessions_spec h₁ hm₁ (Unfailed.stable ho) hu₁ fun listing g₂ post₂ s₂ hu₂ h₂ => ?_
    refine h₂.ask rfl trivial fun s₃ _ post₃ hr₃ _ _ _ h₃ => ?_
    exact ladderListed_spec h₃ ho ⟨_, _, rfl, rfl⟩ ((Unfailed.stable ho).rely h₂.owned hr₃ hu₂)
      (.entered rfl) hl.stripped hl.budget hk
  | refused refusal message =>
    obtain ⟨hconn, hshown⟩ := hl.refused hcur₀ refusal message rfl
    have hd₁ := (hlater (.nothing n) trivial).toDialled
    have hmade : env.retryDelaysMs = [] ∨ 0 < (course n s₁.log).dials :=
      .inr (hd₁.dials ▸ Nat.succ_pos attempt)
    -- a host key that was put to the user stops the ladder
    have htrust : refusal = .trustRequired ∨ refusal = .trustMismatch → MayEnd env ok n s₁ := by
      intro ht _
      refine ⟨hmade, fun _ => .inl (h₁.rest.shown (State.isCurrentConnect_iff.mp hcur₁).1 ?_)⟩
      rw [(State.isCurrentConnect_iff.mp hcur₁).2, hs₁.log]
      exact hshown ht
    have hretry : Runs env ok ((do
          if !(← get).lastDialRetryable then do
            Ctl.ladderGiveUp host n
            Ctl.ladderEnd n
          else Ctl.ladderAttempt env host reason n (attempt + 1) delays : Ctl Unit)
        (.ladder n) K err) o s₁ post := by
      simp only [Async.bind_apply, Async.get_apply, Discipline.wp_read]
      split
      · next hno =>
        exact ladderStop_spec h₁ hm₁ ho (fun _ => ⟨hmade, fun _ => .inr (.inl (by simpa using hno))⟩) hk
      · refine ladderAttempt_spec h₁ ho hm₁ (hd₁.climbing hl.stripped hl.budget fun _ => ?_) hk
        rw [hs₁.connection, hconn]
    cases refusal with
    | trustRequired => exact ladderEnd_spec h₁ ho (htrust (.inl rfl)) hk
    | trustMismatch => exact ladderEnd_spec h₁ ho (htrust (.inr rfl)) hk
    | _ => exact hretry

end

end PocketShell
