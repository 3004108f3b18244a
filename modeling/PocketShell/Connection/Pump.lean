import PocketShell.Connection.Commands

/-!
# The output pump

A pump reads from one PTY of one terminal for as long as its token is current.

* `PumpKnows.later`: what a pump knows survives what others do.
* `pumpTurn_spec`: the rule for one round of the pump.
* `startPtyPump_spec`: the rule for its start.
-/

namespace PocketShell

open Coop (Async Thread Discipline)

variable {env : Env} {ok : Allowed} {g : Segment} {o : Set Tok} {post : State → Prop} {s s' : State}
  {r pumpToken a : Nat} {pty : SshPtyRef} {K : Unit → Thread State Ans Head}
  {err : Thrown → Thread State Ans Head}

theorem pumpCurrent_token (h : Ctl.pumpCurrent s r pumpToken = true) :
    (s.records r).pumpToken = pumpToken := by
  simp only [Ctl.pumpCurrent, Bool.and_eq_true, decide_eq_true_eq] at h
  exact h.2.symm

theorem PumpKnows.later (h : PumpKnows r pty pumpToken a s) (hr : Rely o s s') (ho : .attach r a ∈ o)
    (hm : o ⊆ minted s) : PumpKnows r pty pumpToken a s' where
  record := h.record.trans_le hr.1.nextRecord
  token := h.token.trans (hr.1.pump r)
  current := fun hp => by
    have hsame : (s'.records r).pumpToken = (s.records r).pumpToken :=
      le_antisymm (hp ▸ h.token) (hr.1.pump r)
    obtain ⟨ha, hpty⟩ := h.current (hsame.symm.trans hp)
    have ha' : (s'.records r).attachToken = a := by
      rcases hr.1.stops r with he | hl
      · exact he.trans ha
      · omega
    exact ⟨ha', ((hr.2 _ ho).pty (hm ho) ha' hsame).trans hpty⟩

/-- A current pump reads from a PTY of the held connection. -/
theorem PumpKnows.generation (h : PumpKnows r pty pumpToken a s) (hi : Inv ok s)
    (hc : Ctl.pumpCurrent s r pumpToken = true) :
    s.lacksGeneration pty.generationId = false ∨ DropsOpenPty ok := by
  by_cases hd : DropsOpenPty ok
  · exact .inr hd
  · obtain ⟨conn, hconn, hgen⟩ := hi.generation hd r pty (h.current (pumpCurrent_token hc)).2
    left
    simp [State.lacksGeneration, hconn, hgen]

/-! ## The end of a pump -/

/-- The phase after a PTY was abandoned. -/
theorem abandonedPhase {phase : ConnectionPhase} {backgrounded : Bool} (live : Bool)
    (h : backgrounded = true ↔ phase = .background) :
    ((if backgrounded then .background else if live then .live else .error : ConnectionPhase) =
      .background ↔ phase = .background) ∧
    (if backgrounded then .background else if live then .live else .error : ConnectionPhase) ≠
      .reconnecting := by
  rw [← h]
  cases backgrounded <;> cases live <;> simp

theorem pumpFailed_spec {e : Thrown} (h : Ctx env ok (.pump r) g o post s) (hr : r < s.nextRecord)
    (hs : Ctl.pumpCurrent s r pumpToken = true → Shows ok g) (hk : Stops env ok (.pump r) o (K ())) :
    Runs env ok (Ctl.pumpFailed env r pty pumpToken e (.pump r) K err) o s post := by
  simp only [Ctl.pumpFailed, Async.bind_apply, Async.get_apply, Discipline.wp_read]
  split
  · exact hk g post s h
  · next hcur =>
    have hs : Shows ok g := hs (by simpa using hcur)
    split
    · simp only [Async.bind_apply]
      refine h.update (.abandon r hr) fun h₁ => ?_
      refine h₁.spawnClosePty fun s₂ hs₂ _ h₂ => ?_
      simp only [Async.get_apply, Discipline.wp_read]
      have hphase := fun live => abandonedPhase live
        (decide_eq_true_iff (p := s.snapshot.phase = .background))
      refine h₂.update (.patch _ (.stay hs ?_ ?_ rfl (.inl rfl))) fun h₃ => ?_
      · rw [hs₂.snapshot]
        exact (hphase _).1
      · exact (hphase _).2
      · split
        · exact startReconnect_spec h₃ hs fun s₄ _ h₄ => hk g post s₄ h₄
        · exact hk g post _ h₃
    · next hno =>
      have hphase : s.snapshot.phase ≠ .background := fun hb => hno (by simp [hb])
      simp only [Async.bind_apply, Async.get_apply]
      refine h.update (.remove r true hr hs) fun h₁ => ?_
      simp only [Discipline.wp_read]
      refine h₁.publish ⟨hs, .inl (by simpa using hphase)⟩ ?_ ?_ (.inl rfl) (.inl rfl) fun _ h₂ _ => ?_
      · dsimp only
        split <;> simp
      · intro hrec
        dsimp only at hrec
        split at hrec <;> cases hrec
      · cases hp : (s.records r).pty with
        | none => exact hk g post _ h₂
        | some failed =>
          exact closePtyRef_mild failed h₂ fun _ g' post' s' _ _ h' => hk g' post' s' h'

theorem pumpEnded_spec {backgrounded : Bool} (h : Ctx env ok (.pump r) g o post s) (hr : r < s.nextRecord)
    (hs : Ctl.pumpCurrent s r pumpToken = true →
      if backgrounded then Shows ok g ∧ s.snapshot.phase = .background else MayShow ok g s)
    (hk : Stops env ok (.pump r) o (K ())) :
    Runs env ok (Ctl.pumpEnded env r pty pumpToken backgrounded (.pump r) K err) o s post := by
  simp only [Ctl.pumpEnded, Async.bind_apply, Async.get_apply, Discipline.wp_read]
  have hclose : ∀ s', Ctx env ok (.pump r) g o post s' →
      Runs env ok (Ctl.closePty env pty (.pump r) K err) o s' post := fun s' h' =>
    closePty_mild pty h' fun _ g' post' s' _ _ h' => hk g' post' s' h'
  split
  · exact hk g post s h
  · next hcur =>
    have hs := hs (by simpa using hcur)
    cases backgrounded with
    | true =>
      simp only [if_true] at hs
      simp only [if_true, Async.bind_apply]
      exact h.amend hs.2.symm rfl (.inr hs.1) (.inl rfl) fun _ h₁ => hclose _ h₁
    | false =>
      simp only [Bool.false_eq_true, if_false] at hs
      simp only [Bool.false_eq_true, if_false, Async.bind_apply, Async.get_apply]
      refine h.update (.remove r true hr hs.shows) fun h₁ => ?_
      simp only [Discipline.wp_read]
      have hidle := (s.removeTerminal r true).idlePhase_cases
      refine h₁.publish ⟨hs.shows, ?_⟩ ?_ ?_ (.inl rfl) (.inl rfl) fun _ h₂ _ => hclose _ h₂
      · rw [State.removeTerminal_phase]
        exact hs.awake
      · rcases hidle with hp | hp | hp <;> simp [hp]
      · rcases hidle with hp | hp | hp <;> simp [hp]

/-! ## The end of a session -/

/-- What `transportLost` does once it has waited. -/
def transportLostNow (env : Env) (pty : SshPtyRef) (n : Nat) : Ctl Bool := do
  match (← get).connection with
  | none => return true
  | some connection =>
    if connection.ref.generationId ≠ pty.generationId then return true
    let requestId ← Ctl.createId env
    match ← Ctl.perform (.getConnectionState connection.ref requestId) with
    | .error _ => Ctl.transportLost env pty n
    | .ok status =>
      if status.requestId ≠ requestId then Ctl.transportLost env pty n
      else return status.state = .lost || status.state = .closed

theorem transportLost_mild {c : Operation} (n : Nat) : Mild env ok c (Ctl.transportLost env pty n) := by
  induction n with
  | zero => exact .pure _
  | succ n ih =>
    have hprobe : Mild env ok c (transportLostNow env pty n) := by
      refine .get fun s => ?_
      cases s.connection with
      | none => exact .pure _
      | some conn =>
        dsimp only
        split
        · exact .pure _
        · refine .bind createId_mild fun requestId => .bind (.perform rfl rfl fun _ _ => trivial) ?_
          intro status
          cases status with
          | error e => exact ih
          | ok status =>
            dsimp only
            split
            · exact ih
            · exact .pure _
    unfold Ctl.transportLost
    split
    · exact .bind (.perform rfl rfl fun _ _ => trivial) fun _ => hprobe
    · exact hprobe

theorem pumpEof_spec (h : Ctx env ok (.pump r) g o post s) (ha : .attach r a ∈ o)
    (hk : PumpKnows r pty pumpToken a s) (hcur : Ctl.pumpCurrent s r pumpToken = true)
    (hs : Shows ok g) (hend : Stops env ok (.pump r) o (K ())) :
    Runs env ok (Ctl.pumpEof env r pty pumpToken (.pump r) K err) o s post := by
  obtain ⟨hatt, _⟩ := hk.current (pumpCurrent_token hcur)
  simp only [Ctl.pumpEof, Async.bind_apply, Async.get_apply]
  refine h.update (.eof r hk.record (hatt ▸ ha)) fun h₁ => ?_
  simp only [Discipline.wp_read]
  split
  · next hb =>
    refine pumpEnded_spec h₁ hk.record (fun _ => ?_) hend
    rw [if_pos rfl]
    exact ⟨hs, hb⟩
  · simp only [Async.bind_apply]
    refine transportLost_mild _ h₁ fun lost g₂ post₂ s₂ _ hr₂ h₂ => ?_
    refine h₂.ask rfl trivial fun s₃ _ post₃ hr₃ _ _ _ h₃ => ?_
    have hr : r < s₃.nextRecord := hk.record.trans_le (hr₂.trans hr₃).1.nextRecord
    cases lost with
    | true =>
      simp only [if_true, Async.bind_apply, Async.get_apply, Discipline.wp_read]
      split
      · exact startReconnect_spec h₃ (.inl rfl) fun s₄ _ h₄ => hend _ post₃ s₄ h₄
      · exact hend _ post₃ _ h₃
    | false =>
      simp only [Bool.false_eq_true, if_false]
      refine pumpEnded_spec h₃ hr (fun hc => ?_) hend
      simp only [Bool.false_eq_true, if_false]
      have hc : Ctl.pumpCurrent s₃ r pumpToken = true := hc
      exact ⟨.inl rfl, .inr (by simp [wakes, hc])⟩

/-! ## One round -/

theorem deliverOutput_spec {c : Operation} {session : SessionRow} {bytes : List UInt8}
    {generationId : String} (n : Nat) (h : Ctx env ok c g o post s)
    (hk : ∀ g' post' s', (g' = g ∧ s' = s ∨ Calm c g') → Rely o s s' → Ctx env ok c g' o post' s' →
      Runs env ok (K ()) o s' post')
    (herr : ∀ e g' post' s', Calm c g' → Rely o s s' → Ctx env ok c g' o post' s' →
      Runs env ok (err e) o s' post') :
    Runs env ok (Ctl.deliverOutput session bytes generationId n c K err) o s post := by
  induction n generalizing g post s with
  | zero => exact hk g post s (.inl ⟨rfl, rfl⟩) .refl h
  | succ n ih =>
    simp only [Ctl.deliverOutput, Async.bind_apply]
    refine h.pause rfl rfl trivial fun result g₁ post₁ s₁ hg₁ hr₁ h₁ => ?_
    cases result with
    | error e => exact herr _ g₁ post₁ s₁ hg₁ hr₁ h₁
    | ok _ =>
      refine ih h₁ (fun g₂ post₂ s₂ hg₂ hr₂ h₂ => ?_) fun e g₂ post₂ s₂ hg₂ hr₂ h₂ =>
        herr e g₂ post₂ s₂ hg₂ (hr₁.trans hr₂) h₂
      refine hk g₂ post₂ s₂ (.inr ?_) (hr₁.trans hr₂) h₂
      rcases hg₂ with ⟨rfl, _⟩ | hg₂
      · exact hg₁
      · exact hg₂

theorem pumpNext_spec {eof : Bool} (h : Ctx env ok (.pump r) g o post s) (ha : .attach r a ∈ o)
    (hk : PumpKnows r pty pumpToken a s) (hcur : Ctl.pumpCurrent s r pumpToken = true)
    (hs : Shows ok g) (hend : Stops env ok (.pump r) o (K ())) :
    Runs env ok (Ctl.pumpNext env r pty pumpToken eof (.pump r) K err) o s post := by
  unfold Ctl.pumpNext
  split
  · exact pumpEof_spec h ha hk hcur hs hend
  · exact h.goto fun s₁ hr => ⟨a, ha, hk.later hr ha h.owned⟩

theorem pumpTurn_spec (h : Ctx env ok (.pump r) g o post s) (ha : .attach r a ∈ o)
    (hk : PumpKnows r pty pumpToken a s) (hend : Stops env ok (.pump r) o (K ())) :
    Runs env ok (Ctl.pumpTurn env r pty pumpToken (.pump r) K err) o s post := by
  simp only [Ctl.pumpTurn, Async.tryCatch_apply, Ctl.pumpRound, Async.bind_apply, Async.get_apply,
    Discipline.wp_read]
  split
  · exact hend g post s h
  · simp only [Async.bind_apply]
    refine h.createId fun requestId s₁ _ hr₁ h₁ => ?_
    refine h₁.ask rfl trivial fun s₂ result post₂ hr₂ _ _ _ h₂ => ?_
    have hk₂ := hk.later (hr₁.trans hr₂) ha h.owned
    -- the answer concerns the held connection, as long as the pump is current
    have hs₂ : Ctl.pumpCurrent s₂ r pumpToken = true →
        Shows ok ⟨.reply (.pump r, .readPty pty requestId (s.records r).readSequence) result, s₂⟩ := by
      intro hc
      rcases hk₂.generation h₂.inv hc with hg | hd
      · exact .inl hg
      · exact .inr (.inr hd)
    cases result with
    | error e => exact pumpFailed_spec h₂ hk₂.record hs₂ hend
    | ok result =>
      simp only [Ctl.unwrap, Async.pure_apply, Async.get_apply, Discipline.wp_read]
      split
      · exact hend _ post₂ _ h₂
      · next hcur =>
        have hcur : Ctl.pumpCurrent s₂ r pumpToken = true := by
          simp only [Bool.not_eq_true', Bool.not_eq_false] at hcur
          exact hcur
        cases Ctl.readViolation pty requestId
          ((s₂.addLog (.answered (.pump r, .readPty pty requestId (s.records r).readSequence)
            (.ok result))).records r).readSequence result with
        | some violation => exact pumpFailed_spec h₂ hk₂.record hs₂ hend
        | none =>
          dsimp only
          split
          · cases env.decodeBase64 result.dataBase64 with
            | none => exact pumpFailed_spec h₂ hk₂.record hs₂ hend
            | some bytes =>
              simp only [Async.bind_apply, Async.get_apply]
              refine deliverOutput_spec _ h₂ ?_ ?_
              · intro g₃ post₃ s₃ hg₃ hr₃ h₃
                simp only [Discipline.wp_read]
                split
                · exact hend g₃ post₃ s₃ h₃
                · next hcur₃ =>
                  have hcur₃ : Ctl.pumpCurrent s₃ r pumpToken = true := by simpa using hcur₃
                  have hs₃ : Shows ok g₃ := by
                    rcases hg₃ with ⟨rfl, _⟩ | hg₃
                    · exact hs₂ hcur
                    · exact hg₃.shows
                  simp only [Async.bind_apply]
                  refine h₃.minor (State.setRecord_core rfl) le_rfl le_rfl fun s₄ hs₄ hr₄ h₄ => ?_
                  refine pumpNext_spec h₄ ha (hk₂.later (hr₃.trans hr₄) ha h₂.owned) ?_ hs₃ hend
                  unfold Ctl.pumpCurrent
                  rw [hs₄.disposed, hs₄.pumpToken]
                  exact hcur₃
              · intro e g₃ post₃ s₃ hg₃ hr₃ h₃
                exact pumpFailed_spec h₃ (hk₂.later hr₃ ha h₂.owned).record (fun _ => hg₃.shows) hend
          · exact pumpNext_spec h₂ ha hk₂ hcur (hs₂ hcur) hend

/-- The pump of a freshly opened PTY, started with its attach. -/
theorem startPtyPump_spec (h : Ctx env ok (.pump r) g o post s) (hr : r < s.nextRecord)
    (ha : .attach r (s.records r).attachToken ∈ o) (hend : Stops env ok (.pump r) o (K ())) :
    Runs env ok (Ctl.startPtyPump env r (.pump r) K err) o s post := by
  simp only [Ctl.startPtyPump, Async.bind_apply, Async.get_apply, Discipline.wp_read]
  cases hp : (s.records r).pty with
  | none => exact hend g post s h
  | some pty =>
    simp only [Async.bind_apply, Async.get_apply]
    refine h.update (.pumping r hr) fun h₁ => ?_
    simp only [Discipline.wp_read, State.setRecord_same]
    refine pumpTurn_spec h₁ ha ⟨hr, ?_, fun _ => ?_⟩ hend
    · simp
    · simp [hp]

end PocketShell
