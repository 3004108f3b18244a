import PocketShell.Connection.Lifecycle

/-!
# Terminal input

Writes and resizes wait for the one queued before, and are sent once, over the
channel they were called for.

* `Waits`: what a queued call knows until it is settled.
* `Settleable`: what it has to leave behind before the next one gets its turn.
* `terminalOperation_spec`: the rule for both calls.
-/

namespace PocketShell

open Coop (Async Thread Discipline mem_snoc)

variable {env : Env} {ok : Allowed} {c : Operation} {g : Segment} {o : Set Tok}
  {post : State → Prop} {s s' : State} {r ticket behind : Nat} {selected : Option SshPtyRef}
  {payload : PtyPayload}

/-! ## What a queued call knows -/

/-- The call with this ticket is queued behind `behind`, and not settled. -/
structure Waits (r ticket behind : Nat) (selected : Option SshPtyRef) (payload : PtyPayload) (s : State) :
    Prop where
  record : r < s.nextRecord
  entry : .queued r ticket selected payload behind ∈ s.log
  behind : ∀ r' pty' p' b', .queued r' ticket pty' p' b' ∈ s.log → b' = behind
  unsettled : ticket ∉ s.settledTurns

/-- Nothing was sent for the ticket. -/
def Unsent (ticket : Nat) (s : State) : Prop :=
  ∀ op pty id seq p r, .asked (op, .ptyOperation pty id seq p r ticket) ∉ s.log

/-- It is done with: its turn had come, and what was sent for it was answered. -/
structure Settleable (ticket : Nat) (s : State) : Prop where
  behind : ∀ r pty p b, .queued r ticket pty p b ∈ s.log → b ∈ s.settledTurns
  answered : ∀ q, .asked q ∈ s.log → ∀ pty id seq p r, q.2 = .ptyOperation pty id seq p r ticket →
    ∃ a, .answered q a ∈ s.log

theorem Waits.later (h : Waits r ticket behind selected payload s) (hr : Rely o s s') (ho : .call ticket ∈ o) :
    Waits r ticket behind selected payload s' where
  record := h.record.trans_le hr.1.nextRecord
  entry := hr.1.log_subset h.entry
  behind := fun r' pty' p' b' hq => h.behind r' pty' p' b' ((hr.2 _ ho).log _ rfl hq)
  unsettled := fun ht => h.unsettled ((hr.2 _ ho).turn ht)

theorem Waits.addLog (h : Waits r ticket behind selected payload s) {e : Event}
    (he : ∀ r' pty' p' b', e ≠ .queued r' ticket pty' p' b') :
    Waits r ticket behind selected payload (s.addLog e) where
  record := h.record
  entry := List.mem_append_left _ h.entry
  behind := fun r' pty' p' b' hq => by
    rcases mem_snoc.mp hq with hq | hq
    · exact h.behind r' pty' p' b' hq
    · exact absurd hq.symm (he r' pty' p' b')
  unsettled := h.unsettled

theorem Unsent.later (h : Unsent ticket s) (hr : Rely o s s') (ho : .call ticket ∈ o) :
    Unsent ticket s' :=
  fun op pty id seq p r hq => h op pty id seq p r ((hr.2 _ ho).log _ rfl hq)

theorem Settleable.later (h : Settleable ticket s) (hr : Rely o s s') (ho : .call ticket ∈ o) :
    Settleable ticket s' where
  behind := fun r pty p b hq => hr.1.turns (h.behind r pty p b ((hr.2 _ ho).log _ rfl hq))
  answered := fun q hq pty id seq p r he => by
    have hof : (Event.asked q).isOf ticket := by
      obtain ⟨op, q⟩ := q
      cases he
      rfl
    exact (h.answered q ((hr.2 _ ho).log _ hof hq) pty id seq p r he).imp fun _ ha =>
      hr.1.log_subset ha

theorem Waits.settleable (h : Waits r ticket behind selected payload s) (hu : Unsent ticket s)
    (hb : behind ∈ s.settledTurns) : Settleable ticket s where
  behind := fun r' pty p b hq => h.behind r' pty p b hq ▸ hb
  answered := fun q hq pty id seq p r' he => by
    obtain ⟨op, q⟩ := q
    cases he
    exact absurd hq (hu op pty id seq p r')

/-! ## Sending -/

/-- What a sent operation changes is no more than a setting. -/
structure PtyOperationMinor (op : Ctl.PtyOperation) : Prop where
  core : ∀ r s, (op.applied r s).core = s.core
  ids : ∀ r s, s.ids ≤ (op.applied r s).ids
  tickets : ∀ r s, s.tickets ≤ (op.applied r s).tickets

section

variable {op : Ctl.PtyOperation} {pty : SshPtyRef} {K : ActionResult Nat → Thread State Ans Head}
  {err : Thrown → Thread State Ans Head}

theorem operationFailed_spec {e : Thrown} (h : Ctx env ok c g o post s)
    (hm : s.sameChannel r pty = true → ∀ s', MayShow ok g s') (hr : r < s.nextRecord)
    (ho : .call ticket ∈ o) (hs : Settleable ticket s) (hk : Goes env ok c o (Settleable ticket) K) :
    Runs env ok (Ctl.operationFailed env op r pty e c K err) o s post := by
  simp only [Ctl.operationFailed, Async.bind_apply, Async.get_apply, Discipline.wp_read]
  split
  · exact hk _ g post s hs h
  · next hsame =>
    have hm := hm (by simpa [State.sameChannel] using hsame)
    have w : ∀ o, Write ok env g o true s
        (s.setRecord r fun t => { t with pty := none, pumpToken := t.pumpToken + 1 }) :=
      fun _ => .abandon r hr
    simp only [Async.bind_apply]
    refine h.update (w o) fun h₁ => ?_
    have hr₁ : Rely o s (s.setRecord r fun t => { t with pty := none, pumpToken := t.pumpToken + 1 }) :=
      .of_write h.inv (w ∅)
    refine h₁.createId fun requestId s₂ _ hr₂ h₂ => ?_
    let q : Call := .closePty pty requestId
    refine h₂.run (.asked (c, q) h₂.acts trivial) fun h₃ => ?_
    have hr₃ : Rely o s (s₂.addLog (.asked (c, q))) :=
      (hr₁.trans hr₂).trans (Rely.asked (q := (c, q)) rfl)
    -- the close is under way; its answer is awaited last
    have hclosed : ∀ s', Rely o s s' → Ctx env ok c g o post s' →
        Runs env ok ((do
          let _ ← Ctl.response q
          Ctl.perform (.tick .closePty)
          return .refused .failed e.message : Ctl (ActionResult Nat)) c K err) o s' post := by
      intro s' hr' h'
      simp only [Async.bind_apply]
      refine h'.reply rfl fun s₅ a post₅ hr₅ _ _ _ h₅ => ?_
      refine h₅.pause rfl rfl trivial fun _ g₆ post₆ s₆ _ hr₆ h₆ => ?_
      exact hk _ g₆ post₆ s₆ (hs.later ((hr'.trans hr₅).trans hr₆) ho) h₆
    show Runs env ok (.read _) o _ post
    simp only [Discipline.wp_read]
    refine h₃.publish (hm _) ?_ ?_ (.inl rfl) (.inl rfl) fun hr₄ h₄ _ => ?_
    · dsimp only
      split <;> simp
    · intro hrec
      dsimp only at hrec
      split at hrec <;> cases hrec
    · split
      · simp only [Async.bind_apply]
        exact startReconnect_spec h₄ (hm s).shows fun s₅ hr₅ h₅ =>
          hclosed s₅ ((hr₃.trans hr₄).trans hr₅) h₅
      · exact hclosed _ (hr₃.trans hr₄) h₄

/-- Once a write or resize is sent, its PTY has been sent as many as its record says. -/
theorem Quiet.sends {id : String} {sequence : Nat} {payload : PtyPayload} {t : State} (h : Quiet ok s)
    (hpty : (s.records r).pty = some pty) (hseq : sequence = (s.records r).operationSequence + 1)
    (hc : SameCore (s.setRecord r fun t => { t with operationSequence := sequence }) t) :
    Quiet ok (t.addLog (.asked (c, .ptyOperation pty id sequence payload r ticket))) := by
  have hrec : ∀ i pty', (t.records i).pty = some pty' → (s.records i).pty = some pty' ∧
      (t.records i).operationSequence = if i = r then sequence else (s.records i).operationSequence := by
    intro i pty' hp
    rw [hc.pty, State.setRecord_records] at hp
    rw [hc.operationSequence, State.setRecord_records]
    split
    · next hi =>
      rw [if_pos hi] at hp
      exact ⟨hi ▸ hp, rfl⟩
    · next hi =>
      rw [if_neg hi] at hp
      exact ⟨hp, rfl⟩
  have hlog : t.log = s.log := hc.log
  refine ⟨?_, fun hd hs => ?_, fun hn i pty' hp => ?_, fun hn i i' pty' hp hp' => ?_⟩
  · show t.snapshot.phase = .reconnecting → t.connection = none
    rw [hc.snapshot, hc.connection]
    exact h.climbing
  · rw [State.addLog_log, State.addLog_connectIntent, course_snoc, hlog, hc.connectIntent] at hs
    rw [State.addLog_snapshot, hc.snapshot]
    rw [State.addLog_disposed, hc.disposed] at hd
    exact h.shown hd hs
  · obtain ⟨hp₀, hseq'⟩ := hrec i pty' hp
    rw [State.addLog_records, hseq', State.addLog_log, sent_snoc, hlog]
    split
    · next hi =>
      subst hi
      rw [hpty] at hp₀
      cases hp₀
      rw [hseq, h.numbered hn i pty hpty]
      simp [sent]
    · next hi =>
      have hne : pty ≠ pty' := fun he => hi (h.unique hn i r pty' hp₀ (he ▸ hpty))
      rw [h.numbered hn i pty' hp₀]
      simp [sent, hne]
  · exact h.unique hn i i' pty' (hrec i pty' hp).1 (hrec i' pty' hp').1

/-- What was sent is answered: that was all for the ticket. -/
theorem Waits.answered {q : Req} {a : Ans q} {t : State} (hw : Waits r ticket behind selected payload s)
    (hu : Unsent ticket s) (hb : behind ∈ s.settledTurns) (hr : Rely o (s.addLog (.asked q)) t)
    (ho : .call ticket ∈ o) : Settleable ticket (t.addLog (.answered q a)) := by
  have hw' := ((hw.addLog (e := .asked q) (fun _ _ _ _ h => by cases h)).later hr ho).addLog
    (e := .answered q a) fun _ _ _ _ h => by cases h
  refine ⟨fun r' pty' p' b' hq => ?_, fun q' hq' pty' id' seq' p' r' he => ?_⟩
  · rw [hw'.behind r' pty' p' b' hq]
    exact hr.1.turns hb
  · obtain ⟨op, q'⟩ := q'
    cases he
    have hq₂ : .asked (op, .ptyOperation pty' id' seq' p' r' ticket) ∈ (s.addLog (.asked q)).log := by
      refine (hr.2 _ ho).log _ rfl ?_
      rcases mem_snoc.mp hq' with h | h
      · exact h
      · cases h
    have hq₃ : q = (op, .ptyOperation pty' id' seq' p' r' ticket) := by
      rcases mem_snoc.mp hq₂ with h | h
      · exact absurd h (hu op pty' id' seq' p' r')
      · cases h
        rfl
    subst hq₃
    exact ⟨a, List.mem_append_right _ (List.mem_singleton.mpr rfl)⟩

theorem operationSent_spec (hop : PtyOperationMinor op) (h : Ctx env ok c g o post s)
    (ho : .call ticket ∈ o) (hw : Waits r ticket behind selected op.payload s) (hu : Unsent ticket s)
    (hb : behind ∈ s.settledTurns) (hpty : (s.records r).pty = some pty)
    (hch : selected.map (·.channelId) = some pty.channelId)
    (hk : Goes env ok c o (Settleable ticket) K) :
    Runs env ok (tryCatch (Ctl.operationSent env op r pty ticket) (Ctl.operationFailed env op r pty)
      c K err) o s post := by
  let sequence := (s.records r).operationSequence + 1
  let s₁ := s.setRecord r fun t => { t with operationSequence := sequence }
  have he : s₁ = s.setRecord r fun t => { t with operationSequence := t.operationSequence + 1 } :=
    s.setRecord_congr r rfl
  have w₁ : ∀ o, Write ok env g o false s s₁ := fun _ => he ▸ .sequence r hw.record
  have hr₁ : Rely o s s₁ := .of_write h.inv (w₁ ∅)
  simp only [Async.tryCatch_apply, Ctl.operationSent, Async.bind_apply, Async.get_apply,
    Discipline.wp_read, Ctl.perform]
  rw [Async.modify_apply, Discipline.wp_read]
  refine h.toMid.run (w₁ o) fun h₁ => ?_
  refine h₁.createId fun id s₂ hs₂ hr₂ h₂ => ?_
  let q : Call := .ptyOperation pty id sequence op.payload r ticket
  have hr₁₂ := hr₁.trans hr₂
  have hw₂ := hw.later hr₁₂ ho
  have hu₂ := hu.later hr₁₂ ho
  have hb₂ := hr₁₂.1.turns hb
  have hpty₂ : (s₂.records r).pty = some pty := by
    rw [hs₂.pty, State.setRecord_same]
    exact hpty
  have hsends : Sends ok o s₂ pty sequence op.payload r ticket := by
    refine ⟨ho, hpty₂, ?_, fun hn => ?_, ⟨selected, behind, hw₂.entry, hch, hb₂⟩, hw₂.unsettled, hu₂⟩
    · rw [hs₂.operationSequence, State.setRecord_same]
    · show (s.records r).operationSequence + 1 = _
      rw [h.rest.numbered hn r pty hpty, hs₂.log]
      rfl
  refine h₂.run (.sends c pty id sequence op.payload r ticket h.acts hsends) fun h₃ => ?_
  have hq₃ : Quiet ok (s₂.addLog (.asked (c, q))) := h.rest.toQuiet.sends hpty rfl hs₂
  have hl₃ : s.log ⊆ (s₂.addLog (.asked (c, q))).log := by
    rw [State.addLog_log, hs₂.log]
    exact List.subset_append_left _ _
  refine (h₃.settle ⟨hq₃, h.rest.answered.mono hl₃⟩).response (fun _ _ _ _ _ _ he => ?_)
    fun s₄ a post₄ hr₄ hq₄ _ h₄ => ?_
  · cases he
    exact ho
  have hs₅ : Settleable ticket (s₄.addLog (.answered (c, q) a)) := hw₂.answered hu₂ hb₂ hr₄ ho
  have hrec₅ : r < s₄.nextRecord := hw₂.record.trans_le hr₄.1.nextRecord
  have h₅ := h₄.settle ⟨hq₄.addLog _ (fun k => Course.step_answered_shown _ k (c, q) a) fun _ => rfl, .free rfl⟩
  -- a rejected operation of a channel the record still has may say so
  have hfail : ∀ e, operationRejected pty id sequence a = true →
      Runs env ok (Ctl.operationFailed env op r pty e c K err) o (s₄.addLog (.answered (c, q) a)) post₄ := by
    intro e hrej
    refine operationFailed_spec h₅ (fun hsame s' => ⟨.inr (.inl ?_), .inr ?_⟩) hrec₅ ho hs₅ hk
    · show (operationRejected pty id sequence a && s₄.sameChannel r pty) = true
      rw [hrej]
      exact hsame
    · show (c.isNoisy || (operationRejected pty id sequence a && s₄.sameChannel r pty)) = true
      rw [hrej]
      exact Bool.or_eq_true_iff.mpr (.inr hsame)
  cases a with
  | error e => exact hfail _ rfl
  | ok result =>
    simp only [Ctl.unwrap, Async.pure_apply]
    split
    · next hstale => exact hfail _ (by simpa [operationRejected, or_assoc] using hstale)
    · simp only [Async.bind_apply]
      refine h₅.minor (hop.core _ _) (hop.ids _ _) (hop.tickets _ _) fun s₆ _ hr₆ h₆ => ?_
      exact hk _ _ post₄ s₆ (hs₅.later hr₆ ho) h₆

theorem operationBody_spec (hop : PtyOperationMinor op) (h : Ctx env ok c g o post s)
    (ho : .call ticket ∈ o) (hw : Waits r ticket behind selected op.payload s) (hu : Unsent ticket s)
    (hb : behind ∈ s.settledTurns) (hk : Goes env ok c o (Settleable ticket) K) :
    Runs env ok (Ctl.operationBody env op r selected ticket c K err) o s post := by
  have hs := hw.settleable hu hb
  simp only [Ctl.operationBody, Async.bind_apply, Async.get_apply, Discipline.wp_read]
  split
  · exact hk _ g post s hs h
  · next hch =>
    rw [not_not] at hch
    cases hpty : (s.records r).pty with
    | none => exact hk _ g post s hs h
    | some pty =>
      dsimp only
      split
      · exact hk _ g post s hs h
      · cases op.early (s.records r) with
        | some result => exact hk _ g post s hs h
        | none =>
          refine operationSent_spec hop h ho hw hu hb hpty ?_ hk
          rw [← hch, hpty]
          rfl

/-- `withTerminalOperation`: the operation runs when its turn has come, and is
settled when it is through. -/
theorem withTerminalOperation_spec {operation : Ctl (ActionResult Nat)} (h : Ctx env ok c g o post s)
    (ho : .call ticket ∈ o) (hr : r ∈ s.terminals) (hn : ∀ e ∈ s.log, ¬ e.isOf ticket)
    (ht : ticket ∉ s.settledTurns) (hsel : selected = (s.records r).pty)
    (hop : ∀ g' post' s' behind K' err', Waits r ticket behind selected payload s' → Unsent ticket s' →
      behind ∈ s'.settledTurns → Ctx env ok c g' o post' s' → Goes env ok c o (Settleable ticket) K' →
      Runs env ok (operation c K' err') o s' post')
    (hk : Goes env ok c o (fun _ => True) K) :
    Runs env ok (Ctl.withTerminalOperation r ticket selected payload operation c K err) o s post := by
  subst hsel
  simp only [Ctl.withTerminalOperation, Async.bind_apply, Async.get_apply, Discipline.wp_read]
  let behind := (s.records r).operationQueue
  refine h.update (.queued r ticket payload ho hr (fun _ _ _ _ hq => hn _ hq rfl) ht) fun h₁ => ?_
  have hw₁ : Waits r ticket behind (s.records r).pty payload
      ((s.addLog (.queued r ticket (s.records r).pty payload behind)).setRecord r
        fun t => { t with operationQueue := ticket }) := by
    refine ⟨h.inv.bound r hr, List.mem_append_right _ (List.mem_singleton.mpr rfl),
      fun r' pty' p' b' hq => ?_, ht⟩
    rcases mem_snoc.mp hq with hq | hq
    · exact absurd rfl (hn _ hq)
    · cases hq
      rfl
  have hu₁ : Unsent ticket ((s.addLog (.queued r ticket (s.records r).pty payload behind)).setRecord r
      fun t => { t with operationQueue := ticket }) := by
    intro op' pty' id' seq' p' r' hq
    rcases mem_snoc.mp hq with hq | hq
    · exact hn _ hq rfl
    · cases hq
  refine h₁.ask rfl trivial fun s₂ a post₂ hr₂ hready _ _ h₂ => ?_
  have hb₂ : behind ∈ s₂.settledTurns := by simpa [promiseReady] using hready
  simp only [Async.attempt_apply]
  refine hop _ post₂ _ behind _ _ (hw₁.later hr₂ ho) (hu₁.later hr₂ ho) hb₂ h₂
    fun result g₃ post₃ s₃ hs₃ h₃ => ?_
  exact h₃.update (.settle ticket ho hs₃.behind hs₃.answered) fun h₄ => hk result g₃ post₃ _ trivial h₄

theorem terminalOperation_spec {notAttached : String} {session : SessionRow}
    (hop : PtyOperationMinor op) (h : Ctx env ok c g o post s)
    (hk : Goes env ok c o (fun _ => True) K) :
    Runs env ok (Ctl.terminalOperation env op notAttached session c K err) o s post := by
  simp only [Ctl.terminalOperation, Async.bind_apply, Async.get_apply, Discipline.wp_read]
  cases hf : s.findTerminal session with
  | none => exact hk _ g post s trivial h
  | some r =>
    obtain ⟨hr, _⟩ := State.findTerminal_some hf
    simp only [Async.bind_apply, Async.get_apply]
    refine focus_spec h fun s₁ hs₁ _ h₁ => ?_
    simp only [Discipline.wp_read]
    have hfresh : Tok.call (s₁.tickets + 1) ∉ minted s₁ := Nat.not_succ_le_self _
    have w : Write ok env g o true s₁ { s₁ with tickets := s₁.tickets + 1 } :=
      .minor rfl le_rfl (Nat.le_succ _)
    obtain ⟨hn, ht⟩ := h₁.inv.unissued (s₁.tickets + 1) (Nat.lt_succ_self _)
    rw [Async.modify_apply, Discipline.wp_read]
    refine h₁.mint (x := .call (s₁.tickets + 1)) w (Nat.le_refl _) hfresh fun h₂ => ?_
    refine withTerminalOperation_spec h₂ (Set.mem_insert _ _) (hs₁.terminals ▸ hr) hn ht rfl ?_
      (hk.extend (Set.subset_insert _ _) h.acts)
    intro g' post' s' behind K' err' hw hu hb h' hk'
    exact operationBody_spec hop h' (Set.mem_insert _ _) hw hu hb hk'

end

/-! ## The two calls -/

theorem writeOperation_minor (bytes : List UInt8) : PtyOperationMinor (Ctl.writeOperation env bytes) :=
  ⟨fun _ _ => rfl, fun _ _ => le_rfl, fun _ _ => le_rfl⟩

theorem resizeOperation_minor (geometry : TerminalGeometry) :
    PtyOperationMinor (Ctl.resizeOperation geometry) where
  core := fun r s => by
    have hcore : (s.setRecord r fun t => { t with geometry := geometry }).core = s.core :=
      State.setRecord_core rfl
    exact hcore
  ids := fun _ _ => le_rfl
  tickets := fun _ _ => le_rfl

end PocketShell
