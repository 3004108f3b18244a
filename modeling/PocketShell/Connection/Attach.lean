import PocketShell.Connection.Pump

/-!
# Attaching terminals

Opening the PTY of a terminal, for a consumer and for the recovery ladder, and
the calls that open and close terminals.

* `Attaching`: knowledge a thread keeps while it opens a terminal.
* `openTerminal_spec`: the rule for one attach.
* `attachSession_spec`, `detachSession_spec`: the rules for the calls.
-/

namespace PocketShell

open Coop (Async Thread Discipline)

variable {env : Env} {ok : Allowed} {c : Operation} {g : Segment} {o : Set Tok}
  {post : State → Prop} {s s' : State} {r token : Nat} {conn : Connection} {mode : AttachMode}
  {I J : State → Prop}

/-! ## Knowledge -/

/-- `I` survives everything but a transport failure the attach reports; then `J` is left. -/
structure Attaching (ok : Allowed) (c : Operation) (o : Set Tok) (I J : State → Prop) : Prop where
  before : Stable ok c o I
  after : Stable ok c o J
  opened : ∀ {s ref id command geometry tag} (a : Answer (.openPty ref id command geometry tag)),
    ok s (.reply (c, .openPty ref id command geometry tag) a) → I s →
      I (s.addLog (.answered (c, .openPty ref id command geometry tag) a)) ∨
        J (s.addLog (.answered (c, .openPty ref id command geometry tag) a)) ∧
          ∃ e, a = .error e ∧ isTransportFailureMessage e.message = true ∧
            Ctl.attachSuperseded s tag.record tag.token ref = false

theorem Attaching.true : Attaching ok c o (fun _ => True) fun _ => True :=
  ⟨.true, .true, fun _ _ _ => .inl trivial⟩

/-- What is known when an attach has ended. -/
def Attached (I J : State → Prop) (result : ActionResult SessionRow) (s : State) : Prop :=
  I s ∨ J s ∧ ∃ message, result = .refused .failed message ∧ isTransportFailureMessage message = true

/-- Where an attach leaves off. -/
def AttachGoes (env : Env) (ok : Allowed) (c : Operation) (o : Set Tok) (I J : State → Prop)
    (K : ActionResult SessionRow → Thread State Ans Head) : Prop :=
  ∀ result g post s, Attached I J result s → Ctx env ok c g o post s → Runs env ok (K result) o s post

variable {K : ActionResult SessionRow → Thread State Ans Head} {err : Thrown → Thread State Ans Head}

/-! ## Opening a PTY -/

/-- The step brings `c` the PTY the attach `token` of `r` asked for. -/
structure OpenTurn (c : Operation) (conn : Connection) (mode : AttachMode) (r token : Nat)
    (a : Except SshCapabilityError SshPtyOpenResult) (g : Segment) (s : State) : Prop where
  turn : ∃ id command geometry,
    g.label = .reply (c, .openPty conn.ref id command geometry ⟨mode, r, token⟩) a ∧
      s = g.source.addLog (.answered (c, .openPty conn.ref id command geometry ⟨mode, r, token⟩) a)

theorem OpenTurn.mayShow {a : Except SshCapabilityError SshPtyOpenResult}
    (h : OpenTurn c conn mode r token a g s) (hs : Ctl.attachSuperseded s r token conn.ref = false)
    (s' : State) : MayShow ok g s' := by
  obtain ⟨id, command, geometry, hl, he⟩ := h.turn
  have hs' : Ctl.attachSuperseded g.source r token conn.ref = false := by rwa [he] at hs
  refine ⟨.inl ?_, .inr ?_⟩
  · have hcur : g.source.isCurrentGeneration conn.ref = true := by
      simp only [Ctl.attachSuperseded, Bool.or_eq_false_iff, Bool.not_eq_false'] at hs'
      exact hs'.2
    rw [hl]
    simp [Stale, hcur]
  · rw [hl]
    simp [wakes, hs']

/-- The attach failed, or its PTY was refused. -/
theorem openFailed_spec {e : SshCapabilityError} (h : Ctx env ok c g o post s)
    (ht : OpenTurn c conn mode r token (.error e) g s) (hA : Attaching ok c o I J)
    (hi : I s ∨ J s ∧ isTransportFailureMessage e.message = true ∧
      Ctl.attachSuperseded s r token conn.ref = false)
    (hk : AttachGoes env ok c o I J K) :
    Runs env ok (Ctl.openFailed env r token conn mode (.capability e) c K err) o s post := by
  simp only [Ctl.openFailed, Async.bind_apply, Async.get_apply, Discipline.wp_read]
  split
  · next hsup =>
    refine hk _ g post s (.inl (hi.resolve_right ?_)) h
    rintro ⟨_, _, hno⟩
    rw [hsup] at hno
    cases hno
  · next hsup =>
    have hm : ∀ s', MayShow ok g s' := fun s' => ht.mayShow (by simpa using hsup) s'
    have hend : ∀ s', Rely o s s' → Attached I J (.refused .failed e.message) s' := by
      intro s' hr
      rcases hi with hi | ⟨hj, hmsg, _⟩
      · exact .inl (hA.before.rely h.owned hr hi)
      · exact .inr ⟨hA.after.rely h.owned hr hj, e.message, rfl, hmsg⟩
    cases mode with
    | recovery => exact hk _ g post s (hend s .refl) h
    | consumer =>
      simp only [if_true, Async.bind_apply]
      refine h.publish (hm s) ?_ ?_ (.inl rfl) (.inl rfl) fun hr₁ h₁ _ => ?_
      · dsimp only
        split <;> simp
      · intro hrec
        dsimp only at hrec
        split at hrec <;> cases hrec
      · split
        · exact startReconnect_spec h₁ (hm s).shows fun s₂ hr₂ h₂ =>
            hk _ g post s₂ (hend s₂ (hr₁.trans hr₂)) h₂
        · exact hk _ g post _ (hend _ hr₁) h₁

variable {o' : Set Tok}

theorem Stable.extend (h : Stable ok c o I) (ho : o ⊆ o') : Stable ok c o' I :=
  ⟨fun hm hr => h.rely (ho.trans hm) (hr.mono ho), h.heard⟩

theorem Attaching.extend (h : Attaching ok c o I J) (ho : o ⊆ o') : Attaching ok c o' I J :=
  ⟨h.before.extend ho, h.after.extend ho, h.opened⟩

theorem AttachGoes.extend (h : AttachGoes env ok c o I J K) (ho : o ⊆ o')
    (hc : Acts c o) : AttachGoes env ok c o' I J K :=
  fun result g post s hi h' => Runs.extend ho (h result g post s hi (h'.part ho hc))

variable {session : SessionRow}

/-- The PTY is the attach's: it is held, and read by a pump of its own. -/
theorem openAccepted_spec {result : SshPtyOpenResult}
    (h : Ctx env ok c g (insert (.attach r token) o) post s) (hx : .attach r token ∉ o) (hc : Acts c o)
    (ht : OpenTurn c conn mode r token (.ok result) g s)
    (hs : Ctl.attachSuperseded s r token conn.ref = false)
    (hgen : result.pty.generationId = conn.ref.generationId) (hA : Attaching ok c o I J) (hi : I s)
    (hk : AttachGoes env ok c o I J K) :
    Runs env ok ((do
      modify (·.setRecord r (·.openedOn result.pty))
      if mode = .consumer then
        Ctl.setSnapshot fun sn =>
          { sn with phase := .live, selectedSession := some session, error := none, retryAttempt := 0 }
      Async.spawn (.pump r) (Ctl.startPtyPump env r)
      return .ok session : Ctl (ActionResult SessionRow)) c K err)
      (insert (.attach r token) o) s post := by
  have hparts := hs
  simp only [Ctl.attachSuperseded, Bool.or_eq_false_iff, Bool.not_eq_false', decide_eq_false_iff_not,
    not_not] at hparts
  obtain ⟨⟨htok, hmem⟩, hcur⟩ := hparts
  have hr : r ∈ s.terminals := by simpa using hmem
  have hm : ∀ s', MayShow ok g s' := ht.mayShow hs
  have hpump : ∀ s', Rely o s s' → r < s'.nextRecord → (s'.records r).attachToken = token →
      Ctx env ok c g (insert (.attach r token) o) post s' →
      Runs env ok (Async.spawn (.pump r) (Ctl.startPtyPump env r) c (fun _ => K (.ok session)) err)
        (insert (.attach r token) o) s' post := by
    intro s' hr' hn htok' h'
    refine h'.spawn {.attach r token} o (by simp) (Set.subset_insert _ _)
      (Set.disjoint_singleton_left.mpr hx) (fun _ hn => by cases hn) hc (fun post₁ h₁ => ?_)
      fun s₁ _ hr₁ h₁ => ?_
    · exact startPtyPump_spec h₁ hn (by rw [htok']; rfl) fun _ _ _ h₂ => h₂.finish
    · refine hk _ g post s₁ (.inl ?_) h₁
      have ho : o ⊆ minted s := (Set.subset_insert _ _).trans h.owned
      exact hA.before.rely ho (hr'.trans hr₁) hi
  have hconn : ∃ c, s.connection = some c ∧ c.ref.generationId = result.pty.generationId := by
    cases hsc : s.connection with
    | none => simp [State.isCurrentGeneration, hsc] at hcur
    | some cc =>
      refine ⟨cc, rfl, ?_⟩
      simp only [State.isCurrentGeneration, hsc, Option.any_some, decide_eq_true_eq] at hcur
      rw [hcur, hgen]
  obtain ⟨id, command, geometry, hl, he⟩ := ht.turn
  have w : ∀ {o'}, .attach r token ∈ o' →
      Write ok env g o' true s (s.setRecord r (·.openedOn result.pty)) := fun ho' =>
    .opened r c conn.ref id command geometry mode token result (htok ▸ ho') hr hconn hl he
  have hr₁ : Rely o s (s.setRecord r (·.openedOn result.pty)) :=
    .of_owned h.inv (w (Set.mem_singleton _)) (Set.disjoint_singleton_left.mpr hx)
  have hn : r < s.nextRecord := h.inv.bound r hr
  have htok' : ((s.setRecord r (·.openedOn result.pty)).records r).attachToken = token := by
    rw [State.setRecord_same, htok]
    rfl
  simp only [Async.bind_apply]
  refine h.update (w (Set.mem_insert _ _)) fun h₁ => ?_
  cases mode with
  | recovery => exact hpump _ hr₁ hn htok' h₁
  | consumer =>
    simp only [if_true]
    exact h₁.publish (hm _) (by simp) (by simp) (.inl rfl) (.inl rfl) fun hr₂ h₂ _ =>
      hpump _ (hr₁.trans (hr₂.mono (Set.subset_insert _ _))) hn htok' h₂

theorem openAttached_spec
    (h : Ctx env ok c g (insert (.attach r token) o) post s) (hx : .attach r token ∉ o) (hc : Acts c o)
    (hA : Attaching ok c o I J) (hi : I s) (hk : AttachGoes env ok c o I J K) :
    Runs env ok (tryCatch (Ctl.openAttached env r token conn mode session)
      (Ctl.openFailed env r token conn mode) c K err) (insert (.attach r token) o) s post := by
  have ho : o ⊆ insert (Tok.attach r token) o := Set.subset_insert _ _
  have hk' := hk.extend ho hc
  simp only [Async.tryCatch_apply, Ctl.openAttached, Async.bind_apply, Async.get_apply]
  refine h.createId fun requestId s₁ _ hr₁ h₁ => ?_
  simp only [Discipline.wp_read]
  refine h₁.perform trivial (fun _ _ _ _ _ _ he => by cases he) fun s₂ a post₂ hr₂ hq₂ _ h₂ => ?_
  have hasked : Rely o s₁ (s₁.addLog (.asked (c, .openPty conn.ref requestId
      (buildAttachCommand (session.id.getD session.name)) (s₁.records r).geometry ⟨mode, r, token⟩))) :=
    .addLog _ (fun _ _ => rfl) fun _ => id
  have hi₂ := hA.opened a h₂.allowed (hA.before.rely (ho.trans h.owned)
    ((hr₁.mono ho).trans (hasked.trans (hr₂.mono ho))) hi)
  have hc₂ := h₂.settle ⟨hq₂.addLog _ (fun k => Course.step_answered_shown _ k
    (c, .openPty conn.ref requestId (buildAttachCommand (session.id.getD session.name))
      (s₁.records r).geometry ⟨mode, r, token⟩) a) fun _ => rfl, .free rfl⟩
  cases a with
  | error e =>
    refine openFailed_spec hc₂ ⟨_, _, _, rfl, rfl⟩ (hA.extend ho) (hi₂.imp id ?_) hk'
    rintro ⟨hj, e', he', hmsg, hsup⟩
    cases he'
    exact ⟨hj, hmsg, hsup⟩
  | ok opened =>
    have hi₂ := hi₂.resolve_right (by rintro ⟨_, e', he', _⟩; cases he')
    simp only [Ctl.unwrap, Async.pure_apply, Discipline.wp_read]
    split
    · simp only [Async.bind_apply]
      refine closePty_mild _ hc₂ fun _ g₃ post₃ s₃ _ hr₃ h₃ => ?_
      exact hk' _ g₃ post₃ s₃ (.inl (hA.before.rely (ho.trans hc₂.owned) (hr₃.mono ho) hi₂)) h₃
    · next hno =>
      simp only [Bool.or_eq_true, decide_eq_true_eq, not_or, not_not, Bool.not_eq_true] at hno
      exact openAccepted_spec hc₂ hx hc ⟨_, _, _, rfl, rfl⟩ hno.2 hno.1.2 hA hi₂ hk

/-- What is left of `openTerminal` once the PTY before is closed. -/
def openTerminalNow (env : Env) (r token : Nat) (conn : Connection) (mode : AttachMode)
    (session : SessionRow) : Ctl (ActionResult SessionRow) := do
  if Ctl.attachSuperseded (← get) r token conn.ref then
    return .refused .superseded "Session attach was superseded."
  else
    tryCatch (Ctl.openAttached env r token conn mode session)
      (Ctl.openFailed env r token conn mode)

/-- What is left of `openTerminal` once the attach is announced. -/
def openTerminalRest (env : Env) (r token : Nat) (conn : Connection) (mode : AttachMode)
    (session : SessionRow) (previous : Option SshPtyRef) : Ctl (ActionResult SessionRow) := do
  if let some previous := previous then Ctl.closePtyRef env previous
  openTerminalNow env r token conn mode session

/-- `openTerminal` takes the terminal from whatever attach it had. -/
theorem openTerminal_spec (h : Ctx env ok c g o post s) (hr : r ∈ s.terminals)
    (hm : mode = .consumer → MayShow ok g s) (hA : Attaching ok c o I J) (hi : I s)
    (hk : AttachGoes env ok c o I J K) :
    Runs env ok (Ctl.openTerminal env r conn mode c K err) o s post := by
  let token := (s.records r).attachToken + 1
  let s₁ := s.setRecord r fun t =>
    { t with attachToken := token, pumpToken := t.pumpToken + 1, pty := none }
  have hx : Tok.attach r token ∉ minted s := Nat.not_succ_le_self _
  have hxo : Tok.attach r token ∉ o := fun hmem => hx (h.owned hmem)
  have ho : o ⊆ insert (Tok.attach r token) o := Set.subset_insert _ _
  have w : ∀ o, Write ok env g o true s s₁ := fun _ => by
    have he : s₁ = s.setRecord r fun t =>
        { t with attachToken := t.attachToken + 1, pumpToken := t.pumpToken + 1, pty := none } :=
      s.setRecord_congr r rfl
    rw [he]
    exact .opening r hr
  have hr₁ : Rely o s s₁ := .of_write h.inv (w ∅)
  have hx₁ : Tok.attach r token ∈ minted s₁ := by
    show token ≤ (s₁.records r).attachToken
    rw [State.setRecord_same]
  have hopen : ∀ g' post' s', Rely o s s' → Ctx env ok c g' (insert (.attach r token) o) post' s' →
      Runs env ok (openTerminalNow env r token conn mode (s.records r).session c K err)
        (insert (.attach r token) o) s' post' := by
    intro g' post' s' hr' h'
    have hi' := hA.before.rely h.owned hr' hi
    simp only [openTerminalNow, Async.bind_apply, Async.get_apply, Discipline.wp_read]
    split
    · exact hk.extend ho h.acts _ g' post' s' (.inl hi') h'
    · exact openAttached_spec h' hxo h.acts hA hi' hk
  have hclose : ∀ s', Rely o s s' → Ctx env ok c g (insert (.attach r token) o) post s' →
      Runs env ok (openTerminalRest env r token conn mode (s.records r).session (s.records r).pty c K err)
        (insert (.attach r token) o) s' post := by
    intro s' hr' h'
    cases (s.records r).pty with
    | none => exact hopen g post s' hr' h'
    | some previous =>
      simp only [openTerminalRest, Async.bind_apply]
      exact closePtyRef_mild previous h' fun _ g₂ post₂ s₂ _ hr₂ h₂ =>
        hopen g₂ post₂ s₂ (hr'.trans (hr₂.mono ho)) h₂
  simp only [Ctl.openTerminal, Async.bind_apply, Async.get_apply, Discipline.wp_read,
    Async.modify_apply]
  refine h.mint (w o) hx₁ hx fun h₁ => ?_
  cases mode with
  | recovery => exact hclose s₁ hr₁ h₁
  | consumer =>
    have hm := hm rfl
    simp only [if_true, Async.bind_apply, Async.get_apply, Discipline.wp_read]
    refine h₁.publish ⟨hm.shows, hm.awake⟩ ?_ ?_ (.inl rfl) (.inl rfl) fun hr₂ h₂ _ =>
      hclose _ (hr₁.trans (hr₂.mono ho)) h₂
    · dsimp only
      split <;> simp
    · intro hrec
      dsimp only at hrec
      split at hrec <;> cases hrec

/-! ## Attaching a session -/

theorem attachPromise_spec {ticket : Nat} {K : Unit → Thread State Ans Head}
    (h : Ctx env ok c g o post s) (hr : r ∈ s.terminals)
    (hm : MayShow ok g s) (hk : Stops env ok c o (K ())) :
    Runs env ok (Ctl.attachPromise env r conn ticket c K err) o s post := by
  simp only [Ctl.attachPromise, Ctl.settled, Async.bind_apply, Async.attempt_apply]
  refine openTerminal_spec h hr (fun _ => hm) .true trivial fun result g₁ post₁ s₁ _ h₁ => ?_
  refine h₁.pause rfl rfl trivial fun _ g₂ post₂ s₂ _ _ h₂ => ?_
  simp only [Async.pure_apply]
  refine h₂.minor ?_ ?_ ?_ fun s₃ _ _ h₃ => h₃.minor rfl le_rfl le_rfl fun s₄ _ _ h₄ => hk g₂ post₂ s₄ h₄
  · split
    · exact State.setRecord_core rfl
    · rfl
  · split <;> exact le_rfl
  · split <;> exact le_rfl

theorem startAttach_spec (h : Ctx env ok c g o post s) (hr : r ∈ s.terminals) (hm : MayShow ok g s)
    (hk : Goes env ok c o (fun _ => True) K) :
    Runs env ok (Ctl.startAttach env r conn c K err) o s post := by
  simp only [Ctl.startAttach, Async.bind_apply, Async.get_apply, Discipline.wp_read]
  refine h.minor rfl le_rfl (Nat.le_succ _) fun s₁ hs₁ _ h₁ => ?_
  refine h₁.spawn ∅ o (Set.empty_subset _) (Set.Subset.refl _) (Set.empty_disjoint _)
    (fun _ hn => by cases hn) h.acts (fun post₂ h₂ => ?_) fun s₂ _ _ h₂ => ?_
  · refine attachPromise_spec h₂ (hs₁.terminals ▸ hr) ⟨hm.shows, ?_⟩ fun _ _ _ h₃ => h₃.finish
    rw [hs₁.snapshot]
    exact hm.awake
  · refine h₂.minor (State.setRecord_core rfl) le_rfl le_rfl fun s₃ _ _ h₃ => ?_
    exact h₃.pause rfl rfl trivial fun result g₄ post₄ s₄ _ _ h₄ => hk result g₄ post₄ s₄ trivial h₄

/-- `focus` moves clocks only. -/
theorem focus_spec {K : Unit → Thread State Ans Head}
    (h : Ctx env ok c g o post s)
    (hk : ∀ s', SameCore s s' → Rely o s s' → Ctx env ok c g o post s' → Runs env ok (K ()) o s' post) :
    Runs env ok (Ctl.focus r c K err) o s post := by
  simp only [Ctl.focus, Async.bind_apply]
  refine h.minor rfl le_rfl le_rfl fun s₁ hs₁ hr₁ h₁ => ?_
  exact h₁.minor (State.setRecord_core rfl) le_rfl le_rfl fun s₂ hs₂ hr₂ h₂ =>
    hk s₂ (hs₁.trans hs₂) (hr₁.trans hr₂) h₂

/-- Room is made for one more terminal. -/
theorem evict_spec {K : Unit → Thread State Ans Head} (n : Nat)
    (h : Ctx env ok c g o post s) (hs : Shows ok g) (hn : s.terminals.length < env.maxOpenPtys + n)
    (hk : ∀ s', s'.snapshot.phase = s.snapshot.phase → s'.connection = s.connection →
      s'.terminals.length < env.maxOpenPtys →
      (∀ row, s.findTerminal row = none → s'.findTerminal row = none) →
      Ctx env ok c g o post s' → Runs env ok (K ()) o s' post) :
    Runs env ok (Ctl.evict env n c K err) o s post := by
  induction n generalizing s with
  | zero => exact hk s rfl rfl hn (fun _ h => h) h
  | succ n ih =>
    simp only [Ctl.evict, Async.bind_apply, Async.get_apply, Discipline.wp_read]
    split
    · next hfull =>
      have hne : s.terminals ≠ [] := by
        intro he
        rw [he] at hfull
        exact absurd (env.maxOpenPtys_pos.trans hfull) (Nat.not_succ_le_zero 0)
      obtain ⟨r, hr, hlru⟩ := s.leastRecentlyFocused_mem hne
      -- the rest of the round, once the terminal is gone
      have hgo : ∀ s', SameTerminals (s.removeTerminal r false) s' → Ctx env ok c g o post s' →
          Runs env ok (Ctl.evict env n c K err) o s' post := by
        intro s' hs' h'
        have hlen : s'.terminals.length + 1 = s.terminals.length := by
          rw [hs'.terminals, State.removeTerminal_terminals, List.length_erase_of_mem hr]
          exact Nat.sub_add_cancel (List.length_pos_of_mem hr)
        refine ih h' (by omega) fun s₂ hp hc hl hf h₂ => hk s₂ ?_ ?_ hl ?_ h₂
        · rw [hp, hs'.snapshot, State.removeTerminal_phase]
        · rw [hc, hs'.connection, State.removeTerminal_connection]
        · intro row hrow
          refine hf row (State.findTerminal_eq_none.mpr fun q hq => ?_)
          rw [hs'.terminals, State.removeTerminal_terminals] at hq
          have hrow := State.findTerminal_eq_none.mp hrow q (List.mem_of_mem_erase hq)
          rw [hs'.records, State.removeTerminal_records, State.setRecord_records]
          split
          · next he => rw [← he]; exact hrow
          · exact hrow
      rw [hlru]
      simp only [Async.bind_apply]
      refine h.update (.remove r false (h.inv.bound r hr) hs) fun h₁ => ?_
      cases (s.records r).pty with
      | none => exact hgo _ ⟨rfl, rfl, rfl, rfl, rfl⟩ h₁
      | some pty =>
        simp only [Async.bind_apply]
        exact h₁.spawnClosePty fun s₂ hs₂ _ h₂ => hgo s₂ hs₂ h₂
    · next hroom => exact hk s rfl rfl (Nat.not_le.mp hroom) (fun _ h => h) h

variable {requested : Option TerminalGeometry}

theorem attachOpen_spec {listed : SessionRow} (h : Ctx env ok c g o post s) (hr : r ∈ s.terminals)
    (hrow : sameSession listed (s.records r).session = true) (hm : MayShow ok g s)
    (hk : Goes env ok c o (fun _ => True) K) :
    Runs env ok (Ctl.attachOpen env r conn listed requested c K err) o s post := by
  simp only [Ctl.attachOpen, Async.bind_apply, Async.get_apply]
  refine focus_spec h fun s₁ hs₁ _ h₁ => ?_
  have hr₁ : r ∈ s₁.terminals := hs₁.terminals ▸ hr
  have hm₁ : MayShow ok g s₁ := ⟨hm.shows, hs₁.snapshot ▸ hm.awake⟩
  simp only [Discipline.wp_read]
  cases (s₁.records r).attaching with
  | some ticket =>
    exact h₁.pause rfl rfl trivial fun result g₂ post₂ s₂ _ _ h₂ => hk result g₂ post₂ s₂ trivial h₂
  | none =>
    dsimp only
    split
    · simp only [Async.bind_apply]
      refine h₁.minor (State.setRecord_core rfl) le_rfl le_rfl fun s₂ _ _ h₂ => ?_
      exact h₂.amend rfl rfl (.inr hm.shows) (.inl rfl) fun _ h₃ => hk _ g post _ trivial h₃
    · simp only [Async.bind_apply]
      refine h₁.update (.rekey r listed _ hr₁ rfl (.inr ?_)) fun h₂ => ?_
      · rw [hs₁.session]
        exact hrow
      · exact startAttach_spec h₂ hr₁ ⟨hm₁.shows, hm₁.awake⟩ hk

theorem attachNew_spec {listed : SessionRow}
    (h : Ctx env ok c g o post s) (hconn : s.connection.isSome = true)
    (hnew : s.findTerminal listed = none) (hself : sameSession listed listed = true)
    (hg : ∃ session geometry, g.label = .start (.attachSession session geometry))
    (hm : MayShow ok g s) (hk : Goes env ok c o (fun _ => True) K) :
    Runs env ok (Ctl.attachNew env conn listed requested c K err) o s post := by
  simp only [Ctl.attachNew, Async.bind_apply, Async.get_apply, Discipline.wp_read]
  refine evict_spec _ h hm.shows ?_ fun s₁ hp₁ hc₁ hl₁ hf₁ h₁ => ?_
  · have := env.maxOpenPtys_pos
    omega
  · refine h₁.minor rfl le_rfl le_rfl fun s₂ hs₂ _ h₂ => ?_
    simp only [Discipline.wp_read]
    refine h₂.update (.open_ listed _ ?_ ?_ ?_ hself rfl hg) fun h₃ => ?_
    · rw [hs₂.connection, hc₁]
      exact hconn
    · rw [hs₂.terminals]
      exact hl₁
    · rw [hs₂.findTerminal]
      exact hf₁ _ hnew
    · refine startAttach_spec h₃ ?_ ⟨hm.shows, ?_⟩ hk
      · exact List.mem_append_right _ (List.mem_singleton.mpr rfl)
      · show s₂.snapshot.phase ≠ _ ∨ _
        rw [hs₂.snapshot, hp₁]
        exact hm.awake

theorem attachSession_spec {geometry : Option TerminalGeometry} (h : Ctx env ok c g o post s)
    (hg : ∃ session geometry, g.label = .start (.attachSession session geometry))
    (hm : MayShow ok g s) (hk : Goes env ok c o (fun _ => True) K) :
    Runs env ok (Ctl.attachSession env session geometry c K err) o s post := by
  simp only [Ctl.attachSession, Async.bind_apply, Async.get_apply]
  refine h.minor rfl le_rfl le_rfl fun s₁ hs₁ _ h₁ => ?_
  have hm₁ : MayShow ok g s₁ := ⟨hm.shows, hs₁.snapshot ▸ hm.awake⟩
  have hno : Runs env ok ((return .refused .notConnected "Connect to a host before attaching a session." :
      Ctl (ActionResult SessionRow)) c K err) o s₁ post := hk _ g post s₁ trivial h₁
  simp only [Discipline.wp_read]
  cases hcli : s₁.hostCli with
  | none => exact hno
  | some _ =>
    cases hconn : s₁.connection with
    | none => exact hno
    | some conn =>
      cases s₁.host with
      | none => exact hno
      | some host =>
        dsimp only
        cases hl : s₁.snapshot.sessions.find? (sameSession · session) with
        | none => exact hk _ g post s₁ trivial h₁
        | some listed =>
          have hlisted : sameSession listed session = true := by simpa using List.find?_some hl
          have hself : sameSession listed listed = true :=
            sameSession_trans hlisted (by rwa [sameSession_symm])
          dsimp only
          cases hf : s₁.findTerminal listed with
          | some r =>
            obtain ⟨hr, hrow⟩ := State.findTerminal_some hf
            exact attachOpen_spec h₁ hr (by rwa [sameSession_symm]) hm₁ hk
          | none => exact attachNew_spec h₁ (by rw [hconn]; rfl) hf hself hg hm₁ hk

/-! ## Focusing and detaching -/

theorem focusSession_spec {K : Unit → Thread State Ans Head}
    (h : Ctx env ok c g o post s) (hk : Stops env ok c o (K ())) :
    Runs env ok (Ctl.focusSession session c K err) o s post := by
  simp only [Ctl.focusSession, Async.bind_apply, Async.get_apply, Discipline.wp_read]
  cases s.findTerminal session with
  | none => exact hk g post s h
  | some r => exact focus_spec h fun s₁ _ _ h₁ => hk g post s₁ h₁

/-- What is left of `detachSession` once the snapshot is out. -/
def detachRest (env : Env) (pty : Option SshPtyRef) : Ctl Unit := do
  if let some pty := pty then Ctl.closePtyRef env pty

theorem detachSession_spec {K : Unit → Thread State Ans Head}
    (h : Ctx env ok c g o post s) (hs : Shows ok g)
    (hk : Stops env ok c o (K ())) :
    Runs env ok (Ctl.detachSession env session c K err) o s post := by
  simp only [Ctl.detachSession, Async.bind_apply, Async.get_apply, Discipline.wp_read]
  cases hf : s.findTerminal session with
  | none => exact hk g post s h
  | some r =>
    obtain ⟨hr, _⟩ := State.findTerminal_some hf
    simp only [Async.bind_apply, Async.get_apply, Discipline.wp_read]
    have hclose : ∀ s', Ctx env ok c g o post s' →
        Runs env ok (detachRest env (s.records r).pty c K err) o s' post := by
      intro s' h'
      cases (s.records r).pty with
      | none => exact hk g post s' h'
      | some pty => exact closePtyRef_mild pty h' fun _ g₂ post₂ s₂ _ _ h₂ => hk g₂ post₂ s₂ h₂
    refine h.update (.remove r false (h.inv.bound r hr) hs) fun h₁ => ?_
    have hsame : ∀ s₁, Ctx env ok c g o post s₁ →
        Runs env ok ((do
          Ctl.setSnapshot id
          detachRest env (s.records r).pty) c K err) o s₁ post := fun s₁ h₁ => by
      simp only [Async.bind_apply]
      exact h₁.amend rfl rfl (.inl ⟨rfl, rfl, rfl, rfl, rfl, rfl⟩) (.inl rfl) fun _ h₂ => hclose _ h₂
    simp only [Discipline.wp_read]
    split
    · next hphase =>
      simp only [Bool.and_eq_true, decide_eq_true_eq] at hphase
      split
      · exact hsame _ h₁
      · simp only [Async.bind_apply]
        refine h₁.publish ⟨hs, .inl hphase.2⟩ ?_ ?_ (.inl rfl) (.inl rfl) fun _ h₂ _ => hclose _ h₂
        · dsimp only
          rcases State.idlePhase_cases (s.removeTerminal r false) with hi | hi | hi <;> simp [hi]
        · intro hrec
          dsimp only at hrec
          rcases State.idlePhase_cases (s.removeTerminal r false) with hi | hi | hi <;> simp [hi] at hrec
    · exact hsame _ h₁

end PocketShell
