import PocketShell.Connection.Sound

/-!
# What runs enter in the log

* `Entered`: what holds when an entry is made.
* `reach_keeps`, `reach_entries`: what every write keeps, and what holds of every
  entry when it is made, holds along every run.
* `step_entries`: the entries of one step.
-/

namespace PocketShell

variable {env : Env} {ok : Allowed} {cfg cfg' : Coop.Config State Ans Head} {l : StepLabel}
  {g : Segment} {o : Set Tok} {b : Bool} {s s' : State}

/-- What holds when a thread that owns `o` enters an event. -/
def Entered (ok : Allowed) (env : Env) (g : Segment) (o : Set Tok) (s : State) : Event → Prop
  | .asked (op, q) =>
    match q with
    | .ptyOperation pty _ sequence payload r ticket =>
      Acts op o ∧ Sends ok o s pty sequence payload r ticket
    | q => Acts op o ∧ Asks g s (op, q)
  | .answered q a => Brings g o q a
  | .trustedOnce k =>
    ∃ passphrase d h, g.label = .start (.acceptPresentedHostKey passphrase false) ∧
      g.source.snapshot.trustDecision = some d ∧ g.source.host = some h ∧ d.reason = .unknown ∧
      k = ⟨h.hostId, acceptedHostKeyPin d.previouslyTrusted d.presented⟩
  | .dialled n _ _ => .intent n ∈ o ∧ s.isCurrentConnect n = true
  | .adopted c =>
    (∃ h, s.host = some (hostWithoutTransientPassphrase h) ∧ Verified s.log h c) ∧
      s.connection = none ∧
      (¬ DropsOpenPty ok → s.terminals = [] ∨ ∃ m q a, g.label = .reply (.ladder m, q) a)
  | .presented n => .intent n ∈ o ∧ s.isCurrentConnect n = true
  | .signalled before after =>
    before.connected = true →
      (after.task = some after.intent ↔ before.task = none ∨ before.task = some before.intent) ∧
      (before.task = none → (course after.intent s.log).dials = 0)
  | .ladderEnded n view =>
    view = s.ladderView n ∧ .intent n ∈ o ∧
      (s.isCurrentConnect n = true → MayReturn ok env n s)
  | .queued r ticket pty _ behind =>
    .call ticket ∈ o ∧ r ∈ s.terminals ∧ pty = (s.records r).pty ∧
      behind = (s.records r).operationQueue ∧
      (∀ r' pty' p' b', .queued r' ticket pty' p' b' ∉ s.log) ∧ ticket ∉ s.settledTurns

/-- A write makes one entry at most. -/
theorem Write.entered (w : Write ok env g o b s s') :
    s'.log = s.log ∨ ∃ e, s'.log = s.log ++ [e] ∧ Entered ok env g o s e := by
  cases w with
  | minor h _ _ => exact .inl (SameCore.of_core h).log
  | asked q hq ha =>
    refine .inr ⟨_, rfl, ?_⟩
    obtain ⟨op, q⟩ := q
    cases q with
    | ptyOperation => exact ha.elim
    | _ => exact ⟨hq, ha⟩
  | answered q a h => exact .inr ⟨_, rfl, h⟩
  | dialled n d h hn hcur => exact .inr ⟨_, rfl, hn, hcur⟩
  | presented n p d h hn hcur => exact .inr ⟨_, rfl, hn, hcur⟩
  | adopt n h c p _ _ hc hh hv ht => exact .inr ⟨_, rfl, ⟨h, hh, hv⟩, hc, ht⟩
  | once k passphrase d h hl hd hh hr hk => exact .inr ⟨_, rfl, passphrase, d, h, hl, hd, hh, hr, hk⟩
  | ladderEnded n hn h => exact .inr ⟨_, rfl, rfl, hn, h⟩
  | signalled before h => exact .inr ⟨_, rfl, h⟩
  | remove r keep =>
    obtain ⟨_, he⟩ := s.removeTerminal_eq r keep
    rw [he]
    exact .inl rfl
  | queued r t p hm hr hn ht => exact .inr ⟨_, rfl, hm, hr, rfl, rfl, hn, ht⟩
  | sends op pty id sequence payload r t hop hs => exact .inr ⟨_, rfl, hop, hs⟩
  | _ => exact .inl rfl

/-! ## Along a run -/

/-- What every write of every step keeps holds in every reachable state. -/
theorem reach_keeps {P : State → Prop} (h : (controller env).Reach ok start cfg) (h₀ : P initial)
    (hw : ∀ g o b s s', Inv ok g.source → ok g.source g.label → Inv ok s → o ⊆ minted s → P s →
      Write ok env g o b s s' → P s') : P cfg.state := by
  induction h with
  | init => exact h₀
  | @step c c' l h hok hs ih =>
    have hi : Inv ok c.state := reach_inv h
    have hboth : ∀ s', Path ok env ⟨l, c.state⟩ c.state s' → Inv ok s' ∧ P s' := by
      intro s' hp
      induction hp with
      | refl => exact ⟨hi, ih⟩
      | tail _ w ihp =>
        obtain ⟨o, b, ho, w⟩ := w
        exact ⟨w.inv ihp.1 ho, hw ⟨l, c.state⟩ o b _ _ hi hok ihp.1 ho ihp.2 w⟩
    exact (hboth c'.state (step_path h hok hs)).2

/-- What holds of every entry when it is made, holds of all of them. -/
theorem reach_entries {P : List Event → Event → Prop} (h : (controller env).Reach ok start cfg)
    (hw : ∀ g o s e, Inv ok g.source → ok g.source g.label → Inv ok s → o ⊆ minted s →
      Entered ok env g o s e → P s.log e) {before : List Event} {e : Event}
    (he : before ++ [e] <+: cfg.state.log) : P before e := by
  have hall : ∀ before e, before ++ [e] <+: cfg.state.log → P before e := by
    refine reach_keeps (P := fun s => ∀ before e, before ++ [e] <+: s.log → P before e) h ?_ ?_
    · intro before e hp
      cases before <;> cases List.prefix_nil.mp hp
    · intro g o b s s' hg hok hi ho hP w before e hp
      rcases w.entered with hl | ⟨e', hl, hent⟩
      · exact hP before e (hl ▸ hp)
      · rw [hl] at hp
        rcases List.prefix_concat_iff.mp hp with heq | hp
        · obtain ⟨rfl, he⟩ := List.append_inj' heq rfl
          cases he
          exact hw g o s e hg hok hi ho hent
        · exact hP before e hp
  exact hall before e he

/-- Every entry of a step is made on the way. -/
theorem step_entries (h : (controller env).Reach ok start cfg) (hok : ok cfg.state l)
    (hs : (controller env).Step cfg l cfg') :
    ∃ es, cfg'.state.log = cfg.state.log ++ es ∧ ∀ e ∈ es, ∃ o s, Inv ok s ∧ o ⊆ minted s ∧
      Path ok env ⟨l, cfg.state⟩ cfg.state s ∧ Entered ok env ⟨l, cfg.state⟩ o s e := by
  have hi : Inv ok cfg.state := reach_inv h
  have hpath := step_path h hok hs
  revert hpath
  generalize cfg'.state = s'
  intro hpath
  induction hpath with
  | refl => exact ⟨[], (List.append_nil _).symm, List.forall_mem_nil _⟩
  | @tail s₁ s₂ hp w ih =>
    obtain ⟨es, hl, hes⟩ := ih
    obtain ⟨o, b, ho, w⟩ := w
    rcases w.entered with he | ⟨e, he, hent⟩
    · exact ⟨es, he.trans hl, hes⟩
    · refine ⟨es ++ [e], by rw [he, hl, List.append_assoc], fun e' he' => ?_⟩
      rcases List.mem_append.mp he' with he' | he'
      · exact hes e' he'
      · cases List.mem_singleton.mp he'
        exact ⟨o, s₁, Path.inv hp hi, ho, hp, hent⟩

/-- Whatever a step owed, it got to. -/
theorem reach_answered (h : (controller env).Reach ok start cfg) :
    ∀ q (a : Ans q), .answered q a ∈ cfg.state.log → Answered (.reply q a) cfg.state.log := by
  induction h with
  | init => exact fun _ _ hm => by cases hm
  | @step c c' l h hok hs ih =>
    intro q a hm
    obtain ⟨es, hlog, hes⟩ := step_entries h hok hs
    rw [hlog] at hm
    rcases List.mem_append.mp hm with hm | hm
    · exact (ih q a hm).mono (hlog ▸ List.subset_append_left _ _)
    · obtain ⟨o, s, _, _, _, hent⟩ := hes _ hm
      have hl : l = .reply q a := hent.1
      exact hl ▸ step_answered h hok hs

end PocketShell
