import PocketShell.Connection.Recovery

/-!
# Generations

What a reply of a superseded generation can do, and which terminals stand beside
which connection.

* `superseded_inert`: a reply of a generation that was replaced changes nothing.
* `terminal_set`: the open terminals, their number, their sessions and their PTYs.
-/

namespace PocketShell

open Coop (System)

variable {env : Env} {ok : Allowed} {cfg cfg' : Coop.Config State Ans Head} {l : StepLabel}
  {g : Segment} {o : Set Tok} {b : Bool} {s s' s'' : State}

/-! ## Replies of a superseded generation -/

/-- Nothing is shown and no reconnect is started. -/
structure Inert (s s' : State) : Prop where
  view : SameView s.snapshot s'.snapshot
  intent : s'.connectIntent = s.connectIntent
  task : s'.reconnectTask = s.reconnectTask

theorem SameView.refl (a : ConnectionSnapshot) : SameView a a := ⟨rfl, rfl, rfl, rfl, rfl, rfl⟩

theorem SameView.trans {a b c : ConnectionSnapshot} (h : SameView a b) (h' : SameView b c) :
    SameView a c :=
  ⟨h'.phase.trans h.phase, h'.sessions.trans h.sessions,
    h'.sessionListErrors.trans h.sessionListErrors, h'.selectedSession.trans h.selectedSession,
    h'.error.trans h.error, h'.uncertainMutation.trans h.uncertainMutation⟩

theorem SameView.setSnapshot {p : ConnectionSnapshot → ConnectionSnapshot}
    (h : SameView s.snapshot (p s.snapshot)) : SameView s.snapshot (s.setSnapshot p).snapshot :=
  ⟨h.phase, h.sessions, h.sessionListErrors, h.selectedSession, h.error, h.uncertainMutation⟩

namespace Inert

theorem refl (s : State) : Inert s s := ⟨.refl _, rfl, rfl⟩

theorem trans (h : Inert s s') (h' : Inert s' s'') : Inert s s'' :=
  ⟨h.view.trans h'.view, h'.intent.trans h.intent, h'.task.trans h.task⟩

theorem of_eq (hv : s'.snapshot = s.snapshot) (hi : s'.connectIntent = s.connectIntent)
    (ht : s'.reconnectTask = s.reconnectTask) : Inert s s' :=
  ⟨hv ▸ .refl _, hi, ht⟩

end Inert

/-- In a step that may show nothing, no write does. -/
theorem Write.inert (hs : ¬ Shows ok g) (w : Write ok env g o b s s') : Inert s s' := by
  cases w with
  | minor h _ _ =>
    have hc := SameCore.of_core h
    exact .of_eq hc.snapshot hc.connectIntent hc.reconnectTask
  | patch p hp =>
    rcases hp.shows with hv | hshow
    · exact ⟨hv.setSnapshot, rfl, rfl⟩
    · exact absurd hshow hs
  | presented n p d h _ _ _ _ _ _ _ _ _ hshow | adopt n h c p _ _ _ _ _ _ _ _ _ _ hshow
  | rehost n h p _ _ _ _ _ _ _ hshow | accepting p _ _ _ hshow | intent hshow
  | task n _ _ _ hshow | taskEnd n _ hshow | unhost p _ _ _ _ _ hshow | remove r k _ hshow =>
    exact absurd hshow hs
  | _ => exact .of_eq rfl rfl rfl

theorem Path.inert (hs : ¬ Shows ok g) (h : Path ok env g s s') : Inert s s' := by
  induction h with
  | refl => exact .refl _
  | tail _ w ih =>
    obtain ⟨_, _, _, w⟩ := w
    exact ih.trans (w.inert hs)

/-- The step hands no reply of a superseded generation to a handler that does not
look, and drops no connection from under an open terminal. -/
def keepsApart (s : State) (l : StepLabel) : Bool :=
  !(Stale s l && landsLate s l) && !dropsOpenPty s l

theorem keepsApart_dropsOpenPty : ¬ DropsOpenPty fun s l => keepsApart s l = true := by
  rintro ⟨s, l, hok, hl⟩
  simp [keepsApart, hl] at hok

/-- A reply of a generation that is no longer the current one shows nothing and
starts no reconnect. -/
theorem superseded_inert (h : (controller env).Reach (fun s l => keepsApart s l = true) start cfg)
    (hok : keepsApart cfg.state l = true) (hs : (controller env).Step cfg l cfg')
    (hl : Stale cfg.state l = true) : Inert cfg.state cfg'.state := by
  refine Path.inert ?_ (step_path h hok hs)
  rintro (hstale | hlate | hdrop)
  · rw [show Stale cfg.state l = false from hstale] at hl
    cases hl
  · have hlate' : landsLate cfg.state l = true := hlate
    simp [keepsApart, hl, hlate'] at hok
  · exact keepsApart_dropsOpenPty hdrop

/-- A probe of host A that is answered once host B is connected. -/
theorem superseded_inert_probe :
    ∃ cfg l cfg', (controller obligingEnv).Reach (fun s l => keepsApart s l = true) start cfg ∧
      (controller obligingEnv).Step cfg l cfg' ∧ Stale cfg.state l = true ∧
      Inert cfg.state cfg'.state := by
  obtain ⟨cfg, l, cfg', hreach, hstep, hp⟩ := System.played_step (controller obligingEnv) keepsApart
    start (connecting "A" 0 ++ .start .probeSessions :: replacing "B" 1) (answered 0)
    (p := fun s l _ => keepsApart s l && Stale s l) (by decide +kernel)
  obtain ⟨hok, hl⟩ := Bool.and_eq_true_iff.mp hp
  exact ⟨cfg, l, cfg', hreach, hstep, hl, superseded_inert hreach hok hstep hl⟩

/-- A listing of host A that is answered once host B is connected is shown as the
sessions of host B. -/
theorem superseded_listing_lands :
    ∃ cfg l cfg', (controller obligingEnv).Reach System.any start cfg ∧
      (controller obligingEnv).Step cfg l cfg' ∧ Stale cfg.state l = true ∧
      cfg.state.snapshot.hostId = some "B" ∧ cfg'.state.snapshot.hostId = some "B" ∧
      cfg.state.snapshot.sessions = [] ∧ cfg'.state.snapshot.sessions ≠ [] := by
  obtain ⟨cfg, l, cfg', hreach, hstep, hp⟩ := System.played_step (controller obligingEnv)
    (fun _ _ => true) start
    (connecting "A" 0 ++ .start .refreshSessions :: replacing "B" 1 ++ [answered 0]) (answered 0)
    (p := fun s l s' => Stale s l && s.snapshot.hostId = some "B" &&
      s'.snapshot.hostId = some "B" && s.snapshot.sessions = [] && s'.snapshot.sessions ≠ [])
    (by decide +kernel)
  simp only [Bool.and_eq_true, decide_eq_true_eq] at hp
  obtain ⟨⟨⟨⟨hl, hh⟩, hh'⟩, he⟩, he'⟩ := hp
  exact ⟨cfg, l, cfg', hreach.mono _ fun _ _ _ => trivial, hstep, hl, hh, hh', he, he'⟩

/-! ## The open terminals -/

/-- As many terminals as there is room for, no two of them of one session. -/
structure TerminalSet (env : Env) (s : State) : Prop where
  room : s.terminals.length ≤ env.maxOpenPtys
  distinct : ∀ r ∈ s.terminals, ∀ r' ∈ s.terminals, r ≠ r' →
    sameSession (s.records r).session (s.records r').session = false

namespace TerminalSet

/-- A write that opens nothing and leaves the sessions alone. -/
theorem shrink (h : TerminalSet env s) (ht : s'.terminals.Sublist s.terminals)
    (hr : ∀ r, (s'.records r).session = (s.records r).session) : TerminalSet env s' where
  room := ht.length_le.trans h.room
  distinct := fun r hm r' hm' hne => by
    rw [hr, hr]
    exact h.distinct r (ht.subset hm) r' (ht.subset hm') hne

theorem same (h : TerminalSet env s) (ht : s'.terminals = s.terminals)
    (hr : ∀ r, (s'.records r).session = (s.records r).session) : TerminalSet env s' :=
  h.shrink (ht ▸ List.Sublist.refl _) hr

variable {f : TerminalRecord → TerminalRecord}

theorem setRecord (h : TerminalSet env s) (r : Nat)
    (hf : (f (s.records r)).session = (s.records r).session) : TerminalSet env (s.setRecord r f) := by
  refine h.same rfl fun i => ?_
  rw [State.setRecord_records]
  split
  · next he => rw [hf, he]
  · rfl

/-- The row of a terminal is replaced by another one of its session. -/
theorem rekey (h : TerminalSet env s) (r : Nat) {row : SessionRow} (hm : r ∈ s.terminals)
    (hf : (f (s.records r)).session = row)
    (hrow : row = (s.records r).session ∨ sameSession row (s.records r).session = true) :
    TerminalSet env (s.setRecord r f) := by
  rcases hrow with hrow | hrow
  · exact h.setRecord r (hf.trans hrow)
  -- whatever denotes the session of the new row denotes that of the old one
  have hother : ∀ i ∈ s.terminals, i ≠ r → sameSession row (s.records i).session = false := by
    intro i hi hne
    by_contra hsame
    rw [Bool.not_eq_false] at hsame
    have hold := sameSession_trans ((sameSession_symm _ _).trans hrow) hsame
    rw [h.distinct r hm i hi hne.symm] at hold
    cases hold
  refine ⟨h.room, fun i hi j hj hne => ?_⟩
  rw [State.setRecord_records, State.setRecord_records]
  split
  · next hir =>
    rw [if_neg (fun hjr => hne (hir.trans hjr.symm)), hf]
    exact hother j hj fun hjr => hne (hir.trans hjr.symm)
  · next hir =>
    split
    · rw [hf, sameSession_symm]
      exact hother i hi hir
    · exact h.distinct i hi j hj hne

/-- A terminal is opened for a session that has none. -/
theorem open_ (h : TerminalSet env s) {row : SessionRow} {t : TerminalRecord}
    (hfresh : s.nextRecord ∉ s.terminals) (hroom : s.terminals.length < env.maxOpenPtys)
    (hnew : s.findTerminal row = none) (ht : t.session = row) :
    TerminalSet env { s.setRecord s.nextRecord (fun _ => t) with
      nextRecord := s.nextRecord + 1, terminals := s.terminals ++ [s.nextRecord] } := by
  have hnone := State.findTerminal_eq_none.mp hnew
  have hold : ∀ r ∈ s.terminals, ((s.setRecord s.nextRecord fun _ => t).records r) = s.records r :=
    fun r hr => State.setRecord_other _ _ _ fun he => hfresh (he ▸ hr)
  have hnewest : ((s.setRecord s.nextRecord fun _ => t).records s.nextRecord) = t :=
    State.setRecord_same _ _ _
  refine ⟨?_, fun r hr r' hr' hne => ?_⟩
  · rw [List.length_append, List.length_singleton]
    omega
  · show sameSession ((s.setRecord s.nextRecord fun _ => t).records r).session
      ((s.setRecord s.nextRecord fun _ => t).records r').session = false
    rcases List.mem_append.mp hr with hr | hr
    · rcases List.mem_append.mp hr' with hr' | hr'
      · rw [hold r hr, hold r' hr']
        exact h.distinct r hr r' hr' hne
      · rw [List.mem_singleton.mp hr', hnewest, hold r hr, ht]
        exact hnone r hr
    · rw [List.mem_singleton.mp hr] at hne ⊢
      rcases List.mem_append.mp hr' with hr' | hr'
      · rw [hnewest, hold r' hr', ht, sameSession_symm]
        exact hnone r' hr'
      · exact absurd (List.mem_singleton.mp hr').symm hne

end TerminalSet

end PocketShell
