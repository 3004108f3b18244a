import PocketShell.Connection.Generations

/-!
# Background grace

What can happen while the phase is `background`: no recovery ladder runs, the
phase stays, and nothing is dialled, until the consumer comes back.
-/

namespace PocketShell

open Coop (System)

variable {env : Env} {ok : Allowed} {cfg cfg' : Coop.Config State Ans Head} {l : StepLabel}
  {g : Segment} {o : Set Tok} {b : Bool} {s s' : State}

/-- The calls with which a consumer comes back. -/
def resumes : StepLabel → Bool
  | .start (.connect _) | .start (.attachSession ..) | .start .reconnect
  | .start (.returnToForeground _) | .start .close => true
  | _ => false

/-- The step enters no grace over a running ladder. -/
def entersFree (s : State) (l : StepLabel) : Bool := !entersOverLadder s l

/-- The step, taken in the background, moves no phase. -/
def slumbers (s : State) (l : StepLabel) : Bool := entersFree s l && !wakes s l

/-- How often a connect was asked for. -/
def connects (log : List Event) : Nat :=
  log.countP fun e =>
    match e with
    | .asked (_, .connect _) => true
    | _ => false

theorem connects_append (log log' : List Event) :
    connects (log ++ log') = connects log + connects log' := List.countP_append

/-! ## No ladder runs in the background -/

/-- No ladder runs while the phase is `background`. -/
def Resting (s : State) : Prop := s.snapshot.phase = .background → s.reconnectTask = none

theorem Resting.same (h : Resting s) (hp : s'.snapshot.phase = s.snapshot.phase)
    (ht : s'.reconnectTask = s.reconnectTask) : Resting s' := fun hb => ht.trans (h (hp ▸ hb))

theorem Write.resting (h : Resting s) (hg : entersOverLadder g.source g.label = false)
    (w : Write ok env g o b s s') : Resting s' := by
  cases w with
  | minor hc _ _ =>
    have hc := SameCore.of_core hc
    exact h.same (by rw [hc.snapshot]) hc.reconnectTask
  | patch p hp =>
    intro hb
    rcases hp.enters hb with hb | ht | hover
    · exact h hb
    · exact ht
    · rw [hg] at hover
      cases hover
  | presented n p d h' _ _ _ _ _ _ _ hph =>
    intro hb
    rw [show (p s.snapshot).phase = .background from hb] at hph
    cases hph
  | adopt n h' c p _ _ _ _ _ _ _ _ hph =>
    intro hb
    rw [show (p s.snapshot).phase = .background from hb] at hph
    cases hph
  | rehost n h' p _ _ _ _ _ hph | accepting p _ hph | unhost p _ _ _ hph | task n hph =>
    exact fun hb => absurd hb hph
  | taskEnd n => exact fun _ => rfl
  | remove r keep =>
    obtain ⟨_, he⟩ := s.removeTerminal_eq r keep
    rw [he]
    exact h.same rfl rfl
  | _ => exact h.same rfl rfl

/-! ## Nothing moves the phase -/

/-- In a step that may not wake the controller, no write leaves the background. -/
theorem Write.staysBackground (hg : wakes g.source g.label = false)
    (hb : s.snapshot.phase = .background) (w : Write ok env g o b s s') :
    s'.snapshot.phase = .background := by
  have hwake : wakes g.source g.label ≠ true := by simp [hg]
  cases w with
  | minor hc _ _ => rw [(SameCore.of_core hc).snapshot, hb]
  | patch p hp =>
    rcases hp.leaves hb with hb' | hw
    · exact hb'
    · exact absurd hw hwake
  | presented n p d h _ _ _ _ _ _ _ _ haw => exact absurd hb (haw.resolve_right hwake)
  | adopt n h c p _ _ _ _ _ _ _ _ _ haw => exact absurd hb (haw.resolve_right hwake)
  | rehost n h p _ _ _ _ _ _ hw | accepting p _ _ hw | unhost p _ _ _ _ hw => exact absurd hw hwake
  | remove r keep => rw [State.removeTerminal_phase, hb]
  | _ => exact hb

/-- A step that may not wake the controller stays in the background, and asks for
no connect there. -/
theorem Path.staysBackground (hg : wakes g.source g.label = false)
    (hb : s.snapshot.phase = .background) (h : Path ok env g s s') :
    s'.snapshot.phase = .background ∧ connects s'.log = connects s.log := by
  induction h with
  | refl => exact ⟨hb, rfl⟩
  | @tail s₁ s₂ h w ih =>
    obtain ⟨hb₁, hc₁⟩ := ih
    obtain ⟨o, b, _, w⟩ := w
    refine ⟨w.staysBackground hg hb₁, ?_⟩
    rcases w.entered with he | ⟨e, he, hent⟩
    · rw [he, hc₁]
    · have hzero : connects [e] = 0 := by
        cases e with
        | asked q =>
          obtain ⟨op, q⟩ := q
          cases q with
          | connect options =>
            rcases hent.2 with hne | hw
            · exact absurd hb₁ hne
            · rw [hg] at hw
              cases hw
          | _ => rfl
        | _ => rfl
      rw [he, connects_append, hzero, hc₁, Nat.add_zero]

/-! ## Along a run -/

theorem reach_resting (h : (controller env).Reach (fun s l => entersFree s l = true) start cfg) :
    Resting cfg.state := by
  refine reach_keeps h (fun hb => by cases hb) fun g o b s s' _ hok _ _ hP w => ?_
  refine w.resting hP ?_
  have hok' : entersFree g.source g.label = true := hok
  simpa [entersFree] using hok'

/-- In the background no ladder runs, and until the consumer comes back the phase
stays and no connect is asked for. -/
theorem background_quiet (h : (controller env).Reach (fun s l => entersFree s l = true) start cfg)
    (hb : cfg.state.snapshot.phase = .background) :
    cfg.state.reconnectTask = none ∧
    ∀ cfg', (controller env).Reach (fun s l => resumes l = false ∧ slumbers s l = true) cfg cfg' →
      cfg'.state.snapshot.phase = .background ∧ cfg'.state.reconnectTask = none ∧
        connects cfg'.state.log = connects cfg.state.log := by
  refine ⟨reach_resting h hb, fun cfg' h' => ?_⟩
  have hall : (controller env).Reach (fun s l => entersFree s l = true) start cfg' ∧
      cfg'.state.snapshot.phase = .background ∧
        connects cfg'.state.log = connects cfg.state.log := by
    induction h' with
    | init => exact ⟨h, hb, rfl⟩
    | @step c c' l _ hok hs ih =>
      obtain ⟨hc, hbc, hlog⟩ := ih
      obtain ⟨hfree, hwake⟩ := Bool.and_eq_true_iff.mp hok.2
      obtain ⟨hbc', hlog'⟩ :=
        (step_path hc hfree hs).staysBackground (by simpa using hwake) hbc
      exact ⟨.step hc hfree hs, hbc', hlog'.trans hlog⟩
  exact ⟨hall.2.1, reach_resting hall.1 hall.2.1, hall.2.2⟩

def enterBackground : System.Act Ans Input := .start (.enterBackground (some 60000))

/-- A probe that was out when the grace began is answered in it. -/
theorem background_quiet_probe :
    ∃ cfg cfg', (controller obligingEnv).Reach (fun s l => entersFree s l = true) start cfg ∧
      cfg.state.snapshot.phase = .background ∧
      (controller obligingEnv).Reach (fun s l => resumes l = false ∧ slumbers s l = true) cfg cfg' ∧
      cfg'.parked.length < cfg.parked.length ∧ cfg'.state.snapshot.phase = .background ∧
      cfg'.state.reconnectTask = none := by
  obtain ⟨cfg, hreach, hp⟩ := System.played (controller obligingEnv) entersFree start
    (connecting "A" 0 ++ [.start .probeSessions, enterBackground, answered 1])
    (p := fun c => c.state.snapshot.phase = .background &&
      ((controller obligingEnv).play (fun s l => !resumes l && slumbers s l) c
        [answered 0, answered 0]).any fun c' => c'.parked.length < c.parked.length)
    (by decide +kernel)
  obtain ⟨hb, hp⟩ := Bool.and_eq_true_iff.mp hp
  obtain ⟨cfg', hreach', hlen⟩ := System.played (controller obligingEnv)
    (fun s l => !resumes l && slumbers s l) cfg [answered 0, answered 0] hp
  have hb' := of_decide_eq_true hb
  have hrun : (controller obligingEnv).Reach (fun s l => resumes l = false ∧ slumbers s l = true)
      cfg cfg' := hreach'.mono _ fun s l hl => by simpa using hl
  obtain ⟨hphase, htask, _⟩ := (background_quiet hreach hb').2 cfg' hrun
  exact ⟨cfg, cfg', hreach, hb', hrun, of_decide_eq_true hlen, hphase, htask⟩

/-- A terminal write that was out when the grace began fails in it: the phase is
written first, so `startReconnect` no longer finds the background, and a ladder
dials. -/
theorem background_dials :
    ∃ cfg cfg', (controller obligingEnv).Reach System.any start cfg ∧
      cfg.state.snapshot.phase = .background ∧
      (controller obligingEnv).Reach (fun _ l => resumes l = false) cfg cfg' ∧
      cfg'.state.snapshot.phase ≠ .background ∧
      connects cfg.state.log < connects cfg'.state.log := by
  obtain ⟨cfg, hreach, hp⟩ := System.played_any (controller obligingEnv) start
    (connecting "A" 0 ++ listing 0 ++
      [attachMain, answered 0, .start (.writeTerminalBytes mainRow [1]), answered 3,
        enterBackground, answered 4])
    (p := fun c => c.state.snapshot.phase = .background &&
      ((controller obligingEnv).play (fun _ l => !resumes l) c
        (operationFailed 3 "CONNECTION_LOST" :: List.replicate 4 (answered 3))).any fun c' =>
          c'.state.snapshot.phase ≠ .background && connects c.state.log < connects c'.state.log)
    (by decide +kernel)
  obtain ⟨hb, hp⟩ := Bool.and_eq_true_iff.mp hp
  obtain ⟨cfg', hreach', hp'⟩ := System.played (controller obligingEnv) (fun _ l => !resumes l) cfg
    (operationFailed 3 "CONNECTION_LOST" :: List.replicate 4 (answered 3)) hp
  obtain ⟨hphase, hdials⟩ := Bool.and_eq_true_iff.mp hp'
  exact ⟨cfg, cfg', hreach, of_decide_eq_true hb, hreach'.mono _ fun s l hl => by simpa using hl,
    of_decide_eq_true hphase, of_decide_eq_true hdials⟩

end PocketShell
