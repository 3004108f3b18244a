import PocketShell.Coop.Discipline
import PocketShell.Dictation.Controller

/-!
# Dictated text

* `Core`: the part of the state that text depends on.
* `Move`: what one uninterrupted stretch of the controller does to it.
* `transcript_kept`: where dictated text goes, over every run.
-/

namespace PocketShell.Dictation

open Coop (Async Thread System Discipline)
open Js (Text pieces join ascii)

abbrev StepLabel : Type := Coop.Label Ans Empty Input

/-! ## The core of the state -/

structure Core where
  phase : DictationPhase
  latest : Text
  segments : List Text
  transcript : Text
  current : Option String
  pending : Bool
  used : List String
  run : Nat
  spoken : List Spoken

def State.core (s : State) : Core :=
  ⟨s.snapshot.phase, s.snapshot.latest, s.snapshot.segments, s.snapshot.transcript,
    s.currentRequestId, s.pendingRestart.isSome, s.usedRequestIds, s.run, s.spoken⟩

def Core.append (c : Core) (r : String) (segment : Text) : Core :=
  { c with
    latest := []
    segments := c.segments ++ [segment]
    transcript := join (ascii " ") (c.segments ++ [segment])
    spoken := c.spoken ++ [⟨c.run, r, segment⟩] }

def Core.promote (c : Core) (r : String) : Core :=
  if Js.trim c.latest = [] then { c with latest := [] } else c.append r (Js.trim c.latest)

def DictationPhase.isActive (phase : DictationPhase) : Bool :=
  phase = .starting || phase = .listening || phase = .stopping

variable {s s' s₀ : State} {c c' : Core} {l : StepLabel} {r : String}

theorem State.isActive_core : s.isActive = s.core.phase.isActive := rfl

@[simp] theorem publish_core : s.publish.core = s.core := rfl
@[simp] theorem endNoSpeechTracking_core : s.endNoSpeechTracking.core = s.core := rfl
@[simp] theorem armNoTextTimer_core : s.armNoTextTimer.core = s.core := rfl
@[simp] theorem settle_core : s.settle.core = { s.core with current := none } := rfl
@[simp] theorem stopListening_core : s.stopListening.core = { s.core with pending := false } := rfl

@[simp] theorem appendSegment_core {segment : Text} :
    (s.appendSegment r segment).core = s.core.append r segment := rfl

@[simp] theorem textRecognized_core : s.textRecognized.core = s.core := by
  unfold State.textRecognized
  dsimp only
  split <;> rfl

@[simp] theorem countEmptyTurn_core {limit : Nat} : (s.countEmptyTurn limit).core = s.core := by
  unfold State.countEmptyTurn
  dsimp only
  split
  · rfl
  · split <;> rfl

@[simp] theorem promotePartial_core : (s.promotePartial r).core = s.core.promote r := by
  by_cases hb : Js.trim s.snapshot.latest = []
  · have hs : s.promotePartial r = s.setSnapshot ({ · with latest := [] }) := if_pos hb
    have hc : s.core.promote r = { s.core with latest := [] } := if_pos hb
    rw [hs, hc]
    rfl
  · have hs : s.promotePartial r = s.appendSegment r (Js.trim s.snapshot.latest) := if_neg hb
    have hc : s.core.promote r = s.core.append r (Js.trim s.snapshot.latest) := if_neg hb
    rw [hs, hc, appendSegment_core]

@[simp] theorem turnOver_core : s.turnOver.core =
    { s.core with phase := if s.desiredListening then .listening else .completed } := by
  unfold State.turnOver
  split <;> rfl

theorem settleRequest_core (hc : s.currentRequestId = some r) :
    (s.settleRequest r).core = { s.core with current := none } := by
  unfold State.settleRequest
  rw [if_neg (not_not.mpr hc)]
  rfl

/-! ## What holds between any two stretches -/

structure Inv (c : Core) : Prop where
  joined : c.transcript = join (ascii " ") c.segments
  blank : c.current = none → c.latest = []
  current : ∀ r, c.current = some r → c.phase.isActive = true ∧ r ∈ c.used ∧
    ∀ x ∈ c.spoken, x.requestId ≠ r
  /-- While a restart is pending there is no turn. -/
  waiting : c.pending = true → c.current = none
  known : ∀ x ∈ c.spoken, x.requestId ∈ c.used ∧ x.run ≤ c.run
  once : (c.spoken.map Spoken.requestId).Nodup
  segments : c.segments = (c.spoken.filter (·.run = c.run)).map Spoken.segment

/-- A start that failed: it threw, or its promise was rejected. -/
def failsStart : StepLabel → Bool
  | .start (.startRejected ..) => true
  | .reply (.startRecognition _) (.threw _) => true
  | _ => false

/-- What a turn that the step ends leaves, when `latest` is its trimmed partial. -/
def kept (latest : Text) : StepLabel → Text
  | .start (.onRecognizedSegment _ text) => coveringSegment (Js.trim text) latest
  | _ => latest

/-- One stretch: no turn ends, or the current one does and leaves its text. -/
inductive Move (l : StepLabel) : Core → Core → Prop
  | same {c : Core} : Move l c c
  /-- Between two turns. -/
  | idle {c : Core} (phase : DictationPhase) (pending : Bool) : c.current = none →
      Move l c { c with phase := phase, pending := pending, latest := [] }
  | live {c : Core} (phase : DictationPhase) : c.current.isSome = true → phase.isActive = true →
      Move l c { c with phase := phase }
  | heard {c : Core} {r : String} {text : Text} : l = .start (.onPartial r text) →
      c.current = some r → Move l c { c with latest := text }
  | ended {c : Core} {r : String} (phase : DictationPhase) (pending : Bool) : c.current = some r →
      failsStart l = false →
      Move l c { c.append r (kept (Js.trim c.latest) l) with
        phase := phase, pending := pending, current := none }
  /-- Text is dropped by `cancel`, and by a start that fails. -/
  | silent {c : Core} {r : String} (phase : DictationPhase) (pending : Bool) : c.current = some r →
      (Js.trim c.latest = [] ∨ failsStart l = true ∨ l = .start .cancel) →
      Move l c { c with phase := phase, pending := pending, latest := [], current := none }
  /-- A run begins, whose first turn may not. -/
  | fresh {c : Core} : c.current = none →
      Move l c { c with
        phase := .idle, pending := false, latest := [], segments := [], transcript := []
        run := c.run + 1 }
  | began {c c' : Core} {r : String} : Move l c c' → c.current = none → c'.current = none →
      c'.spoken = c.spoken → r ∉ c'.used →
      Move l c { c' with
        phase := .starting, pending := false, latest := [], current := some r, used := r :: c'.used }

theorem Inv.append (h : Inv c) (hc : c.current = some r) {segment : Text} (phase : DictationPhase)
    (pending : Bool) :
    Inv { c.append r segment with phase := phase, pending := pending, current := none } := by
  obtain ⟨_, hused, hnew⟩ := h.current r hc
  refine ⟨rfl, fun _ => rfl, fun _ he => (by cases he), fun _ => rfl, fun x hx => ?_, ?_, ?_⟩
  · rcases List.mem_append.mp hx with hx | hx
    · exact h.known x hx
    · cases List.mem_singleton.mp hx
      exact ⟨hused, Nat.le_refl _⟩
  · show ((c.spoken ++ [_]).map Spoken.requestId).Nodup
    rw [List.map_append]
    refine List.nodup_append.mpr ⟨h.once, List.nodup_singleton _, fun a ha b hb => ?_⟩
    obtain ⟨x, hx, rfl⟩ := List.mem_map.mp ha
    rw [List.map_singleton, List.mem_singleton] at hb
    rw [hb]
    exact hnew x hx
  · show c.segments ++ [segment] = ((c.spoken ++ [_]).filter
      fun x : Spoken => x.run = c.run).map Spoken.segment
    rw [List.filter_append, List.map_append, ← h.segments]
    simp

theorem Inv.move (h : Inv c) (m : Move l c c') : Inv c' := by
  induction m with
  | same => exact h
  | idle phase pending hc =>
    exact ⟨h.joined, fun _ => rfl, fun r he => (by rw [hc] at he; cases he), fun _ => hc, h.known,
      h.once, h.segments⟩
  | live phase hc hp => exact { h with current := fun r he => ⟨hp, (h.current r he).2⟩ }
  | heard hl hc =>
    refine { h with blank := fun hn => ?_ }
    rw [hc] at hn
    cases hn
  | ended phase pending hc => exact h.append hc phase pending
  | silent phase pending hc =>
    exact ⟨h.joined, fun _ => rfl, fun _ he => (by cases he), fun _ => rfl, h.known, h.once, h.segments⟩
  | @fresh hc =>
    refine ⟨rfl, fun _ => rfl, fun r he => (by rw [hc] at he; cases he), fun hp => (by cases hp),
      fun x hx => ⟨(h.known x hx).1, Nat.le_succ_of_le (h.known x hx).2⟩, h.once, ?_⟩
    -- nothing was spoken in the new run
    have hnone : c.spoken.filter (·.run = c.run + 1) = [] := by
      refine List.filter_eq_nil_iff.mpr fun x hx he => ?_
      have hle := (h.known x hx).2
      rw [of_decide_eq_true he] at hle
      exact absurd hle (Nat.not_succ_le_self _)
    show [] = (c.spoken.filter (·.run = c.run + 1)).map Spoken.segment
    rw [hnone, List.map_nil]
  | began m hc hc' hs hr ih =>
    have h' := ih
    refine ⟨h'.joined, fun he => (by cases he), fun r he => ?_, fun hp => (by cases hp),
      fun x hx => ⟨List.mem_cons_of_mem _ (h'.known x hx).1, (h'.known x hx).2⟩, h'.once, h'.segments⟩
    cases he
    exact ⟨rfl, List.mem_cons_self, fun x hx he => hr (he ▸ (h'.known x hx).1)⟩

/-! ## What a stretch does -/

theorem Move.grows (m : Move l c c') : c.spoken <+: c'.spoken ∧ c.run ≤ c'.run := by
  induction m with
  | ended phase pending hc => exact ⟨List.prefix_append _ _, Nat.le_refl _⟩
  | fresh hc => exact ⟨List.prefix_refl _, Nat.le_succ _⟩
  | began m _ _ _ _ ih => exact ih
  | _ => exact ⟨List.prefix_refl _, Nat.le_refl _⟩

/-- A turn that ends leaves its text, unless it is cancelled or its start failed. -/
theorem Move.ends (m : Move l c c') (hc : c.current = some r) (hc' : c'.current ≠ some r)
    (hl : l ≠ .start .cancel) (ht : Js.trim c.latest ≠ []) :
    (c'.segments = c.segments ++ [kept (Js.trim c.latest) l] ∧
      c'.spoken = c.spoken ++ [⟨c.run, r, kept (Js.trim c.latest) l⟩] ∧ c'.run = c.run) ↔
      failsStart l = false := by
  cases m with
  | same => exact absurd hc hc'
  | idle phase pending hn => rw [hc] at hn; cases hn
  | live phase => exact absurd hc hc'
  | heard => exact absurd hc hc'
  | ended phase pending hr hf =>
    rw [hc] at hr
    cases hr
    exact ⟨fun _ => hf, fun _ => ⟨rfl, rfl, rfl⟩⟩
  | silent phase pending hr hs =>
    have hf : failsStart l = true := (hs.resolve_left ht).resolve_right hl
    refine ⟨fun h => ?_, fun h => ?_⟩
    · have hlen := congrArg List.length h.1
      simp at hlen
    · rw [hf] at h
      cases h
  | fresh hn => rw [hc] at hn; cases hn
  | began _ hn => rw [hc] at hn; cases hn

/-- While a turn goes on, its partial is the latest one that was reported. -/
theorem Move.hears (m : Move l c c') (hc : c.current = some r) (hc' : c'.current = some r) :
    c'.latest = c.latest ∨ ∃ text, l = .start (.onPartial r text) ∧ c'.latest = text := by
  cases m with
  | same => exact .inl rfl
  | idle phase pending hn => rw [hc] at hn; cases hn
  | live phase => exact .inl rfl
  | heard hl hr =>
    rw [hc] at hr
    cases hr
    exact .inr ⟨_, hl, rfl⟩
  | ended phase pending => cases hc'
  | silent phase pending => cases hc'
  | fresh hn => rw [hc] at hn; cases hn
  | began _ hn => rw [hc] at hn; cases hn

theorem promote_pending (c : Core) (r : String) (pending : Bool) :
    ({ c with pending := pending } : Core).promote r = { c.promote r with pending := pending } := by
  unfold Core.promote
  split <;> rfl

/-- The latest partial is promoted at the end of a turn. -/
theorem Move.promoted (hc : c.current = some r) (hf : failsStart l = false)
    (hk : Js.trim c.latest ≠ [] → kept (Js.trim c.latest) l = Js.trim c.latest) (phase : DictationPhase)
    (pending : Bool) :
    Move l c { ({ c with current := none } : Core).promote r with
      phase := phase, pending := pending } := by
  by_cases hb : Js.trim c.latest = []
  · have he : ({ c with current := none } : Core).promote r =
        { c with current := none, latest := [] } := if_pos hb
    rw [he]
    exact .silent phase pending hc (.inl hb)
  · have he : ({ c with current := none } : Core).promote r =
        ({ c with current := none } : Core).append r (Js.trim c.latest) := if_neg hb
    rw [he]
    have m := Move.ended (l := l) phase pending hc hf
    rwa [hk hb] at m

theorem Move.unheld (phase : DictationPhase) (pending : Bool) (hc : c.current = none) :
    Move l c { c with phase := phase, pending := pending, latest := [], current := none } := by
  have m := Move.idle (l := l) phase pending hc
  rwa [hc] at m

/-! ## The methods that call nobody -/

theorem interrupt_move (hi : Inv s.core) {reason : DictationInterruptReason} (hf : failsStart l = false)
    (hk : ∀ latest, kept latest l = latest) : Move l s.core (s.interrupt reason).core := by
  unfold State.interrupt
  split
  · exact .same
  · have he : ((((s.stopListening.settle).promotePartial (s.currentRequestId.getD "")).setSnapshot
        ({ · with phase := .completed, requestId := none, interruptReason := some reason })).publish).core =
        { ((s.stopListening.settle).promotePartial (s.currentRequestId.getD "")).core with
          phase := .completed } := rfl
    rw [he, promotePartial_core, settle_core, stopListening_core]
    cases hc : s.currentRequestId with
    | some r =>
      have m := Move.promoted (c := s.core) hc hf (fun _ => hk _) .completed false
      have hp : ({ s.core with pending := false, current := none } : Core).promote r =
          { ({ s.core with current := none } : Core).promote r with pending := false } :=
        promote_pending { s.core with current := none } r false
      show Move l s.core { ({ s.core with pending := false, current := none } : Core).promote r with
        phase := .completed }
      rwa [hp]
    | none =>
      have hb : s.core.latest = [] := hi.blank hc
      have hp : ({ s.core with pending := false, current := none } : Core).promote
          ((none : Option String).getD "") = { s.core with pending := false, current := none, latest := [] } := by
        refine if_pos ?_
        show Js.trim s.core.latest = []
        rw [hb]
        rfl
      rw [hp]
      exact Move.unheld .completed false hc

theorem setTarget_move (hi : Inv s.core) {targetId : Option String} :
    Move (.start (.setTarget targetId)) s.core (s.setTarget targetId).core := by
  unfold State.setTarget
  split
  · exact .same
  · dsimp only
    split
    · exact interrupt_move (s := { s with configuredTargetId := targetId }) hi rfl fun _ => rfl
    · exact .same

theorem setForeground_move (hi : Inv s.core) {foreground : Bool} :
    Move (.start (.setForeground foreground)) s.core (s.setForeground foreground).core := by
  unfold State.setForeground
  split
  · exact .same
  · dsimp only
    split
    · exact interrupt_move (s := { s with foreground := foreground }) hi rfl fun _ => rfl
    · exact .same

theorem cancel_move : Move (.start .cancel) s.core s.cancel.core := by
  unfold State.cancel
  split
  · exact .same
  · cases hc : s.currentRequestId with
    | some r => exact Move.silent .cancelled false hc (.inr (.inr rfl))
    | none =>
      exact Move.unheld .cancelled false hc

@[simp] theorem failed_core {error : DictationError} :
    { s.endNoSpeechTracking.setSnapshot ({ · with
        phase := .error
        requestId := none
        latest := []
        error := some error }) with desiredListening := false }.publish.core =
      { s.core with phase := .error, latest := [] } := rfl

/-- Every failure of the current turn but that of its start. -/
theorem failed_move (hc : s.currentRequestId = some r) (hf : failsStart l = false)
    (hk : ∀ latest, kept latest l = latest) :
    Move l s.core { ((s.settleRequest r).promotePartial r).core with
      phase := .error, latest := [] } := by
  have m := Move.promoted (c := s.core) hc hf (fun _ => hk _) .error
    (({ s.core with current := none } : Core).promote r).pending
  have hl : (({ s.core with current := none } : Core).promote r).latest = [] := by
    unfold Core.promote
    split <;> rfl
  rw [promotePartial_core, settleRequest_core hc]
  rwa [← hl]

theorem accepts_current (h : s.accepts r = true) : s.currentRequestId = some r := by
  simp only [State.accepts, Bool.and_eq_true, decide_eq_true_eq] at h
  exact h.1

theorem onError_move {e : DictationError} (hf : failsStart l = false)
    (hk : ∀ latest, kept latest l = latest) : Move l s.core (s.onError r e).core := by
  unfold State.onError
  split
  · exact .same
  · next ha =>
    rw [failed_core]
    exact failed_move (accepts_current (by simpa using ha)) hf hk

theorem failStop_move {e : Thrown} (hf : failsStart l = false)
    (hk : ∀ latest, kept latest l = latest) : Move l s.core (s.failStop r e).core := by
  unfold State.failStop
  split
  · exact .same
  · next hc =>
    rw [failed_core]
    exact failed_move (not_not.mp hc) hf hk

theorem failStart_move {e : Thrown} (hf : failsStart l = true) :
    Move l s.core (s.failStart r e).core := by
  unfold State.failStart
  split
  · exact .same
  · next hc =>
    have hr : s.currentRequestId = some r := not_not.mp hc
    have m := Move.silent (l := l) (c := s.core) .error s.core.pending hr (.inr (.inl hf))
    have he : (s.settleRequest r).core = { s.core with current := none } := settleRequest_core hr
    show Move l s.core { (s.settleRequest r).core with phase := .error, latest := [] }
    rwa [he]

variable {token : Nat}

theorem pending_of_token (h : ¬ s.pendingRestart.map (·.token) ≠ some token) :
    s.core.pending = true := by
  show s.pendingRestart.isSome = true
  cases hs : s.pendingRestart with
  | none =>
    rw [hs] at h
    exact absurd (fun he => by cases he) h
  | some => rfl

@[simp] theorem scheduled_core : (s.scheduled token).core = s.core := by
  unfold State.scheduled
  split
  · next hp =>
    have hsome : s.core.pending = true := pending_of_token (not_not.mpr hp)
    show { s.core with pending := true } = s.core
    rw [← hsome]
  · rfl

theorem failSchedule_move (hi : Inv s.core) {e : Thrown} :
    Move l s.core (s.failSchedule token e).core := by
  unfold State.failSchedule
  split
  · exact .same
  · next hp =>
    have hc := hi.waiting (pending_of_token hp)
    have m := Move.idle (l := l) .error false hc
    rwa [← hi.blank hc] at m

variable {text : Text}

theorem onPartial_move (hl : l = .start (.onPartial r text)) :
    Move l s.core (s.onPartial r text).core := by
  unfold State.onPartial
  split
  · exact .same
  · next ha =>
    have hc := accepts_current (by simpa using ha)
    have m : Move l s.core { s.core with latest := text } := .heard hl hc
    dsimp only
    split
    · rwa [publish_core, textRecognized_core]
    · exact m

@[simp] theorem onAudioLevel_core {soundPresent : Bool} : (s.onAudioLevel r soundPresent).core = s.core := by
  unfold State.onAudioLevel
  split
  · rfl
  · dsimp only
    generalize (if soundPresent = true then DictationAudioEvidence.sound else _) = next
    split
    · rfl
    · split <;> rfl

@[simp] theorem noTextFired_core : (s.noTextFired token).core = s.core := by
  unfold State.noTextFired
  split
  · rfl
  · dsimp only
    split
    · rfl
    · split <;> rfl

/-! ## The methods that call the adapter -/

variable {noTextRestartLimit : Nat} {K : Unit → Thread State Ans Empty}
  {err : String → Thread State Ans Empty}

def discipline (noTextRestartLimit : Nat) : Discipline (controller noTextRestartLimit) Empty where
  ok := System.any
  inv s := Inv s.core
  base _ _ := True
  keep _ _ _ := True
  minted _ := ∅
  held _ := ∅
  owed := ∅
  carry _ := ∅
  seg l s s' := Move l s.core s'.core
  loopInv l := l.elim
  base_refl _ := trivial
  base_trans _ _ _ _ _ := trivial
  keep_refl _ _ := trivial
  keep_trans _ _ _ _ _ _ := trivial
  loop_mono l := l.elim

/-- The thread goes on at `s` in the stretch that step `l` began at `s₀`. -/
def Runs (noTextRestartLimit : Nat) (l : StepLabel) (s₀ : State) (t : Thread State Ans Empty)
    (s : State) : Prop :=
  (discipline noTextRestartLimit).wp t ∅ s fun s' => Inv s'.core ∧ Move l s₀.core s'.core

/-- The thread makes every stretch that is a move so far one to its end. -/
def Quiet (noTextRestartLimit : Nat) (t : Thread State Ans Empty) : Prop :=
  ∀ l s₀ s, Inv s₀.core → Move l s₀.core s.core → Runs noTextRestartLimit l s₀ t s

theorem Runs.write {t : Thread State Ans Empty} (h : Runs noTextRestartLimit l s₀ t s') :
    Runs noTextRestartLimit l s₀ (.write s' t) s :=
  Discipline.wp_write_iff.mpr ⟨trivial, h⟩

theorem Runs.ask {q : Call} {k : Ans q → Thread State Ans Empty} (hi : Inv s₀.core)
    (hm : Move l s₀.core s.core)
    (h : ∀ s₁ a, Inv s₁.core → Runs noTextRestartLimit (.reply q a) s₁ (k a) s₁) :
    Runs noTextRestartLimit l s₀ (.await q k) s :=
  Discipline.wp_await_iff.mpr ⟨⟨hi.move hm, hm⟩, fun s₁ a _ hi₁ _ _ => h s₁ a hi₁⟩

theorem Quiet.done : Quiet noTextRestartLimit .done := fun _ _ _ hi hm =>
  Discipline.wp_done_iff.mpr ⟨hi.move hm, hm⟩

theorem Quiet.publish (hK : Quiet noTextRestartLimit (K ())) :
    Quiet noTextRestartLimit (.read fun s => .write s.publish (K ())) := fun l s₀ s hi hm => by
  have h : Runs noTextRestartLimit l s₀ (K ()) s.publish := hK l s₀ _ hi (by rwa [publish_core])
  exact Runs.write h

theorem issueStop_runs (hi : Inv s₀.core) (hm : Move l s₀.core s.core)
    (hK : Quiet noTextRestartLimit (K ())) :
    Runs noTextRestartLimit l s₀ (Ctl.issueStop r () K err) s := by
  simp only [Ctl.issueStop, Async.bind_apply, Async.get_apply, Runs, Discipline.wp_read]
  split
  · exact hK l s₀ s hi hm
  · refine Runs.write (Runs.ask hi hm fun s₁ a hi₁ => ?_)
    cases a with
    | threw e => exact Runs.write (hK _ _ _ hi₁ (failStop_move rfl fun _ => rfl))
    | done => exact hK _ _ _ hi₁ .same
    | promised => exact hK _ _ _ hi₁ .same

theorem startResolved_runs (hi : Inv s.core) (hK : Quiet noTextRestartLimit (K ())) :
    Runs noTextRestartLimit l s (Ctl.startResolved r () K err) s := by
  simp only [Ctl.startResolved, Async.bind_apply, Async.get_apply, Runs, Discipline.wp_read]
  split
  · exact hK l s s hi .same
  · next hc =>
    have hr : s.core.current = some r := not_not.mp hc
    refine Runs.write ?_
    dsimp only
    split
    · exact issueStop_runs hi .same hK
    · split
      · refine Runs.write (hK l s _ hi ?_)
        have m : Move l s.core { s.core with phase := .listening } := .live .listening (hr ▸ rfl) rfl
        split
        · exact m
        · exact m
      · exact hK l s _ hi .same

/-- `s₀` and `s` are between turns. -/
theorem beginTurn_runs (hi : Inv s₀.core) (hm : Move l s₀.core s.core) (hc₀ : s₀.core.current = none)
    (hc : s.core.current = none) (hp : s.core.pending = false) (hs : s.core.spoken = s₀.core.spoken)
    (hK : Quiet noTextRestartLimit (K ())) (herr : ∀ e, Quiet noTextRestartLimit (err e)) :
    Runs noTextRestartLimit l s₀ (Ctl.beginTurn r () K err) s := by
  simp only [Ctl.beginTurn, Async.bind_apply, Async.get_apply, Runs, Discipline.wp_read]
  split
  · exact herr _ l s₀ s hi hm
  · next hr =>
    have hnew : r ∉ s.core.used := fun h => hr (by simp [show r ∈ s.usedRequestIds from h])
    have m := Move.began hm hc₀ hc hs hnew
    rw [← hp] at m
    refine Runs.write (Runs.ask hi m fun s₁ a hi₁ => ?_)
    cases a with
    | threw e => exact Runs.write (hK _ _ _ hi₁ (failStart_move rfl))
    | done => exact startResolved_runs hi₁ hK
    | promised => exact hK _ _ _ hi₁ .same

theorem inactive (hi : Inv s.core) (ha : s.isActive = false) : s.core.current = none := by
  cases hc : s.core.current with
  | none => rfl
  | some r =>
    have h := (hi.current r hc).1
    rw [← State.isActive_core, ha] at h
    cases h

theorem start_runs (hi : Inv s.core) : Runs noTextRestartLimit l s (Async.thread () (Ctl.start r)) s := by
  simp only [Async.thread, Ctl.start, Async.bind_apply, Async.get_apply, Runs, Discipline.wp_read]
  split
  · exact Quiet.done l s s hi .same
  · next ha =>
    have hc : s.core.current = none := inactive hi (by simp at ha; exact ha.1.1)
    refine Runs.write (beginTurn_runs hi (.fresh hc) hc hc rfl rfl ?_ fun _ => Quiet.done)
    exact Quiet.publish (K := fun _ => .done) Quiet.done

theorem restart_runs (hi : Inv s.core) :
    Runs noTextRestartLimit l s (Async.thread () (Ctl.restart token r)) s := by
  simp only [Async.thread, Ctl.restart, Async.bind_apply, Async.get_apply, Runs, Discipline.wp_read]
  split
  · exact Quiet.done l s s hi .same
  · next hp =>
    have hc := hi.waiting (pending_of_token hp)
    have m : Move l s.core { s.core with pending := false } := by
      have m := Move.idle (l := l) s.core.phase false hc
      rwa [← hi.blank hc] at m
    refine Runs.write ?_
    dsimp only
    split
    · exact Quiet.done l s _ hi m
    · refine beginTurn_runs hi m hc hc rfl rfl ?_ fun _ => Quiet.done
      exact Quiet.publish (K := fun _ => .done) Quiet.done

theorem stop_runs (hi : Inv s.core) : Runs noTextRestartLimit l s (Async.thread () Ctl.stop) s := by
  simp only [Async.thread, Ctl.stop, Async.bind_apply, Async.get_apply, Runs, Discipline.wp_read]
  split
  · exact Quiet.done l s s hi .same
  · cases hr : s.currentRequestId with
    | none =>
      have m : Move l s.core { s.core with phase := .completed, pending := false, latest := [] } :=
        .idle .completed false hr
      exact Runs.write (Quiet.done l s _ hi m)
    | some r =>
      have hc : s.core.current = some r := hr
      have hp : s.core.pending = false := by
        cases hp : s.core.pending with
        | false => rfl
        | true =>
          rw [hi.waiting hp] at hc
          cases hc
      have m : Move l s.core { s.core with phase := .stopping, pending := false } := by
        have m : Move l s.core { s.core with phase := .stopping } := .live .stopping (hc ▸ rfl) rfl
        rwa [← hp]
      simp only [Ctl.stopTurn, Async.bind_apply, Async.set_apply]
      refine Runs.write ?_
      split
      · exact issueStop_runs hi m Quiet.done
      · exact Quiet.done l s _ hi m

/-- The turn has ended, whether or not another one is to follow. -/
theorem scheduleNextTurn_runs (hi : Inv s₀.core)
    (hm : ∀ pending, Move l s₀.core { s.core with pending := pending })
    (hK : Quiet noTextRestartLimit (K ())) :
    Runs noTextRestartLimit l s₀ (Ctl.scheduleNextTurn () K err) s := by
  simp only [Ctl.scheduleNextTurn, Async.bind_apply, Async.get_apply, Runs, Discipline.wp_read]
  split
  · exact hK l s₀ s hi (hm s.core.pending)
  · refine Runs.write (Runs.ask hi (hm true) fun s₁ a hi₁ => ?_)
    have hrest : ∀ l, Runs noTextRestartLimit l s₁ (K ()) (s₁.scheduled (s.restartToken + 1)) := fun l =>
      hK l s₁ _ hi₁ (by rw [scheduled_core]; exact .same)
    cases a with
    | threw e => exact Runs.write (hK _ _ _ hi₁ (failSchedule_move hi₁))
    | done => exact Runs.write (hrest _)
    | promised => exact Runs.write (hrest _)

@[simp] theorem wordCount_nil : wordCount [] = 0 := rfl

theorem wordCount_pos (h : text ≠ []) : 0 < wordCount text := by
  rw [wordCount, if_neg h]
  exact Js.pieces_pos text

/-- A blank final covers no partial. -/
theorem coveringSegment_nil {finalText latest : Text} (h : coveringSegment finalText latest = []) :
    latest = [] := by
  by_contra hne
  have hpos := wordCount_pos hne
  unfold coveringSegment at h
  split at h
  · exact hne h
  · next hlt =>
    rw [h, wordCount_nil] at hlt
    exact hlt hpos

example : coveringSegment [] (ascii "so let's") = ascii "so let's" := by decide

theorem goOn_runs (hi : Inv s₀.core)
    (hm : ∀ phase pending, Move l s₀.core { s.core with phase := phase, pending := pending }) :
    Runs noTextRestartLimit l s₀ (Async.thread () (Ctl.goOn s)) s' := by
  refine Runs.write ?_
  split
  · refine scheduleNextTurn_runs hi (fun pending => ?_) Quiet.done
    rw [turnOver_core]
    exact hm _ pending
  · refine Quiet.done l s₀ _ hi ?_
    rw [turnOver_core]
    exact hm _ s.core.pending

variable {reason : DictationRecoverableEnd}

theorem ended_core (hc : s.currentRequestId = some r) : (s.ended noTextRestartLimit r reason).core =
      ({ s.core with current := none } : Core).promote r := by
  have h : ((s.settleRequest r).promotePartial r).core =
      ({ s.core with current := none } : Core).promote r := by
    rw [promotePartial_core, settleRequest_core hc]
  rw [← h]
  unfold State.ended
  dsimp only
  split
  · rw [countEmptyTurn_core]
    rfl
  · rfl

theorem onRecoverableEnd_runs (hi : Inv s.core) (hf : failsStart l = false)
    (hk : Js.trim s.core.latest ≠ [] → kept (Js.trim s.core.latest) l = Js.trim s.core.latest) :
    Runs noTextRestartLimit l s
      (Async.thread () (Ctl.onRecoverableEnd noTextRestartLimit r reason)) s := by
  simp only [Async.thread, Ctl.onRecoverableEnd, Async.bind_apply, Async.get_apply, Runs,
    Discipline.wp_read]
  split
  · exact Quiet.done l s s hi .same
  · next ha =>
    have hc := accepts_current (by simpa using ha)
    refine goOn_runs hi fun phase pending => ?_
    rw [ended_core hc]
    exact Move.promoted (c := s.core) hc hf hk phase pending

theorem onRecognizedSegment_runs (hi : Inv s.core) (hl : l = .start (.onRecognizedSegment r text)) :
    Runs noTextRestartLimit l s
      (Async.thread () (Ctl.onRecognizedSegment noTextRestartLimit r text)) s := by
  simp only [Async.thread, Ctl.onRecognizedSegment, Async.bind_apply, Async.get_apply, Runs,
    Discipline.wp_read]
  have hf : failsStart l = false := hl ▸ rfl
  split
  · exact Quiet.done l s s hi .same
  · next ha =>
    have hc := accepts_current (by simpa using ha)
    split
    · next hnil => exact onRecoverableEnd_runs hi hf fun hne => absurd (coveringSegment_nil hnil) hne
    · have hk : kept (Js.trim s.core.latest) l = coveringSegment (Js.trim text) (Js.trim s.snapshot.latest) := hl ▸ rfl
      refine goOn_runs hi fun phase pending => ?_
      have m := Move.ended (c := s.core) phase pending hc hf
      rw [hk] at m
      have he : (s.recognized r (coveringSegment (Js.trim text) (Js.trim s.snapshot.latest))).core =
          { (s.settleRequest r).textRecognized.core.append r
            (coveringSegment (Js.trim text) (Js.trim s.snapshot.latest)) with } := rfl
      rw [he, textRecognized_core, settleRequest_core hc]
      exact m

/-! ## Every run -/

theorem modify_runs (hi : Inv s.core) {f : State → State} (h : Move l s.core (f s).core) :
    Runs noTextRestartLimit l s (Async.thread () (modify f : Ctl Unit)) s :=
  Runs.write (Quiet.done l s _ hi h)

theorem body_runs (hi : Inv s.core) (input : Input) :
    Runs noTextRestartLimit (.start input) s (input.body noTextRestartLimit) s := by
  cases input with
  | setTarget targetId => exact modify_runs hi (setTarget_move hi)
  | setForeground foreground => exact modify_runs hi (setForeground_move hi)
  | start requestId => exact start_runs hi
  | stop => exact stop_runs hi
  | interrupt reason => exact modify_runs hi (interrupt_move hi rfl fun _ => rfl)
  | cancel => exact modify_runs hi cancel_move
  | onPartial requestId text => exact modify_runs hi (onPartial_move rfl)
  | onAudioLevel requestId soundPresent => exact modify_runs hi (by rw [onAudioLevel_core]; exact .same)
  | onRecognizedSegment requestId text => exact onRecognizedSegment_runs hi rfl
  | onRecoverableEnd requestId reason => exact onRecoverableEnd_runs hi rfl fun _ => rfl
  | onError requestId e => exact modify_runs hi (onError_move rfl fun _ => rfl)
  | startResolved requestId => exact startResolved_runs hi Quiet.done
  | startRejected requestId e => exact modify_runs hi (failStart_move rfl)
  | stopRejected requestId e => exact modify_runs hi (failStop_move rfl fun _ => rfl)
  | restart token requestId => exact restart_runs hi
  | noTextTimer token => exact modify_runs hi (by rw [noTextFired_core]; exact .same)

theorem inv_initial : Inv initial.core where
  joined := rfl
  blank _ := rfl
  current _ h := by cases h
  waiting h := by cases h
  known _ h := by cases h
  once := List.nodup_nil
  segments := rfl

theorem sound : (discipline noTextRestartLimit).Sound initial where
  init := inv_initial
  heldMinted := Set.empty_subset _
  owedHeld := fun x => x.elim
  start := fun input _ hi _ => body_runs hi input
  loop := fun l => l.elim

/-- The request that a callback is about. -/
def Input.about : Input → Option String
  | .onPartial requestId _ | .onAudioLevel requestId _ | .onRecognizedSegment requestId _
  | .onRecoverableEnd requestId _ | .onError requestId _ | .startResolved requestId
  | .startRejected requestId _ | .stopRejected requestId _ => some requestId
  | _ => none

theorem accepted (hi : Inv s.core) (hc : s.currentRequestId = some r) : s.accepts r = true := by
  have ha : s.isActive = true := (hi.current r hc).1
  simp [State.accepts, hc, ha]

theorem onPartial_latest (ha : s.accepts r = true) : (s.onPartial r text).core.latest = text := by
  unfold State.onPartial
  rw [if_neg (by simp [ha])]
  dsimp only
  split
  · rw [publish_core, textRecognized_core]
    rfl
  · rfl

theorem accepts_other (h : s.currentRequestId ≠ some r) : s.accepts r = false := by
  simp [State.accepts, h]

theorem about_other {input : Input} (h : input.about = some r) (hc : s.currentRequestId ≠ some r) :
    (input.body noTextRestartLimit).run s = (s, []) := by
  have ha := accepts_other hc
  cases input with
  | onPartial requestId text =>
    cases h
    simp [Input.body, Async.thread, Coop.Thread.run, State.onPartial, ha]
  | onAudioLevel requestId soundPresent =>
    cases h
    simp [Input.body, Async.thread, Coop.Thread.run, State.onAudioLevel, ha]
  | onRecognizedSegment requestId text =>
    cases h
    simp [Input.body, Async.thread, Coop.Thread.run, Ctl.onRecognizedSegment, ha]
  | onRecoverableEnd requestId reason =>
    cases h
    simp [Input.body, Async.thread, Coop.Thread.run, Ctl.onRecoverableEnd, ha]
  | onError requestId e =>
    cases h
    simp [Input.body, Async.thread, Coop.Thread.run, State.onError, ha]
  | startResolved requestId =>
    cases h
    simp [Input.body, Async.thread, Coop.Thread.run, Ctl.startResolved, hc]
  | startRejected requestId e =>
    cases h
    simp [Input.body, Async.thread, Coop.Thread.run, State.failStart, hc]
  | stopRejected requestId e =>
    cases h
    simp [Input.body, Async.thread, Coop.Thread.run, State.failStop, hc]
  | _ => cases h

variable {cfg cfg' : Coop.Config State Ans Empty}

theorem Inv.grows (h : Inv c) (h' : Inv c') (hs : c.spoken <+: c'.spoken) (hr : c'.run = c.run) :
    c.segments <+: c'.segments := by
  obtain ⟨rest, he⟩ := hs
  rw [h.segments, h'.segments, hr, ← he, List.filter_append, List.map_append]
  exact List.prefix_append _ _

theorem reach_grows (h₀ : (controller noTextRestartLimit).Reach System.any start cfg)
    (h : (controller noTextRestartLimit).Reach System.any cfg cfg') :
    (controller noTextRestartLimit).Reach System.any start cfg' ∧
      cfg.state.core.spoken <+: cfg'.state.core.spoken ∧
      cfg.state.core.run ≤ cfg'.state.core.run := by
  have hsound : (discipline noTextRestartLimit).Sound initial := sound
  induction h with
  | init => exact ⟨h₀, List.prefix_refl _, Nat.le_refl _⟩
  | step _ _ hs ih =>
    obtain ⟨hr, hp, hle⟩ := ih
    have m : Move _ _ _ := hsound.seg hr trivial hs
    exact ⟨.step hr trivial hs, hp.trans m.grows.1, hle.trans m.grows.2⟩

/-- The transcript is the segments of its run, which only grow, each of another turn.
A turn that ends leaves its final text, or the partial that it does not cover, exactly
when it was not its start that failed. -/
theorem transcript_kept (h : (controller noTextRestartLimit).Reach System.any start cfg) :
    cfg.state.snapshot.transcript = join (ascii " ") cfg.state.snapshot.segments ∧
    cfg.state.snapshot.segments =
      (cfg.state.spoken.filter (·.run = cfg.state.run)).map Spoken.segment ∧
    (cfg.state.spoken.map Spoken.requestId).Nodup ∧
    (∀ cfg', (controller noTextRestartLimit).Reach System.any cfg cfg' →
      cfg'.state.run = cfg.state.run → cfg.state.snapshot.segments <+: cfg'.state.snapshot.segments) ∧
    ∀ l cfg', (controller noTextRestartLimit).Step cfg l cfg' →
      (∀ input r, l = .start input → input.about = some r → cfg.state.currentRequestId ≠ some r →
        cfg' = cfg) ∧
      ∀ r, cfg.state.currentRequestId = some r →
        (∀ text, l = .start (.onPartial r text) → cfg'.state.snapshot.latest = text) ∧
        (cfg'.state.currentRequestId = some r →
          cfg'.state.snapshot.latest = cfg.state.snapshot.latest ∨ ∃ text, l = .start (.onPartial r text)) ∧
        (cfg'.state.currentRequestId ≠ some r → l ≠ .start .cancel →
          Js.trim cfg.state.snapshot.latest ≠ [] →
          (cfg'.state.snapshot.segments =
              cfg.state.snapshot.segments ++ [kept (Js.trim cfg.state.snapshot.latest) l] ∧
            cfg'.state.spoken = cfg.state.spoken ++
              [⟨cfg.state.run, r, kept (Js.trim cfg.state.snapshot.latest) l⟩] ∧
            cfg'.state.run = cfg.state.run ↔ failsStart l = false)) := by
  have hsound : (discipline noTextRestartLimit).Sound initial := sound
  have hi : Inv cfg.state.core := hsound.inv h
  refine ⟨hi.joined, hi.segments, hi.once, fun cfg' hr he => ?_, fun l cfg' hs => ⟨?_, ?_⟩⟩
  · obtain ⟨h', hp, _⟩ := reach_grows h hr
    have hi' : Inv cfg'.state.core := hsound.inv h'
    exact hi.grows hi' hp he
  · rintro input r rfl hb hc
    cases hs with
    | start _ s ps =>
      show Coop.Config.mk (((input.body noTextRestartLimit).run s).1)
        (ps ++ ((input.body noTextRestartLimit).run s).2) = ⟨s, ps⟩
      rw [about_other hb hc, List.append_nil]
  · intro r hc
    have m : Move l cfg.state.core cfg'.state.core := hsound.seg h trivial hs
    refine ⟨?_, fun hc' => (m.hears hc hc').imp id fun ⟨text, hl, _⟩ => ⟨text, hl⟩,
      fun hc' hl ht => m.ends hc hc' hl ht⟩
    rintro text rfl
    cases hs with
    | start _ s ps => exact onPartial_latest (accepted hi hc)

/-- A prompt that is denied while its turn has text. -/
def denied : List (System.Act Ans Input) :=
  [.start (.setTarget (some "draft")), .start (.start "r1"),
    .reply 0 fun
      | .startRecognition _ => some .promised
      | _ => none,
    .start (.onPartial "r1" (ascii "hello there"))]

theorem transcript_lost : ∃ cfg l cfg', (controller 2).Reach System.any start cfg ∧
    (controller 2).Step cfg l cfg' ∧ l = .start (.startRejected "r1" (.error "denied")) ∧
    cfg.state.currentRequestId = some "r1" ∧
    cfg.state.snapshot.latest = ascii "hello there" ∧
    cfg'.state.currentRequestId = none ∧ cfg'.state.run = cfg.state.run ∧
    cfg'.state.snapshot.segments = [] ∧ cfg'.state.snapshot.transcript = [] := by
  obtain ⟨⟨s, ps⟩, hr, hp⟩ := System.played_any (controller 2) start denied
    (p := fun c =>
      let after := (((Input.startRejected "r1" (.error "denied")).body 2).run c.state).1
      decide (c.state.currentRequestId = some "r1") &&
        decide (c.state.snapshot.latest = ascii "hello there") &&
        decide (after.currentRequestId = none) && decide (after.run = c.state.run) &&
        decide (after.snapshot.segments = []) && decide (after.snapshot.transcript = []))
    (by decide +kernel)
  simp only [Bool.and_eq_true, decide_eq_true_eq] at hp
  obtain ⟨⟨⟨⟨⟨h₁, h₂⟩, h₃⟩, h₄⟩, h₅⟩, h₆⟩ := hp
  exact ⟨_, _, _, hr, .start _ s ps, rfl, h₁, h₂, h₃, h₄, h₅, h₆⟩

/-- A turn that ends in an error keeps its partial. -/
theorem transcript_kept_error : ∃ cfg cfg', (controller 2).Reach System.any start cfg ∧
    (controller 2).Step cfg (.start (.onError "r1" ⟨"network", "offline"⟩)) cfg' ∧
    cfg'.state.snapshot.segments = cfg.state.snapshot.segments ++ [ascii "hello there"] := by
  obtain ⟨⟨s, ps⟩, hr, hp⟩ := System.played_any (controller 2) start denied
    (p := fun c =>
      decide (c.state.currentRequestId = some "r1") &&
        decide (Js.trim c.state.snapshot.latest = ascii "hello there") &&
        decide ((((Input.onError "r1" ⟨"network", "offline"⟩).body 2).run c.state).1.currentRequestId = none))
    (by decide +kernel)
  simp only [Bool.and_eq_true, decide_eq_true_eq] at hp
  obtain ⟨⟨hc, ht⟩, hc'⟩ := hp
  have hs : (controller 2).Step ⟨s, ps⟩ (.start (.onError "r1" ⟨"network", "offline"⟩)) _ :=
    .start _ s ps
  have hkept := (((transcript_kept hr).2.2.2.2 _ _ hs).2 "r1" hc).2.2
  have hne : Js.trim s.snapshot.latest ≠ [] := by
    rw [ht]
    decide
  obtain ⟨hseg, _⟩ := (hkept (fun h => by cases hc'.symm.trans h) (fun h => by cases h) hne).mpr rfl
  rw [show Js.trim s.snapshot.latest = _ from ht] at hseg
  exact ⟨_, _, hr, hs, hseg⟩

end PocketShell.Dictation
