import PocketShell.Coop.Log
import PocketShell.Reconnect.Loop

/-!
# One schedule for each recovery

* `Inv`: what holds after any calls, firings and outcomes. The fields of the loop agree with the
  recovery the log shows, so its attempts are numbered 1, 2, 3 up to the budget.
* `Careful`: a failed dial finds its recovery running with no timer set, a recovery begins with
  no timer set, and no step takes the last timer or dial of a recovery without dialling.
* `one_schedule`: a run of careful steps has one timer at most, gives up once for each recovery,
  never leaves one without a timer or a dial, and hears nothing of the dials before `succeeded`
  or `cancel`.
* `late_failure`: two dials overlap, the second brings the link back, and the failure of the
  first one gives up.
-/

namespace PocketShell.ReconnectLoop

open Coop (Each each_nil mem_snoc)

/-! ## 1. Logs -/

/-- Giving up ends an open recovery. A failure is heard only of a dial made after the last
`succeeded` or `cancel`, and an attempt is scheduled by the recovery that made the ones before. -/
def Proper (before : List Event) : Event → Prop
  | .onGiveUp => (recovery before).isSome
  | .onDialFailed since => .succeeded ∉ before.drop since ∧ .cancelled ∉ before.drop since
  | .scheduled attempt =>
      ∃ r, recovery before = some r ∧ attempt = r.attempts.length + 1 ∧ attempt ≤ MAX_ATTEMPTS
  | _ => True

/-! ## 2. What holds in any run -/

/-- The state of the loop beside the recovery that its log shows. -/
structure Inv (s : State) : Prop where
  curve : ∀ b, s.backoff = some b → b.maxAttempts = MAX_ATTEMPTS ∧ b.attempt ≤ MAX_ATTEMPTS ∧
    ∃ r, recovery s.log = some r ∧ r.attempts = List.range' 1 b.attempt
  closed : s.backoff = none → recovery s.log = none
  older : ∀ dial ∈ s.dials, dial.gen ≤ s.generation
  unsettled : ∀ dial ∈ s.dials, dial.gen = s.generation → s.running → ¬ s.Settled dial

theorem inv_start : Inv {} :=
  ⟨fun _ h => (by cases h), fun _ => rfl, fun _ h => (by cases h), fun _ h => (by cases h)⟩

/-- An event other than the two calls settles no dial. -/
theorem settled_snoc {log : List Event} {e : Event} {since : Nat} (hs : e ≠ .succeeded)
    (hc : e ≠ .cancelled)
    (h : .succeeded ∈ (log ++ [e]).drop since ∨ .cancelled ∈ (log ++ [e]).drop since) :
    .succeeded ∈ log.drop since ∨ .cancelled ∈ log.drop since := by
  rw [List.drop_append, List.mem_append, List.mem_append] at h
  rcases h with (h | h) | (h | h)
  · exact .inl h
  · exact absurd (List.mem_singleton.mp (List.mem_of_mem_drop h)).symm hs
  · exact .inr h
  · exact absurd (List.mem_singleton.mp (List.mem_of_mem_drop h)).symm hc

variable {s : State}

/-- An event that neither opens nor closes a recovery. -/
theorem Inv.addLog (h : Inv s) {e : Event} (hs : e ≠ .succeeded) (hc : e ≠ .cancelled)
    (hr : ∀ r, recovery s.log = some r → ∃ r', Recovery.after (some r) e = some r' ∧
      r'.attempts = r.attempts)
    (hn : Recovery.after none e = none) : Inv (s.addLog e) := by
  refine ⟨fun b hb => ?_, fun hb => ?_, h.older, fun dial hd hgen hrun hset => ?_⟩
  · obtain ⟨hmax, hle, r, hrec, hatt⟩ := h.curve b hb
    obtain ⟨r', hr', hsame⟩ := hr r hrec
    refine ⟨hmax, hle, r', ?_, hsame.trans hatt⟩
    show recovery (s.log ++ [e]) = some r'
    rw [recovery_snoc, hrec, hr']
  · show recovery (s.log ++ [e]) = none
    rw [recovery_snoc, h.closed hb, hn]
  · exact h.unsettled dial hd hgen hrun (settled_snoc hs hc hset)

theorem Inv.giveUp (h : Inv s) (gen : Nat) : Inv (s.giveUp gen) := by
  unfold State.giveUp
  split
  · exact h
  · refine ⟨fun b hb => (by cases hb), fun _ => ?_, h.older, fun _ _ _ hrun => (by cases hrun)⟩
    show recovery (s.log ++ [.onGiveUp]) = none
    rw [recovery_snoc]
    cases recovery s.log <;> rfl

/-- What scheduling does: it sets a timer for the next attempt of the curve, or gives up. -/
theorem scheduleNext_cases (s : State) (gen : Nat) (now : Int) :
    (∃ b, s.backoff = some b ∧ b.attempt < b.maxAttempts ∧
      (s.scheduleNext gen now).backoff = some { b with attempt := b.attempt + 1 } ∧
      (s.scheduleNext gen now).log = s.log ++ [.scheduled (b.attempt + 1)] ∧
      (s.scheduleNext gen now).timers = s.timers ++ [⟨s.nextId, gen⟩] ∧
      (s.scheduleNext gen now).retryTimer = some s.nextId ∧
      (s.scheduleNext gen now).dials = s.dials ∧
      (s.scheduleNext gen now).generation = s.generation) ∨
    s.scheduleNext gen now = s.giveUp gen := by
  cases hb : s.backoff with
  | none => exact .inr (by simp [State.scheduleNext, hb])
  | some b =>
    by_cases hspent : b.maxAttempts ≤ b.attempt
    · refine .inr ?_
      simp [State.scheduleNext, hb, ReconnectBackoff.next, ReconnectBackoff.exhausted, hspent]
    · refine .inl ⟨b, rfl, Nat.lt_of_not_le hspent, ?_⟩
      simp [State.scheduleNext, hb, ReconnectBackoff.next, ReconnectBackoff.exhausted, hspent,
        State.addLog, State.setRetryTimer, State.startCountdown, State.stopCountdown]

theorem Inv.scheduleNext (h : Inv s) (gen : Nat) (now : Int) : Inv (s.scheduleNext gen now) := by
  rcases scheduleNext_cases s gen now with
    ⟨b, hb, hlt, hback, hlog, -, -, hdials, hgen⟩ | heq
  · obtain ⟨hmax, hle, r, hrec, hatt⟩ := h.curve b hb
    refine ⟨fun b' hb' => ?_, fun hnone => ?_, ?_, fun dial hd hg hrun hset => ?_⟩
    · rw [hback] at hb'
      cases hb'
      refine ⟨hmax, Nat.le_trans hlt (Nat.le_of_eq hmax), ?_⟩
      refine ⟨{ r with attempts := r.attempts ++ [b.attempt + 1] }, ?_, ?_⟩
      · rw [hlog, recovery_snoc, hrec]
        rfl
      · show r.attempts ++ [b.attempt + 1] = List.range' 1 (b.attempt + 1)
        rw [hatt, List.range'_1_concat, Nat.add_comm 1]
    · rw [hback] at hnone
      cases hnone
    · rw [hdials, hgen]
      exact h.older
    · rw [hdials] at hd
      rw [hgen] at hg
      have hrunning : s.running := by simp [State.running, hb]
      refine h.unsettled dial hd hg hrunning ?_
      unfold State.Settled at hset
      rw [hlog] at hset
      exact settled_snoc (e := .scheduled _) (by simp) (by simp) hset
  · rw [heq]
    exact h.giveUp gen

/-- The invariant reads four fields only. -/
theorem Inv.same {s t : State} (h : Inv s) (hb : t.backoff = s.backoff) (hl : t.log = s.log)
    (hd : t.dials = s.dials) (hg : t.generation = s.generation) : Inv t := by
  refine ⟨?_, ?_, ?_, ?_⟩
  · rw [hb, hl]
    exact h.curve
  · rw [hb, hl]
    exact h.closed
  · rw [hd, hg]
    exact h.older
  · unfold State.running State.Settled
    rw [hd, hg, hb, hl]
    exact h.unsettled

theorem clearRetryTimer_eq (s : State) :
    s.clearRetryTimer =
      { s with timers := s.timers.filter (fun t => some t.id ≠ s.retryTimer), retryTimer := none } := by
  unfold State.clearRetryTimer
  cases h : s.retryTimer with
  | none =>
    have hall : s.timers.filter (fun t => some t.id ≠ none) = s.timers := by simp
    rw [hall]
    cases s
    cases h
    rfl
  | some id => simp

theorem Inv.clearPendingStep (h : Inv s) : Inv s.clearPendingStep := by
  unfold State.clearPendingStep
  rw [clearRetryTimer_eq]
  exact h.same rfl rfl rfl rfl

theorem Inv.dialStep (h : Inv s) (gen : Nat) (target : Bool) : Inv (s.dialStep gen target) := by
  unfold State.dialStep
  split
  case isTrue => exact h
  case isFalse hgo =>
    have hgen : gen = s.generation := by
      by_contra hne
      simp [hne] at hgo
    have hmade : Inv { s with
        dials := s.dials ++ [⟨s.nextId, gen, s.log.length⟩]
        nextId := s.nextId + 1 } := by
      refine ⟨h.curve, h.closed, fun dial hd => ?_, fun dial hd hg hrun => ?_⟩
      · rcases mem_snoc.mp hd with hd | hd
        · exact h.older dial hd
        · cases hd
          exact Nat.le_of_eq hgen
      · rcases mem_snoc.mp hd with hd | hd
        · exact h.unsettled dial hd hg hrun
        · cases hd
          simp [State.Settled]
    exact hmade.addLog (e := .dialled) (by simp) (by simp) (fun r _ => ⟨r, rfl, rfl⟩) rfl

theorem Inv.succeeded (h : Inv s) : Inv s.succeeded := by
  refine ⟨fun b hb => (by cases hb), fun _ => ?_, h.older, fun _ _ _ hrun => (by cases hrun)⟩
  show recovery (s.log ++ [.succeeded]) = none
  rw [recovery_snoc]
  cases recovery s.log <;> rfl

theorem cancel_eq (s : State) :
    s.cancel = { s with
      generation := s.generation + 1
      timers := s.timers.filter (fun t => some t.id ≠ s.retryTimer)
      retryTimer := none
      countdownTimer := none
      retryIn := 0
      backoff := none
      autoRetry := none
      recovering := false
      log := s.log ++ [.cancelled] } := by
  unfold State.cancel
  rw [clearRetryTimer_eq]
  rfl

theorem Inv.cancel (h : Inv s) : Inv s.cancel := by
  rw [cancel_eq]
  refine ⟨fun b hb => (by cases hb), fun _ => ?_, fun dial hd => ?_,
    fun _ _ _ hrun => (by cases hrun)⟩
  · show recovery (s.log ++ [.cancelled]) = none
    rw [recovery_snoc]
    cases recovery s.log <;> rfl
  · exact Nat.le_succ_of_le (h.older dial hd)

/-- The state `begin` schedules from. -/
def State.began (s : State) : State :=
  { s with
    backoff := some {}
    recovering := true
    generation := s.generation + 1 }.addLog .began

theorem recovery_began (log : List Event) : recovery (log ++ [.began]) = some {} := by
  rw [recovery_snoc]
  cases recovery log <;> rfl

theorem Inv.began (h : Inv s) : Inv s.began := by
  refine ⟨fun b hb => ?_, fun hb => (by cases hb), fun dial hd => ?_, fun dial hd hg => ?_⟩
  · cases hb
    exact ⟨rfl, by decide, {}, recovery_began s.log, rfl⟩
  · exact Nat.le_succ_of_le (h.older dial hd)
  · exact absurd (h.older dial hd) (by rw [hg]; exact Nat.not_succ_le_self _)

theorem Inv.begin (h : Inv s) (target : Bool) (now : Int) : Inv (s.begin target now) := by
  unfold State.begin
  split
  · exact h
  · exact h.began.scheduleNext _ now

theorem Inv.answered (h : Inv s) (dial : Dial) (outcome : Outcome) (now : Int) :
    Inv (s.answered dial outcome now) := by
  have hlanded : Inv { s with dials := s.dials.erase dial } :=
    ⟨h.curve, h.closed, fun d hd => h.older d (List.mem_of_mem_erase hd),
      fun d hd => h.unsettled d (List.mem_of_mem_erase hd)⟩
  unfold State.answered
  dsimp only
  split
  · exact hlanded
  · cases outcome with
    | up =>
      exact hlanded.addLog (e := .reached) (by simp) (by simp)
        (fun r _ => ⟨{ r with reached := true }, rfl, rfl⟩) rfl
    | down =>
      exact (hlanded.addLog (e := .onDialFailed _) (by simp) (by simp)
        (fun r _ => ⟨r, rfl, rfl⟩) rfl).scheduleNext _ now
    | thrown => exact hlanded

theorem Inv.step (h : Inv s) (action : Action) : Inv (s.step action) := by
  cases action with
  | begin target now => exact h.begin target now
  | skipWait target => exact h.clearPendingStep.dialStep _ target
  | clearPendingStep => exact h.clearPendingStep
  | succeeded => exact h.succeeded
  | cancel => exact h.cancel
  | tick now =>
    show Inv (s.tick now)
    unfold State.tick
    split
    · exact h
    · exact h.same rfl rfl rfl rfl
  | fired timer target =>
    show Inv (if timer ∈ s.timers then s.fired timer target else s)
    split
    · refine Inv.dialStep ?_ _ target
      exact h.same rfl rfl rfl rfl
    · exact h
  | answered dial outcome now =>
    show Inv (if dial ∈ s.dials then s.answered dial outcome now else s)
    split
    · exact h.answered dial outcome now
    · exact h

theorem inv_run (actions : List Action) : Inv (run actions) := by
  induction actions using List.reverseRecOn with
  | nil => exact inv_start
  | append_singleton actions action ih =>
    unfold run at ih ⊢
    rw [List.foldl_append]
    exact ih.step action

/-- A dial made before the last `succeeded` or `cancel` is of an earlier generation, or no
recovery is running. -/
theorem Inv.late (h : Inv s) {dial : Dial} (hd : dial ∈ s.dials) (hset : s.Settled dial)
    (hrun : s.running) : dial.gen ≠ s.generation :=
  fun hgen => h.unsettled dial hd hgen hrun hset

/-! ## 3. Careful steps -/

/-- What a step must find for the schedule to stay one. A recovery begins with no timer set. A
dial that fails finds its recovery running and no timer set. What takes a timer or a dial from a
recovery that waits dials, or leaves another dial. -/
def Careful (s : State) : Action → Prop
  | .begin target _ => target → ¬s.running → s.timers = []
  | .skipWait target => s.waiting → target ∨ s.dialling
  | .clearPendingStep => s.waiting → s.dialling
  | .fired _ target => s.waiting → target ∨ s.dialling
  | .answered dial .down _ => dial.gen = s.generation → s.running ∧ s.timers = []
  | .answered dial .thrown _ => dial.gen = s.generation → s.waiting →
      s.timers ≠ [] ∨ ∃ other ∈ s.dials.erase dial, other.gen = s.generation
  | _ => True

/-- The loop owns one timer, a recovery that waits has it or a dial, and the log is proper. -/
structure Tidy (s : State) : Prop where
  timer : s.timers = (s.retryTimer.map (⟨·, s.generation⟩ : Nat → Timer)).toList
  alive : s.waiting → s.timers ≠ [] ∨ s.dialling
  proper : Each Proper s.log

theorem tidy_start : Tidy {} := by
  refine ⟨rfl, ?_, each_nil _⟩
  rintro ⟨r, hr, -⟩
  cases hr

theorem Tidy.unset (h : Tidy s) (hnil : s.timers = []) : s.retryTimer = none := by
  have htimer := h.timer
  rw [hnil] at htimer
  cases hr : s.retryTimer with
  | none => rfl
  | some id =>
    rw [hr] at htimer
    cases htimer

/-- Clearing the timer leaves none. -/
theorem Tidy.cleared (h : Tidy s) : s.timers.filter (fun t => some t.id ≠ s.retryTimer) = [] := by
  rw [h.timer]
  cases s.retryTimer with
  | none => rfl
  | some id => simp

theorem tidy_scheduleNext (hi : Inv s) (hrun : s.running) (hnil : s.timers = [])
    (hnone : s.retryTimer = none) (hp : Each Proper s.log) (now : Int) :
    Tidy (s.scheduleNext s.generation now) := by
  obtain ⟨b, hb⟩ := Option.isSome_iff_exists.mp hrun
  obtain ⟨hmax, hle, r, hrec, hatt⟩ := hi.curve b hb
  rcases scheduleNext_cases s s.generation now with
    ⟨b', hb', hlt, -, hlog, htimers, hretry, -, hgen⟩ | heq
  · cases hb.symm.trans hb'
    have hlen : b.attempt + 1 = r.attempts.length + 1 := by
      rw [hatt, List.length_range']
    refine ⟨?_, fun _ => .inl ?_, ?_⟩
    · rw [htimers, hretry, hgen, hnil]
      rfl
    · rw [htimers]
      simp
    · rw [hlog]
      exact hp.snoc ⟨r, hrec, hlen, Nat.le_trans hlt (Nat.le_of_eq hmax)⟩
  · have hgave : s.scheduleNext s.generation now =
        ({ s with backoff := none, autoRetry := none, recovering := false }.stopCountdown).addLog
          .onGiveUp := by
      rw [heq]
      exact if_neg (by simp)
    rw [hgave]
    refine ⟨?_, ?_, ?_⟩
    · show s.timers = (s.retryTimer.map _).toList
      rw [hnil, hnone]
      rfl
    · rintro ⟨r', hr', -⟩
      have hnone' : recovery (s.log ++ [.onGiveUp]) = none := by
        rw [recovery_snoc, hrec]
        rfl
      cases hnone'.symm.trans hr'
    · exact hp.snoc (by simp [Proper, hrec])

variable {target : Bool}

/-- A dial step: the recovery still has what it had, or the dial that was made. -/
theorem tidy_dialStep {gen : Nat}
    (htimer : s.timers = (s.retryTimer.map (⟨·, s.generation⟩ : Nat → Timer)).toList)
    (hp : Each Proper s.log)
    (halive : s.waiting → s.timers ≠ [] ∨ s.dialling ∨ gen = s.generation ∧ target) :
    Tidy (s.dialStep gen target) := by
  unfold State.dialStep
  split
  case isTrue hstop =>
    refine ⟨htimer, fun hwait => ?_, hp⟩
    rcases halive hwait with h | h | ⟨hgen, htarget⟩
    · exact .inl h
    · exact .inr h
    · simp [hgen, htarget] at hstop
  case isFalse hgo =>
    have hgen : gen = s.generation := by
      by_contra hne
      simp [hne] at hgo
    refine ⟨htimer, fun _ => .inr ⟨⟨s.nextId, gen, s.log.length⟩, ?_, hgen⟩, hp.snoc trivial⟩
    exact List.mem_append_right _ (List.mem_singleton.mpr rfl)

theorem clearPendingStep_eq (s : State) :
    s.clearPendingStep = { s with
      timers := s.timers.filter (fun t => some t.id ≠ s.retryTimer)
      retryTimer := none
      countdownTimer := none
      retryIn := 0
      autoRetry := none } := by
  unfold State.clearPendingStep
  rw [clearRetryTimer_eq]
  rfl

theorem Tidy.clearPendingStep (h : Tidy s) (hc : s.waiting → s.dialling) : Tidy s.clearPendingStep := by
  rw [clearPendingStep_eq]
  exact ⟨h.cleared, fun hwait => .inr (hc hwait), h.proper⟩

theorem Tidy.skipWait (h : Tidy s)
    (hc : s.waiting → target ∨ s.dialling) : Tidy (s.skipWait target) := by
  unfold State.skipWait
  rw [clearPendingStep_eq]
  refine tidy_dialStep h.cleared h.proper fun hwait => ?_
  rcases hc hwait with htarget | hdial
  · exact .inr (.inr ⟨rfl, htarget⟩)
  · exact .inr (.inl hdial)

theorem Tidy.succeeded (h : Tidy s) : Tidy s.succeeded := by
  refine ⟨h.timer, ?_, h.proper.snoc trivial⟩
  rintro ⟨r, hr, -⟩
  have hnone : recovery (s.log ++ [.succeeded]) = none := by
    rw [recovery_snoc]
    cases recovery s.log <;> rfl
  cases hnone.symm.trans hr

theorem Tidy.cancel (h : Tidy s) : Tidy s.cancel := by
  rw [cancel_eq]
  refine ⟨h.cleared, ?_, h.proper.snoc trivial⟩
  rintro ⟨r, hr, -⟩
  have hnone : recovery (s.log ++ [.cancelled]) = none := by
    rw [recovery_snoc]
    cases recovery s.log <;> rfl
  cases hnone.symm.trans hr

theorem Tidy.begin (h : Tidy s) (hi : Inv s)
    (hc : target → ¬s.running → s.timers = []) (now : Int) : Tidy (s.begin target now) := by
  unfold State.begin
  split
  · exact h
  next hgo =>
    have htarget : target = true := by simpa using (by simpa using hgo : _ ∧ _).2
    have hidle : ¬s.running := by simpa using (by simpa using hgo : _ ∧ _).1
    have hnil := hc htarget hidle
    exact tidy_scheduleNext hi.began rfl hnil (h.unset hnil) (h.proper.snoc trivial) now

/-- A retry timer that fires is the only one. -/
theorem Tidy.fired (h : Tidy s) {timer : Timer}
    (hmem : timer ∈ s.timers) (hc : s.waiting → target ∨ s.dialling) :
    Tidy (s.fired timer target) := by
  have hone : s.timers = [timer] ∧ timer.gen = s.generation := by
    have htimer := h.timer
    cases hr : s.retryTimer with
    | none =>
      rw [hr] at htimer
      rw [htimer] at hmem
      cases hmem
    | some id =>
      rw [hr] at htimer
      rw [htimer] at hmem ⊢
      cases List.mem_singleton.mp hmem
      exact ⟨rfl, rfl⟩
  unfold State.fired
  refine tidy_dialStep ?_ h.proper fun hwait => ?_
  · show s.timers.erase timer = []
    rw [hone.1]
    simp
  · rcases hc hwait with htarget | hdial
    · exact .inr (.inr ⟨hone.2, htarget⟩)
    · exact .inr (.inl hdial)

theorem Tidy.answered (h : Tidy s) (hi : Inv s) {dial : Dial} (hmem : dial ∈ s.dials)
    {outcome : Outcome} {now : Int} (hc : Careful s (.answered dial outcome now)) :
    Tidy (s.answered dial outcome now) := by
  unfold State.answered
  dsimp only
  split
  case isTrue hstale =>
    refine ⟨h.timer, fun hwait => ?_, h.proper⟩
    rcases h.alive hwait with htimer | ⟨other, hother, hgen⟩
    · exact .inl htimer
    · have hne : other ≠ dial := by
        rintro rfl
        exact hstale hgen
      exact .inr ⟨other, (List.mem_erase_of_ne hne).mpr hother, hgen⟩
  case isFalse hgen =>
    have hgen : dial.gen = s.generation := not_not.mp hgen
    cases outcome with
    | up =>
      refine ⟨h.timer, ?_, h.proper.snoc trivial⟩
      rintro ⟨r, hr, hreached⟩
      have hr' : Recovery.after (recovery s.log) .reached = some r := by
        rw [← recovery_snoc]
        exact hr
      cases hrec : recovery s.log with
      | none =>
        rw [hrec] at hr'
        cases hr'
      | some r' =>
        rw [hrec] at hr'
        cases hr'
        cases hreached
    | down =>
      obtain ⟨hrun, hnil⟩ := hc hgen
      have hheard : Proper s.log (.onDialFailed dial.since) :=
        not_or.mp (hi.unsettled dial hmem hgen hrun)
      have hlanded : Inv ({ s with dials := s.dials.erase dial }.addLog
          (.onDialFailed dial.since)) := by
        have hshort : Inv { s with dials := s.dials.erase dial } :=
          ⟨hi.curve, hi.closed, fun d hd => hi.older d (List.mem_of_mem_erase hd),
            fun d hd => hi.unsettled d (List.mem_of_mem_erase hd)⟩
        exact hshort.addLog (e := .onDialFailed _) (by simp) (by simp)
          (fun r _ => ⟨r, rfl, rfl⟩) rfl
      dsimp only
      rw [hgen]
      exact tidy_scheduleNext hlanded hrun hnil (h.unset hnil) (h.proper.snoc hheard) now
    | thrown => exact ⟨h.timer, hc hgen, h.proper⟩

/-- **Step.** A careful step keeps the schedule tidy. -/
theorem Tidy.step (h : Tidy s) (hi : Inv s) {action : Action} (hc : Careful s action) :
    Tidy (s.step action) := by
  cases action with
  | begin target now => exact h.begin hi hc now
  | skipWait target => exact h.skipWait hc
  | clearPendingStep => exact h.clearPendingStep hc
  | succeeded => exact h.succeeded
  | cancel => exact h.cancel
  | tick now =>
    show Tidy (s.tick now)
    unfold State.tick
    split
    · exact h
    · exact ⟨h.timer, h.alive, h.proper⟩
  | fired timer target =>
    show Tidy (if timer ∈ s.timers then s.fired timer target else s)
    split
    next hmem => exact h.fired hmem hc
    next => exact h
  | answered dial outcome now =>
    show Tidy (if dial ∈ s.dials then s.answered dial outcome now else s)
    split
    next hmem => exact h.answered hi hmem hc
    next => exact h

/-! ## 4. Runs of careful steps -/

/-- Every step of the run is careful where it is taken. -/
def CarefulFrom : State → List Action → Prop
  | _, [] => True
  | s, action :: rest => Careful s action ∧ CarefulFrom (s.step action) rest

theorem CarefulFrom.append {actions rest : List Action} : CarefulFrom s (actions ++ rest) ↔
      CarefulFrom s actions ∧ CarefulFrom (actions.foldl State.step s) rest := by
  induction actions generalizing s with
  | nil => simp [CarefulFrom]
  | cons action actions ih => simp [CarefulFrom, ih, and_assoc]

/-- **Run.** -/
theorem tidy_run {actions : List Action} (h : CarefulFrom {} actions) : Tidy (run actions) := by
  induction actions using List.reverseRecOn with
  | nil => exact tidy_start
  | append_singleton actions action ih =>
    obtain ⟨hbefore, hlast, -⟩ := CarefulFrom.append.mp h
    have hstep := (ih hbefore).step (inv_run actions) hlast
    unfold run at hstep ⊢
    rw [List.foldl_append]
    exact hstep

/-- One schedule: a single timer, attempts numbered from 1 within the budget, never a recovery
that waits for nothing, and a log in which each event has its place. -/
structure OneSchedule (s : State) : Prop where
  single : s.timers.length ≤ 1
  numbered : ∀ r, recovery s.log = some r → ∃ n ≤ MAX_ATTEMPTS, r.attempts = List.range' 1 n
  alive : s.waiting → s.timers ≠ [] ∨ s.dialling
  proper : Each Proper s.log

/-- A run keeps one schedule, and if its last step is the failure of a dial made before
`succeeded` or `cancel`, that step only takes the dial off the wire. -/
def Keeps (actions : List Action) : Prop :=
  OneSchedule (run actions) ∧
    ∀ before dial now, actions = before ++ [.answered dial .down now] →
      dial ∈ (run before).dials → (run before).Settled dial →
        run actions = { run before with dials := (run before).dials.erase dial }

/-- A recovery is numbered in every run, careful or not. -/
theorem Inv.numbered (h : Inv s) {r : Recovery} (hr : recovery s.log = some r) :
    ∃ n ≤ MAX_ATTEMPTS, r.attempts = List.range' 1 n := by
  cases hb : s.backoff with
  | none => cases (h.closed hb).symm.trans hr
  | some b =>
    obtain ⟨-, hle, r', hr', hatt⟩ := h.curve b hb
    cases hr.symm.trans hr'
    exact ⟨b.attempt, hle, hatt⟩

theorem run_snoc (actions : List Action) (action : Action) :
    run (actions ++ [action]) = (run actions).step action := by
  simp [run]

/-- The failure of a dial that is not of this generation. -/
theorem answered_stale {dial : Dial} (hne : dial.gen ≠ s.generation) (outcome : Outcome) (now : Int) :
    s.answered dial outcome now = { s with dials := s.dials.erase dial } :=
  if_pos hne

/-- A run of careful steps keeps one schedule and hears no late failure. -/
theorem one_schedule (actions : List Action) (h : CarefulFrom {} actions) : Keeps actions := by
  have htidy := tidy_run h
  have hinv := inv_run actions
  refine ⟨⟨?_, fun r hr => hinv.numbered hr, htidy.alive, htidy.proper⟩, ?_⟩
  · rw [htidy.timer]
    cases (run actions).retryTimer <;> simp
  · rintro before dial now rfl hmem hset
    obtain ⟨-, hlast, -⟩ := CarefulFrom.append.mp h
    have hlate : dial.gen ≠ (run before).generation := by
      intro hgen
      obtain ⟨hrun, -⟩ := hlast hgen
      exact (inv_run before).late hmem hset hrun hgen
    rw [run_snoc]
    show (if dial ∈ (run before).dials then (run before).answered dial .down now else run before) = _
    rw [if_pos hmem, answered_stale hlate]

/-- The first dial fails and the user skips the second wait: the link is back. -/
theorem one_schedule_retried :
    Keeps [.begin true 0, .fired ⟨0, 1⟩ true, .answered ⟨1, 1, 2⟩ .down 0, .skipWait true,
      .answered ⟨3, 1, 5⟩ .up 0, .succeeded] :=
  one_schedule _ ⟨fun _ _ => rfl, fun _ => .inl rfl, fun _ => ⟨rfl, rfl⟩, fun _ => .inl rfl,
    trivial, trivial, trivial⟩

/-- The timer dials, the user's retry dials beside it and brings the link back. -/
def overlapping : List Action :=
  [.begin true 0, .fired ⟨0, 1⟩ true, .skipWait true, .answered ⟨2, 1, 3⟩ .up 0, .succeeded]

/-- The failure of the first dial is heard after `succeeded`, and the loop gives up. -/
theorem late_failure : ¬∀ actions, Keeps actions := by
  intro h
  have hstep := (h (overlapping ++ [.answered ⟨1, 1, 2⟩ .down 0])).2 overlapping ⟨1, 1, 2⟩ 0 rfl
    (by decide) (by unfold State.Settled; decide)
  have hlog := congrArg (fun s => s.log.getLast?) hstep
  exact absurd hlog (by decide)

end PocketShell.ReconnectLoop
