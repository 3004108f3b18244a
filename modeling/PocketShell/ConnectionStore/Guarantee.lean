import PocketShell.ConnectionStore.Store
import PocketShell.Reconnect.Schedule

/-!
# The connection last asked for

What the store shows, against the dials that were made.

* `StepSafe`: what holds of a step. What is shown is of the latest dial of `activeHost`, the other
  connections have been asked to close, nothing from before a `disconnect()` writes, and a lost link
  finds the recovery loop running.
* `Prudent`: the steps at which no slip of the store breaks this. A `connect()` commits without a
  look at what happened while it waited.
* `last_asked_shown`: a run of such steps.
-/

namespace PocketShell.ConnectionStore

open Js (Text ascii)
open ReconnectLoop (Timer Dial Outcome)

variable {Host Bootstrap : Type}

/-! ## 1. What must hold -/

/-- What a disconnected store must not set again. -/
structure Visible (Host Bootstrap : Type) where
  connectionId : Option ConnectionId
  state : ConnectionState
  error : Option Text
  bootstrap : Option Bootstrap
  activeHost : Option Host

namespace State

def visible (s : State Host Bootstrap) : Visible Host Bootstrap :=
  ⟨s.connectionId, s.state, s.error, s.bootstrap, s.activeHost⟩

/-- The latest dial was one of `activeHost`, and answered `id`. -/
def FromLatest (s : State Host Bootstrap) (id : ConnectionId) : Prop :=
  ∃ host, s.activeHost = some host ∧ (id, host, s.history.dials) ∈ s.history.answered

/-- The latest dial answered `id`, and its `connect()` restores the forwards. -/
def Restoring (s : State Host Bootstrap) (id : ConnectionId) : Prop :=
  ∃ n, s.history.current = some (n, some id)

end State

/-- The call is part of a re-dial in place of `id`. -/
def Pending.replaces (id : ConnectionId) : Pending Host → Prop
  | .closePrevious _ previous _ => previous = id
  | .dial _ (.replace _) | .isAutoEnabled _ _ (.replace _) | .startAuto _ _ (.replace _) => True
  | _ => False

def State.ReplacementRuns (s : State Host Bootstrap) (id : ConnectionId) : Prop :=
  ∃ call ∈ s.calls, call.pending.replaces id

/-- What the store shows is of a dial of `activeHost`, and of the latest one when it is connected. -/
structure Own (s : State Host Bootstrap) : Prop where
  connectionId : ∀ id, s.connectionId = some id → ∃ host t, s.activeHost = some host ∧
    (id, host, t) ∈ s.history.answered
  connected : s.state = .connected → ∃ id, s.connectionId = some id ∧ s.FromLatest id
  state : ∀ id, s.history.subject = some id → s.connectionId = some id
  bootstrap : ∀ b, s.bootstrap = some b → ∃ id host t, s.activeHost = some host ∧
    (id, host, t) ∈ s.history.answered ∧ (b, id) ∈ s.history.reports

/-- What holds of one step. -/
structure StepSafe (s : State Host Bootstrap) (a : Action Host Bootstrap) (s' : State Host Bootstrap) :
    Prop where
  own : Own s'
  /-- A connection that is not the store's has been asked to close. -/
  closed : ∀ id host t, (id, host, t) ∈ s'.history.answered →
    s'.connectionId = some id ∨ id ∈ s'.history.closed ∨ s'.Restoring id
  /-- A reply to a call from before a `disconnect()` that has returned changes nothing. -/
  orphan : ∀ id answer now call, a = .reply id answer now → s.waiting id = some call →
    call.asked < s.history.clearedAt → s'.visible = s.visible
  /-- Nor does a timer from before a `disconnect()`. -/
  timer : ∀ timer now, a = .fired timer now → timer ∈ s.history.staleTimers → s'.visible = s.visible
  /-- When the link is lost, the loop runs. -/
  lost : ∀ event now, a = .onState event now → event.state = .lost →
    s.transportOwnsRecovery = false → s.connectionId = some event.connectionId →
    ¬ s.ReplacementRuns event.connectionId → s'.loop.running

/-! ## 2. The steps without a slip -/

/-- No dial has answered a connection that is not committed yet. -/
def NotRestoring (s : State Host Bootstrap) : Prop := ∀ id, ¬ s.Restoring id

def Reset (s : State Host Bootstrap) : Prop :=
  s.connectionId = none ∧ s.state = .idle ∧ s.bootstrap = none ∧ s.activeHost = none

/-- The call is a stage of the latest dial, and no `disconnect()` began since. -/
def IsCurrent (s : State Host Bootstrap) (call : Call Host) : Prop :=
  ∃ answered, s.history.current = some (call.id, answered)

/-- No `disconnect()` began since the call's action. -/
def Since (s : State Host Bootstrap) (call : Call Host) : Prop := s.history.cancelledAt ≤ call.asked

def PrudentReply (s : State Host Bootstrap) (call : Call Host) (answer : Answer Bootstrap) : Prop :=
  match call.pending with
  | .dial .. | .isAutoEnabled .. | .startAuto .. => IsCurrent s call
  | .bootstrap id => s.connectionId = some id ∧ Since s call
  | .closePrevious host previous _ =>
    s.connectionId = some previous ∧ s.replacingConnectionId = some previous ∧
      s.activeHost = some host ∧ NotRestoring s ∧ Since s call
  | .surfaces _ => True
  | .reconnectTransport id _ =>
    (s.connectionId = some id → Since s call) ∧
      ∀ message, answer = .failed message → s.connectionId = some id
  | .closeForDisconnect _ =>
    s.history.current = none ∧ (∀ id, s.connectionId = some id → id ∈ s.history.closed) ∧
      (call.asked < s.history.clearedAt → Reset s)
  | .probe id =>
    answer ≠ .flag true → s.state = .connected → s.connectionId = some id ∧ Since s call

def Prudent (s : State Host Bootstrap) : Action Host Bootstrap → Prop
  | .connect .. => s.connectionId = none ∧ NotRestoring s
  | .reconnect _ | .retryNow _ => s.connectionId = none → NotRestoring s
  | .fired timer _ => timer.gen = s.loop.generation → s.connectionId = none → NotRestoring s
  | .disconnect => NotRestoring s
  | .onState event _ => event.state = .lost → s.connectionId = some event.connectionId →
    s.replacingConnectionId = some event.connectionId → s.ReplacementRuns event.connectionId
  | .reply id answer _ => ∀ call, s.waiting id = some call → PrudentReply s call answer
  | .onOsResume | .countdown _ => True

/-! ## 3. The loop -/

/-- The generation of the loop does not fall, and no timer is ahead of it. -/
structure Ages (l l' : ReconnectLoop.State) : Prop where
  generation : l.generation ≤ l'.generation
  timers : (∀ t ∈ l.timers, t.gen ≤ l.generation) → ∀ t ∈ l'.timers, t.gen ≤ l'.generation

namespace Ages

variable {l l' l'' : ReconnectLoop.State}

theorem refl (l : ReconnectLoop.State) : Ages l l := ⟨Nat.le_refl _, id⟩

theorem trans (h : Ages l l') (h' : Ages l' l'') : Ages l l'' :=
  ⟨Nat.le_trans h.generation h'.generation, fun hl => h'.timers (h.timers hl)⟩

/-- Timers are dropped at most. -/
theorem of_sub (hgen : l.generation ≤ l'.generation) (htimers : ∀ t ∈ l'.timers, t ∈ l.timers) :
    Ages l l' :=
  ⟨hgen, fun hl t ht => Nat.le_trans (hl t (htimers t ht)) hgen⟩

theorem giveUp (l : ReconnectLoop.State) (gen : Nat) : Ages l (l.giveUp gen) := by
  unfold ReconnectLoop.State.giveUp
  split
  · exact refl l
  · exact of_sub (Nat.le_refl _) fun _ ht => ht

theorem scheduleNext (l : ReconnectLoop.State) (gen : Nat) (now : Int) (hgen : gen ≤ l.generation) :
    Ages l (l.scheduleNext gen now) := by
  rcases ReconnectLoop.scheduleNext_cases l gen now with ⟨b, -, -, -, -, htimers, -, -, hsame⟩ | heq
  · refine ⟨Nat.le_of_eq hsame.symm, fun hl t ht => ?_⟩
    rw [htimers, List.mem_append, List.mem_singleton] at ht
    rw [hsame]
    rcases ht with ht | rfl
    · exact hl t ht
    · exact hgen
  · rw [heq]
    exact giveUp l gen

theorem clearPendingStep (l : ReconnectLoop.State) : Ages l l.clearPendingStep := by
  rw [ReconnectLoop.clearPendingStep_eq]
  exact of_sub (Nat.le_refl _) fun _ ht => List.mem_of_mem_filter ht

theorem succeeded (l : ReconnectLoop.State) : Ages l l.succeeded :=
  of_sub (Nat.le_refl _) fun _ ht => ht

theorem tick (l : ReconnectLoop.State) (now : Int) : Ages l (l.tick now) := by
  unfold ReconnectLoop.State.tick
  split
  · exact refl l
  · exact of_sub (Nat.le_refl _) fun _ ht => ht

theorem begin (l : ReconnectLoop.State) (target : Bool) (now : Int) : Ages l (l.begin target now) := by
  unfold ReconnectLoop.State.begin
  split
  · exact refl l
  · refine trans ?_ (scheduleNext _ _ _ (Nat.le_refl _))
    exact of_sub (Nat.le_succ _) fun _ ht => ht

theorem answered (l : ReconnectLoop.State) (dial : Dial) (outcome : Outcome) (now : Int) :
    Ages l (l.answered dial outcome now) := by
  unfold ReconnectLoop.State.answered
  dsimp only
  split
  · exact of_sub (Nat.le_refl _) fun _ ht => ht
  · rename_i hgen
    have hdial : dial.gen ≤ l.generation := Nat.le_of_eq (not_not.mp hgen)
    split
    · exact of_sub (Nat.le_refl _) fun _ ht => ht
    · refine trans ?_ (scheduleNext _ _ _ hdial)
      exact of_sub (Nat.le_refl _) fun _ ht => ht
    · exact of_sub (Nat.le_refl _) fun _ ht => ht

theorem dialStep (l : ReconnectLoop.State) (gen : Nat) (target : Bool) :
    Ages l (l.dialStep gen target) := by
  unfold ReconnectLoop.State.dialStep
  split
  · exact refl l
  · exact of_sub (Nat.le_refl _) fun _ ht => ht

theorem skipWait (l : ReconnectLoop.State) (target : Bool) : Ages l (l.skipWait target) :=
  (clearPendingStep l).trans (dialStep _ _ _)

theorem fired (l : ReconnectLoop.State) (timer : Timer) (target : Bool) :
    Ages l (l.fired timer target) := by
  unfold ReconnectLoop.State.fired
  refine trans ?_ (dialStep _ _ _)
  exact of_sub (Nat.le_refl _) fun _ ht => List.mem_of_mem_erase ht

end Ages

/-- A step of the loop dials in the generation of the loop, or does not dial. -/
theorem dialStep_dials (l : ReconnectLoop.State) (gen : Nat) (target : Bool) :
    (l.dialStep gen target).dials = l.dials ∨
      ∃ dial, (l.dialStep gen target).dials = l.dials ++ [dial] ∧ dial.gen = gen ∧
        gen = l.generation := by
  unfold ReconnectLoop.State.dialStep
  split
  · exact .inl rfl
  · rename_i hok
    have hgen : gen = l.generation := by
      by_contra hne
      exact hok (by simp [hne])
    exact .inr ⟨_, rfl, rfl, hgen⟩

/-- Once begun, the loop runs. -/
theorem begin_running (l : ReconnectLoop.State) (now : Int) : (l.begin true now).running := by
  unfold ReconnectLoop.State.begin
  split
  · rename_i hrun
    simpa using hrun
  · rfl

/-! ## 4. What the store keeps -/

def Caller.loopDial : Caller → Option Dial
  | .user => none
  | .loop dial => some dial

def Next.loopDial : Next → Option Dial
  | .plain => none
  | .replace caller => caller.loopDial

/-- The dial of the loop that waits for a call. -/
def Pending.loopDial : Pending Host → Option Dial
  | .dial _ next | .isAutoEnabled _ _ next | .startAuto _ _ next => next.loopDial
  | .closePrevious _ _ caller | .surfaces caller | .reconnectTransport _ caller => caller.loopDial
  | .bootstrap _ | .closeForDisconnect _ | .probe _ => none

/-- A dial of the loop is not ahead of its generation, and behind it after a `disconnect()`. -/
def State.DialAged (s : State Host Bootstrap) (asked : Nat) (dial : Option Dial) : Prop :=
  ∀ d, dial = some d → d.gen ≤ s.loop.generation ∧
    (asked < s.history.cancelledAt → d.gen < s.loop.generation)

structure Parked (s : State Host Bootstrap) (call : Call Host) : Prop where
  fresh : call.id < s.nextId
  dial : s.DialAged call.asked call.pending.loopDial
  owned : ∀ id caller, call.pending = .reconnectTransport id caller → s.transportOwnsRecovery = true
  closing : ∀ id, call.pending = .closeForDisconnect id → call.asked ≤ s.history.cancelledAt

/-- Where the latest dial stands. -/
def Stage (s : State Host Bootstrap) (answered : Option ConnectionId) : Pending Host → Prop
  | .dial host next =>
    answered = none ∧ s.activeHost = some host ∧ (next = .plain → s.connectionId = none)
  | .isAutoEnabled host id next | .startAuto host id next =>
    answered = some id ∧ s.activeHost = some host ∧
      (id, host, s.history.dials) ∈ s.history.answered ∧ (next = .plain → s.connectionId = none)
  | _ => True

structure Inv (s : State Host Bootstrap) : Prop where
  own : Own s
  closed : ∀ id host t, (id, host, t) ∈ s.history.answered →
    s.connectionId = some id ∨ id ∈ s.history.closed ∨ s.Restoring id
  /-- The connection is the latest dial's unless it is being replaced. -/
  latest : ∀ id, s.connectionId = some id → s.replacingConnectionId ≠ some id → s.FromLatest id
  blank : s.connectionId = none → s.replacingConnectionId = none ∧ s.bootstrap = none
  replaced : ∀ id, s.connectionId = some id → s.replacingConnectionId = some id →
    id ∈ s.history.closed ∨ s.Restoring id
  /-- While a dial is made, the connection that is shown is the one it replaces. -/
  guarded : ∀ id, s.history.current ≠ none → s.connectionId = some id →
    s.replacingConnectionId = some id
  stage : ∀ call ∈ s.calls, ∀ answered, s.history.current = some (call.id, answered) →
    Stage s answered call.pending ∧ s.history.cancelledAt ≤ call.asked
  parked : ∀ call ∈ s.calls, Parked s call
  current : ∀ n answered, s.history.current = some (n, answered) → n < s.nextId
  timers : ∀ timer ∈ s.loop.timers, timer.gen ≤ s.loop.generation
  stale : ∀ timer ∈ s.history.staleTimers, timer.gen < s.loop.generation
  transport : s.transportOwnsRecovery = true → s.replacingConnectionId = none
  cleared : s.history.clearedAt ≤ s.history.cancelledAt
  cancelled : s.history.cancelledAt ≤ s.history.clock

/-- Only the loop, the messages, the calls and the clock change, and `state` away from connected. -/
structure Quiet (s s' : State Host Bootstrap) : Prop where
  transport : s'.transportOwnsRecovery = s.transportOwnsRecovery
  connectionId : s'.connectionId = s.connectionId
  bootstrap : s'.bootstrap = s.bootstrap
  activeHost : s'.activeHost = s.activeHost
  replacing : s'.replacingConnectionId = s.replacingConnectionId
  state : s'.state = .connected → s.state = .connected
  subject : ∀ id, s'.history.subject = some id → s.history.subject = some id ∨ s.connectionId = some id
  clock : s.history.clock ≤ s'.history.clock
  history : s'.history =
    { s.history with clock := s'.history.clock, subject := s'.history.subject }
  loop : Ages s.loop s'.loop
  nextId : s.nextId ≤ s'.nextId
  calls : ∀ call ∈ s'.calls, call ∈ s.calls ∨ s.nextId ≤ call.id ∧ Parked s' call

def State.read (s : State Host Bootstrap) := (s.transportOwnsRecovery, s.connectionId, s.bootstrap, s.activeHost,
  s.replacingConnectionId, s.state, s.history, s.loop, s.nextId, s.calls)

namespace Quiet

variable {s s' s'' : State Host Bootstrap}

variable {id : ConnectionId}

theorem fromLatest (h : Quiet s s') : s'.FromLatest id ↔ s.FromLatest id := by
  unfold State.FromLatest
  rw [h.history, h.activeHost]

theorem restoring (h : Quiet s s') : s'.Restoring id ↔ s.Restoring id := by
  unfold State.Restoring
  rw [h.history]

theorem stage (h : Quiet s s') (answered : Option ConnectionId) (pending : Pending Host) :
    Stage s' answered pending ↔ Stage s answered pending := by
  unfold Stage
  rw [h.history, h.activeHost, h.connectionId]

theorem dialAged (h : Quiet s s') {asked : Nat} {dial : Option Dial} (hd : s.DialAged asked dial) :
    s'.DialAged asked dial := by
  intro d hsome
  obtain ⟨hle, hlt⟩ := hd d hsome
  refine ⟨Nat.le_trans hle h.loop.generation, fun hasked => ?_⟩
  rw [h.history] at hasked
  exact Nat.lt_of_lt_of_le (hlt hasked) h.loop.generation

theorem parked (h : Quiet s s') {call : Call Host} (hp : Parked s call) : Parked s' call := by
  refine ⟨Nat.lt_of_lt_of_le hp.fresh h.nextId, h.dialAged hp.dial, ?_, ?_⟩
  · rw [h.transport]
    exact hp.owned
  · rw [h.history]
    exact hp.closing

theorem own (h : Quiet s s') (hs : Own s) : Own s' := by
  refine ⟨?_, fun hstate => ?_, fun id hsubject => ?_, ?_⟩
  · rw [h.connectionId, h.activeHost, h.history]
    exact hs.connectionId
  · obtain ⟨id, hid, hlatest⟩ := hs.connected (h.state hstate)
    exact ⟨id, h.connectionId.trans hid, h.fromLatest.mpr hlatest⟩
  · rw [h.connectionId]
    rcases h.subject id hsubject with hsame | hid
    · exact hs.state id hsame
    · exact hid
  · rw [h.bootstrap, h.activeHost, h.history]
    exact hs.bootstrap

theorem inv (h : Quiet s s') (hs : Inv s) : Inv s' := by
  refine ⟨h.own hs.own, ?_, ?_, ?_, ?_, ?_, ?_, ?_, ?_, ?_, ?_, ?_, ?_, ?_⟩
  · intro id host t hmem
    rw [h.history] at hmem
    rw [h.connectionId, h.restoring, h.history]
    exact hs.closed id host t hmem
  · intro id
    rw [h.connectionId, h.replacing, h.fromLatest]
    exact hs.latest id
  · rw [h.connectionId, h.replacing, h.bootstrap]
    exact hs.blank
  · intro id
    rw [h.connectionId, h.replacing, h.restoring, h.history]
    exact hs.replaced id
  · rw [h.connectionId, h.replacing, h.history]
    exact hs.guarded
  · intro call hcall answered hcur
    rw [h.history] at hcur
    rw [h.stage, h.history]
    rcases h.calls call hcall with hold | ⟨hnew, -⟩
    · exact hs.stage call hold answered hcur
    · exact absurd (hs.current _ _ hcur) (Nat.not_lt_of_le hnew)
  · intro call hcall
    rcases h.calls call hcall with hold | ⟨-, hnew⟩
    · exact h.parked (hs.parked call hold)
    · exact hnew
  · intro n answered hcur
    rw [h.history] at hcur
    exact Nat.lt_of_lt_of_le (hs.current n answered hcur) h.nextId
  · exact h.loop.timers hs.timers
  · intro timer htimer
    rw [h.history] at htimer
    exact Nat.lt_of_lt_of_le (hs.stale timer htimer) h.loop.generation
  · rw [h.transport, h.replacing]
    exact hs.transport
  · rw [h.history]
    exact hs.cleared
  · refine Nat.le_trans ?_ h.clock
    rw [h.history]
    exact hs.cancelled

theorem refl (s : State Host Bootstrap) : Quiet s s :=
  ⟨rfl, rfl, rfl, rfl, rfl, id, fun _ h => .inl h, Nat.le_refl _, rfl, .refl _, Nat.le_refl _,
    fun _ h => .inl h⟩

theorem trans (h : Quiet s s') (h' : Quiet s' s'') : Quiet s s'' := by
  refine ⟨h'.transport.trans h.transport, h'.connectionId.trans h.connectionId,
    h'.bootstrap.trans h.bootstrap, h'.activeHost.trans h.activeHost,
    h'.replacing.trans h.replacing, fun hstate => h.state (h'.state hstate), fun id hsubject => ?_,
    Nat.le_trans h.clock h'.clock, ?_, h.loop.trans h'.loop, Nat.le_trans h.nextId h'.nextId,
    fun call hcall => ?_⟩
  · rcases h'.subject id hsubject with hsame | hid
    · exact h.subject id hsame
    · exact .inr (h.connectionId.symm.trans hid)
  · rw [h'.history, h.history]
  · rcases h'.calls call hcall with hold | ⟨hnew, hparked⟩
    · rcases h.calls call hold with hold | ⟨hnew, hparked⟩
      · exact .inl hold
      · exact .inr ⟨hnew, h'.parked hparked⟩
    · exact .inr ⟨Nat.le_trans h.nextId hnew, hparked⟩

/-! ## 5. Operations that the invariant does not see -/

/-- The fields the invariant reads are as before. -/
theorem of_same (h : s'.read = s.read) : Quiet s s' := by
  simp only [State.read, Prod.mk.injEq] at h
  obtain ⟨htransport, hid, hbootstrap, hhost, hreplacing, hstate, hhistory, hloop, hnext, hcalls⟩ := h
  refine ⟨htransport, hid, hbootstrap, hhost, hreplacing, fun h => hstate.symm.trans h, ?_, ?_, ?_,
    ?_, Nat.le_of_eq hnext.symm, fun call hcall => .inl ?_⟩
  · intro id hsubject
    rw [hhistory] at hsubject
    exact .inl hsubject
  · rw [hhistory]
  · rw [hhistory]
  · rw [hloop]
    exact .refl _
  · rw [hcalls] at hcall
    exact hcall

theorem withLoop {loop : ReconnectLoop.State} (h : Ages s.loop loop) : Quiet s { s with loop } :=
  ⟨rfl, rfl, rfl, rfl, rfl, id, fun _ hsubject => .inl hsubject, Nat.le_refl _, rfl, h,
    Nat.le_refl _, fun _ hcall => .inl hcall⟩

theorem setState {state : ConnectionState} {subject : Option ConnectionId}
    (hstate : state ≠ .connected) (hsubject : ∀ id, subject = some id → s.connectionId = some id) :
    Quiet s (s.setState state subject) :=
  ⟨rfl, rfl, rfl, rfl, rfl, fun h => absurd h hstate, fun id h => .inr (hsubject id h), Nat.le_refl _,
    rfl, .refl _, Nat.le_refl _, fun _ hcall => .inl hcall⟩

theorem park (asked : Nat) (pending : Pending Host)
    (hdial : s.DialAged asked pending.loopDial)
    (howned : ∀ id caller, pending = .reconnectTransport id caller → s.transportOwnsRecovery = true)
    (hclosing : ∀ id, pending = .closeForDisconnect id → asked ≤ s.history.cancelledAt) :
    Quiet s (s.park asked pending) := by
  refine ⟨rfl, rfl, rfl, rfl, rfl, id, fun _ hsubject => .inl hsubject, Nat.le_refl _, rfl,
    .refl _, Nat.le_succ _, fun call hcall => ?_⟩
  rcases List.mem_append.mp hcall with hold | hnew
  · exact .inl hold
  · obtain rfl := List.mem_singleton.mp hnew
    exact .inr ⟨Nat.le_refl _, Nat.lt_succ_self _, hdial, howned, hclosing⟩

theorem withoutCall (s : State Host Bootstrap) (id : Nat) : Quiet s (s.withoutCall id) :=
  ⟨rfl, rfl, rfl, rfl, rfl, fun h => h, fun _ hsubject => .inl hsubject, Nat.le_refl _, rfl,
    .refl _, Nat.le_refl _, fun _ hcall => .inl (List.mem_of_mem_filter hcall)⟩

theorem tick (s : State Host Bootstrap) : Quiet s s.tick :=
  ⟨rfl, rfl, rfl, rfl, rfl, id, fun _ hsubject => .inl hsubject, Nat.le_succ _, rfl, .refl _,
    Nat.le_refl _, fun _ hcall => .inl hcall⟩

theorem surfaces (asked : Nat) (caller : Caller) (hdial : s.DialAged asked caller.loopDial) :
    Quiet s (s.park asked (.surfaces caller)) :=
  park _ _ hdial (fun _ _ h => by cases h) fun _ h => by cases h

theorem dialReturned (s : State Host Bootstrap) (dial : Dial) (ok : Bool) (now : Int) :
    Quiet s (s.dialReturned dial ok now) := by
  have hloop := Ages.answered s.loop dial (if ok then .up else .down) now
  unfold State.dialReturned
  split
  · exact refl s
  · dsimp only
    generalize s.loop.answered dial (if ok = true then Outcome.up else Outcome.down) now = loop
      at hloop ⊢
    split
    · exact withLoop hloop
    · split
      · exact (withLoop hloop).trans (setState (by decide) fun _ h => by cases h)
      · have hmessage : Quiet { s with loop } { s with loop, error := some State.giveUpText } :=
          of_same rfl
        exact ((withLoop hloop).trans hmessage).trans (setState (by decide) fun _ h => by cases h)

theorem reconnectReturns (s : State Host Bootstrap) (caller : Caller) (ok : Bool) (now : Int) :
    Quiet s (s.reconnectReturns caller ok now) := by
  cases caller with
  | user => exact refl s
  | loop dial => exact dialReturned s dial ok now

theorem connectReturns (s : State Host Bootstrap) (asked : Nat) (next : Next) (now : Int) :
    Quiet s (s.connectReturns asked next false now) := by
  cases next with
  | plain => exact refl s
  | replace caller => exact reconnectReturns s caller false now

theorem linkLost (hid : s.connectionId = some id) (now : Int) : Quiet s (s.linkLost id now) := by
  have hloop : Quiet s { s with loop := s.loop.begin s.hasTarget now } := withLoop (.begin _ _ _)
  have hmessage : Quiet { s with loop := s.loop.begin s.hasTarget now }
      { s with loop := s.loop.begin s.hasTarget now, error := some State.connectionLost } :=
    of_same rfl
  refine (hloop.trans hmessage).trans (setState (by decide) fun id' hid' => ?_)
  rw [← hid']
  exact hid

theorem onOsResume (s : State Host Bootstrap) : Quiet s s.onOsResume := by
  unfold State.onOsResume
  split
  · exact refl s
  · split
    · exact refl s
    · exact park _ _ (fun _ h => by cases h) (fun _ _ h => by cases h) fun _ h => by cases h

theorem reconnectThroughTransport {asked : Nat} {caller : Caller} (now : Int)
    (htransport : s.transportOwnsRecovery = true) (hdial : s.DialAged asked caller.loopDial) :
    Quiet s (s.reconnectThroughTransport asked caller now) := by
  unfold State.reconnectThroughTransport
  split
  · exact reconnectReturns s caller false now
  · exact park _ _ hdial (fun _ _ _ => htransport) fun _ h => by cases h

end Quiet

theorem Inv.of_same {s s' : State Host Bootstrap} (hs : Inv s) (h : s'.read = s.read) : Inv s' :=
  (Quiet.of_same h).inv hs

/-! ## 6. The stages of a dial -/

section Dials

variable {s s' : State Host Bootstrap} {asked : Nat} {host : Host} {id : ConnectionId} {next : Next}
  {now : Int}

variable {call : Call Host}

theorem Parked.of_frame (h : Parked s call) (hnext : s.nextId ≤ s'.nextId)
    (hgen : s.loop.generation ≤ s'.loop.generation)
    (hcancelled : s'.history.cancelledAt = s.history.cancelledAt)
    (htransport : s'.transportOwnsRecovery = s.transportOwnsRecovery) : Parked s' call := by
  refine ⟨Nat.lt_of_lt_of_le h.fresh hnext, fun d hd => ?_, ?_, ?_⟩
  · obtain ⟨hle, hlt⟩ := h.dial d hd
    refine ⟨Nat.le_trans hle hgen, fun hasked => ?_⟩
    rw [hcancelled] at hasked
    exact Nat.lt_of_lt_of_le (hlt hasked) hgen
  · rw [htransport]
    exact h.owned
  · rw [hcancelled]
    exact h.closing

/-- The calls once a stage of a dial has been parked. -/
theorem parked_stage (hs : ∀ call ∈ s.calls, Parked s call) {pending : Pending Host}
    (hdial : s.DialAged asked pending.loopDial)
    (howned : ∀ id caller, pending ≠ .reconnectTransport id caller)
    (hclosing : ∀ id, pending ≠ .closeForDisconnect id)
    (hnext : s'.nextId = s.nextId + 1) (hgen : s'.loop.generation = s.loop.generation)
    (hcancelled : s'.history.cancelledAt = s.history.cancelledAt)
    (htransport : s'.transportOwnsRecovery = s.transportOwnsRecovery) :
    ∀ call ∈ s.calls ++ [⟨s.nextId, asked, pending⟩], Parked s' call := by
  intro call hcall
  rcases List.mem_append.mp hcall with hold | hnew
  · exact (hs call hold).of_frame (by omega) (Nat.le_of_eq hgen.symm) hcancelled htransport
  · obtain rfl := List.mem_singleton.mp hnew
    refine ⟨by rw [hnext]; exact Nat.lt_succ_self _, ?_, fun id caller h => absurd h (howned id caller),
      fun id h => absurd h (hclosing id)⟩
    intro d hd
    rw [hgen, hcancelled]
    exact hdial d hd

/-- The only call of the latest dial is the one that was parked last. -/
theorem stage_last (hs : ∀ call ∈ s.calls, Parked s call) {pending : Pending Host}
    {answered : Option ConnectionId} (hstage : Stage s' answered pending)
    (hasked : s'.history.cancelledAt ≤ asked) :
    ∀ call ∈ s.calls ++ [⟨s.nextId, asked, pending⟩], ∀ answered',
      some (s.nextId, answered) = some (call.id, answered') →
        Stage s' answered' call.pending ∧ s'.history.cancelledAt ≤ call.asked := by
  intro call hcall answered' hcur
  obtain ⟨hid, rfl⟩ := Prod.mk.inj (Option.some.inj hcur)
  rcases List.mem_append.mp hcall with hold | hnew
  · exact absurd (hs call hold).fresh (by omega)
  · obtain rfl := List.mem_singleton.mp hnew
    exact ⟨hstage, hasked⟩

theorem Inv.shown_or_closed (hs : Inv s) (hrest : NotRestoring s) {t : Nat}
    (hmem : (id, host, t) ∈ s.history.answered) : s.connectionId = some id ∨ id ∈ s.history.closed :=
  (hs.closed id host t hmem).imp_right fun h => h.resolve_right (hrest id)

theorem Inv.replaced_closed (hs : Inv s) (hrest : NotRestoring s) (hid : s.connectionId = some id)
    (hrep : s.replacingConnectionId = some id) : id ∈ s.history.closed :=
  (hs.replaced id hid hrep).resolve_right (hrest id)

theorem inv_connect (hs : Inv s) {path : Option Text}
    (hreplacing : ∀ id, s.connectionId = some id → s.replacingConnectionId = some id)
    (hhost : ∀ id, s.connectionId = some id → s.activeHost = some host) (hrest : NotRestoring s)
    (hplain : next = .plain → s.connectionId = none) (hasked : s.history.cancelledAt ≤ asked)
    (hdial : s.DialAged asked next.loopDial) : Inv (s.connect asked host path next) := by
  refine ⟨⟨fun id hid => ?_, fun h => (by cases h), fun _ h => (by cases h), fun b hb => ?_⟩,
    fun id host t hmem => ?_, fun id hid hne => absurd (hreplacing id hid) hne, hs.blank,
    fun id hid hrep => ?_, fun id _ => hreplacing id, stage_last hs.parked ⟨rfl, rfl, hplain⟩ hasked,
    parked_stage hs.parked hdial (fun _ _ h => by cases h) (fun _ h => by cases h) rfl rfl rfl rfl,
    fun n answered hcur => ?_, hs.timers, hs.stale, hs.transport, hs.cleared, hs.cancelled⟩
  · obtain ⟨host', t, hactive, hmem⟩ := hs.own.connectionId id hid
    rw [hhost id hid] at hactive
    exact ⟨host', t, hactive, hmem⟩
  · cases hid : s.connectionId with
    | none =>
      have hnone : s.bootstrap = none := (hs.blank hid).2
      exact absurd (hnone.symm.trans hb) (by simp)
    | some id =>
      obtain ⟨id', host', t, hactive, hmem, hreport⟩ := hs.own.bootstrap b hb
      rw [hhost id hid] at hactive
      exact ⟨id', host', t, hactive, hmem, hreport⟩
  · exact (hs.shown_or_closed hrest hmem).imp_right .inl
  · exact .inl (hs.replaced_closed hrest hid hrep)
  · obtain ⟨rfl, -⟩ := Prod.mk.inj (Option.some.inj hcur)
    exact Nat.lt_succ_self _

variable {n : Nat}

theorem inv_dialAnswered (hs : Inv s) (hcur : s.history.current = some (n, none))
    (hhost : s.activeHost = some host) (hplain : next = .plain → s.connectionId = none)
    (hasked : s.history.cancelledAt ≤ asked) (hdial : s.DialAged asked next.loopDial)
    (id : ConnectionId) : Inv (s.dialAnswered asked host id next) := by
  have hrest : NotRestoring s := by
    rintro id ⟨n', hn'⟩
    rw [hcur] at hn'
    cases hn'
  have hclosed : ∀ id', id' ∈ s.history.closed → id' ∈ s.history.closed.filter (· ≠ id) ∨ id' = id := by
    intro id' hmem
    by_cases heq : id' = id
    · exact .inr heq
    · exact .inl (List.mem_filter.mpr ⟨hmem, by simpa using heq⟩)
  refine ⟨⟨fun id' hid => ?_, fun hstate => ?_, hs.own.state, fun b hb => ?_⟩,
    fun id' host' t hmem => ?_, fun id' hid hne => ?_, hs.blank, fun id' hid hrep => ?_,
    fun id' _ => hs.guarded id' (by rw [hcur]; simp),
    stage_last hs.parked ⟨rfl, hhost, List.mem_cons_self, hplain⟩ hasked,
    parked_stage hs.parked hdial (fun _ _ h => by cases h) (fun _ h => by cases h) rfl rfl rfl rfl,
    fun n answered hcur' => ?_, hs.timers, hs.stale, hs.transport, hs.cleared, hs.cancelled⟩
  · obtain ⟨host', t, hactive, hmem⟩ := hs.own.connectionId id' hid
    exact ⟨host', t, hactive, List.mem_cons_of_mem _ hmem⟩
  · obtain ⟨id', hid, host', hactive, hmem⟩ := hs.own.connected hstate
    exact ⟨id', hid, host', hactive, List.mem_cons_of_mem _ hmem⟩
  · obtain ⟨id', host', t, hactive, hmem, hreport⟩ := hs.own.bootstrap b hb
    exact ⟨id', host', t, hactive, List.mem_cons_of_mem _ hmem, hreport⟩
  · rcases List.mem_cons.mp hmem with hnew | hold
    · obtain ⟨rfl, -⟩ := Prod.mk.inj hnew
      exact .inr (.inr ⟨_, rfl⟩)
    · rcases hs.closed id' host' t hold with hid | hmem' | hrestoring
      · exact .inl hid
      · rcases hclosed id' hmem' with hkept | rfl
        · exact .inr (.inl hkept)
        · exact .inr (.inr ⟨_, rfl⟩)
      · exact absurd hrestoring (hrest id')
  · obtain ⟨host', hactive, hmem⟩ := hs.latest id' hid hne
    exact ⟨host', hactive, List.mem_cons_of_mem _ hmem⟩
  · rcases hs.replaced id' hid hrep with hmem' | hrestoring
    · rcases hclosed id' hmem' with hkept | rfl
      · exact .inl hkept
      · exact .inr ⟨_, rfl⟩
    · exact absurd hrestoring (hrest id')
  · obtain ⟨rfl, -⟩ := Prod.mk.inj (Option.some.inj hcur')
    exact Nat.lt_succ_self _

theorem inv_startAuto (hs : Inv s) (hcur : s.history.current = some (n, some id))
    (hstage : Stage s (some id) (.isAutoEnabled host id next))
    (hasked : s.history.cancelledAt ≤ asked) (hdial : s.DialAged asked next.loopDial) :
    Inv (s.parkDial asked (.startAuto host id next) (some id)) := by
  have hrestoring : ∀ id', s.Restoring id' → id' = id := by
    rintro id' ⟨n', hn'⟩
    rw [hcur] at hn'
    exact (Option.some.inj (Prod.mk.inj (Option.some.inj hn')).2).symm
  refine ⟨⟨hs.own.connectionId, hs.own.connected, hs.own.state, hs.own.bootstrap⟩,
    fun id' host' t hmem => ?_, hs.latest, hs.blank, fun id' hid hrep => ?_,
    fun id' _ => hs.guarded id' (by rw [hcur]; simp), stage_last hs.parked hstage hasked,
    parked_stage hs.parked hdial (fun _ _ h => by cases h) (fun _ h => by cases h) rfl rfl rfl rfl,
    fun n answered hcur' => ?_, hs.timers, hs.stale, hs.transport, hs.cleared, hs.cancelled⟩
  · rcases hs.closed id' host' t hmem with hid | hclosed | hrest
    · exact .inl hid
    · exact .inr (.inl hclosed)
    · exact .inr (.inr ⟨_, by rw [hrestoring id' hrest]; rfl⟩)
  · rcases hs.replaced id' hid hrep with hclosed | hrest
    · exact .inl hclosed
    · exact .inr ⟨_, by rw [hrestoring id' hrest]; rfl⟩
  · obtain ⟨rfl, -⟩ := Prod.mk.inj (Option.some.inj hcur')
    exact Nat.lt_succ_self _

/-- The new connection is visible, and nothing is replaced any more. -/
theorem inv_committed (hs : Inv s) (hcur : s.history.current = some (n, some id))
    (hhost : s.activeHost = some host) (hmem : (id, host, s.history.dials) ∈ s.history.answered) :
    Inv { s.dialOver (some id) with
      connectionId := some id, state := .connected, replacingConnectionId := none } := by
  have hlatest : ∃ host, s.activeHost = some host ∧
      (id, host, s.history.dials) ∈ s.history.answered := ⟨host, hhost, hmem⟩
  have hold : ∀ id', s.connectionId = some id' → id' ∈ s.history.closed ∨ s.Restoring id' :=
    fun id' hid => hs.replaced id' hid (hs.guarded id' (by rw [hcur]; simp) hid)
  refine ⟨⟨fun id' hid => ?_, fun _ => ⟨id, rfl, hlatest⟩, fun id' hid => hid, hs.own.bootstrap⟩,
    fun id' host' t hmem' => ?_, fun id' hid _ => ?_, fun h => (by cases h), fun id' _ h => (by cases h),
    fun _ h => absurd rfl h, fun _ _ _ h => (by cases h),
    fun call hcall => (hs.parked call hcall).of_frame (Nat.le_refl _) (Nat.le_refl _) rfl rfl,
    fun _ _ h => (by cases h), hs.timers, hs.stale, fun _ => rfl, hs.cleared, hs.cancelled⟩
  · obtain rfl := Option.some.inj hid
    exact ⟨host, _, hhost, hmem⟩
  · have hcases : id' ∈ s.history.closed ∨ s.Restoring id' := by
      rcases hs.closed id' host' t hmem' with hid | hclosed
      · exact hold id' hid
      · exact hclosed
    rcases hcases with hclosed | ⟨n', hn'⟩
    · exact .inr (.inl hclosed)
    · rw [hcur] at hn'
      obtain ⟨-, heq⟩ := Prod.mk.inj (Option.some.inj hn')
      exact .inl heq
  · obtain rfl := Option.some.inj hid
    exact hlatest

theorem inv_commit (hs : Inv s) (hcur : s.history.current = some (n, some id))
    (hhost : s.activeHost = some host) (hmem : (id, host, s.history.dials) ∈ s.history.answered)
    (hplain : next = .plain → s.connectionId = none) (hdial : s.DialAged asked next.loopDial)
    (now : Int) : Inv (s.commit asked id next now) := by
  have hinv := inv_committed hs hcur hhost hmem
  have hparked := (Quiet.park asked (.bootstrap id) (fun _ h => by cases h)
    (fun _ _ h => by cases h) fun _ h => by cases h).inv hinv
  cases next with
  | plain =>
    have hnone : s.replacingConnectionId = none := (hs.blank (hplain rfl)).1
    unfold State.commit State.connectReturns State.dialOver
    unfold State.dialOver at hparked
    rw [← hnone] at hparked
    exact hparked
  | replace caller =>
    have hloop := (Quiet.withLoop (Ages.succeeded _)).inv hparked
    refine (Quiet.surfaces asked caller ?_).inv hloop
    exact hdial

theorem inv_dialFailed (hs : Inv s) (hcur : s.history.current = some (n, none))
    (message : Text) (kind : Option Text) (now : Int) :
    Inv (s.dialFailed asked next message kind now) := by
  have hrest : NotRestoring s := by
    rintro id ⟨n', hn'⟩
    rw [hcur] at hn'
    cases hn'
  refine (Quiet.connectReturns _ asked next now).inv ?_
  refine ⟨⟨hs.own.connectionId, fun h => (by cases h), fun _ h => (by cases h), hs.own.bootstrap⟩,
    fun id host t hmem => ?_, hs.latest, hs.blank, fun id hid hrep => ?_,
    fun _ h => absurd rfl h, fun _ _ _ h => (by cases h),
    fun call hcall => (hs.parked call hcall).of_frame (Nat.le_refl _) (Nat.le_refl _) rfl rfl,
    fun _ _ h => (by cases h), hs.timers, hs.stale, hs.transport, hs.cleared, hs.cancelled⟩
  · exact (hs.shown_or_closed hrest hmem).imp_right .inl
  · exact .inl (hs.replaced_closed hrest hid hrep)

/-! ## 7. Re-dials, events and disconnecting -/

variable {caller : Caller}

theorem inv_reconnect (hs : Inv s) (hasked : s.history.cancelledAt ≤ asked)
    (hdial : s.DialAged asked caller.loopDial) (hrest : s.connectionId = none → NotRestoring s)
    (now : Int) : Inv (s.reconnect asked caller now) := by
  unfold State.reconnect
  split
  · exact (Quiet.reconnectReturns s caller false now).inv hs
  · rename_i host hhost
    split
    · rename_i htransport
      exact (Quiet.reconnectThroughTransport now htransport hdial).inv hs
    · rename_i htransport
      dsimp only
      have hcleared := (Quiet.withLoop (Ages.clearPendingStep s.loop)).inv hs
      have hdial' : ({ s with loop := s.loop.clearPendingStep } : State Host Bootstrap).DialAged asked
          caller.loopDial := (Quiet.withLoop (Ages.clearPendingStep s.loop)).dialAged hdial
      split
      · rename_i hnone
        exact inv_connect hcleared (fun id hid => by rw [hnone] at hid; cases hid)
          (fun id hid => by rw [hnone] at hid; cases hid) (hrest hnone) (fun h => by cases h) hasked
          hdial'
      · rename_i previous hprevious
        refine (Quiet.park asked (.closePrevious host previous caller) ?_
          (fun _ _ h => by cases h) fun _ h => by cases h).inv ?_
        · exact hdial'
        · have hid : s.connectionId = some previous := hprevious
          refine ⟨⟨hs.own.connectionId, hs.own.connected, hs.own.state, hs.own.bootstrap⟩,
            fun id host t hmem => ?_, fun id h hne => ?_, fun h => ?_, fun id h _ => ?_,
            fun id _ h => ?_, hs.stage, fun call hcall => (hcleared.parked call hcall).of_frame
              (Nat.le_refl _) (Nat.le_refl _) rfl rfl, hs.current, hcleared.timers, hcleared.stale,
            fun h => absurd h htransport, hs.cleared, hs.cancelled⟩
          · rcases hs.closed id host t hmem with hshown | hclosed | hrestoring
            · exact .inl hshown
            · exact .inr (.inl (List.mem_cons_of_mem _ hclosed))
            · exact .inr (.inr hrestoring)
          · exact absurd (hid.symm.trans h) hne
          · exact absurd (hid.symm.trans h) (by simp)
          · obtain rfl := Option.some.inj (hid.symm.trans h)
            exact .inl List.mem_cons_self
          · exact hid.symm.trans h

/-- The loop dials at most once in a step. -/
theorem inv_loopStepped (hs : Inv s) {loop : ReconnectLoop.State} (hages : Ages s.loop loop)
    (hdials : loop.dials = s.loop.dials ∨ ∃ dial, loop.dials = s.loop.dials ++ [dial] ∧
      dial.gen ≤ loop.generation ∧ (s.connectionId = none → NotRestoring s))
    (hasked : s.history.cancelledAt ≤ asked) (now : Int) : Inv (s.loopStepped asked loop now) := by
  have hloop := (Quiet.withLoop hages).inv hs
  unfold State.loopStepped
  rcases hdials with hsame | ⟨dial, happend, hgen, hrest⟩
  · rw [hsame, if_neg (Nat.lt_irrefl _)]
    exact hloop
  · have hlast : loop.dials.getLast? = some dial := by rw [happend]; simp
    have hlonger : s.loop.dials.length < loop.dials.length := by rw [happend]; simp
    rw [if_pos hlonger, hlast]
    refine inv_reconnect hloop hasked ?_ hrest now
    intro d hd
    obtain rfl := Option.some.inj hd
    exact ⟨hgen, fun hold => absurd hold (Nat.not_lt_of_le hasked)⟩

theorem inv_retryNow (hs : Inv s) (hasked : s.history.cancelledAt ≤ asked)
    (hrest : s.connectionId = none → NotRestoring s) (now : Int) : Inv (s.retryNow asked now) := by
  unfold State.retryNow
  split
  · exact inv_reconnect hs hasked (fun _ h => by cases h) hrest now
  · refine inv_loopStepped hs (.skipWait _ _) ?_ hasked now
    have hclear : s.loop.clearPendingStep.dials = s.loop.dials ∧
        s.loop.clearPendingStep.generation = s.loop.generation := by
      rw [ReconnectLoop.clearPendingStep_eq]
      exact ⟨rfl, rfl⟩
    unfold ReconnectLoop.State.skipWait
    rcases dialStep_dials s.loop.clearPendingStep s.loop.generation s.hasTarget with
      hsame | ⟨dial, happend, hgen, -⟩
    · exact .inl (hsame.trans hclear.1)
    · rw [hclear.1] at happend
      refine .inr ⟨dial, happend, ?_, hrest⟩
      rw [hgen, ← hclear.2]
      exact (Ages.dialStep _ _ _).generation

theorem inv_fired (hs : Inv s) {timer : Timer}
    (hrest : timer.gen = s.loop.generation → s.connectionId = none → NotRestoring s) (now : Int) :
    Inv (s.fired timer now) := by
  unfold State.fired
  split
  · refine inv_loopStepped hs (.fired _ _ _) ?_ hs.cancelled now
    unfold ReconnectLoop.State.fired
    dsimp only
    rcases dialStep_dials _ timer.gen s.hasTarget with hsame | ⟨dial, happend, hgen, hcur⟩
    · exact .inl hsame
    · refine .inr ⟨dial, happend, ?_, hrest hcur⟩
      rw [hgen, hcur]
      exact (Ages.dialStep _ _ _).generation
  · exact hs

theorem inv_probed (hs : Inv s) (hid : s.connectionId = some id)
    (hasked : s.history.cancelledAt ≤ asked) (healthy : Bool) (now : Int) :
    Inv (s.probed asked id healthy now) := by
  unfold State.probed
  split
  · exact hs
  · have hquiet := Quiet.linkLost hid now
    refine inv_retryNow (hquiet.inv hs) ?_ ?_ now
    · exact hasked
    · intro hnone
      exact absurd (hid.symm.trans hnone) (by simp)

/-- The connection the store shows, when it is not being replaced, is connected again. -/
theorem inv_connected (hs : Inv s) (hid : s.connectionId = some id)
    (hreplacing : s.replacingConnectionId ≠ some id) :
    Inv (s.setState .connected (some id)) := by
  refine ⟨⟨hs.own.connectionId, fun _ => ⟨id, hid, hs.latest id hid hreplacing⟩, fun id' h => ?_,
    hs.own.bootstrap⟩, hs.closed, hs.latest, hs.blank, hs.replaced, hs.guarded, hs.stage,
    fun call hcall => (hs.parked call hcall).of_frame (Nat.le_refl _) (Nat.le_refl _) rfl rfl,
    hs.current, hs.timers, hs.stale, hs.transport, hs.cleared, hs.cancelled⟩
  obtain rfl := Option.some.inj h
  exact hid

theorem inv_setState (hs : Inv s) (hid : s.connectionId = some id)
    (hreplacing : s.replacingConnectionId ≠ some id) (state : ConnectionState) :
    Inv (s.setState state (some id)) := by
  by_cases hstate : state = .connected
  · subst hstate
    exact inv_connected hs hid hreplacing
  · refine (Quiet.setState hstate fun id' h => ?_).inv hs
    obtain rfl := Option.some.inj h
    exact hid

theorem inv_onState (hs : Inv s) (event : StateEvent) (now : Int) : Inv (s.onState event now) := by
  unfold State.onState
  split
  · exact hs
  · rename_i hown
    rw [not_or, not_not] at hown
    obtain ⟨hid, hreplacing⟩ := hown
    have hset := inv_setState hs hid hreplacing event.state
    split
    · unfold State.followTransportRecovery
      dsimp only
      split
      · exact hset.of_same rfl
      · split
        · exact hset.of_same rfl
        · split
          · refine (Quiet.surfaces _ .user fun _ h => by cases h).inv ?_
            exact hset.of_same rfl
          · exact hset.of_same rfl
    · split
      · exact (Quiet.linkLost hid now).inv hs
      · exact hset

theorem inv_disconnected (hs : Inv s) (hcur : s.history.current = none)
    (hclosed : ∀ id, s.connectionId = some id → id ∈ s.history.closed)
    (hasked : asked ≤ s.history.cancelledAt) : Inv (s.disconnected asked) := by
  have hrest : NotRestoring s := by
    rintro id ⟨n, hn⟩
    rw [hcur] at hn
    cases hn
  refine ⟨⟨fun _ h => (by cases h), fun h => (by cases h), fun _ h => (by cases h),
    fun _ h => (by cases h)⟩, fun id host t hmem => ?_, fun _ h => (by cases h), fun _ => ⟨rfl, rfl⟩,
    fun _ h => (by cases h), fun _ _ h => (by cases h), fun call hcall answered h => ?_,
    fun call hcall => (hs.parked call hcall).of_frame (Nat.le_refl _) (Nat.le_refl _) rfl rfl,
    hs.current, hs.timers, hs.stale, fun _ => rfl, max_le hs.cleared hasked, hs.cancelled⟩
  · exact .inr (.inl ((hs.shown_or_closed hrest hmem).elim (hclosed id) fun h => h))
  · exact absurd (hcur.symm.trans h) (by simp)

theorem inv_cancelled (hs : Inv s) (hrest : NotRestoring s) : Inv s.cancelled := by
  have hgen : s.cancelled.loop.generation = s.loop.generation + 1 := by
    unfold State.cancelled
    rw [ReconnectLoop.cancel_eq]
  have htimers : ∀ timer ∈ s.cancelled.loop.timers, timer.gen ≤ s.loop.generation := by
    intro timer htimer
    unfold State.cancelled at htimer
    rw [ReconnectLoop.cancel_eq] at htimer
    exact hs.timers timer (List.mem_of_mem_filter htimer)
  refine ⟨⟨hs.own.connectionId, hs.own.connected, hs.own.state, hs.own.bootstrap⟩,
    fun id host t hmem => ?_, hs.latest, hs.blank, fun id hid hrep => ?_, fun _ h => absurd rfl h,
    fun _ _ _ h => (by cases h), fun call hcall => ?_, fun _ _ h => (by cases h),
    fun timer htimer => ?_, fun timer htimer => ?_, hs.transport,
    Nat.le_trans hs.cleared hs.cancelled, Nat.le_refl _⟩
  · exact (hs.shown_or_closed hrest hmem).imp_right .inl
  · exact .inl (hs.replaced_closed hrest hid hrep)
  · have hp := hs.parked call hcall
    refine ⟨hp.fresh, fun d hd => ?_, hp.owned, fun id hclosing => ?_⟩
    · have hlt : d.gen < s.cancelled.loop.generation := by
        rw [hgen]
        exact Nat.lt_succ_of_le (hp.dial d hd).1
      exact ⟨Nat.le_of_lt hlt, fun _ => hlt⟩
    · exact Nat.le_trans (hp.closing id hclosing) hs.cancelled
  · rw [hgen]
    exact Nat.le_succ_of_le (htimers timer htimer)
  · rw [hgen]
    rcases List.mem_append.mp htimer with hnew | hold
    · exact Nat.lt_succ_of_le (htimers timer hnew)
    · exact Nat.lt_succ_of_lt (hs.stale timer hold)

theorem inv_disconnect (hs : Inv s) (hrest : NotRestoring s) : Inv s.disconnect := by
  have hcancelled := inv_cancelled hs hrest
  unfold State.disconnect
  split
  · rename_i hnone
    refine inv_disconnected hcancelled rfl (fun id hid => ?_) (Nat.le_refl _)
    exact absurd (hnone.symm.trans hid) (by simp)
  · rename_i id hid
    refine (Quiet.park _ (.closeForDisconnect id) (fun _ h => by cases h)
      (fun _ _ h => by cases h) fun _ _ => Nat.le_refl _).inv ?_
    refine ⟨⟨hcancelled.own.connectionId, hcancelled.own.connected, hcancelled.own.state,
      hcancelled.own.bootstrap⟩, fun id' host t hmem => ?_, hcancelled.latest, hcancelled.blank,
      fun id' hid' hrep => ?_, hcancelled.guarded, hcancelled.stage,
      fun call hcall => (hcancelled.parked call hcall).of_frame (Nat.le_refl _) (Nat.le_refl _) rfl rfl,
      hcancelled.current, hcancelled.timers, hcancelled.stale, hcancelled.transport, hcancelled.cleared,
      hcancelled.cancelled⟩
    · rcases hcancelled.closed id' host t hmem with hshown | hclosed | hrestoring
      · exact .inl hshown
      · exact .inr (.inl (List.mem_cons_of_mem _ hclosed))
      · exact .inr (.inr hrestoring)
    · rcases hcancelled.replaced id' hid' hrep with hclosed | hrestoring
      · exact .inl (List.mem_cons_of_mem _ hclosed)
      · exact .inr hrestoring

theorem inv_reported (hs : Inv s) (hid : s.connectionId = some id) (report : Bootstrap) :
    Inv { s with
      bootstrap := some report,
      history := { s.history with reports := (report, id) :: s.history.reports } } := by
  refine ⟨⟨hs.own.connectionId, hs.own.connected, hs.own.state, fun b hb => ?_⟩, hs.closed, hs.latest,
    fun hnone => absurd (hid.symm.trans hnone) (by simp), hs.replaced, hs.guarded, hs.stage,
    fun call hcall => (hs.parked call hcall).of_frame (Nat.le_refl _) (Nat.le_refl _) rfl rfl,
    hs.current, hs.timers, hs.stale, hs.transport, hs.cleared, hs.cancelled⟩
  obtain rfl := Option.some.inj hb
  obtain ⟨host, t, hactive, hmem⟩ := hs.own.connectionId id hid
  exact ⟨id, host, t, hactive, hmem, List.mem_cons_self⟩

theorem inv_transportAnswered (hs : Inv s) (htransport : s.transportOwnsRecovery = true)
    (hdial : s.DialAged asked caller.loopDial) (ok : Bool) (now : Int) :
    Inv (s.transportAnswered asked id caller ok now) := by
  unfold State.transportAnswered
  split
  · exact (Quiet.reconnectReturns s caller false now).inv hs
  · rename_i hne
    have hid : s.connectionId = some id := not_not.mp hne
    have hreplacing : s.replacingConnectionId ≠ some id := by rw [hs.transport htransport]; simp
    split
    · have hconnected := inv_connected hs hid hreplacing
      refine (Quiet.surfaces asked caller ?_).inv
        (hconnected.of_same rfl)
      exact hdial
    · split
      · exact (Quiet.reconnectReturns s caller false now).inv hs
      · exact (Quiet.reconnectReturns _ caller false now).inv (inv_setState hs hid hreplacing .lost)

/-! ## 8. Steps -/

theorem inv_resume (hs : Inv s) {answer : Answer Bootstrap}
    (hstage : ∀ answered, s.history.current = some (call.id, answered) →
      Stage s answered call.pending ∧ s.history.cancelledAt ≤ call.asked)
    (hparked : Parked s call) (hprudent : PrudentReply s call answer) (now : Int) :
    Inv (s.resume call answer now) := by
  have hdial := hparked.dial
  have howned := hparked.owned
  have hclosing := hparked.closing
  unfold PrudentReply at hprudent
  unfold State.resume
  -- one case for each await; an answer of another kind resumes nothing
  cases hpending : call.pending with
  | dial host next =>
    rw [hpending] at hstage hdial hprudent
    obtain ⟨answered, hcur⟩ := hprudent
    obtain ⟨⟨rfl, hhost, hplain⟩, hasked⟩ := hstage answered hcur
    cases answer with
    | connected id => exact inv_dialAnswered hs hcur hhost hplain hasked hdial id
    | refused message kind => exact inv_dialFailed hs hcur _ _ now
    | failed message => exact inv_dialFailed hs hcur _ _ now
    | flag _ | report _ | done => exact hs
  | isAutoEnabled host id next =>
    rw [hpending] at hstage hdial hprudent
    obtain ⟨answered, hcur⟩ := hprudent
    obtain ⟨⟨rfl, hhost, hmem, hplain⟩, hasked⟩ := hstage answered hcur
    cases answer with
    | flag enabled =>
      cases enabled with
      | true => exact inv_startAuto hs hcur ⟨rfl, hhost, hmem, hplain⟩ hasked hdial
      | false => exact inv_commit hs hcur hhost hmem hplain hdial now
    | failed message => exact inv_commit hs hcur hhost hmem hplain hdial now
    | connected _ | refused _ _ | report _ | done => exact hs
  | startAuto host id next =>
    rw [hpending] at hstage hdial hprudent
    obtain ⟨answered, hcur⟩ := hprudent
    obtain ⟨⟨rfl, hhost, hmem, hplain⟩, -⟩ := hstage answered hcur
    cases answer with
    | done => exact inv_commit hs hcur hhost hmem hplain hdial now
    | failed message => exact inv_commit hs hcur hhost hmem hplain hdial now
    | connected _ | refused _ _ | report _ | flag _ => exact hs
  | bootstrap id =>
    rw [hpending] at hprudent
    cases answer with
    | report report => exact inv_reported hs hprudent.1 report
    | connected _ | refused _ _ | flag _ | done | failed _ => exact hs
  | closePrevious host previous caller =>
    rw [hpending] at hdial hprudent
    obtain ⟨hid, hreplacing, hhost, hrest, hsince⟩ := hprudent
    -- the close of the previous connection may fail: the dial goes out either way
    have hconnect : Inv (s.connect call.asked host s.lastKeyPath (.replace caller)) := by
      refine inv_connect hs (fun id h => ?_) (fun _ _ => hhost) hrest (fun h => by cases h) hsince hdial
      rw [← h, hid]
      exact hreplacing
    cases answer with
    | done => exact hconnect
    | failed message => exact hconnect
    | connected _ | refused _ _ | flag _ | report _ => exact hs
  | surfaces caller =>
    cases answer with
    | done => exact (Quiet.reconnectReturns s caller true now).inv hs
    | failed message => exact (Quiet.reconnectReturns s caller true now).inv hs
    | connected _ | refused _ _ | flag _ | report _ => exact hs
  | reconnectTransport id caller =>
    rw [hpending] at hdial
    have htransport := howned id caller hpending
    cases answer with
    | flag ok => exact inv_transportAnswered hs htransport hdial ok now
    | failed message =>
      have herror : Inv { s with error := some message } :=
        hs.of_same rfl
      exact inv_transportAnswered herror htransport hdial false now
    | connected _ | refused _ _ | report _ | done => exact hs
  | closeForDisconnect id =>
    rw [hpending] at hprudent
    obtain ⟨hcur, hclosed, -⟩ := hprudent
    cases answer with
    | done => exact inv_disconnected hs hcur hclosed (hclosing id hpending)
    | connected _ | refused _ _ | flag _ | report _ | failed _ => exact hs
  | probe id =>
    rw [hpending] at hprudent
    -- only an unhealthy probe of a connected host begins a recovery
    have hprobed : ∀ healthy, answer ≠ .flag true ∨ healthy = true →
        Inv (s.probed call.asked id healthy now) := by
      intro healthy hcase
      by_cases hconnected : s.state = .connected
      · rcases hcase with hne | rfl
        · obtain ⟨hid, hsince⟩ := hprudent hne hconnected
          exact inv_probed hs hid hsince healthy now
        · exact hs
      · unfold State.probed
        rw [if_pos (by simp [hconnected])]
        exact hs
    cases answer with
    | flag healthy =>
      refine hprobed healthy ?_
      cases healthy with
      | true => exact .inr rfl
      | false => exact .inl (by simp)
    | failed message => exact hprobed false (.inl (by simp))
    | connected _ | refused _ _ | report _ | done => exact hs

theorem waiting_mem {s : State Host Bootstrap} (h : s.waiting n = some call) :
    call ∈ s.calls ∧ call.id = n := by
  unfold State.waiting at h
  exact ⟨List.mem_of_find?_eq_some h, by simpa using List.find?_some h⟩

theorem inv_act (hs : Inv s) {a : Action Host Bootstrap} (hprudent : Prudent s a) : Inv (act s a) := by
  cases a with
  | connect host path =>
    obtain ⟨hnone, hrest⟩ := hprudent
    exact inv_connect hs (fun id h => by rw [hnone] at h; cases h)
      (fun id h => by rw [hnone] at h; cases h) hrest (fun _ => hnone) hs.cancelled fun _ h => by cases h
  | reconnect now => exact inv_reconnect hs hs.cancelled (fun _ h => by cases h) hprudent now
  | retryNow now => exact inv_retryNow hs hs.cancelled hprudent now
  | disconnect => exact inv_disconnect hs hprudent
  | onOsResume => exact (Quiet.onOsResume s).inv hs
  | onState event now => exact inv_onState hs event now
  | countdown now => exact (Quiet.withLoop (Ages.tick s.loop now)).inv hs
  | fired timer now => exact inv_fired hs hprudent now
  | reply n answer now =>
    show Inv (s.replied n answer now)
    unfold State.replied
    cases hwaiting : s.waiting n with
    | none => exact hs
    | some call =>
      obtain ⟨hmem, -⟩ := waiting_mem hwaiting
      have hquiet := Quiet.withoutCall s n
      refine inv_resume (hquiet.inv hs) (fun answered hcur => ?_) (hquiet.parked (hs.parked call hmem))
        (hprudent call hwaiting) now
      rw [hquiet.stage]
      exact hs.stage call hmem answered hcur

/-! ## 9. What a step leaves alone -/

/-- A dial of the loop that was orphaned, or that succeeded, writes nothing. -/
theorem dialReturned_visible {dial : Dial} {ok : Bool} (h : ok = true ∨ dial.gen ≠ s.loop.generation) :
    (s.dialReturned dial ok now).visible = s.visible := by
  unfold State.dialReturned
  dsimp only
  rw [if_pos h]
  split <;> rfl

theorem reconnectReturns_visible {ok : Bool}
    (h : ok = true ∨ ∀ d, caller.loopDial = some d → d.gen ≠ s.loop.generation) :
    (s.reconnectReturns caller ok now).visible = s.visible := by
  cases caller with
  | user => rfl
  | loop dial =>
    refine dialReturned_visible ?_
    rcases h with rfl | hgen
    · exact .inl rfl
    · exact .inr (hgen dial rfl)

theorem resume_visible (hcleared : s.history.clearedAt ≤ s.history.cancelledAt)
    {answer : Answer Bootstrap}
    (hstage : ∀ answered, s.history.current = some (call.id, answered) →
      Stage s answered call.pending ∧ s.history.cancelledAt ≤ call.asked)
    (hparked : Parked s call) (hprudent : PrudentReply s call answer)
    (hold : call.asked < s.history.clearedAt) :
    (s.resume call answer now).visible = s.visible := by
  have hlt : call.asked < s.history.cancelledAt := Nat.lt_of_lt_of_le hold hcleared
  have hsince : ¬ Since s call := Nat.not_le_of_lt hlt
  have hcurrent : ¬ IsCurrent s call := by
    rintro ⟨answered, hcur⟩
    exact hsince (hstage answered hcur).2
  have hdial := hparked.dial
  unfold PrudentReply at hprudent
  unfold State.resume
  cases hpending : call.pending with
  | dial host next =>
    rw [hpending] at hprudent
    exact absurd hprudent hcurrent
  | isAutoEnabled host id next =>
    rw [hpending] at hprudent
    exact absurd hprudent hcurrent
  | startAuto host id next =>
    rw [hpending] at hprudent
    exact absurd hprudent hcurrent
  | bootstrap id =>
    rw [hpending] at hprudent
    exact absurd hprudent.2 hsince
  | closePrevious host previous caller =>
    rw [hpending] at hprudent
    exact absurd hprudent.2.2.2.2 hsince
  | surfaces caller =>
    cases answer with
    | done => exact reconnectReturns_visible (.inl rfl)
    | failed message => exact reconnectReturns_visible (.inl rfl)
    | connected _ | refused _ _ | flag _ | report _ => rfl
  | reconnectTransport id caller =>
    rw [hpending] at hprudent hdial
    obtain ⟨hshown, hthrown⟩ := hprudent
    have hne : s.connectionId ≠ some id := fun hid => hsince (hshown hid)
    cases answer with
    | flag ok =>
      dsimp only
      unfold State.transportAnswered
      rw [if_pos hne]
      exact reconnectReturns_visible (.inr fun d hd => Nat.ne_of_lt ((hdial d hd).2 hlt))
    | failed message => exact absurd (hthrown message rfl) hne
    | connected _ | refused _ _ | report _ | done => rfl
  | closeForDisconnect id =>
    rw [hpending] at hprudent
    obtain ⟨hid, hstate, hbootstrap, hhost⟩ := hprudent.2.2 hold
    cases answer with
    | done =>
      unfold State.visible State.disconnected
      rw [hid, hstate, hbootstrap, hhost]
    | connected _ | refused _ _ | flag _ | report _ | failed _ => rfl
  | probe id =>
    rw [hpending] at hprudent
    have hprobed : ∀ healthy, answer ≠ .flag true ∨ healthy = true →
        (s.probed call.asked id healthy now).visible = s.visible := by
      intro healthy hcase
      unfold State.probed
      rcases hcase with hne | rfl
      · have hstate : s.state ≠ .connected := fun h => hsince (hprudent hne h).2
        rw [if_pos (by simp [hstate])]
      · rfl
    cases answer with
    | flag healthy =>
      refine hprobed healthy ?_
      cases healthy with
      | true => exact .inr rfl
      | false => exact .inl (by simp)
    | failed message => exact hprobed false (.inl (by simp))
    | connected _ | refused _ _ | report _ | done => rfl

/-- A timer of an older generation does not dial. -/
theorem fired_visible {timer : Timer} (hgen : timer.gen < s.loop.generation) :
    (s.fired timer now).visible = s.visible := by
  unfold State.fired
  split
  · have hsame : (s.loop.fired timer s.hasTarget).dials = s.loop.dials := by
      unfold ReconnectLoop.State.fired
      dsimp only
      rcases dialStep_dials _ timer.gen s.hasTarget with hsame | ⟨dial, -, -, hcur⟩
      · exact hsame
      · exact absurd hcur (Nat.ne_of_lt hgen)
    unfold State.loopStepped
    rw [hsame, if_neg (Nat.lt_irrefl _)]
    rfl
  · rfl

/-- The loop runs once the link of a connection that is not being replaced is lost. -/
theorem lost_running (hs : Inv s) {event : StateEvent} (hlost : event.state = .lost)
    (htransport : s.transportOwnsRecovery = false) (hid : s.connectionId = some event.connectionId)
    (hreplacing : s.replacingConnectionId ≠ some event.connectionId) :
    (s.onState event now).loop.running := by
  obtain ⟨host, t, hactive, -⟩ := hs.own.connectionId _ hid
  have htarget : s.hasTarget = true := by rw [State.hasTarget, hactive]; rfl
  unfold State.onState State.linkLost
  rw [if_neg (by simp [hid, hreplacing]), if_neg (by simp [htransport]), if_pos hlost, htarget]
  exact begin_running s.loop now

theorem step_safe (hs : Inv s) {a : Action Host Bootstrap} (hprudent : Prudent s a) :
    Inv (step s a) ∧ StepSafe s a (step s a) := by
  have hinv : Inv (step s a) := (Quiet.tick _).inv (inv_act hs hprudent)
  refine ⟨hinv, hinv.own, hinv.closed, ?_, ?_, ?_⟩
  · rintro n answer now call rfl hwaiting hold
    obtain ⟨hmem, -⟩ := waiting_mem hwaiting
    have hquiet := Quiet.withoutCall s n
    show (s.replied n answer now).visible = s.visible
    unfold State.replied
    rw [hwaiting]
    refine resume_visible (s := s.withoutCall n) hs.cleared (fun answered hcur => ?_)
      (hquiet.parked (hs.parked call hmem)) (hprudent call hwaiting) hold
    rw [hquiet.stage]
    exact hs.stage call hmem answered hcur
  · rintro timer now rfl hstale
    exact fired_visible (hs.stale timer hstale)
  · rintro event now rfl hlost htransport hid hidle
    refine lost_running hs hlost htransport hid fun hreplacing => ?_
    exact hidle (hprudent hlost hid hreplacing)

end Dials

/-! ## 10. Runs -/

/-- Every step is prudent. -/
def PrudentFrom : State Host Bootstrap → List (Action Host Bootstrap) → Prop
  | _, [] => True
  | s, a :: rest => Prudent s a ∧ PrudentFrom (step s a) rest

/-- Every step is safe. -/
def SafeFrom : State Host Bootstrap → List (Action Host Bootstrap) → Prop
  | _, [] => True
  | s, a :: rest => StepSafe s a (step s a) ∧ SafeFrom (step s a) rest

theorem inv_start (transportOwnsRecovery : Bool) :
    Inv ({ transportOwnsRecovery } : State Host Bootstrap) := by
  refine ⟨⟨fun _ h => (by cases h), fun h => (by cases h), fun _ h => (by cases h),
    fun _ h => (by cases h)⟩, fun _ _ _ h => (by cases h), fun _ h => (by cases h),
    fun _ => ⟨rfl, rfl⟩, fun _ h => (by cases h), fun _ _ h => (by cases h), fun _ h => (by cases h),
    fun _ h => (by cases h), fun _ _ h => (by cases h), fun _ h => (by cases h),
    fun _ h => (by cases h), fun _ => rfl, Nat.le_refl _, Nat.le_refl _⟩

theorem safe_from {s : State Host Bootstrap} {actions : List (Action Host Bootstrap)} (hs : Inv s)
    (h : PrudentFrom s actions) : SafeFrom s actions := by
  induction actions generalizing s with
  | nil => trivial
  | cons a rest ih =>
    obtain ⟨hinv, hsafe⟩ := step_safe hs h.1
    exact ⟨hsafe, ih hinv h.2⟩

/-- In a prudent run the store shows the connection last asked for. -/
theorem last_asked_shown (transportOwnsRecovery : Bool) (actions : List (Action Host Bootstrap))
    (h : PrudentFrom { transportOwnsRecovery } actions) : SafeFrom { transportOwnsRecovery } actions :=
  safe_from (inv_start transportOwnsRecovery) h

def firstId : ConnectionId := ⟨ascii "c1", by decide⟩

/-- A host is dialled, and the user disconnects before the dial answers. -/
def disconnectedMeanwhile : List (Action Nat Nat) :=
  [.connect 7 none, .disconnect, .reply 0 (.connected firstId) 0]

/-- The dial that was on the wire puts its connection back, under no host. -/
theorem disconnect_undone : ¬ ∀ (transportOwnsRecovery : Bool) (actions : List (Action Nat Nat)),
    SafeFrom { transportOwnsRecovery } actions := by
  intro h
  have hsafe := h false (disconnectedMeanwhile ++ [.reply 1 (.flag false) 0])
  have hvisible := hsafe.2.2.2.1.orphan 1 (.flag false) 0 ⟨1, 0, .isAutoEnabled 7 firstId .plain⟩ rfl
    rfl (by decide)
  exact absurd (congrArg Visible.connectionId hvisible) (by decide)

theorem last_asked_shown_connected : SafeFrom ({ transportOwnsRecovery := false } : State Nat Nat)
    [.connect 7 none, .reply 0 (.connected firstId) 0, .reply 1 (.flag false) 0,
      .onState ⟨firstId, .lost, none, none, none⟩ 0, .retryNow 0] := by
  refine last_asked_shown false _ ⟨⟨rfl, ?_⟩, ?_, ?_, ?_, ?_, trivial⟩
  · rintro id ⟨n, hn⟩
    cases hn
  · intro call hcall
    obtain rfl := Option.some.inj hcall
    exact ⟨none, rfl⟩
  · intro call hcall
    obtain rfl := Option.some.inj hcall
    exact ⟨some firstId, rfl⟩
  · intro _ _ hreplacing
    cases hreplacing
  · intro hnone
    cases hnone

end PocketShell.ConnectionStore
