import PocketShell.Connection.Labels

/-!
# What one write can do

Every method of the controller changes its state by writes of the kinds listed
in `Write`, each with what holds when it is made: who makes it, in which step,
and under which condition. What is guaranteed of runs is read off this list.

* `Tok`: what a thread can own: a connect intent, an attach of a terminal, a
  queued terminal operation.
* `Write`: the writes.
* `Later`, `Kept`: what nobody undoes, and what only the owner of a token does.
* `Inv`: the invariant every write keeps.
-/

namespace PocketShell

open Coop (Label)

/-! ## How the dials of an intent went -/

/-- A transport failure the recovery ladder of this intent was answered by its
listing or by an attach. -/
def ladderFailure (intent : Nat) : (q : Req) → Ans q → Bool
  | (.ladder m, .exec ..), .error e => m = intent && isTransportCode e
  | (.ladder m, .openPty ..), .error e => m = intent && isTransportCode e
  | _, _ => false

/-- The dials made for an intent; since the last of them, whether a host key was
put to the user and whether the ladder was answered a transport failure. -/
structure Course where
  dials : Nat
  shown : Bool
  failed : Bool

def Course.step (intent : Nat) (c : Course) : Event → Course
  | .dialled m _ _ => if m = intent then ⟨c.dials + 1, false, false⟩ else c
  | .presented m => if m = intent then { c with shown := true } else c
  | .answered q a => if ladderFailure intent q a then { c with failed := true } else c
  | _ => c

def course (intent : Nat) (log : List Event) : Course := log.foldl (Course.step intent) ⟨0, false, false⟩

@[simp] theorem course_nil (intent : Nat) : course intent [] = ⟨0, false, false⟩ := rfl

@[simp] theorem course_snoc (intent : Nat) (log : List Event) (e : Event) :
    course intent (log ++ [e]) = Course.step intent (course intent log) e := by
  simp [course, List.foldl_append]

/-- `e` was entered since the last dial of the intent. -/
def Since (n : Nat) (e : Event) (log : List Event) : Prop :=
  ∃ before, before ++ [e] <+: log ∧ (course n before).dials = (course n log).dials

variable {log log' : List Event}

/-- What was entered since the last dial was, until the next one. -/
theorem Since.grow {n : Nat} {e : Event} (h : Since n e log) (hl : log <+: log')
    (hd : (course n log').dials = (course n log).dials) : Since n e log' := by
  obtain ⟨before, hp, he⟩ := h
  exact ⟨before, hp.trans hl, he.trans hd.symm⟩

theorem Since.mem {n : Nat} {e : Event} {log : List Event} (h : Since n e log) : e ∈ log := by
  obtain ⟨before, hp, _⟩ := h
  exact hp.subset (List.mem_append_right _ (List.mem_singleton.mpr rfl))

theorem Since.entered {n : Nat} {e : Event} {log : List Event}
    (h : (Course.step n (course n log) e).dials = (course n log).dials) : Since n e (log ++ [e]) :=
  ⟨log, List.prefix_rfl, by rw [course_snoc, h]⟩

/-- The last dial of the intent ended in a connection, the ladder's listing over it
settled, and the attach pass after it too, unless the listing was refused; no call
of the ladder was answered with a transport failure meanwhile. -/
structure RanThrough (n : Nat) (log : List Event) : Prop where
  held : ∃ c h, .dialled n c.dial h ∈ log ∧ Since n (.adopted c) log
  listed : Since n (.answered (.ladder n, .tick (.refreshSessions false)) ()) log ∨
    Since n (.answered (.ladder n, .tick (.refreshSessions true)) ()) log ∧
      Since n (.answered (.ladder n, .tick .reattachTerminals) ()) log
  unfailed : (course n log).failed = false

/-! ## Host keys that were verified -/

/-- The key a dial of an ordinary host presented is trusted: against the pin the
trust store had in that dial, or, when it had none, against one accepted once. -/
def TrustedKey (log : List Event) (host : SshHostTarget) (dial : Nat) (presented : PresentedHostKey) :
    Prop :=
  ∃ op stored, .answered (op, .trustGet host.hostId dial) (.ok stored) ∈ log ∧
    ((∃ pin, stored = some pin ∧ verifyHostKeyTrustPin (some pin) presented = .trusted) ∨
      (stored = none ∧ ∃ pin, .trustedOnce ⟨host.hostId, pin⟩ ∈ log ∧
        verifyHostKeyTrustPin (some pin) presented = .trusted))

/-- The connection came from a dial of `host` whose key was verified. -/
structure Verified (log : List Event) (host : SshHostTarget) (c : Connection) : Prop where
  dialled : ∃ intent, .dialled intent c.dial host ∈ log
  answered : ∃ op options result presented,
    .answered (op, .connect options) (.ok result) ∈ log ∧
      options.host = host ∧ options.dial = c.dial ∧ options.generationId = c.ref.generationId ∧
      result.requestId = options.requestId ∧ result.ref = c.ref ∧
      Ctl.readPresentedKey result.hostKey.keyType result.hostKey.keyB64
        result.hostKey.fingerprintSha256 = some presented ∧
      if hasGatewayMarker host then result.gatewayHostKeyVerified = true
      else TrustedKey log host c.dial presented

theorem TrustedKey.mono {host : SshHostTarget} {dial : Nat}
    {presented : PresentedHostKey} (h : TrustedKey log host dial presented) (hl : log ⊆ log') :
    TrustedKey log' host dial presented := by
  obtain ⟨op, stored, ha, hs⟩ := h
  refine ⟨op, stored, hl ha, hs.imp id ?_⟩
  rintro ⟨rfl, pin, ho, hv⟩
  exact ⟨rfl, pin, hl ho, hv⟩

theorem Verified.mono {host : SshHostTarget} {c : Connection}
    (h : Verified log host c) (hl : log ⊆ log') : Verified log' host c := by
  obtain ⟨⟨n, hd⟩, op, options, result, presented, ha, h₁, h₂, h₃, h₄, h₅, h₆, h₇⟩ := h
  refine ⟨⟨n, hl hd⟩, op, options, result, presented, hl ha, h₁, h₂, h₃, h₄, h₅, h₆, ?_⟩
  split at h₇
  · next hg => rw [if_pos hg]; exact h₇
  · next hg => rw [if_neg hg]; exact h₇.mono hl

/-! ## Tokens -/

inductive Tok
  | intent (n : Nat)
  | attach (record token : Nat)
  | call (ticket : Nat)

def minted (s : State) : Set Tok := fun x =>
  match x with
  | .intent n => n ≤ s.connectIntent
  | .attach r token => token ≤ (s.records r).attachToken
  | .call ticket => ticket ≤ s.tickets

/-- The recovery ladder acts with its own intent. -/
def Acts (op : Operation) (o : Set Tok) : Prop := ∀ n, op = .ladder n → .intent n ∈ o

/-! ## The writes -/

/-- The parts of a record that matter beyond the record itself. -/
def TerminalRecord.core (t : TerminalRecord) : TerminalRecord :=
  { t with geometry := DEFAULT_TERMINAL_GEOMETRY, readSequence := 0, focusedAt := 0, attaching := none }

/-- The state without its clocks, counters and settings. -/
def State.core (s : State) : State :=
  { s with
    records := fun r => (s.records r).core
    terminalGeometry := DEFAULT_TERMINAL_GEOMETRY
    graceDeadlineEpochMs := none
    pendingConnectRequestId := none
    focusClock := 0
    outputListeners := 0
    ids := 0
    clock := 0
    tickets := 0
    settledAttaches := [] }

theorem State.setRecord_core {s : State} {r : Nat} {f : TerminalRecord → TerminalRecord}
    (h : (f (s.records r)).core = (s.records r).core) : (s.setRecord r f).core = s.core := by
  have hr : ((s.setRecord r f).records · |>.core) = (s.records · |>.core) := by
    funext i
    rw [State.setRecord_records]
    split
    · next hi => rw [h, hi]
    · rfl
  simp only [State.core, hr]
  rfl

/-- What a snapshot shows of the sessions and of the phase. -/
structure SameView (a b : ConnectionSnapshot) : Prop where
  phase : b.phase = a.phase
  sessions : b.sessions = a.sessions
  sessionListErrors : b.sessionListErrors = a.sessionListErrors
  selectedSession : b.selectedSession = a.selectedSession
  error : b.error = a.error
  uncertainMutation : b.uncertainMutation = a.uncertainMutation

/-- The steps allowed in the runs under consideration. -/
abbrev Allowed : Type := State → StepLabel → Prop

/-- One step under way: its label, and the state it started from. -/
structure Segment where
  label : StepLabel
  source : State

variable (ok : Allowed)

/-- Some allowed step drops a connection from under an open PTY. -/
def DropsOpenPty : Prop := ∃ s l, ok s l ∧ dropsOpenPty s l = true

/-- Some allowed step hands the ladder a failure it overlooks. -/
def Overlooks : Prop := ∃ s l, ok s l ∧ overlooked s l = true

/-- Some allowed step opens a PTY a second time. -/
def Reopens : Prop := ∃ s l, ok s l ∧ reopens s l = true

/-- What holds when a ladder of the current intent returns: it has dialled, and it
used its budget or has a reason not to. -/
structure MayReturn (env : Env) (n : Nat) (s : State) : Prop where
  dialled : env.retryDelaysMs = [] ∨ 0 < (course n s.log).dials
  left : (course n s.log).dials < env.retryDelaysMs.length →
    s.snapshot.trustDecision.isSome = true ∨ s.lastDialRetryable = false ∨ RanThrough n s.log ∨
      Overlooks ok

/-- How many writes and resizes were sent to a PTY. -/
def sent (pty : SshPtyRef) (log : List Event) : Nat :=
  log.countP fun e =>
    match e with
    | .asked (_, .ptyOperation p ..) => p = pty
    | _ => false

/-- The step may change what the snapshot shows. -/
def Shows (g : Segment) : Prop :=
  Stale g.source g.label = false ∨ landsLate g.source g.label = true ∨ DropsOpenPty ok

/-- A snapshot update names no connection but one that was held. -/
abbrev Linked (log : List Event) (a b : ConnectionSnapshot) : Prop :=
  b.connectionId = a.connectionId ∨ b.connectionId = none ∨
    ∃ c, .adopted c ∈ log ∧ b.connectionId = some c.ref.connectionId

/-- A snapshot update, and when it is made. -/
structure Patch (g : Segment) (s : State) (p : ConnectionSnapshot → ConnectionSnapshot) : Prop where
  trust : (p s.snapshot).trustDecision = s.snapshot.trustDecision ∨
    ((p s.snapshot).trustDecision = none ∧
      (s.disposed = true ∨ (course s.connectIntent s.log).shown = false))
  leaves : s.snapshot.phase = .background →
    (p s.snapshot).phase = .background ∨ wakes g.source g.label = true
  enters : (p s.snapshot).phase = .background →
    s.snapshot.phase = .background ∨ s.reconnectTask = none ∨ entersOverLadder g.source g.label = true
  /-- Only without a connection does the phase become `reconnecting`. -/
  climbs : (p s.snapshot).phase = .reconnecting → s.snapshot.phase = .reconnecting ∨ s.connection = none
  shows : SameView s.snapshot (p s.snapshot) ∨ Shows ok g
  link : Linked s.log s.snapshot (p s.snapshot)

/-- What holds when a call is issued. A write or resize is a case of its own. -/
def Asks (g : Segment) (s : State) : Req → Prop
  | (_, .trustRecord hostId pin) =>
    ∃ passphrase d h, g.label = .start (.acceptPresentedHostKey passphrase true) ∧
      g.source.snapshot.trustDecision = some d ∧ g.source.host = some h ∧ h.hostId = hostId ∧
      pin = acceptedHostKeyPin d.previouslyTrusted d.presented
  | (_, .connect _) => s.snapshot.phase ≠ .background ∨ wakes g.source g.label = true
  | (_, .ptyOperation ..) => False
  | _ => True

/-- What holds when a write or resize is sent: it is the turn of its ticket, it
was not sent before, and the record has a PTY with the channel it was called for. -/
structure Sends (o : Set Tok) (s : State) (pty : SshPtyRef) (sequence : Nat) (payload : PtyPayload)
    (r ticket : Nat) : Prop where
  owner : .call ticket ∈ o
  holds : (s.records r).pty = some pty
  next : sequence = (s.records r).operationSequence
  numbered : ¬ Reopens ok → sequence = sent pty s.log + 1
  called : ∃ selected behind, .queued r ticket selected payload behind ∈ s.log ∧
    selected.map (·.channelId) = some pty.channelId ∧ behind ∈ s.settledTurns
  unsettled : ticket ∉ s.settledTurns
  unsent : ∀ op pty' id seq p r', .asked (op, .ptyOperation pty' id seq p r' ticket) ∉ s.log

/-- What holds when an answer is entered: it is the one the step brings. -/
def Brings (g : Segment) (o : Set Tok) : (q : Req) → Ans q → Prop
  | q, a =>
    g.label = .reply q a ∧ Acts q.1 o ∧
      ∀ pty id seq p r ticket, q.2 = .ptyOperation pty id seq p r ticket → .call ticket ∈ o

/-- A write of the controller, made in the step `g` by a thread that owns `o`. The
flag tells the writes after which a thread may park at once. -/
inductive Write (env : Env) (g : Segment) (o : Set Tok) : Bool → State → State → Prop
  /-- Clocks, counters and settings. -/
  | minor {s s' : State} : s'.core = s.core → s.ids ≤ s'.ids → s.tickets ≤ s'.tickets →
      Write env g o true s s'
  | asked {s : State} (q : Req) : Acts q.1 o → Asks g s q →
      Write env g o true s (s.addLog (.asked q))
  | answered {s : State} (q : Req) (a : Ans q) : Brings g o q a →
      Write env g o true s (s.addLog (.answered q a))
  | patch {s : State} (p : ConnectionSnapshot → ConnectionSnapshot) : Patch ok g s p →
      Write env g o true s (s.setSnapshot p)
  -- dialling
  | dialled {s : State} (n d : Nat) (h : SshHostTarget) : .intent n ∈ o →
      s.isCurrentConnect n = true → Write env g o true s (s.addLog (.dialled n d h))
  | retryable {s : State} (n : Nat) (b : Bool) : .intent n ∈ o → s.isCurrentConnect n = true →
      Write env g o true s { s with lastDialRetryable := b }
  | presented {s : State} (n : Nat) (p : ConnectionSnapshot → ConnectionSnapshot)
      (d : PendingHostKeyDecision) (h : SshHostTarget) : .intent n ∈ o →
      s.isCurrentConnect n = true → s.host = some h → h.hostId = d.hostId → h.gateway = none →
      (d.reason = .unknown ∧ d.previouslyTrusted = none ∨
        d.reason = .mismatch ∧ d.previouslyTrusted ≠ none) →
      (p s.snapshot).trustDecision = some d → (p s.snapshot).phase = .awaitingTrust →
      (s.snapshot.phase ≠ .background ∨ wakes g.source g.label = true) → Shows ok g →
      Linked s.log s.snapshot (p s.snapshot) →
      Write env g o true s ((s.addLog (.presented n)).setSnapshot p)
  | adopt {s : State} (n : Nat) (h : SshHostTarget) (c : Connection)
      (p : ConnectionSnapshot → ConnectionSnapshot) : .intent n ∈ o →
      s.isCurrentConnect n = true → s.connection = none →
      s.host = some (hostWithoutTransientPassphrase h) → Verified s.log h c →
      (¬ DropsOpenPty ok →
        s.terminals = [] ∨ ∃ m q a, g.label = .reply (.ladder m, q) a) →
      (p s.snapshot).trustDecision = none → (course n s.log).shown = false →
      (p s.snapshot).phase = .connected →
      (s.snapshot.phase ≠ .background ∨ wakes g.source g.label = true) → Shows ok g →
      (p s.snapshot).connectionId = some c.ref.connectionId →
      Write env g o true s
        ({ s.addLog (.adopted c) with connection := some c, hostCli := some c }.setSnapshot p)
  | rehost {s : State} (n : Nat) (h : SshHostTarget) (p : ConnectionSnapshot → ConnectionSnapshot) :
      .intent n ∈ o → s.isCurrentConnect n = true → s.connection = none →
      (p s.snapshot).trustDecision = none → (course n s.log).shown = false →
      (p s.snapshot).phase ≠ .background → wakes g.source g.label = true → Shows ok g →
      Linked s.log s.snapshot (p s.snapshot) →
      Write env g o true s ({ s with host := some (hostWithoutTransientPassphrase h) }.setSnapshot p)
  -- trusting
  | once {s : State} (k : OnceTrusted) (passphrase : Option (Option String))
      (d : PendingHostKeyDecision) (h : SshHostTarget) :
      g.label = .start (.acceptPresentedHostKey passphrase false) →
      g.source.snapshot.trustDecision = some d → g.source.host = some h → d.reason = .unknown →
      k = ⟨h.hostId, acceptedHostKeyPin d.previouslyTrusted d.presented⟩ →
      Write env g o true s { s.addLog (.trustedOnce k) with onceTrusted := some k }
  | accepting {s : State} (p : ConnectionSnapshot → ConnectionSnapshot) :
      (p s.snapshot).trustDecision = none → (p s.snapshot).phase ≠ .background →
      wakes g.source g.label = true → Shows ok g → Linked s.log s.snapshot (p s.snapshot) →
      Write env g o false s (s.setSnapshot p)
  -- the transport
  | drop {s : State} : (¬ DropsOpenPty ok → s.connection.isSome → ∀ r ∈ s.terminals, (s.records r).pty = none) →
      Write env g o true s s.dropConnection
  | intent {s : State} : Shows ok g → Write env g o true s { s with connectIntent := s.connectIntent + 1 }
  | task {s : State} (n : Nat) : s.snapshot.phase ≠ .background → s.reconnectTask = none →
      n ≤ s.connectIntent → Shows ok g → Write env g o true s { s with reconnectTask := some n }
  | taskEnd {s : State} (n : Nat) : .intent n ∈ o → Shows ok g →
      Write env g o true s { s with reconnectTask := none }
  | ladderEnded {s : State} (n : Nat) : .intent n ∈ o →
      (s.isCurrentConnect n = true → MayReturn ok env n s) →
      Write env g o true s (s.addLog (.ladderEnded n (s.ladderView n)))
  | signalled {s : State} (before : Recovery) :
      (before.connected = true →
        (s.reconnectTask = some s.connectIntent ↔
          before.task = none ∨ before.task = some before.intent) ∧
        (before.task = none → (course s.connectIntent s.log).dials = 0)) →
      Write env g o true s (s.addLog (.signalled before s.recovery))
  | dispose {s : State} : Write env g o true s { s with disposed := true }
  | unhost {s : State} (p : ConnectionSnapshot → ConnectionSnapshot) : s.disposed = true →
      s.connection = none → (p s.snapshot).trustDecision = none →
      (p s.snapshot).phase ≠ .background → wakes g.source g.label = true → Shows ok g →
      Linked s.log s.snapshot (p s.snapshot) →
      Write env g o true s
        ({ s with host := none, graceDeadlineEpochMs := none }.setSnapshot p)
  -- the terminals
  | detach {s : State} : Write env g o true s s.detachTerminals
  | empty {s : State} : Write env g o true s { s.detachTerminals with terminals := [] }
  | remove {s : State} (r : Nat) (keepSelection : Bool) : r < s.nextRecord → Shows ok g →
      Write env g o true s (s.removeTerminal r keepSelection)
  | abandon {s : State} (r : Nat) : r < s.nextRecord →
      Write env g o true s (s.setRecord r fun t => { t with pty := none, pumpToken := t.pumpToken + 1 })
  | eof {s : State} (r : Nat) : r < s.nextRecord → .attach r (s.records r).attachToken ∈ o →
      Write env g o true s (s.setRecord r fun t => { t with pty := none })
  | opening {s : State} (r : Nat) : r ∈ s.terminals →
      Write env g o true s (s.setRecord r fun t =>
        { t with attachToken := t.attachToken + 1, pumpToken := t.pumpToken + 1, pty := none })
  | opened {s : State} (r : Nat) (op : Operation) (ref : SshConnectionRef) (id command : String)
      (geometry : TerminalGeometry) (mode : AttachMode) (token : Nat) (result : SshPtyOpenResult) :
      .attach r (s.records r).attachToken ∈ o → r ∈ s.terminals →
      (∃ c, s.connection = some c ∧ c.ref.generationId = result.pty.generationId) →
      g.label = .reply (op, .openPty ref id command geometry ⟨mode, r, token⟩) (.ok result) →
      s = g.source.addLog
        (.answered (op, .openPty ref id command geometry ⟨mode, r, token⟩) (.ok result)) →
      Write env g o true s (s.setRecord r (·.openedOn result.pty))
  | pumping {s : State} (r : Nat) : r < s.nextRecord →
      Write env g o true s (s.setRecord r fun t => { t with pumpToken := t.pumpToken + 1 })
  | rekey {s : State} (r : Nat) (row : SessionRow) (f : TerminalRecord → TerminalRecord) :
      r ∈ s.terminals → (f (s.records r)).core = { s.records r with session := row }.core →
      (row = (s.records r).session ∨ sameSession row (s.records r).session = true) →
      Write env g o true s (s.setRecord r f)
  | open_ {s : State} (row : SessionRow) (t : TerminalRecord) : s.connection.isSome = true →
      s.terminals.length < env.maxOpenPtys → s.findTerminal row = none →
      sameSession row row = true → t.core = { emptyRecord with session := row }.core →
      (∃ session geometry, g.label = .start (.attachSession session geometry)) →
      Write env g o true s
        { s.setRecord s.nextRecord (fun _ => t) with
          nextRecord := s.nextRecord + 1, terminals := s.terminals ++ [s.nextRecord] }
  -- queued operations
  | queued {s : State} (r ticket : Nat) (payload : PtyPayload) : .call ticket ∈ o → r ∈ s.terminals →
      (∀ r' pty' p' b', .queued r' ticket pty' p' b' ∉ s.log) → ticket ∉ s.settledTurns →
      Write env g o true s
        ((s.addLog (.queued r ticket (s.records r).pty payload (s.records r).operationQueue)).setRecord r
          fun t => { t with operationQueue := ticket })
  | sequence {s : State} (r : Nat) : r < s.nextRecord →
      Write env g o false s
        (s.setRecord r fun t => { t with operationSequence := t.operationSequence + 1 })
  | sends {s : State} (op : Operation) (pty : SshPtyRef) (id : String) (sequence : Nat)
      (payload : PtyPayload) (r ticket : Nat) : Acts op o → Sends ok o s pty sequence payload r ticket →
      Write env g o false s (s.addLog (.asked (op, .ptyOperation pty id sequence payload r ticket)))
  | settle {s : State} (ticket : Nat) : .call ticket ∈ o →
      (∀ r pty p b, .queued r ticket pty p b ∈ s.log → b ∈ s.settledTurns) →
      (∀ q, .asked q ∈ s.log → ∀ pty id seq p r, q.2 = .ptyOperation pty id seq p r ticket →
        ∃ a, .answered q a ∈ s.log) →
      Write env g o true s { s with settledTurns := ticket :: s.settledTurns }

end PocketShell
