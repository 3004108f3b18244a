import PocketShell.Connection.Capability
import PocketShell.Coop.Thread

/-!
# The state of a `ConnectionController`

The published snapshot, the terminal records and the private fields of
`connectionController.ts`, with the synchronous parts of its methods. A terminal
record is an object the controller mutates; here it is a number into `records`.

Three things stand beside the source's fields and are read by no method: the
`log` of what was asked and answered, the tickets of the promises the controller
chains on, and the number of the dial a held connection came from, which stands
for the identity of the connection object.
-/

namespace PocketShell

inductive ConnectionPhase
  | idle
  | connecting
  | awaitingTrust
  | connected
  | listing
  | attaching
  | live
  | background
  | reconnecting
  | lost
  | error
deriving DecidableEq

structure PendingHostKeyDecision where
  hostId : String
  hostLabel : String
  /-- `unknown` or `mismatch`. -/
  reason : KnownHostsVerdict
  presented : PresentedHostKey
  previouslyTrusted : Option HostKeyTrustPin

inductive MutationKind
  | createSession
  | killSession

inductive MutationState
  | unknown
  | observedApplied

structure UncertainMutation where
  kind : MutationKind
  target : String
  state : MutationState
  recordedAt : Int

structure ConnectionSnapshot where
  revision : Nat
  phase : ConnectionPhase
  hostId : Option String
  hostLabel : Option String
  connectionId : Option String
  generationId : Option String
  sessions : List SessionRow
  sessionListErrors : List SessionListError
  selectedSession : Option SessionRow
  terminals : List SessionRow
  retryAttempt : Nat
  error : Option String
  trustDecision : Option PendingHostKeyDecision
  uncertainMutation : Option UncertainMutation
  gatewayFailure : Option GatewayDialFailure

/-- One attached session's PTY and its bookkeeping. -/
structure TerminalRecord where
  session : SessionRow
  pty : Option SshPtyRef
  geometry : TerminalGeometry
  readSequence : Nat
  operationSequence : Nat
  /-- The ticket of the last queued operation; 0 is the resolved promise. -/
  operationQueue : Nat
  pumpToken : Nat
  attachToken : Nat
  focusedAt : Nat
  attaching : Option Nat

/-- The record with a freshly opened PTY. -/
def TerminalRecord.openedOn (t : TerminalRecord) (pty : SshPtyRef) : TerminalRecord :=
  { t with pty := some pty, readSequence := 0, operationSequence := 0, operationQueue := 0 }

/-- A connection the controller holds, and the dial that made it. -/
structure Connection where
  ref : SshConnectionRef
  dial : Nat
deriving DecidableEq

structure OnceTrusted where
  hostId : String
  pin : HostKeyTrustPin

/-- Who would act on a dead connection: whether there is a connection, the
running recovery ladder and the current intent. -/
structure Recovery where
  connected : Bool
  task : Option Nat
  intent : Nat
deriving DecidableEq

/-- How things stand when a recovery ladder returns: whether its intent is the
current one, whether a trust decision is pending, and `lastDialRetryable`. -/
structure LadderView where
  current : Bool
  trustPending : Bool
  dialRetryable : Bool
deriving DecidableEq

/-- What has happened, oldest first. -/
inductive Event
  | asked (q : Req)
  | answered (q : Req) (a : Ans q)
  /-- An accept-once decision was taken. -/
  | trustedOnce (once : OnceTrusted)
  /-- A dial started. -/
  | dialled (intent dial : Nat) (host : SshHostTarget)
  /-- A dial ended in this connection being held. -/
  | adopted (connection : Connection)
  /-- The dial of this intent put a host key to the user. -/
  | presented (intent : Nat)
  /-- `startReconnect` took a recovery signal. -/
  | signalled (before after : Recovery)
  /-- `runReconnect` of this intent returned. -/
  | ladderEnded (intent : Nat) (view : LadderView)
  /-- A write or resize was called while the record had this PTY; it is queued
  behind the ticket `behind`. -/
  | queued (record ticket : Nat) (pty : Option SshPtyRef) (payload : PtyPayload) (behind : Nat)

structure State where
  snapshot : ConnectionSnapshot
  host : Option SshHostTarget
  connection : Option Connection
  /-- The connection the host CLI runs over. -/
  hostCli : Option Connection
  terminals : List Nat
  records : Nat → TerminalRecord
  nextRecord : Nat
  terminalGeometry : TerminalGeometry
  graceDeadlineEpochMs : Option Int
  /-- The running recovery ladder, by the intent it was started with. -/
  reconnectTask : Option Nat
  disposed : Bool
  lastDialRetryable : Bool
  connectIntent : Nat
  pendingConnectRequestId : Option String
  onceTrusted : Option OnceTrusted
  focusClock : Nat
  outputListeners : Nat
  /-- How often `createId` was called. -/
  ids : Nat
  clock : Int
  tickets : Nat
  settledTurns : List Nat
  settledAttaches : List (Nat × ActionResult SessionRow)
  log : List Event

/-- The options of a controller and the pure platform functions it uses. -/
structure Env where
  gatewayTransport : Bool
  maxOpenPtys : Nat
  maxOpenPtys_pos : 1 ≤ maxOpenPtys
  retryDelaysMs : List Nat
  maxBackgroundGraceMs : Int
  createId : Nat → String
  normalizeGatewayServerUrl : String → Option String
  text : HostCliText
  encodeBase64 : List UInt8 → String
  decodeBase64 : String → Option (List UInt8)

/-! ## Options -/

def DEFAULT_MAX_BACKGROUND_GRACE_MS : Int := 600000
def DEFAULT_MAX_OPEN_PTYS : Nat := 5
def DEFAULT_RETRY_DELAYS_MS : List Nat := [0, 250, 500, 1000, 2000]
def EOF_PROBE_ATTEMPTS : Nat := 3
def EOF_PROBE_RETRY_MS : Nat := 250
def DEFAULT_CONNECT_TIMEOUT_MS : Nat := 20000
def DEFAULT_TERMINAL_GEOMETRY : TerminalGeometry := ⟨80, 24⟩
def RECONNECT_DECLINED_MESSAGE : String :=
  "The connection closed while PocketShell was in the background. Reconnect to resume."

/-- `validGeometry`. -/
def validGeometry (geometry : Option TerminalGeometry) : Option TerminalGeometry :=
  geometry.filter fun g => 1 ≤ g.cols && 1 ≤ g.rows && g.cols ≤ 1000 && g.rows ≤ 1000

/-- `USABLE_PHASES`. -/
def ConnectionPhase.isUsable : ConnectionPhase → Bool
  | .connected | .listing | .attaching | .live => true
  | _ => false

/-- `LINK_UP_PHASES`. -/
def ConnectionPhase.isLinkUp : ConnectionPhase → Bool
  | .connected | .listing | .attaching | .live | .error => true
  | _ => false

def emptyRecord : TerminalRecord where
  session := ⟨"", none, none, none⟩
  pty := none
  geometry := DEFAULT_TERMINAL_GEOMETRY
  readSequence := 0
  operationSequence := 0
  operationQueue := 0
  pumpToken := 0
  attachToken := 0
  focusedAt := 0
  attaching := none

/-- The controller as constructed. -/
def initial : State where
  snapshot :=
    { revision := 0, phase := .idle, hostId := none, hostLabel := none, connectionId := none,
      generationId := none, sessions := [], sessionListErrors := [], selectedSession := none,
      terminals := [], retryAttempt := 0, error := none, trustDecision := none,
      uncertainMutation := none, gatewayFailure := none }
  host := none
  connection := none
  hostCli := none
  terminals := []
  records := fun _ => emptyRecord
  nextRecord := 0
  terminalGeometry := DEFAULT_TERMINAL_GEOMETRY
  graceDeadlineEpochMs := none
  reconnectTask := none
  disposed := false
  lastDialRetryable := true
  connectIntent := 0
  pendingConnectRequestId := none
  onceTrusted := none
  focusClock := 0
  outputListeners := 0
  ids := 0
  clock := 0
  tickets := 0
  settledTurns := [0]
  settledAttaches := []
  log := []

/-! ## Synchronous methods -/

namespace State

/-- `setSnapshot`: apply a patch and publish. -/
def setSnapshot (s : State) (patch : ConnectionSnapshot → ConnectionSnapshot) : State :=
  { s with
    snapshot :=
      { patch s.snapshot with
        terminals := s.terminals.map fun r => (s.records r).session
        revision := s.snapshot.revision + 1 } }

def setRecord (s : State) (r : Nat) (f : TerminalRecord → TerminalRecord) : State :=
  { s with records := fun i => if i = r then f (s.records r) else s.records i }

def addLog (s : State) (e : Event) : State := { s with log := s.log ++ [e] }

def recovery (s : State) : Recovery := ⟨s.connection.isSome, s.reconnectTask, s.connectIntent⟩

/-- `isCurrentConnect`. -/
def isCurrentConnect (s : State) (intent : Nat) : Bool := !s.disposed && s.connectIntent = intent

def ladderView (s : State) (intent : Nat) : LadderView :=
  ⟨s.isCurrentConnect intent, s.snapshot.trustDecision.isSome, s.lastDialRetryable⟩

/-- `isCurrentGeneration`. -/
def isCurrentGeneration (s : State) (connection : SshConnectionRef) : Bool :=
  s.connection.any (·.ref = connection)

/-- `findTerminal`. -/
def findTerminal (s : State) (session : SessionRow) : Option Nat :=
  s.terminals.find? fun r => sameSession (s.records r).session session

def hasLiveTerminal (s : State) : Bool := s.terminals.any fun r => (s.records r).pty.isSome

def idlePhase (s : State) : ConnectionPhase :=
  if s.hasLiveTerminal then .live
  else if s.terminals.any fun r => (s.records r).attaching.isSome then .attaching
  else .connected

/-- The less recently focused of two terminals, the first one when in doubt. -/
def older (s : State) (oldest : Option Nat) (r : Nat) : Option Nat :=
  match oldest with
  | none => some r
  | some o => if (s.records r).focusedAt < (s.records o).focusedAt then some r else some o

/-- `leastRecentlyFocused`: the first of the open terminals with the smallest
`focusedAt`. -/
def leastRecentlyFocused (s : State) : Option Nat := s.terminals.foldl s.older none

/-- `removeTerminal`; the caller closes the PTY the record held. -/
def removeTerminal (s : State) (r : Nat) (keepSelection : Bool) : State :=
  let s' : State :=
    { s.setRecord r fun t =>
        { t with attachToken := t.attachToken + 1, pumpToken := t.pumpToken + 1, pty := none } with
      terminals := s.terminals.erase r }
  match s'.snapshot.selectedSession with
  | some selected =>
    if sameSession selected (s'.records r).session then
      let next := s'.terminals.getLast?.map fun r => (s'.records r).session
      if next.isSome || !keepSelection then
        { s' with snapshot := { s'.snapshot with selectedSession := next } }
      else s'
    else s'
  | none => s'

/-- `detachTerminalsFromTransport` on the records `rs`. -/
def detachRecords (s : State) (rs : List Nat) : State :=
  { s with
    records := fun i =>
      if i ∈ rs then
        { s.records i with
          attachToken := (s.records i).attachToken + 1
          pumpToken := (s.records i).pumpToken + 1
          pty := none }
      else s.records i }

/-- `detachTerminalsFromTransport`; `openPtys` are what it returns. -/
def detachTerminals (s : State) : State := s.detachRecords s.terminals

/-- The PTYs of the open terminals, in attach order. -/
def openPtys (s : State) : List SshPtyRef := s.terminals.filterMap fun r => (s.records r).pty

/-- `this.connection = null; this.hostCli = null`. -/
def dropConnection (s : State) : State := { s with connection := none, hostCli := none }

/-! ## What the synchronous methods leave alone -/

section

variable (s : State) (p : ConnectionSnapshot → ConnectionSnapshot) (r : Nat)
  (f : TerminalRecord → TerminalRecord) (e : Event)

@[simp] theorem setSnapshot_disposed : (s.setSnapshot p).disposed = s.disposed := rfl
@[simp] theorem setSnapshot_connectIntent : (s.setSnapshot p).connectIntent = s.connectIntent := rfl
@[simp] theorem setSnapshot_log : (s.setSnapshot p).log = s.log := rfl

@[simp] theorem setSnapshot_phase : (s.setSnapshot p).snapshot.phase = (p s.snapshot).phase := rfl
@[simp] theorem setSnapshot_trustDecision :
    (s.setSnapshot p).snapshot.trustDecision = (p s.snapshot).trustDecision := rfl

@[simp] theorem setRecord_log : (s.setRecord r f).log = s.log := rfl

theorem setRecord_records (i : Nat) :
    (s.setRecord r f).records i = if i = r then f (s.records r) else s.records i := rfl

@[simp] theorem setRecord_same : (s.setRecord r f).records r = f (s.records r) := by
  simp [setRecord_records]

theorem setRecord_other {i : Nat} (h : i ≠ r) : (s.setRecord r f).records i = s.records i := by
  simp [setRecord_records, h]

theorem setRecord_congr {f f' : TerminalRecord → TerminalRecord}
    (h : f (s.records r) = f' (s.records r)) : s.setRecord r f = s.setRecord r f' := by
  simp only [setRecord, h]

@[simp] theorem addLog_log : (s.addLog e).log = s.log ++ [e] := rfl
@[simp] theorem addLog_snapshot : (s.addLog e).snapshot = s.snapshot := rfl
@[simp] theorem addLog_records : (s.addLog e).records = s.records := rfl
@[simp] theorem addLog_disposed : (s.addLog e).disposed = s.disposed := rfl
@[simp] theorem addLog_connectIntent : (s.addLog e).connectIntent = s.connectIntent := rfl
@[simp] theorem addLog_onceTrusted : (s.addLog e).onceTrusted = s.onceTrusted := rfl

@[simp] theorem addLog_isCurrentGeneration (connection : SshConnectionRef) :
    (s.addLog e).isCurrentGeneration connection = s.isCurrentGeneration connection := rfl

theorem detachTerminals_records (i : Nat) :
    s.detachTerminals.records i =
      if i ∈ s.terminals then
        { s.records i with
          attachToken := (s.records i).attachToken + 1
          pumpToken := (s.records i).pumpToken + 1
          pty := none }
      else s.records i := rfl

/-- `removeTerminal` changes the record, the open terminals and the selection. -/
theorem removeTerminal_eq (keepSelection : Bool) :
    ∃ selected, s.removeTerminal r keepSelection =
      { s.setRecord r fun t =>
          { t with attachToken := t.attachToken + 1, pumpToken := t.pumpToken + 1, pty := none } with
        terminals := s.terminals.erase r
        snapshot := { s.snapshot with selectedSession := selected } } := by
  unfold removeTerminal
  dsimp only
  split
  · split
    · split
      · exact ⟨_, rfl⟩
      · exact ⟨_, rfl⟩
    · exact ⟨_, rfl⟩
  · exact ⟨_, rfl⟩

@[simp] theorem removeTerminal_phase (k : Bool) :
    (s.removeTerminal r k).snapshot.phase = s.snapshot.phase := by
  obtain ⟨_, h⟩ := s.removeTerminal_eq r k
  rw [h]

@[simp] theorem removeTerminal_terminals (k : Bool) :
    (s.removeTerminal r k).terminals = s.terminals.erase r := by
  obtain ⟨_, h⟩ := s.removeTerminal_eq r k
  rw [h]

@[simp] theorem removeTerminal_connection (k : Bool) :
    (s.removeTerminal r k).connection = s.connection := by
  obtain ⟨_, h⟩ := s.removeTerminal_eq r k
  rw [h]
  rfl

@[simp] theorem removeTerminal_nextRecord (k : Bool) :
    (s.removeTerminal r k).nextRecord = s.nextRecord := by
  obtain ⟨_, h⟩ := s.removeTerminal_eq r k
  rw [h]
  rfl

theorem removeTerminal_records (k : Bool) :
    (s.removeTerminal r k).records = (s.setRecord r fun t =>
      { t with attachToken := t.attachToken + 1, pumpToken := t.pumpToken + 1, pty := none }).records := by
  obtain ⟨_, h⟩ := s.removeTerminal_eq r k
  rw [h]

end

theorem foldl_older (s : State) (rs : List Nat) (o : Nat) :
    ∃ r ∈ o :: rs, rs.foldl s.older (some o) = some r := by
  induction rs generalizing o with
  | nil => exact ⟨o, List.mem_cons_self, rfl⟩
  | cons r rs ih =>
    have hcase : s.older (some o) r = some r ∨ s.older (some o) r = some o := by
      simp only [older]
      split
      · exact .inl rfl
      · exact .inr rfl
    rw [List.foldl_cons]
    rcases hcase with he | he
    · rw [he]
      obtain ⟨q, hq, hfold⟩ := ih r
      exact ⟨q, List.mem_cons_of_mem _ hq, hfold⟩
    · rw [he]
      obtain ⟨q, hq, hfold⟩ := ih o
      refine ⟨q, ?_, hfold⟩
      rcases List.mem_cons.mp hq with rfl | hq
      · exact List.mem_cons_self
      · exact List.mem_cons_of_mem _ (List.mem_cons_of_mem _ hq)

/-- Some terminal is least recently focused as long as one is open. -/
theorem leastRecentlyFocused_mem {s : State} (h : s.terminals ≠ []) :
    ∃ r ∈ s.terminals, s.leastRecentlyFocused = some r := by
  unfold leastRecentlyFocused
  cases ht : s.terminals with
  | nil => exact absurd ht h
  | cons r rs => exact s.foldl_older rs r

theorem findTerminal_eq_none {s : State} {row : SessionRow} :
    s.findTerminal row = none ↔ ∀ r ∈ s.terminals, sameSession (s.records r).session row = false := by
  simp [findTerminal]

theorem findTerminal_some {s : State} {row : SessionRow} {r : Nat} (h : s.findTerminal row = some r) :
    r ∈ s.terminals ∧ sameSession (s.records r).session row = true :=
  ⟨List.mem_of_find?_eq_some h, by simpa using List.find?_some h⟩

theorem idlePhase_cases (s : State) :
    s.idlePhase = .live ∨ s.idlePhase = .attaching ∨ s.idlePhase = .connected := by
  unfold idlePhase
  split
  · exact .inl rfl
  · split
    · exact .inr (.inl rfl)
    · exact .inr (.inr rfl)

theorem hasLiveTerminal_eq_false {s : State} :
    s.hasLiveTerminal = false ↔ ∀ r ∈ s.terminals, (s.records r).pty = none := by
  simp [hasLiveTerminal]

end State

end PocketShell
