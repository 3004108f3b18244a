import PocketShell.Connection.Writes
import PocketShell.Coop.Log

/-!
# What every write keeps

* `Later`: what nobody undoes.
* `Kept`: what only the owner of a token changes.
* `Inv`: the invariant of the controller, kept by every write.
-/

namespace PocketShell

open Coop (mem_snoc)

/-! ## What nobody undoes -/

structure Later (s s' : State) : Prop where
  log : s.log <+: s'.log
  tickets : s.tickets ≤ s'.tickets
  intent : s.connectIntent ≤ s'.connectIntent
  disposed : s.disposed = true → s'.disposed = true
  spent : s.disposed = true → s.connection = none → s'.connection = none
  attach : ∀ r, (s.records r).attachToken ≤ (s'.records r).attachToken
  pump : ∀ r, (s.records r).pumpToken ≤ (s'.records r).pumpToken
  /-- Whoever takes a terminal from its attach stops its pump too. -/
  stops : ∀ r, (s'.records r).attachToken = (s.records r).attachToken ∨
    (s.records r).pumpToken < (s'.records r).pumpToken
  turns : s.settledTurns ⊆ s'.settledTurns
  nextRecord : s.nextRecord ≤ s'.nextRecord

namespace Later

theorem refl (s : State) : Later s s :=
  ⟨List.prefix_rfl, le_rfl, le_rfl, id, fun _ h => h, fun _ => le_rfl, fun _ => le_rfl,
    fun _ => .inl rfl, List.Subset.refl _, le_rfl⟩

theorem trans {s s' s'' : State} (h : Later s s') (h' : Later s' s'') : Later s s'' where
  log := h.log.trans h'.log
  tickets := h.tickets.trans h'.tickets
  intent := h.intent.trans h'.intent
  disposed := fun hd => h'.disposed (h.disposed hd)
  spent := fun hd hc => h'.spent (h.disposed hd) (h.spent hd hc)
  attach := fun r => (h.attach r).trans (h'.attach r)
  pump := fun r => (h.pump r).trans (h'.pump r)
  stops := fun r => by
    have hp := h.pump r
    have hp' := h'.pump r
    rcases h.stops r with he | hl
    · rcases h'.stops r with he' | hl'
      · exact .inl (he'.trans he)
      · exact .inr (by omega)
    · exact .inr (by omega)
  turns := fun _ ht => h'.turns (h.turns ht)
  nextRecord := h.nextRecord.trans h'.nextRecord

variable {s s' : State}

/-- A write that leaves the records, the intents and the queues alone. -/
theorem plain (hl : s.log <+: s'.log) (ht : s.tickets ≤ s'.tickets)
    (hi : s'.connectIntent = s.connectIntent) (hd : s'.disposed = s.disposed)
    (hc : s.disposed = true → s.connection = none → s'.connection = none)
    (hr : s'.records = s.records) (hs : s'.settledTurns = s.settledTurns)
    (hn : s'.nextRecord = s.nextRecord) : Later s s' where
  log := hl
  tickets := ht
  intent := hi ▸ le_rfl
  disposed := fun h => hd ▸ h
  spent := hc
  attach := fun r => by rw [hr]
  pump := fun r => by rw [hr]
  stops := fun r => .inl (by rw [hr])
  turns := hs ▸ List.Subset.refl _
  nextRecord := hn ▸ le_rfl

/-- A write of records that stops the pump of every attach it takes. -/
theorem records (hl : s'.log = s.log) (ht : s'.tickets = s.tickets)
    (hi : s'.connectIntent = s.connectIntent) (hd : s'.disposed = s.disposed)
    (hc : s'.connection = s.connection) (hs : s'.settledTurns = s.settledTurns)
    (hn : s.nextRecord ≤ s'.nextRecord)
    (hr : ∀ r, (s.records r).attachToken ≤ (s'.records r).attachToken ∧
      (s.records r).pumpToken ≤ (s'.records r).pumpToken ∧
      ((s'.records r).attachToken = (s.records r).attachToken ∨
        (s.records r).pumpToken < (s'.records r).pumpToken)) : Later s s' where
  log := hl ▸ List.prefix_rfl
  tickets := ht ▸ le_rfl
  intent := hi ▸ le_rfl
  disposed := fun h => hd ▸ h
  spent := fun _ h => hc ▸ h
  attach := fun r => (hr r).1
  pump := fun r => (hr r).2.1
  stops := fun r => (hr r).2.2
  turns := hs ▸ List.Subset.refl _
  nextRecord := hn

/-- A write of one record that stops the pump of an attach it takes. -/
theorem setRecord {r : Nat} {f : TerminalRecord → TerminalRecord}
    (h : (s.records r).attachToken ≤ (f (s.records r)).attachToken ∧
      (s.records r).pumpToken ≤ (f (s.records r)).pumpToken ∧
      ((f (s.records r)).attachToken = (s.records r).attachToken ∨
        (s.records r).pumpToken < (f (s.records r)).pumpToken)) : Later s (s.setRecord r f) := by
  refine .records rfl rfl rfl rfl rfl rfl le_rfl fun i => ?_
  simp only [State.setRecord_records]
  split
  · next hir => exact hir ▸ h
  · exact ⟨le_rfl, le_rfl, .inl rfl⟩

theorem log_subset (h : Later s s') : s.log ⊆ s'.log := h.log.subset

end Later

/-! ## What the owner of a token keeps to itself -/

/-- The log entries about a queued operation. -/
def Event.isOf (ticket : Nat) : Event → Prop
  | .asked (_, .ptyOperation _ _ _ _ _ t) => t = ticket
  | .answered (_, .ptyOperation _ _ _ _ _ t) _ => t = ticket
  | .queued _ t _ _ _ => t = ticket
  | _ => False

structure KeptIntent (n : Nat) (s s' : State) : Prop where
  mono : s.connectIntent ≤ s'.connectIntent
  dials : n ≤ s.connectIntent → course n s'.log = course n s.log
  current : n ≤ s.connectIntent → s'.isCurrentConnect n = true → s.isCurrentConnect n = true
  host : n ≤ s.connectIntent → s'.isCurrentConnect n = true → s'.host = s.host
  connection : n ≤ s.connectIntent → s'.isCurrentConnect n = true →
    s'.connection = s.connection ∨ s'.connection = none
  retryable : n ≤ s.connectIntent → s'.isCurrentConnect n = true →
    s'.lastDialRetryable = s.lastDialRetryable
  terminals : n ≤ s.connectIntent → s'.isCurrentConnect n = true → s.connection = none →
    s'.terminals ⊆ s.terminals

structure KeptAttach (r a : Nat) (s s' : State) : Prop where
  mono : (s.records r).attachToken ≤ (s'.records r).attachToken
  pump : (s.records r).pumpToken ≤ (s'.records r).pumpToken
  closed : a ≤ (s.records r).attachToken → (s'.records r).attachToken = a →
    (s.records r).pty = none → (s'.records r).pty = none
  pty : a ≤ (s.records r).attachToken → (s'.records r).attachToken = a →
    (s'.records r).pumpToken = (s.records r).pumpToken → (s'.records r).pty = (s.records r).pty

structure KeptCall (t : Nat) (s s' : State) : Prop where
  turn : t ∈ s'.settledTurns → t ∈ s.settledTurns
  log : ∀ e, e.isOf t → e ∈ s'.log → e ∈ s.log

/-- What the owner of a token can rely on. -/
def Kept : Tok → State → State → Prop
  | .intent n => KeptIntent n
  | .attach r a => KeptAttach r a
  | .call t => KeptCall t

theorem Kept.refl (x : Tok) (s : State) : Kept x s s := by
  cases x with
  | intent n => exact ⟨le_rfl, fun _ => rfl, fun _ h => h, fun _ _ => rfl, fun _ _ => .inl rfl,
      fun _ _ => rfl, fun _ _ _ => List.Subset.refl _⟩
  | attach r a => exact ⟨le_rfl, le_rfl, fun _ _ h => h, fun _ _ _ => rfl⟩
  | call t => exact ⟨id, fun _ _ h => h⟩

theorem KeptIntent.trans {n : Nat} {s s' s'' : State} (h : KeptIntent n s s')
    (h' : KeptIntent n s' s'') : KeptIntent n s s'' where
  mono := h.mono.trans h'.mono
  dials := fun hn => (h'.dials (hn.trans h.mono)).trans (h.dials hn)
  current := fun hn hc => h.current hn (h'.current (hn.trans h.mono) hc)
  host := fun hn hc =>
    (h'.host (hn.trans h.mono) hc).trans (h.host hn (h'.current (hn.trans h.mono) hc))
  connection := fun hn hc => by
    rcases h'.connection (hn.trans h.mono) hc with he | he
    · rw [he]
      exact h.connection hn (h'.current (hn.trans h.mono) hc)
    · exact .inr he
  retryable := fun hn hc =>
    (h'.retryable (hn.trans h.mono) hc).trans (h.retryable hn (h'.current (hn.trans h.mono) hc))
  terminals := fun hn hc hs => by
    have hc' := h'.current (hn.trans h.mono) hc
    have hs' : s'.connection = none := by
      rcases h.connection hn hc' with he | he
      · rw [he, hs]
      · exact he
    exact fun _ hr => h.terminals hn hc' hs (h'.terminals (hn.trans h.mono) hc hs' hr)

theorem KeptAttach.trans {r a : Nat} {s s' s'' : State} (h : KeptAttach r a s s')
    (h' : KeptAttach r a s' s'') : KeptAttach r a s s'' where
  mono := h.mono.trans h'.mono
  pump := h.pump.trans h'.pump
  closed := fun ha he hp =>
    have hm := h'.mono
    have hm' := h.mono
    h'.closed (by omega) he (h.closed ha (by omega) hp)
  pty := fun ha he hp => by
    have hm := h.mono
    have hm' := h'.mono
    have hq := h.pump
    have hq' := h'.pump
    exact (h'.pty (by omega) he (by omega)).trans (h.pty ha (by omega) (by omega))

theorem Kept.trans (x : Tok) (s s' s'' : State) (h : Kept x s s') (h' : Kept x s' s'') :
    Kept x s s'' := by
  cases x with
  | intent n => exact KeptIntent.trans h h'
  | attach r a => exact KeptAttach.trans h h'
  | call t => exact ⟨fun ht => h.turn (h'.turn ht), fun e he hm => h.log e he (h'.log e he hm)⟩

/-! ## The invariant -/

variable (ok : Allowed)

/-- The host, its connection and the trust in it. -/
structure LinkInv (s : State) : Prop where
  /-- The host CLI runs over the held connection. -/
  hostCli : s.hostCli = s.connection
  /-- The held connection came from a dial of the current host with a verified key. -/
  verified : ∀ c, s.connection = some c →
    ∃ h, s.host = some (hostWithoutTransientPassphrase h) ∧ Verified s.log h c
  /-- The host is kept without a passphrase that was typed in. -/
  stripped : ∀ h, s.host = some h → hostWithoutTransientPassphrase h = h
  /-- A pending decision is about the current host, an ordinary one. -/
  decision : ∀ d, s.snapshot.trustDecision = some d →
    ∃ h, s.host = some h ∧ h.hostId = d.hostId ∧ h.gateway = none ∧
      (d.reason = .unknown ∧ d.previouslyTrusted = none ∨
        d.reason = .mismatch ∧ d.previouslyTrusted ≠ none)
  /-- Whatever connection was held had a verified key. -/
  adopted : ∀ c, .adopted c ∈ s.log → ∃ h, Verified s.log h c
  once : ∀ k, s.onceTrusted = some k → .trustedOnce k ∈ s.log
  /-- Nothing was done for an intent yet to come. -/
  unborn : ∀ n, s.connectIntent < n → course n s.log = ⟨0, false, false⟩

/-- The terminals and their PTYs. -/
structure TerminalInv (s : State) : Prop where
  nodup : s.terminals.Nodup
  bound : ∀ r ∈ s.terminals, r < s.nextRecord
  fresh : ∀ r, s.nextRecord ≤ r → (s.records r).core = emptyRecord.core
  /-- Only open terminals have a PTY. -/
  held : ∀ r pty, (s.records r).pty = some pty → r ∈ s.terminals
  /-- The PTYs are of the held connection, unless one was dropped from under them. -/
  generation : ¬ DropsOpenPty ok → ∀ r pty, (s.records r).pty = some pty →
    ∃ c, s.connection = some c ∧ c.ref.generationId = pty.generationId
  /-- The platform opened every PTY that is held or was written to. -/
  opened : ∀ r pty, (s.records r).pty = some pty → s.log.any (Event.opens pty) = true
  sentTo : ∀ pty, sent pty s.log ≠ 0 → s.log.any (Event.opens pty) = true

/-- The queued operations: nothing was done for a ticket yet to come. -/
structure QueueInv (s : State) : Prop where
  unissued : ∀ t, s.tickets < t → (∀ e ∈ s.log, ¬ e.isOf t) ∧ t ∉ s.settledTurns

/-- The held connection, and the one the snapshot names, come from dials. -/
structure NamedInv (s : State) : Prop where
  current : ∀ c, s.connection = some c → .adopted c ∈ s.log
  named : ∀ id, s.snapshot.connectionId = some id → ∃ c, .adopted c ∈ s.log ∧ c.ref.connectionId = id

structure Inv (s : State) : Prop extends LinkInv s, TerminalInv ok s, QueueInv s, NamedInv s

theorem inv_initial : Inv ok initial where
  hostCli := rfl
  verified := fun _ h => by cases h
  stripped := fun _ h => by cases h
  decision := fun _ h => by cases h
  adopted := fun _ h => by cases h
  once := fun _ h => by cases h
  unborn := fun _ _ => rfl
  nodup := List.nodup_nil
  bound := fun _ h => by cases h
  fresh := fun _ _ => rfl
  held := fun _ _ h => by cases h
  generation := fun _ _ _ h => by cases h
  opened := fun _ _ h => by cases h
  sentTo := fun _ h => absurd rfl h
  unissued := fun t ht => ⟨List.forall_mem_nil _, fun h => absurd (List.mem_singleton.mp h) ht.ne'⟩
  current := fun _ h => by cases h
  named := fun _ h => by cases h

/-! ## Every write keeps it -/

variable {ok} {env : Env} {g : Segment} {o : Set Tok} {b : Bool} {s s' : State}

/-- The states agree on everything but clocks, counters and settings. -/
def SameCore (s s' : State) : Prop := s'.core = s.core

namespace SameCore

theorem of_core (h : s'.core = s.core) : SameCore s s' := h

theorem trans {s'' : State} (h : SameCore s s') (h' : SameCore s' s'') : SameCore s s'' :=
  Eq.trans h' h

theorem snapshot (h : SameCore s s') : s'.snapshot = s.snapshot := (congrArg State.snapshot h :)
theorem host (h : SameCore s s') : s'.host = s.host := (congrArg State.host h :)
theorem connection (h : SameCore s s') : s'.connection = s.connection :=
  (congrArg State.connection h :)
theorem hostCli (h : SameCore s s') : s'.hostCli = s.hostCli := (congrArg State.hostCli h :)
theorem terminals (h : SameCore s s') : s'.terminals = s.terminals := (congrArg State.terminals h :)
theorem nextRecord (h : SameCore s s') : s'.nextRecord = s.nextRecord :=
  (congrArg State.nextRecord h :)
theorem reconnectTask (h : SameCore s s') : s'.reconnectTask = s.reconnectTask :=
  (congrArg State.reconnectTask h :)
theorem disposed (h : SameCore s s') : s'.disposed = s.disposed := (congrArg State.disposed h :)
theorem lastDialRetryable (h : SameCore s s') : s'.lastDialRetryable = s.lastDialRetryable :=
  (congrArg State.lastDialRetryable h :)
theorem connectIntent (h : SameCore s s') : s'.connectIntent = s.connectIntent :=
  (congrArg State.connectIntent h :)
theorem onceTrusted (h : SameCore s s') : s'.onceTrusted = s.onceTrusted :=
  (congrArg State.onceTrusted h :)
theorem settledTurns (h : SameCore s s') : s'.settledTurns = s.settledTurns :=
  (congrArg State.settledTurns h :)
theorem log (h : SameCore s s') : s'.log = s.log := (congrArg State.log h :)

theorem record (h : SameCore s s') (r : Nat) : (s'.records r).core = (s.records r).core :=
  congrFun (congrArg State.records h) r

theorem session (h : SameCore s s') (r : Nat) : (s'.records r).session = (s.records r).session :=
  (congrArg TerminalRecord.session (h.record r) :)
theorem pty (h : SameCore s s') (r : Nat) : (s'.records r).pty = (s.records r).pty :=
  (congrArg TerminalRecord.pty (h.record r) :)
theorem attachToken (h : SameCore s s') (r : Nat) :
    (s'.records r).attachToken = (s.records r).attachToken :=
  (congrArg TerminalRecord.attachToken (h.record r) :)
theorem pumpToken (h : SameCore s s') (r : Nat) : (s'.records r).pumpToken = (s.records r).pumpToken :=
  (congrArg TerminalRecord.pumpToken (h.record r) :)
theorem operationSequence (h : SameCore s s') (r : Nat) :
    (s'.records r).operationSequence = (s.records r).operationSequence :=
  (congrArg TerminalRecord.operationSequence (h.record r) :)
theorem operationQueue (h : SameCore s s') (r : Nat) :
    (s'.records r).operationQueue = (s.records r).operationQueue :=
  (congrArg TerminalRecord.operationQueue (h.record r) :)

theorem findTerminal (h : SameCore s s') (row : SessionRow) :
    s'.findTerminal row = s.findTerminal row := by
  simp only [State.findTerminal, h.terminals, h.session]

end SameCore

theorem SameCore.isCurrentConnect (h : SameCore s s') (n : Nat) :
    s'.isCurrentConnect n = s.isCurrentConnect n := by
  simp only [State.isCurrentConnect, h.disposed, h.connectIntent]

/-- A fresh record was never used. -/
theorem Inv.unused (hi : Inv ok s) : (s.records s.nextRecord).attachToken = 0 ∧
    (s.records s.nextRecord).pumpToken = 0 ∧ (s.records s.nextRecord).pty = none := by
  have h := hi.fresh s.nextRecord le_rfl
  exact ⟨congrArg TerminalRecord.attachToken h, congrArg TerminalRecord.pumpToken h,
    congrArg TerminalRecord.pty h⟩

theorem Write.later (hi : Inv ok s) (w : Write ok env g o b s s') : Later s s' := by
  cases w with
  | minor h hids ht =>
    have hc := SameCore.of_core h
    exact ⟨hc.log ▸ List.prefix_rfl, ht, hc.connectIntent.ge, hc.disposed ▸ id,
      fun _ h => hc.connection ▸ h, fun r => (hc.attachToken r).ge, fun r => (hc.pumpToken r).ge,
      fun r => .inl (hc.attachToken r), hc.settledTurns ▸ List.Subset.refl _, hc.nextRecord.ge⟩
  | asked q _ _ | answered q a _ | dialled n d h _ _ | presented n p d h =>
    exact .plain ⟨_, rfl⟩ le_rfl rfl rfl (fun _ h => h) rfl rfl rfl
  | adopt n h c p _ hcur =>
    refine .plain ⟨_, rfl⟩ le_rfl rfl rfl (fun hd => ?_) rfl rfl rfl
    simp [State.isCurrentConnect, hd] at hcur
  | once k => exact .plain ⟨_, rfl⟩ le_rfl rfl rfl (fun _ h => h) rfl rfl rfl
  | drop _ => exact .plain List.prefix_rfl le_rfl rfl rfl (fun _ _ => rfl) rfl rfl rfl
  | intent _ =>
    exact ⟨List.prefix_rfl, le_rfl, Nat.le_succ _, id, fun _ h => h, fun _ => le_rfl,
      fun _ => le_rfl, fun _ => .inl rfl, List.Subset.refl _, le_rfl⟩
  | ladderEnded n => exact .plain ⟨_, rfl⟩ le_rfl rfl rfl (fun _ h => h) rfl rfl rfl
  | signalled b => exact .plain ⟨_, rfl⟩ le_rfl rfl rfl (fun _ h => h) rfl rfl rfl
  | dispose =>
    exact ⟨List.prefix_rfl, le_rfl, le_rfl, fun _ => rfl, fun _ h => h, fun _ => le_rfl,
      fun _ => le_rfl, fun _ => .inl rfl, List.Subset.refl _, le_rfl⟩
  | detach =>
    refine .records rfl rfl rfl rfl rfl rfl le_rfl fun r => ?_
    rw [State.detachTerminals_records]
    split <;> simp
  | empty =>
    refine .records rfl rfl rfl rfl rfl rfl le_rfl fun r => ?_
    show _ ≤ (s.detachTerminals.records r).attachToken ∧ _ ≤ (s.detachTerminals.records r).pumpToken ∧
      ((s.detachTerminals.records r).attachToken = _ ∨ _ < (s.detachTerminals.records r).pumpToken)
    rw [State.detachTerminals_records]
    split <;> simp
  | remove r keep =>
    obtain ⟨_, he⟩ := s.removeTerminal_eq r keep
    rw [he]
    have hset : Later s (s.setRecord r fun t =>
      { t with attachToken := t.attachToken + 1, pumpToken := t.pumpToken + 1, pty := none }) := .setRecord (by simp)
    exact hset.trans (.plain List.prefix_rfl le_rfl rfl rfl (fun _ h => h) rfl rfl rfl)
  | abandon | eof | opening => exact .setRecord (by simp)
  | opened r => exact .setRecord (by simp [TerminalRecord.openedOn])
  | pumping r _ => exact .setRecord (by simp)
  | rekey r row f _ hf _ =>
    have ha := congrArg TerminalRecord.attachToken hf
    have hp := congrArg TerminalRecord.pumpToken hf
    exact .setRecord ⟨ha.ge, hp.ge, .inl ha⟩
  | open_ row t _ _ _ _ ht =>
    obtain ⟨ha, hp, _⟩ := hi.unused
    have ha' : t.attachToken = 0 := congrArg TerminalRecord.attachToken ht
    have hset : Later s (s.setRecord s.nextRecord fun _ => t) := .setRecord (by omega)
    exact hset.trans
      (.records rfl rfl rfl rfl rfl rfl (Nat.le_succ _) fun _ => ⟨le_rfl, le_rfl, .inl rfl⟩)
  | queued r t p =>
    refine ⟨⟨_, rfl⟩, le_rfl, le_rfl, id, fun _ h => h, fun i => ?_, fun i => ?_, fun i => .inl ?_,
      List.Subset.refl _, le_rfl⟩ <;>
    · simp only [State.setRecord_records]
      split
      · next h => subst h; simp
      · simp
  | sequence r _ => exact .setRecord (by simp)
  | sends op pty rid sequence payload r ticket _ _ =>
    exact .plain ⟨_, rfl⟩ le_rfl rfl rfl (fun _ h => h) rfl rfl rfl
  | settle t =>
    exact ⟨List.prefix_rfl, le_rfl, le_rfl, id, fun _ h => h, fun _ => le_rfl, fun _ => le_rfl,
      fun _ => .inl rfl, List.subset_cons_self _ _, le_rfl⟩
  | _ => exact .plain List.prefix_rfl le_rfl rfl rfl (fun _ h => h) rfl rfl rfl

theorem State.isCurrentConnect_iff {s : State} {n : Nat} :
    s.isCurrentConnect n = true ↔ s.disposed = false ∧ s.connectIntent = n := by
  simp [State.isCurrentConnect]

/-- Only the ladder's own answers count as its failures. -/
theorem ladderFailure_other {n : Nat} {q : Req} {a : Ans q} (hq : Acts q.1 o)
    (hn : .intent n ∉ o) : ladderFailure n q a = false := by
  obtain ⟨op, q⟩ := q
  cases op with
  | ladder m =>
    have hm : m ≠ n := by
      rintro rfl
      exact hn (hq m rfl)
    cases q with
    | exec => cases a <;> simp [ladderFailure, hm]
    | openPty => cases a <;> simp [ladderFailure, hm]
    | _ => rfl
  | _ => rfl

namespace KeptIntent

variable {n : Nat}

/-- A write that leaves the intents, the host and the transport alone. -/
theorem plain (hi : s'.connectIntent = s.connectIntent) (hd : s'.disposed = s.disposed)
    (hl : course n s'.log = course n s.log) (hh : s'.host = s.host)
    (hc : s'.connection = s.connection) (hr : s'.lastDialRetryable = s.lastDialRetryable)
    (ht : s.connection = none → s'.terminals ⊆ s.terminals) : KeptIntent n s s' where
  mono := hi.ge
  dials := fun _ => hl
  current := fun _ h => by simpa [State.isCurrentConnect, hi, hd] using h
  host := fun _ _ => hh
  connection := fun _ _ => .inl hc
  retryable := fun _ _ => hr
  terminals := fun _ _ h => ht h

/-- A write that leaves them alone, and the terminals too. -/
theorem same (hi : s'.connectIntent = s.connectIntent) (hd : s'.disposed = s.disposed)
    (hl : course n s'.log = course n s.log) (hh : s'.host = s.host)
    (hc : s'.connection = s.connection) (hr : s'.lastDialRetryable = s.lastDialRetryable)
    (ht : s'.terminals = s.terminals) : KeptIntent n s s' :=
  plain hi hd hl hh hc hr fun _ => ht ▸ List.Subset.refl _

/-- A write for another, current intent. -/
theorem other {m : Nat} (hmn : m ≠ n) (hm : s.isCurrentConnect m = true)
    (hi : s'.connectIntent = s.connectIntent) (hl : course n s'.log = course n s.log) :
    KeptIntent n s s' := by
  have hnot : s'.isCurrentConnect n ≠ true := by
    intro h
    rw [State.isCurrentConnect_iff] at hm h
    omega
  exact ⟨hi.ge, fun _ => hl, fun _ h => absurd h hnot, fun _ h => absurd h hnot,
    fun _ h => absurd h hnot, fun _ h => absurd h hnot, fun _ h => absurd h hnot⟩

/-- A write after which the intent is not current. -/
theorem superseded (hi : s.connectIntent ≤ s'.connectIntent) (hl : s'.log = s.log)
    (h : n ≤ s.connectIntent → s'.isCurrentConnect n ≠ true) : KeptIntent n s s' :=
  ⟨hi, fun _ => by rw [hl], fun hn h' => absurd h' (h hn), fun hn h' => absurd h' (h hn),
    fun hn h' => absurd h' (h hn), fun hn h' => absurd h' (h hn), fun hn h' => absurd h' (h hn)⟩

end KeptIntent

theorem Write.keptIntent {n : Nat} (hn : .intent n ∉ o) (w : Write ok env g o b s s') :
    KeptIntent n s s' := by
  have hne : ∀ m, .intent m ∈ o → m ≠ n := by
    rintro m hm rfl
    exact hn hm
  cases w with
  | minor h _ _ =>
    have hc := SameCore.of_core h
    exact .same hc.connectIntent hc.disposed (by rw [hc.log]) hc.host hc.connection
      hc.lastDialRetryable hc.terminals
  | asked q _ _ => exact .same rfl rfl (by simp [Course.step]) rfl rfl rfl rfl
  | answered q a h =>
    exact .same rfl rfl (by simp [Course.step, ladderFailure_other h.2.1 hn]) rfl rfl rfl rfl
  | dialled m d h hm hcur =>
    exact .same rfl rfl (by simp [Course.step, hne m hm]) rfl rfl rfl rfl
  | retryable m b hm hcur => exact .other (hne m hm) hcur rfl rfl
  | presented m p d h hm hcur =>
    exact .other (hne m hm) hcur rfl (by simp [Course.step, hne m hm])
  | adopt m h c p hm hcur => exact .other (hne m hm) hcur rfl (by simp [Course.step])
  | rehost m h p hm hcur => exact .other (hne m hm) hcur rfl rfl
  | once k => exact .same rfl rfl (by simp [Course.step]) rfl rfl rfl rfl
  | drop _ =>
    exact ⟨le_rfl, fun _ => rfl, fun _ h => h, fun _ _ => rfl, fun _ _ => .inr rfl, fun _ _ => rfl,
      fun _ _ _ => List.Subset.refl _⟩
  | intent _ =>
    refine .superseded (Nat.le_succ _) rfl fun hle h => ?_
    have h' := (State.isCurrentConnect_iff.mp h).2
    simp only at h'
    omega
  | ladderEnded m => exact .same rfl rfl (by simp [Course.step]) rfl rfl rfl rfl
  | signalled b => exact .same rfl rfl (by simp [Course.step]) rfl rfl rfl rfl
  | dispose =>
    refine .superseded le_rfl rfl fun _ h => ?_
    cases (State.isCurrentConnect_iff.mp h).1
  | unhost p hd =>
    refine .superseded le_rfl rfl fun _ h => ?_
    have hd' := (State.isCurrentConnect_iff.mp h).1
    simp [hd] at hd'
  | empty => exact .plain rfl rfl rfl rfl rfl rfl fun _ => List.nil_subset _
  | remove r keep =>
    obtain ⟨_, he⟩ := s.removeTerminal_eq r keep
    rw [he]
    exact .plain rfl rfl rfl rfl rfl rfl fun _ => List.erase_subset
  | open_ row t hc =>
    refine .plain rfl rfl rfl rfl rfl rfl fun h => ?_
    rw [h] at hc
    cases hc
  | queued r t p => exact .same rfl rfl (by simp [Course.step]) rfl rfl rfl rfl
  | sends => exact .same rfl rfl (by simp [Course.step]) rfl rfl rfl rfl
  | _ => exact .same rfl rfl rfl rfl rfl rfl rfl

/-- A write that takes the attach along with the pump, or leaves the PTY. -/
theorem KeptAttach.of_records {r a : Nat}
    (h : s'.records r = s.records r ∨
      (s.records r).attachToken < (s'.records r).attachToken ∧
        (s.records r).pumpToken ≤ (s'.records r).pumpToken ∨
      (s'.records r).attachToken = (s.records r).attachToken ∧
        (s.records r).pumpToken < (s'.records r).pumpToken ∧
        ((s.records r).pty = none → (s'.records r).pty = none) ∨
      (s'.records r).attachToken = (s.records r).attachToken ∧
        (s'.records r).pumpToken = (s.records r).pumpToken ∧
        (s'.records r).pty = (s.records r).pty) : KeptAttach r a s s' := by
  rcases h with h | ⟨h, hp⟩ | ⟨h, hp, hn⟩ | ⟨h, hp, hn⟩
  · exact ⟨by rw [h], by rw [h], fun _ _ hq => by rw [h]; exact hq, fun _ _ _ => by rw [h]⟩
  · exact ⟨h.le, hp, fun ha he _ => by omega, fun ha he _ => by omega⟩
  · exact ⟨h.ge, hp.le, fun _ _ hq => hn hq, fun _ _ he => by omega⟩
  · exact ⟨h.ge, hp.ge, fun _ _ hq => by rw [hn]; exact hq, fun _ _ _ => hn⟩

theorem KeptAttach.setRecord {r a i : Nat} {f : TerminalRecord → TerminalRecord} {t : State}
    (hr : t.records = (s.setRecord i f).records)
    (h : r = i → KeptAttach r a s t) : KeptAttach r a s t := by
  by_cases hri : r = i
  · exact h hri
  · exact .of_records (.inl (by rw [hr, State.setRecord_other _ _ _ hri]))

theorem Write.keptAttach {r a : Nat} (hi : Inv ok s) (hn : .attach r a ∉ o)
    (w : Write ok env g o b s s') : KeptAttach r a s s' := by
  -- an attach that is current has one owner
  have hne : ∀ i, .attach i (s.records i).attachToken ∈ o → r = i → (s.records r).attachToken ≠ a := by
    rintro i hm rfl rfl
    exact hn hm
  cases w with
  | minor h _ _ =>
    have hc := SameCore.of_core h
    exact .of_records (.inr (.inr (.inr ⟨hc.attachToken r, hc.pumpToken r, hc.pty r⟩)))
  | detach =>
    refine .of_records ?_
    rw [State.detachTerminals_records]
    split
    · exact .inr (.inl (by simp))
    · exact .inl rfl
  | empty =>
    refine .of_records ?_
    show s.detachTerminals.records r = _ ∨ _ < (s.detachTerminals.records r).attachToken ∧
        _ ≤ (s.detachTerminals.records r).pumpToken ∨ _
    rw [State.detachTerminals_records]
    split
    · exact .inr (.inl (by simp))
    · exact .inl rfl
  | remove i keep =>
    obtain ⟨_, he⟩ := s.removeTerminal_eq i keep
    rw [he]
    refine .setRecord (i := i) (f := fun t =>
      { t with attachToken := t.attachToken + 1, pumpToken := t.pumpToken + 1, pty := none }) rfl
      fun h => .of_records (.inr (.inl ?_))
    subst h
    simp
  | abandon i _ =>
    refine .setRecord rfl fun h => .of_records (.inr (.inr (.inl ?_)))
    subst h
    simp
  | eof i _ hm =>
    refine .setRecord rfl fun h => ?_
    have hna := hne i hm h
    subst h
    exact ⟨by simp, by simp, fun _ _ _ => by simp, fun _ he _ => absurd (by simpa using he) hna⟩
  | opening i _ =>
    refine .setRecord rfl fun h => .of_records (.inr (.inl ?_))
    subst h
    simp
  | opened i op ref id command geometry mode token result hm =>
    refine .setRecord rfl fun h => ?_
    have hna := hne i hm h
    subst h
    have he : ((s.setRecord r (·.openedOn result.pty)).records r).attachToken =
        (s.records r).attachToken := by rw [State.setRecord_same]; rfl
    exact ⟨he.ge, by rw [State.setRecord_same]; rfl, fun _ h' _ => absurd (he.symm.trans h') hna,
      fun _ h' _ => absurd (he.symm.trans h') hna⟩
  | pumping i _ =>
    refine .setRecord rfl fun h => .of_records (.inr (.inr (.inl ?_)))
    subst h
    simp
  | rekey i row f _ hf _ =>
    refine .setRecord rfl fun h => .of_records (.inr (.inr (.inr ?_)))
    subst h
    rw [State.setRecord_same]
    exact ⟨(congrArg TerminalRecord.attachToken hf :), (congrArg TerminalRecord.pumpToken hf :),
      (congrArg TerminalRecord.pty hf :)⟩
  | open_ row t _ _ _ _ ht =>
    refine .setRecord (i := s.nextRecord) (f := fun _ => t) rfl fun h =>
      .of_records (.inr (.inr (.inr ?_)))
    subst h
    obtain ⟨ha, hp, hq⟩ := hi.unused
    show ((s.setRecord s.nextRecord fun _ => t).records s.nextRecord).attachToken = _ ∧
      ((s.setRecord s.nextRecord fun _ => t).records s.nextRecord).pumpToken = _ ∧
      ((s.setRecord s.nextRecord fun _ => t).records s.nextRecord).pty = _
    rw [State.setRecord_same, ha, hp, hq]
    exact ⟨(congrArg TerminalRecord.attachToken ht :), (congrArg TerminalRecord.pumpToken ht :),
      (congrArg TerminalRecord.pty ht :)⟩
  | queued i t p =>
    refine .setRecord (i := i) (f := fun u => { u with operationQueue := t }) rfl fun h =>
      .of_records (.inr (.inr (.inr ?_)))
    subst h
    simp
  | sequence i _ =>
    refine .setRecord rfl fun h => .of_records (.inr (.inr (.inr ?_)))
    subst h
    simp
  | _ => exact .of_records (.inl rfl)

theorem Write.keptCall {t : Nat} (hn : .call t ∉ o) (w : Write ok env g o b s s') :
    KeptCall t s s' := by
  have hlog : ∀ e : Event, ¬ e.isOf t → ∀ e', e'.isOf t → e' ∈ s.log ++ [e] → e' ∈ s.log := by
    intro e he e' he' hm
    rcases mem_snoc.mp hm with h | h
    · exact h
    · exact absurd (h ▸ he') he
  cases w with
  | minor h _ _ =>
    have hc := SameCore.of_core h
    exact ⟨fun h => hc.settledTurns ▸ h, fun _ _ h => hc.log ▸ h⟩
  | asked q hq ha =>
    refine ⟨id, hlog _ ?_⟩
    obtain ⟨op, q⟩ := q
    cases q with
    | ptyOperation => exact ha.elim
    | _ => exact id
  | answered q a h =>
    refine ⟨id, hlog _ ?_⟩
    obtain ⟨op, q⟩ := q
    cases q with
    | ptyOperation pty id seq p r ticket =>
      rintro rfl
      exact hn (h.2.2 pty id seq p r _ rfl)
    | _ => exact id
  | dialled | presented | once | ladderEnded | signalled => exact ⟨id, hlog _ id⟩
  | remove r keep =>
    obtain ⟨_, he⟩ := s.removeTerminal_eq r keep
    rw [he]
    exact ⟨id, fun _ _ h => h⟩
  | queued r ticket p hm =>
    refine ⟨id, hlog _ ?_⟩
    rintro rfl
    exact hn hm
  | adopt m h c p => exact ⟨id, hlog _ id⟩
  | sends op pty rid sequence payload r ticket _ hs =>
    refine ⟨id, hlog _ ?_⟩
    rintro rfl
    exact hn hs.owner
  | settle ticket hm =>
    refine ⟨fun h => ?_, fun _ _ h => h⟩
    rcases List.mem_cons.mp h with rfl | h
    · exact absurd hm hn
    · exact h
  | _ => exact ⟨id, fun _ _ h => h⟩

theorem Write.kept {x : Tok} (hi : Inv ok s) (hx : x ∉ o) (w : Write ok env g o b s s') :
    Kept x s s' := by
  cases x with
  | intent n => exact w.keptIntent hx
  | attach r a => exact w.keptAttach hi hx
  | call t => exact w.keptCall hx

/-! ### The host, its connection and the trust in it -/

namespace LinkInv

/-- A write that leaves them alone. -/
theorem frame (hi : LinkInv s) (hs : s'.snapshot.trustDecision = s.snapshot.trustDecision)
    (hh : s'.host = s.host) (hc : s'.connection = s.connection) (hcli : s'.hostCli = s.hostCli)
    (ho : s'.onceTrusted = s.onceTrusted) (hn : s'.connectIntent = s.connectIntent)
    (hl : s.log ⊆ s'.log) (ha : ∀ c, .adopted c ∈ s'.log → .adopted c ∈ s.log)
    (hu : ∀ n, s.connectIntent < n → course n s'.log = course n s.log) : LinkInv s' where
  hostCli := by rw [hcli, hc, hi.hostCli]
  verified := fun c h => by
    obtain ⟨host, hhost, hv⟩ := hi.verified c (hc ▸ h)
    exact ⟨host, hh ▸ hhost, hv.mono hl⟩
  stripped := fun h hs => hi.stripped h (hh ▸ hs)
  decision := fun d h => by
    obtain ⟨host, hhost, hd⟩ := hi.decision d (hs ▸ h)
    exact ⟨host, hh ▸ hhost, hd⟩
  adopted := fun c h => by
    obtain ⟨host, hv⟩ := hi.adopted c (ha c h)
    exact ⟨host, hv.mono hl⟩
  once := fun k h => hl (hi.once k (ho ▸ h))
  unborn := fun n h => by
    rw [hn] at h
    rw [hu n h]
    exact hi.unborn n h

/-- The same for a write that leaves the log alone too. -/
theorem same (hi : LinkInv s) (hs : s'.snapshot.trustDecision = s.snapshot.trustDecision)
    (hh : s'.host = s.host) (hc : s'.connection = s.connection) (hcli : s'.hostCli = s.hostCli)
    (ho : s'.onceTrusted = s.onceTrusted) (hn : s'.connectIntent = s.connectIntent)
    (hl : s'.log = s.log) : LinkInv s' :=
  hi.frame hs hh hc hcli ho hn (hl ▸ List.Subset.refl _) (fun _ h => hl ▸ h) fun n _ => by rw [hl]

/-- A log entry. -/
theorem addLog (hi : LinkInv s) (e : Event) (ha : ∀ c, e ≠ .adopted c)
    (he : ∀ n, s.connectIntent < n → Course.step n ⟨0, false, false⟩ e = ⟨0, false, false⟩) :
    LinkInv (s.addLog e) :=
  hi.frame rfl rfl rfl rfl rfl rfl (List.subset_append_left _ _)
    (fun c h => (List.mem_append.mp h).resolve_right fun h =>
      ha c (List.mem_singleton.mp h).symm) fun n hn => by simp [hi.unborn n hn, he n hn]

/-- A snapshot update that keeps the trust decision or takes it back. -/
theorem setSnapshot (hi : LinkInv s) (p : ConnectionSnapshot → ConnectionSnapshot)
    (hp : (p s.snapshot).trustDecision = s.snapshot.trustDecision ∨
      (p s.snapshot).trustDecision = none) : LinkInv (s.setSnapshot p) where
  hostCli := hi.hostCli
  verified := hi.verified
  stripped := hi.stripped
  decision := fun d h => by
    rcases hp with hp | hp
    · exact hi.decision d (by rwa [State.setSnapshot_trustDecision, hp] at h)
    · rw [State.setSnapshot_trustDecision, hp] at h
      cases h
  adopted := hi.adopted
  once := hi.once
  unborn := hi.unborn

end LinkInv

theorem Write.linkInv (hi : LinkInv s) (ho : o ⊆ minted s) (w : Write ok env g o b s s') :
    LinkInv s' := by
  -- an intent to come is not the current one
  have hborn : ∀ {m n}, s.isCurrentConnect m = true → s.connectIntent < n → m ≠ n := by
    intro m n hm hn
    have := (State.isCurrentConnect_iff.mp hm).2
    omega
  cases w with
  | minor h _ _ =>
    have hc := SameCore.of_core h
    exact hi.same (by rw [hc.snapshot]) hc.host hc.connection hc.hostCli hc.onceTrusted
      hc.connectIntent hc.log
  | asked q _ _ => exact hi.addLog _ (fun _ h => by cases h) fun _ _ => rfl
  | answered q a h =>
    refine hi.addLog _ (fun _ h => by cases h) fun n hn => ?_
    have hno : .intent n ∉ o := fun hm => absurd (ho hm) (Nat.not_le.mpr hn)
    simp [Course.step, ladderFailure_other h.2.1 hno]
  | patch p hp => exact hi.setSnapshot p (hp.trust.imp id And.left)
  | dialled m d h hm hcur =>
    exact hi.addLog _ (fun _ h => by cases h) fun n hn => by simp [Course.step, hborn hcur hn]
  | presented m p d h hm hcur hhost hid hgw hreason hp =>
    have hlog : LinkInv (s.addLog (.presented m)) :=
      hi.addLog _ (fun _ h => by cases h) fun n hn => by simp [Course.step, hborn hcur hn]
    refine ⟨hlog.hostCli, hlog.verified, hlog.stripped, fun d' hd' => ?_, hlog.adopted, hlog.once, hlog.unborn⟩
    have hd : d = d' := by
      rw [State.setSnapshot_trustDecision, State.addLog_snapshot, hp] at hd'
      exact Option.some.inj hd'
    subst hd
    exact ⟨h, hhost, hid, hgw, hreason⟩
  | adopt m h c p _ _ _ hhost hv _ hp =>
    have hl : s.log ⊆ s.log ++ [.adopted c] := List.subset_append_left _ _
    refine ⟨rfl, fun c' hc' => ?_, hi.stripped, fun d hd => ?_, fun c' hc' => ?_,
      fun k hk => hl (hi.once k hk), fun n hn => ?_⟩
    · cases hc'
      exact ⟨h, hhost, hv.mono hl⟩
    · have hd' : (p s.snapshot).trustDecision = some d := hd
      rw [hp] at hd'
      cases hd'
    · rcases mem_snoc.mp hc' with hc' | hc'
      · obtain ⟨h', hv'⟩ := hi.adopted c' hc'
        exact ⟨h', hv'.mono hl⟩
      · cases hc'
        exact ⟨h, hv.mono hl⟩
    · have hu : course n (s.log ++ [.adopted c]) = course n s.log := by simp [Course.step]
      exact hu.trans (hi.unborn n hn)
  | rehost m h p _ _ hc hp =>
    refine ⟨hi.hostCli, fun c hc' => ?_, fun h' hh => ?_, fun d hd => ?_, hi.adopted, hi.once, hi.unborn⟩
    · have hc'' : s.connection = some c := hc'
      rw [hc] at hc''
      cases hc''
    · cases hh
      exact hostWithoutTransientPassphrase_twice h
    · have hd' : (p s.snapshot).trustDecision = some d := hd
      rw [hp] at hd'
      cases hd'
  | once k =>
    have hlog : LinkInv (s.addLog (.trustedOnce k)) := hi.addLog _ (fun _ h => by cases h) fun _ _ => rfl
    refine ⟨hlog.hostCli, hlog.verified, hlog.stripped, hlog.decision, hlog.adopted, fun k' hk' => ?_, hlog.unborn⟩
    cases hk'
    exact List.mem_append_right _ (List.mem_singleton.mpr rfl)
  | accepting p hp => exact hi.setSnapshot p (.inr hp)
  | drop _ => exact ⟨rfl, (fun _ h => by cases h), hi.stripped, hi.decision, hi.adopted, hi.once,
      hi.unborn⟩
  | intent _ => exact ⟨hi.hostCli, hi.verified, hi.stripped, hi.decision, hi.adopted, hi.once,
      fun n hn => hi.unborn n (Nat.lt_of_succ_lt hn)⟩
  | ladderEnded m => exact hi.addLog _ (fun _ h => by cases h) fun _ _ => rfl
  | signalled b => exact hi.addLog _ (fun _ h => by cases h) fun _ _ => rfl
  | unhost p _ hc hp =>
    refine ⟨hi.hostCli, fun c hc' => ?_, (fun _ hh => by cases hh), fun d hd => ?_, hi.adopted,
      hi.once, hi.unborn⟩
    · have hc'' : s.connection = some c := hc'
      rw [hc] at hc''
      cases hc''
    · have hd' : (p s.snapshot).trustDecision = some d := hd
      rw [hp] at hd'
      cases hd'
  | remove r keep =>
    obtain ⟨_, he⟩ := s.removeTerminal_eq r keep
    rw [he]
    exact hi.same rfl rfl rfl rfl rfl rfl rfl
  | queued r t p =>
    exact (hi.addLog (.queued r t (s.records r).pty p (s.records r).operationQueue)
      (fun _ h => by cases h) fun _ _ => rfl).same rfl rfl rfl rfl rfl rfl rfl
  | sends => exact hi.addLog _ (fun _ h => by cases h) fun _ _ => rfl
  | _ => exact hi.same rfl rfl rfl rfl rfl rfl rfl

/-! ### The terminals -/

theorem sent_snoc (pty : SshPtyRef) (log : List Event) (e : Event) :
    sent pty (log ++ [e]) = sent pty log + sent pty [e] := by
  simp [sent, List.countP_append]

namespace TerminalInv

/-- A write that leaves the terminals and the transport alone. -/
theorem frame (hi : TerminalInv ok s) (ht : s'.terminals = s.terminals)
    (hn : s'.nextRecord = s.nextRecord) (hr : ∀ r, (s'.records r).core = (s.records r).core)
    (hc : s'.connection = s.connection)
    (hl : ∀ pty, s.log.any (Event.opens pty) = true → s'.log.any (Event.opens pty) = true)
    (hs : ∀ pty, sent pty s'.log ≠ 0 → s'.log.any (Event.opens pty) = true) : TerminalInv ok s' := by
  have hp : ∀ r, (s'.records r).pty = (s.records r).pty := fun r =>
    (congrArg TerminalRecord.pty (hr r) :)
  exact {
    nodup := ht ▸ hi.nodup
    bound := fun r h => hn ▸ hi.bound r (ht ▸ h)
    fresh := fun r h => (hr r).trans (hi.fresh r (hn ▸ h))
    held := fun r pty h => ht ▸ hi.held r pty (hp r ▸ h)
    generation := fun hd r pty h => hc ▸ hi.generation hd r pty (hp r ▸ h)
    opened := fun r pty h => hl pty (hi.opened r pty (hp r ▸ h))
    sentTo := hs }

/-- The same for a write that leaves the log alone too. -/
theorem same (hi : TerminalInv ok s) (ht : s'.terminals = s.terminals)
    (hn : s'.nextRecord = s.nextRecord) (hr : ∀ r, (s'.records r).core = (s.records r).core)
    (hc : s'.connection = s.connection) (hl : s'.log = s.log) : TerminalInv ok s' :=
  hi.frame ht hn hr hc (fun _ h => hl ▸ h) fun pty h => hl ▸ hi.sentTo pty (hl ▸ h)

/-- A log entry, unless it sends to a PTY the platform did not open. -/
theorem addLog (hi : TerminalInv ok s) (e : Event)
    (he : ∀ pty, sent pty [e] ≠ 0 → s.log.any (Event.opens pty) = true) :
    TerminalInv ok (s.addLog e) := by
  refine hi.frame rfl rfl (fun _ => rfl) rfl (fun pty h => ?_) fun pty h => ?_
  · rw [State.addLog_log, List.any_append, h, Bool.true_or]
  · rw [State.addLog_log, List.any_append]
    rw [State.addLog_log, sent_snoc] at h
    by_cases h0 : sent pty s.log = 0
    · rw [he pty (by omega), Bool.true_or]
    · rw [hi.sentTo pty h0, Bool.true_or]

/-- A write that closes terminals or PTYs. -/
theorem shrink (hi : TerminalInv ok s) (hnd : s'.terminals.Nodup)
    (ht : s'.terminals ⊆ s.terminals) (hn : s'.nextRecord = s.nextRecord)
    (hf : ∀ r, s.nextRecord ≤ r → (s'.records r).core = (s.records r).core)
    (hp : ∀ r pty, (s'.records r).pty = some pty → (s.records r).pty = some pty ∧ r ∈ s'.terminals)
    (hc : s'.connection = s.connection) (hl : s'.log = s.log) : TerminalInv ok s' where
  nodup := hnd
  bound := fun r h => hn ▸ hi.bound r (ht h)
  fresh := fun r h => (hf r (hn ▸ h)).trans (hi.fresh r (hn ▸ h))
  held := fun r pty h => (hp r pty h).2
  generation := fun hd r pty h => hc ▸ hi.generation hd r pty (hp r pty h).1
  opened := fun r pty h => hl ▸ hi.opened r pty (hp r pty h).1
  sentTo := fun pty h => hl ▸ hi.sentTo pty (hl ▸ h)

/-- A write of one record, in use already, that gives it no PTY. -/
theorem setRecord (hi : TerminalInv ok s) (r : Nat) (f : TerminalRecord → TerminalRecord)
    (hr : r < s.nextRecord)
    (hf : (f (s.records r)).pty = (s.records r).pty ∨ (f (s.records r)).pty = none) :
    TerminalInv ok (s.setRecord r f) := by
  refine hi.shrink hi.nodup (List.Subset.refl _) rfl (fun i h => ?_) (fun i pty h => ?_) rfl rfl
  · rw [State.setRecord_other _ _ _ (by omega)]
  · rw [State.setRecord_records] at h
    split at h
    · next he =>
      subst he
      rcases hf with hf | hf
      · rw [hf] at h
        exact ⟨h, hi.held i pty h⟩
      · rw [hf] at h
        cases h
    · exact ⟨h, hi.held i pty h⟩

theorem detach (hi : TerminalInv ok s) : TerminalInv ok s.detachTerminals := by
  refine hi.shrink hi.nodup (List.Subset.refl _) rfl (fun r h => ?_) (fun r pty h => ?_) rfl rfl
  · rw [State.detachTerminals_records, if_neg]
    exact fun hm => absurd (hi.bound r hm) (by omega)
  · rw [State.detachTerminals_records] at h
    split at h
    · cases h
    · exact ⟨h, hi.held r pty h⟩

end TerminalInv

theorem Write.terminalInv (hi : TerminalInv ok s) (w : Write ok env g o b s s') :
    TerminalInv ok s' := by
  have hnot : ∀ e : Event, (∀ pty, sent pty [e] = 0) →
      ∀ pty, sent pty [e] ≠ 0 → s.log.any (Event.opens pty) = true :=
    fun e he pty h => absurd (he pty) h
  cases w with
  | minor h _ _ =>
    have hc := SameCore.of_core h
    exact hi.same hc.terminals hc.nextRecord hc.record hc.connection hc.log
  | asked q _ ha =>
    refine hi.addLog _ ?_
    obtain ⟨op, q⟩ := q
    cases q with
    | ptyOperation => exact ha.elim
    | _ => exact hnot _ fun _ => rfl
  | answered q a _ => exact hi.addLog _ (hnot _ fun _ => rfl)
  | dialled m d h => exact hi.addLog _ (hnot _ fun _ => rfl)
  | presented m p =>
    exact (hi.addLog (.presented m) (hnot _ fun _ => rfl)).same rfl rfl (fun _ => rfl) rfl rfl
  | sends op pty rid sequence payload r ticket _ hs =>
    refine hi.addLog _ fun pty' h => ?_
    have he : pty = pty' := by
      by_contra hne
      exact h (by simp [sent, hne])
    exact he ▸ hi.opened _ _ hs.holds
  | adopt m h c p _ _ hc =>
    have hlog := hi.addLog (.adopted c) (hnot _ fun _ => rfl)
    refine ⟨hi.nodup, hi.bound, hi.fresh, hi.held, fun hd r pty hr => ?_, hlog.opened, hlog.sentTo⟩
    obtain ⟨c', hc', _⟩ := hi.generation hd r pty hr
    rw [hc] at hc'
    cases hc'
  | once k => exact (hi.addLog (.trustedOnce k) (hnot _ fun _ => rfl)).same rfl rfl (fun _ => rfl) rfl rfl
  -- a dropped connection leaves no open PTY, unless such steps are allowed
  | drop hd =>
    refine ⟨hi.nodup, hi.bound, hi.fresh, hi.held, fun hnd r pty hr => ?_, hi.opened, hi.sentTo⟩
    obtain ⟨c, hc, _⟩ := hi.generation hnd r pty hr
    have hnone := hd hnd (hc ▸ rfl) r (hi.held r pty hr)
    have hr' : (s.records r).pty = some pty := hr
    rw [hnone] at hr'
    cases hr'
  | ladderEnded m => exact hi.addLog _ (hnot _ fun _ => rfl)
  | signalled b => exact hi.addLog _ (hnot _ fun _ => rfl)
  | detach => exact hi.detach
  | empty =>
    refine hi.shrink List.nodup_nil (List.nil_subset _) rfl (fun r h => ?_) (fun r pty h => ?_) rfl rfl
    · show (s.detachTerminals.records r).core = _
      rw [State.detachTerminals_records, if_neg]
      exact fun hm => absurd (hi.bound r hm) (by omega)
    · have h' : (s.detachTerminals.records r).pty = some pty := h
      have hm : r ∈ s.terminals := hi.detach.held r pty h'
      rw [State.detachTerminals_records, if_pos hm] at h'
      cases h'
  | remove r keep hr =>
    obtain ⟨_, he⟩ := s.removeTerminal_eq r keep
    rw [he]
    have hset := hi.setRecord r
      (fun t => { t with attachToken := t.attachToken + 1, pumpToken := t.pumpToken + 1, pty := none })
      hr (.inr rfl)
    refine hset.shrink (hi.nodup.erase r) List.erase_subset rfl (fun _ _ => rfl)
      (fun i pty h => ⟨h, ?_⟩) rfl rfl
    refine (List.mem_erase_of_ne ?_).mpr (hset.held i pty h)
    rintro rfl
    have h' := h
    rw [State.setRecord_same] at h'
    cases h'
  | abandon r hr => exact hi.setRecord r _ hr (.inr rfl)
  | eof r hr _ => exact hi.setRecord r _ hr (.inr rfl)
  | opening r hr => exact hi.setRecord r _ (hi.bound r hr) (.inr rfl)
  | opened r op ref id command geometry mode token result _ hr hc _ hs =>
    have hrb := hi.bound r hr
    have hopen : s.log.any (Event.opens result.pty) = true := by
      rw [hs, State.addLog_log, List.any_append]
      simp [Event.opens]
    -- only this record holds the new PTY
    have hpty : ∀ i pty, ((s.setRecord r (·.openedOn result.pty)).records i).pty = some pty →
        i = r ∧ pty = result.pty ∨ (s.records i).pty = some pty := by
      intro i pty h
      rw [State.setRecord_records] at h
      split at h
      · next he => exact .inl ⟨he, (Option.some.inj h).symm⟩
      · exact .inr h
    refine ⟨hi.nodup, hi.bound, fun i h => ?_, fun i pty h => ?_, fun hd i pty h => ?_,
      fun i pty h => ?_, hi.sentTo⟩
    · have h' : s.nextRecord ≤ i := h
      rw [State.setRecord_other _ _ _ (by omega)]
      exact hi.fresh i h
    · rcases hpty i pty h with ⟨rfl, _⟩ | h
      · exact hr
      · exact hi.held i pty h
    · rcases hpty i pty h with ⟨_, rfl⟩ | h
      · exact hc
      · exact hi.generation hd i pty h
    · rcases hpty i pty h with ⟨_, rfl⟩ | h
      · exact hopen
      · exact hi.opened i pty h
  | pumping r hr => exact hi.setRecord r _ hr (.inl rfl)
  | rekey r row f hr hf _ =>
    exact hi.setRecord r f (hi.bound r hr) (.inl (congrArg TerminalRecord.pty hf :))
  | open_ row t _ _ _ _ ht =>
    -- the record is new, so it is bound to no terminal and holds no PTY
    have hfresh : s.nextRecord ∉ s.terminals := fun hm => absurd (hi.bound _ hm) (by omega)
    have hpty : ∀ i pty, ((s.setRecord s.nextRecord fun _ => t).records i).pty = some pty →
        (s.records i).pty = some pty := by
      intro i pty h
      rw [State.setRecord_records] at h
      split at h
      · have hnone : t.pty = none := (congrArg TerminalRecord.pty ht :)
        rw [hnone] at h
        cases h
      · exact h
    refine ⟨?_, fun r h => ?_, fun r h => ?_, fun r pty h => ?_, fun hd r pty h => ?_,
      fun r pty h => ?_, hi.sentTo⟩
    · exact List.nodup_append.mpr ⟨hi.nodup, by simp, fun a ha b hb => by
        rw [List.mem_singleton.mp hb]
        rintro rfl
        exact hfresh ha⟩
    · rcases mem_snoc.mp h with h | h
      · exact Nat.lt_succ_of_lt (hi.bound r h)
      · rw [h]
        exact Nat.lt_succ_self _
    · have h' : s.nextRecord + 1 ≤ r := h
      show ((s.setRecord s.nextRecord fun _ => t).records r).core = _
      rw [State.setRecord_other _ _ _ (by omega)]
      exact hi.fresh r (by omega)
    · exact List.mem_append_left _ (hi.held r pty (hpty r pty h))
    · exact hi.generation hd r pty (hpty r pty h)
    · exact hi.opened r pty (hpty r pty h)
  | queued r t p hm hr =>
    have hlog := hi.addLog (.queued r t (s.records r).pty p (s.records r).operationQueue)
      (hnot _ fun _ => rfl)
    exact hlog.setRecord r (fun u => { u with operationQueue := t }) (hi.bound r hr) (.inl rfl)
  | sequence r hr => exact hi.setRecord r _ hr (.inl rfl)
  | _ => exact hi.same rfl rfl (fun _ => rfl) rfl rfl

/-! ### The queued operations -/

namespace QueueInv

theorem frame (hi : QueueInv s) (ht : s.tickets ≤ s'.tickets) (hl : s'.log = s.log)
    (hs : s'.settledTurns = s.settledTurns) : QueueInv s' where
  unissued := fun t hlt => by
    rw [hl, hs]
    exact hi.unissued t (ht.trans_lt hlt)

/-- A log entry about no ticket, or about one that was given out. -/
theorem addLog (hi : QueueInv s) (e : Event) (he : ∀ t, e.isOf t → t ≤ s.tickets) :
    QueueInv (s.addLog e) where
  unissued := fun t hlt => by
    refine ⟨fun e' he' hof => ?_, (hi.unissued t hlt).2⟩
    rcases mem_snoc.mp he' with h | h
    · exact (hi.unissued t hlt).1 e' h hof
    · cases h
      exact absurd (he t hof) (Nat.not_le.mpr hlt)

end QueueInv

theorem Write.queueInv (hi : QueueInv s) (ho : o ⊆ minted s) (w : Write ok env g o b s s') :
    QueueInv s' := by
  cases w with
  | minor h _ ht => exact hi.frame ht (SameCore.of_core h).log (SameCore.of_core h).settledTurns
  | asked q _ ha =>
    refine hi.addLog _ fun t hof => ?_
    obtain ⟨op, q⟩ := q
    cases q with
    | ptyOperation => exact ha.elim
    | _ => exact hof.elim
  | answered q a h =>
    refine hi.addLog _ fun t hof => ?_
    obtain ⟨op, q⟩ := q
    cases q with
    | ptyOperation pty id seq p r ticket =>
      have hmem : Tok.call ticket ∈ o := h.2.2 pty id seq p r ticket rfl
      cases hof
      exact ho hmem
    | _ => exact hof.elim
  | dialled m d h => exact hi.addLog _ fun _ hof => hof.elim
  | presented m p => exact (hi.addLog (.presented m) fun _ hof => hof.elim).frame le_rfl rfl rfl
  | adopt m h c p => exact (hi.addLog (.adopted c) fun _ hof => hof.elim).frame le_rfl rfl rfl
  | once k => exact (hi.addLog (.trustedOnce k) fun _ hof => hof.elim).frame le_rfl rfl rfl
  | ladderEnded m => exact hi.addLog _ fun _ hof => hof.elim
  | signalled b => exact hi.addLog _ fun _ hof => hof.elim
  | remove r keep =>
    obtain ⟨_, he⟩ := s.removeTerminal_eq r keep
    rw [he]
    exact hi.frame le_rfl rfl rfl
  | queued r t p hm =>
    refine (hi.addLog (.queued r t (s.records r).pty p (s.records r).operationQueue)
      fun t' hof => ?_).frame le_rfl rfl rfl
    cases hof
    exact ho hm
  | sends op pty id sequence payload r ticket _ hs =>
    refine hi.addLog _ fun t hof => ?_
    cases hof
    exact ho hs.owner
  | settle t hm =>
    refine ⟨fun t' hlt => ⟨(hi.unissued t' hlt).1, fun hmem => ?_⟩⟩
    rcases List.mem_cons.mp hmem with rfl | hmem
    · exact absurd (ho hm) (Nat.not_le.mpr hlt)
    · exact (hi.unissued t' hlt).2 hmem
  | _ => exact hi.frame le_rfl rfl rfl

/-! ### The connections that are named -/

/-- A write that names no connection but one that was held. -/
theorem NamedInv.frame (hi : NamedInv s) (hl : s.log ⊆ s'.log)
    (hc : s'.connection = s.connection ∨ s'.connection = none)
    (hs : Linked s.log s.snapshot s'.snapshot) : NamedInv s' where
  current := fun c h => by
    rcases hc with hc | hc
    · exact hl (hi.current c (hc ▸ h))
    · rw [hc] at h
      cases h
  named := fun id h => by
    rcases hs with hs | hs | ⟨c, hm, hs⟩
    · obtain ⟨c, hm, hid⟩ := hi.named id (hs ▸ h)
      exact ⟨c, hl hm, hid⟩
    · rw [hs] at h
      cases h
    · rw [hs] at h
      exact ⟨c, hl hm, Option.some.inj h⟩

theorem Write.namedInv (hi : NamedInv s) (w : Write ok env g o b s s') : NamedInv s' := by
  have hadd : ∀ e : Event, s.log ⊆ s.log ++ [e] := fun e => List.subset_append_left _ _
  cases w with
  | minor h _ _ =>
    have hc := SameCore.of_core h
    exact hi.frame (hc.log ▸ List.Subset.refl _) (.inl hc.connection) (.inl (by rw [hc.snapshot]))
  | patch p hp => exact hi.frame (List.Subset.refl _) (.inl rfl) hp.link
  | presented m p d h _ _ _ _ _ _ _ _ _ _ hlink => exact hi.frame (hadd _) (.inl rfl) hlink
  | adopt m h c p _ _ _ _ _ _ _ _ _ _ _ hlink =>
    have hmem : .adopted c ∈ s.log ++ [.adopted c] :=
      List.mem_append_right _ (List.mem_singleton.mpr rfl)
    refine ⟨fun c' hc' => ?_, fun id hid => ?_⟩
    · cases hc'
      exact hmem
    · have hid' : (p s.snapshot).connectionId = some id := hid
      rw [hlink] at hid'
      exact ⟨c, hmem, Option.some.inj hid'⟩
  | rehost m h p _ _ _ _ _ _ _ _ hlink | accepting p _ _ _ _ hlink | unhost p _ _ _ _ _ _ hlink =>
    exact hi.frame (List.Subset.refl _) (.inl rfl) hlink
  | drop _ => exact hi.frame (List.Subset.refl _) (.inr rfl) (.inl rfl)
  | asked | answered | dialled | once | ladderEnded | signalled | queued | sends =>
    exact hi.frame (hadd _) (.inl rfl) (.inl rfl)
  | remove r keep =>
    obtain ⟨_, he⟩ := s.removeTerminal_eq r keep
    rw [he]
    exact hi.frame (List.Subset.refl _) (.inl rfl) (.inl rfl)
  | _ => exact hi.frame (List.Subset.refl _) (.inl rfl) (.inl rfl)

theorem Write.inv (hi : Inv ok s) (ho : o ⊆ minted s) (w : Write ok env g o b s s') : Inv ok s' :=
  { w.linkInv hi.toLinkInv ho, w.terminalInv hi.toTerminalInv, w.queueInv hi.toQueueInv ho,
    w.namedInv hi.toNamedInv with }

end PocketShell
