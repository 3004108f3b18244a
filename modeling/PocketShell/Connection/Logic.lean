import PocketShell.Connection.Invariant
import PocketShell.Coop.Discipline

/-!
# The logic of the controller

The discipline the threads of the controller keep, and the rules its methods are
verified with. A rule takes what is known before a step of a method (`Ctx`) and
gives back what is known after it; every method of the controller has one lemma
in this form.

* `Rest`: what holds, besides the invariant, whenever a thread parks.
* `Path`: a chain of writes of one step.
* `discipline`: tokens, relies and guarantees.
* `Ctx`: where a thread stands in its step.
-/

namespace PocketShell

open Coop (Async Thread Discipline)

/-! ## What holds at every await -/

/-- A connection the platform returned is held, or asked to be cancelled. -/
def Returned (result : SshConnectResult) (dial : Nat) (log : List Event) : Prop :=
  (∃ c : Connection, c.ref = result.ref ∧ c.dial = dial ∧ .adopted c ∈ log) ∨
    ∃ op id, .asked (op, .cancelOperation (.connection result.ref) id) ∈ log

variable (ok : Allowed)

/-- The calls whose answer obliges the caller to go on to something. -/
def Call.isOwing : Call → Bool
  | .connect _ | .cancelOperation (.connection _) _ | .tick (.cancelCapability (.connection _)) => true
  | _ => false

/-- The step got to what it owes: a connection it brings is held or cancelled, and
one whose cancelling it goes on with is closed. -/
structure Answered (l : StepLabel) (log : List Event) : Prop where
  returned : ∀ op options result, l = .reply (op, .connect options) (.ok result) →
    Returned result options.dial log
  cancelled : ∀ op ref id a, l = .reply (op, .cancelOperation (.connection ref) id) a →
    .asked (op, .tick (.cancelCapability (.connection ref))) ∈ log
  closed : ∀ op ref a, l = .reply (op, .tick (.cancelCapability (.connection ref))) a →
    ∃ id, .asked (op, .closeConnection ref id) ∈ log

structure Quiet (s : State) : Prop where
  /-- No connection is held while the ladder climbs. -/
  climbing : s.snapshot.phase = .reconnecting → s.connection = none
  /-- A host key that was put to the user is pending. -/
  shown : s.disposed = false → (course s.connectIntent s.log).shown = true →
    s.snapshot.trustDecision.isSome = true
  /-- The operations sent to the PTY of a terminal are counted. -/
  numbered : ¬ Reopens ok → ∀ r pty, (s.records r).pty = some pty →
    (s.records r).operationSequence = sent pty s.log
  unique : ¬ Reopens ok → ∀ r r' pty, (s.records r).pty = some pty →
    (s.records r').pty = some pty → r = r'

structure Rest (g : Segment) (s : State) : Prop extends Quiet ok s where
  answered : Answered g.label s.log

variable {ok} {env : Env} {g : Segment} {o : Set Tok} {b : Bool} {s s' : State}

theorem Returned.mono {result : SshConnectResult} {dial : Nat} {log log' : List Event}
    (h : Returned result dial log) (hl : log ⊆ log') : Returned result dial log' := by
  rcases h with ⟨c, hr, hd, hc⟩ | ⟨op, id, hc⟩
  · exact .inl ⟨c, hr, hd, hl hc⟩
  · exact .inr ⟨op, id, hl hc⟩

theorem Answered.mono {l : StepLabel} {log log' : List Event} (h : Answered l log)
    (hl : log ⊆ log') : Answered l log' where
  returned := fun op options result hlabel => (h.returned op options result hlabel).mono hl
  cancelled := fun op ref id a hlabel => hl (h.cancelled op ref id a hlabel)
  closed := fun op ref a hlabel => by
    obtain ⟨id, hm⟩ := h.closed op ref a hlabel
    exact ⟨id, hl hm⟩

variable {log : List Event}

theorem Answered.start {a : Input} : Answered (.start a) log :=
  ⟨(fun _ _ _ h => by cases h), (fun _ _ _ _ h => by cases h), fun _ _ _ h => by cases h⟩

theorem Answered.loop {l : Head} : Answered (.loop l) log :=
  ⟨(fun _ _ _ h => by cases h), (fun _ _ _ _ h => by cases h), fun _ _ _ h => by cases h⟩

variable {op : Operation}

variable {options : SshConnectOptions}

theorem Answered.connected {result : SshConnectResult} (h : Returned result options.dial log) :
    Answered (.reply (op, .connect options) (.ok result)) log where
  returned := fun _ _ _ he => by
    cases he
    exact h
  cancelled := fun _ _ _ _ he => by cases he
  closed := fun _ _ _ he => by cases he

theorem Answered.failed {e : SshCapabilityError} :
    Answered (.reply (op, .connect options) (.error e)) log :=
  ⟨(fun _ _ _ h => by cases h), (fun _ _ _ _ h => by cases h), fun _ _ _ h => by cases h⟩

theorem Answered.cancel {ref : SshConnectionRef} {id : String}
    {a : Ans (op, .cancelOperation (.connection ref) id)}
    (h : .asked (op, .tick (.cancelCapability (.connection ref))) ∈ log) :
    Answered (.reply (op, .cancelOperation (.connection ref) id) a) log where
  returned := fun _ _ _ he => by cases he
  cancelled := fun _ _ _ _ he => by
    cases he
    exact h
  closed := fun _ _ _ he => by cases he

theorem Answered.close {ref : SshConnectionRef} (id : String)
    {a : Ans (op, .tick (.cancelCapability (.connection ref)))}
    (h : .asked (op, .closeConnection ref id) ∈ log) :
    Answered (.reply (op, .tick (.cancelCapability (.connection ref))) a) log where
  returned := fun _ _ _ he => by cases he
  cancelled := fun _ _ _ _ he => by cases he
  closed := fun _ _ _ he => by
    cases he
    exact ⟨id, h⟩

variable {q : Call}

/-- An answer that obliges to nothing. -/
theorem Answered.free {a : Ans (op, q)} (hq : q.isOwing = false) : Answered (.reply (op, q) a) log where
  returned := fun _ _ _ h => by
    cases h
    cases hq
  cancelled := fun _ _ _ _ h => by
    cases h
    cases hq
  closed := fun _ _ _ h => by
    cases h
    cases hq

namespace Quiet

/-- A write that opens no PTY and sends nothing. -/
theorem frame (h : Quiet ok s)
    (hclimb : s'.snapshot.phase = .reconnecting → s'.connection = none)
    (hshown : s'.disposed = false → (course s'.connectIntent s'.log).shown = true →
      s'.snapshot.trustDecision.isSome = true)
    (hs : ∀ pty, sent pty s'.log = sent pty s.log)
    (hr : ∀ r pty, (s'.records r).pty = some pty → (s.records r).pty = some pty ∧
      (s'.records r).operationSequence = (s.records r).operationSequence) : Quiet ok s' where
  climbing := hclimb
  shown := hshown
  numbered := fun hn r pty hp => by
    rw [(hr r pty hp).2, hs]
    exact h.numbered hn r pty (hr r pty hp).1
  unique := fun hn r r' pty hp hp' => h.unique hn r r' pty (hr r pty hp).1 (hr r' pty hp').1

/-- A write that leaves the records, the log and the pending decision alone. -/
theorem same (h : Quiet ok s)
    (hp : s'.snapshot.phase = s.snapshot.phase ∧ s'.connection = s.connection ∨ s'.connection = none)
    (hd : s'.disposed = s.disposed)
    (hi : s'.connectIntent = s.connectIntent) (hl : s'.log = s.log)
    (ht : s'.snapshot.trustDecision = s.snapshot.trustDecision) (hr : s'.records = s.records) :
    Quiet ok s' := by
  refine h.frame ?_ ?_ (fun _ => by rw [hl]) fun r pty hp => ?_
  · rcases hp with ⟨hp, hc⟩ | hc
    · rw [hp, hc]
      exact h.climbing
    · exact fun _ => hc
  · rw [hd, hi, hl, ht]
    exact h.shown
  · rw [hr] at hp ⊢
    exact ⟨hp, rfl⟩

/-- A write of records that opens no PTY. -/
theorem records (h : Quiet ok s) (hs : s'.snapshot.phase = s.snapshot.phase)
    (hc : s'.connection = s.connection) (hd : s'.disposed = s.disposed)
    (hi : s'.connectIntent = s.connectIntent) (hl : s'.log = s.log)
    (ht : s'.snapshot.trustDecision = s.snapshot.trustDecision)
    (hr : ∀ r pty, (s'.records r).pty = some pty → (s.records r).pty = some pty ∧
      (s'.records r).operationSequence = (s.records r).operationSequence) : Quiet ok s' := by
  refine h.frame ?_ ?_ (fun _ => by rw [hl]) hr
  · rw [hs, hc]
    exact h.climbing
  · rw [hd, hi, hl, ht]
    exact h.shown

/-- Clocks, counters and settings do not matter. -/
theorem core (h : Quiet ok s) (hc : SameCore s s') : Quiet ok s' :=
  h.records (by rw [hc.snapshot]) hc.connection hc.disposed hc.connectIntent hc.log
    (by rw [hc.snapshot]) fun r _ hp => ⟨hc.pty r ▸ hp, hc.operationSequence r⟩

/-- A write of one record that opens no PTY. -/
theorem setRecord (h : Quiet ok s) (r : Nat) (f : TerminalRecord → TerminalRecord)
    (hf : (f (s.records r)).pty = none ∨ (f (s.records r)).pty = (s.records r).pty ∧
      (f (s.records r)).operationSequence = (s.records r).operationSequence) :
    Quiet ok (s.setRecord r f) := by
  refine h.records rfl rfl rfl rfl rfl rfl fun i pty hp => ?_
  rw [State.setRecord_records] at hp ⊢
  split at hp
  · next he =>
    subst he
    rw [if_pos rfl]
    rcases hf with hf | ⟨hf, hf'⟩
    · rw [hf] at hp
      cases hp
    · exact ⟨hf ▸ hp, hf'⟩
  · next he =>
    rw [if_neg he]
    exact ⟨hp, rfl⟩

/-- A log entry that is neither about a dial nor a write or resize sent. -/
theorem addLog (h : Quiet ok s) (e : Event)
    (hc : ∀ c : Course, (Course.step s.connectIntent c e).shown = c.shown)
    (hs : ∀ pty, sent pty [e] = 0) : Quiet ok (s.addLog e) := by
  refine h.frame h.climbing ?_ (fun pty => ?_) fun r pty hp => ⟨hp, rfl⟩
  · intro hd hshown
    simp only [State.addLog_connectIntent, State.addLog_log, course_snoc, hc] at hshown
    exact h.shown hd hshown
  · rw [State.addLog_log, sent_snoc, hs, Nat.add_zero]

end Quiet

theorem Course.step_answered_shown (n : Nat) (c : Course) (q : Req) (a : Ans q) :
    (Course.step n c (.answered q a)).shown = c.shown := by
  simp only [Course.step]
  split <;> rfl

/-- A write after which a thread may park keeps it. -/
theorem Write.quiet (hi : Inv ok s) (hg : Inv ok g.source) (ha : ok g.source g.label)
    (h : Quiet ok s) (w : Write ok env g o true s s') : Quiet ok s' := by
  have hcur : ∀ {n : Nat}, s.isCurrentConnect n = true → n = s.connectIntent :=
    fun hn => ((State.isCurrentConnect_iff.mp hn).2).symm
  cases w with
  | minor hc _ _ => exact h.core (.of_core hc)
  | asked q _ ha =>
    refine h.addLog _ (fun _ => rfl) fun pty => ?_
    obtain ⟨op, q⟩ := q
    cases q with
    | ptyOperation => exact ha.elim
    | _ => rfl
  | answered q a _ => exact h.addLog _ (fun c => Course.step_answered_shown _ c q a) fun _ => rfl
  | patch p hp =>
    refine h.frame (fun hc => (hp.climbs hc).elim h.climbing id) (fun hd hs => ?_) (fun _ => rfl)
      fun _ _ hp => ⟨hp, rfl⟩
    rcases hp.trust with ht | ⟨_, ht | ht⟩
    · rw [State.setSnapshot_trustDecision, ht]
      exact h.shown hd hs
    · rw [State.setSnapshot_disposed, ht] at hd
      cases hd
    · rw [State.setSnapshot_connectIntent, State.setSnapshot_log, ht] at hs
      cases hs
  | dialled n d host _ hn =>
    refine h.frame h.climbing (fun _ hs => ?_) (fun pty => ?_) fun _ _ hp => ⟨hp, rfl⟩
    · simp [Course.step, hcur hn] at hs
    · rw [State.addLog_log, sent_snoc]
      rfl
  | retryable n _ _ _ => exact h.same (.inl ⟨rfl, rfl⟩) rfl rfl rfl rfl rfl
  | presented n p d host _ _ _ _ _ _ hd hphase =>
    refine h.frame (fun hc => ?_) (fun _ _ => ?_) (fun pty => ?_) fun _ _ hp => ⟨hp, rfl⟩
    · rw [State.setSnapshot_phase, State.addLog_snapshot, hphase] at hc
      cases hc
    · rw [State.setSnapshot_trustDecision, State.addLog_snapshot, hd]
      rfl
    · rw [State.setSnapshot_log, State.addLog_log, sent_snoc]
      rfl
  | adopt n host c p _ hn _ _ _ _ _ hs hphase =>
    refine h.frame (fun hc => ?_) (fun _ hs' => ?_) (fun pty => ?_) fun _ _ hp => ⟨hp, rfl⟩
    · have hc' : (p s.snapshot).phase = .reconnecting := hc
      rw [hphase] at hc'
      cases hc'
    · have hs₁ : (course s.connectIntent (s.log ++ [.adopted c])).shown = true := hs'
      rw [course_snoc, ← hcur hn] at hs₁
      have hs₂ : (course n s.log).shown = true := hs₁
      rw [hs] at hs₂
      cases hs₂
    · exact sent_snoc pty s.log (.adopted c)
  | rehost n host p _ hn hconn _ hs =>
    refine h.frame (fun _ => hconn) (fun _ hs' => ?_) (fun _ => rfl) fun _ _ hp => ⟨hp, rfl⟩
    have hs'' : (course s.connectIntent s.log).shown = true := hs'
    rw [← hcur hn, hs] at hs''
    cases hs''
  | once k =>
    exact (h.addLog (.trustedOnce k) (fun _ => rfl) fun _ => rfl).same (.inl ⟨rfl, rfl⟩) rfl rfl rfl
      rfl rfl
  | drop _ => exact h.same (.inr rfl) rfl rfl rfl rfl rfl
  | intent _ =>
    refine h.frame h.climbing (fun _ hs => ?_) (fun _ => rfl) fun _ _ hp => ⟨hp, rfl⟩
    have hs' : (course (s.connectIntent + 1) s.log).shown = true := hs
    rw [hi.unborn _ (Nat.lt_succ_self _)] at hs'
    cases hs'
  | task n => exact h.same (.inl ⟨rfl, rfl⟩) rfl rfl rfl rfl rfl
  | taskEnd n => exact h.same (.inl ⟨rfl, rfl⟩) rfl rfl rfl rfl rfl
  | ladderEnded n => exact h.addLog _ (fun _ => rfl) fun _ => rfl
  | signalled b => exact h.addLog _ (fun _ => rfl) fun _ => rfl
  | dispose =>
    exact h.frame h.climbing (fun hd _ => by cases hd) (fun _ => rfl)
      fun _ _ hp => ⟨hp, rfl⟩
  | unhost p hd hconn =>
    refine h.frame (fun _ => hconn) (fun hd' _ => ?_) (fun _ => rfl) fun _ _ hp => ⟨hp, rfl⟩
    have hd'' : s.disposed = false := hd'
    rw [hd] at hd''
    cases hd''
  | detach =>
    refine h.records rfl rfl rfl rfl rfl rfl fun r pty hp => ?_
    rw [State.detachTerminals_records] at hp ⊢
    split at hp
    · cases hp
    · next hm => rw [if_neg hm]; exact ⟨hp, rfl⟩
  | empty =>
    refine h.records rfl rfl rfl rfl rfl rfl fun r pty hp => ?_
    have hp' : (s.detachTerminals.records r).pty = some pty := hp
    show _ ∧ (s.detachTerminals.records r).operationSequence = _
    rw [State.detachTerminals_records] at hp' ⊢
    split at hp'
    · cases hp'
    · next hm => rw [if_neg hm]; exact ⟨hp', rfl⟩
  | remove r keep =>
    obtain ⟨_, he⟩ := s.removeTerminal_eq r keep
    rw [he]
    exact (h.setRecord r (fun t =>
      { t with attachToken := t.attachToken + 1, pumpToken := t.pumpToken + 1, pty := none })
      (.inl rfl)).records rfl rfl rfl rfl rfl rfl fun _ _ hp => ⟨hp, rfl⟩
  | abandon r _ | eof r _ _ | opening r _ => exact h.setRecord r _ (.inl rfl)
  | opened r op ref id command geometry mode token result _ hr _ hlabel hs =>
    -- a PTY that is not opened again was neither held nor sent to before
    have hclosed : ¬ Reopens ok → g.source.log.any (Event.opens result.pty) = false := by
      intro hn
      refine Bool.eq_false_iff.mpr fun hopen => hn ⟨_, _, ha, ?_⟩
      rw [hlabel]
      exact hopen
    have hunheld : ¬ Reopens ok → ∀ i, (s.records i).pty ≠ some result.pty := by
      intro hn i hp
      rw [hs] at hp
      exact absurd (hg.opened i _ hp) (by simp [hclosed hn])
    have hunsent : ¬ Reopens ok → sent result.pty s.log = 0 := by
      intro hn
      rw [hs, State.addLog_log, sent_snoc]
      by_contra hne
      exact absurd (hg.sentTo result.pty fun h0 => hne (by rw [h0]; rfl)) (by simp [hclosed hn])
    have hcases : ∀ i pty, ((s.setRecord r (·.openedOn result.pty)).records i).pty = some pty →
        i = r ∧ pty = result.pty ∨ i ≠ r ∧ (s.records i).pty = some pty := by
      intro i pty hp
      rw [State.setRecord_records] at hp
      split at hp
      · next he => exact .inl ⟨he, (Option.some.inj hp).symm⟩
      · next he => exact .inr ⟨he, hp⟩
    refine ⟨h.climbing, h.shown, fun hn i pty hp => ?_, fun hn i i' pty hp hp' => ?_⟩
    · rcases hcases i pty hp with ⟨rfl, rfl⟩ | ⟨hne, hq⟩
      · rw [State.setRecord_same]
        exact (hunsent hn).symm
      · rw [State.setRecord_other _ _ _ hne]
        exact h.numbered hn i pty hq
    · rcases hcases i pty hp with ⟨hi, hpty⟩ | ⟨_, hq⟩
      · rcases hcases i' pty hp' with ⟨hi', _⟩ | ⟨_, hq'⟩
        · rw [hi, hi']
        · exact absurd (hpty ▸ hq') (hunheld hn i')
      · rcases hcases i' pty hp' with ⟨_, hpty⟩ | ⟨_, hq'⟩
        · exact absurd (hpty ▸ hq) (hunheld hn i)
        · exact h.unique hn i i' pty hq hq'
  | pumping r _ => exact h.setRecord r _ (.inr ⟨rfl, rfl⟩)
  | rekey r row f _ hf _ =>
    exact h.setRecord r f (.inr ⟨(congrArg TerminalRecord.pty hf :),
      (congrArg TerminalRecord.operationSequence hf :)⟩)
  | open_ row t _ _ _ _ ht =>
    have hnone : t.pty = none := (congrArg TerminalRecord.pty ht :)
    exact (h.setRecord s.nextRecord (fun _ => t) (.inl hnone)).records rfl rfl rfl rfl rfl rfl
      fun _ _ hp => ⟨hp, rfl⟩
  | queued r t p =>
    exact (h.addLog (.queued r t (s.records r).pty p (s.records r).operationQueue) (fun _ => rfl)
      fun _ => rfl).setRecord r (fun u => { u with operationQueue := t }) (.inr ⟨rfl, rfl⟩)
  | settle t => exact h.same (.inl ⟨rfl, rfl⟩) rfl rfl rfl rfl rfl

/-- A write after which a thread may park leaves it at rest. -/
theorem Write.rest (hi : Inv ok s) (hg : Inv ok g.source) (ha : ok g.source g.label) (h : Rest ok g s)
    (w : Write ok env g o true s s') : Rest ok g s' :=
  ⟨w.quiet hi hg ha h.toQuiet, h.answered.mono (w.later hi).log_subset⟩

/-! ## The discipline -/

/-- A chain of writes of one step, each by a thread that owns minted tokens. -/
def Path (ok : Allowed) (env : Env) (g : Segment) : State → State → Prop :=
  Relation.ReflTransGen fun s s' => ∃ o b, o ⊆ minted s ∧ Write ok env g o b s s'

theorem Path.inv (h : Path ok env g s s') (hi : Inv ok s) : Inv ok s' := by
  induction h with
  | refl => exact hi
  | tail _ w ih =>
    obtain ⟨_, _, ho, w⟩ := w
    exact w.inv ih ho

/-- What an output pump knows: as long as its token is current, its terminal is
attached as it was when the pump started, to its PTY. -/
structure PumpKnows (r : Nat) (pty : SshPtyRef) (pumpToken a : Nat) (s : State) : Prop where
  record : r < s.nextRecord
  token : pumpToken ≤ (s.records r).pumpToken
  current : (s.records r).pumpToken = pumpToken →
    (s.records r).attachToken = a ∧ (s.records r).pty = some pty

/-- What the recovery ladder knows when its dial has settled. -/
structure LadderKnows (env : Env) (host : SshHostTarget) (intent attempt : Nat) (delays : List Nat)
    (connected : ActionResult SshConnectionRef) (s : State) : Prop where
  held : s.isCurrentConnect intent = true → s.host = some host
  stripped : hostWithoutTransientPassphrase host = host
  budget : attempt + 1 + delays.length = env.retryDelaysMs.length
  dials : (course intent s.log).dials = attempt + 1
  fresh : (course intent s.log).failed = false
  refused : s.isCurrentConnect intent = true → ∀ reason message,
    connected = .refused reason message → s.connection = none ∧
      (reason = .trustRequired ∨ reason = .trustMismatch → (course intent s.log).shown = true)
  adopted : ∀ ref, connected = .ok ref →
    ∃ c h, c.ref = ref ∧ .dialled intent c.dial h ∈ s.log ∧ Since intent (.adopted c) s.log

/-- What a thread knows when it gets its turn at a head. -/
def LoopInv (env : Env) : Head → Set Tok → State → Prop
  | .pump r pty pumpToken, o, s => ∃ a, .attach r a ∈ o ∧ PumpKnows r pty pumpToken a s
  | .ladderDialled host _ intent attempt delays _ connected, o, s =>
    .intent intent ∈ o ∧ LadderKnows env host intent attempt delays connected s

/-- The discipline of the controller in the runs whose steps are all `ok`. -/
def discipline (env : Env) (ok : Allowed) : Discipline (controller env) Tok where
  ok := ok
  inv s := Inv ok s ∧ Quiet ok s
  base := Later
  keep := Kept
  minted := minted
  held _ := ∅
  owed := ∅
  carry _ := ∅
  seg l s s' := Path ok env ⟨l, s⟩ s s' ∧ Answered l s'.log
  loopInv := LoopInv env
  base_refl := Later.refl
  base_trans _ _ _ := Later.trans
  keep_refl := Kept.refl
  keep_trans := Kept.trans
  loop_mono l o o' s hsub h := by
    cases l with
    | pump r pty t =>
      obtain ⟨a, ha, hk⟩ := h
      exact ⟨a, hsub ha, hk⟩
    | ladderDialled host reason intent attempt delays id connected => exact ⟨hsub h.1, h.2⟩

/-- The thread keeps the discipline from `s` on, and its run ends in `post`. -/
abbrev Runs (env : Env) (ok : Allowed) (t : Thread State Ans Head) (o : Set Tok) (s : State)
    (post : State → Prop) : Prop := (discipline env ok).wp t o s post

abbrev Rely (o : Set Tok) (s s' : State) : Prop := Later s s' ∧ ∀ x ∈ o, Kept x s s'

/-! ## Where a thread stands -/

/-- A thread of `c` that owns `o` is in the middle of the step `g`, at `s`; its
run may end wherever the writes of the step lead, once it is at rest. -/
structure Mid (env : Env) (ok : Allowed) (c : Operation) (g : Segment) (o : Set Tok)
    (post : State → Prop) (s : State) : Prop where
  allowed : ok g.source g.label
  source : Inv ok g.source
  acts : Acts c o
  owned : o ⊆ minted s
  inv : Inv ok s
  park : ∀ s', Path ok env g s s' → Inv ok s' → Rest ok g s' → post s'

/-- The same, where the thread may park at once. -/
structure Ctx (env : Env) (ok : Allowed) (c : Operation) (g : Segment) (o : Set Tok)
    (post : State → Prop) (s : State) : Prop extends Mid env ok c g o post s where
  rest : Rest ok g s

variable {c : Operation} {post : State → Prop} {k : Thread State Ans Head}

theorem minted_mono (h : Later s s') : minted s ⊆ minted s' := by
  intro x hx
  cases x with
  | intent n => exact Nat.le_trans hx h.intent
  | attach r a => exact Nat.le_trans hx (h.attach r)
  | call t => exact Nat.le_trans hx h.tickets

theorem Mid.write (h : Mid env ok c g o post s) (w : Write ok env g o b s s') :
    Mid env ok c g o post s' where
  allowed := h.allowed
  source := h.source
  acts := h.acts
  owned := h.owned.trans (minted_mono (w.later h.inv))
  inv := w.inv h.inv h.owned
  park := fun s₂ hp => h.park s₂ (.head ⟨o, b, h.owned, w⟩ hp)

theorem Ctx.write (h : Ctx env ok c g o post s) (w : Write ok env g o true s s') :
    Ctx env ok c g o post s' :=
  { h.toMid.write w with rest := w.rest h.inv h.source h.allowed h.rest }

theorem Ctx.atRest (h : Ctx env ok c g o post s) : post s := h.park s .refl h.inv h.rest

/-- A thread that comes to rest. -/
theorem Mid.settle (h : Mid env ok c g o post s) (hr : Rest ok g s) : Ctx env ok c g o post s :=
  { h with rest := hr }

variable {o' : Set Tok}

/-- Tokens a thread gives away or has no use for. -/
theorem Ctx.part {c' : Operation} (h : Ctx env ok c g o post s) (ho : o' ⊆ o)
    (hc : Acts c' o') : Ctx env ok c' g o' post s :=
  { h with acts := hc, owned := ho.trans h.owned }

/-- A thread gets a token minted in its step. -/
theorem Ctx.give {x : Tok} (h : Ctx env ok c g o post s) (hx : x ∈ minted s) :
    Ctx env ok c g (insert x o) post s :=
  { h with
    acts := fun n hn => .inr (h.acts n hn)
    owned := Set.insert_subset hx h.owned }

/-! ## The rules -/

/-- The writer may keep fewer tokens than it has, and take the minted ones. -/
theorem runs_write (hi : Inv ok s) (w : Write ok env g o b s s')
    (ho : o' ⊆ o ∪ (minted s' \ minted s)) (hk : Runs env ok k o' s' post) :
    Runs env ok (.write s' k) o s post := by
  have hl := w.later hi
  refine ⟨⟨hl, minted_mono hl, Set.empty_subset _, fun x _ hx _ => w.kept hi hx⟩, ?_⟩
  refine Discipline.wp_sub ?_ (fun _ _ h => h) hk
  intro x hx
  refine ⟨?_, fun h => h⟩
  rcases ho hx with h | h
  · exact .inl (.inl h)
  · exact .inr h

theorem Mid.run (h : Mid env ok c g o post s) (w : Write ok env g o b s s')
    (hk : Mid env ok c g o post s' → Runs env ok k o s' post) :
    Runs env ok (.write s' k) o s post :=
  runs_write h.inv w Set.subset_union_left (hk (h.write w))

theorem Ctx.run (h : Ctx env ok c g o post s) (w : Write ok env g o true s s')
    (hk : Ctx env ok c g o post s' → Runs env ok k o s' post) :
    Runs env ok (.write s' k) o s post :=
  runs_write h.inv w Set.subset_union_left (hk (h.write w))

/-- A write that mints a token. -/
theorem Ctx.mint {x : Tok} (h : Ctx env ok c g o post s) (w : Write ok env g o true s s')
    (hx : x ∈ minted s') (hn : x ∉ minted s)
    (hk : Ctx env ok c g (insert x o) post s' → Runs env ok k (insert x o) s' post) :
    Runs env ok (.write s' k) o s post :=
  runs_write h.inv w (Set.insert_subset (.inr ⟨hx, hn⟩) Set.subset_union_left)
    (hk ((h.write w).give hx))

variable {K : Unit → Thread State Ans Head} {err : Thrown → Thread State Ans Head}

/-- `modify`. -/
theorem Ctx.update {f : State → State} (h : Ctx env ok c g o post s) (w : Write ok env g o true s (f s))
    (hk : Ctx env ok c g o post (f s) → Runs env ok (K ()) o (f s) post) :
    Runs env ok ((modify f : Ctl Unit) c K err) o s post :=
  h.run w hk

theorem Ctx.finish (h : Ctx env ok c g o post s) : Runs env ok .done o s post :=
  ⟨fun _ _ h => h, h.atRest⟩

/-- More tokens than it takes. -/
theorem Runs.extend (ho : o ⊆ o') (h : Runs env ok k o s post) : Runs env ok k o' s post :=
  Discipline.wp_sub ho (fun _ _ => id) h

/-- `spawn`: the call takes `o₁` along, and runs up to its first await. -/
theorem Ctx.spawn {c' : Operation} {α : Type} {p : Ctl α}
    (o₁ o₂ : Set Tok) (h : Ctx env ok c g o post s)
    (h₁ : o₁ ⊆ o) (h₂ : o₂ ⊆ o) (hd : Disjoint o₁ o₂) (hc' : Acts c' o₁) (hc : Acts c o₂)
    (hp : ∀ post₁, Ctx env ok c' g o₁ post₁ s → Runs env ok (Async.thread c' p) o₁ s post₁)
    (hk : ∀ s₁, ((Async.thread c' p).run s).1 = s₁ → Rely o₂ s s₁ → Ctx env ok c g o₂ post s₁ →
      Runs env ok (K ()) o₂ s₁ post) :
    Runs env ok (Async.spawn c' p c K err) o s post := by
  have hrun := hp (fun s₁ => Path ok env g s s₁ ∧ Inv ok s₁ ∧ Rest ok g s₁)
    { h with acts := hc', owned := h₁.trans h.owned, park := fun _ hp hi hr => ⟨hp, hi, hr⟩ }
  obtain ⟨hpath, hinv, hrest⟩ := Discipline.wp_post hrun
  obtain ⟨hrely, howns⟩ :=
    Discipline.wp_rely hrun ⟨h₂.trans h.owned, Set.disjoint_empty _⟩ hd
  have hctx : Ctx env ok c g o₂ post ((Async.thread c' p).run s).1 :=
    { h with
      acts := hc
      owned := howns.1
      inv := hinv
      rest := hrest
      park := fun s₂ hp => h.park s₂ (hpath.trans hp) }
  refine Runs.extend (Set.union_subset h₁ h₂) ⟨o₁, o₂, rfl, hd, ?_⟩
  exact Discipline.wp_run hrun (hk _ rfl hrely hctx)

/-- Where the run of a step ends. -/
def Ends (env : Env) (ok : Allowed) (g : Segment) (s : State) : Prop :=
  (discipline env ok).inv s ∧ (discipline env ok).seg g.label g.source s

/-- The beginning of a step. -/
theorem Mid.begin (hok : ok g.source g.label) (hi : Inv ok g.source) (hc : Acts c o)
    (ho : o ⊆ minted g.source) : Mid env ok c g o (Ends env ok g) g.source where
  allowed := hok
  source := hi
  acts := hc
  owned := ho
  inv := hi
  park := fun _ hp hi₂ hr => ⟨⟨hi₂, hr.toQuiet⟩, hp, hr.answered⟩

/-- Awaiting a call that has been issued. -/
theorem Ctx.response {K : Answer q → Thread State Ans Head} (h : Ctx env ok c g o post s)
    (ht : ∀ pty id seq p r ticket, q = .ptyOperation pty id seq p r ticket → .call ticket ∈ o)
    (hk : ∀ s₁ (a : Answer q) post', Rely o s s₁ → Quiet ok s₁ → promiseReady s₁ (c, q) a = true →
      Mid env ok c ⟨.reply (c, q) a, s₁⟩ o post' (s₁.addLog (.answered (c, q) a)) →
      Runs env ok (K a) o (s₁.addLog (.answered (c, q) a)) post') :
    Runs env ok (Ctl.response q c K err) o s post := by
  refine ⟨fun _ _ h => absurd h id, h.atRest, fun s₁ a hr ho hi hready hok => ?_⟩
  have hm : Mid env ok c ⟨.reply (c, q) a, s₁⟩ o (Ends env ok ⟨.reply (c, q) a, s₁⟩) s₁ :=
    .begin hok hi.1 h.acts ho.1
  exact hm.run (.answered (c, q) a ⟨rfl, h.acts, ht⟩) fun h' => hk s₁ a _ hr hi.2 hready h'

/-- Awaiting a call other than a write or resize. -/
theorem Ctx.perform {K : Answer q → Thread State Ans Head}
    (h : Ctx env ok c g o post s) (hq : Asks g s (c, q))
    (ht : ∀ pty id seq p r ticket, q ≠ .ptyOperation pty id seq p r ticket)
    (hk : ∀ s₁ (a : Answer q) post', Rely o (s.addLog (.asked (c, q))) s₁ → Quiet ok s₁ →
      promiseReady s₁ (c, q) a = true →
      Mid env ok c ⟨.reply (c, q) a, s₁⟩ o post' (s₁.addLog (.answered (c, q) a)) →
      Runs env ok (K a) o (s₁.addLog (.answered (c, q) a)) post') :
    Runs env ok (Ctl.perform q c K err) o s post :=
  h.run (.asked (c, q) h.acts hq) fun h' => by
    show Runs env ok (Ctl.response q c K err) o _ post
    exact h'.response (fun pty id seq p r ticket he => absurd he (ht pty id seq p r ticket)) hk

/-! ## Quiet calls -/

theorem Rely.refl : Rely o s s := ⟨Later.refl s, fun x _ => Kept.refl x s⟩

theorem Rely.trans {s'' : State} (h : Rely o s s') (h' : Rely o s' s'') : Rely o s s'' :=
  ⟨h.1.trans h'.1, fun x hx => Kept.trans x _ _ _ (h.2 x hx) (h'.2 x hx)⟩

theorem Rely.mono (h : Rely o s s') (ho : o' ⊆ o) : Rely o' s s' :=
  ⟨h.1, fun x hx => h.2 x (ho hx)⟩

/-- A write that needs no token leaves everybody what they rely on. -/
theorem Rely.of_write (hi : Inv ok s) (w : Write ok env g ∅ b s s') : Rely o s s' :=
  ⟨w.later hi, fun _ _ => w.kept hi (Set.notMem_empty _)⟩

/-- A write with some tokens leaves the owner of others what it relies on. -/
theorem Rely.of_owned {o₁ : Set Tok} (hi : Inv ok s) (w : Write ok env g o₁ b s s')
    (hd : Disjoint o₁ o) : Rely o s s' :=
  ⟨w.later hi, fun _ hx => w.kept hi fun hx₁ => Set.disjoint_left.mp hd hx₁ hx⟩

theorem Ctx.free (h : Ctx env ok c g o post s) (w : ∀ o, Write ok env g o true s s')
    (hk : Ctx env ok c g o post s' → Rely o s s' → Runs env ok k o s' post) :
    Runs env ok (.write s' k) o s post :=
  h.run (w o) fun h' => hk h' (.of_write h.inv (w ∅))

/-- A log entry nobody relies on the absence of. -/
theorem Rely.addLog (e : Event) (hc : ∀ n c, Course.step n c e = c) (ht : ∀ t, ¬ e.isOf t) :
    Rely o s (s.addLog e) := by
  refine ⟨.plain ⟨_, rfl⟩ le_rfl rfl rfl (fun _ h => h) rfl rfl rfl, fun x _ => ?_⟩
  cases x with
  | intent n => exact .same rfl rfl (by simp [hc]) rfl rfl rfl rfl
  | attach r a => exact .of_records (.inl rfl)
  | call t =>
    refine ⟨id, fun e' he' hm => ?_⟩
    rcases List.mem_append.mp hm with h | h
    · exact h
    · exact absurd (List.mem_singleton.mp h ▸ he') (ht t)

/-- A call whose answer is no news to the owner of a token. -/
def Call.isMute : Call → Bool
  | .exec .. | .openPty .. | .ptyOperation .. => false
  | _ => true

/-- Such a call whose answer obliges to nothing either. -/
def Call.isPlain (q : Call) : Bool := q.isMute && !q.isOwing

theorem Call.isPlain_iff : q.isPlain = true ↔ q.isMute = true ∧ q.isOwing = false := by
  simp [isPlain]

/-- A call whose answer is not that of a host operation. -/
def Call.isCalm : Call → Bool
  | .exec .. | .openPty .. | .readPty .. | .ptyOperation .. | .tick (.exec _) | .tick (.hostCli ..)
  | .tick (.transportLost ..) => false
  | _ => true

theorem Rely.asked {q : Req} (hq : q.2.isMute = true) : Rely o s (s.addLog (.asked q)) := by
  refine .addLog _ (fun _ _ => rfl) fun t => ?_
  obtain ⟨op, q⟩ := q
  cases q with
  | ptyOperation => cases hq
  | _ => exact id

theorem Rely.answered {q : Req} {a : Ans q} (hq : q.2.isMute = true) :
    Rely o s (s.addLog (.answered q a)) := by
  obtain ⟨op, q⟩ := q
  refine .addLog _ (fun n c => ?_) fun t => ?_
  · have hf : ladderFailure n (op, q) a = false := by
      cases q with
      | exec => cases hq
      | openPty => cases hq
      | _ => cases op <;> rfl
    simp [Course.step, hf]
  · cases q with
    | ptyOperation => cases hq
    | _ => exact id

/-- `modify`, of clocks, counters and settings. -/
theorem Ctx.minor {f : State → State} (h : Ctx env ok c g o post s) (hc : (f s).core = s.core)
    (hi : s.ids ≤ (f s).ids) (ht : s.tickets ≤ (f s).tickets)
    (hk : ∀ s', SameCore s s' → Rely o s s' → Ctx env ok c g o post s' → Runs env ok (K ()) o s' post) :
    Runs env ok ((modify f : Ctl Unit) c K err) o s post :=
  h.free (fun _ => .minor hc hi ht) fun h' hr => hk _ (.of_core hc) hr h'

theorem Write.id : Write ok env g o true s { s with ids := s.ids + 1 } :=
  .minor rfl (Nat.le_succ _) le_rfl

theorem Ctx.createId {K : String → Thread State Ans Head} (h : Ctx env ok c g o post s)
    (hk : ∀ id s', SameCore s s' → Rely o s s' → Ctx env ok c g o post s' →
      Runs env ok (K id) o s' post) :
    Runs env ok (Ctl.createId env c K err) o s post := by
  exact h.free (fun _ => .id) fun h' hr => hk _ _ (.of_core rfl) hr h'

theorem Mid.createId {K : String → Thread State Ans Head} (h : Mid env ok c g o post s)
    (hk : ∀ id s', SameCore s s' → Rely o s s' → Mid env ok c g o post s' →
      Runs env ok (K id) o s' post) :
    Runs env ok (Ctl.createId env c K err) o s post := by
  have w : Write ok env g ∅ true s { s with ids := s.ids + 1 } := .id
  exact h.run .id fun h' => hk _ _ (.of_core rfl) (.of_write h.inv w) h'

theorem Mid.request (h : Mid env ok c g o post s) (ha : Asks g s (c, q))
    (hk : Mid env ok c g o post (s.addLog (.asked (c, q))) →
      Runs env ok (K ()) o (s.addLog (.asked (c, q))) post) :
    Runs env ok (Ctl.request q c K err) o s post :=
  h.run (.asked (c, q) h.acts ha) hk

/-- A step that brings `c` the answer to a calm call. -/
def Calm (c : Operation) (g : Segment) : Prop :=
  ∃ q a, g.label = .reply (c, q) a ∧ q.isCalm = true

/-- The step goes on under the same snapshot, or `c` was given the answer to a calm
call. -/
def Turn (c : Operation) (g : Segment) (s : State) (g' : Segment) (s' : State) : Prop :=
  (g' = g ∧ s'.snapshot = s.snapshot) ∨ Calm c g'

theorem Turn.trans {g' g'' : Segment} {s'' : State} (h : Turn c g s g' s') (h' : Turn c g' s' g'' s'') :
    Turn c g s g'' s'' := by
  rcases h' with ⟨rfl, hs⟩ | h'
  · exact h.imp (fun ⟨hg, hs'⟩ => ⟨hg, hs.trans hs'⟩) id
  · exact .inr h'

theorem Calm.not_stale (h : Calm c g) : Stale g.source g.label = false := by
  obtain ⟨q, a, hl, hq⟩ := h
  rw [hl]
  cases q with
  | tick inner =>
    cases inner with
    | exec => cases hq
    | hostCli => cases hq
    | _ => rfl
  | exec | openPty | readPty | ptyOperation => cases hq
  | _ => rfl

theorem Calm.shows (h : Calm c g) : Shows ok g := .inl h.not_stale

theorem Calm.wakes (h : Calm c g) (hc : c.isNoisy = true) : wakes g.source g.label = true := by
  obtain ⟨q, a, hl, _⟩ := h
  rw [hl]
  simp [PocketShell.wakes, hc]

/-- Awaiting a plain call that has been issued. -/
theorem Ctx.reply {K : Answer q → Thread State Ans Head}
    (h : Ctx env ok c g o post s) (hq : q.isPlain = true)
    (hk : ∀ s₁ (a : Answer q) post', Rely o s (s₁.addLog (.answered (c, q) a)) →
      promiseReady s₁ (c, q) a = true → Rely o s s₁ → Quiet ok s₁ →
      Ctx env ok c ⟨.reply (c, q) a, s₁⟩ o post' (s₁.addLog (.answered (c, q) a)) →
      Runs env ok (K a) o (s₁.addLog (.answered (c, q) a)) post') :
    Runs env ok (Ctl.response q c K err) o s post := by
  refine h.response ?_ fun s₁ a post' hr hquiet hready hm => ?_
  · rintro _ _ _ _ _ _ rfl
    cases hq
  · obtain ⟨hmute, hfree⟩ := Call.isPlain_iff.mp hq
    refine hk s₁ a post' (hr.trans (Rely.answered (q := (c, q)) hmute)) hready hr hquiet ?_
    refine hm.settle ⟨hquiet.addLog _ (fun k => ?_) fun _ => rfl, .free hfree⟩
    exact Course.step_answered_shown _ k (c, q) a

/-- Awaiting a call that has been issued and whose answer obliges to something. -/
theorem Ctx.owed {K : Answer q → Thread State Ans Head}
    (h : Ctx env ok c g o post s) (hq : q.isMute = true)
    (hk : ∀ s₁ (a : Answer q) post', Rely o s (s₁.addLog (.answered (c, q) a)) →
      Quiet ok (s₁.addLog (.answered (c, q) a)) →
      Mid env ok c ⟨.reply (c, q) a, s₁⟩ o post' (s₁.addLog (.answered (c, q) a)) →
      Runs env ok (K a) o (s₁.addLog (.answered (c, q) a)) post') :
    Runs env ok (Ctl.response q c K err) o s post := by
  refine h.response ?_ fun s₁ a post' hr hquiet _ hm => ?_
  · rintro _ _ _ _ _ _ rfl
    cases hq
  · exact hk s₁ a post' (hr.trans (Rely.answered (q := (c, q)) hq))
      (hquiet.addLog _ (fun k => Course.step_answered_shown _ k (c, q) a) fun _ => rfl) hm

/-- Issuing the call that a step owes. -/
theorem Mid.issue
    (h : Mid env ok c g o post s) (hquiet : Quiet ok s) (hq : q.isMute = true) (ha : Asks g s (c, q))
    (hans : Answered g.label (s.addLog (.asked (c, q))).log)
    (hk : Rely o s (s.addLog (.asked (c, q))) → Ctx env ok c g o post (s.addLog (.asked (c, q))) →
      Runs env ok (K ()) o (s.addLog (.asked (c, q))) post) :
    Runs env ok (Ctl.request q c K err) o s post := by
  refine h.request ha fun h' => hk (Rely.asked (q := (c, q)) hq) (h'.settle ⟨?_, hans⟩)
  refine hquiet.addLog _ (fun _ => rfl) fun _ => ?_
  cases q with
  | ptyOperation => cases hq
  | _ => rfl

/-- Awaiting a plain call. -/
theorem Ctx.ask {K : Answer q → Thread State Ans Head}
    (h : Ctx env ok c g o post s) (hq : q.isPlain = true) (ha : Asks g s (c, q))
    (hk : ∀ s₁ (a : Answer q) post', Rely o s (s₁.addLog (.answered (c, q) a)) →
      promiseReady s₁ (c, q) a = true → Rely o s s₁ → Quiet ok s₁ →
      Ctx env ok c ⟨.reply (c, q) a, s₁⟩ o post' (s₁.addLog (.answered (c, q) a)) →
      Runs env ok (K a) o (s₁.addLog (.answered (c, q) a)) post') :
    Runs env ok (Ctl.perform q c K err) o s post := by
  have hr : Rely o s (s.addLog (.asked (c, q))) :=
    Rely.asked (q := (c, q)) (Call.isPlain_iff.mp hq).1
  refine h.run (.asked (c, q) h.acts ha) fun h' => ?_
  show Runs env ok (Ctl.response q c K err) o _ post
  refine h'.reply hq ?_
  exact fun s₁ a post' hr₁ hready hr₂ => hk s₁ a post' (hr.trans hr₁) hready (hr.trans hr₂)

/-- Awaiting a calm call. -/
theorem Ctx.pause {K : Answer q → Thread State Ans Head}
    (h : Ctx env ok c g o post s) (hq : q.isPlain = true)
    (hcalm : q.isCalm = true) (ha : Asks g s (c, q))
    (hk : ∀ (a : Answer q) g' post' s', Calm c g' → Rely o s s' → Ctx env ok c g' o post' s' →
      Runs env ok (K a) o s' post') :
    Runs env ok (Ctl.perform q c K err) o s post :=
  h.ask hq ha fun _ a post' hr _ _ _ h' => hk a _ post' _ ⟨q, a, rfl, hcalm⟩ hr h'

end PocketShell
