import PocketShell.Connection.Recovery
import PocketShell.Coop.Chain

/-!
# Terminal input

To which PTY a write or resize is sent, with which number, in which order, and
after what. `InputInv` is about runs in which the platform opens every PTY once and
gives no terminal the channel id of a PTY that input is still queued for.
-/

namespace PocketShell

open Coop (System ChainLink Chained)

variable {env : Env} {ok : Allowed} {cfg : Coop.Config State Ans Head} {g : Segment} {o : Set Tok}
  {b : Bool} {s s' : State}

/-! ## What was queued and what was sent -/

/-- The calls made while a terminal's PTY was `pty`, in their order. -/
def queuedOn (pty : SshPtyRef) (log : List Event) : List ChainLink :=
  log.filterMap fun e =>
    match e with
    | .queued _ ticket (some p) _ behind => if p = pty then some ⟨ticket, behind⟩ else none
    | _ => none

/-- The calls whose payload was sent to `pty`, in the order it was sent. -/
def sentOn (pty : SshPtyRef) (log : List Event) : List Nat :=
  log.filterMap fun e =>
    match e with
    | .asked (_, .ptyOperation p _ _ _ _ ticket) => if p = pty then some ticket else none
    | _ => none

/-- How often the payload of a call was sent. -/
def timesSent (ticket : Nat) (log : List Event) : Nat :=
  log.countP fun e =>
    match e with
    | .asked (_, .ptyOperation _ _ _ _ _ t) => t = ticket
    | _ => false

/-- The entries about terminal input, its answers apart. -/
def Event.isInput : Event → Bool
  | .queued .. | .asked (_, .ptyOperation ..) => true
  | _ => false

theorem queuedOn_append (pty : SshPtyRef) (log log' : List Event) :
    queuedOn pty (log ++ log') = queuedOn pty log ++ queuedOn pty log' := List.filterMap_append

theorem sentOn_append (pty : SshPtyRef) (log log' : List Event) :
    sentOn pty (log ++ log') = sentOn pty log ++ sentOn pty log' := List.filterMap_append

theorem timesSent_append (ticket : Nat) (log log' : List Event) :
    timesSent ticket (log ++ log') = timesSent ticket log + timesSent ticket log' :=
  List.countP_append

variable {pty : SshPtyRef} {log : List Event}

theorem queuedOn_snoc {e : Event} (he : e.isInput = false) :
    queuedOn pty (log ++ [e]) = queuedOn pty log := by
  rw [queuedOn_append]
  cases e with
  | queued => cases he
  | _ => exact List.append_nil _

theorem sentOn_snoc {e : Event} (he : e.isInput = false) :
    sentOn pty (log ++ [e]) = sentOn pty log := by
  rw [sentOn_append]
  cases e with
  | asked q =>
    obtain ⟨op, q⟩ := q
    cases q with
    | ptyOperation => cases he
    | _ => exact List.append_nil _
  | _ => exact List.append_nil _

theorem timesSent_snoc {ticket : Nat} {e : Event} (he : e.isInput = false) :
    timesSent ticket (log ++ [e]) = timesSent ticket log := by
  rw [timesSent_append]
  cases e with
  | asked q =>
    obtain ⟨op, q⟩ := q
    cases q with
    | ptyOperation => cases he
    | _ => rfl
  | _ => rfl

theorem mem_queuedOn {l : ChainLink} :
    l ∈ queuedOn pty log ↔ ∃ r p, .queued r l.ticket (some pty) p l.behind ∈ log := by
  constructor
  · intro h
    obtain ⟨e, he, hl⟩ := List.mem_filterMap.mp h
    cases e with
    | queued r t p payload b =>
      cases p with
      | none => cases hl
      | some p =>
        simp only at hl
        split at hl
        · next hp =>
          cases hl
          exact ⟨r, payload, hp ▸ he⟩
        · cases hl
    | _ => cases hl
  · rintro ⟨r, p, h⟩
    exact List.mem_filterMap.mpr ⟨_, h, by simp⟩

theorem mem_sentOn {t : Nat} :
    t ∈ sentOn pty log ↔ ∃ op id seq p r, .asked (op, .ptyOperation pty id seq p r t) ∈ log := by
  constructor
  · intro h
    obtain ⟨e, he, ht⟩ := List.mem_filterMap.mp h
    cases e with
    | asked q =>
      obtain ⟨op, q⟩ := q
      cases q with
      | ptyOperation p id seq payload r ticket =>
        simp only at ht
        split at ht
        · next hp =>
          cases ht
          exact ⟨op, id, seq, payload, r, hp ▸ he⟩
        · cases ht
      | _ => cases ht
    | _ => cases ht
  · rintro ⟨op, id, seq, p, r, h⟩
    exact List.mem_filterMap.mpr ⟨_, h, by simp⟩

/-- A prefix of a longer log ends in the new entry or is one of the old log. -/
theorem prefix_snoc {before log : List Event} {x e : Event} (h : before ++ [x] <+: log ++ [e]) :
    (before = log ∧ x = e) ∨ before ++ [x] <+: log := by
  rcases List.prefix_concat_iff.mp h with he | h
  · obtain ⟨rfl, hx⟩ := List.append_inj' he rfl
    exact .inl ⟨rfl, List.singleton_inj.mp hx⟩
  · exact .inr h

/-! ## The invariant -/

/-- How the queues of the terminals and the PTYs stand to each other. -/
structure InputInv (s : State) : Prop where
  /-- A PTY is opened before anything is called for it. -/
  opened : ∀ before r t pty p b', before ++ [.queued r t (some pty) p b'] <+: s.log →
    before.any (Event.opens pty) = true
  single : ∀ r r' pty, (s.records r).pty = some pty → (s.records r').pty = some pty → r = r'
  owner : ∀ r t pty p b' r', .queued r t (some pty) p b' ∈ s.log →
    (s.records r').pty = some pty → r' = r
  /-- What is queued for a channel the terminal has is queued for the PTY it has. -/
  exact : ∀ r t pty p b' pty', .queued r t (some pty) p b' ∈ s.log → t ∉ s.settledTurns →
    (s.records r).pty = some pty' → pty.channelId = pty'.channelId → pty = pty'
  unique : ∀ r t pty p b' r' pty' p' b'', .queued r t pty p b' ∈ s.log →
    .queued r' t pty' p' b'' ∈ s.log → r = r' ∧ pty = pty' ∧ p = p' ∧ b' = b''
  chained : ∀ pty, Chained (queuedOn pty s.log)
  last : ∀ r pty l, (s.records r).pty = some pty → (queuedOn pty s.log).getLast? = some l →
    (s.records r).operationQueue = l.ticket
  closed : ∀ r t pty p b', .queued r t pty p b' ∈ s.log → t ∈ s.settledTurns → b' ∈ s.settledTurns
  answered : ∀ op pty id seq p r t, .asked (op, .ptyOperation pty id seq p r t) ∈ s.log →
    t ∈ s.settledTurns → ∃ a, .answered (op, .ptyOperation pty id seq p r t) a ∈ s.log
  sent : ∀ op pty id seq p r t, .asked (op, .ptyOperation pty id seq p r t) ∈ s.log →
    ∃ b', .queued r t (some pty) p b' ∈ s.log ∧ b' ∈ s.settledTurns
  once : ∀ t, timesSent t s.log ≤ 1
  ordered : ∀ pty, (sentOn pty s.log).Sublist ((queuedOn pty s.log).map ChainLink.ticket)
  /-- Whatever was sent to a PTY had its answer before anything more was. -/
  alone : ∀ before op pty id seq p r t, before ++ [.asked (op, .ptyOperation pty id seq p r t)] <+: s.log →
    ∀ op' id' seq' p' r' t', .asked (op', .ptyOperation pty id' seq' p' r' t') ∈ before →
      ∃ a, .answered (op', .ptyOperation pty id' seq' p' r' t') a ∈ before

theorem inputInv_initial : InputInv initial where
  opened := fun before _ _ _ _ _ h => by cases before <;> cases List.prefix_nil.mp h
  single := fun _ _ _ h => by cases h
  owner := fun _ _ _ _ _ _ h => by cases h
  exact := fun _ _ _ _ _ _ h => by cases h
  unique := fun _ _ _ _ _ _ _ _ _ h => by cases h
  chained := fun _ => .nil
  last := fun _ _ _ h => by cases h
  closed := fun _ _ _ _ _ h => by cases h
  answered := fun _ _ _ _ _ _ _ h => by cases h
  sent := fun _ _ _ _ _ _ _ h => by cases h
  once := fun _ => Nat.zero_le _
  ordered := fun _ => List.Sublist.refl _
  alone := fun before _ _ _ _ _ _ _ h => by cases before <;> cases List.prefix_nil.mp h

namespace InputInv

/-- A write that gives no terminal a PTY and enters no input. -/
theorem frame (hi : InputInv s) (hl : s'.log = s.log ∨ ∃ e, s'.log = s.log ++ [e] ∧ e.isInput = false)
    (hs : s'.settledTurns = s.settledTurns)
    (hr : ∀ r pty, (s'.records r).pty = some pty →
      (s.records r).pty = some pty ∧ (s'.records r).operationQueue = (s.records r).operationQueue) :
    InputInv s' := by
  have hmem : ∀ e, e.isInput = true → (e ∈ s'.log ↔ e ∈ s.log) := by
    intro e he
    rcases hl with hl | ⟨e', hl, he'⟩
    · rw [hl]
    · rw [hl, List.mem_append, List.mem_singleton]
      refine ⟨fun h => h.resolve_right ?_, .inl⟩
      rintro rfl
      rw [he] at he'
      cases he'
  have hbefore : ∀ before x, x.isInput = true → before ++ [x] <+: s'.log → before ++ [x] <+: s.log := by
    intro before x hx h
    rcases hl with hl | ⟨e, hl, he⟩
    · exact hl ▸ h
    · rcases prefix_snoc (hl ▸ h) with ⟨_, rfl⟩ | h
      · rw [hx] at he
        cases he
      · exact h
  have hq : ∀ pty, queuedOn pty s'.log = queuedOn pty s.log := fun pty => by
    rcases hl with hl | ⟨e, hl, he⟩
    · rw [hl]
    · rw [hl, queuedOn_snoc he]
  have hsent : ∀ pty, sentOn pty s'.log = sentOn pty s.log := fun pty => by
    rcases hl with hl | ⟨e, hl, he⟩
    · rw [hl]
    · rw [hl, sentOn_snoc he]
  have htimes : ∀ t, timesSent t s'.log = timesSent t s.log := fun t => by
    rcases hl with hl | ⟨e, hl, he⟩
    · rw [hl]
    · rw [hl, timesSent_snoc he]
  have hsub : s.log ⊆ s'.log := by
    rcases hl with hl | ⟨e, hl, _⟩
    · exact hl ▸ List.Subset.refl _
    · exact hl ▸ List.subset_append_left _ _
  exact {
    opened := fun before r t pty p b' h => hi.opened before r t pty p b' (hbefore _ _ rfl h)
    single := fun r r' pty h h' => hi.single r r' pty (hr r pty h).1 (hr r' pty h').1
    owner := fun r t pty p b' r' h h' =>
      hi.owner r t pty p b' r' ((hmem _ rfl).mp h) (hr r' pty h').1
    exact := fun r t pty p b' pty' h ht h' =>
      hi.exact r t pty p b' pty' ((hmem _ rfl).mp h) (hs ▸ ht) (hr r pty' h').1
    unique := fun r t pty p b' r' pty' p' b'' h h' =>
      hi.unique r t pty p b' r' pty' p' b'' ((hmem _ rfl).mp h) ((hmem _ rfl).mp h')
    chained := fun pty => hq pty ▸ hi.chained pty
    last := fun r pty l h hlast => by
      rw [(hr r pty h).2]
      exact hi.last r pty l (hr r pty h).1 (hq pty ▸ hlast)
    closed := fun r t pty p b' h ht => hs ▸ hi.closed r t pty p b' ((hmem _ rfl).mp h) (hs ▸ ht)
    answered := fun op pty id seq p r t h ht => by
      obtain ⟨a, ha⟩ := hi.answered op pty id seq p r t ((hmem _ rfl).mp h) (hs ▸ ht)
      exact ⟨a, hsub ha⟩
    sent := fun op pty id seq p r t h => by
      obtain ⟨b', hb, hb'⟩ := hi.sent op pty id seq p r t ((hmem _ rfl).mp h)
      exact ⟨b', hsub hb, hs ▸ hb'⟩
    once := fun t => htimes t ▸ hi.once t
    ordered := fun pty => by
      rw [hsent, hq]
      exact hi.ordered pty
    alone := fun before op pty id seq p r t h =>
      hi.alone before op pty id seq p r t (hbefore _ _ rfl h) }

/-- A log entry that is no input. -/
theorem addLog (hi : InputInv s) (e : Event) (he : e.isInput = false) : InputInv (s.addLog e) :=
  hi.frame (.inr ⟨e, rfl, he⟩) rfl fun _ _ h => ⟨h, rfl⟩

theorem same (hi : InputInv s) (hl : s'.log = s.log) (hs : s'.settledTurns = s.settledTurns)
    (hr : s'.records = s.records) : InputInv s' :=
  hi.frame (.inl hl) hs fun _ _ h => ⟨hr ▸ h, by rw [hr]⟩

/-- A write of one record that gives it no PTY, or leaves it its PTY and its queue. -/
theorem setRecord (hi : InputInv s) (r : Nat) (f : TerminalRecord → TerminalRecord)
    (hf : (f (s.records r)).pty = none ∨ ((f (s.records r)).pty = (s.records r).pty ∧
      (f (s.records r)).operationQueue = (s.records r).operationQueue)) :
    InputInv (s.setRecord r f) := by
  refine hi.frame (.inl rfl) rfl fun i pty h => ?_
  rw [State.setRecord_records] at h ⊢
  split at h
  · next he =>
    subst he
    rw [if_pos rfl]
    rcases hf with hf | ⟨hp, hq⟩
    · rw [hf] at h
      cases h
    · exact ⟨hp ▸ h, hq⟩
  · next he =>
    rw [if_neg he]
    exact ⟨h, rfl⟩

theorem detach (hi : InputInv s) : InputInv s.detachTerminals := by
  refine hi.frame (.inl rfl) rfl fun r pty h => ?_
  rw [State.detachTerminals_records] at h ⊢
  split at h
  · cases h
  · next hr =>
    rw [if_neg hr]
    exact ⟨h, rfl⟩

/-- A PTY is opened that was never opened, and whose channel nothing is queued for. -/
theorem open_ (hi : InputInv s) (r : Nat) (pty : SshPtyRef)
    (hnever : ∀ r t p b', .queued r t (some pty) p b' ∉ s.log)
    (hnone : ∀ r, (s.records r).pty ≠ some pty)
    (hchannel : ∀ t p pay b', .queued r t (some p) pay b' ∈ s.log → t ∉ s.settledTurns →
      p.channelId ≠ pty.channelId) : InputInv (s.setRecord r (·.openedOn pty)) := by
  have hrec : ∀ i p, ((s.setRecord r (·.openedOn pty)).records i).pty = some p →
      (i = r ∧ p = pty) ∨ ((s.records i).pty = some p ∧
        (s.setRecord r (·.openedOn pty)).records i = s.records i) := by
    intro i p h
    by_cases he : i = r
    · subst he
      rw [State.setRecord_same] at h
      exact .inl ⟨rfl, (Option.some.inj h).symm⟩
    · rw [State.setRecord_other _ _ _ he] at h ⊢
      exact .inr ⟨h, rfl⟩
  exact {
    hi with
    single := fun i j p h h' => by
      rcases hrec i p h with ⟨hir, hp⟩ | ⟨h₁, _⟩
      · rcases hrec j p h' with ⟨hjr, _⟩ | ⟨h₂, _⟩
        · exact hir.trans hjr.symm
        · exact absurd (hp ▸ h₂) (hnone j)
      · rcases hrec j p h' with ⟨_, hp⟩ | ⟨h₂, _⟩
        · exact absurd (hp ▸ h₁) (hnone i)
        · exact hi.single i j p h₁ h₂
    owner := fun i t p pay b' j h h' => by
      rcases hrec j p h' with ⟨_, rfl⟩ | ⟨h₁, _⟩
      · exact absurd h (hnever i t pay b')
      · exact hi.owner i t p pay b' j h h₁
    exact := fun i t p pay b' p' h ht h' hc => by
      rcases hrec i p' h' with ⟨rfl, rfl⟩ | ⟨h₁, _⟩
      · exact absurd hc (hchannel t p pay b' h ht)
      · exact hi.exact i t p pay b' p' h ht h₁ hc
    last := fun i p l h hl => by
      rcases hrec i p h with ⟨_, rfl⟩ | ⟨h₁, he⟩
      · obtain ⟨j, pay, hm⟩ := mem_queuedOn.mp (List.mem_of_getLast? hl)
        exact absurd hm (hnever j _ pay _)
      · rw [he]
        exact hi.last i p l h₁ hl }

/-- A call is queued behind the one before it. -/
theorem queue (hi : InputInv s) (ht : TerminalInv ok s) (r t : Nat) (payload : PtyPayload)
    (hnew : ∀ r' pty' p' b', .queued r' t pty' p' b' ∉ s.log) (hopen : t ∉ s.settledTurns) :
    InputInv ((s.addLog (.queued r t (s.records r).pty payload
      (s.records r).operationQueue)).setRecord r fun u => { u with operationQueue := t }) := by
  have hrec : ∀ i, (((s.addLog (.queued r t (s.records r).pty payload
      (s.records r).operationQueue)).setRecord r fun u =>
        { u with operationQueue := t }).records i).pty = (s.records i).pty := by
    intro i
    rw [State.setRecord_records]
    split
    · next he => rw [he]; rfl
    · rfl
  have hmem : ∀ {e : Event}, e ∈ s.log ++ [.queued r t (s.records r).pty payload
      (s.records r).operationQueue] → e ∈ s.log ∨
      e = .queued r t (s.records r).pty payload (s.records r).operationQueue := fun h =>
    (List.mem_append.mp h).imp (fun h => h) List.mem_singleton.mp
  -- the calls made for a PTY are one more if it is the terminal's
  have hother : ∀ pty, (s.records r).pty ≠ some pty → queuedOn pty (s.log ++
      [.queued r t (s.records r).pty payload (s.records r).operationQueue]) = queuedOn pty s.log := by
    intro pty h
    rw [queuedOn_append]
    cases hp : (s.records r).pty with
    | none => exact List.append_nil _
    | some p =>
      have hne : p ≠ pty := fun he => h (he ▸ hp)
      simp [queuedOn, hne]
  have hown : ∀ pty, (s.records r).pty = some pty → queuedOn pty (s.log ++
      [.queued r t (s.records r).pty payload (s.records r).operationQueue]) =
      queuedOn pty s.log ++ [⟨t, (s.records r).operationQueue⟩] := by
    intro pty h
    rw [queuedOn_append, h]
    simp [queuedOn]
  have hsub : s.log ⊆ s.log ++ [.queued r t (s.records r).pty payload
      (s.records r).operationQueue] := List.subset_append_left _ _
  have hasked : ∀ {q : Req}, .asked q ∈ s.log ++ [.queued r t (s.records r).pty payload
      (s.records r).operationQueue] → .asked q ∈ s.log := fun h =>
    (hmem h).resolve_right fun he => by cases he
  exact {
    opened := fun before r' t' pty p b' h => by
      rcases prefix_snoc h with ⟨rfl, he⟩ | h
      · injection he with _ _ hp _ _
        exact ht.opened r pty hp.symm
      · exact hi.opened before r' t' pty p b' h
    single := fun i j pty h h' => hi.single i j pty (hrec i ▸ h) (hrec j ▸ h')
    owner := fun r' t' pty p b' j h h' => by
      rcases hmem h with h | he
      · exact hi.owner r' t' pty p b' j h (hrec j ▸ h')
      · injection he with hr _ hp _ _
        exact hi.single j r' pty (hrec j ▸ h') (hr ▸ hp.symm)
    exact := fun r' t' pty p b' pty' h ht' h' hc => by
      rcases hmem h with h | he
      · exact hi.exact r' t' pty p b' pty' h ht' (hrec r' ▸ h') hc
      · injection he with hr _ hp _ _
        have h'' := hrec r' ▸ h'
        rw [hr, ← hp] at h''
        exact Option.some.inj h''
    unique := fun r₁ t' pty₁ p₁ b₁ r₂ pty₂ p₂ b₂ h₁ h₂ => by
      rcases hmem h₁ with h₁ | h₁
      · rcases hmem h₂ with h₂ | h₂
        · exact hi.unique r₁ t' pty₁ p₁ b₁ r₂ pty₂ p₂ b₂ h₁ h₂
        · injection h₂ with _ hte
          exact absurd (hte ▸ h₁) (hnew _ _ _ _)
      · injection h₁ with hr₁ hte hp₁ hpay₁ hb₁
        rcases hmem h₂ with h₂ | h₂
        · exact absurd (hte ▸ h₂) (hnew _ _ _ _)
        · injection h₂ with hr₂ _ hp₂ hpay₂ hb₂
          exact ⟨hr₁.trans hr₂.symm, hp₁.trans hp₂.symm, hpay₁.trans hpay₂.symm, hb₁.trans hb₂.symm⟩
    chained := fun pty => by
      show Chained (queuedOn pty (s.log ++ _))
      by_cases hp : (s.records r).pty = some pty
      · rw [hown pty hp]
        exact (hi.chained pty).snoc fun m hm => hi.last r pty m hp hm
      · rw [hother pty hp]
        exact hi.chained pty
    last := fun i pty l h hl => by
      have hl' : (queuedOn pty (s.log ++ [.queued r t (s.records r).pty payload
        (s.records r).operationQueue])).getLast? = some l := hl
      have h' := hrec i ▸ h
      by_cases hir : i = r
      · subst hir
        rw [hown pty h', List.getLast?_append, List.getLast?_singleton] at hl'
        cases hl'
        rw [State.setRecord_same]
      · rw [hother pty fun hp => hir (hi.single i r pty h' hp)] at hl'
        rw [State.setRecord_other _ _ _ hir]
        exact hi.last i pty l h' hl'
    closed := fun r' t' pty p b' h ht' => by
      rcases hmem h with h | he
      · exact hi.closed r' t' pty p b' h ht'
      · injection he with _ hte
        exact absurd (hte ▸ ht') hopen
    answered := fun op pty id seq p r' t' h ht' => by
      obtain ⟨a, ha⟩ := hi.answered op pty id seq p r' t' (hasked h) ht'
      exact ⟨a, hsub ha⟩
    sent := fun op pty id seq p r' t' h => by
      obtain ⟨b', hb, hb'⟩ := hi.sent op pty id seq p r' t' (hasked h)
      exact ⟨b', hsub hb, hb'⟩
    once := fun t' => by
      show timesSent t' (s.log ++ _) ≤ 1
      rw [timesSent_append]
      exact hi.once t'
    ordered := fun pty => by
      show (sentOn pty (s.log ++ _)).Sublist ((queuedOn pty (s.log ++ _)).map _)
      rw [sentOn_append, queuedOn_append, List.map_append]
      refine List.Sublist.trans ?_ (List.sublist_append_left _ _)
      show (sentOn pty s.log ++ []).Sublist _
      rw [List.append_nil]
      exact hi.ordered pty
    alone := fun before op pty id seq p r' t' h => by
      rcases prefix_snoc h with ⟨_, he⟩ | h
      · cases he
      · exact hi.alone before op pty id seq p r' t' h }

/-- The payload of a call is sent: to the PTY it was made for, once everything that
was sent there before is answered. -/
theorem send (hi : InputInv s) {op : Operation} {pty : SshPtyRef} {id : String} {seq : Nat}
    {p : PtyPayload} {r t : Nat} (hs : Sends ok o s pty seq p r t) :
    InputInv (s.addLog (.asked (op, .ptyOperation pty id seq p r t))) := by
  obtain ⟨selected, behind, hcall, hchannel, hbehind⟩ := hs.called
  have hselected : selected = some pty := by
    cases selected with
    | none => cases hchannel
    | some sel =>
      exact congrArg some (hi.exact r t sel p behind pty hcall hs.unsettled hs.holds
        (Option.some.inj hchannel))
  subst hselected
  have hclosed : ∀ m ∈ queuedOn pty s.log, m.ticket ∈ s.settledTurns → m.behind ∈ s.settledTurns := by
    intro m hm hset
    obtain ⟨r', p', hq⟩ := mem_queuedOn.mp hm
    exact hi.closed r' _ _ p' _ hq hset
  -- everything behind a link that was sent is settled, so this one is the next
  have hturn : ∀ m ∈ queuedOn pty s.log, m.ticket ∈ sentOn pty s.log → m.behind ∈ s.settledTurns := by
    intro m hm hsent
    obtain ⟨r', p', hq⟩ := mem_queuedOn.mp hm
    obtain ⟨op', id', seq', p'', r'', ha⟩ := mem_sentOn.mp hsent
    obtain ⟨b', hq', hb'⟩ := hi.sent op' pty id' seq' p'' r'' m.ticket ha
    exact (hi.unique _ _ _ _ _ _ _ _ _ hq hq').2.2.2 ▸ hb'
  have hunsent : t ∉ sentOn pty s.log := by
    intro hm
    obtain ⟨op', id', seq', p', r', ha⟩ := mem_sentOn.mp hm
    exact hs.unsent op' pty id' seq' p' r' ha
  obtain ⟨hordered, hsettled⟩ := (hi.chained pty).acts_next (l := ⟨t, behind⟩) hclosed
    (hi.ordered pty) hturn (mem_queuedOn.mpr ⟨r, p, hcall⟩) hunsent hs.unsettled hbehind
  have hsub : s.log ⊆ s.log ++ [.asked (op, .ptyOperation pty id seq p r t)] :=
    List.subset_append_left _ _
  have hmem : ∀ {e : Event}, e ∈ s.log ++ [.asked (op, .ptyOperation pty id seq p r t)] →
      e ∈ s.log ∨ e = .asked (op, .ptyOperation pty id seq p r t) := fun h =>
    (List.mem_append.mp h).imp (fun h => h) List.mem_singleton.mp
  have hqueued : ∀ {r' t' pty' p' b'}, .queued r' t' pty' p' b' ∈
      s.log ++ [.asked (op, .ptyOperation pty id seq p r t)] → .queued r' t' pty' p' b' ∈ s.log :=
    fun h => (hmem h).resolve_right fun he => by cases he
  have hq : ∀ pty', queuedOn pty' (s.log ++ [.asked (op, .ptyOperation pty id seq p r t)]) =
      queuedOn pty' s.log := fun pty' => by
    rw [queuedOn_append]
    exact List.append_nil _
  exact {
    opened := fun before r' t' pty' p' b' h => by
      rcases prefix_snoc h with ⟨_, he⟩ | h
      · cases he
      · exact hi.opened before r' t' pty' p' b' h
    single := hi.single
    owner := fun r' t' pty' p' b' j h => hi.owner r' t' pty' p' b' j (hqueued h)
    exact := fun r' t' pty' p' b' pty'' h => hi.exact r' t' pty' p' b' pty'' (hqueued h)
    unique := fun _ _ _ _ _ _ _ _ _ h h' => hi.unique _ _ _ _ _ _ _ _ _ (hqueued h) (hqueued h')
    chained := fun pty' => by
      show Chained (queuedOn pty' (s.log ++ _))
      rw [hq]
      exact hi.chained pty'
    last := fun i pty' l h hl => by
      refine hi.last i pty' l h ?_
      have hl' : (queuedOn pty' (s.log ++ [.asked (op, .ptyOperation pty id seq p r t)])).getLast? =
        some l := hl
      rwa [hq] at hl'
    closed := fun r' t' pty' p' b' h => hi.closed r' t' pty' p' b' (hqueued h)
    answered := fun op' pty' id' seq' p' r' t' h ht' => by
      rcases hmem h with h | he
      · obtain ⟨a, ha⟩ := hi.answered op' pty' id' seq' p' r' t' h ht'
        exact ⟨a, hsub ha⟩
      · cases he
        exact absurd ht' hs.unsettled
    sent := fun op' pty' id' seq' p' r' t' h => by
      rcases hmem h with h | he
      · obtain ⟨b', hb, hb'⟩ := hi.sent op' pty' id' seq' p' r' t' h
        exact ⟨b', hsub hb, hb'⟩
      · cases he
        exact ⟨behind, hsub hcall, hbehind⟩
    once := fun t' => by
      show timesSent t' (s.log ++ _) ≤ 1
      rw [timesSent_append]
      by_cases he : t = t'
      · subst he
        have hzero : timesSent t s.log = 0 := by
          refine List.countP_eq_zero.mpr fun e hm he => ?_
          cases e with
          | asked q =>
            obtain ⟨op', q⟩ := q
            cases q with
            | ptyOperation pty' id' seq' p' r' t' =>
              have ht : t' = t := of_decide_eq_true he
              exact hs.unsent op' pty' id' seq' p' r' (ht ▸ hm)
            | _ => cases he
          | _ => cases he
        rw [hzero]
        simp [timesSent]
      · have hzero : timesSent t' [.asked (op, .ptyOperation pty id seq p r t)] = 0 := by
          simp [timesSent, he]
        rw [hzero]
        exact hi.once t'
    ordered := fun pty' => by
      show (sentOn pty' (s.log ++ _)).Sublist ((queuedOn pty' (s.log ++ _)).map _)
      rw [hq, sentOn_append]
      by_cases he : pty = pty'
      · subst he
        simpa [sentOn] using hordered
      · have hnil : sentOn pty' [.asked (op, .ptyOperation pty id seq p r t)] = [] := by
          simp [sentOn, he]
        rw [hnil, List.append_nil]
        exact hi.ordered pty'
    alone := fun before op' pty' id' seq' p' r' t' h op'' id'' seq'' p'' r'' t'' ha => by
      rcases prefix_snoc h with ⟨rfl, he⟩ | h
      · cases he
        exact hi.answered _ _ _ _ _ _ _ ha
          (hsettled t'' (mem_sentOn.mpr ⟨op'', id'', seq'', p'', r'', ha⟩))
      · exact hi.alone before op' pty' id' seq' p' r' t' h op'' id'' seq'' p'' r'' t'' ha }

/-- A call is over: the one it waited for is, and its payload has its answer. -/
theorem settle (hi : InputInv s) (t : Nat)
    (hb : ∀ r pty p b', .queued r t pty p b' ∈ s.log → b' ∈ s.settledTurns)
    (ha : ∀ op pty id seq p r, .asked (op, .ptyOperation pty id seq p r t) ∈ s.log →
      ∃ a, .answered (op, .ptyOperation pty id seq p r t) a ∈ s.log) :
    InputInv { s with settledTurns := t :: s.settledTurns } :=
  { hi with
    exact := fun r t' pty p b' pty' h ht' =>
      hi.exact r t' pty p b' pty' h fun hm => ht' (List.mem_cons_of_mem _ hm)
    closed := fun r t' pty p b' h ht' => by
      rcases List.mem_cons.mp ht' with rfl | ht'
      · exact List.mem_cons_of_mem _ (hb r pty p b' h)
      · exact List.mem_cons_of_mem _ (hi.closed r t' pty p b' h ht')
    answered := fun op pty id seq p r t' h ht' => by
      rcases List.mem_cons.mp ht' with rfl | ht'
      · exact ha op pty id seq p r h
      · exact hi.answered op pty id seq p r t' h ht'
    sent := fun op pty id seq p r t' h => by
      obtain ⟨b', hq, hb'⟩ := hi.sent op pty id seq p r t' h
      exact ⟨b', hq, List.mem_cons_of_mem _ hb'⟩ }

end InputInv

/-- The platform opens every PTY once, and gives no terminal the channel id of a PTY
that input is still queued for. -/
def keepsInput (s : State) (l : StepLabel) : Bool := !reusesChannel s l && !reopens s l

theorem Write.inputInv (hg : Inv ok g.source) (hok : keepsInput g.source g.label = true)
    (hi : Inv ok s) (h : InputInv s) (w : Write ok env g o b s s') : InputInv s' := by
  cases w with
  | minor hc _ _ =>
    have hc := SameCore.of_core hc
    exact h.frame (.inl hc.log) hc.settledTurns fun r pty hp => ⟨hc.pty r ▸ hp, hc.operationQueue r⟩
  | asked q _ ha =>
    refine h.addLog _ ?_
    obtain ⟨op, q⟩ := q
    cases q with
    | ptyOperation => exact ha.elim
    | _ => rfl
  | answered q a => exact h.addLog _ rfl
  | dialled n d host => exact h.addLog _ rfl
  | presented n p => exact (h.addLog (.presented n) rfl).same rfl rfl rfl
  | adopt n host c p => exact (h.addLog (.adopted c) rfl).same rfl rfl rfl
  | once k => exact (h.addLog (.trustedOnce k) rfl).same rfl rfl rfl
  | ladderEnded n => exact h.addLog _ rfl
  | signalled before => exact h.addLog _ rfl
  | detach => exact h.detach
  | empty => exact h.detach.same rfl rfl rfl
  | remove r keep =>
    obtain ⟨_, he⟩ := s.removeTerminal_eq r keep
    rw [he]
    exact (h.setRecord r (fun t => { t with
      attachToken := t.attachToken + 1, pumpToken := t.pumpToken + 1, pty := none })
      (.inl rfl)).same rfl rfl rfl
  | abandon r | eof r | opening r => exact h.setRecord r _ (.inl rfl)
  | opened r op ref id command geometry mode token result _ _ _ hl hs =>
    simp only [keepsInput, Bool.and_eq_true, Bool.not_eq_true', hl, reusesChannel, reopens] at hok
    obtain ⟨hreuse, hopens⟩ := hok
    have hlog : ∀ {e : Event}, e.isInput = true → e ∈ s.log → e ∈ g.source.log := by
      intro e he hm
      rw [hs, State.addLog_log] at hm
      refine (List.mem_append.mp hm).resolve_right fun hm => ?_
      cases List.mem_singleton.mp hm
      cases he
    refine h.open_ r result.pty (fun r' t p b' hm => ?_) (fun r' hp => ?_) fun t p pay b' hm ht hc => ?_
    · -- what was queued for it would have been queued after it was opened
      obtain ⟨before, after, hsplit⟩ := List.append_of_mem (hlog rfl hm)
      have hbefore : before.any (Event.opens result.pty) = true := by
        refine h.opened before r' t result.pty p b' ⟨after ++ [.answered (op, .openPty ref id command
          geometry { mode := mode, record := r, token := token }) (.ok result)], ?_⟩
        rw [hs, State.addLog_log, hsplit]
        simp
      rw [hsplit, List.any_append, hbefore] at hopens
      cases hopens
    · rw [hs] at hp
      rw [hg.opened r' result.pty hp] at hopens
      cases hopens
    · have hqueued : g.source.queuedOn r result.pty.channelId = true := by
        refine List.any_eq_true.mpr ⟨_, hlog rfl hm, ?_⟩
        rw [hs] at ht
        have ht' : t ∉ g.source.settledTurns := ht
        simp [hc, ht']
      rw [hqueued] at hreuse
      cases hreuse
  | pumping r => exact h.setRecord r _ (.inr ⟨rfl, rfl⟩)
  | rekey r row f _ hf =>
    refine h.setRecord r f (.inr ⟨?_, ?_⟩)
    · exact (congrArg TerminalRecord.pty hf :)
    · exact (congrArg TerminalRecord.operationQueue hf :)
  | open_ row t _ _ _ _ ht =>
    refine (h.setRecord s.nextRecord (fun _ => t) (.inl ?_)).same rfl rfl rfl
    exact (congrArg TerminalRecord.pty ht :)
  | queued r t p _ _ hnew hopen => exact h.queue hi.toTerminalInv r t p hnew hopen
  | sequence r => exact h.setRecord r _ (.inr ⟨rfl, rfl⟩)
  | sends op pty id seq p r t _ hs => exact h.send hs
  | settle t _ hb ha =>
    exact h.settle t hb fun op pty id seq p r hm => ha _ hm pty id seq p r rfl
  | _ => exact h.same rfl rfl rfl

theorem reach_inputInv (h : (controller env).Reach (fun s l => keepsInput s l = true) start cfg) :
    InputInv cfg.state :=
  reach_keeps h inputInv_initial fun _ _ _ _ _ hg hok hi _ hP w => w.inputInv hg hok hi hP

/-- The payload of a call is sent once at most, and to the PTY the terminal had then.
The operations on a PTY are numbered from 1 in the order of the calls, and each is
answered before the next is sent. -/
theorem terminal_input
    (h : (controller env).Reach (fun s l => keepsInput s l = true) start cfg) :
    (∀ r ticket selected p behind, .queued r ticket selected p behind ∈ cfg.state.log →
      timesSent ticket cfg.state.log ≤ 1 ∧
      ∀ op pty id sequence p' r',
        .asked (op, .ptyOperation pty id sequence p' r' ticket) ∈ cfg.state.log →
        some pty = selected ∧ p' = p ∧ r' = r) ∧
    (∀ op pty id sequence p r ticket,
      .asked (op, .ptyOperation pty id sequence p r ticket) ∈ cfg.state.log →
      ∃ behind, .queued r ticket (some pty) p behind ∈ cfg.state.log) ∧
    (∀ before op pty id sequence p r ticket,
      before ++ [.asked (op, .ptyOperation pty id sequence p r ticket)] <+: cfg.state.log →
      sequence = sent pty before + 1 ∧
      ∀ op' id' sequence' p' r' ticket',
        .asked (op', .ptyOperation pty id' sequence' p' r' ticket') ∈ before →
        ∃ a, .answered (op', .ptyOperation pty id' sequence' p' r' ticket') a ∈ before) ∧
    ∀ pty, (sentOn pty cfg.state.log).Sublist
      ((queuedOn pty cfg.state.log).map ChainLink.ticket) := by
  have hi := reach_inputInv h
  have hopens : ¬ Reopens fun s l => keepsInput s l = true := by
    rintro ⟨s, l, hok, hl⟩
    simp [keepsInput, hl] at hok
  refine ⟨fun r t pty p b' hq => ⟨hi.once t, ?_⟩, ?_, ?_, hi.ordered⟩
  · intro op pty' id seq p' r' ha
    obtain ⟨b'', hq', _⟩ := hi.sent op pty' id seq p' r' t ha
    obtain ⟨hr, hpty, hp, _⟩ := hi.unique _ _ _ _ _ _ _ _ _ hq' hq
    exact ⟨hpty, hp, hr⟩
  · intro op pty id seq p r t ha
    obtain ⟨b', hq, _⟩ := hi.sent op pty id seq p r t ha
    exact ⟨b', hq⟩
  · intro before op pty id seq p r t hb
    refine ⟨?_, hi.alone before op pty id seq p r t hb⟩
    have hnumbered := reach_entries (P := fun log e => ∀ op pty id seq p r t,
        e = .asked (op, .ptyOperation pty id seq p r t) → seq = sent pty log + 1) h
      (fun g o s e _ _ _ _ hent op pty id seq p r t heq => by
        subst heq
        exact hent.2.numbered hopens) hb
    exact hnumbered op pty id seq p r t rfl

/-- Two writes to the terminal of `mainRow`; the first one is sent. -/
def typing : List (System.Act Ans Input) :=
  connecting "A" 0 ++ listing 0 ++ [attachMain, answered 0,
    .start (.writeTerminalBytes mainRow [1]), .start (.writeTerminalBytes mainRow [2]), answered 3]

/-- The PTY each entry about terminal input names, by ticket. -/
def inputTrace (s : State) : List (Nat × Option SshPtyRef) × List (Nat × SshPtyRef) :=
  (s.log.filterMap fun e =>
      match e with
      | .queued _ ticket pty _ _ => some (ticket, pty)
      | _ => none,
    s.log.filterMap fun e =>
      match e with
      | .asked (_, .ptyOperation pty _ _ _ _ ticket) => some (ticket, pty)
      | _ => none)

theorem mem_inputTrace {s : State} {queued : List (Nat × Option SshPtyRef)}
    {asked : List (Nat × SshPtyRef)} (h : inputTrace s = (queued, asked)) :
    (∀ ticket pty, (ticket, pty) ∈ queued → ∃ r p behind, .queued r ticket pty p behind ∈ s.log) ∧
    ∀ ticket pty, (ticket, pty) ∈ asked →
      ∃ op id sequence p r, .asked (op, .ptyOperation pty id sequence p r ticket) ∈ s.log := by
  obtain ⟨rfl, rfl⟩ := Prod.mk.inj h
  constructor
  · intro t pty hm
    obtain ⟨e, he, heq⟩ := List.mem_filterMap.mp hm
    cases e with
    | queued r t' pty' p b' =>
      cases heq
      exact ⟨r, p, b', he⟩
    | _ => cases heq
  · intro t pty hm
    obtain ⟨e, he, heq⟩ := List.mem_filterMap.mp hm
    cases e with
    | asked q =>
      obtain ⟨op, q⟩ := q
      cases q with
      | ptyOperation pty' id seq p r t' =>
        cases heq
        exact ⟨op, id, seq, p, r, he⟩
      | _ => cases heq
    | _ => cases heq

theorem terminal_input_typed :
    ∃ cfg, (controller obligingEnv).Reach (fun s l => keepsInput s l = true) start cfg ∧
      inputTrace cfg.state =
        ([(2, some ⟨"1", "1", "1"⟩), (3, some ⟨"1", "1", "1"⟩)], [(2, ⟨"1", "1", "1"⟩)]) ∧
      ∀ r ticket selected p behind, .queued r ticket selected p behind ∈ cfg.state.log →
        timesSent ticket cfg.state.log ≤ 1 ∧
        ∀ op pty id sequence p' r',
          .asked (op, .ptyOperation pty id sequence p' r' ticket) ∈ cfg.state.log →
          some pty = selected ∧ p' = p ∧ r' = r := by
  obtain ⟨cfg, hreach, hp⟩ := System.played (controller obligingEnv) keepsInput start typing
    (p := fun c => inputTrace c.state =
      ([(2, some ⟨"1", "1", "1"⟩), (3, some ⟨"1", "1", "1"⟩)], [(2, ⟨"1", "1", "1"⟩)]))
    (by decide +kernel)
  exact ⟨cfg, hreach, of_decide_eq_true hp, (terminal_input hreach).1⟩

/-- A write waits behind another one while the connection is lost and the terminal
attached again: the new connection numbers its channels from 1 too, and the write
goes to a PTY it was not typed into. -/
theorem input_outlives_pty :
    ∃ cfg, (controller obligingEnv).Reach System.any start cfg ∧
      ∃ r ticket pty p behind op pty' id sequence p' r',
        .queued r ticket (some pty) p behind ∈ cfg.state.log ∧
        .asked (op, .ptyOperation pty' id sequence p' r' ticket) ∈ cfg.state.log ∧
        pty.channelId = pty'.channelId ∧ pty.connectionId ≠ pty'.connectionId := by
  obtain ⟨cfg, hreach, hp⟩ := System.played_any (controller obligingEnv) start
    (typing ++ .start (lostEvent "1") :: List.replicate 6 (answered 5) ++ .loop 5 ::
      List.replicate 4 (answered 5) ++ [answered 6, answered 3, answered 3])
    (p := fun c => inputTrace c.state =
      ([(2, some ⟨"1", "1", "1"⟩), (3, some ⟨"1", "1", "1"⟩)],
        [(2, ⟨"1", "1", "1"⟩), (3, ⟨"10", "10", "1"⟩)]))
    (by decide +kernel)
  obtain ⟨hqueued, hasked⟩ := mem_inputTrace (of_decide_eq_true hp)
  obtain ⟨r, p, behind, hq⟩ := hqueued 3 (some ⟨"1", "1", "1"⟩) (by decide)
  obtain ⟨op, id, seq, p', r', ha⟩ := hasked 3 ⟨"10", "10", "1"⟩ (by decide)
  exact ⟨cfg, hreach, r, 3, _, p, behind, op, _, id, seq, p', r', hq, ha, rfl, by decide⟩

end PocketShell
