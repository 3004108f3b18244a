import PocketShell.Connection.Runs

/-!
# Recovery

When a recovery signal is taken by a ladder that will act on it, and when a ladder
that ends has used its budget.
-/

namespace PocketShell

open Coop (System Async Discipline)

variable {env : Env} {ok : Allowed} {cfg cfg' : Coop.Config State Ans Head}

/-! ## A platform that does what it is asked

For the runs below: every call succeeds, and PTYs get the channel `channel`. -/

def obligingText : HostCliText where
  parseHostSessionsList := fun _ => .ok ⟨[⟨"main", some "main", none, none⟩], []⟩
  parseCreate := fun _ => .ok ⟨"main", none, true⟩
  shortDetail := fun _ => ""

def obligingEnv : Env where
  gatewayTransport := false
  maxOpenPtys := DEFAULT_MAX_OPEN_PTYS
  maxOpenPtys_pos := by decide
  retryDelaysMs := DEFAULT_RETRY_DELAYS_MS
  maxBackgroundGraceMs := DEFAULT_MAX_BACKGROUND_GRACE_MS
  createId := fun n => toString n
  normalizeGatewayServerUrl := some
  text := obligingText
  encodeBase64 := fun bytes => String.ofList (bytes.map fun b => Char.ofNat b.toNat)
  decodeBase64 := fun text => some (text.toList.map fun c => UInt8.ofNat c.toNat)

def plainHost (hostId : String) : SshHostTarget :=
  ⟨hostId, hostId, 22, "user", .password "secret", none, none⟩

def plainKey : PresentedHostKey := ⟨"ssh-ed25519", "AAAA", "SHA256:key"⟩

def obliging (channel : String) : (q : Req) → Option (Ans q)
  | (_, .connect options) =>
    some (.ok ⟨options.requestId, options.generationId, options.generationId,
      ⟨some plainKey.keyType, some plainKey.keyB64, some plainKey.fingerprintSha256⟩, false⟩)
  | (_, .getConnectionState _ id) => some (.ok ⟨id, .connected⟩)
  | (_, .closeConnection _ id) => some (.ok ⟨id⟩)
  | (_, .cancelOperation _ id) => some (.ok ⟨id, true⟩)
  | (_, .scheduleClose _ id _) => some (.ok ⟨id⟩)
  | (_, .cancelScheduledClose _ id) => some (.ok ⟨id, true⟩)
  | (_, .exec ref id _ _ _) => some (.ok ⟨id, ref.generationId, ⟨some 0, "[]", "", false⟩⟩)
  | (_, .openPty ref id _ _ _) => some (.ok ⟨id, ⟨ref.connectionId, ref.generationId, channel⟩⟩)
  | (_, .ptyOperation pty id sequence _ _ _) => some (.ok ⟨id, pty.channelId, sequence⟩)
  | (_, .closePty _ id) => some (.ok ⟨id⟩)
  | (_, .trustGet _ _) => some (.ok (some (.wireKey plainKey)))
  | (_, .trustRecord _ _) => some (.ok ())
  | (_, .listenerReady) => some (.ok ())
  | (_, .removeListener) => some (.ok ())
  | (_, .delay _) => some ()
  | (_, .output ..) => some (.ok ())
  | (_, .tick _) => some ()
  | (_, .ladder _) => some ()
  | (_, .turn _) => some ()
  | (_, .readPty ..) => none
  | (_, .attaching _) => none

/-- The `i`-th parked thread is answered by the obliging platform. -/
def answered (i : Nat) : System.Act Ans Input := .reply i (obliging "1")

/-- The `i`-th parked thread is answered that its host command failed with `code`. -/
def execFailed (i : Nat) (code : String) : System.Act Ans Input :=
  .reply i fun
    | (_, .exec ..) => some (.error ⟨code, "The transport failed.", {}⟩)
    | _ => none

/-- The `i`-th parked thread is answered that its write or resize failed with `code`. -/
def operationFailed (i : Nat) (code : String) : System.Act Ans Input :=
  .reply i fun
    | (_, .ptyOperation ..) => some (.error ⟨code, "The transport failed.", {}⟩)
    | _ => none

/-- A connect of `hostId` while `n` threads are parked, up to its end. -/
def connecting (hostId : String) (n : Nat) : List (System.Act Ans Input) :=
  .start (.connect (plainHost hostId)) :: List.replicate 6 (answered n)

/-- A connect of `hostId` that closes a connection first. -/
def replacing (hostId : String) (n : Nat) : List (System.Act Ans Input) :=
  .start (.connect (plainHost hostId)) :: List.replicate 9 (answered n)

def mainRow : SessionRow := ⟨"main", some "main", none, none⟩

/-- A listing, which shows the one session `mainRow`. -/
def listing (n : Nat) : List (System.Act Ans Input) :=
  [.start .refreshSessions, answered n, answered n]

def attachMain : System.Act Ans Input := .start (.attachSession mainRow none)

def lostEvent (id : String) : Input := .connectionState ⟨⟨id, id⟩, true, none⟩

/-! ## Recovery signals -/

variable {s : State}

/-- `reconnectAndAttach` returns without awaiting anything. -/
theorem reconnectAndAttach_run (reason : String) {c : Operation}
    {K : Option Nat → Coop.Thread State Ans Head} {err : Thrown → Coop.Thread State Ans Head} :
    ∃ result s₁, ((Ctl.reconnectAndAttach env reason c K err).run s).1 = ((K result).run s₁).1 := by
  simp only [Ctl.reconnectAndAttach, Async.bind_apply, Async.get_apply, Coop.Thread.run]
  cases s.reconnectTask with
  | some task => exact ⟨_, s, rfl⟩
  | none =>
    cases s.host with
    | none => exact ⟨_, s, rfl⟩
    | some host => exact ⟨_, _, rfl⟩

/-- `startReconnect`, out of the background, ends in the entry of what it did. -/
theorem startReconnect_run (reason : String) {c : Operation}
    (hp : s.snapshot.phase ≠ .background) (hd : s.disposed = false) :
    ∃ s₁ : State, ((Async.thread c (Ctl.startReconnect env reason)).run s).1 =
      s₁.addLog (.signalled s.recovery s₁.recovery) := by
  simp only [Async.thread, Ctl.startReconnect, Async.bind_apply, Async.get_apply, Coop.Thread.run]
  rw [if_neg (by simp [hp, hd])]
  simp only [Async.bind_apply]
  obtain ⟨result, s₁, he⟩ := reconnectAndAttach_run reason (c := c) (s := s)
  exact ⟨s₁, he⟩

/-- What happens to a ladder's dials and failures as the log grows: there is a new
dial, or a failure it was answered stays with it. -/
theorem Course.foldl_grows (n : Nat) (es : List Event) (c : Course) :
    c.dials ≤ (es.foldl (Course.step n) c).dials ∧
      ((es.foldl (Course.step n) c).dials = c.dials → c.failed = true →
        (es.foldl (Course.step n) c).failed = true) := by
  have hstep : ∀ (c : Course) (e : Event), (Course.step n c e).dials = c.dials + 1 ∨
      (Course.step n c e).dials = c.dials ∧ (c.failed = true → (Course.step n c e).failed = true) := by
    intro c e
    cases e with
    | dialled m d h =>
      simp only [Course.step]
      split
      · exact .inl rfl
      · exact .inr ⟨rfl, id⟩
    | presented m =>
      simp only [Course.step]
      split <;> exact .inr ⟨rfl, id⟩
    | answered q a =>
      simp only [Course.step]
      split
      · exact .inr ⟨rfl, fun _ => rfl⟩
      · exact .inr ⟨rfl, id⟩
    | _ => exact .inr ⟨rfl, id⟩
  induction es generalizing c with
  | nil => exact ⟨le_rfl, fun _ => id⟩
  | cons e es ih =>
    obtain ⟨hle, hkeep⟩ := ih (Course.step n c e)
    rw [List.foldl_cons]
    rcases hstep c e with hd | ⟨hd, hf⟩
    · exact ⟨by omega, fun he => by omega⟩
    · exact ⟨hd ▸ hle, fun he hc => hkeep (he.trans hd.symm) (hf hc)⟩

theorem course_append (n : Nat) (log es : List Event) :
    course n (log ++ es) = es.foldl (Course.step n) (course n log) := by
  simp [course, List.foldl_append]

theorem course_dials_mono (n : Nat) {log log' : List Event} (h : log <+: log') :
    (course n log).dials ≤ (course n log').dials := by
  obtain ⟨es, rfl⟩ := h
  rw [course_append]
  exact (Course.foldl_grows n es _).1

theorem course_failed_mono (n : Nat) {log log' : List Event} (h : log <+: log')
    (hd : (course n log').dials = (course n log).dials) (hf : (course n log).failed = true) :
    (course n log').failed = true := by
  obtain ⟨es, rfl⟩ := h
  rw [course_append] at hd ⊢
  exact (Course.foldl_grows n es _).2 hd hf

/-- The step hands no ladder a transport failure it overlooks. -/
def notices (s : State) (l : StepLabel) : Bool := !overlooked s l

theorem notices_overlooks (h : ∀ s l, ok s l → notices s l = true) : ¬ Overlooks ok := by
  rintro ⟨s, l, hok, hl⟩
  have hnot := h s l hok
  simp [notices, hl] at hnot

/-- Whenever the ladder of `n` returns after `entries` and its intent is still the
current one, it has dialled since. -/
def Redials (n : Nat) (entries log : List Event) : Prop :=
  ∀ returned view, entries <+: returned → returned ++ [.ladderEnded n view] <+: log →
    view.current = true → (course n entries).dials < (course n returned).dials

/-- The ladder of `n` was answered a transport failure between `entries` and `returned`. -/
def Hears (n : Nat) (entries returned : List Event) : Prop :=
  ∃ heard q a, entries <+: heard ∧ heard ++ [.answered q a] <+: returned ∧ ladderFailure n q a = true

/-- The same of a ladder that hears of the loss by one of its own calls and has dials
left, unless a dial of it was refused for good. -/
def RedialsHearing (env : Env) (n : Nat) (entries log : List Event) : Prop :=
  ∀ returned view, entries <+: returned → returned ++ [.ladderEnded n view] <+: log →
    view.current = true → Hears n entries returned →
    (course n returned).dials < env.retryDelaysMs.length → view.trustPending = false →
    view.dialRetryable = true → (course n entries).dials < (course n returned).dials

/-- What is known of a ladder when it returns. -/
theorem ladder_returned (h : (controller env).Reach ok start cfg) {returned : List Event} {n : Nat}
    {view : LadderView} (he : returned ++ [.ladderEnded n view] <+: cfg.state.log)
    (hcur : view.current = true) :
    (env.retryDelaysMs = [] ∨ 0 < (course n returned).dials) ∧
      ((course n returned).dials < env.retryDelaysMs.length → view.trustPending = true ∨
        view.dialRetryable = false ∨ RanThrough n returned ∨ Overlooks ok) := by
  have hentry := reach_entries (P := fun log e => ∀ n view, e = .ladderEnded n view →
      view.current = true → (env.retryDelaysMs = [] ∨ 0 < (course n log).dials) ∧
        ((course n log).dials < env.retryDelaysMs.length → view.trustPending = true ∨
          view.dialRetryable = false ∨ RanThrough n log ∨ Overlooks ok)) h
    (fun g o s e _ _ _ _ hent n view heq hcur => by
      subst heq
      obtain ⟨rfl, _, hend⟩ := hent
      exact ⟨(hend hcur).dialled, (hend hcur).left⟩) he
  exact hentry n view rfl hcur

/-- A ladder that hears of the loss of its transport dials again. -/
theorem ladder_redials (h : (controller env).Reach ok start cfg)
    (hok : ∀ s l, ok s l → notices s l = true) (n : Nat) (entries : List Event) :
    RedialsHearing env n entries cfg.state.log := by
  intro returned view hafter he hcur ⟨heard, q, a, hheard, hanswered, hfail⟩ hleft htrust hretry
  refine lt_of_le_of_ne (course_dials_mono n hafter) fun hsame => ?_
  -- without a dial in between, the failure is still with the ladder when it returns
  have hheardle : heard <+: returned := (List.prefix_append _ _).trans hanswered
  have hd : (course n returned).dials = (course n (heard ++ [.answered q a])).dials :=
    le_antisymm (by
      rw [← hsame]
      exact course_dials_mono n (hheard.trans (List.prefix_append _ _)))
      (course_dials_mono n hanswered)
  have hfailed : (course n returned).failed = true :=
    course_failed_mono n hanswered hd (by simp [Course.step, hfail])
  rcases (ladder_returned h he hcur).2 hleft with ht | hr | hran | hover
  · rw [htrust] at ht
    cases ht
  · rw [hretry] at hr
    cases hr
  · rw [hran.unfailed] at hfailed
    cases hfailed
  · exact notices_overlooks hok hover

/-- A signal that concerns a held connection is taken by a ladder of the current
intent exactly when no ladder ran, or one of the current intent: a ladder that was
superseded absorbs it. A ladder that is started for the signal dials before it
returns, as long as it is current; one of the current intent is past its dial, and
dials again if it hears of the loss by a call of its own. The loss of the current
connection is such a signal. -/
theorem signal_taken_iff (h : (controller env).Reach ok start cfg) :
    (∀ entries before after, entries ++ [.signalled before after] <+: cfg.state.log →
      before.connected = true →
      (after.task = some after.intent ↔ before.task = none ∨ before.task = some before.intent) ∧
      (before.task = none → env.retryDelaysMs ≠ [] → Redials after.intent entries cfg.state.log) ∧
      (before.task = some before.intent → (∀ s l, ok s l → notices s l = true) →
        RedialsHearing env before.intent entries cfg.state.log)) ∧
    ∀ ref reason cfg', ok cfg.state (.start (.connectionState ⟨ref, true, reason⟩)) →
      (controller env).Step cfg (.start (.connectionState ⟨ref, true, reason⟩)) cfg' →
      cfg.state.isCurrentGeneration ref = true → cfg.state.disposed = false →
      cfg.state.snapshot.phase ≠ .background →
      (cfg'.state.reconnectTask = some cfg'.state.connectIntent ↔
        cfg.state.reconnectTask = none ∨ cfg.state.reconnectTask = some cfg.state.connectIntent) ∧
      ∃ entries, cfg'.state.log = entries ++ [.signalled cfg.state.recovery cfg'.state.recovery] := by
  have hlog : ∀ {cfg}, (controller env).Reach ok start cfg → ∀ entries before after,
      entries ++ [.signalled before after] <+: cfg.state.log → before.connected = true →
      (after.task = some after.intent ↔ before.task = none ∨ before.task = some before.intent) ∧
      (before.task = none → (course after.intent entries).dials = 0) := by
    intro cfg h entries before after hp
    exact reach_entries (P := fun log e => ∀ before after, e = .signalled before after →
      before.connected = true →
      (after.task = some after.intent ↔ before.task = none ∨ before.task = some before.intent) ∧
      (before.task = none → (course after.intent log).dials = 0)) h
      (fun g o s e _ _ _ _ hent before after he => by subst he; exact hent) hp before after rfl
  refine ⟨fun entries before after hp hconn => ?_, fun ref reason cfg' hok hstep hcur hd hp => ?_⟩
  · obtain ⟨hiff, hdials⟩ := hlog h entries before after hp hconn
    refine ⟨hiff, fun hnone hdelays returned view _ he hview => ?_, fun _ hok => ladder_redials h hok _ _⟩
    rw [hdials hnone]
    exact (ladder_returned h he hview).1.resolve_left hdelays
  have hconn : cfg.state.connection.isSome = true := by
    cases hc : cfg.state.connection with
    | none => simp [State.isCurrentGeneration, hc] at hcur
    | some _ => rfl
  cases hstep with
  | start _ s ps =>
    obtain ⟨s₁, hrun⟩ := startReconnect_run (reason.getD "SSH transport lost")
      (c := .closing) hp hd
    have hbody : (((controller env).body (.connectionState ⟨ref, true, reason⟩)).run s).1 =
        s₁.addLog (.signalled s.recovery s₁.recovery) := by
      rw [← hrun]
      simp only [controller, Input.body, Async.thread, Ctl.onConnectionState, Async.bind_apply,
        Async.get_apply, Coop.Thread.run]
      rw [if_neg (by simp [hcur]), if_neg (by simp), if_pos trivial]
    have hreach : (controller env).Reach ok start _ := .step h hok (.start _ s ps)
    have hmem : s₁.log ++ [.signalled s.recovery s₁.recovery] <+:
        (((controller env).body (.connectionState ⟨ref, true, reason⟩)).run s).1.log := by
      rw [hbody]
      exact List.prefix_rfl
    have hiff := (hlog hreach _ _ _ hmem hconn).1
    rw [hbody]
    exact ⟨hiff, s₁.log, rfl⟩

/-! What is checked of the runs below: entries of the log by their place. -/

def signalAt (k : Nat) (s : State) : Option (Recovery × Recovery) :=
  match s.log[k]? with
  | some (.signalled before after) => some (before, after)
  | _ => none

def endAt (k : Nat) (s : State) : Option (Nat × LadderView) :=
  match s.log[k]? with
  | some (.ladderEnded n view) => some (n, view)
  | _ => none

def failureAt (k n : Nat) (s : State) : Bool :=
  match s.log[k]? with
  | some (.answered q a) => ladderFailure n q a
  | _ => false

theorem take_entry {log : List Event} {k : Nat} {e : Event} (h : log[k]? = some e) :
    log.take k ++ [e] = log.take (k + 1) := by
  obtain ⟨hk, rfl⟩ := List.getElem?_eq_some_iff.mp h
  exact List.take_append_getElem hk

theorem signalAt_eq {k : Nat} {before after : Recovery} (h : signalAt k s = some (before, after)) :
    s.log.take k ++ [.signalled before after] = s.log.take (k + 1) := by
  unfold signalAt at h
  split at h
  · next hk =>
    cases h
    exact take_entry hk
  · cases h

theorem endAt_eq {k n : Nat} {view : LadderView} (h : endAt k s = some (n, view)) :
    s.log.take k ++ [.ladderEnded n view] = s.log.take (k + 1) := by
  unfold endAt at h
  split at h
  · next hk =>
    cases h
    exact take_entry hk
  · cases h

theorem failureAt_hears {i k j n : Nat} (h : failureAt k n s = true) (hi : i ≤ k) (hj : k < j) :
    Hears n (s.log.take i) (s.log.take j) := by
  unfold failureAt at h
  split at h
  · next q a hk =>
    refine ⟨s.log.take k, q, a, List.take_isPrefix_take.mpr (.inl hi), ?_, h⟩
    rw [take_entry hk]
    exact List.take_isPrefix_take.mpr (.inl hj)
  · cases h

/-- The `i`-th parked thread is answered that its PTY could not be opened. -/
def openFailed (i : Nat) (code : String) : System.Act Ans Input :=
  .reply i fun
    | (_, .openPty ..) => some (.error ⟨code, "The transport failed.", {}⟩)
    | _ => none

/-- The loss of a connection with a terminal, a ladder whose dialled connection is
lost in turn under its attach, and the dial it makes then. -/
def lostTwice : List (System.Act Ans Input) :=
  connecting "A" 0 ++ listing 0 ++ [attachMain, answered 0, answered 1, .start (lostEvent "1")] ++
    List.replicate 6 (answered 2) ++ .loop 2 :: List.replicate 3 (answered 2) ++
    [.start (lostEvent "9"), openFailed 2 "CONNECTION_LOST"] ++ List.replicate 9 (answered 2) ++
    .loop 2 :: List.replicate 4 (answered 2) ++ List.replicate 2 (answered 3)

/-- The first signal starts a ladder, the second one is absorbed by it; it returns
after two dials. -/
theorem signal_taken_twice :
    (∃ cfg cfg', (controller obligingEnv).Reach System.any start cfg ∧
      (controller obligingEnv).Step cfg (.start (lostEvent "1")) cfg' ∧
      cfg.state.isCurrentGeneration ⟨"1", "1"⟩ = true ∧
      cfg'.state.reconnectTask = some cfg'.state.connectIntent) ∧
    ∃ cfg first absorbed returned view,
      (controller obligingEnv).Reach (fun s l => notices s l = true) start cfg ∧
      first ++ [.signalled ⟨true, none, 1⟩ ⟨false, some 2, 2⟩] <+: cfg.state.log ∧
      absorbed ++ [.signalled ⟨true, some 2, 2⟩ ⟨true, some 2, 2⟩] <+: cfg.state.log ∧
      returned ++ [.ladderEnded 2 view] <+: cfg.state.log ∧
      (course 2 first).dials < (course 2 returned).dials ∧
      (course 2 absorbed).dials < (course 2 returned).dials := by
  constructor
  · obtain ⟨⟨s, ps⟩, hreach, hp⟩ := System.played_any (controller obligingEnv) start (connecting "A" 0)
      (p := fun c => c.state.isCurrentGeneration ⟨"1", "1"⟩ && !c.state.disposed &&
        c.state.snapshot.phase = .connected && c.state.reconnectTask.isNone) (by decide +kernel)
    simp only [Bool.and_eq_true, Bool.not_eq_true', decide_eq_true_eq, Option.isNone_iff_eq_none] at hp
    obtain ⟨⟨⟨hcur, hd⟩, hph⟩, ht⟩ := hp
    have hstep : (controller obligingEnv).Step ⟨s, ps⟩ (.start (lostEvent "1")) _ :=
      .start (lostEvent "1") s ps
    refine ⟨⟨s, ps⟩, _, hreach, hstep, hcur, ?_⟩
    exact ((signal_taken_iff hreach).2 _ _ _ trivial hstep hcur hd (by rw [hph]; decide)).1.mpr (.inl ht)
  · obtain ⟨cfg, hreach, hp⟩ := System.played (controller obligingEnv) notices start lostTwice
      (p := fun c => signalAt 25 c.state = some (⟨true, none, 1⟩, ⟨false, some 2, 2⟩) &&
        signalAt 46 c.state = some (⟨true, some 2, 2⟩, ⟨true, some 2, 2⟩) && failureAt 47 2 c.state &&
        endAt 81 c.state = some (2, ⟨true, false, true⟩) &&
        (course 2 (c.state.log.take 81)).dials < obligingEnv.retryDelaysMs.length) (by decide +kernel)
    simp only [Bool.and_eq_true, decide_eq_true_eq] at hp
    obtain ⟨⟨⟨⟨hfirst, habsorbed⟩, hfail⟩, hend⟩, hleft⟩ := hp
    have hlonger : ∀ {i j : Nat}, i ≤ j → cfg.state.log.take i <+: cfg.state.log.take j := fun hij =>
      List.take_isPrefix_take.mpr (.inl hij)
    have hf := (signalAt_eq hfirst).symm ▸ List.take_prefix 26 cfg.state.log
    have ha := (signalAt_eq habsorbed).symm ▸ List.take_prefix 47 cfg.state.log
    have he := (endAt_eq hend).symm ▸ List.take_prefix 82 cfg.state.log
    refine ⟨cfg, _, _, _, _, hreach, hf, ha, he, ?_, ?_⟩
    · exact ((signal_taken_iff hreach).1 _ _ _ hf rfl).2.1 rfl (by decide) _ _ (hlonger (by omega)) he rfl
    · exact ((signal_taken_iff hreach).1 _ _ _ ha rfl).2.2 rfl (fun _ _ => id) _ _ (hlonger (by omega)) he
        rfl (failureAt_hears hfail (by omega) (by omega)) hleft rfl rfl

/-- The loss of connection `1`, and a ladder that dials once, until its listing is out. -/
def redialling : List (System.Act Ans Input) :=
  connecting "A" 0 ++ .start (lostEvent "1") :: List.replicate 5 (answered 0) ++ [.loop 0]

/-- A second host is connected while the ladder of the first one's loss still closes
the old transport: the loss of the second connection is absorbed by that ladder,
whose intent is over. And a ladder whose listing is out absorbs the loss of the
connection it dialled: the listing answers, and the ladder returns without another
dial. -/
theorem signal_absorbed :
    (∃ cfg cfg', (controller obligingEnv).Reach System.any start cfg ∧
      (controller obligingEnv).Step cfg (.start (lostEvent "4")) cfg' ∧
      cfg.state.isCurrentGeneration ⟨"4", "4"⟩ = true ∧ cfg.state.disposed = false ∧
      cfg.state.snapshot.phase = .connected ∧ cfg'.state.snapshot.phase = .connected ∧
      cfg'.state.reconnectTask ≠ some cfg'.state.connectIntent) ∧
    ∃ cfg absorbed returned view, (controller obligingEnv).Reach System.any start cfg ∧
      absorbed ++ [.signalled ⟨true, some 2, 2⟩ ⟨true, some 2, 2⟩] <+: cfg.state.log ∧
      returned ++ [.ladderEnded 2 view] <+: cfg.state.log ∧ view.current = true ∧
      (course 2 returned).dials = (course 2 absorbed).dials ∧
      cfg.state.snapshot.phase = .connected ∧ cfg.state.reconnectTask = none := by
  constructor
  · obtain ⟨⟨s, ps⟩, hreach, hp⟩ := System.played_any (controller obligingEnv) start
      (connecting "A" 0 ++ .start (lostEvent "1") :: connecting "B" 1)
      (p := fun c =>
        let after := (((controller obligingEnv).body (lostEvent "4")).run c.state).1
        c.state.isCurrentGeneration ⟨"4", "4"⟩ && !c.state.disposed &&
          c.state.snapshot.phase = .connected && after.snapshot.phase = .connected &&
          after.reconnectTask ≠ some after.connectIntent) (by decide +kernel)
    simp only [Bool.and_eq_true, Bool.not_eq_true', decide_eq_true_eq] at hp
    obtain ⟨⟨⟨⟨hcur, hd⟩, hph⟩, hph'⟩, ht⟩ := hp
    exact ⟨⟨s, ps⟩, _, hreach, .start _ s ps, hcur, hd, hph, hph', ht⟩
  · obtain ⟨cfg, hreach, hp⟩ := System.played_any (controller obligingEnv) start
      (redialling ++ .start (lostEvent "5") :: List.replicate 5 (answered 0))
      (p := fun c => signalAt 28 c.state = some (⟨true, some 2, 2⟩, ⟨true, some 2, 2⟩) &&
        endAt 36 c.state = some (2, ⟨true, false, true⟩) &&
        (course 2 (c.state.log.take 36)).dials = (course 2 (c.state.log.take 28)).dials &&
        c.state.snapshot.phase = .connected && c.state.reconnectTask = none) (by decide +kernel)
    simp only [Bool.and_eq_true, decide_eq_true_eq] at hp
    obtain ⟨⟨⟨⟨habsorbed, hend⟩, hsame⟩, hph⟩, ht⟩ := hp
    have ha := (signalAt_eq habsorbed).symm ▸ List.take_prefix 29 cfg.state.log
    have he := (endAt_eq hend).symm ▸ List.take_prefix 37 cfg.state.log
    exact ⟨cfg, _, _, _, hreach, ha, he, rfl, hsame, hph, ht⟩

/-! ## The budget of a ladder -/

end PocketShell
