import PocketShell.Coop.Log
import PocketShell.Link.Dial

/-!
# What a failed dial leaves behind

* `LeavesNothing`: every call settles once, one dial is pending at most, the sockets of rejected
  dials are asked to close, and nothing is emitted for them.
* `dial_leaves_nothing`: so it is exactly along the runs in which no dial is rejected
  (`Careful`).
* `dial_keeps_socket`: the socket of a dial that timed out stays open.
-/

namespace PocketShell.Link

open Coop (mem_snoc)
open Function (update update_self update_of_ne)

/-! ## What is promised -/

/-- The call's promise is settled. -/
def DialItem.settles (call : Nat) : DialItem → Bool
  | .refused c _ => c == call
  | .resolved c => c == call
  | .rejected c _ => c == call
  | _ => false

namespace Capability

def settlements (s : Capability) (call : Nat) : Nat := s.log.countP (·.settles call)

/-- The call has not settled. -/
def Pending (s : Capability) (call : Nat) : Prop := call < s.calls ∧ s.settlements call = 0

structure LeavesNothing (link : LinkCapabilityOptions) (s : Capability) : Prop where
  once : ∀ call < s.calls, s.settlements call = 1 ∨
    s.settlements call = 0 ∧ (dialStep link s (.timedOut call)).settlements call = 1
  one : ∀ call call', s.Pending call → s.Pending call' → call = call'
  closed : ∀ call error socket, .rejected call error ∈ s.log →
    (s.entries call).socket = some socket → .closing socket ∈ s.log
  silent : ∀ call state, .emitted call state ∈ s.log → .resolved call ∈ s.log

end Capability

/-- An event that rejects a pending dial. -/
def SocketEvent.Rejects : SocketEvent → Bool
  | .error _ _ => true
  | .closed _ _ => true
  | .failed _ => true
  | _ => false

/-- No event before the first `ready` rejects the dial. -/
def Admits : List SocketEvent → Prop
  | [] => True
  | event :: events => event = .ready ∨ event.Rejects = false ∧ Admits events

/-- The call gets as far as a dial. -/
def Dials (link : LinkCapabilityOptions) (s : Capability) (options : SshConnectOptions) : Prop :=
  s.dial = none ∧ ¬ (options.expectedHostKey ≠ none ∧
    verifyHostKeyTrustPin options.expectedHostKey link.presentedKey ≠ .trusted)

/-- The action does not reject the pending dial. -/
def DialCareful (link : LinkCapabilityOptions) (s : Capability) : DialAction → Prop
  | .connect options during => Dials link s options → Admits during
  | .socket call event => s.dial = some call → event.Rejects = false
  | .timedOut call => s.dial ≠ some call
  | .cancelConnect targetRequestId =>
    ∀ call, s.dial = some call → (s.attempts call).requestId ≠ targetRequestId
  | _ => True

def DialCarefulFrom (link : LinkCapabilityOptions) : Capability → List DialAction → Prop
  | _, [] => True
  | s, action :: actions =>
    DialCareful link s action ∧ DialCarefulFrom link (dialStep link s action) actions

/-! ## The invariant -/

/-- `busy` is the call whose socket is being made. -/
structure DialInv (busy : Option Nat) (s : Capability) : Prop where
  dialling : ∀ call, s.dial = some call →
    call < s.calls ∧ (s.attempts call).settled = false ∧ s.settlements call = 0
  settled : ∀ call < s.calls, s.dial ≠ some call → s.settlements call = 1
  future : ∀ call, s.calls ≤ call → s.settlements call = 0
  socketless : ∀ call, (s.attempts call).socket = none
  own : ∀ call socket, (s.entries call).socket = some socket → socket = call
  made : ∀ call, (s.entries call).socket ≠ none ∨ busy = some call →
    s.dial = some call ∨ (s.attempts call).settled = true
  held : ∀ call, s.dial = some call ∨ (∃ error, .rejected call error ∈ s.log) →
    busy = some call ∨ (s.entries call).socket ≠ none
  known : ∀ call ∈ s.known, .resolved call ∈ s.log
  judged : ∀ call, (s.attempts call).settled = true →
    .resolved call ∈ s.log ∨ ∃ error, .rejected call error ∈ s.log
  closing : ∀ socket, .closing socket ∈ s.log → ∃ state, .emitted socket state ∈ s.log
  emitted : ∀ call state, .emitted call state ∈ s.log →
    .resolved call ∈ s.log ∨ ∃ error, .rejected call error ∈ s.log

/-- No dial was rejected. -/
def NoneRejected (s : Capability) : Prop := ∀ call error, .rejected call error ∉ s.log

theorem DialInv.initial : DialInv none {} where
  dialling _ h := by cases h
  settled _ h := by cases h
  future _ _ := rfl
  socketless _ := rfl
  own _ _ h := by cases h
  made _ h := by
    rcases h with h | h
    · exact absurd rfl h
    · cases h
  held _ h := by
    rcases h with h | ⟨error, h⟩
    · cases h
    · cases h
  known _ h := by cases h
  judged _ h := by cases h
  closing _ h := by cases h
  emitted _ _ h := by cases h

section

variable {s s' : Capability} {busy : Option Nat} {call : Nat} {error : SshCapabilityError}
  {link : LinkCapabilityOptions}

theorem not_both (hresolved : .resolved call ∈ s.log) (hrejected : .rejected call error ∈ s.log) :
    2 ≤ s.settlements call := by
  unfold Capability.settlements
  obtain ⟨before, after, hlog⟩ := List.append_of_mem hresolved
  rw [hlog] at hrejected ⊢
  have hpos : ∀ log : List DialItem, .rejected call error ∈ log → 0 < log.countP (·.settles call) :=
    fun log hmem => List.countP_pos_iff.mpr ⟨_, hmem, by simp [DialItem.settles]⟩
  have hself : (DialItem.resolved call).settles call = true := by simp [DialItem.settles]
  rw [List.countP_append, List.countP_cons, if_pos hself]
  rcases List.mem_append.mp hrejected with h | h
  · have := hpos _ h
    omega
  · rcases List.mem_cons.mp h with h | h
    · cases h
    · have := hpos _ h
      omega

theorem DialInv.settlements_le (h : DialInv busy s) : s.settlements call ≤ 1 := by
  by_cases hc : call < s.calls
  · by_cases hd : s.dial = some call
    · rw [(h.dialling call hd).2.2]
      exact Nat.zero_le 1
    · exact (h.settled call hc hd).le
  · rw [h.future call (not_lt.mp hc)]
    exact Nat.zero_le 1

theorem settlements_snoc (item : DialItem) (call : Nat) (h : s'.log = s.log ++ [item]) :
    s'.settlements call = s.settlements call + if item.settles call then 1 else 0 := by
  unfold Capability.settlements
  rw [h, List.countP_append, List.countP_singleton]

theorem settleDial_error (h : DialInv busy s) (hd : s.dial = some call) :
    s.settleDial (some error) = { s with
      attempts := update s.attempts call { s.attempts call with settled := true }
      dial := none
      log := s.log ++ [.rejected call error]
      jobs := s.jobs ++ [call] } := by
  have hnoclose : ({ s with
      attempts := update s.attempts call { s.attempts call with settled := true }
      dial := none } : Capability).closeSocket (s.attempts call).socket =
        { s with
          attempts := update s.attempts call { s.attempts call with settled := true }
          dial := none } := by
    unfold Capability.closeSocket Capability.note
    rw [h.socketless]
    simp
  unfold Capability.settleDial
  rw [hd]
  dsimp only
  rw [if_neg (by simp [(h.dialling call hd).2.1]), hnoclose]

theorem settleDial_ready (h : DialInv busy s) (hd : s.dial = some call) :
    s.settleDial none = { s with
      attempts := update s.attempts call { s.attempts call with settled := true }
      dial := none
      log := s.log ++ [.resolved call]
      known := call :: s.known } := by
  unfold Capability.settleDial
  rw [hd]
  dsimp only
  rw [if_neg (by simp [(h.dialling call hd).2.1])]

/-- Between the actions, the promise is kept exactly as long as no dial was rejected. -/
theorem DialInv.leavesNothing_iff (h : DialInv none s) : s.LeavesNothing link ↔ NoneRejected s := by
  constructor
  · intro hl call error hrejected
    have hnotresolved : .resolved call ∉ s.log := fun hresolved =>
      absurd (not_both hresolved hrejected) (not_le.mpr (Nat.lt_succ_of_le h.settlements_le))
    obtain ⟨socket, hsocket⟩ := Option.ne_none_iff_exists'.mp
      ((h.held call (.inr ⟨error, hrejected⟩)).resolve_left (by simp))
    obtain rfl := h.own call socket hsocket
    obtain ⟨state, hemitted⟩ := h.closing socket (hl.closed socket error socket hrejected hsocket)
    exact hnotresolved (hl.silent socket state hemitted)
  · intro hnone
    refine ⟨fun call hc => ?_, fun call call' hp hp' => ?_, fun call error socket hr _ =>
      absurd hr (hnone call error), fun call state he => ?_⟩
    · by_cases hd : s.dial = some call
      · obtain ⟨-, -, hzero⟩ := h.dialling call hd
        refine .inr ⟨hzero, ?_⟩
        unfold dialStep
        dsimp only
        rw [if_pos hd, settleDial_error h hd, settlements_snoc _ call rfl, hzero]
        simp [DialItem.settles]
      · exact .inl (h.settled call hc hd)
    · have hdial : ∀ c, s.Pending c → s.dial = some c := fun c hp => by
        by_contra hd
        exact absurd (h.settled c hp.1 hd) (by rw [hp.2]; decide)
      exact Option.some.inj ((hdial call hp).symm.trans (hdial call' hp'))
    · rcases h.emitted call state he with hr | ⟨error, hr⟩
      · exact hr
      · exact absurd hr (hnone call error)

/-! ## Steps that settle nothing -/

structure Calm (s s' : Capability) : Prop where
  calls : s'.calls = s.calls
  dial : s'.dial = s.dial
  attempts : s'.attempts = s.attempts
  known : s'.known = s.known
  sockets : ∀ call, (s'.entries call).socket = (s.entries call).socket
  log : ∃ items, s'.log = s.log ++ items ∧ (∀ item ∈ items, ∀ call, item.settles call = false) ∧
    (∀ socket, .closing socket ∈ items → ∃ state, .emitted socket state ∈ items) ∧
    ∀ call state, .emitted call state ∈ items →
      .resolved call ∈ s.log ∨ ∃ error, .rejected call error ∈ s.log

theorem Calm.quiet {entries : Nat → LinkEntry} {connections jobs : List Nat}
    (h : ∀ call, (entries call).socket = (s.entries call).socket) :
    Calm s { s with entries, connections, jobs } :=
  ⟨rfl, rfl, rfl, rfl, h, [], (List.append_nil _).symm, by simp, by simp, by simp⟩

theorem Calm.rejected_iff (h : Calm s s') :
    .rejected call error ∈ s'.log ↔ .rejected call error ∈ s.log := by
  obtain ⟨items, hlog, hsettles, -, -⟩ := h.log
  rw [hlog, List.mem_append]
  refine ⟨fun hmem => hmem.resolve_right fun hnew => ?_, .inl⟩
  exact absurd (hsettles _ hnew call) (by simp [DialItem.settles])

theorem Calm.resolved_iff (h : Calm s s') : .resolved call ∈ s'.log ↔ .resolved call ∈ s.log := by
  obtain ⟨items, hlog, hsettles, -, -⟩ := h.log
  rw [hlog, List.mem_append]
  refine ⟨fun hmem => hmem.resolve_right fun hnew => ?_, .inl⟩
  exact absurd (hsettles _ hnew call) (by simp [DialItem.settles])

theorem Calm.settlements (h : Calm s s') (call : Nat) : s'.settlements call = s.settlements call := by
  obtain ⟨items, hlog, hsettles, -, -⟩ := h.log
  have hnone : items.countP (·.settles call) = 0 :=
    List.countP_eq_zero.mpr fun item hitem => by simp [hsettles item hitem call]
  unfold Capability.settlements
  rw [hlog, List.countP_append, hnone, Nat.add_zero]

theorem Calm.noneRejected_iff (h : Calm s s') : NoneRejected s' ↔ NoneRejected s :=
  forall_congr' fun _ => forall_congr' fun _ => not_congr h.rejected_iff

theorem DialInv.calm (h : DialInv busy s) (hc : Calm s s') : DialInv busy s' := by
  refine ⟨fun call hd => ?_, fun call hlt hd => ?_, fun call hge => ?_, fun call => ?_,
    fun call socket hs => ?_, fun call hm => ?_, fun call hm => ?_, fun call hk => ?_,
    fun call hs => ?_, fun socket hcl => ?_, fun call state he => ?_⟩
  · rw [hc.calls, hc.attempts, hc.settlements]
    exact h.dialling call (hc.dial ▸ hd)
  · rw [hc.settlements]
    exact h.settled call (hc.calls ▸ hlt) (hc.dial ▸ hd)
  · rw [hc.settlements]
    exact h.future call (hc.calls ▸ hge)
  · rw [hc.attempts]
    exact h.socketless call
  · exact h.own call socket (hc.sockets call ▸ hs)
  · rw [hc.dial, hc.attempts]
    rw [hc.sockets] at hm
    exact h.made call hm
  · rw [hc.sockets]
    rw [hc.dial] at hm
    simp only [hc.rejected_iff] at hm
    exact h.held call hm
  · exact hc.resolved_iff.mpr (h.known call (hc.known ▸ hk))
  · simp only [hc.rejected_iff, hc.resolved_iff]
    exact h.judged call (hc.attempts ▸ hs)
  · obtain ⟨items, hlog, -, hclosing, -⟩ := hc.log
    rw [hlog] at hcl ⊢
    rcases List.mem_append.mp hcl with hcl | hcl
    · obtain ⟨state, he⟩ := h.closing socket hcl
      exact ⟨state, List.mem_append_left _ he⟩
    · obtain ⟨state, he⟩ := hclosing socket hcl
      exact ⟨state, List.mem_append_right _ he⟩
  · simp only [hc.rejected_iff, hc.resolved_iff]
    obtain ⟨items, hlog, -, -, hemitted⟩ := hc.log
    rw [hlog] at he
    rcases List.mem_append.mp he with he | he
    · exact h.emitted call state he
    · exact hemitted call state he

variable {channels : ConnectionEntry}

theorem socket_setEntry (c : Nat) :
    (update s.entries call { s.entries call with channels } c).socket = (s.entries c).socket := by
  by_cases hc : c = call
  · subst hc
    rw [update_self]
  · rw [update_of_ne hc]

/-- The end of a connection whose dial is settled. -/
theorem DialInv.emits (h : DialInv busy s) (state : ConnectionState)
    (hjudged : .resolved call ∈ s.log ∨ ∃ error, .rejected call error ∈ s.log) :
    Calm s (((s.setEntry call { s.entries call with channels }).closeSocket
      (s.entries call).socket).note [.emitted call state]) := by
  refine ⟨rfl, rfl, rfl, rfl, socket_setEntry, (s.entries call).socket.toList.map .closing ++
    [.emitted call state], by simp [Capability.note, Capability.closeSocket, Capability.setEntry],
    ?_, ?_, ?_⟩
  · intro item hitem c
    rcases mem_snoc.mp hitem with hitem | hitem
    · obtain ⟨socket, -, rfl⟩ := List.mem_map.mp hitem
      rfl
    · rw [hitem]
      rfl
  · intro socket hclosing
    rcases mem_snoc.mp hclosing with hitem | hitem
    · obtain ⟨other, hother, heq⟩ := List.mem_map.mp hitem
      cases heq
      obtain rfl := h.own call socket (Option.mem_toList.mp hother)
      exact ⟨state, List.mem_append_right _ (List.mem_singleton_self _)⟩
    · cases hitem
  · intro c state' hemitted
    rcases mem_snoc.mp hemitted with hitem | hitem
    · obtain ⟨socket, -, heq⟩ := List.mem_map.mp hitem
      cases heq
    · cases hitem
      exact hjudged

theorem DialInv.lose (h : DialInv busy s) (reason : String)
    (hjudged : .resolved call ∈ s.log ∨ ∃ error, .rejected call error ∈ s.log) :
    Calm s (s.loseConnection call reason) := by
  unfold Capability.loseConnection
  dsimp only
  split
  · exact h.emits .lost hjudged
  · exact .quiet fun _ => rfl

theorem calm_channels :
    Calm s (s.setEntry call { s.entries call with channels }) := .quiet socket_setEntry

/-! ## Steps of the dial -/

/-- The pending dial is settled, with the item that says how. -/
theorem DialInv.settle (h : DialInv busy s) (hd : s.dial = some call) {item : DialItem}
    {known jobs : List Nat} (hitem : item = .resolved call ∧ known = call :: s.known ∨
      (∃ error, item = .rejected call error) ∧ known = s.known) :
    DialInv busy { s with
      attempts := update s.attempts call { s.attempts call with settled := true }
      dial := none
      log := s.log ++ [item]
      known
      jobs } := by
  obtain ⟨hlt, hunsettled, hzero⟩ := h.dialling call hd
  -- the item settles the dial in flight and no other call
  have hsettles : ∀ c, item.settles c = true ↔ c = call := by
    intro c
    rcases hitem with ⟨rfl, -⟩ | ⟨⟨error, rfl⟩, -⟩
    · exact beq_iff_eq.trans eq_comm
    · exact beq_iff_eq.trans eq_comm
  have hcount : ∀ c, ({ s with
      attempts := update s.attempts call { s.attempts call with settled := true }
      dial := none
      log := s.log ++ [item]
      known
      jobs } : Capability).settlements c = s.settlements c + if c = call then 1 else 0 := by
    intro c
    rw [settlements_snoc (s := s) item c rfl]
    simp only [hsettles]
  have hold : ∀ {other : DialItem}, other ∈ s.log → other ∈ s.log ++ [item] :=
    fun hmem => List.mem_append_left _ hmem
  have hkept : ∀ c, (.resolved c ∈ s.log ∨ ∃ error, .rejected c error ∈ s.log) →
      .resolved c ∈ s.log ++ [item] ∨ ∃ error, .rejected c error ∈ s.log ++ [item] := by
    rintro c (hr | ⟨error, hr⟩)
    · exact .inl (hold hr)
    · exact .inr ⟨error, hold hr⟩
  have hunemitted : ∀ c state, item ≠ .emitted c state := by
    rintro c state rfl
    simpa [DialItem.settles] using (hsettles call).mpr rfl
  have hunclosing : ∀ socket, item ≠ .closing socket := by
    rintro socket rfl
    simpa [DialItem.settles] using (hsettles call).mpr rfl
  refine ⟨fun c hc => (by cases hc), fun c hc _ => ?_, fun c hc => ?_, fun c => ?_, h.own,
    fun c hc => .inr ?_, fun c hc => ?_, fun c hc => ?_, fun c hc => ?_, fun socket hc => ?_,
    fun c state hc => ?_⟩
  · rw [hcount]
    by_cases heq : c = call
    · rw [heq, hzero, if_pos rfl]
    · rw [if_neg heq]
      exact h.settled c hc fun hdial => heq (Option.some.inj (hdial.symm.trans hd))
  · have hne : c ≠ call := fun heq => absurd hlt (not_lt.mpr (heq ▸ hc))
    rw [hcount, if_neg hne]
    exact h.future c hc
  · dsimp only
    by_cases heq : c = call
    · subst heq
      rw [update_self]
      exact h.socketless c
    · rw [update_of_ne heq]
      exact h.socketless c
  · dsimp only
    by_cases heq : c = call
    · subst heq
      rw [update_self]
    · rw [update_of_ne heq]
      exact (h.made c hc).resolve_left fun hdial => heq (Option.some.inj (hdial.symm.trans hd))
  · refine h.held c ?_
    rcases hc with hc | ⟨error, hc⟩
    · cases hc
    · rcases mem_snoc.mp hc with hc | hc
      · exact .inr ⟨error, hc⟩
      · have hself : item.settles c = true := by
          rw [← hc]
          simp [DialItem.settles]
        exact .inl ((hsettles c).mp hself ▸ hd)
  · rcases hitem with ⟨rfl, rfl⟩ | ⟨-, rfl⟩
    · rcases List.mem_cons.mp hc with rfl | hc
      · exact List.mem_append_right _ (List.mem_singleton_self _)
      · exact hold (h.known c hc)
    · exact hold (h.known c hc)
  · dsimp only at hc ⊢
    by_cases heq : c = call
    · subst heq
      rcases hitem with ⟨rfl, -⟩ | ⟨⟨error, rfl⟩, -⟩
      · exact .inl (List.mem_append_right _ (List.mem_singleton_self _))
      · exact .inr ⟨error, List.mem_append_right _ (List.mem_singleton_self _)⟩
    · rw [update_of_ne heq] at hc
      exact hkept c (h.judged c hc)
  · rcases mem_snoc.mp hc with hc | hc
    · obtain ⟨state, he⟩ := h.closing socket hc
      exact ⟨state, hold he⟩
    · exact absurd hc.symm (hunclosing socket)
  · rcases mem_snoc.mp hc with hc | hc
    · exact hkept c (h.emitted c state hc)
    · exact absurd hc.symm (hunemitted c state)

/-- A rejection is recorded. -/
theorem DialInv.reject (h : DialInv busy s) (hd : s.dial = some call) (error : SshCapabilityError) :
    DialInv busy (s.settleDial (some error)) ∧ ¬ NoneRejected (s.settleDial (some error)) := by
  rw [settleDial_error h hd]
  refine ⟨h.settle hd (.inr ⟨⟨error, rfl⟩, rfl⟩), fun hnone => hnone call error ?_⟩
  exact List.mem_append_right _ (List.mem_singleton_self _)

theorem DialInv.resolve (h : DialInv busy s) (hd : s.dial = some call) :
    DialInv busy (s.settleDial none) ∧ (NoneRejected (s.settleDial none) ↔ NoneRejected s) ∧
      (s.settleDial none).dial = none := by
  rw [settleDial_ready h hd]
  refine ⟨h.settle hd (.inl ⟨rfl, rfl⟩), ?_, rfl⟩
  refine forall_congr' fun c => forall_congr' fun error => not_congr ?_
  simp

/-- An event of a socket that was made, or of the one being made. -/
theorem DialInv.handle (h : DialInv busy s)
    (hmade : (s.entries call).socket ≠ none ∨ busy = some call) (event : SocketEvent) :
    DialInv busy (s.handle call event) ∧ (NoneRejected (s.handle call event) ↔
      NoneRejected s ∧ (s.dial = some call → event.Rejects = false)) := by
  have hpending : (s.attempts call).settled = false → s.dial = some call := fun hun =>
    (h.made call hmade).resolve_right (by simp [hun])
  have hcalm : ∀ {s'}, Calm s s' → (s.dial = some call → event.Rejects = false) →
      DialInv busy s' ∧
        (NoneRejected s' ↔ NoneRejected s ∧ (s.dial = some call → event.Rejects = false)) :=
    fun hc hno => ⟨h.calm hc, hc.noneRejected_iff.trans (and_iff_left hno).symm⟩
  have hunasked : (s.attempts call).settled = true → s.dial = some call → event.Rejects = false :=
    fun hs hd => absurd ((h.dialling call hd).2.1.symm.trans hs) (by decide)
  have hreject : ∀ {error}, (s.attempts call).settled = false → event.Rejects = true →
      DialInv busy (s.settleDial (some error)) ∧ (NoneRejected (s.settleDial (some error)) ↔
        NoneRejected s ∧ (s.dial = some call → event.Rejects = false)) := by
    intro error hun hrejects
    have hd := hpending hun
    obtain ⟨hinv, hsome⟩ := h.reject hd error
    refine ⟨hinv, iff_of_false hsome fun hno => ?_⟩
    exact absurd ((hno.2 hd).symm.trans hrejects) (by decide)
  unfold Capability.handle
  dsimp only
  cases event with
  | opened => exact hcalm (.quiet fun _ => rfl) fun _ => rfl
  | ready =>
    dsimp only
    split
    · exact hcalm (.quiet fun _ => rfl) fun _ => rfl
    · next hun =>
      obtain ⟨hinv, hiff, -⟩ := h.resolve (hpending (by simpa using hun))
      exact ⟨hinv, hiff.trans (and_iff_left fun _ => rfl).symm⟩
  | error message code =>
    dsimp only
    split
    · next hs => exact hcalm (h.lose _ (h.judged call hs)) (hunasked hs)
    · next hun => exact hreject (by simpa using hun) rfl
  | control frame => exact hcalm calm_channels fun _ => rfl
  | data raw => exact hcalm calm_channels fun _ => rfl
  | closed code reason =>
    dsimp only
    split
    · next hs => exact hcalm (h.lose _ (h.judged call hs)) (hunasked hs)
    · next hun => exact hreject (by simpa using hun) rfl
  | failed message =>
    dsimp only
    split
    · next hs => exact hcalm (.quiet fun _ => rfl) (hunasked hs)
    · next hun => exact hreject (by simpa using hun) rfl

/-- The dial is still pending after an event that settles nothing. -/
theorem DialInv.handle_dial (h : DialInv busy s)
    (hmade : (s.entries call).socket ≠ none ∨ busy = some call) (event : SocketEvent) :
    (s.handle call event).dial = some call ↔
      s.dial = some call ∧ event ≠ .ready ∧ event.Rejects = false := by
  cases hs : (s.attempts call).settled with
  | true =>
    have hno : s.dial ≠ some call := fun hd =>
      absurd ((h.dialling call hd).2.1.symm.trans hs) (by decide)
    have hlost : ∀ reason, (s.loseConnection call reason).dial = s.dial :=
      fun reason => (h.lose reason (h.judged call hs)).dial
    refine iff_of_false ?_ fun hd => hno hd.1
    cases event with
    | error message code => simpa [Capability.handle, hs, hlost] using hno
    | closed code reason => simpa [Capability.handle, hs, hlost] using hno
    | opened => exact hno
    | ready => simpa [Capability.handle, hs] using hno
    | control frame => exact hno
    | data raw => exact hno
    | failed message => simpa [Capability.handle, hs] using hno
  | false =>
    have hd : s.dial = some call := (h.made call hmade).resolve_right (by simp [hs])
    have hnone : ∀ error, (s.settleDial (some error)).dial = none := fun error => by
      rw [settleDial_error h hd]
    cases event with
    | error | closed | failed => simp [Capability.handle, hs, hnone, SocketEvent.Rejects]
    | ready => simp [Capability.handle, hs, (h.resolve hd).2.2]
    | opened => simp [Capability.handle, SocketEvent.Rejects]
    | control frame => simp [Capability.handle, SocketEvent.Rejects, Capability.setEntry]
    | data raw => simp [Capability.handle, SocketEvent.Rejects, Capability.setEntry]

/-- The events that come while the socket is made. -/
theorem DialInv.during (h : DialInv (some call) s) (events : List SocketEvent) :
    DialInv (some call) (events.foldl (fun s event => s.handle call event) s) ∧
      (NoneRejected (events.foldl (fun s event => s.handle call event) s) ↔
        NoneRejected s ∧ (s.dial = some call → Admits events)) := by
  induction events generalizing s with
  | nil => exact ⟨h, (and_iff_left fun _ => trivial).symm⟩
  | cons event events ih =>
    obtain ⟨hinv, hiff⟩ := h.handle (.inr rfl) event
    have hdial := h.handle_dial (.inr rfl) event
    refine ⟨(ih hinv).1, (ih hinv).2.trans ?_⟩
    rw [hiff, hdial]
    constructor
    · rintro ⟨⟨hnone, hno⟩, hrest⟩
      refine ⟨hnone, fun hd => ?_⟩
      by_cases hready : event = .ready
      · exact .inl hready
      · exact .inr ⟨hno hd, hrest ⟨hd, hready, hno hd⟩⟩
    · rintro ⟨hnone, hadmits⟩
      refine ⟨⟨hnone, fun hd => ?_⟩, fun ⟨hd, hready, _⟩ => ?_⟩
      · rcases hadmits hd with rfl | hno
        · rfl
        · exact hno.1
      · exact ((hadmits hd).resolve_left hready).2

/-! ## Every step, and every run -/

/-- A call that does not dial. -/
theorem DialInv.refuse (h : DialInv none s) (error : SshCapabilityError) :
    DialInv none { s with calls := s.calls + 1, log := s.log ++ [.refused s.calls error] } ∧
      (NoneRejected { s with calls := s.calls + 1, log := s.log ++ [.refused s.calls error] } ↔
        NoneRejected s) := by
  have hcount : ∀ c, ({ s with
      calls := s.calls + 1, log := s.log ++ [.refused s.calls error] } : Capability).settlements c =
        s.settlements c + if c = s.calls then 1 else 0 := by
    intro c
    rw [settlements_snoc (s := s) (.refused s.calls error) c rfl]
    simp [DialItem.settles, @eq_comm _ s.calls c]
  have hmem : ∀ item : DialItem, item ∈ s.log ++ [.refused s.calls error] →
      item ∈ s.log ∨ item = .refused s.calls error := by simp
  refine ⟨⟨fun c hd => ?_, fun c hc hd => ?_, fun c hc => ?_, h.socketless, h.own, h.made,
    fun c hc => h.held c ?_, fun c hc => ?_, fun c hc => ?_, fun socket hc => ?_,
    fun c state hc => ?_⟩, ?_⟩
  · obtain ⟨hlt, hunsettled, hzero⟩ := h.dialling c hd
    refine ⟨Nat.lt_succ_of_lt hlt, hunsettled, ?_⟩
    rw [hcount, hzero, if_neg (Nat.ne_of_lt hlt)]
  · rw [hcount]
    by_cases heq : c = s.calls
    · rw [if_pos heq, heq, h.future s.calls le_rfl]
    · rw [if_neg heq]
      exact h.settled c (lt_of_le_of_ne (Nat.le_of_lt_succ hc) heq) hd
  · have hlt : s.calls < c := hc
    rw [hcount, if_neg (Nat.ne_of_gt hlt)]
    exact h.future c hlt.le
  · rcases hc with hc | ⟨error', hc⟩
    · exact .inl hc
    · exact .inr ⟨error', (hmem _ hc).resolve_right (by simp)⟩
  · exact List.mem_append_left _ (h.known c hc)
  · rcases h.judged c hc with hr | ⟨error', hr⟩
    · exact .inl (List.mem_append_left _ hr)
    · exact .inr ⟨error', List.mem_append_left _ hr⟩
  · obtain ⟨state, he⟩ := h.closing socket ((hmem _ hc).resolve_right (by simp))
    exact ⟨state, List.mem_append_left _ he⟩
  · rcases h.emitted c state ((hmem _ hc).resolve_right (by simp)) with hr | ⟨error', hr⟩
    · exact .inl (List.mem_append_left _ hr)
    · exact .inr ⟨error', List.mem_append_left _ hr⟩
  · refine forall_congr' fun c => forall_congr' fun error' => not_congr ?_
    simp

/-- The call dials. -/
theorem DialInv.dials (h : DialInv none s) (hd : s.dial = none) (requestId : String)
    (connections : List Nat) :
    DialInv (some s.calls) { s with
      calls := s.calls + 1
      dial := some s.calls
      attempts := update s.attempts s.calls { requestId }
      entries := update s.entries s.calls {}
      connections } := by
  have hfresh : ∀ c error, .rejected c error ∈ s.log → c ≠ s.calls := by
    rintro c error hmem rfl
    have hpos : 0 < s.settlements s.calls :=
      List.countP_pos_iff.mpr ⟨_, hmem, by simp [DialItem.settles]⟩
    rw [h.future s.calls le_rfl] at hpos
    exact absurd hpos (lt_irrefl 0)
  refine ⟨fun c hc => ?_, fun c hc hne => ?_, fun c hc => h.future c (Nat.le_of_succ_le hc),
    fun c => ?_, fun c socket hc => ?_, fun c hc => ?_, fun c hc => ?_, h.known, fun c hc => ?_,
    h.closing, h.emitted⟩
  · obtain rfl : s.calls = c := Option.some.inj hc
    refine ⟨Nat.lt_succ_self _, ?_, h.future s.calls le_rfl⟩
    dsimp only
    rw [update_self]
  · have hother : c ≠ s.calls := fun heq => hne (congrArg some heq.symm)
    exact h.settled c (lt_of_le_of_ne (Nat.le_of_lt_succ hc) hother) (by rw [hd]; simp)
  · dsimp only
    by_cases heq : c = s.calls
    · rw [heq, update_self]
    · rw [update_of_ne heq]
      exact h.socketless c
  · dsimp only at hc
    by_cases heq : c = s.calls
    · rw [heq, update_self] at hc
      cases hc
    · rw [update_of_ne heq] at hc
      exact h.own c socket hc
  · dsimp only at hc ⊢
    by_cases heq : c = s.calls
    · exact .inl (congrArg some heq.symm)
    · rw [update_of_ne heq] at hc ⊢
      have hsocket := hc.resolve_right fun hbusy => heq (Option.some.inj hbusy).symm
      exact .inr ((h.made c (.inl hsocket)).resolve_left (by rw [hd]; simp))
  · dsimp only at hc ⊢
    rcases hc with hc | ⟨error, hc⟩
    · exact .inl hc
    · have hne := hfresh c error hc
      rw [update_of_ne hne]
      exact .inr ((h.held c (.inr ⟨error, hc⟩)).resolve_left (by simp))
  · dsimp only at hc
    by_cases heq : c = s.calls
    · rw [heq, update_self] at hc
      cases hc
    · rw [update_of_ne heq] at hc
      exact h.judged c hc

/-- The factory returns the socket. -/
theorem DialInv.returned (h : DialInv (some call) s) :
    DialInv none (s.setEntry call { s.entries call with socket := some call }) := by
  refine ⟨h.dialling, h.settled, h.future, h.socketless, fun c socket hc => ?_, fun c hc => ?_,
    fun c hc => .inr ?_, h.known, h.judged, h.closing, h.emitted⟩
  · dsimp only [Capability.setEntry] at hc
    by_cases heq : c = call
    · rw [heq, update_self] at hc
      rw [heq]
      exact (Option.some.inj hc).symm
    · rw [update_of_ne heq] at hc
      exact h.own c socket hc
  · by_cases heq : c = call
    · exact h.made c (.inr (congrArg some heq.symm))
    · refine h.made c (.inl ?_)
      have hsocket := hc.resolve_right (by simp)
      dsimp only [Capability.setEntry] at hsocket
      rwa [update_of_ne heq] at hsocket
  · dsimp only [Capability.setEntry]
    by_cases heq : c = call
    · rw [heq, update_self]
      simp
    · rw [update_of_ne heq]
      exact (h.held c hc).resolve_left fun hbusy => heq (Option.some.inj hbusy).symm

theorem DialInv.connect (h : DialInv none s) (options : SshConnectOptions)
    (during : List SocketEvent) : DialInv none (s.connect link options during) ∧
      (NoneRejected (s.connect link options during) ↔
        NoneRejected s ∧ (Dials link s options → Admits during)) := by
  unfold Capability.connect
  dsimp only
  split
  · next hd =>
    have hno : ¬ Dials link s options := fun hdials => by
      rw [hdials.1] at hd
      cases hd
    obtain ⟨hinv, hiff⟩ := h.refuse
      { message := "Another link dial is already in flight.", code := "DIAL_IN_PROGRESS" }
    exact ⟨hinv, hiff.trans (and_iff_left fun hdials => absurd hdials hno).symm⟩
  · next hd =>
    have hdial : s.dial = none := by simpa using hd
    split
    · next hmismatch =>
      obtain ⟨hinv, hiff⟩ := h.refuse
        { message := "Link host key changed — verify the relay URL and token.",
          code := "HOST_KEY_MISMATCH" }
      exact ⟨hinv, hiff.trans (and_iff_left fun hdials => absurd hmismatch hdials.2).symm⟩
    · next hmatch =>
      obtain ⟨hinv, hiff⟩ := (h.dials hdial options.requestId (s.calls :: s.connections)).during during
      refine ⟨hinv.returned, hiff.trans ⟨fun hall => ⟨hall.1, fun _ => hall.2 rfl⟩, fun hall => ?_⟩⟩
      exact ⟨hall.1, fun _ => hall.2 ⟨hdial, hmatch⟩⟩

variable (link) in
theorem DialInv.step (h : DialInv none s) (action : DialAction) :
    DialInv none (dialStep link s action) ∧
      (NoneRejected (dialStep link s action) ↔ NoneRejected s ∧ DialCareful link s action) := by
  have hcalm : ∀ {s'}, Calm s s' → DialInv none s' ∧ (NoneRejected s' ↔ NoneRejected s ∧ True) :=
    fun hc => ⟨h.calm hc, hc.noneRejected_iff.trans (and_iff_left trivial).symm⟩
  cases action with
  | connect options during => exact h.connect options during
  | socket call event =>
    unfold dialStep
    dsimp only
    split
    · next hsome => exact h.handle (.inl (Option.isSome_iff_ne_none.mp hsome)) event
    · next hnone =>
      have hno : s.dial ≠ some call := fun hd => hnone (Option.isSome_iff_ne_none.mpr
        ((h.held call (.inl hd)).resolve_left (by simp)))
      exact ⟨h, (and_iff_left fun hd => absurd hd hno).symm⟩
  | timedOut call =>
    unfold dialStep
    dsimp only
    split
    · next hd =>
      obtain ⟨hinv, hsome⟩ := h.reject hd { message := "link dial timed out", code := "TIMED_OUT" }
      exact ⟨hinv, iff_of_false hsome fun hall => hall.2 hd⟩
    · next hd => exact ⟨h, (and_iff_left hd).symm⟩
  | cancelConnect targetRequestId =>
    unfold dialStep Capability.cancelConnect
    dsimp only
    split
    · next hnone =>
      refine ⟨h, (and_iff_left fun call hd => ?_).symm⟩
      rw [hnone] at hd
      cases hd
    · next call hd =>
      split
      · next htarget =>
        obtain ⟨hinv, hsome⟩ := h.reject hd { message := "link dial cancelled", code := "CANCELLED" }
        exact ⟨hinv, iff_of_false hsome fun hall => hall.2 call hd htarget.2⟩
      · next htarget =>
        refine ⟨h, (and_iff_left fun other hother heq => htarget ?_).symm⟩
        obtain rfl : call = other := Option.some.inj (hd.symm.trans hother)
        exact ⟨(h.dialling call hd).2.1, heq⟩
  | cancelConnection call =>
    unfold dialStep Capability.cancelConnection
    dsimp only
    split
    · next hknown =>
      split
      · exact hcalm (h.lose _ (.inl (h.known call hknown)))
      · exact hcalm (.quiet fun _ => rfl)
    · exact hcalm (.quiet fun _ => rfl)
  | closeConnection call =>
    unfold dialStep Capability.closeConnection
    dsimp only
    split
    · next hknown =>
      split
      · exact hcalm (h.emits .closed (.inl (h.known call hknown)))
      · exact hcalm (.quiet fun _ => rfl)
    · exact hcalm (.quiet fun _ => rfl)
  | runJob =>
    unfold dialStep Capability.runJob
    dsimp only
    split
    · exact hcalm (.quiet fun _ => rfl)
    · exact hcalm (.quiet socket_setEntry)

variable (link) in
theorem DialInv.run (h : DialInv none s) (actions : List DialAction) :
    DialInv none (dialRun link s actions) ∧
      (NoneRejected (dialRun link s actions) ↔ NoneRejected s ∧ DialCarefulFrom link s actions) := by
  induction actions generalizing s with
  | nil => exact ⟨h, (and_iff_left trivial).symm⟩
  | cons action actions ih =>
    obtain ⟨hinv, hiff⟩ := h.step link action
    refine ⟨(ih hinv).1, (ih hinv).2.trans ?_⟩
    rw [hiff, and_assoc]
    rfl

/-- The promise is kept along a run exactly when no step of it rejects a pending dial. -/
theorem dial_leaves_nothing (link : LinkCapabilityOptions) (actions : List DialAction) :
    (dialRun link {} actions).LeavesNothing link ↔ DialCarefulFrom link {} actions := by
  obtain ⟨hinv, hiff⟩ := DialInv.initial.run link actions
  rw [hinv.leavesNothing_iff, hiff]
  exact and_iff_right fun call error hmem => by cases hmem

end

/-- A dial that nothing is known about. -/
def firstDial : DialAction :=
  .connect
    { host := ⟨"A", "A", 22, "user", .password "secret", none, none⟩, route := none, requestId := "dial",
      generationId := "1", expectedHostKey := none, connectTimeoutMs := 15000, dial := 0 } []

def plainLink : LinkCapabilityOptions := ⟨"wss://relay.example", "token", id⟩

/-- The socket of a dial that timed out stays open, and the end of one that was refused is told
as the loss of a connection. -/
theorem dial_keeps_socket :
    ¬ (dialRun plainLink {} [firstDial, .timedOut 0]).LeavesNothing plainLink ∧
      ¬ (dialRun plainLink {} [firstDial, .socket 0 (.error none none),
        .socket 0 (.closed 1006 "")]).LeavesNothing plainLink := by
  constructor
  · intro h
    exact absurd (h.closed 0 { message := "link dial timed out", code := "TIMED_OUT" } 0 (by decide)
      (by decide)) (by decide)
  · intro h
    exact absurd (h.silent 0 .lost (by decide)) (by decide)

end PocketShell.Link
