import PocketShell.Sync.Store

/-!
# What the account section keeps

The account view disables its controls while the store is busy. In the runs of that view:

* `Keeps`: the selection says the last decision about every alias that was not carried out.
* `Inv`: one operation at a time holds the busy flag, and its passphrase and its selection
  are those of the user.
* `store_kept`.
-/

namespace PocketShell.Sync.Store

open Js (Text JsNumber ascii)

variable {N : Type} {s : State N} {log : List Event} {sel next : SyncSelectionState} {hostAlias : Text}

/-! ## Decisions -/

/-- The selection says this of an alias. -/
def Says (sel : SyncSelectionState) (hostAlias : Text) (selected : Bool) : Prop :=
  if selected then hostAlias ∈ sel.checked ∧ hostAlias ∉ sel.unticked
  else hostAlias ∉ sel.checked ∧ hostAlias ∈ sel.unticked

/-- An untick was carried out: a copy of the account lacked the alias, a push that was
requested since removed it, or the user signed out. -/
def Released (hostAlias : Text) (after : List Event) : Prop :=
  (∃ aliases, .absorbed aliases ∈ after ∧ hostAlias ∉ aliases) ∨
    (∃ ticket op passphrase aliases, .pushRequested ticket op passphrase aliases ∈ after ∧
      .pushSynced ticket ∈ after ∧ hostAlias ∉ aliases) ∨
    .loggedOut ∈ after

/-- The selection says the last decision about every alias, unless it was an untick that
was carried out. -/
def Keeps (log : List Event) (sel : SyncSelectionState) : Prop :=
  ∀ hostAlias selected after, lastDecision hostAlias log = some (selected, after) →
    Says sel hostAlias selected ∨ selected = false ∧ Released hostAlias after

def Event.isDecision : Event → Bool
  | .decided .. => true
  | _ => false

variable {e : Event}

theorem lastDecision_cons (h : e.isDecision = false) :
    lastDecision hostAlias (e :: log) = (lastDecision hostAlias log).map fun d => (d.1, e :: d.2) := by
  cases e with
  | decided => cases h
  | _ => rfl

theorem Released.cons {after : List Event} (h : Released hostAlias after) (e : Event) :
    Released hostAlias (e :: after) := by
  rcases h with ⟨aliases, hm, hn⟩ | ⟨ticket, op, passphrase, aliases, hm, hs, hn⟩ | hm
  · exact .inl ⟨aliases, List.mem_cons_of_mem e hm, hn⟩
  · exact .inr (.inl ⟨ticket, op, passphrase, aliases, List.mem_cons_of_mem e hm, List.mem_cons_of_mem e hs, hn⟩)
  · exact .inr (.inr (List.mem_cons_of_mem e hm))

/-- To keep the decisions over one more event that is none. -/
theorem Keeps.step (he : e.isDecision = false) (h : Keeps log sel)
    (hstep : ∀ hostAlias selected after, lastDecision hostAlias log = some (selected, after) →
      Says sel hostAlias selected → Says next hostAlias selected ∨
        selected = false ∧ Released hostAlias (e :: after)) : Keeps (e :: log) next := by
  intro hostAlias selected after hlast
  rw [lastDecision_cons he, Option.map_eq_some_iff] at hlast
  obtain ⟨⟨selected, after⟩, hlast, heq⟩ := hlast
  obtain ⟨rfl, rfl⟩ := Prod.mk.inj heq
  rcases h hostAlias selected after hlast with hsaid | ⟨hfalse, hreleased⟩
  · exact hstep hostAlias selected after hlast hsaid
  · exact .inr ⟨hfalse, hreleased.cons e⟩

theorem Keeps.cons (he : e.isDecision = false) (h : Keeps log sel) : Keeps (e :: log) sel :=
  h.step he fun _ _ _ _ hsaid => .inl hsaid

theorem Keeps.decided (h : Keeps log sel) (hostAlias : Text) (selected : Bool) :
    Keeps (.decided hostAlias selected :: log) (selectAlias sel hostAlias selected) := by
  intro other selected' after hlast
  by_cases hother : hostAlias = other
  · subst hother
    unfold lastDecision at hlast
    rw [if_pos rfl] at hlast
    obtain ⟨rfl, rfl⟩ := Prod.mk.inj (Option.some.inj hlast)
    refine .inl ?_
    by_cases hc : hostAlias ∈ sel.checked <;> by_cases hu : hostAlias ∈ sel.unticked <;>
      cases selected <;> simp [Says, selectAlias, hc, hu]
  · unfold lastDecision at hlast
    rw [if_neg hother, Option.map_eq_some_iff] at hlast
    obtain ⟨⟨selected'', after'⟩, hlast, heq⟩ := hlast
    obtain ⟨rfl, rfl⟩ := Prod.mk.inj heq
    rcases h other selected'' after' hlast with hsaid | ⟨hfalse, hreleased⟩
    · refine .inl ?_
      -- the lists change for `hostAlias` only
      have hchecked : other ∈ (selectAlias sel hostAlias selected).checked ↔ other ∈ sel.checked := by
        unfold selectAlias
        dsimp only
        split
        · exact Iff.rfl
        · split <;> simp [Ne.symm hother]
      have hunticked : other ∈ (selectAlias sel hostAlias selected).unticked ↔ other ∈ sel.unticked := by
        unfold selectAlias
        dsimp only
        split
        · simp [Ne.symm hother]
        · split <;> simp [Ne.symm hother]
      unfold Says at hsaid ⊢
      rw [hchecked, hunticked]
      exact hsaid
    · exact .inr ⟨hfalse, hreleased.cons _⟩

theorem Keeps.unique (h : Keeps log sel) : Keeps log ⟨unique sel.checked, unique sel.unticked⟩ := by
  intro hostAlias selected after hlast
  refine (h hostAlias selected after hlast).imp_left fun hsaid => ?_
  simpa [Says, Sync.unique] using hsaid

/-- The tick rule on a copy of the account. -/
theorem Keeps.absorbed (h : Keeps log sel) (remote : List (SyncHostEntry N)) :
    Keeps (.absorbed (remote.map (·.name)) :: log) (applyAccountToSelection remote sel) := by
  refine h.step rfl fun hostAlias selected after _ hsaid => ?_
  cases selected with
  | true =>
    obtain ⟨hc, -⟩ := hsaid
    have hchecked : hostAlias ∈ (applyAccountToSelection remote sel).checked := mem_checked.mpr (.inl hc)
    refine .inl ⟨hchecked, fun hu => ?_⟩
    have hkept := (List.mem_filter.mp hu).2
    rw [Bool.and_eq_true, decide_eq_true_eq] at hkept
    exact hkept.2 hchecked
  | false =>
    obtain ⟨hc, hu⟩ := hsaid
    by_cases hremote : hostAlias ∈ remote.map (·.name)
    · have hchecked : hostAlias ∉ (applyAccountToSelection remote sel).checked := by
        rw [mem_checked]
        rintro (h | ⟨-, h⟩)
        · exact hc h
        · exact h hu
      refine .inl ⟨hchecked, List.mem_filter.mpr ⟨List.mem_eraseDups.mpr hu, ?_⟩⟩
      rw [Bool.and_eq_true, decide_eq_true_eq]
      exact ⟨decide_eq_true hremote, hchecked⟩
    · exact .inr ⟨rfl, .inl ⟨_, List.mem_cons_self, hremote⟩⟩

/-- Writing a selection back that keeps the decisions. -/
theorem Keeps.persisted (h : Keeps log sel) (hnext : Keeps log next) : Keeps log (persisted sel next) := by
  intro hostAlias selected after hlast
  rcases h hostAlias selected after hlast with hsaid | hreleased
  · rcases hnext hostAlias selected after hlast with hsaid' | hreleased
    · refine .inl ?_
      cases selected with
      | true => exact ⟨List.mem_append_left _ hsaid.1, hsaid'.2⟩
      | false =>
        refine ⟨fun hmem => ?_, hsaid'.2⟩
        rcases List.mem_append.mp hmem with hmem | hmem
        · exact hsaid.1 hmem
        · exact hsaid'.1 (List.mem_of_mem_filter hmem)
    · exact .inr hreleased
  · exact .inr hreleased

/-- A push that was requested after every decision was taken. -/
theorem Keeps.synced (h : Keeps log sel) {hosts : List (SyncHostEntry N)} {ticket : Nat}
    (hsent : ∀ host ∈ hosts, host.name ∈ sel.checked)
    (hreq : ∀ hostAlias selected after, lastDecision hostAlias log = some (selected, after) →
      ∃ op passphrase, .pushRequested ticket op passphrase (hosts.map (·.name)) ∈ after) :
    Keeps (.pushSynced ticket :: log) ⟨sel.checked, sel.unticked.filter (hasName hosts)⟩ := by
  refine h.step rfl fun hostAlias selected after hlast hsaid => ?_
  cases selected with
  | true => exact .inl ⟨hsaid.1, fun hu => hsaid.2 (List.mem_of_mem_filter hu)⟩
  | false =>
    obtain ⟨op, passphrase, hmem⟩ := hreq hostAlias false after hlast
    refine .inr ⟨rfl, .inr (.inl ⟨ticket, op, passphrase, _, List.mem_cons_of_mem _ hmem, List.mem_cons_self, ?_⟩)⟩
    intro hname
    obtain ⟨host, hhost, rfl⟩ := List.mem_map.mp hname
    exact hsaid.1 (hsent host hhost)

theorem Keeps.loggedOut (h : Keeps log sel) : Keeps (.loggedOut :: log) ⟨sel.checked, []⟩ := by
  refine h.step rfl fun hostAlias selected after _ hsaid => ?_
  cases selected with
  | true => exact .inl ⟨hsaid.1, List.not_mem_nil⟩
  | false => exact .inr ⟨rfl, .inr (.inr List.mem_cons_self)⟩

/-! ## The invariant -/

/-- Every push is sealed with the passphrase that opened the pull before it. -/
def Sealed (log : List Event) : Prop :=
  ∀ newer ticket op passphrase aliases older,
    log = newer ++ .pushRequested ticket op passphrase aliases :: older → openedWith op older = some passphrase

/-- The push was requested after every decision. -/
def Requested (log : List Event) (ticket : Nat) (aliases : List Text) : Prop :=
  ∀ hostAlias selected after, lastDecision hostAlias log = some (selected, after) →
    ∃ op passphrase, .pushRequested ticket op passphrase aliases ∈ after

/-- A round that waits has the user's decisions and the user's passphrase. -/
def RoundOk (log : List Event) (passphrase : Text) (call : Call N) : Prop :=
  match call.waiting with
  | .roundPull round => Keeps log round.selection ∧ openedWith call.op log = some passphrase
  | .roundPush round hosts => Keeps log round.selection ∧
    Requested log call.ticket (hosts.map (·.name)) ∧ ∀ host ∈ hosts, host.name ∈ round.selection.checked
  | _ => True

/-- The invariant, where the operation that runs has the busy flag `held` times. -/
structure Inv (held : Nat) (s : State N) : Prop where
  slot : s.calls.countP (·.waiting.guards) + held = if s.busy then 1 else 0
  keeps : Keeps s.log s.selection
  rounds : ∀ call ∈ s.calls, RoundOk s.log s.passphrase call
  sealed : Sealed s.log
  ops : ∀ call ∈ s.calls, call.op < s.nextOp ∧ (call.waiting.guards = true → s.outAt ≤ call.op)
  out : s.outAt ≤ s.nextOp

def slotOf (guards : Bool) : Nat := if guards then 1 else 0

theorem Sealed.cons (h : Sealed log) (he : ∀ ticket op passphrase aliases,
    e ≠ .pushRequested ticket op passphrase aliases) : Sealed (e :: log) := by
  intro newer ticket op passphrase aliases older heq
  cases newer with
  | nil => exact absurd (List.cons.inj heq).1 (he ticket op passphrase aliases)
  | cons e' newer => exact h newer ticket op passphrase aliases older (List.cons.inj heq).2

variable {passphrase : Text}

theorem Sealed.push (h : Sealed log) {ticket op : Nat} {aliases : List Text}
    (hopen : openedWith op log = some passphrase) :
    Sealed (.pushRequested ticket op passphrase aliases :: log) := by
  intro newer ticket' op' passphrase' aliases' older heq
  cases newer with
  | nil =>
    obtain ⟨he, rfl⟩ := List.cons.inj heq
    cases he
    exact hopen
  | cons e' newer => exact h newer ticket' op' passphrase' aliases' older (List.cons.inj heq).2

theorem Requested.cons (he : e.isDecision = false) {ticket : Nat} {aliases : List Text}
    (h : Requested log ticket aliases) : Requested (e :: log) ticket aliases := by
  intro hostAlias selected after hlast
  rw [lastDecision_cons he, Option.map_eq_some_iff] at hlast
  obtain ⟨⟨selected', after'⟩, hlast, heq⟩ := hlast
  obtain ⟨rfl, rfl⟩ := Prod.mk.inj heq
  obtain ⟨op, passphrase, hmem⟩ := h hostAlias selected' after' hlast
  exact ⟨op, passphrase, List.mem_cons_of_mem e hmem⟩

theorem Requested.push (log : List Event) (ticket op : Nat) (passphrase : Text) (aliases : List Text) :
    Requested (.pushRequested ticket op passphrase aliases :: log) ticket aliases := by
  intro hostAlias selected after hlast
  rw [lastDecision_cons rfl, Option.map_eq_some_iff] at hlast
  obtain ⟨d, -, heq⟩ := hlast
  obtain ⟨-, rfl⟩ := Prod.mk.inj heq
  exact ⟨op, passphrase, List.mem_cons_self⟩

/-- Events that no round waits for. -/
def Event.isNote : Event → Bool
  | .absorbed _ => true
  | .pushSynced _ => true
  | .loggedOut => true
  | _ => false

theorem RoundOk.note (he : e.isNote = true) {call : Call N}
    (h : RoundOk log passphrase call) : RoundOk (e :: log) passphrase call := by
  have hdecision : e.isDecision = false := by cases e <;> first | rfl | cases he
  have hopened : ∀ op, openedWith op (e :: log) = openedWith op log := by
    intro op
    cases e <;> first | rfl | cases he
  unfold RoundOk at h ⊢
  split
  · next hw =>
    rw [hw] at h
    exact ⟨h.1.cons hdecision, (hopened _).trans h.2⟩
  · next hw =>
    rw [hw] at h
    exact ⟨h.1.cons hdecision, h.2.1.cons hdecision, h.2.2⟩
  · trivial

theorem RoundOk.of_free {call : Call N} (h : call.waiting.guards = false) :
    RoundOk log passphrase call := by
  unfold RoundOk
  split
  · next hw =>
    rw [hw] at h
    cases h
  · next hw =>
    rw [hw] at h
    cases h
  · trivial

namespace Inv

variable {held : Nat}

theorem free (h : s.calls.countP (·.waiting.guards) = 0) : ∀ call ∈ s.calls, call.waiting.guards = false :=
  fun call hcall => Bool.eq_false_iff.mpr (List.countP_eq_zero.mp h call hcall)

/-- Whoever has the flag runs alone. -/
theorem alone (h : Inv 1 s) : s.busy = true ∧ ∀ call ∈ s.calls, call.waiting.guards = false := by
  have hslot := h.slot
  cases hb : s.busy with
  | false =>
    rw [hb] at hslot
    cases hslot
  | true =>
    rw [hb] at hslot
    exact ⟨rfl, free (Nat.succ.inj hslot)⟩

theorem idle (h : Inv 0 s) (hb : s.busy = false) : ∀ call ∈ s.calls, call.waiting.guards = false := by
  have hslot := h.slot
  rw [hb] at hslot
  exact free hslot

theorem say (h : Inv held s) (kind : MessageKind) (text : String) : Inv held (s.say kind text) :=
  ⟨h.slot, h.keeps, h.rounds, h.sealed, h.ops, h.out⟩

theorem showAccount (h : Inv held s) (account : Option (List (SyncHostEntry N))) :
    Inv held (s.showAccount account) :=
  ⟨h.slot, h.keeps, h.rounds, h.sealed, h.ops, h.out⟩

/-- Another operation that holds nothing. -/
theorem begin_ (h : Inv held s) : Inv held s.begin_ where
  slot := h.slot
  keeps := h.keeps
  rounds := h.rounds
  sealed := h.sealed
  ops call hcall := ⟨(h.ops call hcall).1.trans (Nat.lt_succ_self _), (h.ops call hcall).2⟩
  out := h.out.trans (Nat.le_succ _)

theorem setBusy_true (h : Inv 0 s) (hb : s.busy = false) : Inv 1 (s.setBusy true) where
  slot := by
    have hslot := h.slot
    rw [hb] at hslot
    exact congrArg (· + 1) hslot
  keeps := h.keeps
  rounds := h.rounds
  sealed := h.sealed
  ops := h.ops
  out := h.out

/-- `finally` -/
theorem setBusy_false (h : Inv 1 s) : Inv 0 (s.setBusy false) where
  slot := by
    have hslot := h.slot
    rw [h.alone.1] at hslot
    exact Nat.succ.inj hslot
  keeps := h.keeps
  rounds := h.rounds
  sealed := h.sealed
  ops := h.ops
  out := h.out

theorem signedOut (h : Inv 1 s) : Inv 0 s.signedOut where
  slot := h.setBusy_false.slot
  keeps := h.keeps
  rounds := h.rounds
  sealed := h.sealed
  ops call hcall := by
    refine ⟨(h.ops call hcall).1, fun hg => ?_⟩
    rw [h.alone.2 call hcall] at hg
    cases hg
  out := le_rfl

variable {op : Nat}

/-- The thread awaits its next call. -/
theorem await (waiting : Waiting N) (h : Inv (slotOf waiting.guards) s) (hop : op < s.nextOp)
    (hout : waiting.guards = true → s.outAt ≤ op)
    (hround : RoundOk s.log s.passphrase ⟨s.nextTicket, op, waiting⟩) : Inv 0 (s.await op waiting) where
  slot := by
    have hslot := h.slot
    have hcount : (s.await op waiting).calls.countP (·.waiting.guards) =
        s.calls.countP (·.waiting.guards) + slotOf waiting.guards := by
      dsimp only [State.await]
      rw [List.countP_append, List.countP_singleton]
      rfl
    rw [hcount]
    exact hslot
  keeps := h.keeps
  rounds call hcall := by
    rcases List.mem_append.mp hcall with hcall | hcall
    · exact h.rounds call hcall
    · exact List.mem_singleton.mp hcall ▸ hround
  sealed := h.sealed
  ops call hcall := by
    rcases List.mem_append.mp hcall with hcall | hcall
    · exact h.ops call hcall
    · exact List.mem_singleton.mp hcall ▸ ⟨hop, hout⟩
  out := h.out

/-- A reply comes in: its thread runs. -/
theorem dropCall (h : Inv 0 s) {index : Nat} {call : Call N} (hcall : s.calls[index]? = some call) :
    Inv (slotOf call.waiting.guards) (s.dropCall index) where
  slot := by
    have hslot := h.slot
    obtain ⟨hlt, hget⟩ := List.getElem?_eq_some_iff.mp hcall
    have hperm := List.getElem_cons_eraseIdx_perm hlt
    have hcount := hperm.countP_eq (·.waiting.guards)
    rw [hget, List.countP_cons] at hcount
    rw [← hcount] at hslot
    exact hslot
  keeps := h.keeps
  rounds call hcall := h.rounds call (List.mem_of_mem_eraseIdx hcall)
  sealed := h.sealed
  ops call hcall := h.ops call (List.mem_of_mem_eraseIdx hcall)
  out := h.out

/-- The selection changes with a note in the log. -/
theorem note (h : Inv held s) {e : Event} (he : e.isNote = true) (hk : Keeps (e :: s.log) sel) :
    Inv held ((s.setSelection sel).addLog e) where
  slot := h.slot
  keeps := hk
  rounds call hcall := (h.rounds call hcall).note he
  sealed := h.sealed.cons fun ticket op passphrase aliases heq => by
    subst heq
    cases he
  ops := h.ops
  out := h.out

theorem absorbAccount (h : Inv held s) (remote : List (SyncHostEntry N)) :
    Inv held (s.absorbAccount remote) :=
  (h.showAccount (some remote)).note rfl ((h.keeps.cons rfl).persisted (h.keeps.absorbed remote))

/-- A thread that runs alone requests something. -/
theorem addLog (h : Inv 1 s) {e : Event} (he : e.isDecision = false) (hs : Sealed (e :: s.log)) :
    Inv 1 (s.addLog e) where
  slot := h.slot
  keeps := h.keeps.cons he
  rounds call hcall := .of_free (h.alone.2 call hcall)
  sealed := hs
  ops := h.ops
  out := h.out

theorem persistSelection (h : Inv held s) (hnext : Keeps s.log next) : Inv held (s.persistSelection next) where
  slot := h.slot
  keeps := h.keeps.persisted hnext
  rounds := h.rounds
  sealed := h.sealed
  ops := h.ops
  out := h.out

/-! ## Operations -/

theorem started (h : Inv 0 s) (hb : s.busy = false) : Inv 1 s.started :=
  have hbusy := h.begin_.setBusy_true hb
  ⟨hbusy.slot, hbusy.keeps, hbusy.rounds, hbusy.sealed, hbusy.ops, hbusy.out⟩

theorem failed (h : Inv 1 s) (error : String) : Inv 0 (s.failed error) := (h.say _ _).setBusy_false

variable {caller : Caller}

theorem refreshed (h : Inv (slotOf caller.guards) s) : Inv 0 (s.refreshed caller) := by
  cases caller with
  | alone => exact h
  | login email => exact (say h _ _).setBusy_false
  | logout => exact signedOut h

theorem refreshFailed (h : Inv (slotOf caller.guards) s) (error : String) :
    Inv 0 (s.refreshFailed error caller) := by
  cases caller with
  | alone => exact h
  | login email => exact (say h _ _).setBusy_false
  | logout => exact signedOut h

theorem statusRead {status : SyncStatus} (h : Inv (slotOf caller.guards) s)
    (hop : op < s.nextOp) (hout : caller.guards = true → s.outAt ≤ op) :
    Inv 0 (s.statusRead op caller status) := by
  have h' : Inv (slotOf caller.guards) ({ s with status := some status } : State N) :=
    ⟨h.slot, h.keeps, h.rounds, h.sealed, h.ops, h.out⟩
  unfold State.statusRead
  dsimp only
  split
  · exact (h'.showAccount none).refreshed
  · split
    · exact await (.accountHosts caller) h' hop hout trivial
    · exact h'.refreshed

theorem cacheRead (h : Inv (slotOf caller.guards) s)
    (cached : Option (List (SyncHostEntry N))) : Inv 0 (s.cacheRead caller cached) := by
  cases cached with
  | none => exact h.refreshed
  | some remote => exact (h.absorbAccount remote).refreshed

theorem login (h : Inv 0 s) : Inv 0 s.login := by
  unfold State.login
  split
  · exact h
  · next hb =>
    exact await .login (h.started (Bool.eq_false_iff.mpr hb)) (Nat.lt_succ_self _) (fun _ => h.out) trivial

theorem logout (h : Inv 0 s) (hb : s.busy = false) : Inv 0 s.logout :=
  await .logout (h.begin_.setBusy_true hb) (Nat.lt_succ_self _) (fun _ => h.out) trivial

theorem loggedOut (h : Inv 1 s) (hop : op < s.nextOp) (hout : s.outAt ≤ op) :
    Inv 0 (s.loggedOut op) := by
  refine await (.status .logout) ?_ hop (fun _ => hout) trivial
  exact {
    slot := h.slot
    keeps := h.keeps.loggedOut
    rounds := fun call hcall => .of_free (h.alone.2 call hcall)
    sealed := h.sealed.cons fun _ _ _ _ heq => by cases heq
    ops := h.ops
    out := h.out }

theorem guarded {start : State N → State N} (h : Inv 0 s)
    (hstart : s.busy = false → Inv 0 (start s.started)) : Inv 0 (s.guarded start) := by
  unfold State.guarded
  split
  · exact h
  · next hb =>
    split
    · exact h.begin_.say _ _
    · split
      · exact h.begin_.say _ _
      · exact hstart (Bool.eq_false_iff.mpr hb)

theorem loadAccount (h : Inv 0 s) : Inv 0 s.loadAccount :=
  h.guarded fun hb => await .loadPull (h.started hb) (Nat.lt_succ_self _) (fun _ => h.out) trivial

theorem accountRead [JsNumber N] (h : Inv 1 s) (plaintext : Option Text) : Inv 0 (s.accountRead plaintext) := by
  cases plaintext with
  | none => exact ((h.showAccount _).say _ _).setBusy_false
  | some plaintext => exact ((h.absorbAccount _).say _ _).setBusy_false

variable {round : Round N}

/-- A round pulls with the user's decisions. -/
theorem roundPull (h : Inv 1 s) (hop : op < s.nextOp) (hout : s.outAt ≤ op)
    (hk : Keeps s.log round.selection) : Inv 0 (s.roundPull op round) := by
  have hlog := h.addLog (e := .pullRequested op s.passphrase) rfl
    (h.sealed.cons fun _ _ _ _ heq => by cases heq)
  exact await (.roundPull round) hlog hop (fun _ => hout) ⟨hk.cons rfl, if_pos rfl⟩

theorem syncNow (h : Inv 0 s) : Inv 0 s.syncNow :=
  h.guarded fun hb => (h.started hb).roundPull (Nat.lt_succ_self _) h.out h.keeps.unique

theorem roundDone [JsNumber N] {result : SyncRoundResult N} (h : Inv 1 s) (hop : op < s.nextOp)
    (hout : s.outAt ≤ op) (hk : ∀ version selectedAliases untickedAliases hosts attempts,
      result = .synced version selectedAliases untickedAliases hosts attempts →
        Keeps s.log ⟨selectedAliases, untickedAliases⟩) : Inv 0 (s.roundDone op result) := by
  cases result with
  | synced version selectedAliases untickedAliases hosts attempts =>
    have hpersisted := (h.persistSelection (hk _ _ _ _ _ rfl)).showAccount (some (hosts.map (·.sent)))
    exact await (.applyHosts _) hpersisted hop (fun _ => hout) trivial
  | _ => exact h.failed _

variable {hosts : List (SyncHostEntry N)}

theorem roundPush (round : Round N) (h : Inv 1 s)
    (hop : op < s.nextOp) (hout : s.outAt ≤ op) (hk : Keeps s.log round.selection)
    (hopen : openedWith op s.log = some s.passphrase)
    (hsent : ∀ host ∈ hosts, host.name ∈ round.selection.checked) : Inv 0 (s.roundPush op round hosts) := by
  have hlog := h.addLog (e := .pushRequested s.nextTicket op s.passphrase (hosts.map (·.name))) rfl
    (h.sealed.push hopen)
  exact await (.roundPush round hosts) hlog hop (fun _ => hout) ⟨hk.cons rfl, Requested.push _ _ _ _ _, hsent⟩

/-- A pull of a round comes in: the tick rule is applied to both selections. -/
theorem roundPulled [JsNumber N] {answer : SyncRoundSnapshot} (h : Inv 1 s)
    (hop : op < s.nextOp) (hout : s.outAt ≤ op) (hk : Keeps s.log round.selection)
    (hopen : openedWith op s.log = some s.passphrase) : Inv 0 (s.roundPulled op round answer) := by
  unfold State.roundPulled
  cases hacc : accountOf (N := N) (State.pulledAs round.attempts answer) with
  | error result =>
    exact h.roundDone hop hout fun _ _ _ _ _ heq => absurd heq (accountOf_error hacc)
  | ok account =>
    obtain ⟨base, remote⟩ := account
    have hnext := hk.absorbed remote
    have hnoted : Inv 1 (((s.showAccount (some remote)).persistSelection
        (applyAccountToSelection remote round.selection)).addLog (.absorbed (remote.map (·.name)))) :=
      (h.showAccount (some remote)).note rfl ((h.keeps.cons rfl).persisted hnext)
    dsimp only
    split
    · exact hnoted.failed _
    · refine roundPush { round with selection := applyAccountToSelection remote round.selection } hnoted hop hout
        hnext hopen fun host hhost => ?_
      obtain ⟨hostAlias, hchecked, hentry⟩ := mem_assemble.mp hhost
      exact entryOf_name hentry ▸ hchecked

/-- A push of a round comes in. -/
theorem roundPushed [JsNumber N] {ticket op : Nat}
    {answer : SyncRoundPushResult} (h : Inv 1 s) (hop : op < s.nextOp) (hout : s.outAt ≤ op)
    (hk : Keeps s.log round.selection) (hreq : Requested s.log ticket (hosts.map (·.name)))
    (hsent : ∀ host ∈ hosts, host.name ∈ round.selection.checked) :
    Inv 0 (s.roundPushed ticket op round hosts answer) := by
  unfold State.roundPushed
  cases hafter : afterPush round.attempts round.selection hosts answer with
  | again selection =>
    obtain ⟨rfl, -, -⟩ := afterPush_again hafter
    exact h.roundPull hop hout hk
  | done result =>
    cases result with
    | synced version selectedAliases untickedAliases uploaded attempts =>
      obtain ⟨-, rfl, rfl, rfl, -, -⟩ := afterPush_synced hafter
      have hlog := h.addLog (e := .pushSynced ticket) rfl (h.sealed.cons fun _ _ _ _ heq => by cases heq)
      refine hlog.roundDone hop hout fun _ _ _ _ _ heq => ?_
      cases heq
      exact hk.synced hsent hreq
    | _ => exact h.roundDone hop hout fun _ _ _ _ _ heq => by cases heq

end Inv

/-! ## Runs -/

section Generic

/-- The view's gate: ticks, the passphrase and the sign-out are for an idle store. -/
def Gated (s : State N) : Action N → Prop
  | .setSelected .. => s.busy = false
  | .setPassphrase _ => s.busy = false
  | .logout => s.busy = false
  | _ => True

variable [JsNumber N]

/-- Every step of a run passes the gate. -/
def GatedFrom (s : State N) : List (Action N) → Prop
  | [] => True
  | action :: actions => Gated s action ∧ GatedFrom (s.step action) actions

theorem Inv.rejected {call : Call N} {error : String} (h : Inv (slotOf call.waiting.guards) s)
    (hop : call.op < s.nextOp) (hout : call.waiting.guards = true → s.outAt ≤ call.op)
    (hround : RoundOk s.log s.passphrase call) : Inv 0 (s.rejected call error) := by
  obtain ⟨ticket, op, waiting⟩ := call
  unfold State.rejected
  cases waiting with
  | status caller => exact h.refreshFailed error
  | accountHosts caller => exact h.cacheRead none
  | logout => exact (say h _ _).signedOut
  | roundPull round => exact roundPulled h hop (hout rfl) hround.1 hround.2
  | roundPush round hosts => exact roundPushed h hop (hout rfl) hround.1 hround.2.1 hround.2.2
  | login | loadPull | applyHosts | loadHosts => exact failed h _

theorem Inv.resume {call : Call N} {reply : Reply N} (h : Inv (slotOf call.waiting.guards) s)
    (hop : call.op < s.nextOp) (hout : call.waiting.guards = true → s.outAt ≤ call.op)
    (hround : RoundOk s.log s.passphrase call) : Inv 0 (s.resume call reply) := by
  have hrejected : ∀ error, Inv 0 (s.rejected call error) := fun error => h.rejected hop hout hround
  obtain ⟨ticket, op, waiting⟩ := call
  unfold State.resume
  dsimp only
  split
  · exact h.statusRead hop hout
  · exact h.cacheRead _
  · exact await (.status (.login _)) h hop hout trivial
  · exact loggedOut h hop (hout rfl)
  · exact accountRead h _
  · exact accountRead h _
  · exact roundPulled h hop (hout rfl) hround.1 hround.2
  · exact roundPushed h hop (hout rfl) hround.1 hround.2.1 hround.2.2
  · exact await (.loadHosts _ _) h hop hout trivial
  · exact (say h _ _).setBusy_false
  · exact hrejected _
  · exact hrejected _

theorem Inv.step (h : Inv 0 s) {action : Action N} (hg : Gated s action) : Inv 0 (s.step action) := by
  cases action with
  | refreshStatus => exact await (.status .alone) h.begin_ (Nat.lt_succ_self _) (fun hg => by cases hg) trivial
  | loadAccount => exact h.loadAccount
  | setSelected hostAlias selected =>
    exact {
      slot := h.slot
      keeps := h.keeps.decided hostAlias selected
      rounds := fun call hcall => .of_free (h.idle hg call hcall)
      sealed := h.sealed.cons fun _ _ _ _ heq => by cases heq
      ops := h.ops
      out := h.out }
  | setPassphrase passphrase =>
    exact ⟨h.slot, h.keeps, fun call hcall => .of_free (h.idle hg call hcall), h.sealed, h.ops, h.out⟩
  | login => exact h.login
  | logout => exact h.logout hg
  | syncNow => exact h.syncNow
  | loadedHosts hosts => exact ⟨h.slot, h.keeps, h.rounds, h.sealed, h.ops, h.out⟩
  | reply index reply =>
    show Inv 0 (s.answered index reply)
    unfold State.answered
    split
    · exact h
    · next call hcall =>
      have hmem : call ∈ s.calls := List.mem_of_getElem? hcall
      exact (h.dropCall hcall).resume (h.ops call hmem).1 (h.ops call hmem).2 (h.rounds call hmem)

theorem Inv.run {actions : List (Action N)} (h : Inv 0 s) (hg : GatedFrom s actions) :
    Inv 0 (s.run actions) := by
  induction actions generalizing s with
  | nil => exact h
  | cons action actions ih => exact ih (h.step hg.1) hg.2

/-- The store as it starts, with the selection that was stored. -/
def initial (selection : SyncSelectionState) (hosts : List (LocalHost N)) : State N := { selection, hosts }

omit [JsNumber N] in
theorem Inv.initial (selection : SyncSelectionState) (hosts : List (LocalHost N)) :
    Inv 0 (initial selection hosts) where
  slot := rfl
  keeps _ _ _ hlast := by cases hlast
  rounds _ hcall := absurd hcall List.not_mem_nil
  sealed newer _ _ _ _ _ heq := by cases newer <;> cases heq
  ops _ hcall := absurd hcall List.not_mem_nil
  out := le_rfl

/-- In the runs of the view the selection says what the user decided last, pushes are sealed
as the pulls before them, one of `loadAccount` and `syncNow` runs at a time, and what was
under way when a sign-out was complete is a refresh at most. -/
theorem store_kept (selection : SyncSelectionState) (hosts : List (LocalHost N)) (actions : List (Action N))
    (hg : GatedFrom (initial selection hosts) actions) :
    let s := (initial selection hosts).run actions
    Keeps s.log s.selection ∧ Sealed s.log ∧ s.calls.countP (·.waiting.reads) ≤ 1 ∧
      ∀ call ∈ s.calls, call.op < s.outAt → call.waiting.guards = false := by
  intro s
  have h : Inv 0 s := (Inv.initial selection hosts).run hg
  refine ⟨h.keeps, h.sealed, ?_, fun call hcall hlt => ?_⟩
  · have hle : s.calls.countP (·.waiting.reads) ≤ s.calls.countP (·.waiting.guards) := by
      refine List.countP_mono_left fun call _ hreads => ?_
      obtain ⟨ticket, op, waiting⟩ := call
      cases waiting <;> first | rfl | cases hreads
    have hslot := h.slot
    refine hle.trans ?_
    rw [Nat.add_zero] at hslot
    rw [hslot]
    split <;> omega
  · refine Bool.eq_false_iff.mpr fun hguards => ?_
    have hout := (h.ops call hcall).2 hguards
    omega

end Generic

/-! ## Runs outside the view -/

def db : Text := ascii "db"

/-- A store whose settings have `db` ticked. -/
def ticked : State Js.Literal := initial ⟨[db], []⟩ []

/-- Signing in, and a passphrase. -/
def signedIn : List (Action Js.Literal) :=
  [.refreshStatus, .reply 0 (.status ⟨true, none, true⟩), .reply 0 (.accountHosts none),
    .setPassphrase (ascii "p")]

def otherHostText : Text := ascii "\x7b\"hosts\":[\x7b\"name\":\"web\",\"hostname\":\"h\"\x7d]\x7d"

/-- An untick, and a copy of the account without the alias. -/
def spentUntick : List (Action Js.Literal) :=
  signedIn ++ [.setSelected db false, .loadAccount, .reply 0 (.pulled (.ok 7 otherHostText))]

/-- A tick, a whole round with its push, an untick, and a sign-out. -/
def wholeRound : List (Action Js.Literal) :=
  signedIn ++ [.setSelected (ascii "web") true, .syncNow, .reply 0 (.pulled (.ok 7 oneHostText)),
    .reply 0 (.pushed (.ok 8)), .reply 0 (.applied 0), .reply 0 .done, .setSelected db false, .logout,
    .reply 0 .done, .reply 0 (.status ⟨false, none, true⟩)]

theorem store_kept_round :
    let s := ticked.run wholeRound
    Keeps s.log s.selection ∧ Sealed s.log ∧ s.calls.countP (·.waiting.reads) ≤ 1 ∧
      ∀ call ∈ s.calls, call.op < s.outAt → call.waiting.guards = false := by
  have hgated : GatedFrom ticked wholeRound := by
    refine ⟨trivial, trivial, trivial, rfl, rfl, trivial, trivial, trivial, trivial, trivial, ?_, ?_,
      trivial, trivial, trivial⟩
    · show State.busy _ = false
      decide +kernel
    · show State.busy _ = false
      decide +kernel
  exact store_kept ⟨[db], []⟩ [] wholeRound hgated

/-- An untick while the pull of a round is on its way. -/
def overwrittenUntick : List (Action Js.Literal) :=
  signedIn ++ [.syncNow, .setSelected db false, .reply 0 (.pulled (.ok 7 oneHostText)),
    .reply 0 (.pushed (.ok 8)), .reply 0 (.applied 0), .reply 0 .done]

/-- A passphrase that is edited while the pull is on its way. -/
def resealed : List (Action Js.Literal) :=
  signedIn ++ [.syncNow, .setPassphrase (ascii "q"), .reply 0 (.pulled (.ok 7 oneHostText))]

/-- A sign-out while the pull of a round is on its way. -/
def leftBehind : List (Action Js.Literal) :=
  signedIn ++ [.syncNow, .logout, .reply 1 .done, .reply 1 (.status ⟨false, none, true⟩)]

/-- The next account syncs while the round of the last one waits. -/
def twoRounds : List (Action Js.Literal) :=
  leftBehind ++ [.login, .reply 1 (.login none), .reply 1 (.status ⟨true, none, true⟩),
    .reply 1 (.accountHosts none), .setPassphrase (ascii "q"), .syncNow]

/-- By the tick rule a copy of the account without the alias spends an untick, though no push
carried it out. Outside the view's gate a round also writes its own selection over an untick,
seals with another passphrase than it opened with, and survives the sign-out. -/
theorem decisions_not_kept :
    ((ticked.run spentUntick).calls.length = 0 ∧
      (ticked.run spentUntick).log = [.absorbed [ascii "web"], .decided db false] ∧
      db ∉ (ticked.run spentUntick).selection.unticked) ∧
    ((ticked.run overwrittenUntick).calls.length = 0 ∧
      (lastDecision db (ticked.run overwrittenUntick).log).map Prod.fst = some false ∧
      db ∈ (ticked.run overwrittenUntick).selection.checked) ∧
    ((ticked.run resealed).log.head? = some (.pushRequested 3 1 (ascii "q") [db]) ∧
      openedWith 1 (ticked.run resealed).log.tail = some (ascii "p")) ∧
    (ticked.run twoRounds).calls.countP (·.waiting.reads) = 2 ∧
    (ticked.run leftBehind).accountHosts.isSome = false ∧
    ((ticked.run leftBehind).step (.reply 0 (.pulled (.ok 7 oneHostText)))).accountHosts.isSome = true := by
  refine ⟨?_, ?_, ?_, ?_, ?_, ?_⟩ <;> decide +kernel

end PocketShell.Sync.Store
