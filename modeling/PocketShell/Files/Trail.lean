import PocketShell.Files.Store

/-!
# The trail of a Files tab

The trail as the history of a browser: it names the directory on screen, going back and forward
again changes nothing, and a move drops what was ahead.

* `Sound`, `At`: what a trail must be, and what it must name.
* `Careful`: the steps that do not take the pane over from a move that is not in the trail yet and
  then end without one of their own.
* `Inv`, `inv_step`: what such steps keep.
* `Completes`: a move that nothing takes over. `trail_history`: runs.
-/

namespace PocketShell.Files.Trail

open Js (Text ascii)

/-! ## 1. The trail -/

structure Sound (trail : List Path) (index : Int) : Prop where
  index : trail ≠ [] → 0 ≤ index ∧ index < trail.length
  bounded : trail.length ≤ TRAIL_MAX
  apart : trail.IsChain (· ≠ ·)

/-- The place of the trail that `dir` is at. -/
def At (nav : Nav) (dir : Path) : Prop := 0 ≤ nav.trailIndex ∧ nav.trail[nav.trailIndex.toNat]? = some dir

section

variable {nav : Nav} {dir here : Path}

/-- What is not ahead of the index. -/
def behind (nav : Nav) : List Path := nav.trail.take (nav.trailIndex + 1).toNat

theorem behind_eq (h : Sound nav.trail nav.trailIndex) :
    (if nav.trailIndex < (nav.trail.length : Int) - 1 then nav.trail.take (nav.trailIndex + 1).toNat
      else nav.trail) = behind nav := by
  unfold behind
  split
  · rfl
  next hlast =>
    rcases eq_or_ne nav.trail [] with hnil | hsome
    · rw [hnil, List.take_nil]
    · have hindex := h.index hsome
      rw [List.take_of_length_le (by omega)]

theorem behind_at (h : 0 ≤ nav.trailIndex) :
    (behind nav)[nav.trailIndex.toNat]? = nav.trail[nav.trailIndex.toNat]? := by
  unfold behind
  exact List.getElem?_take_of_lt (by omega)

/-- The directory at the index ends what is behind. -/
theorem behind_getLast (h : Sound nav.trail nav.trailIndex) : (behind nav).getLast? = some dir → At nav dir := by
  intro hlast
  rcases eq_or_ne nav.trail [] with hnil | hsome
  · rw [behind, hnil, List.take_nil] at hlast
    cases hlast
  · have hindex := h.index hsome
    have hlength : (behind nav).length = nav.trailIndex.toNat + 1 := by
      unfold behind
      rw [List.length_take]
      omega
    rw [List.getLast?_eq_getElem?, hlength, Nat.add_sub_cancel, behind_at hindex.1] at hlast
    exact ⟨hindex.1, hlast⟩

theorem sound_behind (h : Sound nav.trail nav.trailIndex) : Sound (behind nav) nav.trailIndex := by
  refine ⟨fun hsome => ?_, ?_, h.apart.take _⟩
  · have hne : nav.trail ≠ [] := fun hnil => hsome (by unfold behind; rw [hnil, List.take_nil])
    have hindex := h.index hne
    unfold behind
    rw [List.length_take]
    omega
  · unfold behind
    exact (List.length_take_le' _ _).trans h.bounded

/-- A directory at the end of the trail, the oldest one dropped. -/
def pushed (trail : List Path) (dir : Path) : List Path :=
  if TRAIL_MAX < (trail ++ [dir]).length then (trail ++ [dir]).tail else trail ++ [dir]

theorem pushed_spec {trail : List Path} (hbound : trail.length ≤ TRAIL_MAX) (hapart : trail.IsChain (· ≠ ·))
    (hnew : trail.getLast? ≠ some dir) :
    (pushed trail dir) ≠ [] ∧ (pushed trail dir).length ≤ TRAIL_MAX ∧ (pushed trail dir).IsChain (· ≠ ·) ∧
      (pushed trail dir).getLast? = some dir := by
  have hlong : (trail ++ [dir]).IsChain (· ≠ ·) := by
    rw [List.isChain_append]
    refine ⟨hapart, List.isChain_singleton _, fun last hlast first hfirst => ?_⟩
    rintro rfl
    obtain rfl := Option.some.inj hfirst
    exact hnew hlast
  unfold pushed
  split
  next hfull =>
    rw [List.length_append, List.length_singleton] at hfull
    cases trail with
    | nil => exact absurd hfull (by decide)
    | cons first trail =>
      rw [List.cons_append] at hlong ⊢
      rw [List.tail_cons]
      refine ⟨by simp, ?_, hlong.tail, by simp⟩
      rw [List.length_cons] at hbound
      rw [List.length_append, List.length_singleton]
      exact hbound
  next hroom => exact ⟨by simp, not_lt.mp hroom, hlong, by simp⟩

/-- What `recordMove` does of a trail that is sound. -/
theorem recordMove_eq (h : Sound nav.trail nav.trailIndex) (dir : Path) :
    At nav dir ∧ nav.recordMove dir = { nav with trail := behind nav } ∨
      ¬At nav dir ∧ nav.recordMove dir = { nav with
        trail := pushed (behind nav) dir, trailIndex := ((pushed (behind nav) dir).length : Int) - 1 } := by
  unfold Nav.recordMove
  dsimp only
  rw [behind_eq h]
  by_cases hat : At nav dir
  · exact .inl ⟨hat, if_pos ⟨hat.1, (behind_at hat.1).trans hat.2⟩⟩
  · exact .inr ⟨hat, if_neg fun hkept => hat ⟨hkept.1, (behind_at hkept.1).symm.trans hkept.2⟩⟩

/-- A recorded move is in a sound trail, at its index. -/
theorem recordMove_sound (h : Sound nav.trail nav.trailIndex) (dir : Path) :
    Sound (nav.recordMove dir).trail (nav.recordMove dir).trailIndex ∧ At (nav.recordMove dir) dir := by
  rcases recordMove_eq h dir with ⟨hat, heq⟩ | ⟨hat, heq⟩
  · rw [heq]
    exact ⟨sound_behind h, hat.1, (behind_at hat.1).trans hat.2⟩
  · obtain ⟨hsome, hbound, hapart, hlast⟩ := pushed_spec (sound_behind h).bounded (sound_behind h).apart
      fun hlast => hat (behind_getLast h hlast)
    have hpos := List.length_pos_iff.mpr hsome
    rw [heq]
    refine ⟨⟨fun _ => by dsimp only; omega, hbound, hapart⟩, by dsimp only; omega, ?_⟩
    dsimp only
    rw [List.getLast?_eq_getElem?] at hlast
    rw [← hlast]
    exact congrArg (fun i => (pushed (behind nav) dir)[i]?) (by omega)

/-- With directories ahead, a recorded move drops them, and no other. -/
theorem recordMove_drops (h : Sound nav.trail nav.trailIndex) (hhere : At nav here)
    (hahead : nav.trailIndex < (nav.trail.length : Int) - 1) (dir : Path) :
    (nav.recordMove dir).trail = behind nav ++ (if dir = here then [] else [dir]) ∧
      (nav.recordMove dir).trailIndex = ((nav.recordMove dir).trail.length : Int) - 1 := by
  have hsame : At nav dir ↔ dir = here :=
    ⟨fun hat => Option.some.inj (hat.2.symm.trans hhere.2), fun heq => heq ▸ hhere⟩
  have hindex := hhere.1
  have hlength : (behind nav).length = nav.trailIndex.toNat + 1 := by
    unfold behind
    rw [List.length_take]
    omega
  rcases recordMove_eq h dir with ⟨hat, heq⟩ | ⟨hat, heq⟩
  · rw [heq, if_pos (hsame.mp hat), List.append_nil]
    exact ⟨rfl, by dsimp only; omega⟩
  · rw [heq, if_neg fun h => hat (hsame.mpr h)]
    refine ⟨if_neg ?_, rfl⟩
    have hbound := h.bounded
    rw [List.length_append, List.length_singleton]
    omega

end

/-! ## 2. The calls of the pipeline -/

/-- The ticket of a call that lists or resolves a directory. -/
def ticketOf : Pending → Option Nat
  | .openResolve o => some o.ticket
  | .openHome o _ => some o.ticket
  | .list ticket _ _ => some ticket
  | .cdResolve ticket _ => some ticket
  | _ => none

/-- The end of the call names a directory. -/
def movesAfter : AfterList → Bool
  | .moved => true
  | .jumped _ => true
  | _ => false

def moves : Pending → Bool
  | .openResolve _ => true
  | .openHome _ _ => true
  | .cdResolve _ _ => true
  | .list _ _ after => movesAfter after
  | _ => false

/-- The call owns the pane. -/
def Current (s : State) (call : Call) : Prop := ticketOf call.pending = some s.nav.navTicket

/-- No call owns the pane. -/
def Free (s : State) : Prop := ∀ call ∈ s.calls, ¬Current s call

def Numbered (s : State) : Prop := s.calls.Pairwise (fun a b => a.id < b.id) ∧ ∀ call ∈ s.calls, call.id < s.nextId

/-- The directory on screen is the one at the index of the trail, if there is one. -/
def Here (s : State) : Prop := s.nav.cwd = [] ∨ At s.nav s.nav.cwd

/-- A move is under way. -/
def Moving (s : State) : Prop := ∃ call ∈ s.calls, Current s call ∧ moves call.pending = true

structure Booked (s : State) : Prop where
  numbered : Numbered s
  tickets : ∀ call ∈ s.calls, ∀ ticket, ticketOf call.pending = some ticket → ticket ≤ s.nav.navTicket
  sole : ∀ a ∈ s.calls, ∀ b ∈ s.calls, Current s a → Current s b → a = b
  sound : Sound s.nav.trail s.nav.trailIndex
  parked : ∀ key trail, s.trails key = some trail → Sound trail.1 trail.2
  /-- A step along the trail is to a place that is there. -/
  back : ∀ call ∈ s.calls, ∀ dir next, call.pending = .list s.nav.navTicket dir (.jumped (some next)) →
    0 ≤ next ∧ s.nav.trail[next.toNat]? = some s.nav.cwd

structure Inv (s : State) : Prop where
  booked : Booked s
  here : Here s ∨ Moving s

/-- The trail, the calls and who owns the pane. -/
def pipeline (s : State) := (s.nav.cwd, s.nav.trail, s.nav.trailIndex, s.nav.navTicket, s.trails, s.calls, s.nextId)

/-- Nothing of the pipeline changes but that calls which do not own the pane may come and go. -/
structure Aside (s s' : State) : Prop where
  cwd : s'.nav.cwd = s.nav.cwd
  trail : s'.nav.trail = s.nav.trail
  index : s'.nav.trailIndex = s.nav.trailIndex
  ticket : s'.nav.navTicket = s.nav.navTicket
  trails : s'.trails = s.trails
  numbered : Numbered s → Numbered s'
  calls : ∀ call ∈ s'.calls, call ∈ s.calls ∨ ∀ ticket, ticketOf call.pending = some ticket → ticket < s.nav.navTicket
  current : ∀ call ∈ s.calls, Current s call → call ∈ s'.calls

namespace Aside

variable {s t u : State}

theorem refl (s : State) : Aside s s := ⟨rfl, rfl, rfl, rfl, rfl, id, fun _ h => .inl h, fun _ h _ => h⟩

theorem isCurrent (h : Aside s t) {call : Call} : Current t call ↔ Current s call := by
  unfold Current
  rw [h.ticket]

theorem trans (h : Aside s t) (h' : Aside t u) : Aside s u where
  cwd := h'.cwd.trans h.cwd
  trail := h'.trail.trans h.trail
  index := h'.index.trans h.index
  ticket := h'.ticket.trans h.ticket
  trails := h'.trails.trans h.trails
  numbered hs := h'.numbered (h.numbered hs)
  calls call hcall := (h'.calls call hcall).elim (h.calls call) fun hstale => .inr (h.ticket ▸ hstale)
  current call hcall hcurrent := h'.current call (h.current call hcall hcurrent) (h.isCurrent.mpr hcurrent)

theorem of_same {s' : State} (h : pipeline s' = pipeline s) : Aside s s' := by
  simp only [pipeline, Prod.mk.injEq] at h
  obtain ⟨hcwd, htrail, hindex, hticket, htrails, hcalls, hnext⟩ := h
  refine ⟨hcwd, htrail, hindex, hticket, htrails, fun hs => ?_, fun call hcall => .inl (hcalls ▸ hcall),
    fun call hcall _ => hcalls ▸ hcall⟩
  unfold Numbered
  rw [hcalls, hnext]
  exact hs

/-- A call that owns the pane was there before. -/
theorem owner (h : Aside s t) {call : Call} (hcall : call ∈ t.calls) (hcurrent : Current t call) :
    call ∈ s.calls ∧ Current s call :=
  ⟨(h.calls call hcall).resolve_right fun hstale => lt_irrefl _ (hstale _ (h.isCurrent.mp hcurrent)),
    h.isCurrent.mp hcurrent⟩

theorem at_iff (h : Aside s t) {dir : Path} : At t.nav dir ↔ At s.nav dir := by
  unfold At
  rw [h.trail, h.index]

theorem here (h : Aside s t) : Here t ↔ Here s := by
  unfold Here
  rw [h.cwd, h.at_iff]

theorem moving (h : Aside s t) : Moving s → Moving t := by
  rintro ⟨call, hcall, hcurrent, hmoves⟩
  exact ⟨call, h.current call hcall hcurrent, h.isCurrent.mpr hcurrent, hmoves⟩

theorem isFree (h : Aside s t) (hfree : Free s) : Free t := fun call hcall hcurrent =>
  hfree call (h.owner hcall hcurrent).1 (h.owner hcall hcurrent).2

theorem isBooked (h : Aside s t) (hs : Booked s) : Booked t where
  numbered := h.numbered hs.numbered
  tickets call hcall ticket hticket := by
    rw [h.ticket]
    rcases h.calls call hcall with hcall | hstale
    · exact hs.tickets call hcall ticket hticket
    · exact (hstale ticket hticket).le
  sole a ha b hb hca hcb :=
    hs.sole a (h.owner ha hca).1 b (h.owner hb hcb).1 (h.isCurrent.mp hca) (h.isCurrent.mp hcb)
  sound := by
    rw [h.trail, h.index]
    exact hs.sound
  parked := by
    rw [h.trails]
    exact hs.parked
  back call hcall dir next hpending := by
    have hcurrent : Current t call := by
      rw [Current, hpending]
      rfl
    rw [h.trail, h.cwd]
    exact hs.back call (h.owner hcall hcurrent).1 dir next (h.ticket ▸ hpending)

theorem inv (h : Aside s t) (hs : Inv s) : Inv t :=
  ⟨h.isBooked hs.booked, hs.here.imp h.here.mpr h.moving⟩

end Aside

/-! ## 3. What is aside of the pipeline -/

section

variable {s : State} {asked : Nat} {connection : ConnectionId}

variable {pending : Pending}

theorem numbered_park (h : Numbered s) : Numbered (s.park asked connection pending) := by
  refine ⟨List.pairwise_append.mpr ⟨h.1, List.pairwise_singleton _ _, fun a ha b hb => ?_⟩, fun call hcall => ?_⟩
  · rw [List.mem_singleton.mp hb]
    exact h.2 a ha
  · rcases List.mem_append.mp hcall with hcall | hcall
    · exact Nat.lt_succ_of_lt (h.2 call hcall)
    · rw [List.mem_singleton.mp hcall]
      exact Nat.lt_succ_self _

theorem aside_parkStale (h : ∀ ticket, ticketOf pending = some ticket → ticket < s.nav.navTicket) :
    Aside s (s.park asked connection pending) where
  cwd := rfl
  trail := rfl
  index := rfl
  ticket := rfl
  trails := rfl
  numbered := numbered_park
  calls call hcall := (List.mem_append.mp hcall).imp_right fun hnew => by
    rw [List.mem_singleton.mp hnew]
    exact h
  current call hcall _ := List.mem_append_left _ hcall

theorem aside_park (h : ticketOf pending = none) : Aside s (s.park asked connection pending) :=
  aside_parkStale fun ticket hticket => by rw [h] at hticket; cases hticket

theorem numbered_withoutCall (id : Nat) (h : Numbered s) : Numbered (s.withoutCall id) :=
  ⟨h.1.sublist List.filter_sublist, fun call hcall => h.2 call (List.mem_filter.mp hcall).1⟩

theorem Numbered.unique (h : Numbered s) {a b : Call} (ha : a ∈ s.calls) (hb : b ∈ s.calls) (hid : a.id = b.id) :
    a = b := by
  have hne : s.calls.Pairwise fun a b => a.id ≠ b.id := h.1.imp fun hlt => hlt.ne
  exact List.inj_on_of_nodup_map (List.pairwise_map.mpr hne) ha hb hid

theorem waiting_mem {id : Nat} {call : Call} (h : s.waiting id = some call) : call ∈ s.calls ∧ call.id = id := by
  have hfound := List.find?_some (show s.calls.find? (·.id = id) = some call from h)
  exact ⟨List.mem_of_find?_eq_some h, of_decide_eq_true hfound⟩

theorem mem_withoutCall {id : Nat} {call : Call} : call ∈ (s.withoutCall id).calls ↔ call ∈ s.calls ∧ call.id ≠ id := by
  unfold State.withoutCall
  rw [List.mem_filter, decide_eq_true_eq]

/-- A call that does not own the pane ends. -/
theorem aside_withoutCall {id : Nat} {call : Call} (hs : Numbered s) (h : s.waiting id = some call)
    (hstale : ¬Current s call) : Aside s (s.withoutCall id) where
  cwd := rfl
  trail := rfl
  index := rfl
  ticket := rfl
  trails := rfl
  numbered := numbered_withoutCall id
  calls other hother := .inl (mem_withoutCall.mp hother).1
  current other hother hcurrent := by
    obtain ⟨hcall, hid⟩ := waiting_mem h
    refine mem_withoutCall.mpr ⟨hother, fun heq => ?_⟩
    exact hstale (hs.unique hother hcall (heq.trans hid.symm) ▸ hcurrent)

theorem aside_remember (chosen : Bool) : Aside s (s.rememberPosition chosen) := by
  unfold State.rememberPosition
  split
  · exact .refl s
  · split <;> exact .of_same rfl

theorem aside_closeFile : Aside s s.closeFile :=
  Aside.trans (t := s.resetOpenFile) (.of_same rfl) (aside_remember true)

theorem aside_openFile {path : Path} {parent : Option Landing} : Aside s (s.openFile asked connection path parent) := by
  unfold State.openFile
  dsimp only
  refine Aside.trans (t := { s with
    doc := { openPath := some (if isAbsolute path then path else joinPosix s.nav.cwd path) }, opening := true,
    openTicket := s.openTicket + 1, history := { s.history with docOn := some connection } })
    (.of_same rfl) ?_
  exact aside_park rfl

theorem aside_openFinish {landing : Landing} : Aside s (s.openFinish asked connection landing) := by
  unfold State.openFinish
  split
  · exact .refl s
  refine (aside_remember false).trans ?_
  dsimp only
  -- What is left writes the note and the home.
  have hnote : Aside s.rememberResolved (if landing.note ≠ none ∧ s.rememberResolved.nav.error = none then
      s.rememberResolved.setError landing.note else s.rememberResolved) := by
    split <;> exact .of_same rfl
  refine hnote.trans ?_
  generalize (if landing.note ≠ none ∧ s.rememberResolved.nav.error = none then
      s.rememberResolved.setError landing.note else s.rememberResolved) = noted
  split
  · exact .refl noted
  split
  · exact .of_same rfl
  · exact aside_park rfl

variable {file : FileCall}

theorem aside_fileDone : Aside s (s.fileDone asked connection file) := by
  unfold State.fileDone
  have hopening : Aside s (if file.ticket = s.openTicket then { s with opening := false } else s) := by
    split <;> exact .of_same rfl
  refine hopening.trans ?_
  cases file.parent with
  | none => exact .refl _
  | some landing => exact aside_openFinish

variable {known : ConnectionId × Path → Option Text}

/-- The open file is not part of the pipeline. -/
theorem aside_showDone {doc : Doc} :
    Aside s (State.fileDone { s with doc, history := { s.history with known } } asked connection file) :=
  Aside.trans (t := { s with doc, history := { s.history with known } }) (.of_same rfl)
    aside_fileDone

theorem aside_showPark {doc : Doc} (h : ticketOf pending = none) :
    Aside s (State.park { s with doc, history := { s.history with known } } asked connection pending) :=
  Aside.trans (t := { s with doc, history := { s.history with known } }) (.of_same rfl)
    (aside_park h)

variable {platform : Platform}

theorem aside_presentDoc {bytes : List UInt8} :
    Aside s (s.presentDoc platform asked connection file bytes) := by
  unfold State.presentDoc
  dsimp only
  split
  · split
    · exact aside_showDone
    · exact aside_showPark rfl
  · split
    · split <;> exact aside_showDone
    · split <;> exact aside_showDone

theorem aside_afterStat {size : Option Nat} :
    Aside s (s.afterStat platform asked connection file size) := by
  unfold State.afterStat
  split
  · exact aside_fileDone
  · dsimp only
    split
    · exact aside_showDone
    · exact aside_park rfl

theorem aside_afterRead {size : Option Nat} {cap : Nat} {bytes : Option (List UInt8)} :
    Aside s (s.afterRead platform asked connection file size cap bytes) := by
  unfold State.afterRead
  split
  · exact aside_fileDone
  · cases bytes with
    | none => exact aside_showDone
    | some bytes =>
      dsimp only
      split
      · exact aside_showDone
      · exact aside_presentDoc

theorem aside_save : Aside s (s.save platform connection) := by
  unfold State.save
  split
  · exact .refl s
  · split
    · exact .refl s
    · exact Aside.trans (t := { s with saving := true, doc := { s.doc with fileError := none } })
        (.of_same rfl) (aside_park rfl)

theorem aside_written {path : Path} {content : Text} : Aside s (s.written asked connection path content) := by
  let saved : State := { s with
    doc := { s.doc with dirty := false },
    history := { s.history with
      known := Function.update s.history.known (connection, path) (some content) } }
  have hremember : Aside s saved.rememberHere :=
    Aside.trans (t := saved) (.of_same rfl) (aside_remember true)
  refine hremember.trans ?_
  unfold State.written
  dsimp only
  split
  · exact aside_park rfl
  · exact .of_same rfl

theorem aside_createEntry {raw : Text} {opens : Bool} : Aside s (s.createEntry connection raw opens) := by
  unfold State.createEntry
  dsimp only
  split
  · exact .refl s
  · split
    · exact .of_same rfl
    · exact Aside.trans (t := s.setError none) (.of_same rfl) (aside_park rfl)

theorem aside_deleteEntry {name : Text} : Aside s (s.deleteEntry connection name) := by
  unfold State.deleteEntry
  split
  · exact .refl s
  · split
    · exact .of_same rfl
    · exact Aside.trans (t := s.setError none) (.of_same rfl) (aside_park rfl)

/-- What follows a listing that is not a move is aside. -/
theorem aside_afterList {ticket : Nat} {after : AfterList} (h : ticket ≠ s.nav.navTicket ∨ movesAfter after = false) :
    Aside s (s.afterList asked connection ticket after) := by
  have hstays : movesAfter after = true → ticket ≠ s.nav.navTicket := fun hmoves =>
    h.resolve_right (by rw [hmoves]; decide)
  cases after with
  | done => exact .refl s
  | created abs opens =>
    cases opens
    · exact .refl s
    · exact aside_openFile
  | stayed next message =>
    rw [State.afterList]
    split <;> exact .of_same rfl
  | moved =>
    rw [State.afterList, if_pos (hstays rfl)]
    exact .refl s
  | jumped next =>
    cases next with
    | none =>
      rw [State.afterList, if_pos (hstays rfl)]
      exact .refl s
    | some next =>
      rw [State.afterList, if_pos (hstays rfl)]
      exact .refl s
  | opened landing =>
    rw [State.afterList]
    split
    · exact .refl s
    · split
      · exact aside_openFile
      · exact aside_openFinish

end

/-! ## 4. Taking and leaving the pane -/

section

variable {s : State} {asked : Nat} {connection : ConnectionId} {platform : Platform}

theorem booked_withoutCall (id : Nat) (h : Booked s) : Booked (s.withoutCall id) where
  numbered := numbered_withoutCall id h.numbered
  tickets call hcall := h.tickets call (mem_withoutCall.mp hcall).1
  sole a ha b hb := h.sole a (mem_withoutCall.mp ha).1 b (mem_withoutCall.mp hb).1
  sound := h.sound
  parked := h.parked
  back call hcall := h.back call (mem_withoutCall.mp hcall).1

/-- When the call that owns the pane ends, none does. -/
theorem free_withoutCall {id : Nat} {call : Call} (h : Booked s) (hwait : s.waiting id = some call)
    (hcurrent : Current s call) : Free (s.withoutCall id) := by
  intro other hother hother'
  obtain ⟨hmem, hid⟩ := waiting_mem hwait
  obtain ⟨hin, hne⟩ := mem_withoutCall.mp hother
  exact hne (h.sole other hin call hmem hother' hcurrent ▸ hid)

variable {pending : Pending}

/-- A call takes the pane that nobody owns. -/
theorem booked_park (h : Booked s) (hfree : Free s) (hticket : ticketOf pending = some s.nav.navTicket)
    (hback : ∀ dir next, pending = .list s.nav.navTicket dir (.jumped (some next)) →
      0 ≤ next ∧ s.nav.trail[next.toNat]? = some s.nav.cwd) : Booked (s.park asked connection pending) := by
  have hin : ∀ {call}, call ∈ (s.park asked connection pending).calls →
      call ∈ s.calls ∨ call = ⟨s.nextId, asked, connection, pending⟩ := fun hcall =>
    (List.mem_append.mp hcall).imp_right List.mem_singleton.mp
  refine ⟨numbered_park h.numbered, fun call hcall ticket heq => ?_, fun a ha b hb hca hcb => ?_, h.sound, h.parked,
    fun call hcall dir next hpending => ?_⟩
  · rcases hin hcall with hcall | rfl
    · exact h.tickets call hcall ticket heq
    · exact (Option.some.inj (heq.symm.trans hticket)).le
  · rcases hin ha with ha | rfl
    · exact absurd hca (hfree a ha)
    · rcases hin hb with hb | rfl
      · exact absurd hcb (hfree b hb)
      · rfl
  · rcases hin hcall with hcall | rfl
    · exact h.back call hcall dir next hpending
    · exact hback dir next hpending

/-- The call that was parked waits, and owns the pane. -/
theorem parked_current (hticket : ticketOf pending = some s.nav.navTicket) :
    ∃ call ∈ (s.park asked connection pending).calls, Current (s.park asked connection pending) call ∧
      call.pending = pending :=
  ⟨⟨s.nextId, asked, connection, pending⟩, List.mem_append_right _ List.mem_cons_self, hticket, rfl⟩

theorem booked_nextTicket (h : Booked s) : Booked s.nextTicket ∧ Free s.nextTicket := by
  have hfree : Free s.nextTicket := fun call hcall hcurrent =>
    absurd (h.tickets call hcall _ hcurrent) (Nat.not_succ_le_self _)
  refine ⟨⟨h.numbered, fun call hcall ticket heq => (h.tickets call hcall ticket heq).trans (Nat.le_succ _),
    fun a ha b hb hca _ => absurd hca (hfree a ha), h.sound, h.parked, fun call hcall dir next hpending => ?_⟩, hfree⟩
  exact absurd (show Current s.nextTicket call by rw [Current, hpending]; rfl) (hfree call hcall)

/-- While nobody owns the pane, the listing and the trail may be written. -/
theorem booked_nav {nav : Nav} (h : Booked s) (hfree : Free s) (hticket : nav.navTicket = s.nav.navTicket)
    (hsound : Sound nav.trail nav.trailIndex) : Booked { s with nav } ∧ Free { s with nav } := by
  have hfree' : Free { s with nav } := fun call hcall hcurrent => hfree call hcall (by
    rw [Current] at hcurrent ⊢
    rw [hcurrent]
    exact congrArg some hticket)
  refine ⟨⟨h.numbered, fun call hcall ticket heq => ?_, fun a ha b hb hca _ => absurd hca (hfree' a ha), hsound,
    h.parked, fun call hcall dir next hpending => ?_⟩, hfree'⟩
  · rw [show State.nav { s with nav } = nav from rfl, hticket]
    exact h.tickets call hcall ticket heq
  · exact absurd (show Current { s with nav } call by rw [Current, hpending]; rfl) (hfree' call hcall)

theorem booked_setCwd (dir : Path) (h : Booked s) (hfree : Free s) : Booked (s.setCwd dir) ∧ Free (s.setCwd dir) := by
  obtain ⟨hbooked, hfree'⟩ := @booked_nav s { s.nav with cwd := dir } h hfree rfl h.sound
  have haside : Aside { s with nav := { s.nav with cwd := dir } } (s.setCwd dir) :=
    .of_same rfl
  exact ⟨haside.isBooked hbooked, haside.isFree hfree'⟩

/-- What the trail is after a move to `nav.cwd`. -/
def trailAfter (nav : Nav) : AfterList → List Path × Int
  | .jumped (some next) => (nav.trail, next)
  | _ => ((nav.recordMove nav.cwd).trail, (nav.recordMove nav.cwd).trailIndex)

/-- A move has ended in `r`. -/
structure MoveEnds (s : State) (after : AfterList) (r : State) : Prop where
  booked : Booked r
  free : Free r
  here : At r.nav r.nav.cwd
  cwd : r.nav.cwd = s.nav.cwd
  ticket : r.nav.navTicket = s.nav.navTicket
  trail : (r.nav.trail, r.nav.trailIndex) = trailAfter s.nav after

variable {after : AfterList}

theorem moveEnds_recorded (h : Booked s) (hfree : Free s)
    (hafter : trailAfter s.nav after = trailAfter s.nav .moved) : MoveEnds s after (s.recordMove s.nav.cwd) := by
  obtain ⟨-, hcwd, -, -, hticket⟩ := s.nav.recordMove_same s.nav.cwd
  obtain ⟨hsound, hat⟩ := recordMove_sound h.sound s.nav.cwd
  obtain ⟨hbooked, hfree'⟩ := booked_nav h hfree hticket hsound
  refine ⟨hbooked, hfree', ?_, hcwd, hticket, hafter.symm⟩
  show At (s.nav.recordMove s.nav.cwd) (s.nav.recordMove s.nav.cwd).cwd
  rw [hcwd]
  exact hat

theorem MoveEnds.of_aside {t r : State} (haside : Aside s t) (h : MoveEnds t after r)
    (hafter : trailAfter t.nav after = trailAfter s.nav after) : MoveEnds s after r :=
  ⟨h.booked, h.free, h.here, h.cwd.trans haside.cwd, h.ticket.trans haside.ticket, h.trail.trans hafter⟩

/-- A move depends on the trail and the directory. -/
theorem trailAfter_congr {nav nav' : Nav} (hcwd : nav'.cwd = nav.cwd) (htrail : nav'.trail = nav.trail)
    (hindex : nav'.trailIndex = nav.trailIndex) (after : AfterList) : trailAfter nav' after = trailAfter nav after := by
  have hrecord : ((nav'.recordMove nav'.cwd).trail, (nav'.recordMove nav'.cwd).trailIndex) =
      ((nav.recordMove nav.cwd).trail, (nav.recordMove nav.cwd).trailIndex) := by
    unfold Nav.recordMove
    rw [hcwd, htrail, hindex]
    dsimp only
    split_ifs <;> rfl
  cases after with
  | jumped next =>
    cases next with
    | none => exact hrecord
    | some next => exact congrArg (·, next) htrail
  | _ => exact hrecord

theorem trailAfter_of_aside {t : State} (haside : Aside s t) (after : AfterList) :
    trailAfter t.nav after = trailAfter s.nav after :=
  trailAfter_congr haside.cwd haside.trail haside.index after

/-- A jump along the trail lands where the trail says. -/
def LandsAt (nav : Nav) (after : AfterList) : Prop :=
  ∀ next, after = .jumped (some next) → 0 ≤ next ∧ nav.trail[next.toNat]? = some nav.cwd

/-- The listing of a move is back. -/
theorem afterList_moveEnds (h : Booked s) (hfree : Free s) (hmoves : movesAfter after = true)
    (hback : LandsAt s.nav after) :
    MoveEnds s after (s.afterList asked connection s.nav.navTicket after) := by
  have haside : Aside s s.rememberHere := aside_remember true
  have hrecorded : ∀ {after}, trailAfter s.rememberHere.nav after = trailAfter s.rememberHere.nav .moved →
      MoveEnds s after (s.rememberHere.recordMove s.nav.cwd) := fun hafter => by
    have hends := moveEnds_recorded (haside.isBooked h) (haside.isFree hfree) hafter
    rw [haside.cwd] at hends
    exact hends.of_aside haside (trailAfter_of_aside haside _)
  cases after with
  | moved =>
    rw [State.afterList, if_neg (not_not.mpr rfl)]
    exact hrecorded rfl
  | jumped next =>
    cases next with
    | none =>
      rw [State.afterList, if_neg (not_not.mpr rfl)]
      exact hrecorded rfl
    | some next =>
      rw [State.afterList, if_neg (not_not.mpr rfl)]
      obtain ⟨hpos, hat⟩ := hback next rfl
      have hsound : Sound s.nav.trail next := by
        refine ⟨fun _ => ⟨hpos, ?_⟩, h.sound.bounded, h.sound.apart⟩
        have hlt := (List.getElem?_eq_some_iff.mp hat).1
        omega
      obtain ⟨hbooked, hfree'⟩ := @booked_nav s.rememberHere { s.rememberHere.nav with trailIndex := next }
        (haside.isBooked h) (haside.isFree hfree) rfl (haside.trail ▸ hsound)
      refine ⟨hbooked, hfree', ⟨hpos, ?_⟩, haside.cwd, haside.ticket, congrArg (·, next) haside.trail⟩
      show s.rememberHere.nav.trail[next.toNat]? = some s.rememberHere.nav.cwd
      rw [haside.trail, haside.cwd]
      exact hat
  | _ => cases hmoves

/-- A pipeline goes on from a directory: it lists it, or has ended. -/
theorem refreshWith_inv (h : Booked s) (hfree : Free s) (hhere : movesAfter after = false → Here s)
    (hback : LandsAt s.nav after) :
    Inv (s.refreshWith asked connection s.nav.navTicket after) := by
  unfold State.refreshWith
  split
  · cases hmoves : movesAfter after with
    | true =>
      have hends := @afterList_moveEnds s asked connection after h hfree hmoves hback
      exact ⟨hends.booked, .inl (.inr hends.here)⟩
    | false => exact (aside_afterList (.inr hmoves)).inv ⟨h, .inl (hhere hmoves)⟩
  · have haside : Aside s { s with nav := { s.nav with loading := true, error := none } } :=
      .of_same rfl
    have hbooked := @booked_park { s with nav := { s.nav with loading := true, error := none } } asked connection
      (.list s.nav.navTicket s.nav.cwd after) (haside.isBooked h) (haside.isFree hfree) rfl
      fun dir next heq => by
        obtain ⟨-, rfl, hafter⟩ := Pending.list.inj heq
        exact hback next hafter
    refine ⟨hbooked, ?_⟩
    cases hmoves : movesAfter after with
    | true => exact .inr ⟨_, List.mem_append_right _ List.mem_cons_self, rfl, hmoves⟩
    | false => exact .inl (hhere hmoves)

theorem inv_refresh (h : Inv s) (hhere : Here s) (hafter : movesAfter after = false) :
    Inv (s.refresh asked connection after) := by
  obtain ⟨hbooked, hfree⟩ := booked_nextTicket h.booked
  refine refreshWith_inv hbooked hfree (fun _ => hhere) fun next heq => ?_
  rw [heq] at hafter
  cases hafter

theorem inv_jump {path : Path} {next : Option Int} (h : Inv s)
    (hback : ∀ place, next = some place → 0 ≤ place ∧ s.nav.trail[place.toNat]? = some path) :
    Inv (s.jump connection path next) := by
  obtain ⟨hbooked, hfree⟩ := booked_nextTicket h.booked
  obtain ⟨hbooked, hfree⟩ := booked_setCwd path hbooked hfree
  refine refreshWith_inv hbooked hfree (fun hmoves => by cases hmoves) fun place heq => ?_
  exact hback place (AfterList.jumped.inj heq)

theorem stepTrail_cases (delta : Int) : s.stepTrail connection delta = s ∨
    ∃ target, 0 ≤ s.nav.trailIndex + delta ∧ s.nav.trail[(s.nav.trailIndex + delta).toNat]? = some target ∧
      s.stepTrail connection delta = s.jump connection target (some (s.nav.trailIndex + delta)) := by
  unfold State.stepTrail
  dsimp only
  split
  · exact .inl rfl
  next hpos =>
    split
    · exact .inl rfl
    next target htarget => exact .inr ⟨target, not_lt.mp hpos, htarget, rfl⟩

theorem inv_stepTrail {delta : Int} (h : Inv s) : Inv (s.stepTrail connection delta) := by
  rcases @stepTrail_cases s connection delta with heq | ⟨target, hpos, htarget, heq⟩
  · rw [heq]
    exact h
  · rw [heq]
    refine inv_jump h fun place hplace => ?_
    obtain rfl := Option.some.inj hplace
    exact ⟨hpos, htarget⟩

/-- A call of a move takes the pane. -/
theorem inv_parkMove (h : Booked s) (hfree : Free s)
    (hticket : ticketOf pending = some s.nav.navTicket) (hmoves : moves pending = true)
    (hlist : ∀ ticket dir after, pending ≠ .list ticket dir after) : Inv (s.park asked connection pending) := by
  refine ⟨booked_park h hfree hticket fun dir next heq => absurd heq (hlist _ _ _), .inr ?_⟩
  obtain ⟨call, hcall, hcurrent, rfl⟩ := @parked_current s asked connection pending hticket
  exact ⟨call, hcall, hcurrent, hmoves⟩

theorem stash_ticket : s.stash.nav.navTicket = s.nav.navTicket := by
  unfold State.stash
  split
  · rfl
  split
  · rfl
  · exact (aside_remember false).ticket

theorem booked_stash (h : Booked s) : Booked s.stash := by
  unfold State.stash
  split
  · exact h
  split
  · exact h
  next key _ _ =>
    have hremember : Booked s.rememberResolved := (aside_remember false).isBooked h
    refine ⟨hremember.numbered, hremember.tickets, hremember.sole, hremember.sound, fun other trail htrail => ?_,
      hremember.back⟩
    dsimp only at htrail
    rw [Function.update_apply] at htrail
    split at htrail
    · obtain rfl := Option.some.inj htrail
      exact h.sound
    · exact h.parked other trail htrail

theorem inv_openTab {startPath sessionKey : Option Text} (h : Inv s) :
    Inv (s.openTab connection startPath sessionKey) := by
  have hstash := booked_stash h.booked
  obtain ⟨hbooked, hfree⟩ := booked_nextTicket hstash
  unfold State.openTab
  dsimp only
  generalize (connection, (sessionKey.or startPath).getD []) = key
  have hsound : Sound ((s.stash.trails key).getD ([], -1)).1 ((s.stash.trails key).getD ([], -1)).2 := by
    cases htrail : s.stash.trails key with
    | none => exact ⟨fun hne => absurd rfl hne, Nat.zero_le _, List.isChain_nil⟩
    | some trail => exact hstash.parked key trail htrail
  let nav : Nav := { s.stash.nav with
    trail := ((s.stash.trails key).getD ([], -1)).1, trailIndex := ((s.stash.trails key).getD ([], -1)).2,
    error := none, navTicket := s.stash.nav.navTicket + 1 }
  obtain ⟨hbooked, hfree⟩ := @booked_nav s.stash.nextTicket nav hbooked hfree rfl hsound
  have haside : Aside { s.stash.nextTicket with nav } { s.stash with
      currentKey := some key, nav, history := { s.stash.history with shown := some connection } } :=
    .of_same rfl
  exact inv_parkMove (haside.isBooked hbooked) (haside.isFree hfree) rfl rfl fun ticket dir after heq => by cases heq

theorem inv_land {landing : Landing} (h : Booked s) (hfree : Free s) (hticket : landing.call.ticket = s.nav.navTicket) :
    Inv (s.land platform asked connection landing) := by
  unfold State.land
  rw [if_neg (not_not.mpr hticket)]
  have howner : Aside s { s with history := { s.history with owner := some landing.call.key } } :=
    .of_same rfl
  obtain ⟨hbooked, hfree⟩ := booked_setCwd landing.resolved (howner.isBooked h) (howner.isFree hfree)
  have hends := @moveEnds_recorded _ .moved hbooked hfree rfl
  have haside : Aside _ (s.landed platform landing) :=
    @Aside.of_same ((State.setCwd { s with history := { s.history with owner := some landing.call.key } }
      landing.resolved).recordMove landing.resolved) _ rfl
  have hnow : landing.call.ticket = (s.landed platform landing).nav.navTicket :=
    hticket.trans (haside.ticket.trans hends.ticket).symm
  rw [hnow]
  refine refreshWith_inv (haside.isBooked hends.booked) (haside.isFree hends.free)
    (fun _ => haside.here.mpr (.inr hends.here)) fun next heq => by cases heq

end

/-! ## 5. Steps -/

/-- The answers a call can have. -/
def fits : Pending → Answer → Bool
  | .openResolve _, .path _ => true
  | .openHome _ _, .path _ => true
  | .homeFetch, .path _ => true
  | .cdResolve _ _, .path _ => true
  | .list _ _ _, .listing _ => true
  | .stat _, .size _ => true
  | .read _ _ _, .bytes _ => true
  | .mint _, .done => true
  | .write _ _, .done => true
  | .saveMint, .done => true
  | .create _ _, .done => true
  | .delete _, .done => true
  | _, .failed _ => true
  | _, _ => false

/-- What one tab sees: all but a disconnect, and answers of the kind that is asked for. -/
def Plays (s : State) : Action → Prop
  | .clear _ => False
  | .reply id answer => ∀ call, s.waiting id = some call → fits call.pending answer = true
  | _ => True

/-- A change of the directory: the pane is listed again. -/
def relists : Pending → Answer → Bool
  | .create _ _, .done => true
  | .delete _, .done => true
  | _, _ => false

/-- After this answer the pane rests in the directory on screen. -/
def rests (s : State) : Pending → Answer → Prop
  | .cdResolve ticket _, .failed _ => ticket = s.nav.navTicket
  | .openHome o _, .failed _ => o.ticket = s.nav.navTicket
  | .create _ _, .done => True
  | .delete _, .done => True
  | _, _ => False

theorem rests_relists {s : State} {pending : Pending} {answer : Answer} (h : relists pending answer = true) :
    rests s pending answer := by
  cases pending <;> cases answer <;> trivial

/-- A step that lets the pane rest does so in a directory that is in the trail. -/
def Careful (s : State) : Action → Prop
  | .refresh _ => Here s
  | .reply id answer => ∀ call, s.waiting id = some call → rests s call.pending answer → Here s
  | _ => True

section

variable {s : State} {asked : Nat} {connection : ConnectionId} {platform : Platform}

theorem aside_listingEnds {dir : Path} {answer : Except Text (List DirEntry)} :
    Aside s (s.listingEnds platform connection dir answer) := by
  cases answer <;> exact .of_same rfl

/-- The listing of the pane is back. -/
theorem inv_listed {dir : Path} {after : AfterList} {answer : Except Text (List DirEntry)} (h : Booked s)
    (hfree : Free s) (hhere : movesAfter after = false → Here s)
    (hback : LandsAt s.nav after) :
    Inv (s.listed platform asked connection s.nav.navTicket dir after answer) := by
  have haside : Aside s (s.listingEnds platform connection dir answer) := aside_listingEnds
  unfold State.listed
  rw [if_neg (not_not.mpr rfl), ← haside.ticket]
  cases hmoves : movesAfter after with
  | true =>
    have hends := @afterList_moveEnds _ asked connection after (haside.isBooked h) (haside.isFree hfree) hmoves
      (by rw [LandsAt, haside.trail, haside.cwd]; exact hback)
    exact ⟨hends.booked, .inl (.inr hends.here)⟩
  | false => exact (aside_afterList (.inr hmoves)).inv ⟨haside.isBooked h, .inl (haside.here.mpr (hhere hmoves))⟩

theorem aside_deleted_before {abs : Path} : Aside s (if s.lostWith abs then s.closeFile else s) := by
  split
  · exact aside_closeFile
  · exact .refl s

theorem Inv.of_same {s' : State} (h : Inv s) (hsame : pipeline s' = pipeline s) : Inv s' :=
  (Aside.of_same hsame).inv h

variable {call : Call} {answer : Answer}

/-- A call that does not own the pane goes on. -/
theorem resume_aside
    (hticket : ∀ ticket, ticketOf call.pending = some ticket → ticket < s.nav.navTicket)
    (hquiet : relists call.pending answer = false) : Aside s (s.resume platform call answer) := by
  unfold State.resume
  cases hpending : call.pending with
  | openResolve o =>
    rw [hpending] at hticket
    have hstale := hticket _ rfl
    cases answer with
    | path resolved =>
      dsimp only
      rw [State.land, if_pos hstale.ne]
      exact .refl s
    | failed message => exact aside_parkStale hticket
    | _ => exact .refl s
  | openHome o message =>
    rw [hpending] at hticket
    have hstale := hticket _ rfl
    cases answer with
    | path resolved =>
      dsimp only
      rw [State.land, if_pos hstale.ne]
      exact .refl s
    | failed message =>
      dsimp only
      rw [if_pos hstale.ne]
      exact .refl s
    | _ => exact .refl s
  | homeFetch =>
    cases answer with
    | path home => exact .of_same rfl
    | _ => exact .refl s
  | list ticket dir after =>
    rw [hpending] at hticket
    have hstale := hticket _ rfl
    have hlisted : ∀ answer, Aside s (s.listed platform call.asked call.connection ticket dir after answer) := by
      intro answer
      unfold State.listed
      rw [if_pos hstale.ne]
      exact aside_afterList (.inl hstale.ne)
    cases answer with
    | listing rows => exact hlisted _
    | failed message => exact hlisted _
    | _ => exact .refl s
  | cdResolve ticket next =>
    rw [hpending] at hticket
    have hstale := hticket _ rfl
    cases answer with
    | path resolved =>
      dsimp only
      rw [if_pos hstale.ne]
      exact .refl s
    | failed message =>
      dsimp only
      rw [if_pos hstale.ne]
      exact .refl s
    | _ => exact .refl s
  | stat file =>
    cases answer with
    | size size => exact aside_afterStat
    | failed message => exact aside_afterStat
    | _ => exact .refl s
  | read file size cap =>
    cases answer with
    | bytes bytes => exact aside_afterRead
    | failed message => exact aside_afterRead
    | _ => exact .refl s
  | mint file =>
    cases answer with
    | done => exact aside_fileDone
    | failed message => exact aside_fileDone
    | _ => exact .refl s
  | write path content =>
    cases answer with
    | done => exact aside_written
    | failed message => exact .of_same rfl
    | _ => exact .refl s
  | saveMint =>
    cases answer with
    | done => exact .of_same rfl
    | failed message => exact .of_same rfl
    | _ => exact .refl s
  | create abs opens =>
    rw [hpending] at hquiet
    cases answer with
    | done => cases hquiet
    | failed message => exact .of_same rfl
    | _ => exact .refl s
  | delete abs =>
    rw [hpending] at hquiet
    cases answer with
    | done => cases hquiet
    | failed message => exact .of_same rfl
    | _ => exact .refl s

/-- The directory was changed: it is listed with a ticket of its own. -/
theorem resume_relists (h : relists call.pending answer = true) :
    ∃ t after, Aside s t ∧ movesAfter after = false ∧
      s.resume platform call answer = t.refresh call.asked call.connection after := by
  unfold State.resume
  cases hpending : call.pending with
  | create abs opens =>
    rw [hpending] at h
    cases answer with
    | done => exact ⟨s, .created abs opens, .refl s, rfl, rfl⟩
    | _ => cases h
  | delete abs =>
    rw [hpending] at h
    cases answer with
    | done => exact ⟨_, .done, aside_deleted_before, rfl, rfl⟩
    | _ => cases h
  | _ =>
    rw [hpending] at h
    cases answer <;> cases h

theorem inv_other (h : Inv s)
    (hticket : ∀ ticket, ticketOf call.pending = some ticket → ticket < s.nav.navTicket)
    (hrests : relists call.pending answer = true → Here s) : Inv (s.resume platform call answer) := by
  cases hrelists : relists call.pending answer with
  | false => exact (resume_aside hticket hrelists).inv h
  | true =>
    obtain ⟨t, after, haside, hafter, heq⟩ := @resume_relists s platform call answer hrelists
    rw [heq]
    exact inv_refresh (haside.inv h) (haside.here.mpr (hrests hrelists)) hafter

/-- The call that owned the pane goes on. -/
theorem inv_owner (h : Booked s) (hfree : Free s)
    (hticket : ticketOf call.pending = some s.nav.navTicket) (hfits : fits call.pending answer = true)
    (hhere : moves call.pending = false → Here s) (hrests : rests s call.pending answer → Here s)
    (hback : ∀ dir next, call.pending = .list s.nav.navTicket dir (.jumped (some next)) →
      0 ≤ next ∧ s.nav.trail[next.toNat]? = some s.nav.cwd) : Inv (s.resume platform call answer) := by
  unfold State.resume
  cases hpending : call.pending with
  | openResolve o =>
    rw [hpending] at hticket hfits
    have hnow : o.ticket = s.nav.navTicket := Option.some.inj hticket
    cases answer with
    | path resolved => exact inv_land h hfree hnow
    | failed message => exact inv_parkMove h hfree hticket rfl fun ticket dir after heq => by cases heq
    | _ => cases hfits
  | openHome o message =>
    rw [hpending] at hticket hfits hrests
    have hnow : o.ticket = s.nav.navTicket := Option.some.inj hticket
    cases answer with
    | path resolved => exact inv_land h hfree hnow
    | failed message =>
      dsimp only
      rw [if_neg (not_not.mpr hnow)]
      exact Inv.of_same ⟨h, .inl (hrests hnow)⟩ rfl
    | _ => cases hfits
  | list ticket dir after =>
    rw [hpending] at hticket hfits hhere hback
    obtain rfl : ticket = s.nav.navTicket := Option.some.inj hticket
    have hlisted : ∀ answer, Inv (s.listed platform call.asked call.connection s.nav.navTicket dir after answer) :=
      fun answer => inv_listed h hfree hhere fun next hafter => hback dir next (by rw [hafter])
    cases answer with
    | listing rows => exact hlisted _
    | failed message => exact hlisted _
    | _ => cases hfits
  | cdResolve ticket next =>
    rw [hpending] at hticket hfits hrests
    obtain rfl : ticket = s.nav.navTicket := Option.some.inj hticket
    cases answer with
    | path resolved =>
      dsimp only
      rw [if_neg (not_not.mpr rfl)]
      obtain ⟨hbooked, hfree⟩ := booked_setCwd resolved h hfree
      exact refreshWith_inv hbooked hfree (fun hmoves => by cases hmoves) fun next heq => by cases heq
    | failed message =>
      dsimp only
      rw [if_neg (not_not.mpr rfl)]
      exact refreshWith_inv h hfree (fun _ => hrests rfl) fun next heq => by cases heq
    | _ => cases hfits
  | _ =>
    rw [hpending] at hticket
    cases hticket

theorem inv_reply {id : Nat} (h : Inv s) (hwait : s.waiting id = some call)
    (hfits : fits call.pending answer = true) (hrests : rests s call.pending answer → Here s) :
    Inv ((s.withoutCall id).resume platform call answer) := by
  obtain ⟨hmem, -⟩ := waiting_mem hwait
  have hrests' : rests (s.withoutCall id) call.pending answer → Here (s.withoutCall id) := hrests
  by_cases hcurrent : Current s call
  · refine inv_owner (booked_withoutCall id h.booked) (free_withoutCall h.booked hwait hcurrent) hcurrent hfits
      (fun hstays => h.here.resolve_right ?_) hrests' fun dir next => h.booked.back call hmem dir next
    rintro ⟨other, hother, hother', hmoves⟩
    rw [h.booked.sole other hother call hmem hother' hcurrent, hstays] at hmoves
    cases hmoves
  · have haside := aside_withoutCall h.booked.numbered hwait hcurrent
    refine inv_other (haside.inv h) (fun ticket hticket => ?_) fun hrelists => hrests' (rests_relists hrelists)
    refine lt_of_le_of_ne (h.booked.tickets call hmem ticket hticket) fun heq => hcurrent ?_
    exact hticket.trans (congrArg some heq)

theorem inv_step {a : Action} (h : Inv s) (hplays : Plays s a) (hcareful : Careful s a) :
    Inv (step platform s a) := by
  refine @Inv.of_same (act platform s a) _ ?_ rfl
  cases a with
  | «open» connection startPath sessionKey => exact inv_openTab h
  | openFile connection path => exact aside_openFile.inv h
  | setContent content => exact h.of_same rfl
  | save connection => exact aside_save.inv h
  | closeFile => exact aside_closeFile.inv h
  | createEntry connection raw opens => exact aside_createEntry.inv h
  | deleteEntry connection name => exact aside_deleteEntry.inv h
  | refresh connection => exact inv_refresh h hcareful rfl
  | cd connection dir =>
    obtain ⟨hbooked, hfree⟩ := booked_nextTicket h.booked
    exact inv_parkMove hbooked hfree rfl rfl fun ticket dir after heq => by cases heq
  | goTo connection path => exact inv_jump h fun place heq => by cases heq
  | goBack connection => exact inv_stepTrail h
  | goForward connection => exact inv_stepTrail h
  | clear connection => exact hplays.elim
  | reply id answer =>
    cases hwait : s.waiting id with
    | none => simpa only [act, hwait] using h
    | some call => simpa only [act, hwait] using inv_reply h hwait (hplays call hwait) (hcareful call hwait)

end

/-! ## 6. Runs -/

section

variable {platform : Platform}

def CarefulFrom (platform : Platform) : State → List Action → Prop
  | _, [] => True
  | s, a :: rest => Plays s a ∧ Careful s a ∧ CarefulFrom platform (step platform s a) rest

theorem inv_run {actions : List Action} : ∀ {s : State}, Inv s → CarefulFrom platform s actions →
    Inv (run platform s actions) := by
  induction actions with
  | nil => exact fun hs _ => hs
  | cons a rest ih =>
    rintro s hs ⟨hplays, hcareful, hrest⟩
    exact ih (inv_step hs hplays hcareful) hrest

theorem inv_start : Inv {} := by
  have hnone : ∀ {p : Call → Prop}, ∀ call ∈ ([] : List Call), p call := fun _ h => by cases h
  exact ⟨⟨⟨List.Pairwise.nil, hnone⟩, hnone, hnone, ⟨fun h => absurd rfl h, Nat.zero_le _, List.isChain_nil⟩,
    fun _ _ h => (by cases h), hnone⟩, .inl (.inl rfl)⟩

end

/-! ## 7. Moves that nothing takes over -/

section

variable {s : State} {asked : Nat} {connection : ConnectionId} {platform : Platform}

variable {after : AfterList}

theorem afterList_ticket {ticket : Nat} :
    (s.afterList asked connection ticket after).nav.navTicket = s.nav.navTicket := by
  by_cases haside : ticket ≠ s.nav.navTicket ∨ movesAfter after = false
  · exact (aside_afterList haside).ticket
  have hremember := (@aside_remember s true).ticket
  have hrecord : (s.rememberHere.recordMove s.rememberHere.nav.cwd).nav.navTicket = s.nav.navTicket :=
    (s.rememberHere.nav.recordMove_same _).2.2.2.2.trans hremember
  obtain ⟨hticket, hmoves⟩ := not_or.mp haside
  cases after with
  | moved =>
    rw [State.afterList, if_neg hticket]
    exact (s.rememberHere.nav.recordMove_same _).2.2.2.2.trans hremember
  | jumped next =>
    cases next with
    | none =>
      rw [State.afterList, if_neg hticket]
      exact (s.rememberHere.nav.recordMove_same _).2.2.2.2.trans hremember
    | some next =>
      rw [State.afterList, if_neg hticket]
      exact hremember
  | _ => exact absurd rfl hmoves

theorem refreshWith_ticket {ticket : Nat} :
    (s.refreshWith asked connection ticket after).nav.navTicket = s.nav.navTicket := by
  unfold State.refreshWith
  split
  · exact afterList_ticket
  · rfl

/-- A step that does not take the pane is aside, or answers the call that owns it. -/
theorem step_undisturbed {a : Action} (h : Inv s) (hplays : Plays s a)
    (hticket : (step platform s a).nav.navTicket = s.nav.navTicket) :
    (∃ id answer call, a = .reply id answer ∧ s.waiting id = some call ∧ Current s call) ∨
      Aside s (step platform s a) := by
  have htick : ∀ {t : State}, Aside s t → Aside s t.tick := fun haside =>
    haside.trans (.of_same rfl)
  have htaken : ∀ {t : State}, t.nav.navTicket = s.nav.navTicket + 1 → t.nav.navTicket ≠ s.nav.navTicket :=
    fun heq heq' => absurd (heq.symm.trans heq') (Nat.succ_ne_self _)
  have hsteps : ∀ connection delta, (s.stepTrail connection delta).nav.navTicket = s.nav.navTicket →
      Aside s (s.stepTrail connection delta) := by
    intro connection delta hsame
    rcases @stepTrail_cases s connection delta with heq | ⟨target, -, -, heq⟩
    · rw [heq]
      exact .refl s
    · rw [heq] at hsame
      exact absurd hsame (htaken refreshWith_ticket)
  cases a with
  | «open» connection startPath sessionKey =>
    refine absurd hticket (htaken ?_)
    exact congrArg Nat.succ stash_ticket
  | openFile connection path => exact .inr (htick aside_openFile)
  | setContent content => exact .inr (.of_same rfl)
  | save connection => exact .inr (htick aside_save)
  | closeFile => exact .inr (htick aside_closeFile)
  | createEntry connection raw opens => exact .inr (htick aside_createEntry)
  | deleteEntry connection name => exact .inr (htick aside_deleteEntry)
  | refresh connection => exact absurd hticket (htaken refreshWith_ticket)
  | cd connection dir => exact absurd hticket (htaken rfl)
  | goTo connection path => exact absurd hticket (htaken refreshWith_ticket)
  | goBack connection => exact .inr (htick (hsteps connection (-1) hticket))
  | goForward connection => exact .inr (htick (hsteps connection 1 hticket))
  | clear connection => exact hplays.elim
  | reply id answer =>
    cases hwait : s.waiting id with
    | none =>
      have hsame : act platform s (.reply id answer) = s := by simp only [act, hwait]
      refine .inr (htick ?_)
      rw [hsame]
      exact .refl s
    | some call =>
      have hact : act platform s (.reply id answer) = (s.withoutCall id).resume platform call answer := by
        simp only [act, hwait]
      obtain ⟨hmem, -⟩ := waiting_mem hwait
      by_cases hcurrent : Current s call
      · exact .inl ⟨id, answer, call, rfl, hwait, hcurrent⟩
      have hended := aside_withoutCall h.booked.numbered hwait hcurrent
      have hstale : ∀ ticket, ticketOf call.pending = some ticket → ticket < s.nav.navTicket := fun ticket heq =>
        lt_of_le_of_ne (h.booked.tickets call hmem ticket heq) fun hnow => hcurrent (heq.trans (congrArg some hnow))
      cases hrelists : relists call.pending answer with
      | false =>
        refine .inr (htick ?_)
        rw [hact]
        exact hended.trans (resume_aside hstale hrelists)
      | true =>
        obtain ⟨t, after, haside, -, heq⟩ := @resume_relists (s.withoutCall id) platform call answer hrelists
        have hnow : (act platform s (.reply id answer)).nav.navTicket = s.nav.navTicket := hticket
        rw [hact, heq] at hnow
        exact absurd hnow (htaken (refreshWith_ticket.trans (congrArg Nat.succ haside.ticket)))

/-- The call that owns the pane. -/
def Owns (s : State) (p : Pending → Prop) : Prop := ∃ call ∈ s.calls, Current s call ∧ p call.pending

/-- The trail is that of `nav`. -/
def SameTrail (nav : Nav) (s : State) : Prop := s.nav.trail = nav.trail ∧ s.nav.trailIndex = nav.trailIndex

/-- How far a move from `nav` has come, to a directory with `p`. A `cd` that cannot be resolved
comes to rest where it was. -/
inductive Way (nav : Nav) (after : AfterList) (p : Path → Prop) (s : State) : Prop
  | resolving : after = .moved → Owns s (fun pending => ∃ ticket next, pending = .cdResolve ticket next) →
      s.nav.cwd = nav.cwd → SameTrail nav s → Way nav after p s
  | listing : Owns s (fun pending => ∃ ticket dir, pending = .list ticket dir after) →
      p s.nav.cwd → SameTrail nav s → Way nav after p s
  | ended : Free s → p s.nav.cwd →
      (s.nav.trail, s.nav.trailIndex) = trailAfter { nav with cwd := s.nav.cwd } after → Way nav after p s
  | resting : after = .moved →
      Owns s (fun pending => ∃ ticket dir next message, pending = .list ticket dir (.stayed next message)) →
      s.nav.cwd = nav.cwd → SameTrail nav s → Way nav after p s
  | failed : after = .moved → Free s → s.nav.cwd = nav.cwd → SameTrail nav s → Way nav after p s

variable {t : State}

theorem Owns.aside {p : Pending → Prop} (haside : Aside s t) : Owns s p → Owns t p := by
  rintro ⟨call, hcall, hcurrent, hpending⟩
  exact ⟨call, haside.current call hcall hcurrent, haside.isCurrent.mpr hcurrent, hpending⟩

variable {nav : Nav}

theorem SameTrail.aside (haside : Aside s t) (h : SameTrail nav s) : SameTrail nav t :=
  ⟨haside.trail.trans h.1, haside.index.trans h.2⟩

variable {p : Path → Prop}

theorem Way.aside (haside : Aside s t) (h : Way nav after p s) : Way nav after p t := by
  cases h with
  | resolving hafter howns hcwd hsame =>
    exact .resolving hafter (howns.aside haside) (haside.cwd.trans hcwd) (hsame.aside haside)
  | listing howns hdir hsame => exact .listing (howns.aside haside) (haside.cwd.symm ▸ hdir) (hsame.aside haside)
  | ended hfree hdir htrail =>
    refine .ended (haside.isFree hfree) (haside.cwd.symm ▸ hdir) ?_
    rw [haside.trail, haside.index, haside.cwd]
    exact htrail
  | resting hafter howns hcwd hsame =>
    exact .resting hafter (howns.aside haside) (haside.cwd.trans hcwd) (hsame.aside haside)
  | failed hafter hfree hcwd hsame =>
    exact .failed hafter (haside.isFree hfree) (haside.cwd.trans hcwd) (hsame.aside haside)

/-- A move that has ended is a way that has. -/
theorem MoveEnds.way {r : State} (h : MoveEnds s after r)
    (hdir : p s.nav.cwd) (hsame : SameTrail nav s) : Way nav after p r := by
  refine .ended h.free (h.cwd.symm ▸ hdir) (h.trail.trans ?_)
  exact @trailAfter_congr { nav with cwd := r.nav.cwd } s.nav h.cwd.symm hsame.1 hsame.2 after

/-- A move lists its directory. -/
theorem refreshWith_way (h : Booked s) (hfree : Free s) (hmoves : movesAfter after = true)
    (hback : LandsAt s.nav after)
    (hdir : p s.nav.cwd) (hsame : SameTrail nav s) :
    Way nav after p (s.refreshWith asked connection s.nav.navTicket after) := by
  unfold State.refreshWith
  split
  · exact (afterList_moveEnds h hfree hmoves hback).way hdir hsame
  · exact .listing ⟨_, List.mem_append_right _ List.mem_cons_self, rfl, _, _, rfl⟩ hdir hsame

theorem jump_way {path : Path} {next : Option Int} (h : Inv s)
    (hback : ∀ place, next = some place → 0 ≤ place ∧ s.nav.trail[place.toNat]? = some path) :
    Way s.nav (.jumped next) (· = path) (s.jump connection path next) := by
  obtain ⟨hbooked, hfree⟩ := booked_nextTicket h.booked
  obtain ⟨hbooked, hfree⟩ := booked_setCwd path hbooked hfree
  exact refreshWith_way hbooked hfree rfl (fun place heq => hback place (AfterList.jumped.inj heq)) rfl ⟨rfl, rfl⟩

theorem cd_way {dir : Path} : Way s.nav .moved (fun _ => True) (s.cd connection dir) :=
  .resolving rfl ⟨_, List.mem_append_right _ List.mem_cons_self, rfl, _, _, rfl⟩ rfl ⟨rfl, rfl⟩

/-- The answer to the call that owns the pane takes a move further. -/
theorem way_reply {id : Nat} {call : Call} {answer : Answer}
    (h : Inv s) (hmoves : movesAfter after = true) (hany : after = .moved → ∀ dir, p dir)
    (hway : Way nav after p s) (hwait : s.waiting id = some call) (hcurrent : Current s call)
    (hfits : fits call.pending answer = true) :
    Way nav after p ((s.withoutCall id).resume platform call answer) := by
  obtain ⟨hmem, -⟩ := waiting_mem hwait
  have hbooked := booked_withoutCall id h.booked
  have hfree := free_withoutCall h.booked hwait hcurrent
  have howner : ∀ {p : Pending → Prop}, Owns s p → p call.pending := by
    rintro p ⟨other, hother, hother', hpending⟩
    exact h.booked.sole other hother call hmem hother' hcurrent ▸ hpending
  have hnow : ¬s.nav.navTicket ≠ (s.withoutCall id).nav.navTicket := not_not.mpr rfl
  -- A listing goes on when it is back, whether it failed or not.
  have hlisted : ∀ {dir after}, call.pending = .list s.nav.navTicket dir after →
      ∃ t, Aside (s.withoutCall id) t ∧ (s.withoutCall id).resume platform call answer =
        t.afterList call.asked call.connection t.nav.navTicket after := by
    intro dir after hpending
    have hstill : ∀ answer, ∃ t, Aside (s.withoutCall id) t ∧
        (s.withoutCall id).listed platform call.asked call.connection s.nav.navTicket dir after answer =
          t.afterList call.asked call.connection t.nav.navTicket after := by
      intro answer
      have haside : Aside (s.withoutCall id) ((s.withoutCall id).listingEnds platform call.connection dir answer) :=
        aside_listingEnds
      refine ⟨_, haside, ?_⟩
      unfold State.listed
      rw [if_neg hnow, haside.ticket]
      rfl
    unfold State.resume
    rw [hpending] at hfits ⊢
    cases answer with
    | listing rows => exact hstill _
    | failed message => exact hstill _
    | _ => cases hfits
  cases hway with
  | resolving hafter howns hcwd hsame =>
    subst hafter
    obtain ⟨ticket, next, hpending⟩ := howner howns
    rw [Current, hpending] at hcurrent
    obtain rfl : ticket = s.nav.navTicket := Option.some.inj hcurrent
    unfold State.resume
    rw [hpending] at hfits ⊢
    cases answer with
    | path resolved =>
      dsimp only
      rw [if_neg hnow]
      obtain ⟨hbooked, hfree⟩ := booked_setCwd resolved hbooked hfree
      exact refreshWith_way hbooked hfree rfl (fun next heq => by cases heq) (hany rfl _) hsame
    | failed message =>
      dsimp only
      rw [if_neg hnow]
      unfold State.refreshWith
      split
      · exact .aside (aside_afterList (.inr rfl)) (.failed rfl hfree hcwd hsame)
      · exact .resting rfl ⟨_, List.mem_append_right _ List.mem_cons_self, rfl, _, _, _, _, rfl⟩ hcwd hsame
    | _ => cases hfits
  | listing howns hdir hsame =>
    obtain ⟨ticket, dir, hpending⟩ := howner howns
    rw [Current, hpending] at hcurrent
    obtain rfl : ticket = s.nav.navTicket := Option.some.inj hcurrent
    obtain ⟨t, haside, heq⟩ := hlisted hpending
    rw [heq]
    refine (afterList_moveEnds (haside.isBooked hbooked) (haside.isFree hfree) hmoves fun next hafter => ?_).way
      (haside.cwd.symm ▸ hdir) (hsame.aside (haside : Aside (s.withoutCall id) t))
    rw [haside.trail, haside.cwd]
    exact h.booked.back call hmem dir next (hafter ▸ hpending)
  | ended hfree' _ _ => exact absurd hcurrent (hfree' call hmem)
  | resting hafter howns hcwd hsame =>
    obtain ⟨ticket, dir, next, message, hpending⟩ := howner howns
    rw [Current, hpending] at hcurrent
    obtain rfl : ticket = s.nav.navTicket := Option.some.inj hcurrent
    obtain ⟨t, haside, heq⟩ := hlisted hpending
    rw [heq]
    have hfailed : Way nav after p (s.withoutCall id) := .failed hafter hfree hcwd hsame
    exact (hfailed.aside haside).aside (aside_afterList (.inr rfl))
  | failed hafter hfree' _ _ => exact absurd hcurrent (hfree' call hmem)

/-- Steps during which the pane is not taken. -/
def Undisturbed (platform : Platform) : State → List Action → Prop
  | _, [] => True
  | s, a :: rest => Plays s a ∧ Careful s a ∧ (step platform s a).nav.navTicket = s.nav.navTicket ∧
      Undisturbed platform (step platform s a) rest

/-- The pane is taken by `a`, and not again before the call that owns it has ended. -/
structure Completes (platform : Platform) (s : State) (a : Action) (steps : List Action) (s' : State) : Prop where
  starts : (step platform s a).nav.navTicket = s.nav.navTicket + 1
  undisturbed : Undisturbed platform (step platform s a) steps
  ends : s' = run platform (step platform s a) steps
  free : Free s'

theorem way_run (hmoves : movesAfter after = true)
    (hany : after = .moved → ∀ dir, p dir) : ∀ {steps : List Action} {s : State}, Inv s → Way nav after p s →
      Undisturbed platform s steps → Inv (run platform s steps) ∧ Way nav after p (run platform s steps) := by
  intro steps
  induction steps with
  | nil => exact fun hs hway _ => ⟨hs, hway⟩
  | cons a rest ih =>
    rintro s hs hway ⟨hplays, hcareful, hticket, hrest⟩
    refine ih (inv_step hs hplays hcareful) ?_ hrest
    rcases @step_undisturbed s platform a hs hplays hticket with ⟨id, answer, call, rfl, hwait, hcurrent⟩ | haside
    · have hact : act platform s (.reply id answer) = (s.withoutCall id).resume platform call answer := by
        simp only [act, hwait]
      have htick : Aside (act platform s (.reply id answer)) (step platform s (.reply id answer)) :=
        .of_same rfl
      refine Way.aside htick ?_
      rw [hact]
      exact way_reply hs hmoves hany hway hwait hcurrent (hplays call hwait)
    · exact hway.aside haside

/-- A way whose call has ended. -/
theorem Way.freed (h : Way nav after p s) (hfree : Free s) :
    p s.nav.cwd ∧ (s.nav.trail, s.nav.trailIndex) = trailAfter { nav with cwd := s.nav.cwd } after ∨
      after = .moved ∧ s.nav.cwd = nav.cwd ∧ SameTrail nav s := by
  have hnone : ∀ {p : Pending → Prop}, ¬Owns s p := by
    rintro p ⟨call, hcall, hcurrent, -⟩
    exact hfree call hcall hcurrent
  cases h with
  | resolving _ howns _ _ => exact absurd howns hnone
  | listing howns _ _ => exact absurd howns hnone
  | ended _ hdir htrail => exact .inl ⟨hdir, htrail⟩
  | resting _ howns _ _ => exact absurd howns hnone
  | failed hafter _ hcwd hsame => exact .inr ⟨hafter, hcwd, hsame⟩

theorem completes_way {a : Action} {steps : List Action}
    (h : Inv s) (hcompletes : Completes platform s a steps t) (hmoves : movesAfter after = true)
    (hany : after = .moved → ∀ dir, p dir) (hplays : Plays s a) (hcareful : Careful s a)
    (hway : Way nav after p (act platform s a)) :
    Inv t ∧ (p t.nav.cwd ∧ (t.nav.trail, t.nav.trailIndex) = trailAfter { nav with cwd := t.nav.cwd } after ∨
      after = .moved ∧ t.nav.cwd = nav.cwd ∧ SameTrail nav t) := by
  have htick : Aside (act platform s a) (step platform s a) := .of_same rfl
  have hrun := @way_run platform after nav p hmoves hany steps _ (inv_step h hplays hcareful) (hway.aside htick)
    hcompletes.undisturbed
  rw [← hcompletes.ends] at hrun
  exact ⟨hrun.1, hrun.2.freed hcompletes.free⟩

/-- A step along the trail that completes. -/
theorem completes_step {a : Action} {delta : Int} {steps : List Action} (h : Inv s)
    (hcompletes : Completes platform s a steps t) (hact : act platform s a = s.stepTrail connection delta)
    (hplays : Plays s a) (hcareful : Careful s a) :
    Inv t ∧ s.nav.trail[(s.nav.trailIndex + delta).toNat]? = some t.nav.cwd ∧ t.nav.trail = s.nav.trail ∧
      t.nav.trailIndex = s.nav.trailIndex + delta := by
  rcases @stepTrail_cases s connection delta with heq | ⟨target, hpos, htarget, heq⟩
  · have hstarts := hcompletes.starts
    have hticket : (act platform s a).nav.navTicket = s.nav.navTicket := by rw [hact, heq]
    exact absurd (hticket.symm.trans hstarts) (Nat.succ_ne_self _).symm
  · have hway : Way s.nav (.jumped (some (s.nav.trailIndex + delta))) (· = target) (act platform s a) := by
      rw [hact, heq]
      refine jump_way h fun place hplace => ?_
      obtain rfl := Option.some.inj hplace
      exact ⟨hpos, htarget⟩
    obtain ⟨ht, hend | ⟨hafter, -⟩⟩ := completes_way h hcompletes rfl (fun hafter => by cases hafter) hplays
      hcareful hway
    · obtain ⟨hcwd, htrail⟩ := hend
      obtain ⟨htrail, hindex⟩ := Prod.mk.inj htrail
      exact ⟨ht, hcwd.symm ▸ htarget, htrail, hindex⟩
    · cases hafter

/-- Neither a listing nor a directory is waited for. -/
def Quiet (s : State) : Prop := ∀ call ∈ s.calls, ticketOf call.pending = none

/-- The forward part is gone, and nothing else. -/
structure Drops (s t : State) : Prop where
  trail : t.nav.trail = s.nav.trail.take (s.nav.trailIndex + 1).toNat ++
    if t.nav.cwd = s.nav.cwd then [] else [t.nav.cwd]
  index : t.nav.trailIndex = (t.nav.trail.length : Int) - 1

/-- The trail is the history of a browser. -/
structure IsHistory (platform : Platform) (s : State) : Prop where
  here : Quiet s → s.nav.cwd ≠ [] → 0 ≤ s.nav.trailIndex ∧ s.nav.trail[s.nav.trailIndex.toNat]? = some s.nav.cwd
  bounded : s.nav.trail.length ≤ TRAIL_MAX
  apart : s.nav.trail.IsChain (· ≠ ·)
  returns : At s.nav s.nav.cwd → ∀ connection steps t connection' steps' u,
    Completes platform s (.goBack connection) steps t → Completes platform t (.goForward connection') steps' u →
      u.nav.cwd = s.nav.cwd ∧ u.nav.trail = s.nav.trail ∧ u.nav.trailIndex = s.nav.trailIndex
  goesTo : At s.nav s.nav.cwd → s.nav.trailIndex < (s.nav.trail.length : Int) - 1 → ∀ connection path steps t,
    Completes platform s (.goTo connection path) steps t → t.nav.cwd = path ∧ Drops s t
  /-- A directory that cannot be resolved is no move. -/
  cds : At s.nav s.nav.cwd → s.nav.trailIndex < (s.nav.trail.length : Int) - 1 → ∀ connection dir steps t,
    Completes platform s (.cd connection dir) steps t →
      t.nav.cwd = s.nav.cwd ∧ t.nav.trail = s.nav.trail ∧ t.nav.trailIndex = s.nav.trailIndex ∨ Drops s t

theorem drops_recorded (h : Inv s) (hhere : At s.nav s.nav.cwd)
    (hahead : s.nav.trailIndex < (s.nav.trail.length : Int) - 1)
    (hafter : trailAfter { s.nav with cwd := t.nav.cwd } after = trailAfter { s.nav with cwd := t.nav.cwd } .moved)
    (htrail : (t.nav.trail, t.nav.trailIndex) = trailAfter { s.nav with cwd := t.nav.cwd } after) : Drops s t := by
  obtain ⟨htrail, hindex⟩ := Prod.mk.inj (htrail.trans hafter)
  obtain ⟨hdrops, hlast⟩ := @recordMove_drops { s.nav with cwd := t.nav.cwd } s.nav.cwd h.booked.sound hhere hahead
    t.nav.cwd
  refine ⟨htrail.trans hdrops, ?_⟩
  rw [hindex, htrail]
  exact hlast

theorem history_of_inv (h : Inv s) : IsHistory platform s where
  here hquiet hcwd := by
    rcases h.here with (hnone | hat) | ⟨call, hcall, hcurrent, -⟩
    · exact absurd hnone hcwd
    · exact hat
    · exact absurd ((hquiet call hcall).symm.trans hcurrent) (by simp)
  bounded := h.booked.sound.bounded
  apart := h.booked.sound.apart
  returns hhere connection steps t connection' steps' u hback hforward := by
    obtain ⟨ht, -, htrail, hindex⟩ := completes_step h hback rfl trivial trivial
    obtain ⟨-, hcwd, htrail', hindex'⟩ := completes_step ht hforward rfl trivial trivial
    have hsame : t.nav.trailIndex + 1 = s.nav.trailIndex := by omega
    rw [htrail, hsame, hhere.2] at hcwd
    exact ⟨(Option.some.inj hcwd).symm, htrail'.trans htrail, hindex'.trans hsame⟩
  goesTo hhere hahead connection path steps t hcompletes := by
    obtain ⟨-, ⟨hcwd, htrail⟩ | ⟨hafter, -⟩⟩ := completes_way h hcompletes rfl (fun hafter => by cases hafter)
      trivial trivial (jump_way h fun place heq => by cases heq)
    · exact ⟨hcwd, drops_recorded h hhere hahead rfl htrail⟩
    · cases hafter
  cds hhere hahead connection dir steps t hcompletes := by
    obtain ⟨-, ⟨-, htrail⟩ | ⟨-, hcwd, htrail, hindex⟩⟩ := completes_way h hcompletes rfl (fun _ _ => trivial)
      trivial trivial cd_way
    · exact .inr (drops_recorded h hhere hahead rfl htrail)
    · exact .inl ⟨hcwd, htrail, hindex⟩

/-- In every state of a run in which the pane only comes to rest in a directory of the trail, the
trail is the history of a browser. -/
theorem trail_history (platform : Platform) (actions : List Action) (h : CarefulFrom platform {} actions) :
    IsHistory platform (run platform {} actions) := history_of_inv (inv_run inv_start h)

end

def textPlatform : Platform where
  classifyByName _ := .text
  classifyBytes _ _ := .text
  decode bytes := bytes.map fun b => b.toUInt16
  before a b := a.isDir || !b.isDir
  write := true
  maxReadBytes := none

/-- The tab is opened with the home `/a`, goes to `/b` and back. -/
def wentBack : List Action :=
  [.open (ascii "h") none none, .reply 0 (.path (ascii "/a")), .reply 1 (.listing []),
    .goTo (ascii "h") (ascii "/b"), .reply 2 (.listing []), .goBack (ascii "h"), .reply 3 (.listing [])]

theorem trail_history_back : IsHistory textPlatform (run textPlatform {} wentBack) := by
  refine trail_history textPlatform wentBack ⟨trivial, trivial, ?_, ?_, ?_, ?_, trivial, trivial, ?_, ?_, trivial,
    trivial, ?_, ?_, trivial⟩
  all_goals
    intro call hcall
    obtain rfl := Option.some.inj hcall
    first | rfl | exact fun hrests => False.elim hrests

/-- `/b` is listed again before it is in the trail. -/
def relisted : List Action :=
  wentBack.take 4 ++ [.refresh (ascii "h"), .reply 2 (.listing []), .reply 3 (.listing [])]

theorem trail_separated :
    (run textPlatform {} relisted).calls = [] ∧ (run textPlatform {} relisted).nav.cwd = ascii "/b" ∧
      (run textPlatform {} relisted).nav.trail = [ascii "/a"] ∧ (run textPlatform {} relisted).nav.trailIndex = 0 ∧
      ¬IsHistory textPlatform (run textPlatform {} relisted) := by
  have hcalls : (run textPlatform {} relisted).calls = [] := by decide
  have hcwd : (run textPlatform {} relisted).nav.cwd = ascii "/b" := by decide
  have htrail : (run textPlatform {} relisted).nav.trail = [ascii "/a"] := by decide
  have hindex : (run textPlatform {} relisted).nav.trailIndex = 0 := by decide
  refine ⟨hcalls, hcwd, htrail, hindex, fun h => ?_⟩
  have hquiet : Quiet (run textPlatform {} relisted) := fun call hcall => by
    rw [hcalls] at hcall
    cases hcall
  have hat := (h.here hquiet (by rw [hcwd]; decide)).2
  rw [hcwd, htrail, hindex] at hat
  exact absurd hat (by decide)

end PocketShell.Files.Trail
