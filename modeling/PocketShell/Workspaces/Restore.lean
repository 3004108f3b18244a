import PocketShell.Workspaces.Lock

/-!
# The one-time restore

* `NeverUndone`: no restore registers a root that the user removed before.
* `Careful`: the removals that the ledger of the restore is ready for.
* `Fair`: what a run from one await to the next does to storage and to what happened.
-/

namespace PocketShell.Workspaces

open Js (Text JsInteger keys ascii)
open RestoredWorkspaceRootsLedger (has read parse)

/-! ## What is guaranteed -/

/-- A removal of the root at the host succeeded. -/
def Removed (log : List Event) (host path : Text) : Prop := .returned host (.remove path) true ∈ log

/-- No restore sends a root that was removed on that host before. `same` tells which
spellings name one root. -/
def NeverUndone (same : Text → Text → Bool) (log : List Event) : Prop :=
  ∀ earlier later host root, log = earlier ++ .sent host (.add root) .restore :: later →
    ∀ path, Removed earlier host path → same root path = false

/-- The selection offers the root as one a previous client kept. -/
def WorkspaceRootsSelection.offers (same : Text → Text → Bool) (selection : WorkspaceRootsSelection)
    (path : Text) : Bool :=
  selection.previousRoots.any fun previous => previous.roots.any (same · path)

def isRestore : Event → Bool
  | .sent _ _ .restore => true
  | _ => false

def Parked.isRestoring : Parked → Bool
  | .restoring .. => true
  | _ => false

section

variable (N : Type) [JsInteger N] (same : Text → Text → Bool)

/-- No removed root is offered while the ledger does not have the host: neither is one
removed that the selection offers, nor is one offered that was removed. -/
def Careful (app : App) : Action → Prop
  | .select (some selection) => has N app.s.storage selection.hostIdentity = true ∨
      ∀ path, Removed app.s.log selection.hostIdentity path → selection.offers same path = false
  | .reply i (.ok _) => ∀ selection operation path success,
      app.parked[i]? = some (.changing selection operation (.remove path) success) →
      operation.epoch = app.s.epoch →
      has N app.s.storage selection.hostIdentity = true ∨ selection.offers same path = false
  | _ => True

/-- The runs whose steps all meet `ok`, from a new process over the storage. -/
inductive Reached (ok : App → Action → Prop) (app : App) : App → Prop
  | refl : Reached ok app app
  | step {app' : App} (refuses : Refusals) (action : Action) :
      Reached ok app app' → ok app' action → Reached ok app (app'.step N refuses action)

def anyAction : App → Action → Prop := fun _ _ => True

def launched (refuses : Refusals) (storage : Storage) : App := ⟨launch N refuses storage [], []⟩

/-! ## A run between two awaits -/

/-- The root was not removed at the host. -/
def Kept (log : List Event) (host root : Text) : Prop :=
  ∀ path, Removed log host path → same root path = false

/-- What an event that is not a removal says of the state before. `under` tells that the
restore is under way already. -/
def Fine (under : Prop) (s : State) : Event → Prop
  | .listed _ => True
  | .sent host (.add root) .restore => Kept same s.log host root ∧ (under ∨ has N s.storage host = false)
  | .sent _ (.remove _) .restore => False
  | .sent _ _ .user => True
  | .returned _ (.remove _) true => False
  | .returned _ _ _ => True
  | .seeded host before => ¬hasOrder N before host

/-- What a parked call of the current epoch holds on to is current. -/
def Parked.Current (s : State) : Parked → Prop
  | .listing selection epoch _ _ _ => epoch ≤ s.epoch ∧ (epoch = s.epoch → s.selection = some selection)
  | .restoring selection operation rest _ _ _ => operation.epoch ≤ s.epoch ∧
      (operation.epoch = s.epoch → s.selection = some selection ∧
        ∀ root ∈ rest, Kept same s.log selection.hostIdentity root)
  | .changing selection operation _ _ => operation.epoch ≤ s.epoch ∧
      (operation.epoch = s.epoch → s.selection = some selection)
  | .returning _ _ => True

/-- The hosts of the stored order are those of the document in memory. -/
def Remembers (s : State) : Prop :=
  ∀ host, hasOrder N s.storage.order host → host ∈ keys s.order.document.hosts

/-- The current selection offers no root that was removed while the ledger does not
have its host. -/
def Recorded (s : State) : Prop := ∀ selection, s.selection = some selection →
  has N s.storage selection.hostIdentity = true ∨
    ∀ path, Removed s.log selection.hostIdentity path → selection.offers same path = false

/-- No removal succeeds, and what is sent and seeded is fine. -/
structure Fair (under : Prop) (s : State) (r : State.Ran) : Prop where
  selection : r.1.selection = s.selection
  epoch : r.1.epoch = s.epoch
  ledger : ∀ host, has N s.storage host = true → has N r.1.storage host = true
  remembers : Remembers N r.1
  log : ∃ events, r.1.log = s.log ++ events ∧ ∀ e ∈ events, Fine N same under s e
  current : ∀ p ∈ r.2, p.Current same r.1
  idle : ∀ p ∈ r.2, p.isRestoring = true → under ∨ ∃ host, has N s.storage host = false

end

variable {N : Type} [JsInteger N] {same : Text → Text → Bool} {under : Prop} {s s' : State} {r : State.Ran}
  {refuses : Refusals}

/-- Events that are fine are no removals. -/
theorem removed_append {events : List Event} (h : ∀ e ∈ events, Fine N same under s e) {log : List Event}
    {host path : Text} : Removed (log ++ events) host path ↔ Removed log host path := by
  unfold Removed
  rw [List.mem_append]
  exact ⟨fun hmem => hmem.elim id fun hmem => (h _ hmem).elim, .inl⟩

namespace Fair

theorem kept (h : Fair N same under s r) {host root : Text} :
    Kept same r.1.log host root ↔ Kept same s.log host root := by
  obtain ⟨events, hlog, hfine⟩ := h.log
  unfold Kept
  rw [hlog]
  exact forall_congr' fun path => imp_congr_left (removed_append hfine)

/-- What a run starts from. -/
def source (s : State) := (s.selection, s.epoch, s.storage, s.order, s.log)

/-- A run goes on from what another one left. -/
theorem trans (h : Fair N same under s (s', none)) (h' : Fair N same under s' r) : Fair N same under s r := by
  obtain ⟨events, hlog, hfine⟩ := h.log
  obtain ⟨events', hlog', hfine'⟩ := h'.log
  have hclosed : ∀ host, has N s'.storage host = false → has N s.storage host = false := by
    intro host hhas
    refine Bool.eq_false_iff.mpr fun htrue => ?_
    rw [h.ledger host htrue] at hhas
    cases hhas
  refine ⟨h'.selection.trans h.selection, h'.epoch.trans h.epoch, fun host hhas =>
    h'.ledger host (h.ledger host hhas), h'.remembers, ⟨events ++ events', ?_, ?_⟩, h'.current, ?_⟩
  · rw [hlog', hlog, List.append_assoc]
  · intro e he
    rcases List.mem_append.mp he with he | he
    · exact hfine e he
    · have := hfine' e he
      match e with
      | .listed _ => trivial
      | .sent host (.add root) .restore =>
        exact ⟨h.kept.mp this.1, this.2.imp id (hclosed host)⟩
      | .sent _ (.add _) .user => trivial
      | .sent _ (.remove _) .user => trivial
      | .returned _ (.add _) _ => trivial
      | .returned _ (.remove _) false => trivial
      | .seeded _ _ => exact this
  · intro p hp hrestoring
    exact (h'.idle p hp hrestoring).imp id fun ⟨host, hhas⟩ => ⟨host, hclosed host hhas⟩

theorem of_same (h : source s' = source s) (hs : Remembers N s) : Fair N same under s (s', none) := by
  simp only [source, Prod.mk.injEq] at h
  obtain ⟨hselection, hepoch, hstorage, horder, hlog⟩ := h
  refine ⟨hselection, hepoch, fun host hhas => by rwa [hstorage], ?_, ⟨[], ?_, ?_⟩, ?_, ?_⟩
  · intro host hhost
    rw [hstorage] at hhost
    rw [horder]
    exact hs host hhost
  · rw [hlog, List.append_nil]
  · exact fun e he => by cases he
  · exact fun p hp => by cases hp
  · exact fun p hp => by cases hp

/-- The run of a state that was only marked. -/
theorem marked (k : Remembers N s' → Fair N same under s' r) (h : source s' = source s) (hs : Remembers N s) :
    Fair N same under s r :=
  have hmarked : Fair N same under s (s', none) := of_same h hs
  hmarked.trans (k hmarked.remembers)

/-- What is parked holds on to nothing. -/
theorem answer (hs : Remembers N s) (outcome : Except Text Unit) (frames : List Frame) :
    Fair N same under s (s.answer outcome frames) := by
  have hlog : ∃ events, s.log = s.log ++ events ∧ ∀ e ∈ events, Fine N same under s e :=
    ⟨[], (List.append_nil _).symm, fun e he => by cases he⟩
  unfold State.answer
  cases frames with
  | nil => exact ⟨rfl, rfl, fun _ h => h, hs, hlog, fun p hp => (by cases hp), fun p hp => by cases hp⟩
  | cons frame frames =>
    refine ⟨rfl, rfl, fun _ h => h, hs, hlog, fun p hp => ?_, fun p hp hrestoring => ?_⟩
    · cases hp
      trivial
    · cases hp
      cases hrestoring

theorem list (hs : Remembers N s) (frames : List Frame) : Fair N same under s (s.list frames) := by
  unfold State.list
  split
  · exact answer hs _ _
  · next selection hselection =>
    refine ⟨rfl, rfl, fun _ h => h, hs, ⟨[.listed selection.hostIdentity], rfl, ?_⟩, ?_, ?_⟩
    · intro e he
      cases List.mem_singleton.mp he
      trivial
    · intro p hp
      cases hp
      exact ⟨le_rfl, fun _ => hselection⟩
    · intro p hp hrestoring
      cases hp
      cases hrestoring

theorem flushRelist (hs : Remembers N s) (frames : List Frame) :
    Fair N same under s (s.flushRelist frames) := by
  unfold State.flushRelist
  split
  · exact answer hs _ _
  · exact marked (fun h => list h frames) rfl hs

theorem settleSuperseded (hs : Remembers N s) (selection : WorkspaceRootsSelection) (frames : List Frame) :
    Fair N same under s (s.settleSuperseded selection frames) := by
  unfold State.settleSuperseded
  split
  · exact answer hs _ _
  split
  · exact marked (fun h => answer h _ _) rfl hs
  · exact list hs frames

theorem finish (hs : Remembers N s) (operation : Operation) (outcome : Except Text Unit)
    (frames : List Frame) : Fair N same under s (s.finish operation outcome frames) := by
  unfold State.finish
  dsimp only
  split
  · exact marked (fun h => flushRelist h _) rfl hs
  · exact marked (fun h => answer h _ _) rfl hs

/-- One event that is fine. -/
theorem addLog (hs : Remembers N s) {event : Event} (h : Fine N same under s event) :
    Fair N same under s (s.addLog event, none) := by
  refine ⟨rfl, rfl, fun _ h => h, hs, ⟨[event], rfl, ?_⟩, fun p hp => (by cases hp), fun p hp => by cases hp⟩
  intro e he
  cases List.mem_singleton.mp he
  exact h

theorem returned (hs : Remembers N s) {event : Event} (h : Fine N same under s event)
    (outcome : Except Text Unit) (frames : List Frame) :
    Fair N same under s ((s.addLog event).answer outcome frames) :=
  have hlogged : Fair N same under s (s.addLog event, none) := addLog hs h
  hlogged.trans (answer hlogged.remembers outcome frames)

theorem settled (hs : Remembers N s) (selection : WorkspaceRootsSelection) (change : Option Change) :
    Fair N same under s (s.settled selection change, none) := by
  unfold State.settled
  cases change with
  | none => exact of_same rfl hs
  | some change => exact addLog hs (by cases change <;> trivial)

theorem resume (hs : Remembers N s) (outcome : Except Text Unit) (frames : List Frame) :
    Fair N same under s (s.resume outcome frames) := by
  unfold State.resume
  split
  · exact answer hs (.ok ()) []
  · exact finish hs _ _ _
  · cases outcome with
    | ok => exact answer hs _ _
    | error error => exact answer hs _ _
  · next selection change caught frames =>
    cases outcome with
    | ok =>
      have h : Fair N same under s (s.settled selection change, none) := settled hs selection change
      exact h.trans (answer h.remembers _ _)
    | error error =>
      dsimp only
      split
      · exact answer hs _ _
      · exact settleSuperseded hs _ _

variable {selection : WorkspaceRootsSelection}

variable {previous : PreviousWorkspaceRoots}

/-- The order of the previous client goes to a host that has none. -/
theorem seedOrder (hs : Remembers N s) (h : s.seedOrder N refuses selection previous = .ok s') :
    Fair N same under s (s', none) := by
  unfold State.seedOrder at h
  obtain ⟨seeded, hseed, h⟩ := SavedHosts.bind_ok h
  cases seeded with
  | none =>
    cases h
    exact of_same rfl hs
  | some written =>
    cases h
    obtain ⟨hnew, hcommitted⟩ := WorkspaceRootOrderStore.seed_ok hseed
    have hstorage : written.2.restored = s.storage.restored := by rw [hcommitted]; rfl
    refine ⟨rfl, rfl, fun host hhas => ?_, fun host hhost => hcommitted.remembers hhost,
      ⟨[.seeded selection.hostIdentity s.storage.order], rfl, ?_⟩, fun p hp => (by cases hp),
      fun p hp => by cases hp⟩
    · exact (RestoredWorkspaceRootsLedger.has_congr hstorage).trans hhas
    · intro e he
      cases List.mem_singleton.mp he
      exact fun hhost => hnew (hs _ hhost)

variable {frames : List Frame}

variable {latest : List WorkspaceMembership}

/-- The next root of a restore is sent. -/
theorem sendRoot (hs : Remembers N s) {operation : Operation}
    {root : Text} {rest : List Text} {missing : Nat}
    (hpast : operation.epoch ≤ s.epoch)
    (hselection : operation.epoch = s.epoch → s.selection = some selection)
    (hkept : ∀ r ∈ root :: rest, Kept same s.log selection.hostIdentity r)
    (hopen : under ∨ has N s.storage selection.hostIdentity = false) :
    Fair N same under s (s.sendRoot selection operation root rest missing latest frames) := by
  obtain ⟨hroot, hrest⟩ := List.forall_mem_cons.mp hkept
  have hfine : ∀ e ∈ [Event.sent selection.hostIdentity (.add root) .restore], Fine N same under s e := by
    intro e he
    cases List.mem_singleton.mp he
    exact ⟨hroot, hopen⟩
  refine ⟨rfl, rfl, fun _ h => h, hs, ⟨_, rfl, hfine⟩, fun p hp => ?_, fun p hp _ => hopen.imp id (⟨_, ·⟩)⟩
  cases hp
  exact ⟨hpast, fun hepoch => ⟨hselection hepoch, fun r hr path hpath =>
    hrest r hr path ((removed_append hfine).mp hpath)⟩⟩

/-- The ledger has one host more. -/
theorem stored (hs : Remembers N s) {host : Text} {storage : Storage}
    (h : RestoredWorkspaceRootsLedger.add N refuses s.storage host = .ok storage) :
    Fair N same under s ({ s with storage := storage }, none) := by
  have horder : storage.order = s.storage.order := by
    unfold RestoredWorkspaceRootsLedger.add at h
    split at h
    · cases h
      rfl
    · split at h
      · cases h
        rfl
      · cases setItem_ok h
        rfl
  refine ⟨rfl, rfl, fun _ hhas => RestoredWorkspaceRootsLedger.has_add h hhas, fun host hhost => ?_,
    ⟨[], (List.append_nil _).symm, fun e he => by cases he⟩, fun p hp => (by cases hp), fun p hp => by cases hp⟩
  have hhost' : hasOrder N storage.order host := hhost
  rw [horder] at hhost'
  exact hs host hhost'

theorem decideRestore (hs : Remembers N s) (hrecorded : Recorded N same s)
    (hselection : s.selection = some selection) (hprevious : selection.previousRoots = some previous)
    (memberships : List WorkspaceMembership) (frames : List Frame) :
    Fair N same under s (s.decideRestore N refuses selection previous memberships frames) := by
  unfold State.decideRestore
  split
  · exact marked (fun h => answer h _ _) rfl hs
  split
  · exact answer hs _ _
  next hhas =>
  have hopen : has N s.storage selection.hostIdentity = false := Bool.eq_false_iff.mpr hhas
  split
  · split
    · exact answer hs _ _
    · next storage hadd =>
      have hledger : Fair N same under s ({ s with storage := storage }, none) := stored hs hadd
      exact hledger.trans (answer hledger.remembers _ _)
  · next root rest hmissing =>
    -- what is missing was offered, and what is offered was not removed
    have hkept : ∀ r ∈ State.missingRoots previous memberships, Kept same s.log selection.hostIdentity r := by
      intro r hr path hpath
      rcases hrecorded selection hselection with hrec | hrec
      · rw [hopen] at hrec
        cases hrec
      · have hoffers := hrec path hpath
        unfold WorkspaceRootsSelection.offers at hoffers
        rw [hprevious, Option.any_some, List.any_eq_false] at hoffers
        exact Bool.eq_false_iff.mpr (hoffers r (List.mem_of_mem_filter hr))
    rw [hmissing] at hkept
    exact marked (fun h => sendRoot h le_rfl (fun _ => hselection) hkept (.inr hopen))
      rfl hs

theorem recorded (h : Fair N same under s r) (hrecorded : Recorded N same s) : Recorded N same r.1 := by
  intro selection hselection
  rw [h.selection] at hselection
  obtain ⟨events, hlog, hfine⟩ := h.log
  refine (hrecorded selection hselection).imp (h.ledger _) fun hrec path hpath => ?_
  rw [hlog] at hpath
  exact hrec path ((removed_append hfine).mp hpath)

theorem restorePrevious (hs : Remembers N s) (hrecorded : Recorded N same s)
    (hselection : s.selection = some selection)
    (memberships : List WorkspaceMembership) (frames : List Frame) :
    Fair N same under s (s.restorePrevious N refuses selection memberships frames) := by
  unfold State.restorePrevious
  split
  · exact answer hs _ _
  next previous hprevious =>
  split
  · exact answer hs _ _
  next s' hseed =>
  have hseeded : Fair N same under s (s', none) := seedOrder hs hseed
  exact hseeded.trans (decideRestore hseeded.remembers (hseeded.recorded hrecorded)
    (hseeded.selection.trans hselection) hprevious memberships frames)

theorem listed (hs : Remembers N s) (hrecorded : Recorded N same s) {epoch generation sequence : Nat}
    (hcurrent : (Parked.listing selection epoch generation sequence frames).Current same s)
    (reply : Except Text (List WorkspaceMembership)) :
    Fair N same under s (s.listed N refuses selection epoch generation sequence frames reply) := by
  unfold State.listed
  split
  · exact answer hs _ _
  next hlatest =>
  have hepoch : epoch = s.epoch := by
    by_contra hne
    exact hlatest (by simp [hne])
  cases reply with
  | error error => exact marked (fun h => answer h _ _) rfl hs
  | ok memberships =>
    dsimp only
    split
    · exact marked (fun h => answer h _ _) rfl hs
    split
    · exact list hs _
    split
    · have hdecided : Fair N same under s ({ s.accept memberships with restoreDue := false }, none) :=
        of_same rfl hs
      exact hdecided.trans (restorePrevious hdecided.remembers (hdecided.recorded hrecorded)
        (hdecided.selection.trans (hcurrent.2 hepoch)) memberships frames)
    · exact marked (fun h => answer h _ _) rfl hs

theorem rootAdded (hs : Remembers N s) {operation : Operation} {rest : List Text} {missing : Nat}
    (hcurrent : (Parked.restoring selection operation rest missing latest frames).Current same s)
    (reply : Except Text (List WorkspaceMembership)) :
    Fair N same True s (s.rootAdded N refuses selection operation rest missing latest frames reply) := by
  unfold State.rootAdded
  cases reply with
  | error error =>
    dsimp only
    split
    · exact settleSuperseded hs _ _
    · exact marked (fun h => answer h _ _) rfl hs
  | ok memberships =>
    dsimp only
    split
    · exact settleSuperseded hs _ _
    next hepoch =>
    obtain ⟨hselection, hkept⟩ := hcurrent.2 (not_not.mp hepoch)
    cases rest with
    | nil =>
      dsimp only
      unfold State.restored
      split
      · exact marked (fun h => answer h _ _) rfl hs
      · next storage hadd =>
        have hledger : Fair N same True s ({ s with storage := storage }, none) := stored hs hadd
        exact hledger.trans (marked (fun h => answer h _ _) rfl hledger.remembers)
    | cons root rest => exact sendRoot hs hcurrent.1 (fun _ => hselection) hkept (.inl trivial)

/-- A change that returns, unless it is a removal that succeeds. -/
theorem mutated (hs : Remembers N s) (selection : WorkspaceRootsSelection) (operation : Operation)
    (change : Change) (success : Text) (reply : Except Text (List WorkspaceMembership))
    (hremoved : operation.epoch = s.epoch → ∀ path memberships, change = .remove path → reply ≠ .ok memberships) :
    Fair N same under s (s.mutated selection operation change success reply) := by
  unfold State.mutated
  cases reply with
  | error error =>
    dsimp only
    split
    · exact settleSuperseded hs _ _
    · exact marked (fun h => returned h (by cases change <;> trivial) _ _) rfl hs
  | ok memberships =>
    dsimp only
    split
    · exact settleSuperseded hs _ _
    next hepoch =>
    cases change with
    | add path => exact marked (fun h => returned h (by trivial) _ _) rfl hs
    | remove path => exact absurd rfl (hremoved (not_not.mp hepoch) path memberships rfl)

theorem refresh (hs : Remembers N s) : Fair N same under s s.refresh := by
  unfold State.refresh
  split
  · exact answer hs (.ok ()) []
  · exact marked (fun h => list h _) rfl hs

theorem mutate (hs : Remembers N s)
    (hselection : s.selection = some selection) (change : Change) (success : Text) :
    Fair N same under s (s.mutate selection change success) := by
  refine ⟨rfl, rfl, fun _ h => h, hs, ⟨[.sent selection.hostIdentity change .user], rfl, ?_⟩,
    fun p hp => ?_, fun p hp hrestoring => ?_⟩
  · intro e he
    cases List.mem_singleton.mp he
    cases change <;> trivial
  · cases hp
    exact ⟨le_rfl, fun _ => hselection⟩
  · cases hp
    cases hrestoring

theorem addRoot (hs : Remembers N s) (raw : Text) (home : Option Text) :
    Fair N same under s (s.addRoot raw home) := by
  unfold State.addRoot
  split
  · exact answer hs (.ok ()) []
  next hselection =>
  split
  · exact answer hs (.ok ()) []
  dsimp only
  split
  · exact of_same rfl hs
  · exact mutate hs hselection _ _

theorem removeRoot (hs : Remembers N s) (path : Text) : Fair N same under s (s.removeRoot path) := by
  unfold State.removeRoot
  split
  · exact answer hs (.ok ()) []
  next hselection =>
  split
  · exact answer hs (.ok ()) []
  · exact mutate hs hselection _ _

theorem moveRoot (hs : Remembers N s) (path : Text) (direction : Direction) (home : Option Text) :
    Fair N same under s (s.moveRoot N refuses path direction home, none) := by
  unfold State.moveRoot
  split
  · split
    · exact of_same rfl hs
    · unfold State.moved
      dsimp only
      split
      · exact of_same rfl hs
      · next order storage hset =>
        have hcommitted := WorkspaceRootOrderStore.set_ok hset
        have hstorage : storage.restored = s.storage.restored := by
          have hwritten : storage = s.storage.written .order (serializeWorkspacePreferences N order.document) :=
            hcommitted
          rw [hwritten]
          rfl
        refine ⟨rfl, rfl, fun host hhas => ?_, fun host hhost => hcommitted.remembers hhost,
          ⟨[], (List.append_nil _).symm, fun e he => by cases he⟩, fun p hp => (by cases hp),
          fun p hp => by cases hp⟩
        exact (RestoredWorkspaceRootsLedger.has_congr hstorage).trans hhas
  · exact of_same rfl hs

/-- What is stored was damaged. -/
theorem damagedOrder (hs : Remembers N s) (text : Text) :
    Fair N same under s ({ s with storage := orderDamaged N text s.storage }, none) := by
  unfold orderDamaged
  split
  · exact of_same rfl hs
  · next error herror =>
    refine ⟨rfl, rfl, fun _ h => h, fun host hhost => ?_, ⟨[], (List.append_nil _).symm, fun e he => by cases he⟩,
      fun p hp => (by cases hp), fun p hp => by cases hp⟩
    obtain ⟨document, hread, -⟩ := hhost
    have hread' : parseWorkspacePreferences N (some text) = .ok document := hread
    rw [herror] at hread'
    cases hread'

theorem damagedRestored (hs : Remembers N s) (text : Text) :
    Fair N same under s ({ s with storage := damaged N text s.storage }, none) := by
  unfold damaged
  split
  · next hparse =>
    refine ⟨rfl, rfl, fun host _ => ?_, hs, ⟨[], (List.append_nil _).symm, fun e he => by cases he⟩,
      fun p hp => (by cases hp), fun p hp => by cases hp⟩
    exact RestoredWorkspaceRootsLedger.has_of_unreadable (Option.isNone_iff_eq_none.mp hparse)
  · exact of_same rfl hs

end Fair

/-! ## Every run -/

namespace App

variable {app : App}

/-- Every seeded order came to a host without one. -/
def SeedsNew (N : Type) [JsInteger N] (log : List Event) : Prop :=
  ∀ host before, .seeded host before ∈ log → ¬hasOrder N before host

/-- What every step keeps, beside the lock. -/
structure Safe (N : Type) [JsInteger N] (same : Text → Text → Bool) (app : App) : Prop where
  remembers : Remembers N app.s
  recorded : Recorded N same app.s
  current : ∀ p ∈ app.parked, p.Current same app.s
  undone : NeverUndone same app.s.log
  seeds : SeedsNew N app.s.log

/-- What is sent after a log says nothing of the removals before. -/
theorem undone_append {log events : List Event} (h : NeverUndone same log) (hlog : s.log = log)
    (hfine : ∀ e ∈ events, Fine N same under s e) : NeverUndone same (log ++ events) := by
  intro earlier later host root heq path hpath
  rcases List.append_eq_append_iff.mp heq with ⟨more, rfl, hevents⟩ | ⟨more, rfl, hmore⟩
  · have hroot : Event.sent host (.add root) .restore ∈ events := by
      rw [hevents]
      exact List.mem_append_right _ List.mem_cons_self
    have hkept : Kept same s.log host root := (hfine _ hroot).1
    refine hkept path ?_
    have hbefore : ∀ e ∈ more, Fine N same under s e := fun e he =>
      hfine e (hevents ▸ List.mem_append_left _ he)
    rw [hlog]
    exact (removed_append hbefore).mp hpath
  · cases more with
    | nil =>
      rw [List.nil_append] at hmore
      have hroot : Event.sent host (.add root) .restore ∈ events := hmore ▸ List.mem_cons_self
      refine (hfine _ hroot).1 path ?_
      rw [hlog, List.append_nil]
      exact hpath
    | cons e more =>
      rw [List.cons_append, List.cons.injEq] at hmore
      obtain ⟨rfl, rfl⟩ := hmore
      exact h earlier more host root rfl path hpath

theorem undone_snoc {log : List Event} {event : Event} (h : NeverUndone same log)
    (hevent : ∀ host root, event ≠ .sent host (.add root) .restore) : NeverUndone same (log ++ [event]) := by
  intro earlier later host root heq path hpath
  rcases List.append_eq_append_iff.mp heq with ⟨more, -, hmore⟩ | ⟨more, rfl, hmore⟩
  · have hroot : Event.sent host (.add root) .restore ∈ [event] := by
      rw [hmore]
      exact List.mem_append_right _ List.mem_cons_self
    exact absurd (List.mem_singleton.mp hroot).symm (hevent host root)
  · cases more with
    | nil => exact absurd (List.cons.inj hmore).1.symm (hevent host root)
    | cons e more =>
      rw [List.cons_append, List.cons.injEq] at hmore
      obtain ⟨rfl, -⟩ := hmore
      exact h earlier more host root rfl path hpath

theorem Parked.current_of {p : Parked} (h : p.Current same s) (hselection : s'.selection = s.selection)
    (hepoch : s'.epoch = s.epoch) (hkept : ∀ host root, Kept same s.log host root → Kept same s'.log host root) :
    p.Current same s' := by
  cases p with
  | listing selection epoch generation sequence frames =>
    unfold Parked.Current at h ⊢
    rwa [hselection, hepoch]
  | restoring selection operation rest missing latest frames =>
    unfold Parked.Current at h ⊢
    rw [hselection, hepoch]
    exact ⟨h.1, fun he => ⟨(h.2 he).1, fun root hroot => hkept _ _ ((h.2 he).2 root hroot)⟩⟩
  | changing selection operation change success =>
    unfold Parked.Current at h ⊢
    rwa [hselection, hepoch]
  | returning outcome frames => trivial

/-- The body of a removal that succeeds. -/
theorem mutated_removed {selection : WorkspaceRootsSelection} {operation : Operation} {path success : Text}
    {memberships : List WorkspaceMembership} (hepoch : operation.epoch = s.epoch) :
    s.mutated selection operation (.remove path) success (.ok memberships) =
      (((s.changed memberships success).addLog
        (.returned selection.hostIdentity (.remove path) true)).answer (.ok ()) [.finishing operation]) := by
  unfold State.mutated
  simp only [hepoch, ne_eq, not_true_eq_false, if_false]

/-- The state `select` leaves before it refreshes. -/
structure Selected (s : State) (selection : Option WorkspaceRootsSelection) (s' : State) : Prop where
  selection : s'.selection = selection
  epoch : s'.epoch = s.epoch + 1
  storage : s'.storage = s.storage
  order : s'.order = s.order
  log : s'.log = s.log

theorem select_cases (s : State) (selection : Option WorkspaceRootsSelection) :
    ∃ s', Selected s selection s' ∧ (s.select selection = (s', none) ∨ s.select selection = s'.refresh) := by
  unfold State.select
  cases selection with
  | none =>
    refine ⟨_, ?_, .inl rfl⟩
    exact ⟨rfl, rfl, rfl, rfl, rfl⟩
  | some next =>
    dsimp only
    split
    · refine ⟨_, ?_, .inr rfl⟩
      exact ⟨rfl, rfl, rfl, rfl, rfl⟩
    · refine ⟨_, ?_, .inr rfl⟩
      exact ⟨rfl, rfl, rfl, rfl, rfl⟩

/-- What a step does: a run that is fair, a removal that succeeds, a selection or a
restart. -/
inductive Effect (N : Type) [JsInteger N] (refuses : Refusals) (same : Text → Text → Bool) (app : App) :
    Action → App → Prop
  | fair {action : Action} {app' : App} {under : Prop} {r : State.Ran} (hr : Fair N same under app.s r)
      (hs : app'.s = r.1) (hparked : ∀ p ∈ app'.parked, p ∈ app.parked ∨ p ∈ r.2)
      (hunder : under → ∃ p ∈ app.parked, p.isRestoring = true) : Effect N refuses same app action app'
  | removed {i : Nat} {selection : WorkspaceRootsSelection} {operation : Operation} {path success : Text}
      (hp : app.parked[i]? = some (.changing selection operation (.remove path) success))
      (hepoch : operation.epoch = app.s.epoch) (memberships : List WorkspaceMembership) :
      Effect N refuses same app (.reply i (.ok memberships))
        (app.ranAt i (app.s.mutated selection operation (.remove path) success (.ok memberships)))
  | selected (selection : Option WorkspaceRootsSelection) :
      Effect N refuses same app (.select selection) (app.ran (app.s.select selection))
  | restarted : Effect N refuses same app .restart ⟨launch N refuses app.s.storage app.s.log, []⟩

theorem mem_ran {p : Parked} (h : p ∈ (app.ran r).parked) : p ∈ app.parked ∨ p ∈ r.2 := by
  unfold App.ran at h
  simpa using h

theorem mem_ranAt {i : Nat} {p : Parked} (h : p ∈ (app.ranAt i r).parked) : p ∈ app.parked ∨ p ∈ r.2 := by
  unfold App.ranAt at h
  simp only [List.mem_append, Option.mem_toList] at h
  rcases h with (h | h) | h
  · exact .inl (List.mem_of_mem_take h)
  · exact .inr h
  · exact .inl (List.mem_of_mem_drop h)

namespace Effect

variable {action : Action}

theorem ran (hr : Fair N same False app.s r) : Effect N refuses same app action (app.ran r) :=
  .fair hr rfl (fun _ => mem_ran) False.elim

theorem ranAt {i : Nat} (hr : Fair N same False app.s r) : Effect N refuses same app action (app.ranAt i r) :=
  .fair hr rfl (fun _ => mem_ranAt) False.elim

theorem kept (hr : Fair N same False app.s (s, none)) : Effect N refuses same app action ⟨s, app.parked⟩ :=
  .fair hr rfl (fun _ hp => .inl hp) False.elim

end Effect

namespace Safe

theorem replied (h : app.Safe N same) (i : Nat) (outcome : Except Text (List WorkspaceMembership)) :
    Effect N refuses same app (.reply i outcome) (app.replied N refuses i outcome) := by
  unfold App.replied
  split
  · next hp => exact .ranAt (Fair.listed h.remembers h.recorded (h.current _ (List.mem_of_getElem? hp)) outcome)
  · next hp =>
    have hmem := List.mem_of_getElem? hp
    exact .fair (Fair.rootAdded h.remembers (h.current _ hmem) outcome) rfl (fun _ => mem_ranAt)
      fun _ => ⟨_, hmem, rfl⟩
  · next selection operation change success hp =>
    by_cases hremoved : operation.epoch = app.s.epoch ∧
        ∃ path memberships, change = .remove path ∧ outcome = .ok memberships
    · obtain ⟨hepoch, path, memberships, rfl, rfl⟩ := hremoved
      exact .removed hp hepoch memberships
    · exact .ranAt (Fair.mutated h.remembers selection operation change success outcome
        fun hepoch path memberships hchange hreply => hremoved ⟨hepoch, path, memberships, hchange, hreply⟩)
  · exact .kept (Fair.of_same rfl h.remembers)

theorem resumed (h : app.Safe N same) (i : Nat) :
    Effect N refuses same app (.resume i) (app.resumed i) := by
  unfold App.resumed
  split
  · exact .ranAt (Fair.resume h.remembers _ _)
  · exact .kept (Fair.of_same rfl h.remembers)

theorem fair {app' : App} (h : app.Safe N same) (hr : Fair N same under app.s r) (hs : app'.s = r.1)
    (hparked : ∀ p ∈ app'.parked, p ∈ app.parked ∨ p ∈ r.2) : app'.Safe N same := by
  obtain ⟨events, hlog, hfine⟩ := hr.log
  refine ⟨hs ▸ hr.remembers, hs ▸ hr.recorded h.recorded, fun p hp => ?_, ?_, ?_⟩
  · rw [hs]
    rcases hparked p hp with hp | hp
    · exact Parked.current_of (h.current p hp) hr.selection hr.epoch fun _ _ => hr.kept.mpr
    · exact hr.current p hp
  · rw [hs, hlog]
    exact undone_append h.undone rfl hfine
  · intro host before hmem
    rw [hs, hlog] at hmem
    rcases List.mem_append.mp hmem with hmem | hmem
    · exact h.seeds host before hmem
    · exact hfine _ hmem

/-- What is parked beside a change of the current epoch is no restore of it. -/
theorem alone {i : Nat} {p q : Parked} {operation operation' : Operation} (hlocked : app.Locked)
    (hp : app.parked[i]? = some p) (hmem : operation ∈ p.held) (hepoch : operation.epoch = app.s.epoch)
    (hq : q ∈ app.parked.take i ∨ q ∈ app.parked.drop (i + 1)) (hmem' : operation' ∈ q.held) :
    operation'.epoch ≠ app.s.epoch := by
  intro hepoch'
  have hholder := hlocked.holder
  rw [App.held_at hp] at hholder
  have hlength : (app.s.holder).length ≤ 1 := by
    unfold State.holder
    refine (List.length_filter_le _ _).trans ?_
    cases app.s.operation <;> simp
  have hone : 0 < (p.held.filter (·.epoch = app.s.epoch)).length :=
    List.length_pos_of_mem (List.mem_filter.mpr ⟨hmem, by simpa using hepoch⟩)
  have hother : ∀ l : List Parked, q ∈ l →
      0 < ((l.flatMap Parked.held).filter (·.epoch = app.s.epoch)).length := fun l hl =>
    List.length_pos_of_mem (List.mem_filter.mpr ⟨List.mem_flatMap.mpr ⟨q, hl, hmem'⟩, by simpa using hepoch'⟩)
  rw [← hholder] at hlength
  simp only [List.filter_append, List.length_append] at hlength
  rcases hq with hq | hq
  · have := hother _ hq
    omega
  · have := hother _ hq
    omega

/-- A removal that succeeds. -/
theorem removed (h : app.Safe N same) (hlocked : app.Locked) {i : Nat} {selection : WorkspaceRootsSelection}
    {operation : Operation} {path success : Text}
    (hp : app.parked[i]? = some (.changing selection operation (.remove path) success))
    (hepoch : operation.epoch = app.s.epoch) (memberships : List WorkspaceMembership)
    (hcareful : has N app.s.storage selection.hostIdentity = true ∨ selection.offers same path = false) :
    (app.ranAt i (app.s.mutated selection operation (.remove path) success (.ok memberships))).Safe N same := by
  have hselection : app.s.selection = some selection :=
    (h.current _ (List.mem_of_getElem? hp)).2 hepoch
  rw [mutated_removed hepoch]
  have hlog : ∀ host path', Removed (app.s.log ++ [.returned selection.hostIdentity (.remove path) true]) host path' →
      Removed app.s.log host path' ∨ (host = selection.hostIdentity ∧ path' = path) := by
    intro host path' hpath
    rcases List.mem_append.mp hpath with hpath | hpath
    · exact .inl hpath
    · cases List.mem_singleton.mp hpath
      exact .inr ⟨rfl, rfl⟩
  refine ⟨h.remembers, ?_, ?_, ?_, ?_⟩
  · intro selection' hselection'
    have heq : selection' = selection := Option.some.inj (hselection'.symm.trans hselection)
    subst heq
    rcases h.recorded selection' hselection with hrec | hrec
    · exact .inl hrec
    · refine hcareful.imp id fun hoffers path' hpath => ?_
      rcases hlog _ _ hpath with hpath | ⟨-, rfl⟩
      · exact hrec path' hpath
      · exact hoffers
  · have hothers : ∀ p, p ∈ app.parked.take i ∨ p ∈ app.parked.drop (i + 1) → p.Current same
        ((app.s.changed memberships success).addLog (.returned selection.hostIdentity (.remove path) true)) := by
      intro p hq
      have hcurrent := h.current p (hq.elim List.mem_of_mem_take List.mem_of_mem_drop)
      cases p with
      | listing => exact hcurrent
      | restoring selection' operation' rest missing latest frames =>
        exact ⟨hcurrent.1, fun hepoch' =>
          absurd hepoch' (alone hlocked hp List.mem_cons_self hepoch hq List.mem_cons_self)⟩
      | changing => exact hcurrent
      | returning => trivial
    intro p hmem
    unfold App.ranAt at hmem
    simp only [List.mem_append] at hmem
    rcases hmem with (hmem | hmem) | hmem
    · exact hothers p (.inl hmem)
    · cases List.mem_singleton.mp hmem
      trivial
    · exact hothers p (.inr hmem)
  · exact undone_snoc h.undone fun _ _ heq => by cases heq
  · intro host before hmem
    rcases List.mem_append.mp hmem with hmem | hmem
    · exact h.seeds host before hmem
    · cases List.mem_singleton.mp hmem

theorem selected {selection : Option WorkspaceRootsSelection} (h : app.Safe N same)
    (hs : Selected app.s selection s) (hcareful : Careful N same app (.select selection)) :
    (App.mk s app.parked).Safe N same := by
  refine ⟨fun host hhost => ?_, fun chosen hchosen => ?_, fun p hp => ?_, ?_, ?_⟩
  · rw [hs.storage] at hhost
    show host ∈ keys s.order.document.hosts
    rw [hs.order]
    exact h.remembers host hhost
  · have hselection : selection = some chosen := hs.selection.symm.trans hchosen
    subst hselection
    show has N s.storage _ = true ∨ ∀ path, Removed s.log _ path → _
    rw [hs.storage, hs.log]
    exact hcareful
  · have hcurrent := h.current p hp
    have hepoch := hs.epoch
    cases p with
    | listing selection epoch generation sequence frames =>
      have hpast := hcurrent.1
      show epoch ≤ s.epoch ∧ (epoch = s.epoch → _)
      exact ⟨by omega, fun he => absurd he (by omega)⟩
    | restoring selection operation rest missing latest frames =>
      have hpast := hcurrent.1
      show operation.epoch ≤ s.epoch ∧ (operation.epoch = s.epoch → _)
      exact ⟨by omega, fun he => absurd he (by omega)⟩
    | changing selection operation change success =>
      have hpast := hcurrent.1
      show operation.epoch ≤ s.epoch ∧ (operation.epoch = s.epoch → _)
      exact ⟨by omega, fun he => absurd he (by omega)⟩
    | returning outcome frames => trivial
  · show NeverUndone same s.log
    rw [hs.log]
    exact h.undone
  · show SeedsNew N s.log
    rw [hs.log]
    exact h.seeds

theorem select (h : app.Safe N same) (selection : Option WorkspaceRootsSelection)
    (hcareful : Careful N same app (.select selection)) : (app.ran (app.s.select selection)).Safe N same := by
  obtain ⟨s', hs, hran⟩ := select_cases app.s selection
  have hselected := h.selected hs hcareful
  have hfair : Fair N same False s' (app.s.select selection) := by
    rcases hran with hran | hran
    · rw [hran]
      exact Fair.of_same rfl hselected.remembers
    · rw [hran]
      exact Fair.refresh hselected.remembers
  exact hselected.fair hfair rfl fun _ => mem_ran

/-- A new process over the same storage. -/
theorem restart (hundone : NeverUndone same s.log) (hseeds : SeedsNew N s.log) (storage : Storage) :
    (App.mk (launch N refuses storage s.log) []).Safe N same := by
  refine ⟨fun host hhost => ?_, fun _ hselection => ?_, fun p hp => ?_, hundone, hseeds⟩
  · have hhost' : hasOrder N
        (RestoredWorkspaceRootsLedger.load N refuses (WorkspaceRootOrderStore.load N refuses storage).2).2.order
        host := hhost
    rw [RestoredWorkspaceRootsLedger.load_order] at hhost'
    exact WorkspaceRootOrderStore.load_remembers hhost'
  · cases hselection
  · cases hp

theorem effect (h : app.Safe N same) (action : Action) :
    Effect N refuses same app action (app.step N refuses action) := by
  cases action with
  | restart => exact .restarted
  | select selection => exact .selected selection
  | refresh => exact .ran (Fair.refresh h.remembers)
  | addRoot raw home => exact .ran (Fair.addRoot h.remembers raw home)
  | removeRoot path => exact .ran (Fair.removeRoot h.remembers path)
  | moveRoot path direction home => exact .kept (Fair.moveRoot h.remembers path direction home)
  | clearMessages => exact .kept (Fair.of_same rfl h.remembers)
  | reply i outcome => exact h.replied i outcome
  | resume i => exact h.resumed i
  | damageOrder text => exact .kept (Fair.damagedOrder h.remembers text)
  | damageRestored text => exact .kept (Fair.damagedRestored h.remembers text)

theorem step (h : app.Safe N same) (hlocked : app.Locked) (action : Action)
    (hcareful : Careful N same app action) : (app.step N refuses action).Safe N same := by
  generalize happ : app.step N refuses action = app'
  have heffect : Effect N refuses same app action app' := happ ▸ h.effect action
  cases heffect with
  | fair hr hs hparked hunder => exact h.fair hr hs hparked
  | removed hp hepoch memberships =>
    exact h.removed hlocked hp hepoch memberships (hcareful _ _ _ _ hp hepoch)
  | selected selection => exact h.select selection hcareful
  | restarted => exact restart h.undone h.seeds app.s.storage

end Safe

/-! ## A closed ledger -/

/-- Every host counts as restored, and no restore is under way. -/
structure Closed (N : Type) [JsInteger N] (app : App) : Prop where
  ledger : ∀ host, has N app.s.storage host = true
  idle : ∀ p ∈ app.parked, p.isRestoring = false

/-- No two spellings are the same: every action is careful. -/
def never : Text → Text → Bool := fun _ _ => false

theorem careful_never (app : App) (action : Action) : Careful N never app action := by
  have hoffers : ∀ (selection : WorkspaceRootsSelection) (path : Text), selection.offers never path = false := by
    intro selection path
    unfold WorkspaceRootsSelection.offers never
    cases selection.previousRoots with
    | none => rfl
    | some previous => simp
  cases action with
  | select selection =>
    cases selection with
    | none => trivial
    | some selection => exact .inr fun path _ => hoffers selection path
  | reply i outcome =>
    cases outcome with
    | error error => trivial
    | ok memberships => exact fun selection _ path _ _ _ => .inr (hoffers selection path)
  | restart | refresh | addRoot | removeRoot | moveRoot | clearMessages | resume | damageOrder |
    damageRestored => trivial

namespace Closed

theorem fair {app' : App} (h : app.Closed N) (hr : Fair N never under app.s r) (hs : app'.s = r.1)
    (hparked : ∀ p ∈ app'.parked, p ∈ app.parked ∨ p ∈ r.2)
    (hunder : under → ∃ p ∈ app.parked, p.isRestoring = true) :
    app'.Closed N ∧ app'.s.log.filter isRestore = app.s.log.filter isRestore := by
  have hopen : ¬(under ∨ ∃ host, has N app.s.storage host = false) := by
    rintro (h' | ⟨host, hhost⟩)
    · obtain ⟨p, hp, hrestoring⟩ := hunder h'
      rw [h.idle p hp] at hrestoring
      cases hrestoring
    · rw [h.ledger host] at hhost
      cases hhost
  refine ⟨⟨fun host => hs ▸ hr.ledger host (h.ledger host), fun p hp => ?_⟩, ?_⟩
  · rcases hparked p hp with hp | hp
    · exact h.idle p hp
    · exact Bool.eq_false_iff.mpr fun hrestoring => hopen (hr.idle p hp hrestoring)
  · obtain ⟨events, hlog, hfine⟩ := hr.log
    have hnone : events.filter isRestore = [] := by
      refine List.filter_eq_nil_iff.mpr fun e he hrestore => ?_
      have hfine := hfine e he
      cases e with
      | listed | returned | seeded => cases hrestore
      | sent host change origin =>
        cases origin with
        | user => cases hrestore
        | restore =>
          cases change with
          | add root => exact hopen (hfine.2.imp id (⟨host, ·⟩))
          | remove path => exact hfine
    rw [hs, hlog, List.filter_append, hnone, List.append_nil]

theorem step (h : app.Closed N) (hsafe : app.Safe N never) (action : Action) :
    (app.step N refuses action).Closed N ∧
      (app.step N refuses action).s.log.filter isRestore = app.s.log.filter isRestore := by
  generalize happ : app.step N refuses action = app'
  have heffect : Effect N refuses never app action app' := happ ▸ hsafe.effect action
  cases heffect with
  | fair hr hs hparked hunder => exact h.fair hr hs hparked hunder
  | removed hp hepoch memberships =>
    rw [mutated_removed hepoch]
    refine ⟨⟨h.ledger, fun p hmem => ?_⟩, ?_⟩
    · rcases mem_ranAt hmem with hmem | hmem
      · exact h.idle p hmem
      · cases hmem
        rfl
    · show (app.s.log ++ [_]).filter isRestore = _
      rw [List.filter_append]
      exact List.append_nil _
  | selected selection =>
    obtain ⟨s', hs, hran⟩ := select_cases app.s selection
    have hselected := hsafe.selected hs (careful_never app _)
    have hclosed : (App.mk s' app.parked).Closed N := ⟨fun host => by
      show has N s'.storage host = true
      rw [hs.storage]
      exact h.ledger host, h.idle⟩
    have hfair : Fair N never False s' (app.s.select selection) := by
      rcases hran with hran | hran
      · rw [hran]
        exact Fair.of_same rfl hselected.remembers
      · rw [hran]
        exact Fair.refresh hselected.remembers
    rw [← hs.log]
    exact hclosed.fair hfair rfl (fun _ => mem_ran) False.elim
  | restarted =>
    refine ⟨⟨fun host => RestoredWorkspaceRootsLedger.has_load ?_, fun p hp => by cases hp⟩, rfl⟩
    exact (RestoredWorkspaceRootsLedger.has_congr WorkspaceRootOrderStore.load_restored).trans (h.ledger host)

end Closed

theorem launched_safe (storage : Storage) : (launched N refuses storage).Safe N same :=
  Safe.restart (s := launch N refuses storage [])
    (fun earlier later host root heq => by cases earlier <;> cases heq) (fun _ _ h => by cases h) storage

theorem reached_safe {start : App} {ok : App → Action → Prop}
    (hok : ∀ app action, ok app action → Careful N same app action)
    (h : start.Safe N same) (hlocked : start.Locked) (hreached : Reached N ok start app) :
    app.Safe N same ∧ app.Locked := by
  induction hreached with
  | refl => exact ⟨h, hlocked⟩
  | step refuses action _ hcareful ih =>
    exact ⟨ih.1.step ih.2 action (hok _ _ hcareful), ih.2.step action⟩

end App

/-! ## The guarantee -/

/-- The one-time restore, for every run of any processes over one storage. -/
theorem restore_once (N : Type) [JsInteger N] (same : Text → Text → Bool) (refuses : Refusals)
    (storage : Storage) :
    (∀ app, Reached N (Careful N same) (launched N refuses storage) app → NeverUndone same app.s.log) ∧
    (∀ app app', Reached N anyAction (launched N refuses storage) app → Reached N anyAction app app' →
      read N app.s.storage = none → (∀ p ∈ app.parked, p.isRestoring = false) →
      app'.s.log.filter isRestore = app.s.log.filter isRestore) ∧
    (∀ app, Reached N anyAction (launched N refuses storage) app →
      ∀ host before, .seeded host before ∈ app.s.log → ¬hasOrder N before host) := by
  have hlocked : (launched N refuses storage).Locked := App.launch_locked storage []
  have hsafe : ∀ app, Reached N anyAction (launched N refuses storage) app →
      app.Safe N App.never ∧ app.Locked := fun app =>
    App.reached_safe (fun app action _ => App.careful_never app action) (App.launched_safe storage) hlocked
  refine ⟨fun app h => ?_, fun app app' h h' hread hidle => ?_, fun app h => (hsafe app h).1.seeds⟩
  · exact (App.reached_safe (fun _ _ hcareful => hcareful) (App.launched_safe storage) hlocked h).1.undone
  · have hclosed : app.Closed N :=
      ⟨fun _ => RestoredWorkspaceRootsLedger.has_of_unreadable hread, hidle⟩
    have hrun : app'.Closed N ∧ (app'.Safe N App.never ∧ app'.Locked) ∧
        app'.s.log.filter isRestore = app.s.log.filter isRestore := by
      induction h' with
      | refl => exact ⟨hclosed, hsafe app h, rfl⟩
      | step refuses action _ _ ih =>
        obtain ⟨hclosed, hsafe, hlog⟩ := ih
        obtain ⟨hclosed', hlog'⟩ : (App.step N refuses _ action).Closed N ∧ _ := hclosed.step hsafe.1 action
        exact ⟨hclosed', ⟨hsafe.1.step hsafe.2 action (App.careful_never _ action), hsafe.2.step action⟩,
          hlog'.trans hlog⟩
    exact hrun.2.2

/-! ## A root that comes back -/

def takesAll : Refusals := fun _ => none

def sameText (root path : Text) : Bool := root = path

def devbox : Text := ascii "devbox"

def srvA : Text := ascii "/srv/a"

def srvB : Text := ascii "/srv/b"

/-- The restore registers the first of two roots and fails at the second, the user
removes the first, and a refresh lists the host. -/
def comesBack : List Action :=
  [.select (some ⟨devbox, some ⟨[srvA, srvB], []⟩⟩), .reply 0 (.ok []), .reply 0 (.ok [⟨srvA, srvA⟩]),
    .reply 0 (.error (ascii "timed out")), .resume 0, .resume 0, .removeRoot srvA, .reply 0 (.ok []),
    .resume 0, .resume 0, .refresh, .reply 0 (.ok [])]

def comesBackApp : App :=
  comesBack.foldl (App.step Js.Numeral takesAll) (launched Js.Numeral takesAll ⟨none, none, [], []⟩)

section

variable {N : Type} [JsInteger N] {refuses : Refusals} {start : App} {ok : App → Action → Prop}

/-- Every step of a run meets `ok`. -/
def EachOk (N : Type) [JsInteger N] (refuses : Refusals) (ok : App → Action → Prop) : App → List Action → Prop
  | _, [] => True
  | app, action :: actions => ok app action ∧ EachOk N refuses ok (app.step N refuses action) actions

theorem reached_foldl (actions : List Action) : ∀ app, Reached N ok start app → EachOk N refuses ok app actions →
    Reached N ok start (actions.foldl (App.step N refuses) app) := by
  induction actions with
  | nil => exact fun _ h _ => h
  | cons action actions ih => exact fun app h hok => ih _ (.step refuses action h hok.1) hok.2

theorem eachOk_any (actions : List Action) : ∀ app, EachOk N refuses anyAction app actions := by
  induction actions with
  | nil => exact fun _ => trivial
  | cons action actions ih => exact fun app => ⟨trivial, ih _⟩

/-- The ledger has the host of a removal that is under way. -/
def Parked.ready (N : Type) [JsInteger N] (storage : Storage) : Parked → Bool
  | .changing selection _ (.remove _) _ => has N storage selection.hostIdentity
  | _ => true

theorem careful_reply {same : Text → Text → Bool} {app : App} {i : Nat} {memberships : List WorkspaceMembership}
    (h : app.parked[i]?.all (·.ready N app.s.storage) = true) : Careful N same app (.reply i (.ok memberships)) := by
  intro selection operation path success hparked _
  rw [hparked] at h
  exact .inl h

end

/-- The restore goes through, the user removes the first root, and a refresh lists the host. -/
def staysAway : List Action :=
  [.select (some ⟨devbox, some ⟨[srvA, srvB], []⟩⟩), .reply 0 (.ok []), .reply 0 (.ok [⟨srvA, srvA⟩]),
    .reply 0 (.ok [⟨srvA, srvA⟩, ⟨srvB, srvB⟩]), .resume 0, .resume 0, .removeRoot srvA,
    .reply 0 (.ok [⟨srvB, srvB⟩]), .resume 0, .resume 0, .refresh, .reply 0 (.ok [⟨srvB, srvB⟩])]

theorem restore_once_staysAway : NeverUndone sameText
    (staysAway.foldl (App.step Js.Numeral takesAll) (launched Js.Numeral takesAll ⟨none, none, [], []⟩)).s.log := by
  refine (restore_once Js.Numeral sameText takesAll ⟨none, none, [], []⟩).1 _ (reached_foldl staysAway _ .refl ?_)
  refine ⟨.inr fun _ h => (by cases h), ?_, ?_, ?_, trivial, trivial, trivial, ?_, trivial, trivial, trivial, ?_,
    trivial⟩
  all_goals exact careful_reply (by decide)

theorem comesBack_log : comesBackApp.s.log = [.listed devbox, .seeded devbox none,
    .sent devbox (.add srvA) .restore, .sent devbox (.add srvB) .restore, .sent devbox (.remove srvA) .user,
    .returned devbox (.remove srvA) true, .listed devbox] ++ [.sent devbox (.add srvA) .restore] := by
  decide

theorem restore_undoes : ¬∀ app, Reached Js.Numeral anyAction
    (launched Js.Numeral takesAll ⟨none, none, [], []⟩) app → NeverUndone sameText app.s.log := by
  intro h
  have hundone := h comesBackApp (reached_foldl comesBack _ .refl (eachOk_any _ _)) _ _ devbox srvA comesBack_log srvA
    (by unfold Removed; decide)
  cases hundone

end PocketShell.Workspaces
