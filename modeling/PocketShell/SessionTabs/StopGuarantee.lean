import PocketShell.SessionTabs.Stop
import PocketShell.Sessions.Guarantee

/-!
# A confirmed stop destroys what its dialog named

* `Careful`: what a confirmation and a reply must find. A stop is confirmed on the connection it
  was armed on, and while the name of the tab stands for the session it was armed for; both still
  hold when the host tells that the session is gone, and the row and the pane of that identity are
  of the same connection. A folder's session has no pane, the error of a failed kill has the
  session's name, and what a listing has and is held for killed was killed on its connection.
* `Sound`: what the log says of every request, and the two busy latches.
* `Exact`: what a step does to the rows, the panes and the composer's records.
* `stop_exact`: careful runs. `wrong_main_killed`: a folder switch between the question and the
  kill.
-/

namespace PocketShell.SessionTabs

open Js (Text ascii)
open Coop (mem_snoc)
open Sessions (identity identityOf killedSince Buries KILLED_TTL_MS)

variable {F : Type}

/-! ## 1. What is to be shown -/

abbrev StopKey : Type := Surface × Nat

def Stop.key (stop : Stop) : StopKey := (stop.surface, stop.id)

def Event.stop : Event → Stop
  | .armed stop | .asked stop _ | .answered stop _ _ | .reported stop _ => stop

/-- The session a request is for, and the stop it is of. -/
def Event.request : Event → Option (StopKey × Session)
  | .asked stop kill => some (stop.key, kill.session)
  | _ => none

/-- A session of this identity was stopped on the connection, and the host told that it is gone. -/
def StoppedOn (s : State F) (connection : Option Text) (id : Sessions.Identity) : Prop :=
  ∃ stop entry, .answered stop entry.name true ∈ s.log ∧ entry ∈ stop.named ∧
    stop.connection = connection ∧ identityOf entry.name entry.workspace = id

/-- Since when it is killed by what the log says of the connection: since then none of its
identity was created or renamed to there. -/
def State.killedOn (s : State F) (connection : Option Text) : Sessions.Identity → Option Int :=
  killedSince ((s.record.filter (·.1 = connection)).map (·.2))

structure Sound (s : State F) : Prop where
  asked : ∀ stop kill, .asked stop kill ∈ s.log → .armed stop ∈ s.log ∧
    stop.connection = some kill.connectionId ∧ ∃ entry ∈ stop.named, entry.session = kill.session
  once : (s.log.filterMap Event.request).Nodup
  told : ∀ stop name, .answered stop name false ∈ s.log →
    (∃ text, .reported stop text ∈ s.log ∧ name <:+: text) ∨ ∃ batch ∈ s.batches, batch.stop = stop
  idle : s.kills = [] → s.stopBusy = false
  idleFolder : s.batches = [] → s.folderStopBusy = false
  killed : ∀ connection id now, (connection, .killed id now) ∈ s.record → StoppedOn s connection id

/-- The row of a session of this name and workspace on the connection. -/
def isRowOf (connection : Option Text) (entry : Entry) (row : Row) : Bool :=
  identity row = identityOf entry.name entry.workspace && row.rest.connection = connection

def isPaneOf (connection : Option Text) (entry : Entry) (pane : Pane) : Bool :=
  pane.identity = entry.identityKey && pane.connection = connection

/-- The records of one session of the stop go, and no others. -/
structure Drops (s t : State F) (stop : Stop) (entry : Entry) : Prop where
  connection : s.connectionId = stop.connection
  rows : t.sessions.sessions = s.sessions.sessions.filter (!isRowOf stop.connection entry ·)
  panes : t.openPanes = s.openPanes.filter (!isPaneOf stop.connection entry ·)
  composer : t.composer = s.composer.filter (· ≠ targetKey stop.connection entry.identityKey)

structure Keeps (s t : State F) : Prop where
  rows : t.sessions.sessions = s.sessions.sessions
  panes : t.openPanes = s.openPanes
  composer : t.composer = s.composer

theorem Keeps.rfl (s : State F) : Keeps s s := ⟨.refl _, .refl _, .refl _⟩

theorem Keeps.trans {s t u : State F} (h : Keeps s t) (k : Keeps t u) : Keeps s u :=
  ⟨k.rows.trans h.rows, k.panes.trans h.panes, k.composer.trans h.composer⟩

variable {entry : Entry}

theorem Drops.keeps {s t u : State F} {stop : Stop} (h : Drops s t stop entry)
    (k : Keeps t u) : Drops s u stop entry :=
  ⟨h.connection, k.rows.trans h.rows, k.panes.trans h.panes, k.composer.trans h.composer⟩

/-- The host's answer for a session of the stop takes its records down, or leaves them. -/
def Settles (s t : State F) (stop : Stop) (name : Text) (answer : Answer) : Prop :=
  if answer.gone then ∃ entry ∈ stop.named, entry.name = name ∧ Drops s t stop entry else Keeps s t

/-- Everything but the rows is kept. -/
structure KeepsBeside (s t : State F) : Prop where
  panes : t.openPanes = s.openPanes
  composer : t.composer = s.composer

variable (rowsOf : RowsOf F)

/-- What a step does to the records. A listing leaves out no row but those of sessions that were
stopped on its connection. -/
def Exact (s : State F) (a : Action F) : Prop :=
  match a with
  | .answered i answer _ => ∀ kill, s.kills[i]? = some kill →
      Settles s (s.step rowsOf a) kill.stop kill.session answer
  | .folderAnswered i answer _ => ∀ batch entry, s.batches[i]? = some batch →
      batch.todo.head? = some entry → Settles s (s.step rowsOf a) batch.stop entry.name answer
  | .listed request rows _ _ _ => KeepsBeside s (s.step rowsOf a) ∧
      let connection := s.refreshes[request.ticket]?
      (request ∉ s.sessions.requests → Keeps s (s.step rowsOf a)) ∧
      (request ∈ s.sessions.requests → ∀ row ∈ rows,
        onConnection connection row ∉ (s.step rowsOf a).sessions.sessions →
        StoppedOn s connection (identity row) ∧ (s.killedOn connection (identity row)).isSome)
  | .addPending _ summary _ => KeepsBeside s (s.step rowsOf a) ∧ ∀ row ∈ s.sessions.sessions,
      identity row ≠ identity summary → row ∈ (s.step rowsOf a).sessions.sessions
  | .renameLocal _ old new workspace => KeepsBeside s (s.step rowsOf a) ∧
      (s.step rowsOf a).sessions.sessions = s.sessions.sessions.map fun row =>
        if identity row ≠ identityOf old workspace then row else Sessions.renameRow row new
  | .mountPanes _ => (s.step rowsOf a).sessions.sessions = s.sessions.sessions ∧
      (s.step rowsOf a).composer = s.composer
  | .writeComposer _ => (s.step rowsOf a).sessions.sessions = s.sessions.sessions ∧
      (s.step rowsOf a).openPanes = s.openPanes
  | _ => Keeps s (s.step rowsOf a)

/-- What is shown for the session is of this connection. -/
def Placed (s : State F) (connection : Option Text) (entry : Entry) : Prop :=
  (∀ row ∈ s.sessions.sessions, identity row = identityOf entry.name entry.workspace →
    row.rest.connection = connection) ∧
  ∀ pane ∈ s.openPanes, pane.identity = entry.identityKey → pane.connection = connection

/-- What a step must find. -/
def Careful (s : State F) : Action F → Prop
  | .openFolderMenu _ sessions => (sessions.map Entry.session).Nodup
  | .confirm => s.stopBusy = false → ∀ name, s.stopping = some name → ∀ connectionId,
      s.connectionId = some connectionId → s.armed.connection = some connectionId ∧
        ∀ entry ∈ s.armed.named, (name, (aplexerRefFor (s.rows rowsOf) name).map (·.workspace)) =
          entry.session
  | .answered i answer _ => ∀ kill, s.kills[i]? = some kill →
      if answer.gone then s.connectionId = kill.stop.connection ∧ ∀ entry ∈ kill.stop.named,
        identityFor (s.rows rowsOf) kill.session none = entry.identityKey ∧
        identityOf kill.session ((sessionMeta (s.rows rowsOf) kill.session).bind (·.workspace)) =
          identityOf entry.name entry.workspace ∧ Placed s kill.stop.connection entry
      else ∀ text, answer.error = some text → kill.session <:+: text
  | .confirmFolder => s.folderStopBusy = false → s.folderStopping.isSome → ∀ connectionId,
      s.connectionId = some connectionId → s.folderArmed.connection = some connectionId
  | .folderAnswered i answer _ => ∀ batch, s.batches[i]? = some batch → answer.gone →
      s.connectionId = batch.stop.connection ∧
        ∀ entry, batch.todo.head? = some entry → Placed s batch.stop.connection entry ∧
          entry.identityKey ∉ s.openPanes.map (·.identity)
  | .listed request rows _ _ later => ∀ row ∈ rows, ∀ at_,
      killedSince s.sessions.log (identity row) = some at_ → later - at_ ≤ KILLED_TTL_MS →
        (s.killedOn s.refreshes[request.ticket]? (identity row)).isSome
  | _ => True

def CarefulFrom (s : State F) : List (Action F) → Prop
  | [] => True
  | a :: rest => Careful rowsOf s a ∧ CarefulFrom (s.step rowsOf a) rest

/-! ## 2. The invariant -/

/-- What the log says by itself. -/
structure Logged (log : List Event) (next : Nat) : Prop where
  asked : ∀ stop kill, .asked stop kill ∈ log → .armed stop ∈ log ∧
    stop.connection = some kill.connectionId ∧ ∃ entry ∈ stop.named, entry.session = kill.session
  once : (log.filterMap Event.request).Nodup
  issued : ∀ stop kill, .asked stop kill ∈ log → stop.id < next
  known : ∀ stop name gone, .answered stop name gone ∈ log → ∃ kill, .asked stop kill ∈ log

/-- A stop that was armed and not confirmed yet. -/
structure Fresh (log : List Event) (next : Nat) (stop : Stop) : Prop where
  armed : .armed stop ∈ log
  issued : stop.id < next
  unasked : ∀ other kill, .asked other kill ∈ log → other.key ≠ stop.key

/-- A confirmed stop of a tab. -/
structure Killing (log : List Event) (kill : TabKill) : Prop where
  bar : kill.stop.surface = .bar
  connection : kill.stop.connection = some kill.connectionId
  named : ∃ entry, kill.stop.named = [entry] ∧ entry.name = kill.session
  asked : ∃ request, .asked kill.stop request ∈ log

structure BarInv (s : State F) : Prop where
  surface : s.armed.surface = .bar
  named : ∀ name, s.stopping = some name → ∃ entry, s.armed.named = [entry] ∧ entry.name = name
  fresh : s.stopBusy = false → s.stopping.isSome → Fresh s.log s.nextStop s.armed
  busy : s.stopBusy = true → ∃ kill, s.kills = [kill] ∧ Killing s.log kill
  idle : s.stopBusy = false → s.kills = []

/-- A confirmed stop of a folder whose first sessions were asked for. -/
structure Running (log : List Event) (next : Nat) (batch : Batch) (asked todo : List Entry) :
    Prop where
  panel : batch.stop.surface = .panel
  armed : .armed batch.stop ∈ log
  issued : batch.stop.id < next
  connection : batch.stop.connection = some batch.connectionId
  named : batch.stop.named = asked ++ todo
  nodup : (batch.stop.named.map Entry.session).Nodup
  requests : ∀ stop kill, .asked stop kill ∈ log → stop.key = batch.stop.key →
    kill.session ∈ asked.map Entry.session
  failed : ∀ name, .answered batch.stop name false ∈ log → name ∈ batch.failed

/-- The host is asked for the first session of `todo`. -/
def InFlight (log : List Event) (next : Nat) (batch : Batch) : Prop :=
  ∃ asked entry rest, batch.todo = entry :: rest ∧
    Running log next batch (asked ++ [entry]) rest ∧ ∃ kill, .asked batch.stop kill ∈ log

structure PanelInv (s : State F) : Prop where
  surface : s.folderArmed.surface = .panel
  menu : ∀ target, s.folderMenu = some target → (target.sessions.map Entry.session).Nodup
  named : ∀ target, s.folderStopping = some target → target.sessions = s.folderArmed.named ∧
    (s.folderArmed.named.map Entry.session).Nodup
  fresh : s.folderStopBusy = false → s.folderStopping.isSome →
    Fresh s.log s.nextStop s.folderArmed
  busy : s.folderStopBusy = true → ∃ batch, s.batches = [batch] ∧ InFlight s.log s.nextStop batch
  idle : s.folderStopBusy = false → s.batches = []

/-- Every failed kill was reported, or its batch is still on its way. -/
def Told (log : List Event) (batches : List Batch) : Prop :=
  ∀ stop name, .answered stop name false ∈ log →
    (∃ text, .reported stop text ∈ log ∧ name <:+: text) ∨ ∃ batch ∈ batches, batch.stop = stop

structure Inv (s : State F) : Prop where
  logged : Logged s.log s.nextStop
  bar : BarInv s
  panel : PanelInv s
  told : Told s.log s.batches

/-- The kills of the list are those of the stops. -/
structure Graves (s : State F) : Prop where
  buries : Buries s.sessions
  stopped : ∀ connection id now, (connection, .killed id now) ∈ s.record → StoppedOn s connection id

variable {s : State F}

theorem Inv.sound (h : Inv s) (hgraves : Graves s) : Sound s where
  killed := hgraves.stopped
  asked := h.logged.asked
  once := h.logged.once
  told := h.told
  idle hkills := by
    cases hb : s.stopBusy with
    | false => rfl
    | true =>
      obtain ⟨kill, heq, -⟩ := h.bar.busy hb
      simp [hkills] at heq
  idleFolder hbatches := by
    cases hb : s.folderStopBusy with
    | false => rfl
    | true =>
      obtain ⟨batch, heq, -⟩ := h.panel.busy hb
      simp [hbatches] at heq

theorem inv_start (folder : F) : Inv ({ folder } : State F) where
  logged := ⟨fun _ _ h => (by cases h), List.nodup_nil, fun _ _ h => (by cases h),
    fun _ _ _ h => (by cases h)⟩
  bar := ⟨rfl, fun _ h => (by cases h), fun _ h => (by cases h), fun h => (by cases h), fun _ => rfl⟩
  panel := ⟨rfl, fun _ h => (by cases h), fun _ h => (by cases h), fun _ h => (by cases h),
    fun h => (by cases h), fun _ => rfl⟩
  told _ _ h := by cases h

/-! ## 3. What an event keeps -/

theorem Logged.next {log : List Event} {next next' : Nat} (h : Logged log next)
    (hle : next ≤ next') : Logged log next' :=
  ⟨h.asked, h.once, fun stop kill hmem => Nat.lt_of_lt_of_le (h.issued stop kill hmem) hle, h.known⟩

variable {e : Event}

theorem Logged.snoc {log : List Event} {next : Nat} (h : Logged log next) (hrequest : e.request = none)
    (hknown : ∀ stop name gone, e = .answered stop name gone → ∃ kill, .asked stop kill ∈ log) :
    Logged (log ++ [e]) next := by
  have hasked : ∀ stop kill, .asked stop kill ∈ log ++ [e] → .asked stop kill ∈ log := by
    intro stop kill hmem
    rcases mem_snoc.mp hmem with hmem | hmem
    · exact hmem
    · rw [← hmem] at hrequest
      cases hrequest
  refine ⟨fun stop kill hmem => ?_, ?_, fun stop kill hmem => h.issued stop kill (hasked _ _ hmem),
    fun stop name gone hmem => ?_⟩
  · obtain ⟨harmed, rest⟩ := h.asked stop kill (hasked _ _ hmem)
    exact ⟨List.mem_append_left _ harmed, rest⟩
  · simpa [List.filterMap_append, hrequest] using h.once
  · rcases mem_snoc.mp hmem with hmem | hmem
    · obtain ⟨kill, hkill⟩ := h.known stop name gone hmem
      exact ⟨kill, List.mem_append_left _ hkill⟩
    · obtain ⟨kill, hkill⟩ := hknown stop name gone hmem.symm
      exact ⟨kill, List.mem_append_left _ hkill⟩

theorem Logged.ask {log : List Event} {next : Nat} {stop : Stop} {kill : Kill}
    (h : Logged log next) (harmed : .armed stop ∈ log) (hissued : stop.id < next)
    (hconnection : stop.connection = some kill.connectionId)
    (hnamed : ∃ entry ∈ stop.named, entry.session = kill.session)
    (hnew : ∀ other request, .asked other request ∈ log → other.key = stop.key →
      request.session ≠ kill.session) :
    Logged (log ++ [.asked stop kill]) next := by
  refine ⟨fun other request hmem => ?_, ?_, fun other request hmem => ?_,
    fun other name gone hmem => ?_⟩
  · rcases mem_snoc.mp hmem with hmem | hmem
    · obtain ⟨harmed, rest⟩ := h.asked other request hmem
      exact ⟨List.mem_append_left _ harmed, rest⟩
    · cases hmem
      exact ⟨List.mem_append_left _ harmed, hconnection, hnamed⟩
  · rw [List.filterMap_append]
    refine List.nodup_append.mpr ⟨h.once, List.nodup_singleton _, ?_⟩
    rintro ⟨key, session⟩ hold pair hpair rfl
    obtain ⟨e, he, hrequest⟩ := List.mem_filterMap.mp hold
    cases List.mem_singleton.mp hpair
    cases e <;> simp only [Event.request, reduceCtorEq, Option.some.injEq, Prod.mk.injEq] at hrequest
    exact hnew _ _ he hrequest.1 hrequest.2
  · rcases mem_snoc.mp hmem with hmem | hmem
    · exact h.issued other request hmem
    · cases hmem
      exact hissued
  · rcases mem_snoc.mp hmem with hmem | hmem
    · obtain ⟨request, hrequest⟩ := h.known other name gone hmem
      exact ⟨request, List.mem_append_left _ hrequest⟩
    · cases hmem

theorem Fresh.snoc {log : List Event} {next next' : Nat} {stop : Stop}
    (h : Fresh log next stop) (hle : next ≤ next') (he : e.stop.key ≠ stop.key) :
    Fresh (log ++ [e]) next' stop := by
  refine ⟨List.mem_append_left _ h.armed, Nat.lt_of_lt_of_le h.issued hle, fun other kill hmem => ?_⟩
  rcases mem_snoc.mp hmem with hmem | hmem
  · exact h.unasked other kill hmem
  · rw [← hmem] at he
    exact he

theorem Killing.snoc {log : List Event} {kill : TabKill} (h : Killing log kill) (e : Event) :
    Killing (log ++ [e]) kill := by
  obtain ⟨request, hrequest⟩ := h.asked
  exact ⟨h.bar, h.connection, h.named, request, List.mem_append_left _ hrequest⟩

theorem Running.snoc {log : List Event} {next next' : Nat} {batch : Batch} {asked todo : List Entry}
    (h : Running log next batch asked todo) (hle : next ≤ next')
    (he : e.stop.surface = .bar) : Running (log ++ [e]) next' batch asked todo := by
  refine ⟨h.panel, List.mem_append_left _ h.armed, Nat.lt_of_lt_of_le h.issued hle, h.connection,
    h.named, h.nodup, fun stop kill hmem hkey => ?_, fun name hmem => ?_⟩
  · rcases mem_snoc.mp hmem with hmem | hmem
    · exact h.requests stop kill hmem hkey
    · rw [← hmem] at he
      have hpanel := (congrArg Prod.fst hkey).trans h.panel
      cases he.symm.trans hpanel
  · rcases mem_snoc.mp hmem with hmem | hmem
    · exact h.failed name hmem
    · rw [← hmem] at he
      cases he.symm.trans h.panel

theorem surface_ne {stop other : Stop} (h : stop.surface = .bar) (k : other.surface = .panel) :
    stop.key ≠ other.key := by
  intro heq
  cases h.symm.trans ((congrArg Prod.fst heq).trans k)

theorem BarInv.same {s t : State F} (h : BarInv s) (hlog : t.log = s.log)
    (hnext : t.nextStop = s.nextStop) (harmed : t.armed = s.armed)
    (hstopping : t.stopping = s.stopping) (hbusy : t.stopBusy = s.stopBusy)
    (hkills : t.kills = s.kills) : BarInv t where
  surface := by rw [harmed]; exact h.surface
  named := by rw [harmed, hstopping]; exact h.named
  fresh := by rw [harmed, hstopping, hbusy, hlog, hnext]; exact h.fresh
  busy := by rw [hbusy, hkills, hlog]; exact h.busy
  idle := by rw [hbusy, hkills]; exact h.idle

theorem PanelInv.same {s t : State F} (h : PanelInv s) (hlog : t.log = s.log)
    (hnext : t.nextStop = s.nextStop) (harmed : t.folderArmed = s.folderArmed)
    (hmenu : t.folderMenu = s.folderMenu) (hstopping : t.folderStopping = s.folderStopping)
    (hbusy : t.folderStopBusy = s.folderStopBusy) (hbatches : t.batches = s.batches) :
    PanelInv t where
  surface := by rw [harmed]; exact h.surface
  menu := by rw [hmenu]; exact h.menu
  named := by rw [harmed, hstopping]; exact h.named
  fresh := by rw [harmed, hstopping, hbusy, hlog, hnext]; exact h.fresh
  busy := by rw [hbusy, hbatches, hlog, hnext]; exact h.busy
  idle := by rw [hbusy, hbatches]; exact h.idle

/-- An event of the panel leaves what is kept of the tab bar. -/
theorem BarInv.log {s t : State F} (h : BarInv s) (hlog : t.log = s.log ++ [e])
    (he : e.stop.surface = .panel) (hle : s.nextStop ≤ t.nextStop) (harmed : t.armed = s.armed)
    (hstopping : t.stopping = s.stopping) (hbusy : t.stopBusy = s.stopBusy)
    (hkills : t.kills = s.kills) : BarInv t where
  surface := by rw [harmed]; exact h.surface
  named := by rw [harmed, hstopping]; exact h.named
  fresh := by
    rw [harmed, hstopping, hbusy, hlog]
    exact fun hb hs => (h.fresh hb hs).snoc hle (surface_ne h.surface he).symm
  busy := by
    rw [hbusy, hkills, hlog]
    intro hb
    obtain ⟨kill, heq, hkill⟩ := h.busy hb
    exact ⟨kill, heq, hkill.snoc e⟩
  idle := by rw [hbusy, hkills]; exact h.idle

/-- An event of the tab bar leaves what is kept of the panel. -/
theorem PanelInv.log {s t : State F} (h : PanelInv s) (hlog : t.log = s.log ++ [e])
    (he : e.stop.surface = .bar) (hle : s.nextStop ≤ t.nextStop)
    (harmed : t.folderArmed = s.folderArmed) (hmenu : t.folderMenu = s.folderMenu)
    (hstopping : t.folderStopping = s.folderStopping)
    (hbusy : t.folderStopBusy = s.folderStopBusy) (hbatches : t.batches = s.batches) :
    PanelInv t where
  surface := by rw [harmed]; exact h.surface
  menu := by rw [hmenu]; exact h.menu
  named := by rw [harmed, hstopping]; exact h.named
  fresh := by
    rw [harmed, hstopping, hbusy, hlog]
    exact fun hb hs => (h.fresh hb hs).snoc hle (surface_ne he h.surface)
  busy := by
    rw [hbusy, hbatches, hlog]
    intro hb
    obtain ⟨batch, heq, asked, entry, rest, htodo, hrunning, kill, hkill⟩ := h.busy hb
    exact ⟨batch, heq, asked, entry, rest, htodo, hrunning.snoc hle he, kill,
      List.mem_append_left _ hkill⟩
  idle := by rw [hbusy, hbatches]; exact h.idle

theorem Told.snoc {log : List Event} {batches : List Batch} (h : Told log batches)
    (he : ∀ stop name, e ≠ .answered stop name false) : Told (log ++ [e]) batches := by
  intro stop name hmem
  rcases mem_snoc.mp hmem with hmem | hmem
  · obtain ⟨text, htext, hname⟩ | hbatch := h stop name hmem
    · exact .inl ⟨text, List.mem_append_left _ htext, hname⟩
    · exact .inr hbatch
  · exact absurd hmem.symm (he stop name)

theorem Told.report {log : List Event} {batches : List Batch} {stop : Stop} {name text : Text}
    (h : Told log batches) (hname : name <:+: text) :
    Told (log ++ [.answered stop name false] ++ [.reported stop text]) batches := by
  intro other other_name hmem
  rw [List.append_assoc, List.mem_append] at hmem
  rcases hmem with hmem | hmem
  · obtain ⟨told, htold, hinfix⟩ | hbatch := h other other_name hmem
    · exact .inl ⟨told, List.mem_append_left _ (List.mem_append_left _ htold), hinfix⟩
    · exact .inr hbatch
  · simp only [List.singleton_append, List.mem_cons, Event.answered.injEq, and_true, reduceCtorEq,
      List.not_mem_nil, or_false] at hmem
    obtain ⟨rfl, rfl⟩ := hmem
    exact .inl ⟨text, by simp, hname⟩

/-! ## 4. The tab bar -/

theorem BarInv.settled {s t : State F} (h : BarInv s) (harmed : t.armed = s.armed)
    (hstopping : t.stopping = none) (hbusy : t.stopBusy = false) (hkills : t.kills = []) :
    BarInv t where
  surface := by rw [harmed]; exact h.surface
  named := by simp [hstopping]
  fresh := by simp [hstopping]
  busy := by simp [hbusy]
  idle _ := hkills

theorem Entry.ofTab_name (rows : List Row) (name : Text) : (Entry.ofTab rows name).name = name := by
  unfold Entry.ofTab
  split <;> rfl

theorem arm_inv (h : Inv s) (name : Text) : Inv (s.arm rowsOf name) where
  logged := (h.logged.snoc rfl (fun _ _ _ heq => by cases heq)).next (Nat.le_succ _)
  bar := by
    refine ⟨rfl, fun other heq => ?_, fun _ _ => ?_, fun hb => ?_, h.bar.idle⟩
    · cases heq
      exact ⟨_, rfl, Entry.ofTab_name _ _⟩
    · refine ⟨by simp [State.arm, State.addLog], Nat.lt_succ_self _, fun other kill hmem hkey => ?_⟩
      rcases mem_snoc.mp hmem with hmem | hmem
      · have hid : other.id = s.nextStop := congrArg Prod.snd hkey
        have hlt := h.logged.issued other kill hmem
        omega
      · cases hmem
    · obtain ⟨kill, heq, hkill⟩ := h.bar.busy hb
      exact ⟨kill, heq, hkill.snoc _⟩
  panel := h.panel.log rfl rfl (Nat.le_succ _) rfl rfl rfl rfl rfl
  told := h.told.snoc fun _ _ heq => by cases heq

theorem confirmStop_inv (h : Inv s) (hb : s.stopBusy = false)
    (hc : Careful rowsOf s .confirm) : Inv (s.confirmStop rowsOf) := by
  have hcancel : Inv { s with stopping := none } :=
    ⟨h.logged, h.bar.settled rfl rfl hb (h.bar.idle hb),
      h.panel.same rfl rfl rfl rfl rfl rfl rfl, h.told⟩
  unfold State.confirmStop
  split
  case h_2 => exact hcancel
  case h_1 session connectionId hstopping hconnection =>
    split
    · exact hcancel
    · have hfresh := h.bar.fresh hb (by simp [hstopping])
      obtain ⟨entry, hnamed, hname⟩ := h.bar.named session hstopping
      obtain ⟨harmed, hsession⟩ := hc hb session hstopping connectionId hconnection
      constructor
      · refine h.logged.ask hfresh.armed hfresh.issued harmed ⟨entry, by simp [hnamed], ?_⟩
          fun other request hmem hkey => absurd hkey (hfresh.unasked other request hmem)
        exact (hsession entry (by simp [hnamed])).symm
      · refine ⟨h.bar.surface, h.bar.named, fun hf => (by cases hf), fun _ => ?_,
          fun hf => (by cases hf)⟩
        refine ⟨⟨connectionId, session, s.armed⟩, by simp [State.addLog, h.bar.idle hb],
          h.bar.surface, harmed, ⟨entry, hnamed, hname⟩,
          ⟨connectionId, session, aplexerRefFor (s.rows rowsOf) session⟩, ?_⟩
        exact List.mem_append_right _ (List.mem_singleton.mpr rfl)
      · exact h.panel.log rfl h.bar.surface le_rfl rfl rfl rfl rfl rfl
      · exact h.told.snoc fun _ _ heq => by cases heq

variable {i : Nat}

/-- The one kill that waits. -/
theorem Inv.kill (h : Inv s) {kill : TabKill}
    (hi : s.kills[i]? = some kill) : Killing s.log kill ∧ s.kills.eraseIdx i = [] := by
  cases hb : s.stopBusy with
  | false => simp [h.bar.idle hb] at hi
  | true =>
    obtain ⟨only, heq, honly⟩ := h.bar.busy hb
    rw [heq] at hi ⊢
    cases i with
    | zero =>
      cases hi
      exact ⟨honly, rfl⟩
    | succ i => simp at hi

theorem infix_default (name : Text) :
    name <:+: ascii "Could not stop " ++ quoted name ++ ascii "." :=
  ⟨ascii "Could not stop " ++ ascii "\"", ascii "\"" ++ ascii ".", by simp [quoted]⟩

variable {now : Int} {answer : Answer}

theorem killed_inv (h : Inv s) {kill : TabKill}
    (hi : s.kills[i]? = some kill) (hc : Careful rowsOf s (.answered i answer now)) :
    Inv (s.killed rowsOf i kill answer now) := by
  obtain ⟨hkill, herase⟩ := h.kill hi
  have hsnoc : ∀ gone, Logged (s.log ++ [.answered kill.stop kill.session gone]) s.nextStop := by
    intro gone
    refine h.logged.snoc rfl fun stop name other heq => ?_
    cases heq
    exact hkill.asked
  unfold State.killed
  dsimp only
  split
  case isTrue hgone =>
    refine ⟨hsnoc _, h.bar.settled rfl rfl rfl herase,
      h.panel.log rfl hkill.bar le_rfl rfl rfl rfl rfl rfl, h.told.snoc fun stop name heq => ?_⟩
    simp [hgone] at heq
  case isFalse hgone =>
    rw [Bool.not_eq_true] at hgone
    have herror : kill.session <:+: answer.error.getD
        (ascii "Could not stop " ++ quoted kill.session ++ ascii ".") := by
      cases he : answer.error with
      | none => exact infix_default _
      | some text =>
        have hnames := hc kill hi
        rw [hgone] at hnames
        exact hnames text he
    have hpanel : PanelInv (s.addLog (.answered kill.stop kill.session answer.gone)) :=
      h.panel.log rfl hkill.bar le_rfl rfl rfl rfl rfl rfl
    refine ⟨(hsnoc _).snoc rfl fun _ _ _ heq => (by cases heq),
      h.bar.settled rfl rfl rfl herase, hpanel.log rfl hkill.bar le_rfl rfl rfl rfl rfl rfl, ?_⟩
    rw [hgone]
    exact h.told.report herror

/-! ## 5. The panel -/

theorem intercalate_infix {name : Text} {names : List Text} (sep : Text) (h : name ∈ names) :
    name <:+: sep.intercalate names := by
  induction names with
  | nil => cases h
  | cons head rest ih =>
    rcases List.mem_cons.mp h with rfl | h
    · cases rest with
      | nil => rw [List.intercalate_singleton]
      | cons next rest =>
        rw [List.intercalate_cons_of_ne_nil (List.cons_ne_nil _ _), List.append_assoc]
        exact (List.prefix_append _ _).isInfix
    · rw [List.intercalate_cons_of_ne_nil (List.ne_nil_of_mem h)]
      exact (ih h).trans (List.suffix_append _ _).isInfix

/-- A failed session is named by what is reported of its batch. -/
theorem stopError_names {batch : Batch} {name : Text} (h : name ∈ batch.failed) :
    name <:+: State.stopError batch := by
  have hquoted : name <:+: quoted name := ⟨ascii "\"", ascii "\"", rfl⟩
  have hnames : quoted name <:+: (ascii ", ").intercalate (batch.failed.map quoted) :=
    intercalate_infix _ (List.mem_map_of_mem h)
  refine (hquoted.trans hnames).trans ?_
  unfold State.stopError
  simp only [List.append_assoc]
  exact (List.prefix_append _ _).isInfix.trans (List.suffix_append _ _).isInfix

/-- A batch between two kills: the loop goes on with `batch.todo`. -/
structure Between (s : State F) (batch : Batch) (asked : List Entry) : Prop where
  logged : Logged s.log s.nextStop
  bar : BarInv s
  surface : s.folderArmed.surface = .panel
  menu : ∀ target, s.folderMenu = some target → (target.sessions.map Entry.session).Nodup
  named : ∀ target, s.folderStopping = some target → target.sessions = s.folderArmed.named ∧
    (s.folderArmed.named.map Entry.session).Nodup
  busy : s.folderStopBusy = true
  batches : s.batches = []
  running : Running s.log s.nextStop batch asked batch.todo
  told : Told s.log [batch]

theorem goOn_inv {batch : Batch} (asked : List Entry) (h : Between s batch asked) :
    Inv (s.goOn batch) := by
  unfold State.goOn
  split
  case h_1 htodo =>
    unfold State.finish
    dsimp only
    split
    case isTrue hfailed =>
      have hbar : BarInv { s with folderStopBusy := false, folderStopping := none } :=
        h.bar.same rfl rfl rfl rfl rfl rfl
      refine ⟨h.logged, hbar.same rfl rfl rfl rfl rfl rfl, ⟨h.surface, h.menu, fun _ heq => ?_,
        fun _ hs => ?_, fun hb => ?_, fun _ => h.batches⟩, fun stop name hmem => ?_⟩
      · cases heq
      · cases hs
      · cases hb
      · obtain htold | ⟨other, hother, rfl⟩ := h.told stop name hmem
        · exact .inl htold
        · cases List.mem_singleton.mp hother
          have hname := h.running.failed name hmem
          simp [hfailed] at hname
    case isFalse hfailed =>
      refine ⟨h.logged.snoc rfl (fun _ _ _ heq => by cases heq),
        h.bar.log rfl h.running.panel le_rfl rfl rfl rfl rfl, ⟨h.surface, h.menu, fun _ heq => ?_,
        fun _ hs => ?_, fun hb => ?_, fun _ => h.batches⟩, fun stop name hmem => ?_⟩
      · cases heq
      · cases hs
      · cases hb
      · rcases mem_snoc.mp hmem with hmem | hmem
        · obtain ⟨text, htext, hname⟩ | ⟨other, hother, rfl⟩ := h.told stop name hmem
          · exact .inl ⟨text, List.mem_append_left _ htext, hname⟩
          · cases List.mem_singleton.mp hother
            exact .inl ⟨State.stopError batch, List.mem_append_right _ (List.mem_singleton.mpr rfl),
              stopError_names (h.running.failed name hmem)⟩
        · cases hmem
  case h_2 entry rest htodo =>
    have hrunning := h.running
    rw [htodo] at hrunning
    have hnew : entry.session ∉ asked.map Entry.session := by
      have hnodup := hrunning.nodup
      rw [hrunning.named, List.map_append, List.map_cons] at hnodup
      exact fun hmem => (List.nodup_append.mp hnodup).2.2 _ hmem _ List.mem_cons_self rfl
    refine ⟨h.logged.ask hrunning.armed hrunning.issued hrunning.connection
      ⟨entry, by simp [hrunning.named], rfl⟩ fun other request hmem hkey heq => ?_,
      h.bar.log rfl hrunning.panel le_rfl rfl rfl rfl rfl,
      ⟨h.surface, h.menu, h.named, fun hf => ?_, fun _ => ?_, fun hf => ?_⟩, ?_⟩
    · have hold := hrunning.requests other request hmem hkey
      rw [heq] at hold
      exact hnew hold
    · exact absurd (h.busy.symm.trans hf) (by simp)
    · refine ⟨batch, by simp [State.addLog, h.batches], asked, entry, rest, htodo, ?_,
        ⟨batch.connectionId, entry.name, entry.killRef⟩,
        List.mem_append_right _ (List.mem_singleton.mpr rfl)⟩
      refine ⟨hrunning.panel, List.mem_append_left _ hrunning.armed, hrunning.issued,
        hrunning.connection, by simp [hrunning.named], hrunning.nodup,
        fun stop kill hmem hkey => ?_, fun name hmem => ?_⟩
      · rw [List.map_append]
        rcases mem_snoc.mp hmem with hmem | hmem
        · exact List.mem_append_left _ (hrunning.requests stop kill hmem hkey)
        · cases hmem
          exact List.mem_append_right _ (List.mem_singleton.mpr rfl)
      · rcases mem_snoc.mp hmem with hmem | hmem
        · exact hrunning.failed name hmem
        · cases hmem
    · exact absurd (h.busy.symm.trans hf) (by simp)
    · have hbatches : (s.batches ++ [batch]) = [batch] := by simp [h.batches]
      have htold := h.told.snoc (e := .asked batch.stop ⟨batch.connectionId, entry.name,
        entry.killRef⟩) fun _ _ heq => by cases heq
      rw [← hbatches] at htold
      exact htold

theorem askStopFolder_inv (h : Inv s) : Inv s.askStopFolder := by
  unfold State.askStopFolder
  split
  case h_1 => exact h
  case h_2 target hmenu =>
    split
    · exact ⟨h.logged, h.bar.same rfl rfl rfl rfl rfl rfl, ⟨h.panel.surface,
        fun _ heq => (by cases heq), h.panel.named, h.panel.fresh, h.panel.busy, h.panel.idle⟩,
        h.told⟩
    · refine ⟨(h.logged.snoc rfl (fun _ _ _ heq => by cases heq)).next (Nat.le_succ _),
        h.bar.log rfl rfl (Nat.le_succ _) rfl rfl rfl rfl, ⟨rfl, fun _ heq => (by cases heq),
        fun _ heq => ?_, fun _ _ => ?_, fun hb => ?_, h.panel.idle⟩,
        h.told.snoc fun _ _ heq => by cases heq⟩
      · cases heq
        exact ⟨rfl, h.panel.menu target hmenu⟩
      · refine ⟨List.mem_append_right _ (List.mem_singleton.mpr rfl), Nat.lt_succ_self _,
          fun other kill hmem hkey => ?_⟩
        rcases mem_snoc.mp hmem with hmem | hmem
        · have hid : other.id = s.nextStop := congrArg Prod.snd hkey
          have hlt := h.logged.issued other kill hmem
          omega
        · cases hmem
      · obtain ⟨batch, heq, asked, entry, rest, htodo, hrunning, kill, hkill⟩ := h.panel.busy hb
        refine ⟨batch, heq, asked, entry, rest, htodo, ?_, kill, List.mem_append_left _ hkill⟩
        refine ⟨hrunning.panel, List.mem_append_left _ hrunning.armed,
          Nat.lt_succ_of_lt hrunning.issued, hrunning.connection, hrunning.named, hrunning.nodup,
          fun stop request hmem => ?_, fun name hmem => ?_⟩
        · rcases mem_snoc.mp hmem with hmem | hmem
          · exact hrunning.requests stop request hmem
          · cases hmem
        · rcases mem_snoc.mp hmem with hmem | hmem
          · exact hrunning.failed name hmem
          · cases hmem

theorem confirmStopFolder_inv (h : Inv s) (hb : s.folderStopBusy = false)
    (hc : Careful rowsOf s .confirmFolder) : Inv s.confirmStopFolder := by
  have hcancel : Inv { s with folderStopping := none } :=
    ⟨h.logged, h.bar.same rfl rfl rfl rfl rfl rfl, ⟨h.panel.surface, h.panel.menu,
      fun _ heq => (by cases heq), fun _ hs => (by cases hs), h.panel.busy, h.panel.idle⟩, h.told⟩
  unfold State.confirmStopFolder
  split
  case h_2 => exact hcancel
  case h_1 target connectionId hstopping hconnection =>
    split
    · exact hcancel
    · have hsome : s.folderStopping.isSome := by simp [hstopping]
      have hfresh := h.panel.fresh hb hsome
      obtain ⟨hsessions, hnodup⟩ := h.panel.named target hstopping
      have hbatches := h.panel.idle hb
      refine goOn_inv [] ⟨h.logged, h.bar.same rfl rfl rfl rfl rfl rfl, h.panel.surface,
        h.panel.menu, h.panel.named, rfl, hbatches, ?_, ?_⟩
      · exact ⟨h.panel.surface, hfresh.armed, hfresh.issued, hc hb hsome connectionId hconnection,
          hsessions.symm, hnodup, fun stop kill hmem hkey => absurd hkey (hfresh.unasked _ _ hmem),
          fun name hmem => absurd rfl (hfresh.unasked _ _ (h.logged.known _ _ _ hmem).choose_spec)⟩
      · intro stop name hmem
        obtain htold | ⟨other, hother, -⟩ := h.told stop name hmem
        · exact .inl htold
        · rw [hbatches] at hother
          cases hother

/-- The one batch that waits. -/
theorem Inv.batch (h : Inv s) {batch : Batch} (hi : s.batches[i]? = some batch) :
    s.folderStopBusy = true ∧ s.batches = [batch] ∧ s.batches.eraseIdx i = [] ∧
      InFlight s.log s.nextStop batch := by
  cases hb : s.folderStopBusy with
  | false => simp [h.panel.idle hb] at hi
  | true =>
    obtain ⟨only, heq, honly⟩ := h.panel.busy hb
    rw [heq] at hi ⊢
    cases i with
    | zero =>
      cases hi
      exact ⟨rfl, rfl, rfl, honly⟩
    | succ i => simp at hi

theorem Running.answered {log : List Event} {next : Nat} {batch batch' : Batch}
    {asked todo : List Entry} {name : Text} {gone : Bool} (h : Running log next batch asked todo)
    (hstop : batch'.stop = batch.stop) (hconnection : batch'.connectionId = batch.connectionId)
    (hfailed : ∀ other ∈ batch.failed, other ∈ batch'.failed)
    (hname : gone = false → name ∈ batch'.failed) :
    Running (log ++ [.answered batch.stop name gone]) next batch' asked todo := by
  refine ⟨by rw [hstop]; exact h.panel, by rw [hstop]; exact List.mem_append_left _ h.armed,
    by rw [hstop]; exact h.issued, by rw [hstop, hconnection]; exact h.connection,
    by rw [hstop]; exact h.named, by rw [hstop]; exact h.nodup, fun stop kill hmem hkey => ?_,
    fun other hmem => ?_⟩
  · rw [hstop] at hkey
    rcases mem_snoc.mp hmem with hmem | hmem
    · exact h.requests stop kill hmem hkey
    · cases hmem
  · rw [hstop] at hmem
    rcases mem_snoc.mp hmem with hmem | hmem
    · exact hfailed other (h.failed other hmem)
    · obtain ⟨-, rfl, rfl⟩ : True ∧ other = name ∧ gone = false := by
        simpa [eq_comm] using hmem
      exact hname rfl

variable {todo : List Entry}

theorem folderKilled_inv (h : Inv s) {batch : Batch}
    (hi : s.batches[i]? = some batch) (htodo : batch.todo = entry :: todo)
    (answer : Answer) (now : Int) : Inv (s.folderKilled i batch entry todo answer now) := by
  obtain ⟨hbusy, honly, herase, asked, head, rest, heq, hrunning, kill, hkill⟩ := h.batch hi
  rw [htodo] at heq
  cases heq
  have hlogged : ∀ gone, Logged (s.log ++ [.answered batch.stop entry.name gone]) s.nextStop := by
    intro gone
    refine h.logged.snoc rfl fun stop name other heq => ?_
    cases heq
    exact ⟨kill, hkill⟩
  have htold : ∀ gone (batch' : Batch), batch'.stop = batch.stop →
      Told (s.log ++ [.answered batch.stop entry.name gone]) [batch'] := by
    intro gone batch' hstop stop name hmem
    rcases mem_snoc.mp hmem with hmem | hmem
    · obtain ⟨text, htext, hname⟩ | ⟨other, hother, rfl⟩ := h.told stop name hmem
      · exact .inl ⟨text, List.mem_append_left _ htext, hname⟩
      · rw [honly] at hother
        cases List.mem_singleton.mp hother
        exact .inr ⟨batch', List.mem_singleton.mpr rfl, hstop⟩
    · cases hmem
      exact .inr ⟨batch', List.mem_singleton.mpr rfl, hstop⟩
  unfold State.folderKilled
  dsimp only
  split
  case isTrue hgone =>
    refine goOn_inv (asked ++ [entry]) ⟨hlogged _,
      h.bar.log rfl hrunning.panel le_rfl rfl rfl rfl rfl, h.panel.surface, h.panel.menu,
      h.panel.named, hbusy, herase, ?_, htold _ _ rfl⟩
    exact hrunning.answered rfl rfl (fun _ hmem => hmem) fun hf => (by simp [hgone] at hf)
  case isFalse hgone =>
    refine goOn_inv (asked ++ [entry]) ⟨hlogged _,
      h.bar.log rfl hrunning.panel le_rfl rfl rfl rfl rfl, h.panel.surface, h.panel.menu,
      h.panel.named, hbusy, herase, ?_, htold _ _ rfl⟩
    exact hrunning.answered rfl rfl (fun _ hmem => List.mem_append_left _ hmem)
      fun _ => List.mem_append_right _ (List.mem_singleton.mpr rfl)

/-! ## 6. Steps -/

variable {a : Action F}

theorem inv_step (h : Inv s) (hc : Careful rowsOf s a) : Inv (s.step rowsOf a) := by
  have hsame : ∀ t : State F, t.log = s.log → t.nextStop = s.nextStop → t.armed = s.armed →
      t.stopping = s.stopping → t.stopBusy = s.stopBusy → t.kills = s.kills →
      t.folderArmed = s.folderArmed → t.folderMenu = s.folderMenu →
      t.folderStopping = s.folderStopping → t.folderStopBusy = s.folderStopBusy →
      t.batches = s.batches → Inv t := by
    intro t hlog hnext harmed hstopping hbusy hkills hfolderArmed hmenu hfolder hfolderBusy hbatches
    refine ⟨?_, h.bar.same hlog hnext harmed hstopping hbusy hkills,
      h.panel.same hlog hnext hfolderArmed hmenu hfolder hfolderBusy hbatches, ?_⟩
    · rw [hlog, hnext]
      exact h.logged
    · rw [hlog, hbatches]
      exact h.told
  cases a with
  | arm name => exact arm_inv rowsOf h name
  | cancel =>
    exact ⟨h.logged, ⟨h.bar.surface, fun _ heq => (by cases heq), fun _ hs => (by cases hs),
      h.bar.busy, h.bar.idle⟩, h.panel.same rfl rfl rfl rfl rfl rfl rfl, h.told⟩
  | confirm =>
    simp only [State.step]
    split
    · exact h
    case isFalse hb => exact confirmStop_inv rowsOf h (by simpa using hb) hc
  | answered i answer now =>
    simp only [State.step]
    split
    case h_1 kill hi => exact killed_inv rowsOf h hi hc
    case h_2 => exact h
  | openFolderMenu label sessions =>
    refine ⟨h.logged, h.bar.same rfl rfl rfl rfl rfl rfl, ⟨h.panel.surface, fun _ heq => ?_,
      h.panel.named, h.panel.fresh, h.panel.busy, h.panel.idle⟩, h.told⟩
    cases heq
    exact hc
  | closeFolderMenu =>
    exact ⟨h.logged, h.bar.same rfl rfl rfl rfl rfl rfl, ⟨h.panel.surface,
      fun _ heq => (by cases heq), h.panel.named, h.panel.fresh, h.panel.busy, h.panel.idle⟩, h.told⟩
  | askStopFolder => exact askStopFolder_inv h
  | cancelFolder =>
    exact ⟨h.logged, h.bar.same rfl rfl rfl rfl rfl rfl, ⟨h.panel.surface, h.panel.menu,
      fun _ heq => (by cases heq), fun _ hs => (by cases hs), h.panel.busy, h.panel.idle⟩, h.told⟩
  | confirmFolder =>
    simp only [State.step]
    split
    · exact h
    case isFalse hb => exact confirmStopFolder_inv rowsOf h (by simpa using hb) hc
  | folderAnswered i answer now =>
    simp only [State.step]
    split
    case h_1 batch hi =>
      split
      case h_1 entry todo htodo => exact folderKilled_inv h hi htodo answer now
      case h_2 => exact h
    case h_2 => exact h
  | connect | showFolder | refresh | listed | listFailed | addPending | renameLocal | mountPanes
  | writeComposer | setCreateError =>
    exact hsame _ rfl rfl rfl rfl rfl rfl rfl rfl rfl rfl rfl

/-! ### The list and its kills -/

theorem Graves.start (folder : F) : Graves ({ folder } : State F) where
  buries := Buries.start
  stopped _ _ _ h := by cases h

variable {connection : Option Text}

theorem StoppedOn.grow {s t : State F} {id : Sessions.Identity}
    (h : StoppedOn s connection id) (hlog : ∀ e ∈ s.log, e ∈ t.log) : StoppedOn t connection id := by
  obtain ⟨stop, entry, hanswered, rest⟩ := h
  exact ⟨stop, entry, hlog _ hanswered, rest⟩

theorem Graves.same {s t : State F} (h : Graves s) (hsessions : t.sessions = s.sessions)
    (hrecord : t.record = s.record) (hlog : ∀ e ∈ s.log, e ∈ t.log) : Graves t where
  buries := by rw [hsessions]; exact h.buries
  stopped connection id now hmem :=
    (h.stopped connection id now (hrecord ▸ hmem)).grow hlog

/-- A kill of the list is one that a stop was answered for. -/
theorem Graves.list (h : Graves s) (connection : Option Text) (action : Sessions.Action Handle)
    (hkill : ∀ name workspace now, action = .removeLocal name workspace now →
      StoppedOn s connection (identityOf name workspace)) : Graves (s.list connection action) := by
  obtain ⟨es, hlog, hes⟩ := Sessions.step_log s.sessions action
  have hrecord : (s.list connection action).record = s.record ++ es.map (connection, ·) := by
    show s.record ++ ((s.sessions.step action).log.drop s.sessions.log.length).map _ = _
    rw [hlog, List.drop_left]
  refine ⟨h.buries.step action, fun other id now hmem => ?_⟩
  rw [hrecord] at hmem
  rcases List.mem_append.mp hmem with hmem | hmem
  · exact (h.stopped other id now hmem).grow fun _ he => he
  · obtain ⟨e, he, heq⟩ := List.mem_map.mp hmem
    cases heq
    obtain ⟨name, workspace, haction, rfl⟩ := hes id now he
    exact (hkill name workspace now haction).grow fun _ he => he

theorem Graves.refresh (h : Graves s) (connectionId : Text) (quiet : Bool) :
    Graves (s.refresh connectionId quiet) :=
  (h.list (some connectionId) (.refresh quiet) fun _ _ _ heq => by cases heq).same rfl rfl
    fun _ he => he

theorem Graves.goOn (h : Graves s) (batch : Batch) : Graves (s.goOn batch) := by
  unfold State.goOn
  split
  · unfold State.finish
    dsimp only
    refine Graves.refresh ?_ ..
    split
    · exact h.same rfl rfl fun _ he => he
    · exact h.same rfl rfl fun _ he => List.mem_append_left _ he
  · exact h.same rfl rfl fun _ he => List.mem_append_left _ he

theorem graves_killed (h : Inv s) (hgraves : Graves s) {kill : TabKill} (hi : s.kills[i]? = some kill)
    (hc : Careful rowsOf s (.answered i answer now)) :
    Graves (s.killed rowsOf i kill answer now) := by
  obtain ⟨hkill, -⟩ := h.kill hi
  obtain ⟨entry, hnamed, hname⟩ := hkill.named
  have hcareful := hc kill hi
  have hanswered : Graves (s.addLog (.answered kill.stop kill.session answer.gone)) :=
    hgraves.same rfl rfl fun _ he => List.mem_append_left _ he
  unfold State.killed
  dsimp only
  split
  case isTrue hgone =>
    rw [if_pos hgone] at hcareful
    obtain ⟨-, hrow, -⟩ := hcareful.2 entry (by simp [hnamed])
    refine Graves.refresh ?_ ..
    refine Graves.same (hanswered.list (some kill.connectionId) _ ?_) rfl rfl fun _ he => he
    intro name workspace now heq
    cases heq
    refine ⟨kill.stop, entry, ?_, by simp [hnamed], hkill.connection, hrow.symm⟩
    rw [hname, hgone]
    exact List.mem_append_right _ (List.mem_singleton.mpr rfl)
  case isFalse => exact hanswered.same rfl rfl fun _ he => List.mem_append_left _ he

theorem graves_folderKilled (h : Inv s) (hgraves : Graves s) {batch : Batch}
    (hi : s.batches[i]? = some batch) (htodo : batch.todo = entry :: todo) :
    Graves (s.folderKilled i batch entry todo answer now) := by
  obtain ⟨-, -, -, asked, head, rest, heq, hrunning, -⟩ := h.batch hi
  rw [htodo] at heq
  cases heq
  have hanswered : Graves (State.addLog { s with batches := s.batches.eraseIdx i }
      (.answered batch.stop entry.name answer.gone)) :=
    hgraves.same rfl rfl fun _ he => List.mem_append_left _ he
  unfold State.folderKilled
  dsimp only
  split
  case isTrue hgone =>
    refine Graves.goOn ?_ _
    refine Graves.same (hanswered.list (some batch.connectionId) _ ?_) rfl rfl fun _ he => he
    intro name workspace now heq
    cases heq
    refine ⟨batch.stop, entry, ?_, by simp [hrunning.named], hrunning.connection, rfl⟩
    rw [hgone]
    exact List.mem_append_right _ (List.mem_singleton.mpr rfl)
  case isFalse => exact hanswered.goOn _

theorem graves_step (h : Inv s) (hgraves : Graves s)
    (hc : Careful rowsOf s a) : Graves (s.step rowsOf a) := by
  have hsame : ∀ t : State F, t.sessions = s.sessions → t.record = s.record →
      (∀ e ∈ s.log, e ∈ t.log) → Graves t := fun t => hgraves.same
  cases a with
  | answered i answer now =>
    simp only [State.step]
    split
    case h_1 kill hi => exact graves_killed rowsOf h hgraves hi hc
    case h_2 => exact hgraves
  | folderAnswered i answer now =>
    simp only [State.step]
    split
    case h_1 batch hi =>
      split
      case h_1 entry todo htodo => exact graves_folderKilled h hgraves hi htodo
      case h_2 => exact hgraves
    case h_2 => exact hgraves
  | confirm =>
    simp only [State.step]
    split
    · exact hgraves
    · unfold State.confirmStop
      split
      · split
        · exact hsame _ rfl rfl fun _ he => he
        · exact hsame _ rfl rfl fun _ he => List.mem_append_left _ he
      · exact hsame _ rfl rfl fun _ he => he
  | askStopFolder =>
    simp only [State.step, State.askStopFolder]
    split
    · exact hgraves
    · split
      · exact hsame _ rfl rfl fun _ he => he
      · exact hsame _ rfl rfl fun _ he => List.mem_append_left _ he
  | confirmFolder =>
    simp only [State.step]
    split
    · exact hgraves
    · unfold State.confirmStopFolder
      split
      · split
        · exact hsame _ rfl rfl fun _ he => he
        · exact (hsame { s with folderStopBusy := true } rfl rfl fun _ he => he).goOn _
      · exact hsame _ rfl rfl fun _ he => he
  | arm name => exact hsame _ rfl rfl fun _ he => List.mem_append_left _ he
  | refresh connectionId quiet => exact hgraves.refresh connectionId quiet
  | listed | listFailed | addPending | renameLocal =>
    exact hgraves.list _ _ fun _ _ _ heq => by cases heq
  | cancel | openFolderMenu | closeFolderMenu | cancelFolder | connect | showFolder | mountPanes
  | writeComposer | setCreateError => exact hsame _ rfl rfl fun _ he => he

/-! ### The records -/

theorem Placed.rows (h : Placed s connection entry) :
    (s.sessions.sessions.filter fun row => identity row ≠ identityOf entry.name entry.workspace) =
      s.sessions.sessions.filter (!isRowOf connection entry ·) := by
  refine List.filter_congr fun row hrow => ?_
  by_cases heq : identity row = identityOf entry.name entry.workspace
  · simp [isRowOf, heq, h.1 row hrow heq]
  · simp [isRowOf, heq]

theorem Placed.panes (h : Placed s connection entry) :
    (s.openPanes.filter fun pane => pane.identity ≠ entry.identityKey) =
      s.openPanes.filter (!isPaneOf connection entry ·) := by
  refine List.filter_congr fun pane hpane => ?_
  by_cases heq : pane.identity = entry.identityKey
  · simp [isPaneOf, heq, h.2 pane hpane heq]
  · simp [isPaneOf, heq]

theorem goOn_keeps (s : State F) (batch : Batch) : Keeps s (s.goOn batch) := by
  unfold State.goOn
  split
  · unfold State.finish
    dsimp only
    split <;> exact ⟨rfl, rfl, rfl⟩
  · exact ⟨rfl, rfl, rfl⟩

theorem killed_settles (h : Inv s) {kill : TabKill}
    (hi : s.kills[i]? = some kill) (hc : Careful rowsOf s (.answered i answer now)) :
    Settles s (s.killed rowsOf i kill answer now) kill.stop kill.session answer := by
  obtain ⟨hkill, -⟩ := h.kill hi
  obtain ⟨entry, hnamed, hname⟩ := hkill.named
  have hcareful := hc kill hi
  unfold Settles State.killed
  dsimp only
  split
  case isTrue hgone =>
    rw [if_pos hgone] at hcareful
    obtain ⟨hconnection, hentries⟩ := hcareful
    obtain ⟨hidentity, hrow, hplaced⟩ := hentries entry (by simp [hnamed])
    refine ⟨entry, by simp [hnamed], hname, hconnection, ?_, ?_, ?_⟩
    · rw [← hplaced.rows, ← hrow]
      rfl
    · rw [← hplaced.panes, ← hidentity]
      rfl
    · rw [← hidentity, hkill.connection]
      rfl
  case isFalse hgone => exact ⟨rfl, rfl, rfl⟩

theorem folderKilled_settles (h : Inv s) {batch : Batch} (hi : s.batches[i]? = some batch)
    (htodo : batch.todo = entry :: todo) (hc : Careful rowsOf s (.folderAnswered i answer now)) :
    Settles s (s.folderKilled i batch entry todo answer now) batch.stop entry.name answer := by
  obtain ⟨-, -, -, asked, head, rest, heq, hrunning, -⟩ := h.batch hi
  rw [htodo] at heq
  cases heq
  unfold Settles State.folderKilled
  dsimp only
  split
  case isTrue hgone =>
    obtain ⟨hconnection, hentries⟩ := hc batch hi hgone
    obtain ⟨hplaced, hpane⟩ := hentries entry (by simp [htodo])
    refine ⟨entry, by simp [hrunning.named], rfl, Drops.keeps ⟨hconnection, ?_, ?_, ?_⟩
      (goOn_keeps _ _)⟩
    · rw [← hplaced.rows]
      rfl
    · refine (List.filter_eq_self.mpr fun pane hmem => ?_).symm
      have hne : pane.identity ≠ entry.identityKey := fun heq =>
        hpane (heq ▸ List.mem_map_of_mem hmem)
      simp [isPaneOf, hne]
    · rw [hrunning.connection]
      rfl
  case isFalse hgone =>
    refine Keeps.trans ?_ (goOn_keeps _ _)
    exact ⟨rfl, rfl, rfl⟩

/-- What a listing leaves out was killed on its connection. -/
theorem listed_exact (hgraves : Graves s) {request : Sessions.Request}
    {rows : List Row} {errors : List Text} {now later : Int}
    (hc : Careful rowsOf s (.listed request rows errors now later)) :
    Exact rowsOf s (.listed request rows errors now later) := by
  refine ⟨⟨rfl, rfl⟩, fun hnone => ⟨?_, rfl, rfl⟩, fun hwaits row hrow hnot => ?_⟩
  · exact congrArg Sessions.State.sessions (if_neg hnone)
  · have hstep : s.sessions.step (.listed request
        (rows.map (onConnection s.refreshes[request.ticket]?)) errors now later) =
        s.sessions.listed request (rows.map (onConnection s.refreshes[request.ticket]?)) errors now
          later := if_pos hwaits
    have hnot' : onConnection s.refreshes[request.ticket]? row ∉ (s.sessions.listed request
        (rows.map (onConnection s.refreshes[request.ticket]?)) errors now later).sessions := by
      rw [← hstep]
      exact hnot
    obtain ⟨grave, hgrave, hkey, hfresh⟩ := Sessions.listed_missing (List.mem_map_of_mem hrow) hnot'
    have hkilled : killedSince s.sessions.log (identity row) = some grave.at_ :=
      (hkey ▸ hgraves.buries grave hgrave :)
    have hon := hc row hrow grave.at_ hkilled hfresh
    obtain ⟨at_, hat⟩ := Option.isSome_iff_exists.mp hon
    obtain ⟨⟨connection, e⟩, hmem, heq⟩ := List.mem_map.mp (Sessions.mem_of_killedSince hat)
    obtain ⟨hmem, hconnection⟩ := List.mem_filter.mp hmem
    cases heq
    exact ⟨of_decide_eq_true hconnection ▸ hgraves.stopped connection _ _ hmem, hon⟩

theorem exact_step (h : Inv s) (hgraves : Graves s) (hc : Careful rowsOf s a) : Exact rowsOf s a := by
  cases a with
  | answered i answer now =>
    intro kill hi
    simp only [State.step, hi]
    exact killed_settles rowsOf h hi hc
  | folderAnswered i answer now =>
    intro batch entry hi hhead
    obtain ⟨todo, htodo⟩ := List.head?_eq_some_iff.mp hhead
    simp only [State.step, hi, htodo]
    exact folderKilled_settles rowsOf h hi htodo hc
  | confirm =>
    simp only [Exact, State.step]
    split
    · exact .rfl s
    · unfold State.confirmStop
      split
      · split <;> exact ⟨rfl, rfl, rfl⟩
      · exact ⟨rfl, rfl, rfl⟩
  | askStopFolder =>
    simp only [Exact, State.step, State.askStopFolder]
    split
    · exact .rfl s
    · split <;> exact ⟨rfl, rfl, rfl⟩
  | confirmFolder =>
    simp only [Exact, State.step]
    split
    · exact .rfl s
    · unfold State.confirmStopFolder
      split
      · split
        · exact ⟨rfl, rfl, rfl⟩
        · refine Keeps.trans ?_ (goOn_keeps _ _)
          exact ⟨rfl, rfl, rfl⟩
      · exact ⟨rfl, rfl, rfl⟩
  | listed => exact listed_exact rowsOf hgraves hc
  | addPending connectionId summary now =>
    exact ⟨⟨rfl, rfl⟩, fun row hrow hne =>
      List.mem_cons_of_mem _ (List.mem_filter.mpr ⟨hrow, decide_eq_true hne⟩)⟩
  | renameLocal => exact ⟨⟨rfl, rfl⟩, rfl⟩
  | listFailed request message =>
    refine ⟨?_, rfl, rfl⟩
    show (s.sessions.step (.failed request message)).sessions = s.sessions.sessions
    simp only [Sessions.State.step]
    split <;> rfl
  | mountPanes | writeComposer => exact ⟨rfl, rfl⟩
  | refresh | arm | cancel | openFolderMenu | closeFolderMenu | cancelFolder | connect | showFolder
  | setCreateError => exact ⟨rfl, rfl, rfl⟩

/-! ## 7. Runs -/

theorem inv_run (h : Inv s) (hgraves : Graves s) : ∀ {actions : List (Action F)},
    CarefulFrom rowsOf s actions → Sound (actions.foldl (State.step rowsOf) s) ∧
      ∀ before a after, actions = before ++ a :: after →
        Exact rowsOf (before.foldl (State.step rowsOf) s) a := by
  intro actions
  induction actions generalizing s with
  | nil => exact fun _ => ⟨h.sound hgraves, fun before a after heq => by simp at heq⟩
  | cons a rest ih =>
    rintro ⟨hc, hrest⟩
    obtain ⟨hsound, hexact⟩ :=
      ih (inv_step rowsOf h hc) (graves_step rowsOf h hgraves hc) hrest
    refine ⟨hsound, fun before b after heq => ?_⟩
    cases before with
    | nil =>
      cases heq
      exact exact_step rowsOf h hgraves hc
    | cons c before =>
      cases heq
      exact hexact before b after rfl

def mainIn (workspace : Text) : Row :=
  { name := ascii "main", workspace := some workspace, rest := { backend := some .aplexer } }

def connected : List (Action Text) :=
  [.connect (some (ascii "c")), .refresh (ascii "c") false,
    .listed ⟨0, false⟩ [mainIn (ascii "/a"), mainIn (ascii "/b")] [] 0 0]

end PocketShell.SessionTabs
