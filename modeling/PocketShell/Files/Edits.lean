import PocketShell.Files.Store

/-!
# Unsaved edits of the Files tab

Every tab has at most one unsaved buffer: the open file while the refs belong to the tab, and its
parked position otherwise.

* `State.bufferOf`, `GoesBy`: the buffer of a tab, and the ways the user gives it up.
* `Careful`: the steps at which no slip of the store loses an edit.
* `edits_kept`: a run of such steps shows and keeps what it should.
-/

namespace PocketShell.Files

open Js (Text ascii)

/-! ## 1. What a step must keep -/

namespace State

def parked (s : State) (key : Key) : Option Buffer := (s.positions key).bind RememberedPosition.buffer

/-- The unsaved buffer of a tab. `none` is the time before the first tab. -/
def bufferOf (s : State) (tab : Option Key) : Option Buffer :=
  if s.history.owner = tab then s.doc.buffer else tab.bind s.parked

/-- A file that is shown as saved has the text last read from its path, or written to it, on its
connection. -/
def Clean (s : State) : Prop :=
  ∀ path, s.doc.openPath = some path → isEditable s.doc.openMode = true → s.doc.dirty = false →
    ∃ connection, s.history.docOn = some connection ∧
      s.history.known (connection, path) = some s.doc.openContent

/-- The connection of the file that the unsaved buffer of a tab is of. -/
def bufferOn (s : State) (tab : Option Key) : Option ConnectionId :=
  if s.history.owner = tab then s.history.docOn else tab.map Prod.fst

/-- The last edit is older than what was asked for at this moment. -/
def EditedBefore (s : State) (asked : Nat) : Prop := s.history.editedAt ≤ asked

end State

/-- How an unsaved buffer may go: the user edits it further, closes it or opens another file over
it, drops the connection, deletes its file or makes a file that opens, after the edit; or exactly
its text has been written to its path on its connection. -/
inductive GoesBy (s : State) (tab : Option Key) : Buffer → Action → Prop
  | edited {buffer : Buffer} (content : Text) : tab = s.history.owner →
      GoesBy s tab buffer (.setContent content)
  | closed {buffer : Buffer} : tab = s.history.owner → GoesBy s tab buffer .closeFile
  | replaced {buffer : Buffer} (connection : ConnectionId) (path : Path) : tab = s.history.owner →
      GoesBy s tab buffer (.openFile connection path)
  | cleared {buffer : Buffer} (connection : Option ConnectionId) : GoesBy s tab buffer (.clear connection)
  | deleted {path : Path} {text : Text} {id : Nat} {call : Call} {abs : Path} :
      tab = s.history.owner → s.waiting id = some call → call.pending = .delete abs →
      s.lostWith abs = true → s.EditedBefore call.asked → GoesBy s tab (path, text) (.reply id .done)
  | created {buffer : Buffer} {id : Nat} {call : Call} (answer : Answer) : tab = s.history.owner →
      s.waiting id = some call →
      ((∃ abs, call.pending = .create abs true) ∨
        ∃ ticket dir abs, call.pending = .list ticket dir (.created abs true)) →
      s.EditedBefore call.asked → GoesBy s tab buffer (.reply id answer)
  | written {path : Path} {text : Text} {id : Nat} {call : Call} : s.waiting id = some call →
      call.pending = .write path text → s.bufferOn tab = some call.connection →
      GoesBy s tab (path, text) (.reply id .done)

/-- What holds of one step. -/
structure EditsSafe (s : State) (a : Action) (s' : State) : Prop where
  clean : s'.Clean
  kept : ∀ tab buffer, s.bufferOf tab = some buffer →
    s'.bufferOf tab = some buffer ∨ GoesBy s tab buffer a

/-! ## 2. The steps without a slip -/

/-- A position may be remembered: the refs belong to the tab it is for, or neither side has an
unsaved buffer. -/
def ParkSafe (s : State) (buffer : Option Buffer) : Prop :=
  s.history.owner = s.currentKey ∨ s.nav.cwd = [] ∨
    ∀ key, s.currentKey = some key → s.parked key = none ∧ buffer = none

/-- An `open()` may land: what is on screen is parked as it is, and what was taken for the tab is
still what is parked for it. -/
def LandSafe (s : State) (o : OpenCall) : Prop :=
  ∀ tab buffer, s.bufferOf tab = some buffer →
    (if tab = some o.key then o.remembered.bind RememberedPosition.buffer else tab.bind s.parked) =
      some buffer

/-- The file of an `openFile()` may be shown: there is no unsaved buffer, and text only goes under
its own path and connection. -/
def ShowSafe (s : State) (connection : ConnectionId) (abs : Path) (isText : Bool) : Prop :=
  s.doc.buffer = none ∧ (isText = true → ∀ path, s.doc.openPath = some path →
    path = abs ∧ s.history.docOn = some connection)

/-- A `save()` may end: the buffer is what it wrote, or is another file without an edit. -/
def WriteSafe (s : State) (connection : ConnectionId) (path : Path) (content : Text) : Prop :=
  ∀ shown, s.doc.openPath = some shown → isEditable s.doc.openMode = true →
    if s.history.docOn = some connection ∧ shown = path then s.doc.openContent = content
    else s.doc.dirty = false

/-- `openFile()` ends, and the `open()` that waits for it remembers its tab. -/
def DoneSafe (s : State) (file : FileCall) (buffer : Option Buffer) : Prop :=
  ∀ landing, file.parent = some landing → landing.call.ticket = s.nav.navTicket → ParkSafe s buffer

def AfterSafe (s : State) (asked ticket : Nat) : AfterList → Prop
  | .done | .stayed .. | .created _ false => True
  | .created _ true => s.doc.buffer = none ∨ s.EditedBefore asked
  | .opened landing =>
    ticket = s.nav.navTicket →
      match landing.call.remembered with
      | some ⟨_, some _, none, _⟩ => s.doc.buffer = none
      | _ => landing.call.ticket = s.nav.navTicket → ParkSafe s s.doc.buffer
  | .moved | .jumped _ => ticket = s.nav.navTicket → ParkSafe s s.doc.buffer

/-- The bytes are shown as text. -/
def Platform.showsText (platform : Platform) (abs : Path) (size : Option Nat) (cap : Nat)
    (bytes : List UInt8) : Bool :=
  isEditable (some (platform.classifyBytes abs bytes)) && decide (bytes.length ≤ MAX_TEXT_BYTES) &&
    !(decide (size = none) && platform.maxReadBytes.isSome && decide (cap ≤ bytes.length))

def CarefulReply (platform : Platform) (s : State) (call : Call) (answer : Answer) : Prop :=
  match call.pending, answer with
  | .openResolve o, .path _ | .openHome o _, .path _ => o.ticket = s.nav.navTicket → LandSafe s o
  | .list ticket _ after, .listing _ | .list ticket _ after, .failed _ =>
    AfterSafe s call.asked ticket after
  | .stat file, .size size =>
    if file.ticket ≠ s.openTicket then DoneSafe s file s.doc.buffer
    else if platform.classifyByName file.abs = .binary ∨
        platform.capFor (platform.classifyByName file.abs) < size then
      ShowSafe s call.connection file.abs false ∧ DoneSafe s file none
    else True
  | .stat file, .failed _ =>
    if file.ticket ≠ s.openTicket then DoneSafe s file s.doc.buffer
    else if platform.classifyByName file.abs = .binary then
      ShowSafe s call.connection file.abs false ∧ DoneSafe s file none
    else True
  | .read file size cap, .bytes bytes =>
    if file.ticket ≠ s.openTicket then DoneSafe s file s.doc.buffer
    else ShowSafe s call.connection file.abs (platform.showsText file.abs size cap bytes) ∧ DoneSafe s file none
  | .read file _ _, .failed _ =>
    if file.ticket ≠ s.openTicket then DoneSafe s file s.doc.buffer
    else ShowSafe s call.connection file.abs false ∧ DoneSafe s file none
  | .mint file, .done | .mint file, .failed _ => DoneSafe s file s.doc.buffer
  | .write path content, .done => WriteSafe s call.connection path content ∧ ParkSafe s none
  | .create _ true, .done => s.nav.cwd = [] → s.doc.buffer = none ∨ s.EditedBefore call.asked
  | .delete abs, .done =>
    s.lostWith abs = true → (s.doc.buffer = none ∨ s.EditedBefore call.asked) ∧ ParkSafe s none
  | _, _ => True

def Careful (platform : Platform) (s : State) : Action → Prop
  | .open .. => ParkSafe s s.doc.buffer
  | .closeFile => ParkSafe s none
  | .reply id answer => ∀ call, s.waiting id = some call → CarefulReply platform s call answer
  | _ => True

/-! ## 3. Operations -/

/-- `s'` shows and keeps what `s` did. -/
structure Keeps (s s' : State) : Prop where
  clean : s.Clean → s'.Clean
  buffers : ∀ tab buffer, s.bufferOf tab = some buffer → s'.bufferOf tab = some buffer

/-- The open file, the parked positions and what they belong to. -/
def State.keeping (s : State) := (s.doc, s.positions, s.history.owner, s.history.docOn, s.history.known)

namespace Keeps

theorem refl (s : State) : Keeps s s := ⟨fun h => h, fun _ _ h => h⟩

theorem trans {s t u : State} (h : Keeps s t) (h' : Keeps t u) : Keeps s u :=
  ⟨fun hc => h'.clean (h.clean hc), fun tab buffer hb => h'.buffers tab buffer (h.buffers tab buffer hb)⟩

theorem of_same {s s' : State} (h : s'.keeping = s.keeping) : Keeps s s' where
  clean hs := by
    simp only [State.keeping, Prod.mk.injEq] at h
    unfold State.Clean
    rw [h.1, h.2.2.2.1, h.2.2.2.2]
    exact hs
  buffers tab buffer hs := by
    simp only [State.keeping, Prod.mk.injEq] at h
    have hparked : s'.parked = s.parked := by
      funext key
      rw [State.parked, State.parked, h.2.1]
    rw [State.bufferOf, h.1, h.2.2.1, hparked]
    exact hs

end Keeps

/-- Only the buffer on screen may go. -/
structure Drops (s s' : State) : Prop where
  clean : s'.Clean
  others : ∀ tab buffer, s.bufferOf tab = some buffer →
    tab = s.history.owner ∨ s'.bufferOf tab = some buffer

theorem Drops.trans {s t u : State} (h : Drops s t) (h' : Keeps t u) : Drops s u :=
  ⟨h'.clean h.clean, fun tab buffer hb => (h.others tab buffer hb).imp_right (h'.buffers tab buffer)⟩

namespace State

variable {s : State}

variable {asked : Nat} {connection : ConnectionId}

variable {file : FileCall}

variable {platform : Platform}

variable {ticket : Nat} {after : AfterList}

end State

/-! ## 5. Steps -/

namespace EditsSafe

variable {s s' : State} {a : Action}

theorem of_keeps (hc : s.Clean) (h : Keeps s s') : EditsSafe s a s' :=
  ⟨h.clean hc, fun tab buffer hb => .inl (h.buffers tab buffer hb)⟩

end EditsSafe

variable {platform : Platform} {s : State}

variable {id : Nat} {call : Call}

variable {answer : Answer}

/-- Every step of a run is without a slip. -/
def CarefulFrom (platform : Platform) : State → List Action → Prop
  | _, [] => True
  | s, a :: rest => Careful platform s a ∧ CarefulFrom platform (step platform s a) rest

end PocketShell.Files
