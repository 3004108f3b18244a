import PocketShell.Js.Text

/-!
# The files store

`packages/ui/src/app/stores/files.ts` with `remotePaths.ts`: one set of refs for the listing and the
open file, the position each Files tab was left at, and the calls that wait for the host.

* `Pending`: where each call waits, with what it has kept.
* `State.open`, `State.save`, `State.deleteEntry`, …: the actions of the user.
* `State.resume`: a reply of the host.
* `step`, `run`: any order of both.

`History` is not part of the store: it keeps what the guarantees speak about.
-/

namespace PocketShell.Files

open Js (Text ascii)

/-! ## 1. Paths -/

abbrev Path : Type := Text

abbrev ConnectionId : Type := Text

/-- The containing directory: `path.replace(/\/[^/]+$/, '') || '/'`. -/
def parentOf (path : Path) : Path :=
  let parent := path.rdropWhile (· ≠ 0x2f)
  let kept := if parent = [] ∨ parent = path then path else parent.dropLast
  if kept = [] then ascii "/" else kept

def joinPosix (base rel : Path) : Path :=
  if rel = ascii "." then base
  else if rel = ascii ".." then parentOf base
  else if (ascii "/").isSuffixOf base then base ++ rel
  else base ++ ascii "/" ++ rel

def isAbsolute (path : Path) : Bool := (ascii "/").isPrefixOf path

def stripTilde (path : Option Path) : Path :=
  match path with
  | none => ascii "."
  | some path =>
    if path = [] ∨ path = ascii "~" ∨ path = ascii "~/" then ascii "."
    else if (ascii "~/").isPrefixOf path then path.drop 2
    else path

/-! ## 2. Data -/

inductive FileKind
  | text | image | audio | pdf | html | markdown | svg | binary | unknown
  deriving DecidableEq

def isEditable : Option FileKind → Bool
  | some .text | some .html | some .markdown | some .svg => true
  | _ => false

def hasPreview : FileKind → Bool
  | .html | .markdown | .svg => true
  | _ => false

def MAX_TEXT_BYTES : Nat := 8 * 1024 * 1024

def MAX_MEDIA_BYTES : Nat := 96 * 1024 * 1024

def MAX_DOCUMENT_BYTES : Nat := 32 * 1024 * 1024

def kindCap : FileKind → Nat
  | .audio => MAX_MEDIA_BYTES
  | .image | .pdf => MAX_DOCUMENT_BYTES
  | _ => MAX_TEXT_BYTES

structure DirEntry where
  name : Text
  isDir : Bool

/-- What the store asks of the platform and of the modules that look at names and bytes. -/
structure Platform where
  classifyByName : Path → FileKind
  classifyBytes : Path → List UInt8 → FileKind
  /-- `new TextDecoder('utf-8').decode(bytes)` -/
  decode : List UInt8 → Text
  /-- The order of the rows: directories first, then by name. -/
  before : DirEntry → DirEntry → Bool
  /-- `sftp.capabilities` -/
  write : Bool
  maxReadBytes : Option Nat

def Platform.capFor (platform : Platform) (kind : FileKind) : Nat :=
  match platform.maxReadBytes with
  | none => kindCap kind
  | some platformMax => min (kindCap kind) platformMax

/-- The mode a parked buffer comes back in. -/
def Platform.restoredMode (platform : Platform) (path : Path) : FileKind :=
  if hasPreview (platform.classifyByName path) then platform.classifyByName path else .text

/-- A path and the text of its buffer. -/
abbrev Buffer : Type := Path × Text

structure RememberedPosition where
  cwd : Path
  filePath : Option Path
  /-- Only ever a dirty editable buffer. -/
  buffer : Option Buffer
  chosen : Bool

/-- The connection and the session of a Files tab. -/
abbrev Key : Type := ConnectionId × Text

/-- The open file. -/
structure Doc where
  openPath : Option Path := none
  openMode : Option FileKind := none
  openContent : Text := []
  dirty : Bool := false
  fileError : Option Text := none

/-- The unsaved edit of the open file. -/
def Doc.buffer (doc : Doc) : Option Buffer :=
  if doc.dirty && isEditable doc.openMode then doc.openPath.map fun path => (path, doc.openContent)
  else none

/-- The browsed directory. -/
structure Nav where
  cwd : Path := []
  home : Path := []
  entries : List DirEntry := []
  loading : Bool := false
  error : Option Text := none
  trail : List Path := []
  trailIndex : Int := -1
  navTicket : Nat := 0

def TRAIL_MAX : Nat := 100

/-- Commit `dir` as the newest position of the trail. -/
def Nav.recordMove (nav : Nav) (dir : Path) : Nav :=
  let kept := if nav.trailIndex < (nav.trail.length : Int) - 1 then
      nav.trail.take (nav.trailIndex + 1).toNat
    else nav.trail
  if 0 ≤ nav.trailIndex ∧ kept[nav.trailIndex.toNat]? = some dir then { nav with trail := kept }
  else
    let pushed := kept ++ [dir]
    let trail := if TRAIL_MAX < pushed.length then pushed.tail else pushed
    { nav with trail := trail, trailIndex := (trail.length : Int) - 1 }

/-- The trail is all that `recordMove` writes. -/
theorem Nav.recordMove_same (nav : Nav) (dir : Path) :
    (nav.recordMove dir).entries = nav.entries ∧ (nav.recordMove dir).cwd = nav.cwd ∧
      (nav.recordMove dir).error = nav.error ∧ (nav.recordMove dir).home = nav.home ∧
      (nav.recordMove dir).navTicket = nav.navTicket := by
  dsimp only [Nav.recordMove]
  rw [apply_ite Nav.entries, apply_ite Nav.cwd, apply_ite Nav.error, apply_ite Nav.home,
    apply_ite Nav.navTicket]
  simp only [ite_self, and_self]

/-! ## 3. Calls -/

/-- An `open()` that resolves its directory. -/
structure OpenCall where
  key : Key
  ticket : Nat
  wanted : Option Path
  remembered : Option RememberedPosition

/-- An `open()` that has landed. -/
structure Landing where
  call : OpenCall
  resolved : Path
  note : Option Text

/-- An `openFile()`, and the `open()` that waits for it. -/
structure FileCall where
  abs : Path
  ticket : Nat
  parent : Option Landing

/-- What follows a listing. -/
inductive AfterList
  | done
  | opened (landing : Landing)
  | moved
  | stayed (next : Path) (message : Text)
  /-- `goTo`, or a step to a place of the trail. -/
  | jumped (next : Option Int)
  | created (abs : Path) (opens : Bool)

inductive Pending
  | openResolve (call : OpenCall)
  | openHome (call : OpenCall) (message : Text)
  | homeFetch
  | list (ticket : Nat) (dir : Path) (after : AfterList)
  | cdResolve (ticket : Nat) (next : Path)
  | stat (file : FileCall)
  | read (file : FileCall) (size : Option Nat) (cap : Nat)
  | mint (file : FileCall)
  | write (path : Path) (content : Text)
  | saveMint
  | create (abs : Path) (opens : Bool)
  | delete (abs : Path)

/-- A call that waits, with the moment the user asked for it. -/
structure Call where
  id : Nat
  asked : Nat
  connection : ConnectionId
  pending : Pending

inductive Answer
  | path (path : Path)
  | listing (rows : List DirEntry)
  | size (size : Nat)
  | bytes (bytes : List UInt8)
  | done
  | failed (message : Text)

/-- What the guarantees speak about: the moments of the last edit and of the last `clear`, the tab
the refs belong to, the connection shown, that of the open file, the listing the rows came from, where
each tab has been, and what was last read from or written to a path of a connection. -/
structure History where
  clock : Nat := 0
  editedAt : Nat := 0
  clearedAt : Nat := 0
  owner : Option Key := none
  shown : Option ConnectionId := none
  docOn : Option ConnectionId := none
  listed : Option (ConnectionId × Path × List DirEntry) := none
  visited : List (Key × Path) := []
  known : ConnectionId × Path → Option Text := fun _ => none

structure State where
  nav : Nav := {}
  doc : Doc := {}
  opening : Bool := false
  saving : Bool := false
  openTicket : Nat := 0
  positions : Key → Option RememberedPosition := fun _ => none
  trails : Key → Option (List Path × Int) := fun _ => none
  currentKey : Option Key := none
  calls : List Call := []
  nextId : Nat := 0
  history : History := {}

namespace State

/-! ## 4. Remembering -/

def park (s : State) (asked : Nat) (connection : ConnectionId) (pending : Pending) : State :=
  { s with
    calls := s.calls ++ [⟨s.nextId, asked, connection, pending⟩],
    nextId := s.nextId + 1 }

/-- Where a tab is now. -/
def position (s : State) (chosen : Bool) (key : Key) : RememberedPosition where
  cwd := s.nav.cwd
  filePath := s.doc.openPath
  buffer := s.doc.buffer
  chosen := chosen || (s.positions key).any (·.chosen)

def rememberPosition (s : State) (chosen : Bool) : State :=
  match s.currentKey with
  | none => s
  | some key =>
    if s.nav.cwd = [] then s
    else { s with positions := Function.update s.positions key (some (s.position chosen key)) }

def rememberHere (s : State) : State := s.rememberPosition true

def rememberResolved (s : State) : State := s.rememberPosition false

/-- `stash()` is `rememberResolved` with the trail. -/
def stash (s : State) : State :=
  match s.currentKey with
  | none => s
  | some key =>
    if s.nav.cwd = [] then s
    else
      { s.rememberResolved with
        trails := Function.update s.trails key (some (s.nav.trail, s.nav.trailIndex)) }

def resetOpenFile (s : State) : State := { s with doc := {} }

def closeFile (s : State) : State := s.resetOpenFile.rememberHere

def setError (s : State) (error : Option Text) : State := { s with nav := { s.nav with error := error } }

/-- The tab on screen is now in `dir`. -/
def setCwd (s : State) (dir : Path) : State :=
  { s with
    nav := { s.nav with cwd := dir },
    history := { s.history with
      visited := (s.history.owner.map fun key => (key, dir)).toList ++ s.history.visited } }

def recordMove (s : State) (dir : Path) : State := { s with nav := s.nav.recordMove dir }

/-! ## 5. Files -/

variable (platform : Platform)

/-- `openFile()` up to its first call. -/
def openFile (s : State) (asked : Nat) (connection : ConnectionId) (path : Path)
    (parent : Option Landing) : State :=
  let abs := if isAbsolute path then path else joinPosix s.nav.cwd path
  park
    { s with
      doc := { openPath := some abs },
      opening := true,
      openTicket := s.openTicket + 1,
      history := { s.history with docOn := some connection } }
    asked connection (.stat ⟨abs, s.openTicket + 1, parent⟩)

/-- What `open()` does after its file is back. -/
def openFinish (s : State) (asked : Nat) (connection : ConnectionId) (landing : Landing) : State :=
  if landing.call.ticket ≠ s.nav.navTicket then s
  else
    let s := s.rememberResolved
    let s := if landing.note ≠ none ∧ s.nav.error = none then s.setError landing.note else s
    if s.nav.home ≠ [] then s
    else if landing.note ≠ none ∨ stripTilde landing.call.wanted = ascii "." then
      { s with nav := { s.nav with home := landing.resolved } }
    else s.park asked connection .homeFetch

/-- The end of `openFile()`. -/
def fileDone (s : State) (asked : Nat) (connection : ConnectionId) (file : FileCall) : State :=
  let s := if file.ticket = s.openTicket then { s with opening := false } else s
  match file.parent with
  | none => s
  | some landing => s.openFinish asked connection landing

def showBinary (s : State) : State :=
  { s with doc := { s.doc with openMode := some .binary, openContent := [], dirty := false } }

/-- A document read from the host becomes the buffer. -/
def showText (s : State) (connection : ConnectionId) (abs : Path) (kind : FileKind)
    (content : Text) : State :=
  { s with
    doc := { s.doc with openMode := some kind, openContent := content, dirty := false },
    history := { s.history with
      known := Function.update s.history.known (connection, abs) (some content) } }

def presentDoc (s : State) (asked : Nat) (connection : ConnectionId) (file : FileCall)
    (bytes : List UInt8) : State :=
  let kind := platform.classifyBytes file.abs bytes
  if hasPreview kind then
    if MAX_TEXT_BYTES < bytes.length then s.showBinary.fileDone asked connection file
    else (s.showText connection file.abs kind (platform.decode bytes)).park asked connection (.mint file)
  else if kind = .text then
    if MAX_TEXT_BYTES < bytes.length then s.showBinary.fileDone asked connection file
    else (s.showText connection file.abs kind (platform.decode bytes)).fileDone asked connection file
  else if kind = .image ∨ kind = .audio ∨ kind = .pdf then
    fileDone { s with doc := { s.doc with openMode := some kind } } asked connection file
  else s.showBinary.fileDone asked connection file

/-- After the `stat`. A size that is not known is `none`. -/
def afterStat (s : State) (asked : Nat) (connection : ConnectionId) (file : FileCall)
    (size : Option Nat) : State :=
  if file.ticket ≠ s.openTicket then s.fileDone asked connection file
  else
    let kind := platform.classifyByName file.abs
    let cap := platform.capFor kind
    if kind = .binary ∨ size.any (cap < ·) then s.showBinary.fileDone asked connection file
    else s.park asked connection (.read file size cap)

def afterRead (s : State) (asked : Nat) (connection : ConnectionId) (file : FileCall)
    (size : Option Nat) (cap : Nat) (bytes : Option (List UInt8)) : State :=
  if file.ticket ≠ s.openTicket then s.fileDone asked connection file
  else
    match bytes with
    | none => s.showBinary.fileDone asked connection file
    | some bytes =>
      if size = none ∧ platform.maxReadBytes ≠ none ∧ cap ≤ bytes.length then
        s.showBinary.fileDone asked connection file
      else s.presentDoc platform asked connection file bytes

def setContent (s : State) (content : Text) : State :=
  { s with
    doc := { s.doc with openContent := content, dirty := true },
    history := { s.history with editedAt := s.history.clock } }

def save (s : State) (connection : ConnectionId) : State :=
  match s.doc.openPath with
  | none => s
  | some path =>
    if path = [] ∨ !isEditable s.doc.openMode ∨ !platform.write then s
    else
      park { s with saving := true, doc := { s.doc with fileError := none } } s.history.clock
        connection (.write path s.doc.openContent)

def written (s : State) (asked : Nat) (connection : ConnectionId) (path : Path) (content : Text) :
    State :=
  let s := rememberHere
    { s with
      doc := { s.doc with dirty := false },
      history := { s.history with
        known := Function.update s.history.known (connection, path) (some content) } }
  if s.doc.openMode.any hasPreview then s.park asked connection .saveMint else { s with saving := false }

/-! ## 6. Directories -/

/-- What the caller of `refresh()` does when it is back. -/
def afterList (s : State) (asked : Nat) (connection : ConnectionId) (ticket : Nat) :
    AfterList → State
  | .done => s
  | .created abs opens => if opens then s.openFile asked connection abs none else s
  | .opened landing =>
    if ticket ≠ s.nav.navTicket then s
    else
      match landing.call.remembered with
      | some ⟨_, some path, none, _⟩ => s.openFile asked connection path (some landing)
      | _ => s.openFinish asked connection landing
  | .moved => if ticket ≠ s.nav.navTicket then s else s.rememberHere.recordMove s.nav.cwd
  | .stayed next message =>
    if ticket ≠ s.nav.navTicket ∨ s.nav.error ≠ none then s
    else s.setError (some (ascii "Could not open " ++ next ++ ascii ": " ++ message))
  | .jumped none => if ticket ≠ s.nav.navTicket then s else s.rememberHere.recordMove s.nav.cwd
  | .jumped (some next) =>
    if ticket ≠ s.nav.navTicket then s
    else { s.rememberHere with nav := { s.rememberHere.nav with trailIndex := next } }

def refreshWith (s : State) (asked : Nat) (connection : ConnectionId) (ticket : Nat)
    (after : AfterList) : State :=
  if s.nav.cwd = [] then s.afterList asked connection ticket after
  else
    park { s with nav := { s.nav with loading := true, error := none } } asked connection
      (.list ticket s.nav.cwd after)

def nextTicket (s : State) : State := { s with nav := { s.nav with navTicket := s.nav.navTicket + 1 } }

/-- `refresh()` with a ticket of its own. -/
def refresh (s : State) (asked : Nat) (connection : ConnectionId) (after : AfterList) : State :=
  s.nextTicket.refreshWith asked connection s.nextTicket.nav.navTicket after

/-- The current listing is back. -/
def listingEnds (s : State) (connection : ConnectionId) (dir : Path) :
    Except Text (List DirEntry) → State
  | .ok rows =>
    { s with
      nav := { s.nav with
        entries := rows.insertionSort (fun a b => platform.before a b), loading := false },
      history := { s.history with listed := some (connection, dir, rows) } }
  | .error message => { s with nav := { s.nav with error := some message, loading := false } }

def listed (s : State) (asked : Nat) (connection : ConnectionId) (ticket : Nat) (dir : Path)
    (after : AfterList) (answer : Except Text (List DirEntry)) : State :=
  (if ticket ≠ s.nav.navTicket then s else s.listingEnds platform connection dir answer).afterList
    asked connection ticket after

def cd (s : State) (connection : ConnectionId) (dir : Path) : State :=
  let next := if isAbsolute dir then dir else joinPosix s.nav.cwd dir
  s.nextTicket.park s.history.clock connection (.cdResolve s.nextTicket.nav.navTicket next)

def jump (s : State) (connection : ConnectionId) (path : Path) (next : Option Int) : State :=
  (s.nextTicket.setCwd path).refreshWith s.history.clock connection s.nextTicket.nav.navTicket
    (.jumped next)

def goTo (s : State) (connection : ConnectionId) (path : Path) : State := s.jump connection path none

def stepTrail (s : State) (connection : ConnectionId) (delta : Int) : State :=
  let next := s.nav.trailIndex + delta
  if next < 0 then s
  else
    match s.nav.trail[next.toNat]? with
    | none => s
    | some target => s.jump connection target (some next)

/-- The names `createEntry` and `deleteEntry` refuse. -/
def isUsableName (name : Text) : Bool :=
  name ≠ [] && name ≠ ascii "." && name ≠ ascii ".." && !name.contains 0x2f

def refuseName (s : State) (name : Text) : State :=
  s.setError (some (ascii "Not a usable name: " ++ (if name = [] then ascii "(empty)" else name)))

def createEntry (s : State) (connection : ConnectionId) (raw : Text) (opens : Bool) : State :=
  let name := Js.trim raw
  if s.nav.cwd = [] then s
  else if !isUsableName name then s.refuseName name
  else
    let abs := joinPosix s.nav.cwd name
    (s.setError none).park s.history.clock connection (.create abs opens)

def deleteEntry (s : State) (connection : ConnectionId) (name : Text) : State :=
  if s.nav.cwd = [] then s
  else if !isUsableName name then s.refuseName name
  else (s.setError none).park s.history.clock connection (.delete (joinPosix s.nav.cwd name))

/-- The open file is the deleted path, or lives under it. -/
def lostWith (s : State) (abs : Path) : Bool :=
  s.doc.openPath.any fun path => path = abs || (abs ++ ascii "/").isPrefixOf path

def deleted (s : State) (asked : Nat) (connection : ConnectionId) (abs : Path) : State :=
  (if s.lostWith abs then s.closeFile else s).refresh asked connection .done

/-! ## 7. Tabs -/

/-- `open()` up to its first call. -/
def openTab (s : State) (connection : ConnectionId) (startPath sessionKey : Option Text) : State :=
  let key : Key := (connection, (sessionKey.or startPath).getD [])
  let s := s.stash
  let remembered := s.positions key
  let (trail, trailIndex) := (s.trails key).getD ([], -1)
  let wanted := match remembered with
    | none => startPath
    | some position => if position.chosen then some position.cwd else startPath.or (some position.cwd)
  let ticket := s.nav.navTicket + 1
  park
    { s with
      currentKey := some key,
      nav := { s.nav with trail, trailIndex, error := none, navTicket := ticket },
      history := { s.history with shown := some connection } }
    s.history.clock connection (.openResolve ⟨key, ticket, wanted, remembered⟩)

/-- The file of a tab that comes back: its parked buffer, or nothing yet. -/
def restoredDoc (remembered : Option RememberedPosition) : Doc :=
  match remembered.bind RememberedPosition.buffer with
  | none => {}
  | some (path, content) =>
    { openPath := some path,
      openMode := some (platform.restoredMode path),
      openContent := content,
      dirty := true }

/-- The refs belong to the tab from here on. -/
def landed (s : State) (landing : Landing) : State :=
  let s : State := { s with
    history := { s.history with owner := some landing.call.key, docOn := some landing.call.key.1 } }
  { (s.setCwd landing.resolved).recordMove landing.resolved with
    doc := restoredDoc platform landing.call.remembered }

def land (s : State) (asked : Nat) (connection : ConnectionId) (landing : Landing) : State :=
  if landing.call.ticket ≠ s.nav.navTicket then s
  else
    (s.landed platform landing).refreshWith asked connection landing.call.ticket (.opened landing)

def clear (s : State) (connection : Option ConnectionId) : State :=
  let s := closeFile
    { s with
      nav := { s.nav with
        cwd := [], entries := [], error := none, home := [], trail := [], trailIndex := -1 },
      currentKey := none,
      history := { s.history with owner := none, clearedAt := s.history.clock } }
  match connection with
  | none => { s with positions := fun _ => none, trails := fun _ => none }
  | some connection =>
    { s with
      positions := fun key => if key.1 = connection then none else s.positions key,
      trails := fun key => if key.1 = connection then none else s.trails key }

/-! ## 8. Replies -/

/-- What a template writes for a path that may be undefined. -/
def shownPath (path : Option Path) : Text := path.getD (ascii "undefined")

/-- A call goes on with its reply. A reply of another kind than the call asks for does not come. -/
def resume (s : State) (call : Call) (answer : Answer) : State :=
  match call.pending, answer with
  | .openResolve o, .path resolved =>
    s.land platform call.asked call.connection ⟨o, resolved, none⟩
  | .openResolve o, .failed message => s.park call.asked call.connection (.openHome o message)
  | .openHome o message, .path resolved =>
    s.land platform call.asked call.connection
      ⟨o, resolved, some (ascii "Could not open " ++ shownPath o.wanted ++ ascii ": " ++ message)⟩
  | .openHome o _, .failed message =>
    if o.ticket ≠ s.nav.navTicket then s else s.setError (some message)
  | .homeFetch, .path home => { s with nav := { s.nav with home := home } }
  | .list ticket dir after, .listing rows =>
    s.listed platform call.asked call.connection ticket dir after (.ok rows)
  | .list ticket dir after, .failed message =>
    s.listed platform call.asked call.connection ticket dir after (.error message)
  | .cdResolve ticket _, .path resolved =>
    if ticket ≠ s.nav.navTicket then s
    else (s.setCwd resolved).refreshWith call.asked call.connection ticket .moved
  | .cdResolve ticket next, .failed message =>
    if ticket ≠ s.nav.navTicket then s
    else s.refreshWith call.asked call.connection ticket (.stayed next message)
  | .stat file, .size size => s.afterStat platform call.asked call.connection file (some size)
  | .stat file, .failed _ => s.afterStat platform call.asked call.connection file none
  | .read file size cap, .bytes bytes =>
    s.afterRead platform call.asked call.connection file size cap (some bytes)
  | .read file size cap, .failed _ =>
    s.afterRead platform call.asked call.connection file size cap none
  | .mint file, .done => s.fileDone call.asked call.connection file
  | .mint file, .failed _ => s.fileDone call.asked call.connection file
  | .write path content, .done => s.written call.asked call.connection path content
  | .write _ _, .failed message =>
    { s with saving := false, doc := { s.doc with fileError := some message } }
  | .saveMint, .done => { s with saving := false }
  | .saveMint, .failed _ => { s with saving := false }
  | .create abs opens, .done => s.refresh call.asked call.connection (.created abs opens)
  | .create _ _, .failed message => s.setError (some message)
  | .delete abs, .done => s.deleted call.asked call.connection abs
  | .delete _, .failed message => s.setError (some message)
  | _, _ => s

def withoutCall (s : State) (id : Nat) : State :=
  { s with calls := s.calls.filter fun call => call.id ≠ id }

def tick (s : State) : State :=
  { s with history := { s.history with clock := s.history.clock + 1 } }

end State

inductive Action
  | open (connection : ConnectionId) (startPath sessionKey : Option Text)
  | openFile (connection : ConnectionId) (path : Path)
  | setContent (content : Text)
  | save (connection : ConnectionId)
  | closeFile
  | createEntry (connection : ConnectionId) (raw : Text) (opens : Bool)
  | deleteEntry (connection : ConnectionId) (name : Text)
  | refresh (connection : ConnectionId)
  | cd (connection : ConnectionId) (dir : Path)
  | goTo (connection : ConnectionId) (path : Path)
  | goBack (connection : ConnectionId)
  | goForward (connection : ConnectionId)
  | clear (connection : Option ConnectionId)
  /-- The host answers a call that waits. -/
  | reply (id : Nat) (answer : Answer)

/-- The call a reply is for. -/
def State.waiting (s : State) (id : Nat) : Option Call := s.calls.find? (·.id = id)

def act (platform : Platform) (s : State) : Action → State
  | .open connection startPath sessionKey => s.openTab connection startPath sessionKey
  | .openFile connection path => s.openFile s.history.clock connection path none
  | .setContent content => s.setContent content
  | .save connection => s.save platform connection
  | .closeFile => s.closeFile
  | .createEntry connection raw opens => s.createEntry connection raw opens
  | .deleteEntry connection name => s.deleteEntry connection name
  | .refresh connection => s.refresh s.history.clock connection .done
  | .cd connection dir => s.cd connection dir
  | .goTo connection path => s.goTo connection path
  | .goBack connection => s.stepTrail connection (-1)
  | .goForward connection => s.stepTrail connection 1
  | .clear connection => s.clear connection
  | .reply id answer =>
    match s.waiting id with
    | none => s
    | some call => (s.withoutCall id).resume platform call answer

def step (platform : Platform) (s : State) (a : Action) : State := (act platform s a).tick

def run (platform : Platform) (s : State) (actions : List Action) : State :=
  actions.foldl (step platform) s

end PocketShell.Files
