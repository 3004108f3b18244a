import PocketShell.SessionTabs.Rename

/-!
# A rename moves what the field was opened on

* `Careful`: what a commit and a reply must find. No request of the edit is on its way, and the
  name stands for the session the field was opened on, in the rows of its folder and on its
  connection, both when it is committed and when the host answers. No other field is open then.
* `Sound`: what is asked of the host, and once for each edit.
* `Exact`: what a step does to the records.
* `rename_exact`: careful runs. `rename_strays`: Enter and blur, and a folder switch.
-/

namespace PocketShell.SessionTabs.Rename

open Js (Text ascii)
open Sessions (identity identityOf renameRow)

variable {F D : Type}

/-! ## 1. What is to be shown -/

def Event.edit : Event F → Nat
  | .asked edit _ _ _ _ _ => edit

/-- The identity of the session under a name. -/
def Opened.key (o : Opened F) (name : Text) : Text :=
  sessionIdentityKey name (o.ref.map fun _ => .aplexer) (o.ref.bind (·.workspace))

/-- The key of the composer's record of the session under a name. -/
def Opened.target (o : Opened F) (name : Text) : Text := targetKey o.connection (o.key name)

structure Sound (s : State F D) : Prop where
  asked : ∀ edit opened connectionId old new ref,
    .asked edit opened connectionId old new ref ∈ s.log → opened.connection = some connectionId ∧
      opened.name = old ∧ ref.map (·.workspace) = opened.ref.map (·.workspace)
  once : (s.log.map Event.edit).Nodup

/-- The records of the session have its new name, and no others are touched. -/
structure Renamed (s t : State F D) (o : Opened F) (new : Text) : Prop where
  record : ∀ record, s.composer (o.target o.name) = some record →
    t.composer (o.target new) = some record ∧ t.composer (o.target o.name) = none
  records : ∀ key, key ≠ o.target o.name → key ≠ o.target new → t.composer key = s.composer key
  rows : t.sessions.sessions = s.sessions.sessions.map fun row =>
    if identity row = identityOf o.name (o.ref.bind (·.workspace)) then renameRow row new else row
  panes : t.openPanes = (s.openPanes.filter (·.identity ≠ o.key new)).map fun pane =>
    if pane.identity = o.key o.name then ⟨new, o.key new⟩ else pane
  handle : ∀ handle, s.terminalRefs (o.key o.name) = some handle →
    t.terminalRefs (o.key new) = some handle ∧ t.terminalRefs (o.key o.name) = none
  handles : ∀ key, key ≠ o.key o.name → key ≠ o.key new → t.terminalRefs key = s.terminalRefs key
  selected : t.selected = s.selected.map (relabel o.name new)
  mru : t.mru = s.mru.map (relabel o.name new)
  order : t.tabOrders o.folder = (s.tabOrders o.folder).map (relabel o.name new)
  remembered : t.memory o.folder = some (t.selected, t.mru)
  folders : ∀ folder, folder ≠ o.folder →
    t.tabOrders folder = s.tabOrders folder ∧ t.memory folder = s.memory folder

structure Keeps (s t : State F D) : Prop where
  composer : t.composer = s.composer
  rows : t.sessions.sessions = s.sessions.sessions
  panes : t.openPanes = s.openPanes
  handles : t.terminalRefs = s.terminalRefs
  selected : t.selected = s.selected
  mru : t.mru = s.mru
  order : t.tabOrders = s.tabOrders
  memory : t.memory = s.memory

/-- What the host's answer does: the field it was not asked from stays as it is. -/
structure Answered (s t : State F D) (request : Request F) (answer : Answer) : Prop where
  renamed : ∀ new, answer.renamed = some new → Renamed s t request.opened new
  refused : answer.renamed = none → Keeps s t
  spared : s.renaming.isSome → s.field ≠ request.field →
    t.renaming = s.renaming ∧ t.renameError = s.renameError

variable (rowsOf : RowsOf F)

/-- What a step of a rename does to the records. -/
def Exact [DecidableEq F] (s : State F D) (a : Action F D) : Prop :=
  match a with
  | .answered i answer => ∀ request, s.requests[i]? = some request →
      Answered s (s.step rowsOf a) request answer
  | .beginRename _ => Keeps s (s.step rowsOf a) ∧ (s.step rowsOf a).renameError = none
  | .onRenameInput _ | .cancelRename | .commitRename => Keeps s (s.step rowsOf a)
  | _ => True

/-- What a step must find. -/
def Careful (s : State F D) : Action F D → Prop
  | .commitRename => ∀ connectionId target next, s.connectionId = some connectionId →
      s.renaming = some target → s.renameText ≠ target →
      renamedSessionName s.renameText = some next → next ≠ target →
      s.opened.connection = some connectionId ∧
        (aplexerRefFor (s.rows rowsOf) target).map (·.workspace) =
          s.opened.ref.map (·.workspace) ∧
        ∀ request ∈ s.requests, request.edit ≠ s.edit
  | .answered i answer => ∀ request, s.requests[i]? = some request → answer ≠ .rejected →
      (s.renaming = none ∨ s.field = request.field) ∧
        ∀ new, answer.renamed = some new → new ≠ request.old ∧ s.folder = request.opened.folder ∧
          identityFor (s.rows rowsOf) request.old none = request.opened.key request.old ∧
          identityFor (s.rows rowsOf) new (some request.old) = request.opened.key new
  | _ => True

def CarefulFrom [DecidableEq F] (s : State F D) : List (Action F D) → Prop
  | [] => True
  | a :: rest => Careful rowsOf s a ∧ CarefulFrom (s.step rowsOf a) rest

/-! ## 2. Keys and panes -/

variable {name other : Text}

theorem sessionIdentityKey_inj {backend : Option Backend} {workspace : Option Text}
    (h : sessionIdentityKey name backend workspace = sessionIdentityKey other backend workspace) :
    name = other := by
  unfold sessionIdentityKey at h
  split at h
  · exact List.append_cancel_left h
  · exact h

theorem Opened.key_inj {o : Opened F} (h : o.key name = o.key other) :
    name = other := sessionIdentityKey_inj h

theorem Opened.target_inj {o : Opened F} (h : o.target name = o.target other) :
    name = other := o.key_inj (List.append_cancel_left h)

theorem rekeyed_moved {states : Text → Option D} {old new : Text} {record : D} (hne : old ≠ new)
    (h : states old = some record) :
    rekeyed states old new new = some record ∧ rekeyed states old new old = none := by
  unfold rekeyed
  simp [hne, h, hne.symm]

theorem rekeyed_other {states : Text → Option D} {old new key : Text} (hold : key ≠ old)
    (hnew : key ≠ new) : rekeyed states old new key = states key := by
  unfold rekeyed
  split
  · rfl
  · cases h : states old <;> simp [hold, hnew]

theorem movedRef_moved {refs : Text → Option Nat} {old new : Text} {handle : Nat} (hne : old ≠ new)
    (h : refs old = some handle) :
    movedRef refs old new new = some handle ∧ movedRef refs old new old = none := by
  unfold movedRef
  simp [h, hne]

theorem movedRef_other {refs : Text → Option Nat} {old new key : Text} (hold : key ≠ old)
    (hnew : key ≠ new) : movedRef refs old new key = refs key := by
  unfold movedRef
  cases h : refs old <;> simp [hold, hnew]

def identities (panes : List SessionPaneRecord) : List Text := panes.map (·.identity)

variable {panes : List SessionPaneRecord}

theorem repoint_absent {identity : Text} (h : identity ∉ identities panes) (pane : SessionPaneRecord) :
    repoint panes identity pane = panes := by
  induction panes with
  | nil => rfl
  | cons first rest ih =>
    have hfirst : first.identity ≠ identity := fun heq => h (by simp [identities, heq])
    have hrest : identity ∉ identities rest := fun hmem => h (List.mem_cons_of_mem _ hmem)
    rw [repoint, if_neg hfirst, ih hrest]

/-- Where each identity has one pane, the first one is every one. -/
theorem repoint_eq (h : (identities panes).Nodup) (identity : Text) (pane : SessionPaneRecord) :
    repoint panes identity pane = panes.map fun p => if p.identity = identity then pane else p := by
  induction panes with
  | nil => rfl
  | cons first rest ih =>
    obtain ⟨hfirst, hrest⟩ := List.nodup_cons.mp h
    rw [repoint, List.map_cons]
    split
    case isTrue heq =>
      have habsent : identity ∉ identities rest := heq ▸ hfirst
      rw [← ih hrest, repoint_absent habsent]
    case isFalse => rw [ih hrest]

theorem relabel_absent {old : Text} {ids : List Text} (h : ids.contains old = false) (new : Text) :
    ids.map (relabel old new) = ids := by
  have hmem : old ∉ ids := by simpa using h
  refine (List.map_congr_left fun id hid => ?_).trans (List.map_id _)
  have hne : id ≠ old := by
    rintro rfl
    exact hmem hid
  exact if_neg hne

theorem relabel_guard (old new : Text) (ids : List Text) :
    (if ids.contains old then ids.map (relabel old new) else ids) = ids.map (relabel old new) := by
  split
  · rfl
  case isFalse h => exact (relabel_absent (by simpa using h) new).symm

theorem relabel_selected (old new : Text) (selected : Option Text) :
    (if selected = some old then some new else selected) = selected.map (relabel old new) := by
  cases selected with
  | none => simp
  | some id =>
    simp only [Option.some.injEq, Option.map_some, relabel]
    split <;> rfl

/-! ## 3. The invariant -/

/-- What a request on its way was asked from. -/
structure Asked (request : Request F) : Prop where
  connection : request.opened.connection = some request.connectionId
  name : request.opened.name = request.old
  ref : request.ref.map (·.workspace) = request.opened.ref.map (·.workspace)

structure Inv (s : State F D) : Prop where
  sound : Sound s
  panes : (identities s.openPanes).Nodup
  opened : ∀ target, s.renaming = some target →
    s.opened.name = target ∧ s.opened.folder = s.folder
  current : s.edit < s.nextEdit
  edits : ∀ edit ∈ s.log.map Event.edit, edit < s.nextEdit
  requests : ∀ request ∈ s.requests, Asked request
  waiting : s.renaming.isSome → s.edit ∈ s.log.map Event.edit →
    ∃ request ∈ s.requests, request.edit = s.edit

theorem inv_start (folder : F) : Inv (.start folder : State F D) where
  sound := ⟨fun _ _ _ _ _ _ h => (by cases h), List.nodup_nil⟩
  panes := List.nodup_nil
  opened _ h := by cases h
  current := Nat.zero_lt_one
  edits _ h := by cases h
  requests _ h := by cases h
  waiting _ h := by cases h

/-- A step that leaves the field, the requests and the log. -/
theorem Inv.same {s t : State F D} (h : Inv s) (hpanes : (identities t.openPanes).Nodup)
    (hfolder : t.folder = s.folder) (hrenaming : t.renaming = s.renaming)
    (hopened : t.opened = s.opened) (hedit : t.edit = s.edit) (hnext : t.nextEdit = s.nextEdit)
    (hrequests : t.requests = s.requests) (hlog : t.log = s.log) : Inv t where
  sound := ⟨by rw [hlog]; exact h.sound.asked, by rw [hlog]; exact h.sound.once⟩
  panes := hpanes
  opened := by rw [hrenaming, hopened, hfolder]; exact h.opened
  current := by rw [hedit, hnext]; exact h.current
  edits := by rw [hlog, hnext]; exact h.edits
  requests := by rw [hrequests]; exact h.requests
  waiting := by rw [hrenaming, hedit, hlog, hrequests]; exact h.waiting

/-- A step that closes the field or goes on with another edit. -/
theorem Inv.moved {s t : State F D} (h : Inv s) (hpanes : (identities t.openPanes).Nodup)
    (hopened : ∀ target, t.renaming = some target →
      t.opened.name = target ∧ t.opened.folder = t.folder)
    (hedit : t.renaming = none ∧ t.edit = s.edit ∧ t.nextEdit = s.nextEdit ∨
      t.edit = s.nextEdit ∧ t.nextEdit = s.nextEdit + 1)
    (hrequests : ∀ request ∈ t.requests, request ∈ s.requests) (hlog : t.log = s.log) : Inv t where
  sound := ⟨by rw [hlog]; exact h.sound.asked, by rw [hlog]; exact h.sound.once⟩
  panes := hpanes
  opened := hopened
  current := by
    have hcurrent := h.current
    omega
  edits := by
    rw [hlog]
    intro edit hmem
    have hlt := h.edits edit hmem
    omega
  requests request hmem := h.requests request (hrequests request hmem)
  waiting hsome hmem := by
    rw [hlog] at hmem
    have hlt := h.edits _ hmem
    obtain ⟨hnone, -⟩ | ⟨heq, -⟩ := hedit
    · simp [hnone] at hsome
    · omega

variable {s : State F D}

theorem send_inv (h : Inv s) {connectionId target : Text} (next : Text)
    (htarget : s.renaming = some target) (hconnection : s.opened.connection = some connectionId)
    (href : (aplexerRefFor (s.rows rowsOf) target).map (·.workspace) =
      s.opened.ref.map (·.workspace))
    (hfree : ∀ request ∈ s.requests, request.edit ≠ s.edit) :
    Inv (s.send rowsOf connectionId target next) := by
  have hname := (h.opened target htarget).1
  have hnew : s.edit ∉ s.log.map Event.edit := by
    intro hmem
    obtain ⟨request, hrequest, heq⟩ := h.waiting (by simp [htarget]) hmem
    exact hfree request hrequest heq
  refine ⟨⟨fun edit opened other old new ref hmem => ?_, ?_⟩, h.panes, h.opened, h.current,
    fun edit hmem => ?_, fun request hmem => ?_, fun _ _ => ?_⟩
  · rcases List.mem_append.mp hmem with hmem | hmem
    · exact h.sound.asked _ _ _ _ _ _ hmem
    · cases List.mem_singleton.mp hmem
      exact ⟨hconnection, hname, href⟩
  · simp only [State.send, List.map_append]
    refine List.nodup_append.mpr ⟨h.sound.once, List.nodup_singleton _, ?_⟩
    rintro edit hmem other hother rfl
    cases List.mem_singleton.mp hother
    exact hnew hmem
  · simp only [State.send, List.map_append] at hmem
    rcases List.mem_append.mp hmem with hmem | hmem
    · exact h.edits edit hmem
    · cases List.mem_singleton.mp hmem
      exact h.current
  · rcases List.mem_append.mp hmem with hmem | hmem
    · exact h.requests request hmem
    · cases List.mem_singleton.mp hmem
      exact ⟨hconnection, hname, href⟩
  · exact ⟨_, List.mem_append_right _ (List.mem_singleton.mpr rfl), rfl⟩

theorem cancelRename_inv (h : Inv s) : Inv s.cancelRename :=
  h.moved h.panes (fun _ heq => by cases heq) (.inl ⟨rfl, rfl, rfl⟩) (fun _ hmem => hmem) rfl

theorem commitRename_inv (h : Inv s) (hc : Careful rowsOf s .commitRename) :
    Inv (s.commitRename rowsOf) := by
  unfold State.commitRename
  split
  case h_2 => exact cancelRename_inv h
  case h_1 target connectionId htarget hconnection =>
    split
    · exact cancelRename_inv h
    case isFalse hchanged =>
      have htext : s.renameText ≠ target := by
        simp only [Bool.or_eq_true, decide_eq_true_eq, not_or] at hchanged
        exact hchanged.2
      split
      case h_1 => exact h.same h.panes rfl rfl rfl rfl rfl rfl rfl
      case h_2 next hnext =>
        split
        · exact cancelRename_inv h
        case isFalse hne =>
          obtain ⟨hopened, href, hfree⟩ :=
            hc connectionId target next hconnection htarget htext hnext hne
          exact send_inv rowsOf h next htarget hopened href hfree

theorem identities_filter (h : (identities panes).Nodup)
    (p : SessionPaneRecord → Bool) : (identities (panes.filter p)).Nodup :=
  h.sublist (List.filter_sublist.map _)

/-- A pane that takes the place of another in a list that has none of its identity. -/
theorem identities_repoint (h : (identities panes).Nodup)
    {identity : Text} {pane : SessionPaneRecord} (hfree : pane.identity ∉ identities panes) :
    (identities (repoint panes identity pane)).Nodup ∧
      ∀ other ∈ identities (repoint panes identity pane),
        other = pane.identity ∨ other ∈ identities panes := by
  induction panes with
  | nil => exact ⟨List.nodup_nil, fun _ hmem => (by cases hmem)⟩
  | cons first rest ih =>
    obtain ⟨hfirst, hrest⟩ := List.nodup_cons.mp h
    have hfree' : pane.identity ∉ identities rest := fun hmem => hfree (List.mem_cons_of_mem _ hmem)
    obtain ⟨hnodup, hsub⟩ := ih hrest hfree'
    rw [repoint]
    split
    · refine ⟨List.nodup_cons.mpr ⟨hfree', hrest⟩, fun other hmem => ?_⟩
      rcases List.mem_cons.mp hmem with rfl | hmem
      · exact .inl rfl
      · exact .inr (List.mem_cons_of_mem _ hmem)
    · refine ⟨List.nodup_cons.mpr ⟨fun hmem => ?_, hnodup⟩, fun other hmem => ?_⟩
      · obtain heq | hmem := hsub _ hmem
        · exact hfree (heq ▸ List.mem_cons_self)
        · exact hfirst hmem
      · rcases List.mem_cons.mp hmem with rfl | hmem
        · exact .inr List.mem_cons_self
        · exact (hsub other hmem).imp_right (List.mem_cons_of_mem _)

theorem identities_moved (h : (identities panes).Nodup) (fromIdentity toIdentity new : Text) :
    (identities (repoint (panes.filter (·.identity ≠ toIdentity)) fromIdentity
      ⟨new, toIdentity⟩)).Nodup := by
  refine (identities_repoint (identities_filter h _) fun hmem => ?_).1
  obtain ⟨pane, hpane, heq⟩ := List.mem_map.mp hmem
  exact absurd heq (by simpa using (List.mem_filter.mp hpane).2)

variable {request : Request F}

/-- The two look-ups of the workspace agree. -/
theorem Asked.workspace (h : Asked request) :
    request.ref.bind (·.workspace) = request.opened.ref.bind (·.workspace) := by
  have href := h.ref
  cases hr : request.ref <;> cases ho : request.opened.ref <;> simp [hr, ho] at href ⊢
  exact href

/-! ## 4. Steps -/

variable [DecidableEq F]

variable {answer : Answer}

theorem renamed_eq {i : Nat} {new fromIdentity toIdentity : Text} (hrenamed : answer.renamed = some new)
    (hold : identityFor (s.rows rowsOf) request.old none = fromIdentity)
    (hnew : identityFor (s.rows rowsOf) new (some request.old) = toIdentity) :
    s.renamed rowsOf i request answer =
      let moved := ((s.dropRequest i).moveRecords request.connectionId request.old new
        (request.ref.bind (·.workspace)) fromIdentity toIdentity).cancelRename
      { moved with sessions := moved.sessions.refresh false } := by
  subst hold hnew
  simp only [State.renamed, hrenamed]
  rfl

theorem renamed_inv (h : Inv s) (i : Nat) (request : Request F) (answer : Answer) :
    Inv (s.renamed rowsOf i request answer) := by
  have hrequests : ∀ other ∈ s.requests.eraseIdx i, other ∈ s.requests :=
    fun other hmem => (List.eraseIdx_sublist _ _).subset hmem
  cases hr : answer.renamed with
  | some sessionName =>
    rw [renamed_eq rowsOf hr rfl rfl]
    exact h.moved (identities_moved h.panes _ _ _) (fun _ heq => by cases heq)
      (.inl ⟨rfl, rfl, rfl⟩) hrequests rfl
  | none =>
    simp only [State.renamed, hr]
    cases answer <;> exact h.moved h.panes h.opened (.inr ⟨rfl, rfl⟩) hrequests rfl

theorem inv_step (h : Inv s) {a : Action F D} (hc : Careful rowsOf s a) : Inv (s.step rowsOf a) := by
  cases a with
  | beginRename session =>
    refine h.moved h.panes (fun target heq => ?_) (.inr ⟨rfl, rfl⟩) (fun _ hmem => hmem) rfl
    cases heq
    exact ⟨rfl, rfl⟩
  | onRenameInput value => exact h.moved h.panes h.opened (.inr ⟨rfl, rfl⟩) (fun _ hmem => hmem) rfl
  | cancelRename => exact cancelRename_inv h
  | commitRename => exact commitRename_inv rowsOf h hc
  | answered i answer =>
    simp only [State.step]
    split
    case h_1 request hrequest => exact renamed_inv rowsOf h i request answer
    case h_2 => exact h
  | showFolder folder selected mru =>
    exact h.moved h.panes (fun _ heq => by cases heq) (.inl ⟨rfl, rfl, rfl⟩) (fun _ hmem => hmem) rfl
  | showTerminal session identity =>
    refine h.same ?_ rfl rfl rfl rfl rfl rfl rfl
    simp only [State.step, upsertPane]
    split
    · exact h.panes
    case isFalse hfree =>
      rw [identities, List.map_append]
      refine List.nodup_append.mpr ⟨h.panes, List.nodup_singleton _, ?_⟩
      rintro other hmem _ hother rfl
      cases List.mem_singleton.mp hother
      obtain ⟨pane, hpane, heq⟩ := List.mem_map.mp hmem
      exact hfree (List.any_eq_true.mpr ⟨pane, hpane, by simpa using heq⟩)
  | prunePanes live => exact h.same (identities_filter h.panes _) rfl rfl rfl rfl rfl rfl rfl
  | connect | list | select | mountRef | writeComposer | writeTabOrder | persist =>
    exact h.same h.panes rfl rfl rfl rfl rfl rfl rfl

theorem relabelOrder_self (orders : F → List Text) (folder : F) (old new : Text) :
    relabelOrder orders folder old new folder = (orders folder).map (relabel old new) := by
  unfold relabelOrder
  split
  · exact Function.update_self _ _ _
  case isFalse h => exact (relabel_absent (by simpa using h) new).symm

theorem relabelOrder_other (orders : F → List Text) {folder other : F} (h : other ≠ folder)
    (old new : Text) : relabelOrder orders folder old new other = orders other := by
  unfold relabelOrder
  split
  · exact Function.update_of_ne h _ _
  · rfl

theorem renamed_renames (h : Inv s) {i : Nat}
    {new : Text} (hmem : request ∈ s.requests) (hrenamed : answer.renamed = some new)
    (hnew : new ≠ request.old) (hfolder : s.folder = request.opened.folder)
    (hold : identityFor (s.rows rowsOf) request.old none = request.opened.key request.old)
    (hto : identityFor (s.rows rowsOf) new (some request.old) = request.opened.key new) :
    Renamed s (s.renamed rowsOf i request answer) request.opened new := by
  have hasked := h.requests request hmem
  have hkeys : request.opened.key request.old ≠ request.opened.key new :=
    fun heq => hnew (request.opened.key_inj heq).symm
  have htargets : request.opened.target request.old ≠ request.opened.target new :=
    fun heq => hnew (request.opened.target_inj heq).symm
  have htarget : ∀ name, request.opened.target name =
      targetKey (some request.connectionId) (request.opened.key name) := by
    intro name
    rw [Opened.target, hasked.connection]
  rw [renamed_eq rowsOf hrenamed hold hto]
  constructor
  · rw [hasked.name]
    intro record hrecord
    have hmoved := rekeyed_moved htargets hrecord
    rw [htarget, htarget] at hmoved ⊢
    exact hmoved
  · rw [hasked.name]
    intro key hne hne'
    rw [htarget] at hne hne'
    exact rekeyed_other hne hne'
  · rw [hasked.name, ← hasked.workspace]
    refine List.map_congr_left fun row _ => ?_
    by_cases hrow : identity row = identityOf request.old (request.ref.bind (·.workspace)) <;>
      simp [hrow]
  · rw [hasked.name]
    exact repoint_eq (identities_filter h.panes _) _ _
  · rw [hasked.name]
    exact fun handle hhandle => movedRef_moved hkeys hhandle
  · rw [hasked.name]
    exact fun key hne hne' => movedRef_other hne hne'
  · rw [hasked.name]
    exact relabel_selected _ _ _
  · rw [hasked.name]
    exact relabel_guard _ _ _
  · rw [hasked.name, ← hfolder]
    exact relabelOrder_self _ _ _ _
  · rw [← hfolder]
    exact Function.update_self _ _ _
  · intro folder hne
    rw [← hfolder] at hne
    exact ⟨relabelOrder_other _ hne _ _, Function.update_of_ne hne _ _⟩

theorem renamed_answered (h : Inv s) {i : Nat} (hi : s.requests[i]? = some request)
    (hc : Careful rowsOf s (.answered i answer)) :
    Answered s (s.renamed rowsOf i request answer) request answer := by
  have hmem : request ∈ s.requests := List.mem_of_getElem? hi
  refine ⟨fun new hrenamed => ?_, fun hrenamed => ?_, fun hsome hfield => ?_⟩
  · have hanswer : answer ≠ .rejected := by
      rintro rfl
      cases hrenamed
    obtain ⟨hnew, hfolder, hold, hto⟩ := (hc request hi hanswer).2 new hrenamed
    exact renamed_renames rowsOf h hmem hrenamed hnew hfolder hold hto
  · simp only [State.renamed, hrenamed]
    cases answer <;> exact ⟨rfl, rfl, rfl, rfl, rfl, rfl, rfl, rfl⟩
  · cases answer with
    | rejected => exact ⟨rfl, rfl⟩
    | replied ok sessionName error =>
      obtain hnone | hsame := (hc request hi (by simp)).1
      · simp [hnone] at hsome
      · exact absurd hsame hfield

omit [DecidableEq F] in
theorem commitRename_keeps (s : State F D) : Keeps s (s.commitRename rowsOf) := by
  have hcancel : Keeps s s.cancelRename := ⟨rfl, rfl, rfl, rfl, rfl, rfl, rfl, rfl⟩
  unfold State.commitRename
  split
  · split
    · exact hcancel
    · split
      · exact ⟨rfl, rfl, rfl, rfl, rfl, rfl, rfl, rfl⟩
      · split
        · exact hcancel
        · exact ⟨rfl, rfl, rfl, rfl, rfl, rfl, rfl, rfl⟩
  · exact hcancel

theorem exact_step (h : Inv s) {a : Action F D} (hc : Careful rowsOf s a) : Exact rowsOf s a := by
  cases a with
  | answered i answer =>
    intro request hi
    simp only [State.step, hi]
    exact renamed_answered rowsOf h hi hc
  | beginRename session => exact ⟨⟨rfl, rfl, rfl, rfl, rfl, rfl, rfl, rfl⟩, rfl⟩
  | commitRename => exact commitRename_keeps rowsOf s
  | onRenameInput | cancelRename => exact ⟨rfl, rfl, rfl, rfl, rfl, rfl, rfl, rfl⟩
  | connect | showFolder | list | select | showTerminal | prunePanes | mountRef | writeComposer
  | writeTabOrder | persist => trivial

/-! ## 5. Runs -/

theorem inv_run (h : Inv s) : ∀ {actions : List (Action F D)},
    CarefulFrom rowsOf s actions → Inv (actions.foldl (State.step rowsOf) s) ∧
      ∀ before a after, actions = before ++ a :: after →
        Exact rowsOf (before.foldl (State.step rowsOf) s) a := by
  intro actions
  induction actions generalizing s with
  | nil => exact fun _ => ⟨h, fun before a after heq => by simp at heq⟩
  | cons a rest ih =>
    rintro ⟨hc, hrest⟩
    obtain ⟨hinv, hexact⟩ := ih (inv_step rowsOf h hc) hrest
    refine ⟨hinv, fun before b after heq => ?_⟩
    cases before with
    | nil =>
      cases heq
      exact exact_step rowsOf h hc
    | cons c before =>
      cases heq
      exact hexact before b after rfl

theorem rename_exact (folder : F) (actions : List (Action F D))
    (h : CarefulFrom rowsOf (.start folder) actions) :
    Sound (State.run rowsOf folder actions) ∧ ∀ before a after, actions = before ++ a :: after →
      Exact rowsOf (State.run rowsOf folder before) a :=
  let ⟨hinv, hexact⟩ := inv_run rowsOf (inv_start folder) h
  ⟨hinv.sound, hexact⟩

/-! ## 6. Two folders with a `main` -/

/-- The rows of a workspace. -/
def workspaceRows : RowsOf Text := fun workspace rows => rows.filter (·.workspace = some workspace)

def aplexerRow (workspace : Text) : Row :=
  { name := ascii "main", workspace := some workspace, rest := { backend := some .aplexer } }

/-- Both sessions have a draft, and the field of the one in `/a` has another name. -/
def typed : List (Action Text Nat) :=
  [.connect (some (ascii "c")), .list (.refresh false),
    .list (.listed ⟨0, false⟩ [aplexerRow (ascii "/a"), aplexerRow (ascii "/b")] [] 0 0),
    .writeComposer (ascii "c/aplexer:/a:main") (some 1),
    .writeComposer (ascii "c/aplexer:/b:main") (some 2),
    .beginRename (ascii "main"), .onRenameInput (ascii "next")]

def renamedOnce : List (Action Text Nat) :=
  typed ++ [.commitRename, .answered 0 (.replied true (some (ascii "next")) none)]

theorem rename_exact_once :
    Sound (State.run workspaceRows (ascii "/a") renamedOnce) ∧
      ∀ before a after, renamedOnce = before ++ a :: after →
        Exact workspaceRows (State.run workspaceRows (ascii "/a") before) a :=
  rename_exact workspaceRows (ascii "/a") renamedOnce (by
    refine ⟨trivial, trivial, trivial, trivial, trivial, trivial, trivial, ?_, ?_, trivial⟩
    · intro connectionId target next hconnection htarget _ _ _
      cases (show some (ascii "c") = some connectionId from hconnection)
      cases (show some (ascii "main") = some target from htarget)
      exact ⟨rfl, rfl, fun request hmem => (by cases hmem)⟩
    · intro request hrequest _
      obtain rfl : _ = request := Option.some.inj hrequest
      refine ⟨.inr rfl, fun new hnew => ?_⟩
      cases (show some (ascii "next") = some new from hnew)
      exact ⟨by decide +kernel, by decide +kernel, by decide +kernel, by decide +kernel⟩)

/-- Enter, and the blur that comes with it. -/
def enterAndBlur : List (Action Text Nat) := typed ++ [.commitRename, .commitRename]

/-- The folder `/b` is shown when the host answers. -/
def switchedRename : List (Action Text Nat) :=
  typed ++ [.commitRename, .showFolder (ascii "/b") none []]

theorem rename_strays :
    (¬ ∀ actions : List (Action Text Nat),
      Sound (State.run workspaceRows (ascii "/a") actions)) ∧
    ¬ ∀ before a, Exact (D := Nat) workspaceRows (State.run workspaceRows (ascii "/a") before) a := by
  constructor
  · intro h
    have honce := (h enterAndBlur).once
    revert honce
    decide +kernel
  · intro h
    have hexact := h switchedRename (.answered 0 (.replied true (some (ascii "next")) none))
    have hdraft := ((hexact _ rfl).renamed (ascii "next") rfl).records
      (ascii "c/aplexer:/b:main") (by decide +kernel) (by decide +kernel)
    revert hdraft
    decide +kernel

end PocketShell.SessionTabs.Rename
