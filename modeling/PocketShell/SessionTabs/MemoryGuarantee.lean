import PocketShell.SessionTabs.MemoryInvariant

/-!
# The guarantee of the folder memory

Along a careful run every record of a folder names that folder's tabs, a folder comes back as it
was left, and nothing is pruned before the session list has arrived (`folder_keeps_its_tabs`).
Without care the answer of a rename writes a tab of the folder that was left into the record of the
other, in whichever order the watchers run (`folder_takes_tabs`).
-/

namespace PocketShell.SessionTabs.Memory

open Js (Text ascii)
open Bar

variable {F : Type} [DecidableEq F] (platform : Platform F)

/-! ## 1. What is guaranteed -/

/-- The folder's record and the fields that it is loaded into, before the tab in front is put on
top of the stack. -/
def Workspace.arrival (s : Workspace F) (folder : F) (routedTab : Option Text) (barFirst : Bool) :
    Workspace F :=
  (s.depart platform folder barFirst).load routedTab

/-- Coming back to `folder` gives what `record` has, less the ids that are on the bar no more, with
the tab in front on top of the stack: where it was, if it was left in front. -/
structure Restored (s : Workspace F) (folder : F) (routedTab : Option Text) (barFirst : Bool)
    (record : WorkspaceMemoryRecord) : Prop where
  filesTabs : (s.navigate platform folder routedTab barFirst).filesTabs = record.filesTabs
  selected : (s.navigate platform folder routedTab barFirst).selected = routedTab.or record.activeTab
  arrived : (s.arrival platform folder routedTab barFirst).mru = record.mru
  mru : (s.navigate platform folder routedTab barFirst).mru =
    ((s.arrival platform folder routedTab barFirst).landed platform).filter fun id =>
      s.sessions = [] ∨ (s.navigate platform folder routedTab barFirst).OnBar platform id
  stays : (s.arrival platform folder routedTab barFirst).activeTab platform = record.mru.getLast? →
    record.mru.Nodup → (s.arrival platform folder routedTab barFirst).landed platform = record.mru

/-- What an id of the folder's record is after an action. A closed tab has none. -/
def Action.carries : Action F → Text → Option Text
  | .closeFilesTab closing, id => if id = closing then none else some id
  | .adoptRenamedSession _ old new _, id => some (if id = old then new else id)
  | _, id => some id

structure Kept (carries : Text → Option Text) (before after : WorkspaceMemoryRecord) : Prop where
  filesTabs : ∀ tab ∈ before.filesTabs, carries tab.id ≠ none → tab ∈ after.filesTabs
  mru : ∀ id ∈ before.mru, ∀ id' ∈ carries id, id' ∈ after.mru

/-- The record of a folder: in memory, or on disk. -/
def Workspace.record (s : Workspace F) (folder : F) : Option WorkspaceMemoryRecord :=
  (s.memory folder).or (s.localStorage folder)

/-- Every record is still there in `t`, with its Files tabs and its stack. -/
def Unpruned (carries : Text → Option Text) (s t : Workspace F) : Prop :=
  ∀ folder, ∀ before ∈ s.record folder, ∃ after ∈ t.record folder,
    Kept (if folder = s.folder then carries else some) before after

variable {platform}

/-! ## 2. A folder comes back -/

variable {s : Workspace F}

/-- The flush after the record is loaded: the tab in front is on top already. -/
theorem flush_landed (h : s.activeTab platform = none ∨ s.mru.getLast? = s.activeTab platform) :
    (s.flush platform).filesTabs = s.filesTabs ∧ (s.flush platform).selected = s.selected ∧
      (s.flush platform).folder = s.folder ∧ (s.flush platform).sessions = s.sessions ∧
      (s.flush platform).mru = s.mru.filter fun id => s.sessions = [] ∨ s.OnBar platform id := by
  have hprune : s.sessions ≠ [] → pruneTabIds s.mru (s.tabs platform) =
      s.mru.filter fun id => s.sessions = [] ∨ s.OnBar platform id := by
    intro hsome
    refine List.filter_congr fun id _ => ?_
    rw [Bool.eq_iff_iff]
    simp [hsome, onBar_iff]
  unfold Workspace.flush
  rw [watchActive_still (h.imp_right .inr)]
  obtain ⟨orders, ⟨heq, hkept⟩ | ⟨heq, hsome, -⟩⟩ :=
    watchTabs_cases platform { s with seenActive := s.activeTab platform }
  · rw [heq]
    refine ⟨rfl, rfl, rfl, rfl, ?_⟩
    by_cases hempty : s.sessions = []
    · simp [hempty]
    · exact (hkept.resolve_left hempty).symm.trans (hprune hempty)
  · rw [heq]
    exact ⟨rfl, rfl, rfl, rfl, hprune hsome⟩

variable {barFirst : Bool}

theorem arrival_eq {folder : F}
    (hquiet : barFirst = true → Quiet platform (s.turn folder)) (routedTab : Option Text) :
    ∃ active orders, s.arrival platform folder routedTab barFirst =
      { s.turn folder with
        seenActive := active
        tabOrders := orders
        filesTabs := (s.turn folder).remembered.filesTabs
        selected := routedTab.or (s.turn folder).remembered.activeTab
        mru := (s.turn folder).remembered.mru } := by
  obtain ⟨active, orders, heq⟩ := depart_quiet hquiet
  unfold Workspace.arrival
  rw [heq]
  exact ⟨active, orders, rfl⟩

variable (platform) in
omit [DecidableEq F] in
theorem landed_last (s : Workspace F) : s.activeTab platform = none ∨
    (s.landed platform).getLast? = s.activeTab platform := by
  unfold Workspace.landed
  cases hactive : s.activeTab platform with
  | none => exact .inl rfl
  | some id => exact .inr (by simp [pushMru])

theorem restored (h : Inv platform s) {folder : F} {routedTab : Option Text}
    (hc : Careful platform s (.navigate folder routedTab barFirst)) (hother : folder ≠ s.folder)
    {record : WorkspaceMemoryRecord} (hleft : s.left folder = some record) :
    Restored platform s folder routedTab barFirst record := by
  obtain ⟨active, orders, harrival⟩ := arrival_eq (hc.resolve_left hother).1 routedTab
  have hremembered : (s.turn folder).remembered = record := by
    have hmemory := h.left folder hother record hleft
    simp [Workspace.remembered, Workspace.turn, hmemory]
  rw [hremembered] at harrival
  -- What the record is loaded into, before and after the tab in front is on top.
  generalize hloaded : s.arrival platform folder routedTab barFirst = loaded at harrival
  have hnavigate : s.navigate platform folder routedTab barFirst = Workspace.flush platform
      (Workspace.persist { loaded with mru := loaded.landed platform }) := by
    unfold Workspace.navigate
    rw [if_neg hother, ← hloaded]
    dsimp only
    rw [loadFolderState_eq]
    rfl
  have hlast : (Workspace.persist { loaded with mru := loaded.landed platform }).activeTab platform
      = none ∨ (loaded.landed platform).getLast? = loaded.activeTab platform :=
    landed_last platform loaded
  obtain ⟨hfiles, hselected, hfolder, hsessions, hmru⟩ := flush_landed
    (s := Workspace.persist { loaded with mru := loaded.landed platform }) hlast
  rw [← hnavigate] at hfiles hselected hfolder hsessions hmru
  have hbar : ∀ id, (s.navigate platform folder routedTab barFirst).OnBar platform id ↔
      (Workspace.persist { loaded with mru := loaded.landed platform }).OnBar platform id := by
    intro id
    unfold Workspace.OnBar
    rw [hfiles, hfolder, hsessions]
  have hsame : loaded.sessions = s.sessions := by rw [harrival]; rfl
  constructor
  · rw [hfiles, harrival]; rfl
  · rw [hselected, harrival]; rfl
  · rw [hloaded, harrival]
  · rw [hmru, hloaded]
    refine List.filter_congr fun id _ => ?_
    rw [Bool.eq_iff_iff]
    simp only [decide_eq_true_eq]
    rw [hbar id]
    exact or_congr_left (by rw [← hsame]; rfl)
  · rw [hloaded]
    intro hactive hnodup
    have hstack : loaded.mru = record.mru := by rw [harrival]
    unfold Workspace.landed
    cases hfront : loaded.activeTab platform with
    | none => exact hstack
    | some id =>
      have htop : record.mru.getLast? = some id := by rw [← hactive, hfront]
      simp only [hstack]
      exact pushMru_last htop hnodup

/-! ## 3. Nothing is pruned without a session list -/

omit [DecidableEq F] in
theorem Kept.refl (record : WorkspaceMemoryRecord) : Kept some record record where
  filesTabs _ htab _ := htab
  mru _ hid _ hsame := Option.some.inj hsame ▸ hid

variable {carries : Text → Option Text}

omit [DecidableEq F] in
theorem Kept.trans {r r' r'' : WorkspaceMemoryRecord}
    (h : Kept carries r r') (h' : Kept some r' r'') : Kept carries r r'' where
  filesTabs tab htab hcarried := h'.filesTabs tab (h.filesTabs tab htab hcarried) (by simp)
  mru id hid id' hid' := h'.mru id' (h.mru id hid id' hid') id' rfl

/-- The records of the other folders stay as they are. -/
structure Elsewhere (s t : Workspace F) : Prop where
  folder : t.folder = s.folder
  memory : ∀ folder, folder ≠ s.folder → t.memory folder = s.memory folder
  localStorage : ∀ folder, folder ≠ s.folder → t.localStorage folder = s.localStorage folder

omit [DecidableEq F] in
theorem Elsewhere.trans {s t u : Workspace F} (h : Elsewhere s t) (h' : Elsewhere t u) :
    Elsewhere s u where
  folder := h'.folder.trans h.folder
  memory folder hne := (h'.memory folder (h.folder ▸ hne)).trans (h.memory folder hne)
  localStorage folder hne :=
    (h'.localStorage folder (h.folder ▸ hne)).trans (h.localStorage folder hne)

theorem elsewhere_persist {s t : Workspace F} (hfolder : t.folder = s.folder)
    (hmemory : t.memory = s.memory) (hstorage : t.localStorage = s.localStorage) :
    Elsewhere s t.persist where
  folder := hfolder
  memory folder hne := by simp [Workspace.persist, hfolder, hmemory, hne]
  localStorage folder hne := by simp [Workspace.persist, hfolder, hstorage, hne]

variable (platform) in
theorem watchActive_elsewhere (s : Workspace F) : Elsewhere s (s.watchActive platform) := by
  rcases watchActive_cases platform s with heq | ⟨id, -, heq⟩
  · rw [heq]
    exact ⟨rfl, fun _ _ => rfl, fun _ _ => rfl⟩
  · rw [heq]
    exact elsewhere_persist rfl rfl rfl

variable (platform) in
theorem flush_elsewhere (s : Workspace F) : Elsewhere s (s.flush platform) := by
  refine (watchActive_elsewhere platform s).trans ?_
  unfold Workspace.flush
  obtain ⟨orders, ⟨heq, -⟩ | ⟨heq, -⟩⟩ := watchTabs_cases platform (s.watchActive platform)
  · rw [heq]
    exact ⟨rfl, fun _ _ => rfl, fun _ _ => rfl⟩
  · rw [heq]
    have hpersist : Elsewhere (s.watchActive platform) (Workspace.persist
        { s.watchActive platform with
          mru := pruneTabIds (s.watchActive platform).mru ((s.watchActive platform).tabs platform) }) :=
      elsewhere_persist rfl rfl rfl
    exact ⟨rfl, hpersist.memory, hpersist.localStorage⟩

variable (platform) in
theorem watchActive_sessions (s : Workspace F) :
    (s.watchActive platform).sessions = s.sessions := by
  rcases watchActive_cases platform s with heq | ⟨id, -, heq⟩
  · rw [heq]
  · rw [heq]
    rfl

variable (platform) in
theorem watchActive_kept (s : Workspace F) : Kept some s.live (s.watchActive platform).live := by
  rcases watchActive_cases platform s with heq | ⟨id, -, heq⟩
  · rw [heq]
    exact Kept.refl _
  · rw [heq]
    refine ⟨fun tab htab _ => htab, fun other hother other' hsame => ?_⟩
    exact Option.some.inj hsame ▸ mem_pushMru.mpr (.inl hother)

variable (platform) in
theorem flush_sessions (s : Workspace F) : (s.flush platform).sessions = s.sessions := by
  refine Eq.trans ?_ (watchActive_sessions platform s)
  obtain ⟨orders, ⟨heq, -⟩ | ⟨heq, -⟩⟩ := watchTabs_cases platform (s.watchActive platform)
  · exact (congrArg Workspace.sessions heq).trans rfl
  · exact (congrArg Workspace.sessions heq).trans rfl

theorem flush_kept (h : s.sessions = []) : Kept some s.live (s.flush platform).live := by
  have hflush : s.flush platform = s.watchActive platform := by
    unfold Workspace.flush Workspace.watchTabs
    rw [if_pos ((watchActive_sessions platform s).trans h)]
  rw [hflush]
  exact watchActive_kept platform s

/-- What one folder's operation keeps of its live fields, it keeps of every record. -/
theorem unpruned_of {s t : Workspace F} (h : Inv platform s)
    (ht : Inv platform t) (helsewhere : Elsewhere s t) (hkept : Kept carries s.live t.live) :
    Unpruned carries s t := by
  intro folder before hbefore
  by_cases heq : folder = s.folder
  · subst heq
    obtain rfl : s.live = before := by simpa [Workspace.record, h.stored] using hbefore
    refine ⟨t.live, ?_, by simpa using hkept⟩
    rw [← helsewhere.folder]
    simp [Workspace.record, ht.stored]
  · refine ⟨before, ?_, by simpa [heq] using Kept.refl before⟩
    simpa [Workspace.record, helsewhere.memory folder heq, helsewhere.localStorage folder heq]
      using hbefore

theorem unpruned_flush {s t : Workspace F} (h : Inv platform s)
    (ht : Inv platform (t.flush platform)) (hempty : (t.flush platform).sessions = [])
    (helsewhere : Elsewhere s t) (hkept : Kept carries s.live t.live) :
    Unpruned carries s (t.flush platform) :=
  unpruned_of h ht (helsewhere.trans (flush_elsewhere platform t))
    (hkept.trans (flush_kept ((flush_sessions platform t).symm.trans hempty)))

theorem closeFilesTab_unpruned (h : Inv platform s) {id : Text}
    (hempty : (s.closeFilesTab platform id).sessions = []) :
    Unpruned (Action.carries (.closeFilesTab id : Action F)) s (s.closeFilesTab platform id) := by
  refine unpruned_flush h (closeFilesTab_inv h id) hempty ?_ ?_
  · have hselect : Elsewhere s (s.selectAfterClose platform id) := elsewhere_persist rfl rfl rfl
    exact hselect.trans (elsewhere_persist rfl rfl rfl)
  · constructor
    · intro tab htab hcarried
      have hne : tab.id ≠ id := by
        rintro rfl
        exact hcarried (by simp [Action.carries])
      exact List.mem_filter.mpr ⟨htab, by simpa using hne⟩
    · intro other hother other' hcarried
      by_cases heq : other = id
      · simp [Action.carries, heq] at hcarried
      · obtain rfl : other = other' := by simpa [Action.carries, heq] using hcarried
        exact List.mem_filter.mpr ⟨hother, by simpa using heq⟩

theorem goToTab_unpruned (h : Inv platform s) (index : Nat) :
    Unpruned some s (s.goToTab platform index) := by
  have hinv := goToTab_inv h index
  unfold Workspace.goToTab at hinv ⊢
  cases hat : (s.tabs platform)[index]? with
  | none => exact unpruned_of h h ⟨rfl, fun _ _ => rfl, fun _ _ => rfl⟩ (Kept.refl _)
  | some tab =>
    simp only [hat] at hinv ⊢
    by_cases hfront : some tab.id = s.activeTab platform
    · rw [if_pos hfront]
      exact unpruned_of h h ⟨rfl, fun _ _ => rfl, fun _ _ => rfl⟩ (Kept.refl _)
    · rw [if_neg hfront] at hinv ⊢
      have hselected : Elsewhere s (Workspace.persist { s with selected := some tab.id }) :=
        elsewhere_persist rfl rfl rfl
      have hlists : Kept some s.live (Workspace.persist { s with selected := some tab.id }).live :=
        ⟨fun _ htab _ => htab, fun _ hid _ hsame => Option.some.inj hsame ▸ hid⟩
      exact unpruned_of h hinv (hselected.trans (watchActive_elsewhere platform _))
        (hlists.trans (watchActive_kept platform _))

theorem drop_unpruned (h : Inv platform s) {id : Text} {gap : Int}
    (hempty : (s.drop platform id gap).sessions = []) :
    Unpruned some s (s.drop platform id gap) := by
  have hinv := drop_inv h id gap
  unfold Workspace.drop at hinv hempty ⊢
  cases horder : reorderTabs (s.tabs platform) id gap with
  | none => exact unpruned_of h h ⟨rfl, fun _ _ => rfl, fun _ _ => rfl⟩ (Kept.refl _)
  | some order =>
    simp only [horder] at hinv hempty ⊢
    exact unpruned_flush h hinv hempty ⟨rfl, fun _ _ => rfl, fun _ _ => rfl⟩ (Kept.refl _)

theorem navigate_unpruned (h : Inv platform s) {folder : F} {routedTab : Option Text}
    (hc : Careful platform s (.navigate folder routedTab barFirst))
    (hempty : (s.navigate platform folder routedTab barFirst).sessions = []) :
    Unpruned some s (s.navigate platform folder routedTab barFirst) := by
  have hinv := navigate_inv h hc
  unfold Workspace.navigate at hinv hempty ⊢
  by_cases hother : folder = s.folder
  · rw [if_pos hother]
    exact unpruned_of h h ⟨rfl, fun _ _ => rfl, fun _ _ => rfl⟩ (Kept.refl _)
  rw [if_neg hother] at hinv hempty ⊢
  obtain ⟨active, orders, heq⟩ := depart_quiet (hc.resolve_left hother).1
  dsimp only at hinv hempty ⊢
  rw [heq] at hinv hempty ⊢
  -- The other folders' records are untouched, that of `folder` is the one which is loaded.
  have helsewhere : Elsewhere (s.turn folder) (Workspace.flush platform
      (Workspace.loadFolderState platform { s.turn folder with
        seenActive := active, tabOrders := orders } routedTab)) := by
    rw [loadFolderState_eq]
    refine Elsewhere.trans ?_ (flush_elsewhere platform _)
    exact elsewhere_persist rfl rfl rfl
  have hkept : Kept some (s.turn folder).remembered (Workspace.flush platform
      (Workspace.loadFolderState platform { s.turn folder with
        seenActive := active, tabOrders := orders } routedTab)).live := by
    refine Kept.trans ?_ (flush_kept ((flush_sessions platform _).symm.trans hempty))
    rw [loadFolderState_eq]
    refine ⟨fun _ htab _ => htab, fun id hid id' hsame => ?_⟩
    cases hsame
    unfold Workspace.live Workspace.landed
    dsimp only [Workspace.persist]
    split
    · exact hid
    · exact mem_pushMru.mpr (.inl hid)
  generalize Workspace.flush platform (Workspace.loadFolderState platform _ routedTab) = t
    at hinv helsewhere hkept ⊢
  intro other before hbefore
  rw [ite_self]
  by_cases hsame : other = folder
  · subst hsame
    have hremembered : (s.turn other).remembered = before := by
      unfold Workspace.remembered
      exact congrArg (·.getD {}) hbefore
    refine ⟨t.live, ?_, hremembered ▸ hkept⟩
    have hstored := hinv.stored
    rw [helsewhere.folder] at hstored
    exact Option.or_eq_some_iff.mpr (.inl hstored)
  · refine ⟨before, ?_, Kept.refl before⟩
    unfold Workspace.record
    rw [helsewhere.memory other hsame, helsewhere.localStorage other hsame]
    exact hbefore

theorem step_unpruned (h : Inv platform s) {a : Action F}
    (hc : Careful platform s a) (hempty : (s.step platform a).sessions = []) :
    Unpruned a.carries s (s.step platform a) := by
  have hinv := inv_step h hc
  cases a with
  | addFilesTab id path =>
    exact unpruned_flush h hinv hempty (elsewhere_persist rfl rfl rfl)
      ⟨fun tab htab _ => List.mem_append_left _ htab,
        fun other hother _ hsame => Option.some.inj hsame ▸ hother⟩
  | closeFilesTab id => exact closeFilesTab_unpruned h hempty
  | goToTab index => exact goToTab_unpruned h index
  | drop id gap => exact drop_unpruned h hempty
  | adoptRenamedSession askedIn old new workspace =>
    exact unpruned_flush h hinv hempty (elsewhere_persist rfl rfl rfl)
      ⟨fun tab htab _ => htab,
        fun other hother _ hsame => List.mem_map.mpr ⟨other, hother, Option.some.inj hsame⟩⟩
  | refresh sessions =>
    exact unpruned_flush h hinv hempty ⟨rfl, fun _ _ => rfl, fun _ _ => rfl⟩ (Kept.refl _)
  | navigate folder routedTab barFirst => exact navigate_unpruned h hc hempty

/-! ## 4. Every run -/

variable (platform) in
/-- In every state of a careful run the records are their folders' own, a folder that is come back
to is as it was left, and without a session list nothing leaves a record. -/
theorem folder_keeps_its_tabs (s : Workspace F) (hs : Fresh platform s) (routedTab : Option Text)
    (hrouted : ∀ id ∈ routedTab, s.Owns platform s.folder id) (actions : List (Action F))
    (hc : CarefulFrom platform (s.mount platform routedTab) actions) :
    OwnRecords platform ((s.mount platform routedTab).run platform actions) ∧
      (∀ folder tab barFirst record,
        Careful platform ((s.mount platform routedTab).run platform actions)
          (.navigate folder tab barFirst) →
        folder ≠ ((s.mount platform routedTab).run platform actions).folder →
        ((s.mount platform routedTab).run platform actions).left folder = some record →
        Restored platform ((s.mount platform routedTab).run platform actions) folder tab barFirst
          record) ∧
      ∀ a, Careful platform ((s.mount platform routedTab).run platform actions) a →
        (((s.mount platform routedTab).run platform actions).step platform a).sessions = [] →
        Unpruned a.carries ((s.mount platform routedTab).run platform actions)
          (((s.mount platform routedTab).run platform actions).step platform a) := by
  have h := inv_run (mount_inv hs hrouted) hc
  exact ⟨h.records, fun _ _ _ _ hnext hother hleft => restored h hnext hother hleft,
    fun a hnext hempty => step_unpruned h hnext hempty⟩

/-- The rows of a folder are those whose path it is. -/
def byPath : Platform Text where
  rowsOf folder rows := rows.filter fun row => row.rest.path = some folder
  localeCompare _ _ := 0

def sessionIn (folder name : Text) : Row :=
  { name, workspace := some folder, rest := { path := some folder } }

def created : Workspace Text := { folder := ascii "app" }

/-- A session in each of two folders, and a Files tab in the first. -/
def acrossTo (folder : Text) : List (Action Text) :=
  [.refresh [sessionIn (ascii "app") (ascii "main"), sessionIn (ascii "doc") (ascii "other")],
    .addFilesTab (ascii "files") none, .goToTab 0, .navigate folder none false]

theorem created_fresh : Fresh byPath created where
  live := rfl
  memory := rfl
  left := rfl
  listed := by simp [created]
  localStorage := by simp [created]

theorem folder_keeps_its_tabs_across :
    Restored byPath ((created.mount byPath none).run byPath (acrossTo (ascii "doc"))) (ascii "app")
      none false ⟨[⟨ascii "files", none⟩], some (ascii "main"), [ascii "files", ascii "main"]⟩ := by
  refine (folder_keeps_its_tabs byPath created created_fresh none (by simp)
    (acrossTo (ascii "doc")) ?_).2.1 _ _ _ _ ?_ ?_ ?_
  · exact ⟨trivial, trivial, trivial, .inr ⟨by simp, by simp⟩, trivial⟩
  · exact .inr ⟨by simp, by simp⟩
  · decide +kernel
  · decide +kernel

/-- Both folders have a session `main`, each in a workspace of its own. That of `app` is renamed, and
the host answers when `doc` is shown. -/
def renamedAcross (barFirst : Bool) : List (Action Text) :=
  [.refresh [sessionIn (ascii "app") (ascii "main"), sessionIn (ascii "doc") (ascii "main")],
    .navigate (ascii "doc") (some (ascii "main")) barFirst,
    .adoptRenamedSession (ascii "app") (ascii "main") (ascii "fix") (some (ascii "app"))]

/-- The selection of `doc` follows the name that the session of `app` was given. -/
theorem renamed_foreign {s : Workspace Text}
    (hrun : (created.mount byPath none).run byPath (renamedAcross barFirst) = s)
    (hrecord : s.memory (ascii "doc") = some ⟨[], some (ascii "fix"), []⟩)
    (howns : ¬ s.Owns byPath (ascii "doc") (ascii "fix")) :
    ¬ OwnRecords byPath ((created.mount byPath none).run byPath (renamedAcross barFirst)) := by
  subst hrun
  exact fun h => howns ((h.memory (ascii "doc") _ hrecord).activeTab (ascii "fix") rfl)

theorem folder_takes_tabs :
    ¬ OwnRecords byPath ((created.mount byPath none).run byPath (renamedAcross true)) ∧
      ¬ OwnRecords byPath ((created.mount byPath none).run byPath (renamedAcross false)) := by
  refine ⟨renamed_foreign rfl ?_ ?_, renamed_foreign rfl ?_ ?_⟩
  · decide +kernel
  · unfold Workspace.Owns
    decide +kernel
  · decide +kernel
  · unfold Workspace.Owns
    decide +kernel

end PocketShell.SessionTabs.Memory
