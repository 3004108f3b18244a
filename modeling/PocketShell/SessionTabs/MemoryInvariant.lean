import PocketShell.SessionTabs.Memory

/-!
# The records of the folders stay their own

Every operation ends with `persist` and the watchers, and both keep `Inv` when the live fields are
the folder's own. A navigation is careful when the watchers, if they run before the folder's record
is loaded, persist nothing (`Quiet`).
-/

namespace PocketShell.SessionTabs.Memory

open Js (Text)
open Bar

/-! ## 1. Ids on the bar -/

section Bar

variable {F : Type} {platform : Platform F} {s : Workspace F}

theorem mem_applyTabOrder {tabs : List Tab} {order : List Text} {tab : Tab}
    (h : ∀ tab ∈ tabs, tab.kind ≠ .tool) : tab ∈ applyTabOrder tabs order ↔ tab ∈ tabs := by
  unfold applyTabOrder
  split
  · rfl
  · simp only [List.mem_append, List.mem_mergeSort, List.mem_filter, decide_eq_true_eq]
    constructor
    · rintro (⟨hmem, -⟩ | ⟨hmem, -⟩) <;> exact hmem
    · intro hmem
      cases hkind : tab.kind with
      | session => exact .inl ⟨hmem, rfl⟩
      | files => exact .inr ⟨hmem, rfl⟩
      | tool => exact absurd hkind (h tab hmem)

theorem mem_buildWorkspaceTabs {compare : Text → Text → Int} {rows : List Row}
    {files : List FilesTabRecord} {tab : Tab} : tab ∈ buildWorkspaceTabs compare rows files ↔
      (∃ row ∈ rows, ⟨.session, row.name⟩ = tab) ∨ ∃ record ∈ files, ⟨.files, record.id⟩ = tab := by
  simp [buildWorkspaceTabs]

/-- The id of a row of the folder, or of a Files tab. -/
def Workspace.OnBar (platform : Platform F) (s : Workspace F) (id : Text) : Prop :=
  id ∈ (platform.rowsOf s.folder s.sessions).map (·.name) ∨ id ∈ s.filesTabs.map (·.id)

instance : DecidablePred (s.OnBar platform) := fun _ => inferInstanceAs (Decidable (_ ∨ _))

variable {id : Text}

theorem onBar_iff : s.OnBar platform id ↔ ∃ tab ∈ s.tabs platform, tab.id = id := by
  have htabs : ∀ tab, tab ∈ s.tabs platform ↔
      (∃ row ∈ platform.rowsOf s.folder s.sessions, ⟨.session, row.name⟩ = tab) ∨
        ∃ files ∈ s.filesTabs, ⟨.files, files.id⟩ = tab := by
    intro tab
    refine (mem_applyTabOrder fun tab htab => ?_).trans mem_buildWorkspaceTabs
    rcases mem_buildWorkspaceTabs.mp htab with ⟨row, -, rfl⟩ | ⟨record, -, rfl⟩
    · simp
    · simp
  simp only [htabs, Workspace.OnBar, List.mem_map]
  constructor
  · rintro (⟨row, hrow, rfl⟩ | ⟨files, hfiles, rfl⟩)
    · exact ⟨_, .inl ⟨row, hrow, rfl⟩, rfl⟩
    · exact ⟨_, .inr ⟨files, hfiles, rfl⟩, rfl⟩
  · rintro ⟨tab, ⟨row, hrow, rfl⟩ | ⟨files, hfiles, rfl⟩, rfl⟩
    · exact .inl ⟨row, hrow, rfl⟩
    · exact .inr ⟨files, hfiles, rfl⟩

theorem activeTab_onBar (h : s.activeTab platform = some id) : s.OnBar platform id := by
  obtain ⟨tab, htab, rfl⟩ := Option.map_eq_some_iff.mp h
  refine onBar_iff.mpr ⟨tab, ?_, rfl⟩
  rcases Option.or_eq_some_iff.mp htab with hfound | ⟨-, hfirst⟩
  · exact List.mem_of_find?_eq_some hfound
  · exact List.mem_of_mem_head? hfirst

theorem mem_pruneTabIds {ids : List Text} :
    id ∈ pruneTabIds ids (s.tabs platform) ↔ id ∈ ids ∧ s.OnBar platform id := by
  simp [pruneTabIds, onBar_iff]

variable {mru : List Text}

theorem tabAfterClose_mem {tabs : List Tab} {closing : Text} {active : Option Text}
    (h : tabAfterClose tabs closing active mru = some id) :
    active = some id ∨ ∃ tab ∈ tabs, tab.id = id := by
  unfold tabAfterClose at h
  split at h
  · exact .inl h
  refine .inr ?_
  dsimp only at h
  have hremaining : ∀ tab ∈ tabs.filter (·.id ≠ closing), tab ∈ tabs :=
    fun tab htab => (List.mem_filter.mp htab).1
  split at h
  · rename_i other hother
    cases h
    have hany := List.find?_some hother
    obtain ⟨tab, htab, heq⟩ := List.any_eq_true.mp hany
    exact ⟨tab, hremaining tab htab, by simpa using heq⟩
  split at h
  · obtain ⟨tab, htab, rfl⟩ := Option.map_eq_some_iff.mp h
    exact ⟨tab, hremaining tab (List.mem_of_mem_head? htab), rfl⟩
  · obtain ⟨tab, htab, rfl⟩ := Option.map_eq_some_iff.mp h
    rcases Option.or_eq_some_iff.mp htab with hat | ⟨-, hlast⟩
    · exact ⟨tab, hremaining tab (List.mem_of_getElem? hat), rfl⟩
    · exact ⟨tab, hremaining tab (List.mem_of_getLast? hlast), rfl⟩

theorem mem_pushMru {id other : Text} : other ∈ pushMru mru id ↔ other ∈ mru ∨ other = id := by
  by_cases h : other = id <;> simp [pushMru, h]

/-- The tab on top stays where it is. -/
theorem pushMru_last (hlast : mru.getLast? = some id) (hnodup : mru.Nodup) : pushMru mru id = mru := by
  obtain ⟨rest, rfl⟩ := List.getLast?_eq_some_iff.mp hlast
  have hrest : ∀ other ∈ rest, other ≠ id := by
    intro other hother heq
    exact (List.nodup_append.mp hnodup).2.2 other hother id (by simp) heq
  have hfilter : (rest ++ [id]).filter (· ≠ id) = rest := by
    simpa [List.filter_append] using hrest
  rw [pushMru, hfilter]

end Bar

/-! ## 2. Ownership and careful runs -/

variable {F : Type} [DecidableEq F] (platform : Platform F)

/-- A tab of the folder: a Files tab that was opened in it, a session that some list had in it, or
the name that a rename asked for in it gave. -/
def Workspace.Owns (s : Workspace F) (folder : F) (id : Text) : Prop :=
  (folder, id) ∈ s.opened ∨ (folder, id) ∈ s.renamed ∨
    ∃ rows ∈ s.listings, ∃ row ∈ platform.rowsOf folder rows, row.name = id

structure Workspace.Own (s : Workspace F) (folder : F) (record : WorkspaceMemoryRecord) : Prop where
  filesTabs : ∀ tab ∈ record.filesTabs, (folder, tab.id) ∈ s.opened
  activeTab : ∀ id ∈ record.activeTab, s.Owns platform folder id
  mru : ∀ id ∈ record.mru, s.Owns platform folder id

structure OwnRecords (s : Workspace F) : Prop where
  memory : ∀ folder, ∀ record ∈ s.memory folder, s.Own platform folder record
  localStorage : ∀ folder, ∀ record ∈ s.localStorage folder, s.Own platform folder record

/-- The stack with the tab in front on top. -/
def Workspace.landed (s : Workspace F) : List Text :=
  match s.activeTab platform with
  | none => s.mru
  | some id => pushMru s.mru id

/-- No watcher of the bar persists. -/
def Quiet (s : Workspace F) : Prop :=
  (s.activeTab platform = none ∨ s.activeTab platform = s.seenActive ∨
      s.mru.getLast? = s.activeTab platform) ∧
    (s.sessions = [] ∨ ∀ id ∈ s.mru, s.OnBar platform id)

/-- A navigation persists nothing before the folder's record is loaded, and the tab that the route
names is one of the folder. A rename lands in the folder it was asked for in. -/
def Careful (s : Workspace F) : Action F → Prop
  | .navigate folder routedTab barFirst => folder = s.folder ∨
      ((barFirst = true → Quiet platform (s.turn folder)) ∧ ∀ id ∈ routedTab, s.Owns platform folder id)
  | .adoptRenamedSession askedIn _ _ _ => askedIn = s.folder
  | _ => True

def CarefulFrom (s : Workspace F) : List (Action F) → Prop
  | [] => True
  | a :: actions => Careful platform s a ∧ CarefulFrom (s.step platform a) actions

/-- An instance that is created, with the records of an earlier window. -/
structure Fresh (s : Workspace F) : Prop where
  live : s.live = {}
  memory : s.memory = fun _ => none
  left : s.left = fun _ => none
  listed : s.sessions ∈ s.listings
  localStorage : ∀ folder, ∀ record ∈ s.localStorage folder, s.Own platform folder record

/-! ## 3. The invariant -/

/-- What holds before the live fields are persisted. -/
structure Loose (s : Workspace F) : Prop where
  records : OwnRecords platform s
  live : s.Own platform s.folder s.live
  listed : s.sessions ∈ s.listings
  left : ∀ folder, folder ≠ s.folder → ∀ record ∈ s.left folder, s.memory folder = some record

structure Inv (s : Workspace F) : Prop extends Loose platform s where
  stored : s.memory s.folder = some s.live

/-- What is known of the folders' tabs only grows. -/
def Grown (s t : Workspace F) : Prop :=
  s.opened ⊆ t.opened ∧ s.renamed ⊆ t.renamed ∧ s.listings ⊆ t.listings

variable {s : Workspace F}

omit [DecidableEq F] in
theorem Grown.rfl : Grown s s :=
  ⟨List.Subset.refl _, List.Subset.refl _, List.Subset.refl _⟩

variable {platform}

variable {folder : F}

omit [DecidableEq F] in
theorem Workspace.Owns.mono {s t : Workspace F} {id : Text}
    (h : s.Owns platform folder id) (hgrown : Grown s t) : t.Owns platform folder id := by
  rcases h with h | h | ⟨rows, hrows, row⟩
  · exact .inl (hgrown.1 h)
  · exact .inr (.inl (hgrown.2.1 h))
  · exact .inr (.inr ⟨rows, hgrown.2.2 hrows, row⟩)

omit [DecidableEq F] in
theorem Workspace.Own.mono {s t : Workspace F} {record : WorkspaceMemoryRecord}
    (h : s.Own platform folder record) (hgrown : Grown s t) : t.Own platform folder record where
  filesTabs tab htab := hgrown.1 (h.filesTabs tab htab)
  activeTab id hid := (h.activeTab id hid).mono hgrown
  mru id hid := (h.mru id hid).mono hgrown

omit [DecidableEq F] in
theorem OwnRecords.mono {s t : Workspace F} (h : OwnRecords platform s) (hgrown : Grown s t)
    (hmemory : t.memory = s.memory) (hstorage : t.localStorage = s.localStorage) :
    OwnRecords platform t where
  memory folder record hrecord := (h.memory folder record (hmemory ▸ hrecord)).mono hgrown
  localStorage folder record hrecord :=
    (h.localStorage folder record (hstorage ▸ hrecord)).mono hgrown

omit [DecidableEq F] in
/-- The live fields and what is known of the bar may change, and no record. -/
theorem Loose.change {s t : Workspace F} (h : Loose platform s) (hgrown : Grown s t)
    (hfolder : t.folder = s.folder) (hmemory : t.memory = s.memory)
    (hstorage : t.localStorage = s.localStorage) (hleft : t.left = s.left)
    (hlisted : t.sessions ∈ t.listings) (hlive : t.Own platform s.folder t.live) :
    Loose platform t where
  records := h.records.mono hgrown hmemory hstorage
  live := hfolder ▸ hlive
  listed := hlisted
  left := by rw [hfolder, hmemory, hleft]; exact h.left

/-- The record of the folder becomes what the live fields are. -/
theorem update_own {s t : Workspace F} {records : F → Option WorkspaceMemoryRecord}
    (h : ∀ folder, ∀ record ∈ records folder, s.Own platform folder record)
    (hlive : s.Own platform s.folder s.live) (hgrown : Grown s t) :
    ∀ folder, ∀ record ∈ Function.update records s.folder (some s.live) folder,
      t.Own platform folder record := by
  intro folder record hrecord
  by_cases heq : folder = s.folder
  · subst heq
    obtain rfl : s.live = record := by simpa using hrecord
    exact hlive.mono hgrown
  · exact (h folder record (by simpa [heq] using hrecord)).mono hgrown

theorem persist_inv (h : Loose platform s) : Inv platform s.persist where
  records := {
    memory := update_own h.records.memory h.live Grown.rfl
    localStorage := update_own h.records.localStorage h.live Grown.rfl }
  live := h.live.mono Grown.rfl
  listed := h.listed
  left := by
    intro folder hne record hrecord
    have hmemory := h.left folder hne record hrecord
    simpa [Workspace.persist, show folder ≠ s.folder from hne] using hmemory
  stored := by simp [Workspace.persist, Workspace.live]

omit [DecidableEq F] in
/-- An id on the bar is a tab of the folder. -/
theorem Loose.owns (h : Loose platform s) {id : Text}
    (hid : s.OnBar platform id) : s.Owns platform s.folder id := by
  rcases hid with hid | hid
  · obtain ⟨row, hrow, rfl⟩ := List.mem_map.mp hid
    exact .inr (.inr ⟨s.sessions, h.listed, row, hrow, rfl⟩)
  · obtain ⟨tab, htab, rfl⟩ := List.mem_map.mp hid
    exact .inl (h.live.filesTabs tab htab)

/-- Ids of the folder on the stack, and no other field. -/
theorem stack_inv (h : Loose platform s) {mru : List Text} {active : Option Text}
    (hmru : ∀ id ∈ mru, s.Owns platform s.folder id) :
    Inv platform (Workspace.persist { s with seenActive := active, mru }) :=
  persist_inv (h.change Grown.rfl rfl rfl rfl rfl h.listed {
    filesTabs := h.live.filesTabs
    activeTab := fun id hid => (h.live.activeTab id hid).mono Grown.rfl
    mru := fun id hid => (hmru id hid).mono Grown.rfl })

omit [DecidableEq F] in
theorem pushed_own (h : Loose platform s) {id : Text}
    (hid : s.activeTab platform = some id) :
    ∀ other ∈ pushMru s.mru id, s.Owns platform s.folder other := by
  intro other hother
  rcases mem_pushMru.mp hother with hmem | rfl
  · exact h.live.mru other hmem
  · exact h.owns (activeTab_onBar hid)

variable (platform) in
/-- The watcher of the tab in front notes it, or puts it on top of the stack and persists. -/
theorem watchActive_cases (s : Workspace F) :
    s.watchActive platform = { s with seenActive := s.activeTab platform } ∨
      ∃ id, s.activeTab platform = some id ∧ s.watchActive platform =
        Workspace.persist { s with seenActive := s.activeTab platform, mru := pushMru s.mru id } := by
  unfold Workspace.watchActive
  dsimp only
  split
  · exact .inl rfl
  split
  · exact .inl rfl
  split
  · exact .inl rfl
  · rename_i id hactive _ _
    exact .inr ⟨id, hactive, rfl⟩

theorem watchActive_still
    (h : s.activeTab platform = none ∨ s.activeTab platform = s.seenActive ∨
      s.mru.getLast? = s.activeTab platform) :
    s.watchActive platform = { s with seenActive := s.activeTab platform } := by
  unfold Workspace.watchActive
  dsimp only
  split
  · rfl
  · rename_i id hactive
    rw [hactive] at h
    split
    · rfl
    · rw [if_pos (by simp_all)]

variable (platform) in
/-- The watcher of the bar leaves the records, or persists a pruned stack. -/
theorem watchTabs_cases (s : Workspace F) : ∃ orders,
    (s.watchTabs platform = { s with tabOrders := orders } ∧
      (s.sessions = [] ∨ pruneTabIds s.mru (s.tabs platform) = s.mru)) ∨
    (s.watchTabs platform = { Workspace.persist
        { s with mru := pruneTabIds s.mru (s.tabs platform) } with tabOrders := orders } ∧
      s.sessions ≠ [] ∧ pruneTabIds s.mru (s.tabs platform) ≠ s.mru) := by
  unfold Workspace.watchTabs
  split
  · rename_i hempty
    exact ⟨s.tabOrders, .inl ⟨rfl, .inl hempty⟩⟩
  rename_i hsome
  unfold Workspace.pruneAgainst
  dsimp only
  split
  · rename_i hlength
    have hpruned : pruneTabIds s.mru (s.tabs platform) ≠ s.mru :=
      fun heq => hlength (congrArg List.length heq)
    split
    · exact ⟨_, .inr ⟨rfl, hsome, hpruned⟩⟩
    · exact ⟨s.tabOrders, .inr ⟨rfl, hsome, hpruned⟩⟩
  · rename_i hlength
    have hsame : pruneTabIds s.mru (s.tabs platform) = s.mru :=
      List.filter_sublist.eq_of_length (not_not.mp hlength)
    split
    · exact ⟨_, .inl ⟨rfl, .inr hsame⟩⟩
    · exact ⟨s.tabOrders, .inl ⟨rfl, .inr hsame⟩⟩

theorem watchActive_inv (h : Inv platform s) :
    Inv platform (s.watchActive platform) := by
  rcases watchActive_cases platform s with heq | ⟨id, hactive, heq⟩
  · rw [heq]
    exact { toLoose := h.toLoose.change Grown.rfl rfl rfl rfl rfl h.listed (h.live.mono Grown.rfl)
            stored := h.stored }
  · rw [heq]
    exact stack_inv h.toLoose (pushed_own h.toLoose hactive)

theorem watchTabs_inv (h : Inv platform s) :
    Inv platform (s.watchTabs platform) := by
  obtain ⟨orders, ⟨heq, -⟩ | ⟨heq, -⟩⟩ := watchTabs_cases platform s
  · rw [heq]
    exact { toLoose := h.toLoose.change Grown.rfl rfl rfl rfl rfl h.listed (h.live.mono Grown.rfl)
            stored := h.stored }
  · have hpruned : Inv platform
        (Workspace.persist { s with mru := pruneTabIds s.mru (s.tabs platform) }) :=
      stack_inv h.toLoose fun id hid => h.live.mru id (mem_pruneTabIds.mp hid).1
    rw [heq]
    exact { toLoose := hpruned.toLoose.change Grown.rfl rfl rfl rfl rfl h.listed (hpruned.live.mono Grown.rfl)
            stored := hpruned.stored }

theorem flush_inv (h : Inv platform s) : Inv platform (s.flush platform) :=
  watchTabs_inv (watchActive_inv h)

/-! ## 4. The operations keep the invariant -/

theorem flush_persist_inv {s t : Workspace F} (h : Inv platform s) (hgrown : Grown s t)
    (hfolder : t.folder = s.folder) (hmemory : t.memory = s.memory)
    (hstorage : t.localStorage = s.localStorage) (hleft : t.left = s.left)
    (hlisted : t.sessions ∈ t.listings) (hlive : t.Own platform s.folder t.live) :
    Inv platform (t.persist.flush platform) :=
  flush_inv (persist_inv (h.toLoose.change hgrown hfolder hmemory hstorage hleft hlisted hlive))

theorem addFilesTab_inv (h : Inv platform s) (id : Text) (path : Option Text) :
    Inv platform (s.addFilesTab platform id path) := by
  have hgrown : Grown s { s with
      filesTabs := s.filesTabs ++ [⟨id, path⟩]
      selected := some id
      opened := (s.folder, id) :: s.opened } :=
    ⟨List.subset_cons_self _ _, List.Subset.refl _, List.Subset.refl _⟩
  refine flush_persist_inv h hgrown rfl rfl rfl rfl h.listed ?_
  refine ⟨?_, ?_, fun other hother => (h.live.mru other hother).mono hgrown⟩
  · intro tab htab
    rcases List.mem_append.mp htab with hold | hnew
    · exact hgrown.1 (h.live.filesTabs tab hold)
    · obtain rfl := List.mem_singleton.mp hnew
      exact List.mem_cons_self
  · intro other hother
    obtain rfl : id = other := by simpa [Workspace.live] using hother
    exact .inl List.mem_cons_self

theorem selectAfterClose_inv (h : Inv platform s) (id : Text) :
    Inv platform (s.selectAfterClose platform id) := by
  refine persist_inv (h.toLoose.change Grown.rfl rfl rfl rfl rfl h.listed ?_)
  refine ⟨h.live.filesTabs, ?_, ?_⟩
  · intro next hnext
    have hbar : s.OnBar platform next := by
      rcases tabAfterClose_mem hnext with hactive | htab
      · exact activeTab_onBar hactive
      · exact onBar_iff.mpr htab
    exact (h.toLoose.owns hbar).mono Grown.rfl
  · intro other hother
    exact (h.live.mru other (List.mem_filter.mp hother).1).mono Grown.rfl

theorem closeFilesTab_inv (h : Inv platform s) (id : Text) :
    Inv platform (s.closeFilesTab platform id) := by
  have hselect := selectAfterClose_inv h id
  refine flush_persist_inv hselect Grown.rfl rfl rfl rfl rfl hselect.listed ?_
  exact ⟨fun tab htab => hselect.live.filesTabs tab (List.mem_filter.mp htab).1,
    hselect.live.activeTab, hselect.live.mru⟩

theorem goToTab_inv (h : Inv platform s) (index : Nat) :
    Inv platform (s.goToTab platform index) := by
  unfold Workspace.goToTab
  split
  · exact h
  rename_i tab htab
  split
  · exact h
  refine watchActive_inv (persist_inv (h.toLoose.change Grown.rfl rfl rfl rfl rfl h.listed ?_))
  refine ⟨h.live.filesTabs, ?_, fun other hother => (h.live.mru other hother).mono Grown.rfl⟩
  intro other hother
  obtain rfl : tab.id = other := by simpa [Workspace.live] using hother
  exact (h.toLoose.owns (onBar_iff.mpr ⟨tab, List.mem_of_getElem? htab, rfl⟩)).mono Grown.rfl

theorem drop_inv (h : Inv platform s) (id : Text) (gap : Int) :
    Inv platform (s.drop platform id gap) := by
  unfold Workspace.drop
  split
  · exact h
  · exact flush_inv { toLoose := h.toLoose.change Grown.rfl rfl rfl rfl rfl h.listed (h.live.mono Grown.rfl)
                      stored := h.stored }

theorem adoptRenamedSession_inv (h : Inv platform s) {askedIn : F}
    (hc : askedIn = s.folder) (old new : Text) (workspace : Option Text) :
    Inv platform (s.adoptRenamedSession platform askedIn old new workspace) := by
  subst hc
  unfold Workspace.adoptRenamedSession
  dsimp only
  refine flush_persist_inv h ?hgrown rfl rfl rfl rfl List.mem_cons_self ?_
  case hgrown =>
    exact ⟨List.Subset.refl _, List.subset_cons_self _ _, List.subset_cons_self _ _⟩
  -- An id of the folder is another id of the folder, renamed or not.
  have hrename : ∀ id, s.Owns platform s.folder id → ∀ t : Workspace F, Grown s t →
      (s.folder, new) ∈ t.renamed → t.Owns platform s.folder (if id = old then new else id) := by
    intro id hid t hgrown hnew
    split
    · exact .inr (.inl hnew)
    · exact hid.mono hgrown
  refine ⟨h.live.filesTabs, ?_, ?_⟩
  · intro id hid
    obtain ⟨before, hbefore, rfl⟩ := Option.map_eq_some_iff.mp hid
    exact hrename before (h.live.activeTab before hbefore) _
      ⟨List.Subset.refl _, List.subset_cons_self _ _, List.subset_cons_self _ _⟩
      List.mem_cons_self
  · intro id hid
    obtain ⟨before, hbefore, rfl⟩ := List.mem_map.mp hid
    exact hrename before (h.live.mru before hbefore) _
      ⟨List.Subset.refl _, List.subset_cons_self _ _, List.subset_cons_self _ _⟩
      List.mem_cons_self

theorem refresh_inv (h : Inv platform s) (sessions : List Row) :
    Inv platform (s.refresh platform sessions) := by
  have hgrown : Grown s { s with sessions, listings := sessions :: s.listings } :=
    ⟨List.Subset.refl _, List.Subset.refl _, List.subset_cons_self _ _⟩
  exact flush_inv {
    toLoose := h.toLoose.change hgrown rfl rfl rfl rfl List.mem_cons_self (h.live.mono hgrown)
    stored := h.stored }

omit [DecidableEq F] in
/-- The stack with the tab in front on top is made of ids of the folder. -/
theorem landed_own (h : Loose platform s) :
    ∀ id ∈ s.landed platform, s.Owns platform s.folder id := by
  unfold Workspace.landed
  split
  · exact h.live.mru
  · rename_i active hactive
    exact pushed_own h hactive

theorem loadFolderState_eq (s : Workspace F) (routedTab : Option Text) :
    s.loadFolderState platform routedTab =
      Workspace.persist { s.load routedTab with mru := (s.load routedTab).landed platform } := by
  unfold Workspace.loadFolderState Workspace.landed
  cases hactive : (s.load routedTab).activeTab platform with
  | none => simp only [hactive]
  | some active => simp only [hactive]

variable {routedTab : Option Text}

/-- Loading reads no live field. -/
theorem loadFolderState_inv
    (hrecords : OwnRecords platform s) (hlisted : s.sessions ∈ s.listings)
    (hleft : ∀ folder, folder ≠ s.folder → ∀ record ∈ s.left folder,
      s.memory folder = some record)
    (hrouted : ∀ id ∈ routedTab, s.Owns platform s.folder id) :
    Inv platform (s.loadFolderState platform routedTab) := by
  have hremembered : s.Own platform s.folder s.remembered := by
    unfold Workspace.remembered
    cases hfound : (s.memory s.folder).or (s.localStorage s.folder) with
    | none => exact ⟨by simp, by simp, by simp⟩
    | some record =>
      rcases Option.or_eq_some_iff.mp hfound with hmemory | ⟨-, hstorage⟩
      · exact hrecords.memory _ _ hmemory
      · exact hrecords.localStorage _ _ hstorage
  have hloose : Loose platform (s.load routedTab) := {
    records := hrecords.mono Grown.rfl rfl rfl
    live := by
      refine ⟨hremembered.filesTabs, ?_, fun id hid => (hremembered.mru id hid).mono Grown.rfl⟩
      intro id hid
      rcases Option.or_eq_some_iff.mp hid with hid | ⟨-, hid⟩
      · exact (hrouted id hid).mono Grown.rfl
      · exact (hremembered.activeTab id hid).mono Grown.rfl
    listed := hlisted
    left := hleft }
  rw [loadFolderState_eq]
  exact stack_inv hloose (landed_own hloose)

/-- Nothing is persisted before the record of the folder is loaded. -/
theorem flush_quiet {s : Workspace F} (h : Quiet platform s) : ∃ orders,
    s.flush platform = { s with seenActive := s.activeTab platform, tabOrders := orders } := by
  unfold Workspace.flush
  rw [watchActive_still h.1]
  obtain ⟨orders, ⟨heq, -⟩ | ⟨-, hsome, hpruned⟩⟩ :=
    watchTabs_cases platform { s with seenActive := s.activeTab platform }
  · exact ⟨orders, heq⟩
  · refine absurd (List.filter_eq_self.mpr fun id hid => ?_) hpruned
    obtain ⟨tab, htab, rfl⟩ := onBar_iff.mp (h.2.resolve_left hsome id hid)
    exact List.any_eq_true.mpr ⟨tab, htab, by simp⟩

/-- Whichever watcher is first, a careful departure touches no record. -/
theorem depart_quiet {barFirst : Bool}
    (h : barFirst = true → Quiet platform (s.turn folder)) : ∃ active orders,
    s.depart platform folder barFirst =
      { s.turn folder with seenActive := active, tabOrders := orders } := by
  cases barFirst with
  | false => exact ⟨_, _, rfl⟩
  | true => exact ⟨_, flush_quiet (h rfl)⟩

theorem navigate_inv (h : Inv platform s) {barFirst : Bool}
    (hc : Careful platform s (.navigate folder routedTab barFirst)) :
    Inv platform (s.navigate platform folder routedTab barFirst) := by
  unfold Workspace.navigate
  split
  · exact h
  rename_i hother
  obtain ⟨hquiet, hrouted⟩ := hc.resolve_left hother
  obtain ⟨active, orders, heq⟩ := depart_quiet hquiet
  refine flush_inv ?_
  rw [heq]
  refine loadFolderState_inv (h.records.mono Grown.rfl rfl rfl) h.listed ?_
    fun id hid => (hrouted id hid).mono Grown.rfl
  intro left hleft record hrecord
  by_cases hold : left = s.folder
  · subst hold
    obtain rfl : s.live = record := by simpa [Workspace.turn] using hrecord
    exact h.stored
  · exact h.left left hold record (by simpa [Workspace.turn, hold] using hrecord)

theorem mount_inv (h : Fresh platform s)
    (hrouted : ∀ id ∈ routedTab, s.Owns platform s.folder id) :
    Inv platform (s.mount platform routedTab) := by
  have hmru : s.mru = [] := congrArg (·.mru) h.live
  unfold Workspace.mount
  refine flush_inv ?_
  obtain ⟨orders, ⟨heq, -⟩ | ⟨-, -, hpruned⟩⟩ :=
    watchTabs_cases platform { s with seenActive := s.activeTab platform }
  · rw [heq]
    refine loadFolderState_inv ?_ h.listed ?_ fun id hid => (hrouted id hid).mono Grown.rfl
    · exact OwnRecords.mono ⟨by simp [h.memory], h.localStorage⟩ Grown.rfl rfl rfl
    · simp [h.left]
  · exact absurd (by simp [hmru, pruneTabIds]) hpruned

theorem inv_step (h : Inv platform s) {a : Action F}
    (hc : Careful platform s a) : Inv platform (s.step platform a) := by
  cases a with
  | addFilesTab id path => exact addFilesTab_inv h id path
  | closeFilesTab id => exact closeFilesTab_inv h id
  | goToTab index => exact goToTab_inv h index
  | drop id gap => exact drop_inv h id gap
  | adoptRenamedSession askedIn old new workspace =>
    exact adoptRenamedSession_inv h hc old new workspace
  | refresh sessions => exact refresh_inv h sessions
  | navigate folder routedTab barFirst => exact navigate_inv h hc

theorem inv_run {s : Workspace F} (h : Inv platform s) : ∀ {actions : List (Action F)},
    CarefulFrom platform s actions → Inv platform (s.run platform actions) := by
  intro actions hc
  induction actions generalizing s with
  | nil => exact h
  | cons a actions ih => exact ih (inv_step h hc.1) hc.2

end PocketShell.SessionTabs.Memory
