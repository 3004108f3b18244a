import PocketShell.SessionTree.Panel

/-!
# What the panel draws

* `folderKeys_nodup`: no two rows of the tree have one key.
* `panel_complete`: every session of the list is drawn once, in a folder of its root, and the
  search hides the folders that it does not find.
* `panel_sorted`: in every run no arrangement overrules a picked sort.
* `row_drop_shown`, `root_drop_shown`: what is dropped is drawn where it was dropped.
-/

namespace PocketShell.SessionTree

open Js (Text LowerCase)
open Workspaces

variable {R : Type} {hostHome : Option Text}

/-! ## The keys of the rows -/

theorem homeRelative_homePrefix (below : Text) : homeRelative (homePrefix ++ below) hostHome = some below := by
  have hnot : ¬(homePrefix ++ below = home || homePrefix ++ below = Js.ascii "$HOME") = true := by
    simp [homePrefix, home, Js.ascii]
  unfold homeRelative
  rw [if_neg hnot, if_pos (List.isPrefixOf_iff_prefix.mpr (List.prefix_append _ _))]
  exact congrArg some (List.drop_left' rfl)

/-- A key tells where a path is below the home. -/
theorem homeRelative_of_key {path path' : Text} (hpath : path ≠ untrackedPath) (hpath' : path' ≠ untrackedPath)
    (h : directoryKey path hostHome = directoryKey path' hostHome) :
    homeRelative path hostHome = homeRelative path' hostHome := by
  have hnamed : ∀ relative : Text,
      homeRelative (if relative = [] then home else homePrefix ++ relative) hostHome = some relative := by
    intro relative
    split
    · next hnil => subst hnil; rfl
    · exact homeRelative_homePrefix relative
  unfold directoryKey at h
  rw [if_neg hpath, if_neg hpath'] at h
  cases hrelative : homeRelative path hostHome with
  | none =>
    cases hrelative' : homeRelative path' hostHome with
    | none => rfl
    | some relative' =>
      rw [hrelative, hrelative'] at h
      dsimp only at h
      rw [h, hnamed] at hrelative
      cases hrelative
  | some relative =>
    cases hrelative' : homeRelative path' hostHome with
    | none =>
      rw [hrelative, hrelative'] at h
      dsimp only at h
      rw [← h, hnamed] at hrelative'
      cases hrelative'
    | some relative' =>
      rw [hrelative, hrelative'] at h
      have hsame := hnamed relative
      dsimp only at h
      rw [h, hnamed] at hsame
      exact hsame.symm

/-- A key of a directory is not that of a session without one. -/
theorem directoryKey_ne_untracked {path : Text} (hnul : 0 ∉ path) (name : Text) :
    directoryKey path hostHome ≠ untrackedPath ++ 0 :: name := by
  intro h
  unfold directoryKey at h
  split at h
  · exact absurd (congrArg List.length h) (by simp)
  · split at h
    · exact hnul (h ▸ List.mem_append_right _ List.mem_cons_self)
    · split at h
      · exact absurd (congrArg List.head? h) (by simp [home, untrackedPath, Js.ascii])
      · exact absurd (congrArg List.head? h) (by simp [homePrefix, untrackedPath, Js.ascii])

section

variable {configured : List ResolvedRoot} {sessions : List (SessionSummary R)} {row row' : SessionTreeRow R}

/-- A row is tracked when its folder is known. -/
theorem untracked_iff (hrow : row ∈ buildRows sessions) :
    row.untracked = true ↔ row.folderPath = untrackedPath := by
  rw [mem_buildRows hrow]
  exact decide_eq_true_iff

theorem placeRow_of_key (htracked : row.folderPath ≠ untrackedPath) (htracked' : row'.folderPath ≠ untrackedPath)
    (h : directoryKey row.folderPath hostHome = directoryKey row'.folderPath hostHome) :
    (placeRow configured hostHome row).key = (placeRow configured hostHome row').key := by
  unfold placeRow rootForPath bestRootForPath
  rw [if_neg htracked, if_neg htracked', if_neg htracked, if_neg htracked', h,
    homeRelative_of_key htracked htracked' h]

/-- Rows of one folder are of one root. -/
theorem rootKey_of_groupKey (hpaths : ∀ session ∈ sessions, (0 : UInt16) ∉ groupingPath session)
    (hrow : row ∈ buildRows sessions) (hrow' : row' ∈ buildRows sessions)
    (h : groupKey hostHome row = groupKey hostHome row') :
    rootKey configured hostHome (buildRows sessions) row =
      rootKey configured hostHome (buildRows sessions) row' := by
  have hnul : ∀ {row : SessionTreeRow R}, row ∈ buildRows sessions → 0 ∉ row.folderPath := by
    intro row hrow
    obtain ⟨session, hsession, rfl⟩ := List.mem_map.mp hrow
    exact hpaths session hsession
  unfold groupKey directoryPath at h
  unfold rootKey placement
  cases huntracked : row.untracked with
  | true =>
    cases huntracked' : row'.untracked with
    | true =>
      -- both have no folder, so the name alone tells their place
      rw [huntracked, huntracked', if_pos rfl, if_pos rfl] at h
      have hname : row.session.name = row'.session.name := (List.cons.inj (List.append_cancel_left h)).2
      have hplace : placeRow configured hostHome row = placeRow configured hostHome row' := by
        unfold placeRow
        rw [(untracked_iff hrow).mp huntracked, (untracked_iff hrow').mp huntracked']
      rw [hname, hplace]
    | false =>
      rw [huntracked, huntracked', if_pos rfl, if_neg Bool.false_ne_true, if_neg Bool.false_ne_true] at h
      exact absurd h.symm (directoryKey_ne_untracked (hnul hrow') _)
  | false =>
    have htracked : row.folderPath ≠ untrackedPath := fun hpath => by
      rw [(untracked_iff hrow).mpr hpath] at huntracked
      cases huntracked
    cases huntracked' : row'.untracked with
    | true =>
      rw [huntracked, huntracked', if_pos rfl, if_neg Bool.false_ne_true, if_neg Bool.false_ne_true] at h
      exact absurd h (directoryKey_ne_untracked (hnul hrow) _)
    | false =>
      have htracked' : row'.folderPath ≠ untrackedPath := fun hpath => by
        rw [(untracked_iff hrow').mpr hpath] at huntracked'
        cases huntracked'
      rw [huntracked, huntracked'] at h
      simp only [Bool.false_eq_true, if_false] at h ⊢
      exact placeRow_of_key htracked htracked' h

end

/-- No two rows of the tree have one key. A path holds no NUL, which the keys of sessions
without a directory do. -/
theorem folderKeys_nodup {sessions : List (SessionSummary R)}
    (hpaths : ∀ session ∈ sessions, (0 : UInt16) ∉ groupingPath session) (roots : List Text) :
    (folderKeys (groupSessionsIntoRoots sessions hostHome roots)).Nodup := by
  have htree := groupSessionsIntoRoots_eq sessions hostHome roots
  dsimp only at htree
  rw [htree]
  generalize resolvedHome sessions hostHome = home
  have hn := nodup_resolveRoots roots home
  generalize resolveRoots roots home = configured at hn
  have hperm : ((foldersOf configured home (buildRows sessions)).filter (!·.other) ++
      (foldersOf configured home (buildRows sessions)).filter (·.other)).Perm
        (foldersOf configured home (buildRows sessions)) :=
    List.perm_append_comm.trans (List.filter_append_perm _ _)
  unfold folderKeys
  refine (hperm.flatMap_right _).nodup_iff.mpr (List.nodup_flatMap.mpr ⟨fun root hroot => ?_, ?_⟩)
  · obtain ⟨p, -, rfl⟩ := mem_foldersOf.mp hroot
    exact nodup_directories p.2
  · refine (List.pairwise_map.mp (nodup_foldersOf hn)).imp_of_mem fun {a b} ha hb hne => ?_
    -- a key in two roots is that of rows of both
    intro key hkey hkey'
    obtain ⟨dir, hdir, rfl⟩ := List.mem_map.mp hkey
    obtain ⟨dir', hdir', hsame⟩ := List.mem_map.mp hkey'
    obtain ⟨row, hrow⟩ := List.exists_mem_of_ne_nil _ (directory_rows hn ha hdir).2
    obtain ⟨row', hrow'⟩ := List.exists_mem_of_ne_nil _ (directory_rows hn hb hdir').2
    obtain ⟨hbuilt, hgroup, hroot⟩ := mem_directory_rows hn ha hdir hrow
    obtain ⟨hbuilt', hgroup', hroot'⟩ := mem_directory_rows hn hb hdir' hrow'
    have hone : rootKey configured home (buildRows sessions) row = rootKey configured home (buildRows sessions) row' :=
      rootKey_of_groupKey hpaths hbuilt hbuilt' (hgroup.trans (hsame.symm.trans hgroup'.symm))
    exact hne (hroot.symm.trans (hone.trans hroot'))

/-! ## The stages -/

section

variable {roots : List (SessionRootFolder R)}

/-- The order that a looked up one is applied as. -/
def Found.keys : Found → Option (List Text)
  | .order listed => some listed
  | .inherited length => if length = some 0 then some [] else none

theorem applyFound_eq (found : Found) : applyFound roots found = found.keys.map (applyFolderOrder roots) := by
  cases found with
  | order order => rfl
  | inherited length => by_cases h : length = some 0 <;> simp [applyFound, Found.keys, applyFolderOrder, h]

theorem applyRootFound_eq (found : Found) : applyRootFound roots found = found.keys.map (applyRootOrder roots) := by
  cases found with
  | order order => rfl
  | inherited length => by_cases h : length = some 0 <;> simp [applyRootFound, Found.keys, applyRootOrder, h]

/-- The roots apart from the bucket, and then the bucket. -/
def pinned (roots : List (SessionRootFolder R)) : List (SessionRootFolder R) :=
  roots.filter (!·.other) ++ roots.filter (·.other)

theorem pinned_perm : (pinned roots).Perm roots :=
  List.perm_append_comm.trans (List.filter_append_perm _ _)

theorem pinned_pinned : pinned (pinned roots) = pinned roots := by
  unfold pinned
  simp only [List.filter_append, List.filter_filter, Bool.not_and_self, Bool.and_not_self, Bool.and_self,
    List.filter_false, List.append_nil, List.nil_append]

theorem pinned_filter (p : SessionRootFolder R → Bool) : (pinned roots).filter p = pinned (roots.filter p) := by
  unfold pinned
  rw [List.filter_append, List.filter_filter, List.filter_filter, List.filter_filter, List.filter_filter]
  simp only [Bool.and_comm]

variable {arrange : SessionRootFolder R → List (SessionDirectory R)}

/-- What arranges the folders of roots leaves their bucket where it is. -/
theorem pinned_arranged : pinned (arranged arrange roots) = arranged arrange (pinned roots) := by
  unfold pinned arranged
  rw [List.filter_map, List.filter_map, List.map_append]
  rfl

theorem sortByRank_arranged (order : List Text) :
    Js.sortByRank (·.key) order (arranged arrange roots) = arranged arrange (Js.sortByRank (·.key) order roots) := by
  unfold Js.sortByRank arranged
  refine Eq.symm (List.map_mergeSort ?_)
  exact fun _ _ _ _ => rfl

theorem applyRootOrder_eq (h : pinned roots = roots) (order : List Text) :
    applyRootOrder roots order = pinned (Js.sortByRank (·.key) order roots) := by
  unfold applyRootOrder
  split
  · next hnil =>
    subst hnil
    rw [Js.sortByRank_nil, h]
  · rfl

/-- The folders of a root by the picked sort. -/
def sorted (collation : Collation) (key : FolderSortKey) (root : SessionRootFolder R) : List (SessionDirectory R) :=
  if key = .host then root.directories else root.directories.mergeSort (byKey collation key)

variable {collation : Collation} {key : FolderSortKey}

theorem byKey_trans (a b c : SessionDirectory R) : byKey collation key a b = true →
    byKey collation key b c = true → byKey collation key a c = true := by
  intro hab hbc
  cases key with
  | host => rfl
  | activity => exact decide_eq_true ((of_decide_eq_true hbc).trans (of_decide_eq_true hab))
  | name => exact collation.trans _ _ _ hab hbc
  | created => exact decide_eq_true ((of_decide_eq_true hab).trans (of_decide_eq_true hbc))

theorem byKey_total (a b : SessionDirectory R) : (byKey collation key a b || byKey collation key b a) = true := by
  cases key with
  | host => rfl
  | activity => simpa [byKey] using le_total b.mostRecentActivity a.mostRecentActivity
  | name => exact collation.total _ _
  | created => simpa [byKey] using le_total (folderCreatedAt a) (folderCreatedAt b)

theorem sorted_perm (root : SessionRootFolder R) : (sorted collation key root).Perm root.directories := by
  unfold sorted
  split
  · exact .refl _
  · exact List.mergeSort_perm _ _

theorem sorted_pairwise (root : SessionRootFolder R) :
    (sorted collation key root).Pairwise fun a b => byKey collation key a b = true := by
  unfold sorted
  split
  · next hhost => exact List.pairwise_of_forall fun _ _ => by rw [hhost]; rfl
  · exact List.pairwise_mergeSort byKey_trans byKey_total _

theorem applyFolderSort_eq (roots : List (SessionRootFolder R)) :
    applyFolderSort collation roots key = arranged (sorted collation key) roots := by
  unfold applyFolderSort arranged sorted
  split
  · next hhost =>
    exact (List.map_id roots).symm
  · rfl

end

/-! ## The search -/

section

variable {lower : LowerCase} {query : Text} {root : SessionRootFolder R} {roots : List (SessionRootFolder R)}

/-- Does a folder of a root stay under the search? -/
def keeps (lower : LowerCase) (query : Text) (root : SessionRootFolder R) (dir : SessionDirectory R) : Bool :=
  let needle := lower.toLowerCase (Js.trim query)
  needle = [] || hit lower needle root.key || hit lower needle root.label || foundBy lower needle dir

/-- Does a root stay under the search? -/
def stays (lower : LowerCase) (query : Text) (root : SessionRootFolder R) : Bool :=
  lower.toLowerCase (Js.trim query) = [] || 0 < root.directories.length

def survivors (lower : LowerCase) (query : Text) (root : SessionRootFolder R) : List (SessionDirectory R) :=
  root.directories.filter (keeps lower query root)

theorem arranged_self : arranged (fun root => root.directories) roots = roots := List.map_id roots

theorem filterFolderRoots_eq (roots : List (SessionRootFolder R)) :
    filterFolderRoots lower roots query = (arranged (survivors lower query) roots).filter (stays lower query) := by
  unfold filterFolderRoots
  dsimp only
  split
  · next hblank =>
    have hsurvivors : arranged (survivors lower query) roots = roots := by
      refine (arranged_congr.mpr fun root _ => ?_).trans arranged_self
      exact List.filter_eq_self.mpr fun _ _ => by simp [keeps, hblank]
    rw [hsurvivors]
    exact (List.filter_eq_self.mpr fun _ _ => by simp [stays, hblank]).symm
  · next hneedle =>
    have hsearched : roots.map (searched lower (lower.toLowerCase (Js.trim query))) =
        arranged (survivors lower query) roots := by
      refine List.map_congr_left fun root _ => ?_
      unfold searched survivors keeps
      split
      · next hroot =>
        have hall : (root.directories.filter fun dir =>
            decide (lower.toLowerCase (Js.trim query) = []) || hit lower (lower.toLowerCase (Js.trim query)) root.key ||
              hit lower (lower.toLowerCase (Js.trim query)) root.label ||
              foundBy lower (lower.toLowerCase (Js.trim query)) dir) = root.directories :=
          List.filter_eq_self.mpr fun _ _ => by simp only [Bool.or_assoc, Bool.or_eq_true] at hroot ⊢; tauto
        dsimp only
        rw [hall]
      · next hroot =>
        simp only [Bool.or_eq_true, not_or, Bool.not_eq_true] at hroot
        simp only [hneedle, hroot.1, hroot.2, decide_false, Bool.false_or]
    rw [hsearched]
    exact List.filter_congr fun _ _ => by simp [stays, hneedle]

/-- The search looks at the names of a root alone. -/
theorem survivors_arranged {arrange : SessionRootFolder R → List (SessionDirectory R)} :
    arranged (survivors lower query) (arranged arrange roots) =
      arranged (fun root => (arrange root).filter (keeps lower query root)) roots := by
  unfold arranged
  rw [List.map_map]
  rfl

end

/-! ## The whole panel -/

section

variable {collation : Collation} {lower : LowerCase} {s : Panel R} {order rootOrder : List Text}
  {roots : List (SessionRootFolder R)}

theorem pinned_tree (s : Panel R) : pinned s.tree = s.tree := by
  have htree := groupSessionsIntoRoots_eq s.sessions s.treeHome s.registered
  unfold Panel.tree
  rw [htree]
  exact pinned_pinned

/-- The folders of a root under the sort and under an order. -/
def ranked (collation : Collation) (key : FolderSortKey) (order : List Text) (root : SessionRootFolder R) :
    List (SessionDirectory R) :=
  Js.sortByRank (·.key) order (sorted collation key root)

theorem ranked_perm {key : FolderSortKey} (root : SessionRootFolder R) :
    (ranked collation key order root).Perm root.directories :=
  (Js.sortByRank_perm _).trans (sorted_perm root)

theorem applyFolderOrder_sorted {key : FolderSortKey} (roots : List (SessionRootFolder R)) :
    applyFolderOrder (applyFolderSort collation roots key) order = arranged (ranked collation key order) roots := by
  rw [applyFolderSort_eq, applyFolderOrder_eq]
  unfold arranged
  rw [List.map_map]
  rfl

/-- The tree under a sort, an order of its folders and one of its roots. -/
def whole (collation : Collation) (s : Panel R) (order rootOrder : List Text) : List (SessionRootFolder R) :=
  arranged (ranked collation s.sessionTreeSort order) (pinned (Js.sortByRank (·.key) rootOrder s.tree))

theorem arranged_eq : s.arranged collation =
    (folderOrderFor s.folderOrder s.host).keys.bind fun order =>
      (folderOrderFor s.rootOrder s.host).keys.map fun rootOrder => whole collation s order rootOrder := by
  unfold Panel.arranged
  rw [applyFound_eq, Option.bind_map]
  congr 1
  funext order
  rw [Function.comp_apply, applyRootFound_eq]
  congr 1
  funext rootOrder
  rw [applyFolderOrder_sorted, applyRootOrder_eq, sortByRank_arranged, pinned_arranged]
  · rfl
  · rw [pinned_arranged, pinned_tree]

/-- What is drawn has an order for its folders and one for its roots. -/
theorem drawn_some (h : s.drawn collation lower = some roots) : ∃ order rootOrder,
    (folderOrderFor s.folderOrder s.host).keys = some order ∧
      (folderOrderFor s.rootOrder s.host).keys = some rootOrder ∧
      s.arranged collation = some (whole collation s order rootOrder) ∧
      roots = filterFolderRoots lower (whole collation s order rootOrder) s.filterQuery := by
  unfold Panel.drawn at h
  obtain ⟨held, hheld, rfl⟩ := Option.map_eq_some_iff.mp h
  rw [arranged_eq] at hheld
  obtain ⟨order, horder, hheld⟩ := Option.bind_eq_some_iff.mp hheld
  obtain ⟨rootOrder, hrootOrder, rfl⟩ := Option.map_eq_some_iff.mp hheld
  exact ⟨order, rootOrder, horder, hrootOrder, by rw [arranged_eq, horder, hrootOrder]; rfl, rfl⟩

theorem drawn_eq (horder : (folderOrderFor s.folderOrder s.host).keys = some order)
    (hrootOrder : (folderOrderFor s.rootOrder s.host).keys = some rootOrder) :
    s.drawn collation lower = some (filterFolderRoots lower (whole collation s order rootOrder) s.filterQuery) := by
  unfold Panel.drawn
  rw [arranged_eq, horder, hrootOrder]
  rfl

theorem whole_perm : (whole collation s order rootOrder).Perm
    (arranged (ranked collation s.sessionTreeSort order) s.tree) :=
  (pinned_perm.trans (Js.sortByRank_perm _)).map _

variable {root : SessionRootFolder R}

/-- A root of the tree is drawn with its folders in another order. -/
theorem mem_whole (h : root ∈ whole collation s order rootOrder) :
    ∃ listed ∈ s.tree, root = { listed with directories := ranked collation s.sessionTreeSort order listed } := by
  obtain ⟨listed, hlisted, rfl⟩ := List.mem_map.mp (whole_perm.mem_iff.mp h)
  exact ⟨listed, hlisted, rfl⟩

theorem sessions_tree (s : Panel R) : (s.tree.flatMap (·.sessions)).Perm s.sessions := by
  have htree := groupSessionsIntoRoots_eq s.sessions s.treeHome s.registered
  unfold Panel.tree
  rw [htree]
  refine (pinned_perm.flatMap_right _).trans (sessions_foldersOf (nodup_resolveRoots _ _))

theorem keys_tree (s : Panel R) : (s.tree.map (·.key)).Nodup := by
  have htree := groupSessionsIntoRoots_eq s.sessions s.treeHome s.registered
  unfold Panel.tree
  rw [htree]
  exact (pinned_perm.map _).nodup_iff.mpr (nodup_foldersOf (nodup_resolveRoots _ _))

theorem other_tree (h : root ∈ s.tree) : root.other = true ↔ root.key = OTHER_ROOT := by
  have htree := groupSessionsIntoRoots_eq s.sessions s.treeHome s.registered
  unfold Panel.tree at h
  rw [htree] at h
  exact other_iff (pinned_perm.mem_iff.mp h)

theorem keys_whole : ((whole collation s order rootOrder).map (·.key)).Nodup := by
  refine (whole_perm.map _).nodup_iff.mpr ?_
  have hkeys : (arranged (ranked collation s.sessionTreeSort order) s.tree).map (·.key) = s.tree.map (·.key) := by
    unfold arranged
    rw [List.map_map]
    rfl
  rw [hkeys]
  exact keys_tree s

theorem other_whole (h : root ∈ whole collation s order rootOrder) :
    root.other = true ↔ root.key = OTHER_ROOT := by
  obtain ⟨listed, hlisted, rfl⟩ := mem_whole h
  exact (other_tree hlisted : listed.other = true ↔ listed.key = OTHER_ROOT)

theorem pinned_whole : pinned (whole collation s order rootOrder) = whole collation s order rootOrder := by
  unfold whole
  rw [pinned_arranged, pinned_pinned]

/-- Of roots with different keys at most one is the bucket. -/
theorem one_other {l : List (SessionRootFolder R)} (hkeys : (l.map (·.key)).Nodup)
    (hother : ∀ root ∈ l, root.other = true → root.key = OTHER_ROOT) : (l.filter (·.other)).length ≤ 1 := by
  have hnodup : ((l.filter (·.other)).map (·.key)).Nodup := hkeys.sublist (List.filter_sublist.map _)
  have hsame : (l.filter (·.other)).map (·.key) = List.replicate (l.filter (·.other)).length OTHER_ROOT := by
    refine List.eq_replicate_iff.mpr ⟨List.length_map _, fun key hkey => ?_⟩
    obtain ⟨root, hroot, rfl⟩ := List.mem_map.mp hkey
    obtain ⟨hroot, hbucket⟩ := List.mem_filter.mp hroot
    exact hother root hroot hbucket
  rw [hsame] at hnodup
  exact List.nodup_replicate.mp hnodup

/-- No sort and no order loses a session, a folder or a root, and the bucket stays last. The
search draws the folders that it finds, in their order, and no others. -/
theorem panel_complete (h : s.drawn collation lower = some roots) :
    ∃ all, s.arranged collation = some all ∧
      (all.flatMap (·.sessions)).Perm s.sessions ∧
      (all.map (·.key)).Perm (s.tree.map (·.key)) ∧
      (all.flatMap (·.directories)).Perm (s.tree.flatMap (·.directories)) ∧
      (all.map (·.key)).Nodup ∧ pinned all = all ∧ (all.filter (·.other)).length ≤ 1 ∧
      (roots.map (·.key)).Sublist (all.map (·.key)) ∧
      (roots.flatMap (·.directories)).Sublist (all.flatMap (·.directories)) ∧
      ∀ root ∈ all, ∀ dir ∈ root.directories,
        (∃ drawn ∈ roots, drawn.key = root.key ∧ dir ∈ drawn.directories) ↔
          keeps lower s.filterQuery root dir = true := by
  obtain ⟨order, rootOrder, -, -, hall, hroots⟩ := drawn_some h
  refine ⟨_, hall, ?sessions, ?keys, ?directories, keys_whole, pinned_whole,
    one_other keys_whole fun _ h => (other_whole h).mp, ?_⟩
  case sessions =>
    have heach : (arranged (ranked collation s.sessionTreeSort order) s.tree).flatMap (·.sessions) =
        s.tree.flatMap fun root => (ranked collation s.sessionTreeSort order root).flatMap (·.sessions) := by
      unfold arranged
      rw [List.flatMap_map]
      rfl
    refine (whole_perm.flatMap_right _).trans ?_
    rw [heach]
    exact (List.Perm.flatMap_left _ fun root _ => (ranked_perm root).flatMap_right _).trans (sessions_tree s)
  case keys =>
    refine (whole_perm.map _).trans (List.Perm.of_eq ?_)
    unfold arranged
    rw [List.map_map]
    rfl
  case directories =>
    refine (whole_perm.flatMap_right _).trans ?_
    unfold arranged
    rw [List.flatMap_map]
    exact List.Perm.flatMap_left _ fun root _ => ranked_perm root
  rw [filterFolderRoots_eq] at hroots
  have hkeys : (arranged (survivors lower s.filterQuery) (whole collation s order rootOrder)).map (·.key) =
      (whole collation s order rootOrder).map (·.key) := by
    unfold arranged
    rw [List.map_map]
    rfl
  refine ⟨?_, ?_, fun root hroot dir hdir => ?_⟩
  · rw [hroots, ← hkeys]
    exact List.filter_sublist.map _
  · rw [hroots]
    refine (List.filter_sublist.flatMap _).trans ?_
    unfold arranged
    rw [List.flatMap_map]
    exact List.Sublist.flatMap_right _ fun root _ => List.filter_sublist
  · rw [hroots]
    constructor
    · rintro ⟨drawn, hdrawn, hkey, hmem⟩
      obtain ⟨listed, hlisted, rfl⟩ := List.mem_map.mp (List.mem_filter.mp hdrawn).1
      obtain rfl := List.inj_on_of_nodup_map keys_whole hlisted hroot hkey
      exact (List.mem_filter.mp hmem).2
    · intro hkeeps
      have hmem : dir ∈ survivors lower s.filterQuery root := List.mem_filter.mpr ⟨hdir, hkeeps⟩
      refine ⟨{ root with directories := survivors lower s.filterQuery root }, ?_, rfl, hmem⟩
      refine List.mem_filter.mpr ⟨List.mem_map_of_mem hroot, ?_⟩
      unfold stays
      rw [Bool.or_eq_true, decide_eq_true_eq, decide_eq_true_eq]
      exact .inr (List.length_pos_of_mem hmem)

end

/-! ## A picked sort -/

section

variable {collation : Collation} {lower : LowerCase} {s : Panel R}

/-- Under a sort no host has an arrangement. -/
def Exclusive (s : Panel R) : Prop := s.sessionTreeSort ≠ .host → s.folderOrder = .empty

theorem exclusive_rowDragOver (root : Text) (gap : Int) (h : Exclusive s) :
    Exclusive (s.rowDragOver collation lower root gap) := by
  unfold Panel.rowDragOver
  split
  · split
    · exact h
    · exact h
  · exact h

theorem exclusive_rootDragOver (gap : Int) (h : Exclusive s) : Exclusive (s.rootDragOver collation lower gap) := by
  unfold Panel.rootDragOver
  split
  · exact h
  · exact h

/-- A drop leaves no sort behind. -/
theorem exclusive_rowDrop (h : Exclusive s) : Exclusive (s.rowDrop collation lower) := by
  unfold Panel.rowDrop
  dsimp only
  split
  · split
    · exact h
    · intro hsort
      refine absurd ?_ hsort
      dsimp only
      split
      · rfl
      · next hhost => exact not_not.mp hhost
  · exact h

theorem exclusive_rootDrop (h : Exclusive s) : Exclusive (s.rootDrop collation lower) := by
  unfold Panel.rootDrop
  dsimp only
  split
  · split
    · exact h
    · exact h
  · exact h

theorem exclusive_step (event : PanelEvent R) (h : Exclusive s) : Exclusive (s.step collation lower event) := by
  cases event with
  | listed host sessions home registered => exact h
  | search query => exact h
  | setSessionTreeSort key => exact fun _ => rfl
  | rowDragStart key => exact h
  | rowDragOver root gap => exact exclusive_rowDragOver root gap h
  | rowDrop => exact exclusive_rowDrop h
  | rootDragStart key => exact h
  | rootDragOver gap => exact exclusive_rootDragOver gap h
  | rootDrop => exact exclusive_rootDrop h
  | dragEnd => exact h

theorem exclusive_run (events : List (PanelEvent R)) : Exclusive (Panel.start.run collation lower events) := by
  induction events using List.reverseRecOn with
  | nil => exact fun h => absurd rfl h
  | append_singleton events event ih =>
    unfold Panel.run
    rw [List.foldl_append]
    exact exclusive_step event ih

/-- What is looked up of no orders is none, or it throws. -/
theorem keys_empty {host : Text} {order : List Text} (h : (folderOrderFor .empty host).keys = some order) :
    order = [] := by
  have hnone : Js.property host FolderOrder.empty.hosts = none := rfl
  unfold folderOrderFor at h
  rw [hnone] at h
  dsimp only at h
  split at h
  · unfold Found.keys at h
    split at h
    · next hfound => cases hfound
    · split at h
      · exact (Option.some.inj h).symm
      · cases h
  · exact (Option.some.inj h).symm

/-- In every run the folders of every root stand in the order of the picked sort: no
arrangement is left to overrule it. -/
theorem panel_sorted (events : List (PanelEvent R)) {roots : List (SessionRootFolder R)}
    (h : (Panel.start.run collation lower events).drawn collation lower = some roots) :
    ∀ root ∈ roots, root.directories.Pairwise fun a b =>
      byKey collation (Panel.start.run collation lower events).sessionTreeSort a b = true := by
  have hexclusive : Exclusive (Panel.start.run collation lower events) := exclusive_run events
  generalize Panel.start.run collation lower events = s at h hexclusive
  intro root hroot
  by_cases hsort : s.sessionTreeSort = .host
  · exact List.pairwise_of_forall fun _ _ => by rw [hsort]; rfl
  obtain ⟨order, rootOrder, horder, -, -, rfl⟩ := drawn_some h
  rw [hexclusive hsort] at horder
  obtain rfl := keys_empty horder
  rw [filterFolderRoots_eq] at hroot
  obtain ⟨sortedRoot, hmem, rfl⟩ := List.mem_map.mp (List.mem_filter.mp hroot).1
  obtain ⟨listed, -, rfl⟩ := mem_whole hmem
  have hranked : ranked collation s.sessionTreeSort [] listed = sorted collation s.sessionTreeSort listed :=
    Js.sortByRank_nil _
  dsimp only [survivors]
  rw [hranked]
  exact (sorted_pairwise listed).sublist List.filter_sublist

end

/-! ## A drop -/

section

variable {K α : Type} [DecidableEq K] {key : α → K} {order : List K} {l shown hidden : List α}

/-- A list of which some is ranked in its order stands as it is ranked, with the others behind it. -/
theorem sortByRank_shown (horder : order.Nodup) (hkeys : (l.map key).Nodup) (hperm : (shown ++ hidden).Perm l)
    (hplaces : (shown.map key).Sublist order) (hshown : ∀ a ∈ shown, key a ∈ order)
    (hhidden : ∀ a ∈ hidden, key a ∉ order) :
    ∃ rest, rest.Perm hidden ∧ Js.sortByRank key order l = shown ++ rest := by
  have hranked : ∀ a ∈ shown, Js.isRanked order (key a) = true := fun a ha => (Js.isRanked_iff horder).mpr (hshown a ha)
  have hunranked : ∀ a ∈ hidden, Js.isRanked order (key a) = false := fun a ha =>
    Bool.eq_false_iff.mpr fun h => hhidden a ha ((Js.isRanked_iff horder).mp h)
  have hfirst : (shown ++ hidden).filter (fun a => Js.isRanked order (key a)) = shown := by
    rw [List.filter_append, List.filter_eq_self.mpr hranked,
      List.filter_eq_nil_iff.mpr fun a ha => by simp [hunranked a ha], List.append_nil]
  refine ⟨l.filter fun a => !Js.isRanked order (key a), ?_, ?_⟩
  · refine (hperm.symm.filter _).trans ?_
    rw [List.filter_append, List.filter_eq_nil_iff.mpr fun a ha => by simp [hranked a ha],
      List.filter_eq_self.mpr fun a ha => by simp [hunranked a ha], List.nil_append]
  · rw [Js.sort_ranked horder hkeys hperm, hfirst]
    have hpart : ((shown ++ hidden).map key).filter (Js.isRanked order) = shown.map key := by
      rw [List.filter_map]
      exact congrArg (List.map key) hfirst
    rw [hpart]
    exact hplaces

end

section

variable {collation : Collation} {lower : LowerCase} {s : Panel R} {order rootOrder next : List Text}
  {roots : List (SessionRootFolder R)} {fromKey host : Text} {toIndex : Int}

theorem folderOrderFor_set {values : FolderOrder} (hhost : host ≠ []) (hproto : host ≠ protoKey) (hnext : next ≠ []) :
    (folderOrderFor (setFolderOrder values host next) host).keys = some next := by
  have hset : Js.property host (setFolderOrder values host next).hosts = some next := by
    unfold setFolderOrder FolderOrder.assign
    rw [if_neg hhost, if_neg hnext, dif_pos ⟨hhost, hproto⟩]
    exact Js.property_assign_self
  unfold folderOrderFor
  rw [hset]
  rfl

/-! ### A row -/

/-- The folders of a root as they are drawn. -/
def drawnRows (collation : Collation) (lower : LowerCase) (s : Panel R) (order : List Text)
    (root : SessionRootFolder R) : List (SessionDirectory R) :=
  (ranked collation s.sessionTreeSort order root).filter (keeps lower s.filterQuery root)

/-- The roots of the tree in the order they are drawn. -/
def drawnRoots (s : Panel R) (rootOrder : List Text) : List (SessionRootFolder R) :=
  pinned (Js.sortByRank (·.key) rootOrder s.tree)

theorem drawnRoots_perm : (drawnRoots s rootOrder).Perm s.tree := pinned_perm.trans (Js.sortByRank_perm _)

theorem filter_whole : filterFolderRoots lower (whole collation s order rootOrder) s.filterQuery =
    (arranged (drawnRows collation lower s order) (drawnRoots s rootOrder)).filter (stays lower s.filterQuery) := by
  rw [filterFolderRoots_eq]
  unfold whole
  rw [survivors_arranged]
  rfl

/-- What leaves the number of its folders hides no root. -/
theorem arranged_stays {query : Text} {arrange arrange' : SessionRootFolder R → List (SessionDirectory R)}
    (hlength : ∀ root, (arrange' { root with directories := arrange root }).length = (arrange root).length) :
    arranged arrange' ((arranged arrange roots).filter (stays lower query)) =
      (arranged (fun root => arrange' { root with directories := arrange root }) roots).filter (stays lower query) := by
  unfold arranged
  rw [List.filter_map, List.filter_map, List.map_map]
  have hsame : roots.filter (stays lower query ∘ fun root => { root with directories := arrange root }) =
      roots.filter (stays lower query ∘ fun root =>
        { root with directories := arrange' { root with directories := arrange root } }) :=
    List.filter_congr fun root _ => by simp only [Function.comp_apply, stays, hlength]
  rw [hsame]
  rfl

/-- The folders of a root as they are drawn after a drop. -/
def droppedRows (collation : Collation) (lower : LowerCase) (s : Panel R) (order : List Text) (fromKey : Text)
    (toIndex : Int) (root : SessionRootFolder R) : List (SessionDirectory R) :=
  intoGap (·.key = fromKey) (max 0 (min ((drawnRows collation lower s order root).length : Int) toIndex)).toNat
    (drawnRows collation lower s order root)

theorem dragged_drawn : dragged
    ((arranged (drawnRows collation lower s order) (drawnRoots s rootOrder)).filter (stays lower s.filterQuery))
      fromKey toIndex =
    (arranged (droppedRows collation lower s order fromKey toIndex) (drawnRoots s rootOrder)).filter
      (stays lower s.filterQuery) :=
  arranged_stays fun _ => intoGap_perm.length_eq

theorem drawnRows_perm (root : SessionRootFolder R) : (drawnRows collation lower s order root).Perm
    (root.directories.filter (keeps lower s.filterQuery root)) :=
  (ranked_perm root).filter _

variable {arrange : SessionRootFolder R → List (SessionDirectory R)}

/-- The keys that are drawn: of any arrangement of the folders that are drawn. -/
theorem mem_folderKeys_drawn {key : Text} :
    key ∈ folderKeys ((arranged arrange roots).filter (stays lower s.filterQuery)) ↔
      ∃ root ∈ roots, ∃ dir ∈ arrange root, dir.key = key := by
  unfold folderKeys arranged
  constructor
  · intro hkey
    obtain ⟨shown, hshown, hkey⟩ := List.mem_flatMap.mp hkey
    obtain ⟨root, hroot, rfl⟩ := List.mem_map.mp (List.mem_filter.mp hshown).1
    obtain ⟨dir, hdir, rfl⟩ := List.mem_map.mp hkey
    exact ⟨root, hroot, dir, hdir, rfl⟩
  · rintro ⟨root, hroot, dir, hdir, rfl⟩
    refine List.mem_flatMap.mpr ⟨{ root with directories := arrange root },
      List.mem_filter.mpr ⟨List.mem_map_of_mem hroot, ?_⟩, List.mem_map_of_mem hdir⟩
    unfold stays
    rw [Bool.or_eq_true, decide_eq_true_eq, decide_eq_true_eq]
    exact .inr (List.length_pos_of_mem hdir)

/-- The root that has a key. -/
theorem owner_of_key (hkeys : (folderKeys roots).Nodup) {a b : SessionRootFolder R} (ha : a ∈ roots) (hb : b ∈ roots)
    {dir dir' : SessionDirectory R} (hdir : dir ∈ a.directories) (hdir' : dir' ∈ b.directories)
    (hkey : dir.key = dir'.key) : a = b ∧ dir = dir' := by
  obtain ⟨i, hi⟩ := List.mem_iff_getElem?.mp ha
  obtain ⟨j, hj⟩ := List.mem_iff_getElem?.mp hb
  have hij := owner_unique hkeys hi hj (List.mem_map_of_mem hdir) (hkey ▸ List.mem_map_of_mem hdir')
  rw [hij, hj] at hi
  obtain rfl := Option.some.inj hi
  exact ⟨rfl, List.inj_on_of_nodup_map (nodup_ofRoot hkeys ha) hdir hdir' hkey⟩

/-- The keys of what is drawn are those of different folders. -/
theorem nodup_drawn (hkeys : (folderKeys roots).Nodup)
    (hperm : ∀ root, (arrange root).Subperm root.directories) :
    (folderKeys ((arranged arrange roots).filter (stays lower s.filterQuery))).Nodup := by
  have hall : (folderKeys (arranged arrange roots)).Nodup := by
    rw [folderKeys_arranged]
    refine List.nodup_flatMap.mpr ⟨fun root hroot => ?_, ?_⟩
    · obtain ⟨part, hpart, hsub⟩ := hperm root
      exact (hpart.map _).nodup_iff.mp ((nodup_ofRoot hkeys hroot).sublist (hsub.map _))
    · refine (List.nodup_flatMap.mp hkeys).2.imp fun {a b} hdisjoint key hkey hkey' => ?_
      obtain ⟨dir, hdir, rfl⟩ := List.mem_map.mp hkey
      obtain ⟨dir', hdir', hsame⟩ := List.mem_map.mp hkey'
      exact hdisjoint (List.mem_map_of_mem ((hperm a).subset hdir))
        (hsame ▸ List.mem_map_of_mem ((hperm b).subset hdir'))
  exact hall.sublist (List.Sublist.flatMap List.filter_sublist _)

/-- The order of a drop ranks the folders of each root as they were dropped, whatever else the
tree has. -/
theorem rows_dropped (hkeys : (folderKeys s.tree).Nodup) {root : SessionRootFolder R}
    (hroot : root ∈ drawnRoots s rootOrder)
    (hnext : next = folderKeys ((arranged (droppedRows collation lower s order fromKey toIndex)
      (drawnRoots s rootOrder)).filter (stays lower s.filterQuery))) :
    (Js.sortByRank (·.key) next root.directories).filter (keeps lower s.filterQuery root) =
      droppedRows collation lower s order fromKey toIndex root := by
  have hall : (folderKeys (drawnRoots s rootOrder)).Nodup :=
    (drawnRoots_perm.flatMap_right _).nodup_iff.mpr hkeys
  have hdropped : ∀ root : SessionRootFolder R, (droppedRows collation lower s order fromKey toIndex root).Perm
      (root.directories.filter (keeps lower s.filterQuery root)) :=
    fun root => intoGap_perm.trans (drawnRows_perm root)
  have hkept : ∀ dir ∈ droppedRows collation lower s order fromKey toIndex root,
      dir ∈ root.directories ∧ keeps lower s.filterQuery root dir = true :=
    fun dir hdir => List.mem_filter.mp ((hdropped root).mem_iff.mp hdir)
  have horder : next.Nodup := by
    rw [hnext]
    exact nodup_drawn hall fun root => ((hdropped root).subperm).trans List.filter_sublist.subperm
  have hshown : ∀ dir ∈ droppedRows collation lower s order fromKey toIndex root, dir.key ∈ next := by
    intro dir hdir
    rw [hnext]
    exact mem_folderKeys_drawn.mpr ⟨root, hroot, dir, hdir, rfl⟩
  -- a folder that is hidden shares no key with one that is drawn
  have hhidden : ∀ dir ∈ root.directories.filter (!keeps lower s.filterQuery root ·), dir.key ∉ next := by
    intro dir hdir hmem
    obtain ⟨hlisted, hnot⟩ := List.mem_filter.mp hdir
    rw [hnext] at hmem
    obtain ⟨root', hroot', dir', hdir', hkey⟩ := mem_folderKeys_drawn.mp hmem
    obtain ⟨hlisted', hkeeps⟩ := List.mem_filter.mp ((hdropped root').mem_iff.mp hdir')
    obtain ⟨rfl, rfl⟩ := owner_of_key hall hroot' hroot hlisted' hlisted hkey
    rw [hkeeps] at hnot
    cases hnot
  have hplaces : ((droppedRows collation lower s order fromKey toIndex root).map (·.key)).Sublist next := by
    rw [hnext]
    by_cases hnone : droppedRows collation lower s order fromKey toIndex root = []
    · rw [hnone]
      exact List.nil_sublist _
    · refine List.sublist_flatten_of_mem (List.mem_map.mpr
        ⟨{ root with directories := droppedRows collation lower s order fromKey toIndex root },
          List.mem_filter.mpr ⟨List.mem_map_of_mem hroot, ?_⟩, rfl⟩)
      unfold stays
      rw [Bool.or_eq_true, decide_eq_true_eq, decide_eq_true_eq]
      exact .inr (List.length_pos_iff.mpr hnone)
  obtain ⟨rest, hrest, hsorted⟩ := sortByRank_shown horder (nodup_ofRoot hall hroot)
    (((hdropped root).append_right _).trans (List.filter_append_perm _ _)) hplaces hshown hhidden
  rw [hsorted, List.filter_append, List.filter_eq_self.mpr fun dir hdir => (hkept dir hdir).2]
  have hgone : rest.filter (keeps lower s.filterQuery root) = [] := by
    refine List.filter_eq_nil_iff.mpr fun dir hdir hkeeps => ?_
    have hhidden := (List.mem_filter.mp (hrest.mem_iff.mp hdir)).2
    rw [hkeeps] at hhidden
    cases hhidden
  rw [hgone, List.append_nil]

/-- A row that is dropped is drawn where it was dropped, under a sort and a search as well: the
sort is switched off, and the order ranks what was on the screen. -/
theorem row_drop_shown (hpaths : ∀ session ∈ s.sessions, (0 : UInt16) ∉ groupingPath session)
    (hhost : s.host ≠ []) (hproto : s.host ≠ protoKey) (hdrawn : s.drawn collation lower = some roots)
    {target : Text × Int} (hdragging : s.dragging = some fromKey) (htarget : s.dropTarget = some target)
    (hmoved : reorderFolders roots fromKey target.2 = some next) :
    (s.rowDrop collation lower).drawn collation lower = some (dragged roots fromKey target.2) ∧
      (s.rowDrop collation lower).sessionTreeSort = .host := by
  have hkeys : (folderKeys s.tree).Nodup := folderKeys_nodup hpaths _
  have hdrop : s.rowDrop collation lower =
      { s with
        sessionTreeSort := .host
        folderOrder := setFolderOrder (if s.sessionTreeSort ≠ .host then .empty else s.folderOrder) s.host next
        dragging := none
        dropTarget := none } := by
    unfold Panel.rowDrop
    rw [hdragging, htarget, hdrawn]
    dsimp only
    rw [hmoved]
    dsimp only
    by_cases hsort : s.sessionTreeSort = .host
    · rw [if_neg (not_not.mpr hsort), if_neg (not_not.mpr hsort), ← hsort]
    · rw [if_pos hsort, if_pos hsort]
      rfl
  obtain ⟨order, rootOrder, -, hrootOrder, -, hroots⟩ := drawn_some hdrawn
  rw [filter_whole] at hroots
  have hall : (folderKeys (drawnRoots s rootOrder)).Nodup :=
    (drawnRoots_perm.flatMap_right _).nodup_iff.mpr hkeys
  have hnodup : (folderKeys roots).Nodup := by
    rw [hroots]
    exact nodup_drawn hall fun root => (drawnRows_perm root).subperm.trans List.filter_sublist.subperm
  have hnext := reorderFolders_some hnodup hmoved
  have hsome : next ≠ [] := by
    refine List.ne_nil_of_mem (a := fromKey) ?_
    rw [hnext]
    exact (folderKeys_perm fun root _ => intoGap_perm).mem_iff.mpr (reorderFolders_mem hmoved)
  rw [hroots, dragged_drawn] at hnext
  generalize s.rowDrop collation lower = after at hdrop ⊢
  have horder : (folderOrderFor after.folderOrder after.host).keys = some next := by
    rw [hdrop]
    exact folderOrderFor_set hhost hproto hsome
  have hrootOrder' : (folderOrderFor after.rootOrder after.host).keys = some rootOrder := by
    rw [hdrop]
    exact hrootOrder
  refine ⟨(drawn_eq horder hrootOrder').trans (congrArg some ?_), by rw [hdrop]⟩
  rw [filter_whole, hdrop, hroots, dragged_drawn]
  refine congrArg (List.filter _) (arranged_congr.mpr fun root hroot => ?_)
  exact rows_dropped hkeys hroot hnext

/-! ### A root -/

/-- The roots with one of them in a gap. -/
def draggedRoots (roots : List (SessionRootFolder R)) (fromKey : Text) (toIndex : Int) : List (SessionRootFolder R) :=
  intoGap (·.key = fromKey) (max 0 (min (roots.length : Int) toIndex)).toNat roots

/-- The order of a drag is that of the roots as they are dragged. -/
theorem reorderRoots_some (hkeys : (roots.map (·.key)).Nodup) (h : reorderRoots roots fromKey toIndex = some next) :
    next = (draggedRoots roots fromKey toIndex).map (·.key) := by
  unfold reorderRoots at h
  dsimp only at h
  split at h
  · cases h
  next moving hmoving =>
  obtain ⟨-, h⟩ := Option.ite_none_left_eq_some.mp h
  obtain rfl := Option.some.inj h
  obtain ⟨hlt, hat⟩ := List.getElem?_eq_some_iff.mp hmoving
  have hkey : moving.key = fromKey := hat ▸ of_decide_eq_true (List.findIdx_getElem (w := hlt))
  have hsplit : roots = roots.take (roots.findIdx (·.key = fromKey)) ++
      moving :: roots.drop (roots.findIdx (·.key = fromKey) + 1) := by
    rw [← hat, List.cons_getElem_drop_succ, List.take_append_drop]
  have hlength : (roots.take (roots.findIdx (·.key = fromKey))).length = roots.findIdx (·.key = fromKey) := by
    rw [List.length_take]
    omega
  generalize roots.findIdx (·.key = fromKey) = start at hsplit hlength ⊢
  generalize roots.take start = before at hsplit hlength
  generalize roots.drop (start + 1) = after at hsplit
  -- the keys differ, so the root that moves is the only one with its key
  have hothers : ∀ root ∈ before ++ after, decide (root.key = fromKey) = false := by
    intro root hroot
    refine decide_eq_false fun hsame => ?_
    rw [hsplit, List.map_append, List.map_cons] at hkeys
    have hnew := (List.nodup_middle.mp hkeys)
    refine (List.nodup_cons.mp hnew).1 ?_
    rw [← List.map_append]
    exact List.mem_map.mpr ⟨root, hroot, hsame.trans hkey.symm⟩
  unfold draggedRoots
  rw [hsplit, ← hlength]
  refine congrArg (List.map _) (moved_intoGap (decide_eq_true hkey) (fun root hroot => ?_) (fun root hroot => ?_) ?_)
  · exact hothers root (List.mem_append_left _ hroot)
  · exact hothers root (List.mem_append_right _ hroot)
  · omega

theorem pinned_of_none (h : ∀ root ∈ roots, root.other = false) : pinned roots = roots := by
  unfold pinned
  rw [List.filter_eq_self.mpr fun root hroot => by simp [h root hroot],
    List.filter_eq_nil_iff.mpr fun root hroot => by simp [h root hroot], List.append_nil]

theorem pinned_snoc {bucket : SessionRootFolder R} (h : ∀ root ∈ roots, root.other = false)
    (hbucket : bucket.other = true) : pinned (roots ++ [bucket]) = roots ++ [bucket] := by
  have hplaces : roots.filter (!·.other) = roots :=
    List.filter_eq_self.mpr fun root hroot => by simp [h root hroot]
  have hnone : roots.filter (·.other) = [] := List.filter_eq_nil_iff.mpr fun root hroot => by simp [h root hroot]
  unfold pinned
  rw [List.filter_append, List.filter_append, hplaces, hnone]
  simp [hbucket]

/-- A drag that is not refused leaves the bucket last. -/
theorem pinned_dragged (hkeys : (roots.map (·.key)).Nodup) (hpinned : pinned roots = roots)
    (hone : (roots.filter (·.other)).length ≤ 1) (hcan : canDropRootAt roots fromKey toIndex = true) :
    pinned (draggedRoots roots fromKey toIndex) = draggedRoots roots fromKey toIndex := by
  have hplaces : ∀ root ∈ roots.filter (!·.other), root.other = false := fun root hroot => by
    simpa using (List.mem_filter.mp hroot).2
  cases hbucket : roots.filter (·.other) with
  | nil =>
    refine pinned_of_none fun root hroot => Bool.eq_false_iff.mpr fun hother => ?_
    have hmem := List.mem_filter.mpr ⟨intoGap_perm.mem_iff.mp hroot, hother⟩
    rw [hbucket] at hmem
    cases hmem
  | cons bucket more =>
    rw [hbucket, List.length_cons] at hone
    obtain rfl := List.length_eq_zero_iff.mp (Nat.le_zero.mp (Nat.le_of_succ_le_succ hone))
    have hother : bucket.other = true :=
      (List.mem_filter.mp (hbucket ▸ List.mem_singleton_self bucket : bucket ∈ roots.filter (·.other))).2
    have hsplit : roots = roots.filter (!·.other) ++ [bucket] := by
      rw [← hbucket]
      exact hpinned.symm
    generalize roots.filter (!·.other) = places at hsplit hplaces
    unfold canDropRootAt at hcan
    split at hcan
    · cases hcan
    next moving hmoving =>
    split at hcan
    · cases hcan
    next hmovingOther =>
    split at hcan
    · cases hcan
    next hbounds =>
    split at hcan
    · cases hcan
    next hlast =>
    have hfrom : ¬bucket.key = fromKey := by
      intro hkey
      obtain ⟨hlt, hat⟩ := List.getElem?_eq_some_iff.mp hmoving
      have hmovingKey : moving.key = fromKey := hat ▸ of_decide_eq_true (List.findIdx_getElem (w := hlt))
      have hmem : bucket ∈ roots := hsplit ▸ List.mem_append_right _ (List.mem_singleton_self bucket)
      obtain rfl := List.inj_on_of_nodup_map hkeys (List.mem_of_getElem? hmoving) hmem
        (hmovingKey.trans hkey.symm)
      exact hmovingOther hother
    have hgap : (max 0 (min (roots.length : Int) toIndex)).toNat ≤ places.length := by
      have hlength : roots.length = places.length + 1 := by rw [hsplit, List.length_append, List.length_singleton]
      have hgetLast : roots.getLast?.any (·.other) = true := by
        rw [hsplit, List.getLast?_append]
        exact hother
      rw [hgetLast, Bool.and_true, decide_eq_true_eq] at hlast
      rw [Bool.or_eq_true, decide_eq_true_eq, decide_eq_true_eq] at hbounds
      omega
    unfold draggedRoots intoGap
    generalize (max 0 (min (roots.length : Int) toIndex)).toNat = gap at hgap
    rw [hsplit, List.take_append_of_le_length hgap, List.drop_append_of_le_length hgap, List.filter_append,
      List.filter_append]
    have hkeep : [bucket].filter (fun root => !decide (root.key = fromKey)) = [bucket] := by simp [hfrom]
    have hdrop : [bucket].filter (fun root => decide (root.key = fromKey)) = [] := by simp [hfrom]
    rw [hkeep, hdrop, List.append_nil, ← List.append_assoc]
    refine pinned_snoc (fun root hroot => hplaces root ?_) hother
    rcases List.mem_append.mp hroot with hroot | hroot
    · rcases List.mem_append.mp hroot with hroot | hroot
      · exact List.mem_of_mem_take (List.mem_filter.mp hroot).1
      · exact (List.mem_filter.mp hroot).1
    · exact List.mem_of_mem_drop (List.mem_filter.mp hroot).1

/-- A root that is dropped where the panel lets it is drawn there, whatever the search hides,
and neither the sort nor the order of the folders is touched. -/
theorem root_drop_shown (hhost : s.host ≠ []) (hproto : s.host ≠ protoKey)
    (hdrawn : s.drawn collation lower = some roots) (hdragging : s.rootDragging = some fromKey)
    (htarget : s.rootDropTarget = some toIndex) (hcan : canDropRootAt roots fromKey toIndex = true)
    (hmoved : reorderRoots roots fromKey toIndex = some next) :
    (s.rootDrop collation lower).drawn collation lower = some (draggedRoots roots fromKey toIndex) ∧
      pinned (draggedRoots roots fromKey toIndex) = draggedRoots roots fromKey toIndex ∧
      (s.rootDrop collation lower).sessionTreeSort = s.sessionTreeSort ∧
      (s.rootDrop collation lower).folderOrder = s.folderOrder := by
  have hdrop : s.rootDrop collation lower =
      { s with rootOrder := setFolderOrder s.rootOrder s.host next, rootDragging := none, rootDropTarget := none } := by
    unfold Panel.rootDrop
    rw [hdragging, htarget, hdrawn]
    dsimp only
    rw [hmoved]
  obtain ⟨order, rootOrder, horder, -, -, hroots⟩ := drawn_some hdrawn
  -- the tree with the folders that are drawn, of which the search hides some roots
  have hpanel : ∀ rootOrder : List Text, filterFolderRoots lower (whole collation s order rootOrder) s.filterQuery =
      pinned ((Js.sortByRank (·.key) rootOrder (arranged (drawnRows collation lower s order) s.tree)).filter
        (stays lower s.filterQuery)) := by
    intro rootOrder
    rw [filter_whole, sortByRank_arranged, ← pinned_filter, pinned_arranged]
    rfl
  generalize hlisted : arranged (drawnRows collation lower s order) s.tree = listed at hpanel
  have hkeys : (listed.map (·.key)).Nodup := by
    rw [← hlisted]
    unfold arranged
    rw [List.map_map]
    exact keys_tree s
  have hother : ∀ root ∈ listed, root.other = true → root.key = OTHER_ROOT := by
    intro root hroot
    rw [← hlisted] at hroot
    obtain ⟨held, hheld, rfl⟩ := List.mem_map.mp hroot
    exact (other_tree hheld).mp
  rw [hpanel] at hroots
  have hperm : roots.Perm (listed.filter (stays lower s.filterQuery)) := by
    rw [hroots]
    exact pinned_perm.trans ((Js.sortByRank_perm _).filter _)
  have hdrawnKeys : (roots.map (·.key)).Nodup :=
    (hperm.map _).nodup_iff.mpr (hkeys.sublist (List.filter_sublist.map _))
  have hpinned : pinned roots = roots := by
    rw [hroots]
    exact pinned_pinned
  have hone : (roots.filter (·.other)).length ≤ 1 :=
    one_other hdrawnKeys fun root hroot => hother root (List.mem_filter.mp (hperm.mem_iff.mp hroot)).1
  have hnext := reorderRoots_some hdrawnKeys hmoved
  have hmem : ∀ root, root ∈ draggedRoots roots fromKey toIndex ↔
      root ∈ listed ∧ stays lower s.filterQuery root = true := fun root => by
    rw [draggedRoots, intoGap_perm.mem_iff, hperm.mem_iff, List.mem_filter]
  have hhidden : ∀ root ∈ listed.filter (!stays lower s.filterQuery ·), root.key ∉ next := by
    intro root hroot hranked
    obtain ⟨hroot, hnot⟩ := List.mem_filter.mp hroot
    rw [hnext] at hranked
    obtain ⟨root', hroot', hkey⟩ := List.mem_map.mp hranked
    obtain ⟨hroot', hstays⟩ := (hmem root').mp hroot'
    obtain rfl := List.inj_on_of_nodup_map hkeys hroot' hroot hkey
    rw [hstays] at hnot
    cases hnot
  obtain ⟨rest, hrest, hsorted⟩ : ∃ rest, rest.Perm (listed.filter (!stays lower s.filterQuery ·)) ∧
      Js.sortByRank (fun root : SessionRootFolder R => root.key) next listed =
        draggedRoots roots fromKey toIndex ++ rest := sortByRank_shown
    (hnext ▸ (intoGap_perm.map _).nodup_iff.mpr hdrawnKeys) hkeys
    (((intoGap_perm.trans hperm).append_right _).trans (List.filter_append_perm _ _))
    (hnext ▸ List.Sublist.refl _) (fun root hroot => hnext ▸ List.mem_map_of_mem hroot) hhidden
  have hsome : next ≠ [] := by
    rw [hnext]
    intro hnil
    have hlength : (draggedRoots roots fromKey toIndex).length = roots.length := intoGap_perm.length_eq
    rw [List.map_eq_nil_iff.mp hnil] at hlength
    obtain rfl := List.length_eq_zero_iff.mp hlength.symm
    exact absurd hcan (by simp [canDropRootAt])
  generalize s.rootDrop collation lower = after at hdrop ⊢
  have horder' : (folderOrderFor after.folderOrder after.host).keys = some order := by
    rw [hdrop]
    exact horder
  have hrootOrder : (folderOrderFor after.rootOrder after.host).keys = some next := by
    rw [hdrop]
    exact folderOrderFor_set hhost hproto hsome
  have hlast : pinned (draggedRoots roots fromKey toIndex) = draggedRoots roots fromKey toIndex :=
    pinned_dragged hdrawnKeys hpinned hone hcan
  refine ⟨(drawn_eq horder' hrootOrder).trans (congrArg some ?_), hlast, by rw [hdrop], by rw [hdrop]⟩
  rw [hdrop]
  refine (hpanel next).trans ?_
  have hgone : rest.filter (stays lower s.filterQuery) = [] := by
    refine List.filter_eq_nil_iff.mpr fun root hroot hstays => ?_
    have hnot := (List.mem_filter.mp (hrest.mem_iff.mp hroot)).2
    rw [hstays] at hnot
    cases hnot
  rw [hsorted, List.filter_append, List.filter_eq_self.mpr fun root hroot => ((hmem root).mp hroot).2, hgone,
    List.append_nil]
  exact hlast

end

/-! A host with two roots and three folders. The second folder of the first root is dragged to
its top, and the second root above the first. -/

/-- Labels by their units. -/
def byUnits : Collation where
  le a b := a.map UInt16.toNat ≤ b.map UInt16.toNat
  trans _ _ _ h h' := decide_eq_true ((of_decide_eq_true h).trans (of_decide_eq_true h'))
  total a b := by simpa using le_total (a.map UInt16.toNat) (b.map UInt16.toNat)

def plainSession (name : Text) (path : Text) (activity : Int) : SessionSummary Unit :=
  { name, created := 1, activity, attached := false, path := some path, repoRoot := none, rest := () }

def threeSessions : List (SessionSummary Unit) :=
  [plainSession (Js.ascii "old") (Js.ascii "~/git/old") 2, plainSession (Js.ascii "new") (Js.ascii "~/git/new") 7,
    plainSession (Js.ascii "odd") (Js.ascii "~/tmp/odd") 5]

def overGap : Panel Unit :=
  { (Panel.start : Panel Unit) with
    host := Js.ascii "box"
    sessions := threeSessions
    dragging := some (Js.ascii "~/git/new")
    dropTarget := some (Js.ascii "~/git", 0)
    rootDragging := some (Js.ascii "~/tmp")
    rootDropTarget := some 0 }

/-- Without a sort, an order and a search the tree is drawn as it is. -/
theorem overGap_drawn : overGap.drawn byUnits LowerCase.latin = some overGap.tree := by
  refine (drawn_eq rfl rfl).trans (congrArg some ?_)
  have hwhole : whole byUnits overGap [] [] = overGap.tree := by
    unfold whole ranked
    simp only [Js.sortByRank_nil, pinned_tree]
    exact arranged_self
  rw [hwhole]
  rfl

theorem panel_complete_three : ∃ all, overGap.arranged byUnits = some all ∧
    (all.flatMap (·.sessions)).Perm threeSessions ∧
    (all.map (·.key)).Perm [Js.ascii "~/git", Js.ascii "~/tmp"] := by
  have hkeys : overGap.tree.map (·.key) = [Js.ascii "~/git", Js.ascii "~/tmp"] := by decide +kernel
  obtain ⟨all, hall, hsessions, hroots, -⟩ := panel_complete overGap_drawn
  exact ⟨all, hall, hsessions, hkeys ▸ hroots⟩

theorem panel_sorted_activity : ∃ roots,
    (Panel.start.run byUnits LowerCase.latin [.listed (Js.ascii "box") threeSessions none [],
      .setSessionTreeSort .activity]).drawn byUnits LowerCase.latin = some roots ∧
    ∀ root ∈ roots, root.directories.Pairwise fun a b => byKey byUnits .activity a b = true :=
  ⟨_, drawn_eq rfl rfl, panel_sorted [.listed (Js.ascii "box") threeSessions none [], .setSessionTreeSort .activity]
    (drawn_eq rfl rfl)⟩

theorem row_drop_shown_first : ∃ roots, overGap.drawn byUnits LowerCase.latin = some roots ∧
    (overGap.rowDrop byUnits LowerCase.latin).drawn byUnits LowerCase.latin =
      some (dragged roots (Js.ascii "~/git/new") 0) := by
  have hmoved : reorderFolders overGap.tree (Js.ascii "~/git/new") 0 =
      some [Js.ascii "~/git/new", Js.ascii "~/git/old", Js.ascii "~/tmp/odd"] := by decide +kernel
  exact ⟨_, overGap_drawn, (row_drop_shown (by decide) (by decide) (by decide) overGap_drawn rfl rfl hmoved).1⟩

theorem root_drop_shown_first : ∃ roots, overGap.drawn byUnits LowerCase.latin = some roots ∧
    (overGap.rootDrop byUnits LowerCase.latin).drawn byUnits LowerCase.latin =
      some (draggedRoots roots (Js.ascii "~/tmp") 0) := by
  have hmoved : reorderRoots overGap.tree (Js.ascii "~/tmp") 0 = some [Js.ascii "~/tmp", Js.ascii "~/git"] := by
    decide +kernel
  exact ⟨_, overGap_drawn, (root_drop_shown (by decide) (by decide) overGap_drawn rfl rfl (by decide +kernel)
    hmoved).1⟩

end PocketShell.SessionTree
