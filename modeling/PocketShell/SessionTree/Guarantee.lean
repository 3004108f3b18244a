import PocketShell.SessionTree.Tree

/-!
# What the tree keeps of the list

* `byRoot_filed`, `directoriesByKey_filed`: both levels are groupings of the rows.
* `Arranged`, `tree_arranged`: no session is lost or there twice, the order is that of the
  list, and every session is under the longest registered root around its directory.
-/

namespace PocketShell.SessionTree

open Js (Text Leads Filed)
open Workspaces

variable {R : Type}

def SessionDirectory.sessions (dir : SessionDirectory R) : List (SessionSummary R) := dir.rows.map (·.session)

def SessionRootFolder.rows (root : SessionRootFolder R) : List (SessionTreeRow R) :=
  root.directories.flatMap (·.rows)

def SessionRootFolder.sessions (root : SessionRootFolder R) : List (SessionSummary R) :=
  root.directories.flatMap (·.sessions)

variable {sessions : List (SessionSummary R)} {rows : List (SessionTreeRow R)}
  {configured : List ResolvedRoot} {hostHome : Option Text} {roots : List Text}

/-! ## The two levels -/

def rootKey (configured : List ResolvedRoot) (hostHome : Option Text) (rows : List (SessionTreeRow R))
    (row : SessionTreeRow R) : Text :=
  (placement configured hostHome (rootLabels configured hostHome rows) row).key

theorem keys_seededRoots : Js.keys (seededRoots (R := R) configured) = configured.map (·.key) := by
  rw [Js.keys, seededRoots, List.map_map]
  rfl

theorem byRoot_filed (hostHome : Option Text) (hn : (configured.map (·.key)).Nodup) (rows : List (SessionTreeRow R)) :
    Filed Bucket.rows (rootKey configured hostHome rows) (configured.map (·.key)) rows
      (byRoot configured hostHome rows) := by
  have hseed : Filed Bucket.rows (rootKey configured hostHome rows)
      (Js.keys (seededRoots (R := R) configured)) [] (seededRoots configured) := by
    refine Filed.seeded (keys_seededRoots ▸ hn) fun p hp => ?_
    obtain ⟨root, -, rfl⟩ := List.mem_map.mp hp
    rfl
  rw [keys_seededRoots] at hseed
  exact hseed.all (fun _ => rfl) (fun _ _ => rfl) rows

theorem directoriesByKey_filed (hostHome : Option Text) (rows : List (SessionTreeRow R)) :
    Filed SessionDirectory.rows (groupKey hostHome) [] rows (directoriesByKey hostHome rows) := by
  have hseed : Filed (SessionDirectory.rows (R := R)) (groupKey hostHome) (Js.keys []) [] [] :=
    Filed.seeded List.nodup_nil fun p hp => absurd hp List.not_mem_nil
  exact hseed.all (fun _ => rfl) (fun _ _ => rfl) rows

/-- A bucket has the key it is filed under. -/
theorem key_byRoot (rows : List (SessionTreeRow R)) :
    ∀ p ∈ byRoot configured hostHome rows, p.2.key = p.1 := by
  unfold byRoot
  generalize rootLabels configured hostHome rows = labels
  induction rows using List.reverseRecOn with
  | nil =>
    intro p hp
    obtain ⟨root, -, rfl⟩ := List.mem_map.mp hp
    rfl
  | append_singleton rows row ih =>
    rw [List.foldl_append]
    exact Js.forall_file (P := fun key (bucket : Bucket R) => bucket.key = key) ih rfl fun _ h => h

theorem key_directoriesByKey (rows : List (SessionTreeRow R)) :
    ∀ p ∈ directoriesByKey hostHome rows, p.2.key = p.1 := by
  unfold directoriesByKey
  induction rows using List.reverseRecOn with
  | nil => exact fun p hp => absurd hp List.not_mem_nil
  | append_singleton rows row ih =>
    rw [List.foldl_append]
    exact Js.forall_file (P := fun key (dir : SessionDirectory R) => dir.key = key) ih rfl fun _ h => h

/-! ## Folders -/

/-- The directories of a root are the groups of its rows; ages, dots and labels change
neither their keys nor their rows. -/
theorem map_directories (configured : List ResolvedRoot) (hostHome : Option Text) {Y : Type}
    {f : SessionDirectory R → Y} (bucket : Bucket R)
    (hsummed : ∀ dir : SessionDirectory R, f dir.summed = f dir)
    (hmark : ∀ (dir : SessionDirectory R) key, f (dir.markInferred key) = f dir)
    (hlabel : ∀ (dir : SessionDirectory R) label, f (dir.relabel label) = f dir) :
    (folderOf configured hostHome bucket).directories.map f =
      (directoriesByKey hostHome bucket.rows).map fun p => f p.2 := by
  dsimp only [folderOf]
  rw [map_disambiguateLabels (h := hlabel), buildDirectories, List.map_map, List.map_map]
  refine List.map_congr_left fun p _ => ?_
  dsimp only [Function.comp_apply]
  rw [hmark, hsummed]

theorem keys_directories (bucket : Bucket R) :
    (folderOf configured hostHome bucket).directories.map (·.key) =
      Js.keys (directoriesByKey hostHome bucket.rows) := by
  rw [map_directories configured hostHome bucket (fun _ => rfl) (fun _ _ => rfl) (fun _ _ => rfl)]
  exact List.map_congr_left fun p hp => key_directoriesByKey bucket.rows p hp

theorem nodup_directories (bucket : Bucket R) :
    ((folderOf configured hostHome bucket).directories.map (·.key)).Nodup :=
  (keys_directories bucket).symm ▸ (directoriesByKey_filed hostHome bucket.rows).nodup

/-- Every directory is a group of rows, in their order. -/
theorem rows_directory {bucket : Bucket R} {dir : SessionDirectory R}
    (h : dir ∈ (folderOf configured hostHome bucket).directories) :
    dir.rows = bucket.rows.filter (groupKey hostHome · = dir.key) ∧ dir.rows ≠ [] := by
  have hmap := map_directories configured hostHome (f := fun dir => (dir.key, dir.rows)) bucket (fun _ => rfl)
    (fun _ _ => rfl) (fun _ _ => rfl)
  have hmem : (dir.key, dir.rows) ∈
      (folderOf configured hostHome bucket).directories.map fun dir => (dir.key, dir.rows) :=
    List.mem_map_of_mem (f := fun dir : SessionDirectory R => (dir.key, dir.rows)) h
  rw [hmap] at hmem
  obtain ⟨p, hp, hpair⟩ := List.mem_map.mp hmem
  obtain ⟨hkey, hrows⟩ := Prod.mk.inj hpair
  have hfiled := directoriesByKey_filed hostHome bucket.rows
  rw [← hrows, ← hkey, key_directoriesByKey bucket.rows p hp]
  exact ⟨hfiled.items p hp, hfiled.ne_nil hp List.not_mem_nil⟩

theorem perm_directories (configured : List ResolvedRoot) (hostHome : Option Text) (bucket : Bucket R) :
    ((folderOf configured hostHome bucket).directories.flatMap (·.rows)).Perm bucket.rows := by
  have hmap := map_directories configured hostHome (f := SessionDirectory.rows) bucket (fun _ => rfl)
    (fun _ _ => rfl) (fun _ _ => rfl)
  rw [List.flatMap_def, hmap, ← List.flatMap_def]
  exact (directoriesByKey_filed hostHome bucket.rows).perm

theorem leads_directories (configured : List ResolvedRoot) (hostHome : Option Text) (bucket : Bucket R) :
    (folderOf configured hostHome bucket).directories.Pairwise fun a b =>
      Leads bucket.rows (· ∈ a.rows) (· ∈ b.rows) := by
  have hmap := map_directories configured hostHome (f := SessionDirectory.rows) bucket (fun _ => rfl)
    (fun _ _ => rfl) (fun _ _ => rfl)
  have hleads := (directoriesByKey_filed hostHome bucket.rows).leads
  have hrows : ((folderOf configured hostHome bucket).directories.map (·.rows)).Pairwise fun a b =>
      Leads bucket.rows (· ∈ a) (· ∈ b) := by
    rw [hmap, List.pairwise_map]
    exact hleads
  rwa [List.pairwise_map] at hrows

/-! ## Where a row is placed -/

theorem mem_rootLabels (hc : configured ≠ []) (rows : List (SessionTreeRow R)) :
    ∀ p ∈ rootLabels configured hostHome rows, p.2 ∈ configured.map (·.key) := by
  unfold rootLabels
  rw [if_pos hc]
  suffices h : ∀ part, part ⊆ configured → ∀ p ∈ part.foldl
      (fun labels (root : ResolvedRoot) => Js.assign root.label root.key labels) ([] : List (Text × Text)),
      p.2 ∈ configured.map (·.key) from h configured (List.Subset.refl _)
  intro part hpart
  induction part using List.reverseRecOn with
  | nil => exact fun p hp => absurd hp List.not_mem_nil
  | append_singleton part root ih =>
    obtain ⟨hpart, hroot⟩ := List.append_subset.mp hpart
    intro p hp
    rw [List.foldl_append] at hp
    rcases Js.mem_assign hp with rfl | hp
    · exact List.mem_map_of_mem (hroot (List.mem_singleton_self root))
    · exact ih hpart p hp

theorem placeRow_key (hc : configured ≠ []) (row : SessionTreeRow R) :
    (placeRow configured hostHome row).key ∈ configured.map (·.key) ∨
      (placeRow configured hostHome row).key = OTHER_ROOT := by
  rw [placeRow, if_neg hc]
  cases hbest : bestRootForPath row.folderPath hostHome configured with
  | none => exact .inr rfl
  | some root =>
    unfold bestRootForPath at hbest
    split at hbest
    · cases hbest
    · have hisBest := bestRoot_isBest (directoryKey row.folderPath hostHome) configured
      rw [hbest] at hisBest
      exact .inl (List.mem_map_of_mem hisBest.1)

/-- With registered roots a row is placed under one of them, or nowhere. -/
theorem rootKey_registered (hc : configured ≠ []) (row : SessionTreeRow R) :
    rootKey configured hostHome rows row ∈ configured.map (·.key) ∨
      rootKey configured hostHome rows row = OTHER_ROOT := by
  unfold rootKey placement
  split
  · split
    · exact placeRow_key hc row
    · split
      · exact placeRow_key hc row
      · next key hkey =>
        exact .inl (mem_rootLabels hc rows _ (Js.mem_of_property hkey))
  · exact placeRow_key hc row

/-! ## The order of the roots -/

def foldersOf (configured : List ResolvedRoot) (hostHome : Option Text) (rows : List (SessionTreeRow R)) :
    List (SessionRootFolder R) :=
  (byRoot configured hostHome rows).map (folderOf configured hostHome ·.2)

theorem keys_foldersOf : (foldersOf configured hostHome rows).map (·.key) =
    Js.keys (byRoot configured hostHome rows) := by
  rw [foldersOf, List.map_map]
  exact List.map_congr_left fun p hp => key_byRoot rows p hp

theorem mem_foldersOf {root : SessionRootFolder R} :
    root ∈ foldersOf configured hostHome rows ↔
      ∃ p ∈ byRoot configured hostHome rows, folderOf configured hostHome p.2 = root := List.mem_map

theorem other_iff {root : SessionRootFolder R} (h : root ∈ foldersOf configured hostHome rows) :
    root.other = true ↔ root.key = OTHER_ROOT := by
  obtain ⟨p, -, rfl⟩ := mem_foldersOf.mp h
  exact decide_eq_true_iff

/-- The roots apart from the bucket are the registered ones in their order. -/
theorem keys_rooted (hostHome : Option Text) (hn : (configured.map (·.key)).Nodup)
    (ho : OTHER_ROOT ∉ configured.map (·.key))
    (hc : configured ≠ []) (rows : List (SessionTreeRow R)) :
    ((foldersOf configured hostHome rows).filter (!·.other)).map (·.key) = configured.map (·.key) := by
  have hfilter : ((foldersOf configured hostHome rows).filter (!·.other)) =
      (foldersOf configured hostHome rows).filter fun root => root.key ≠ OTHER_ROOT := by
    refine List.filter_congr fun root hroot => ?_
    rw [Bool.eq_iff_iff, Bool.not_eq_true', ← Bool.not_eq_true, other_iff hroot, decide_eq_true_eq]
  have hmap : ((foldersOf configured hostHome rows).filter fun root => root.key ≠ OTHER_ROOT).map (·.key) =
      ((foldersOf configured hostHome rows).map (·.key)).filter (· ≠ OTHER_ROOT) := by
    rw [List.filter_map]
    rfl
  rw [hfilter, hmap, keys_foldersOf]
  refine (byRoot_filed hostHome hn rows).filter_keys hn
    (fun key hkey => decide_eq_true fun heq => ho (heq ▸ hkey)) fun row _ => ?_
  exact (rootKey_registered hc row).imp_right fun heq => decide_eq_false (not_not.mpr heq)

/-- The roots already stand in registered order. -/
theorem rooted_sorted {folders : List (SessionRootFolder R)} (hn : (configured.map (·.key)).Nodup)
    (h : folders.map (·.key) = configured.map (·.key)) :
    folders.Pairwise fun a b => decide (rank configured a ≤ rank configured b) = true := by
  have hrank : ∀ (i : Nat) (hi : i < folders.length), rank configured folders[i] = i := by
    intro i hi
    have hlen : i < (configured.map (·.key)).length := by
      rw [← h, List.length_map]
      exact hi
    have hkey : folders[i].key = (configured.map (·.key))[i] := by
      have hi' : i < (folders.map (·.key)).length := by rwa [List.length_map]
      have hmap : (folders.map (·.key))[i] = folders[i].key := List.getElem_map _
      rw [← hmap]
      exact List.getElem_of_eq h _
    have hidx : (configured.map (·.key)).idxOf? folders[i].key = some i := by
      refine List.idxOf?_eq_some_iff.mpr ⟨hlen, hkey.symm, fun j hj heq => ?_⟩
      rw [hkey, hn.getElem_inj_iff] at heq
      omega
    rw [rank, hidx]
    rfl
  refine List.pairwise_iff_getElem.mpr fun i j hi hj hij => ?_
  rw [hrank i hi, hrank j hj]
  exact decide_eq_true hij.le

/-- The tree is the folders, with the bucket last. -/
theorem groupSessionsIntoRoots_eq (sessions : List (SessionSummary R)) (hostHome : Option Text)
    (roots : List Text) :
    let home := resolvedHome sessions hostHome
    let folders := foldersOf (resolveRoots roots home) home (buildRows sessions)
    groupSessionsIntoRoots sessions hostHome roots =
      folders.filter (!·.other) ++ folders.filter (·.other) := by
  intro home folders
  have heq : groupSessionsIntoRoots sessions hostHome roots =
      (if resolveRoots roots home = [] then folders.filter (!·.other)
        else (folders.filter (!·.other)).mergeSort fun a b =>
          rank (resolveRoots roots home) a ≤ rank (resolveRoots roots home) b) ++
        folders.filter (·.other) := rfl
  rw [heq]
  split
  · rfl
  · next hc =>
    have hn := nodup_resolveRoots roots home
    have hkeys := keys_rooted home hn (other_not_resolved roots home) hc (buildRows sessions)
    rw [List.mergeSort_of_pairwise (rooted_sorted hn hkeys)]

/-! ## Sessions and rows -/

theorem mem_buildRows {row : SessionTreeRow R} (h : row ∈ buildRows sessions) :
    row = rowOf (folderCounts sessions) row.session := by
  obtain ⟨session, -, rfl⟩ := List.mem_map.mp h
  rfl

/-- Among built rows a session is as good as its row. -/
theorem mem_sessions_iff {held : List (SessionTreeRow R)} (h : ∀ row ∈ held, row ∈ buildRows sessions)
    {session : SessionSummary R} :
    session ∈ held.map (·.session) ↔ rowOf (folderCounts sessions) session ∈ held := by
  constructor
  · intro hs
    obtain ⟨row, hrow, rfl⟩ := List.mem_map.mp hs
    exact mem_buildRows (h row hrow) ▸ hrow
  · exact fun hrow => List.mem_map_of_mem hrow

/-- What leads among the rows leads among the sessions. -/
theorem Leads.of_rows {a b : List (SessionTreeRow R)} (ha : ∀ row ∈ a, row ∈ buildRows sessions)
    (hb : ∀ row ∈ b, row ∈ buildRows sessions) (h : Leads (buildRows sessions) (· ∈ a) (· ∈ b)) :
    Leads sessions (· ∈ a.map (·.session)) (· ∈ b.map (·.session)) :=
  h.of_map.congr (fun _ _ => (mem_sessions_iff ha).mpr) fun _ _ => (mem_sessions_iff hb).mp

theorem sessions_eq_rows (root : SessionRootFolder R) : root.sessions = root.rows.map (·.session) :=
  List.map_flatMap.symm

theorem sessions_folderOf (bucket : Bucket R) :
    (folderOf configured hostHome bucket).sessions.Perm (bucket.rows.map (·.session)) := by
  rw [sessions_eq_rows]
  exact (perm_directories configured hostHome bucket).map _

/-- All the sessions of the folders are those of the rows. -/
theorem sessions_foldersOf (hn : (configured.map (·.key)).Nodup) :
    ((foldersOf configured hostHome (buildRows sessions)).flatMap (·.sessions)).Perm sessions := by
  rw [foldersOf, List.flatMap_map]
  refine (List.Perm.flatMap_left _ fun p _ => sessions_folderOf p.2).trans ?_
  rw [← List.map_flatMap]
  refine ((byRoot_filed hostHome hn (buildRows sessions)).perm.map _).trans ?_
  rw [map_session_buildRows]

/-! ## Places -/

section

variable (hn : (configured.map (·.key)).Nodup) {root root' : SessionRootFolder R}
  {dir dir' : SessionDirectory R} {row : SessionTreeRow R}

include hn

/-- The rows of a directory are those with its two keys. -/
theorem directory_rows (hroot : root ∈ foldersOf configured hostHome rows) (hdir : dir ∈ root.directories) :
    dir.rows = rows.filter (fun row => decide (groupKey hostHome row = dir.key) &&
      decide (rootKey configured hostHome rows row = root.key)) ∧ dir.rows ≠ [] := by
  obtain ⟨p, hp, rfl⟩ := mem_foldersOf.mp hroot
  obtain ⟨hrows, hne⟩ := rows_directory hdir
  refine ⟨?_, hne⟩
  have hkey : (folderOf configured hostHome p.2).key = p.1 := key_byRoot rows p hp
  rw [hrows, (byRoot_filed hostHome hn rows).items p hp, List.filter_filter, hkey]

theorem mem_directory_rows (hroot : root ∈ foldersOf configured hostHome rows) (hdir : dir ∈ root.directories)
    (hrow : row ∈ dir.rows) :
    row ∈ rows ∧ groupKey hostHome row = dir.key ∧ rootKey configured hostHome rows row = root.key := by
  rw [(directory_rows hn hroot hdir).1] at hrow
  obtain ⟨hmem, hkeys⟩ := List.mem_filter.mp hrow
  rw [Bool.and_eq_true, decide_eq_true_eq, decide_eq_true_eq] at hkeys
  exact ⟨hmem, hkeys⟩

theorem exists_place (hostHome : Option Text) (hrow : row ∈ rows) :
    ∃ root ∈ foldersOf configured hostHome rows, ∃ dir ∈ root.directories, row ∈ dir.rows := by
  obtain ⟨bucket, hp, hmem⟩ := (byRoot_filed hostHome hn rows).mem hrow
  obtain ⟨dir, hdir, hrow⟩ := List.mem_flatMap.mp
    ((perm_directories configured hostHome bucket).mem_iff.mpr hmem)
  exact ⟨_, mem_foldersOf.mpr ⟨_, hp, rfl⟩, dir, hdir, hrow⟩

theorem nodup_foldersOf : ((foldersOf configured hostHome rows).map (·.key)).Nodup := by
  rw [keys_foldersOf]
  exact (byRoot_filed hostHome hn rows).nodup

/-- A row has one place. -/
theorem place_unique (hroot : root ∈ foldersOf configured hostHome rows) (hdir : dir ∈ root.directories)
    (hrow : row ∈ dir.rows) (hroot' : root' ∈ foldersOf configured hostHome rows)
    (hdir' : dir' ∈ root'.directories) (hrow' : row ∈ dir'.rows) : root' = root ∧ dir' = dir := by
  obtain ⟨-, hdirKey, hrootKey⟩ := mem_directory_rows hn hroot hdir hrow
  obtain ⟨-, hdirKey', hrootKey'⟩ := mem_directory_rows hn hroot' hdir' hrow'
  obtain rfl := List.inj_on_of_nodup_map (nodup_foldersOf hn) hroot' hroot (hrootKey'.symm.trans hrootKey)
  refine ⟨rfl, ?_⟩
  obtain ⟨p, -, rfl⟩ := mem_foldersOf.mp hroot
  exact List.inj_on_of_nodup_map (nodup_directories p.2) hdir' hdir (hdirKey'.symm.trans hdirKey)

/-- The directories of a root stand in the order of their first rows in the list. -/
theorem leads_placed (hroot : root ∈ foldersOf configured hostHome rows) :
    root.directories.Pairwise fun a b => Leads rows (· ∈ a.rows) (· ∈ b.rows) := by
  obtain ⟨p, hp, hp'⟩ := mem_foldersOf.mp hroot
  have hleads := leads_directories configured hostHome p.2
  rw [hp', (byRoot_filed hostHome hn rows).items p hp] at hleads
  refine hleads.imp_of_mem fun {a b} _ hb h => h.of_filter.congr (fun _ _ h => h) fun row _ hrow => ⟨?_, hrow⟩
  have hkey : root.key = p.1 := by
    rw [← hp']
    exact key_byRoot rows p hp
  exact decide_eq_true ((mem_directory_rows hn hroot hb hrow).2.2.trans hkey)

end

/-- So do derived roots. -/
theorem leads_derived (rows : List (SessionTreeRow R)) :
    (foldersOf [] hostHome rows).Pairwise fun a b => Leads rows (· ∈ a.rows) (· ∈ b.rows) := by
  have hfiled : Filed Bucket.rows (rootKey [] hostHome rows) [] rows (byRoot [] hostHome rows) :=
    @byRoot_filed _ [] hostHome List.nodup_nil rows
  rw [foldersOf, List.pairwise_map]
  refine hfiled.leads.imp fun {p p'} h => h.congr ?_ ?_
  · exact fun row _ hrow => (perm_directories [] hostHome p.2).mem_iff.mpr hrow
  · exact fun row _ hrow => (perm_directories [] hostHome p'.2).mem_iff.mp hrow

/-- A row whose directory is known is under the longest registered root around it. -/
theorem rootKey_longest (hostHome : Option Text) (rows : List (SessionTreeRow R)) (hc : configured ≠ [])
    {row : SessionTreeRow R} (htracked : row.untracked = false) (hpath : row.folderPath ≠ untrackedPath) :
    (rootKey configured hostHome rows row = OTHER_ROOT ∧
        ∀ key ∈ configured.map (·.key), ¬ Around key (directoryKey row.folderPath hostHome)) ∨
      (rootKey configured hostHome rows row ∈ configured.map (·.key) ∧
        Around (rootKey configured hostHome rows row) (directoryKey row.folderPath hostHome) ∧
        ∀ key ∈ configured.map (·.key), Around key (directoryKey row.folderPath hostHome) →
          key = rootKey configured hostHome rows row ∨
            key.length < (rootKey configured hostHome rows row).length) := by
  have hbest := bestRoot_isBest (directoryKey row.folderPath hostHome) configured
  have hplace : rootKey configured hostHome rows row =
      ((bestRootForPath row.folderPath hostHome configured).elim otherPlacement
        fun root => ⟨root.key, root.label⟩).key := by
    rw [rootKey, placement, htracked, if_neg Bool.false_ne_true, placeRow, if_neg hc]
    cases bestRootForPath row.folderPath hostHome configured <;> rfl
  rw [hplace, bestRootForPath, if_neg hpath]
  cases hb : configured.foldl (bestRoot (directoryKey row.folderPath hostHome)) none with
  | none =>
    rw [hb] at hbest
    refine .inl ⟨rfl, fun key hkey => ?_⟩
    obtain ⟨root, hroot, rfl⟩ := List.mem_map.mp hkey
    exact hbest root hroot
  | some best =>
    rw [hb] at hbest
    obtain ⟨hmem, haround, hmax⟩ := hbest
    refine .inr ⟨List.mem_map_of_mem hmem, haround, fun key hkey hkeyAround => ?_⟩
    obtain ⟨root, hroot, rfl⟩ := List.mem_map.mp hkey
    rcases (hmax root hroot hkeyAround).eq_or_lt with hlen | hlt
    · exact .inl (haround.eq_of_length hkeyAround hlen)
    · exact .inr hlt

/-! ## The guarantee -/

/-- The keys of the valid registered roots, each at its first place. -/
def registeredKeys (roots : List Text) (home : Option Text) : List Text :=
  ((roots.filterMap normaliseRootPath).map (directoryKey · home)).eraseDups

/-- What the tree of a list is. `home` is the directory that `~` stands for. -/
structure Arranged (sessions : List (SessionSummary R)) (home : Option Text) (roots : List Text)
    (tree : List (SessionRootFolder R)) : Prop where
  keys : (tree.map (·.key)).Nodup ∧ ∀ root ∈ tree, (root.directories.map (·.key)).Nodup
  all : (tree.flatMap (·.sessions)).Perm sessions
  /-- Every session is in one directory of one root. -/
  once : ∀ session ∈ sessions, ∃ root ∈ tree, ∃ dir ∈ root.directories, session ∈ dir.sessions ∧
    ∀ root' ∈ tree, ∀ dir' ∈ root'.directories, session ∈ dir'.sessions → root' = root ∧ dir' = dir
  inOrder : ∀ root ∈ tree, ∀ dir ∈ root.directories, dir.sessions ≠ [] ∧ dir.sessions.Sublist sessions
  directories : ∀ root ∈ tree, root.directories.Pairwise fun a b =>
    Leads sessions (· ∈ a.sessions) (· ∈ b.sessions)
  derived : registeredKeys roots home = [] → (tree.filter (!·.other)).Pairwise fun a b =>
    Leads sessions (· ∈ a.sessions) (· ∈ b.sessions)
  registered : registeredKeys roots home ≠ [] →
    (tree.filter (!·.other)).map (·.key) = registeredKeys roots home
  otherLast : tree = tree.filter (!·.other) ++ tree.filter (·.other) ∧ (tree.filter (·.other)).length ≤ 1
  /-- With registered roots a known directory is under the longest one around it. -/
  longest : registeredKeys roots home ≠ [] → ∀ root ∈ tree, ∀ session ∈ root.sessions,
    groupingPath session ≠ untrackedPath →
      let key := directoryKey (groupingPath session) home
      (root.other = true ↔ ∀ registered ∈ registeredKeys roots home, ¬ Around registered key) ∧
        (root.other = false → root.key ∈ registeredKeys roots home ∧ Around root.key key ∧
          ∀ registered ∈ registeredKeys roots home, Around registered key →
            registered = root.key ∨ registered.length < root.key.length)

theorem resolveRoots_eq_nil {home : Option Text} : resolveRoots roots home = [] ↔ registeredKeys roots home = [] := by
  rw [registeredKeys, ← keys_resolveRoots, List.map_eq_nil_iff]

/-- For every list, home and registered roots. -/
theorem tree_arranged (sessions : List (SessionSummary R)) (hostHome : Option Text) (roots : List Text) :
    Arranged sessions (resolvedHome sessions hostHome) roots
      (groupSessionsIntoRoots sessions hostHome roots) := by
  have htree := groupSessionsIntoRoots_eq sessions hostHome roots
  dsimp only at htree
  rw [htree]
  generalize resolvedHome sessions hostHome = home
  have hn := nodup_resolveRoots roots home
  have ho := other_not_resolved roots home
  have hkeys : (resolveRoots roots home).map (·.key) = registeredKeys roots home := keys_resolveRoots roots home
  set configured := resolveRoots roots home with hconfigured
  set folders := foldersOf configured home (buildRows sessions) with hfolders
  have hperm : (folders.filter (!·.other) ++ folders.filter (·.other)).Perm folders :=
    List.perm_append_comm.trans (List.filter_append_perm _ folders)
  have hmem : ∀ {root}, root ∈ folders.filter (!·.other) ++ folders.filter (·.other) → root ∈ folders :=
    fun h => hperm.mem_iff.mp h
  have hrooted : (folders.filter (!·.other) ++ folders.filter (·.other)).filter (!·.other) =
      folders.filter (!·.other) := by
    rw [List.filter_append, List.filter_filter, List.filter_filter]
    simp
  have hbucket : (folders.filter (!·.other) ++ folders.filter (·.other)).filter (·.other) =
      folders.filter (·.other) := by
    rw [List.filter_append, List.filter_filter, List.filter_filter]
    simp
  have hbuilt : ∀ {root dir}, root ∈ folders → dir ∈ root.directories → ∀ row ∈ dir.rows,
      row ∈ buildRows sessions :=
    fun hroot hdir row hrow => (mem_directory_rows hn hroot hdir hrow).1
  refine ⟨?keys, ?all, ?once, ?inOrder, ?directories, ?derived, ?registered, ?otherLast, ?longest⟩
  case keys =>
    refine ⟨(hperm.map _).nodup_iff.mpr (nodup_foldersOf hn), fun root hroot => ?_⟩
    obtain ⟨p, -, rfl⟩ := mem_foldersOf.mp (hmem hroot)
    exact nodup_directories p.2
  case all => exact (hperm.flatMap_right _).trans (sessions_foldersOf hn)
  case once =>
    intro session hsession
    have hrow : rowOf (folderCounts sessions) session ∈ buildRows sessions := List.mem_map_of_mem hsession
    obtain ⟨root, hroot, dir, hdir, hrow⟩ := exists_place hn home hrow
    refine ⟨root, hperm.mem_iff.mpr hroot, dir, hdir, (mem_sessions_iff (hbuilt hroot hdir)).mpr hrow, ?_⟩
    intro root' hroot' dir' hdir' hsession'
    have hrow' := (mem_sessions_iff (hbuilt (hmem hroot') hdir')).mp hsession'
    exact place_unique hn hroot hdir hrow (hmem hroot') hdir' hrow'
  case inOrder =>
    intro root hroot dir hdir
    obtain ⟨hrows, hne⟩ := directory_rows hn (hmem hroot) hdir
    refine ⟨fun h => hne (List.map_eq_nil_iff.mp h), ?_⟩
    have hsub : (dir.rows.map (·.session)).Sublist ((buildRows sessions).map (·.session)) := by
      rw [hrows]
      exact List.filter_sublist.map _
    rwa [map_session_buildRows] at hsub
  case directories =>
    intro root hroot
    refine (leads_placed hn (hmem hroot)).imp_of_mem fun ha hb h => ?_
    exact Leads.of_rows (hbuilt (hmem hroot) ha) (hbuilt (hmem hroot) hb) h
  case derived =>
    intro hnone
    have hc : configured = [] := resolveRoots_eq_nil.mpr hnone
    rw [hrooted]
    refine List.Pairwise.filter _ ?_
    have hleads : folders.Pairwise fun a b =>
        Leads (buildRows sessions) (· ∈ a.rows) (· ∈ b.rows) := by
      rw [hfolders, hc]
      exact leads_derived (buildRows sessions)
    have hrows : ∀ root ∈ folders, ∀ row ∈ root.rows, row ∈ buildRows sessions := by
      intro root hroot row hrow
      obtain ⟨dir, hdir, hrow⟩ := List.mem_flatMap.mp hrow
      exact hbuilt hroot hdir row hrow
    refine hleads.imp_of_mem fun {a b} ha hb h => ?_
    rw [sessions_eq_rows, sessions_eq_rows]
    exact Leads.of_rows (hrows a ha) (hrows b hb) h
  case registered =>
    intro hsome
    rw [hrooted, ← hkeys]
    exact keys_rooted home hn ho (fun hc => hsome (resolveRoots_eq_nil.mp hc)) (buildRows sessions)
  case otherLast =>
    rw [hrooted, hbucket]
    refine ⟨rfl, ?_⟩
    have hsame : (folders.filter (·.other)).map (·.key) =
        List.replicate (folders.filter (·.other)).length OTHER_ROOT := by
      refine List.eq_replicate_iff.mpr ⟨List.length_map _, fun key hkey => ?_⟩
      obtain ⟨root, hroot, rfl⟩ := List.mem_map.mp hkey
      obtain ⟨hroot, hother⟩ := List.mem_filter.mp hroot
      exact (other_iff hroot).mp hother
    have hnodup : ((folders.filter (·.other)).map (·.key)).Nodup :=
      ((nodup_foldersOf hn).sublist (List.filter_sublist.map _))
    rw [hsame] at hnodup
    exact List.nodup_replicate.mp hnodup
  case longest =>
    intro hsome root hroot session hsession hknown
    have hc : configured ≠ [] := fun hc => hsome (resolveRoots_eq_nil.mp hc)
    rw [sessions_eq_rows] at hsession
    obtain ⟨row, hrow, rfl⟩ := List.mem_map.mp hsession
    obtain ⟨dir, hdir, hrow⟩ := List.mem_flatMap.mp hrow
    obtain ⟨hbuiltRow, -, hkey⟩ := mem_directory_rows hn (hmem hroot) hdir hrow
    have hrow := mem_buildRows hbuiltRow
    have hpath : row.folderPath = groupingPath row.session := by rw [hrow]; rfl
    have htracked : row.untracked = false := by
      rw [hrow]
      exact decide_eq_false hknown
    have hlongest := rootKey_longest home (buildRows sessions) hc htracked
      (hpath ▸ hknown)
    rw [hkey, hkeys, hpath] at hlongest
    have hother := other_iff (hmem hroot)
    dsimp only
    rcases hlongest with ⟨hbucketKey, hnone⟩ | ⟨hregistered, haround, hmax⟩
    · refine ⟨⟨fun _ => hnone, fun _ => hother.mpr hbucketKey⟩, fun hnot => ?_⟩
      rw [hother.mpr hbucketKey] at hnot
      cases hnot
    · refine ⟨⟨fun h => ?_, fun hnone => absurd haround (hnone _ hregistered)⟩,
        fun _ => ⟨hregistered, haround, hmax⟩⟩
      exact absurd (hkeys ▸ (hother.mp h ▸ hregistered)) ho

end PocketShell.SessionTree
