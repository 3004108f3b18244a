import PocketShell.Js.Grouped
import PocketShell.SessionTree.FolderOrder

/-!
# A dragged order is shown and kept

What `reorderFolders` returns shows the dragged arrangement. It is shown after it was stored as
long as what the limits leave of it shows it.

* `dragged`: the arrangement that was dragged.
* `applyFolderOrder_sublist`: what a part of the keys of an arrangement shows.
* `readBack_hosts`: what is left of the stored rankings.
* `dragged_order`: the order that is shown, and when it is still shown after a restart.
-/

namespace PocketShell.SessionTree

open Js (Text Json JsNumber ascii property keys)
open Workspaces (protoKey)

/-! ## The arrangement -/

section

variable {α : Type} {p : α → Bool} {l before after : List α} {moving : α} {gap : Nat}

/-- What has `p` in a gap of the list, and the others in their order. -/
def intoGap (p : α → Bool) (gap : Nat) (l : List α) : List α :=
  (l.take gap).filter (!p ·) ++ l.filter p ++ (l.drop gap).filter (!p ·)

theorem intoGap_none (h : ∀ a ∈ l, p a = false) : intoGap p gap l = l := by
  have hothers : ∀ part : List α, part.Sublist l → part.filter (!p ·) = part := fun part hpart =>
    List.filter_eq_self.mpr fun a ha => by simp [h a (hpart.subset ha)]
  have hnone : l.filter p = [] := List.filter_eq_nil_iff.mpr fun a ha => by simp [h a ha]
  unfold intoGap
  rw [hothers _ (List.take_sublist _ _), hothers _ (List.drop_sublist _ _), hnone, List.append_nil,
    List.take_append_drop]

theorem intoGap_perm : (intoGap p gap l).Perm l := by
  have hsplit : l.filter (!p ·) = (l.take gap).filter (!p ·) ++ (l.drop gap).filter (!p ·) := by
    rw [← List.filter_append, List.take_append_drop]
  unfold intoGap
  refine (List.perm_append_comm.append_right _).trans ?_
  rw [List.append_assoc, ← hsplit]
  exact List.filter_append_perm p l

theorem insertIdx_length_append (a : α) : ∀ before after : List α,
    (before ++ after).insertIdx before.length a = before ++ a :: after
  | [], _ => rfl
  | _ :: before, after => congrArg (List.cons _) (insertIdx_length_append a before after)

/-- The gap of a row that is taken out first. -/
theorem moved_intoGap (hmoving : p moving = true) (hbefore : ∀ a ∈ before, p a = false)
    (hafter : ∀ a ∈ after, p a = false) (hgap : gap ≤ (before ++ moving :: after).length) :
    ((before ++ moving :: after).eraseIdx before.length).insertIdx
      (if before.length < gap then gap - 1 else gap) moving = intoGap p gap (before ++ moving :: after) := by
  have hout : (before ++ moving :: after).eraseIdx before.length = before ++ after := by
    rw [List.eraseIdx_append_of_length_le le_rfl, Nat.sub_self]
    rfl
  have hothers : ∀ part : List α, (∀ a ∈ part, p a = false) → part.filter (!p ·) = part := fun part hpart =>
    List.filter_eq_self.mpr fun a ha => by simp [hpart a ha]
  have hone : (before ++ moving :: after).filter p = [moving] := by
    rw [List.filter_append, List.filter_cons_of_pos hmoving,
      List.filter_eq_nil_iff.mpr fun a ha => by simp [hbefore a ha],
      List.filter_eq_nil_iff.mpr fun a ha => by simp [hafter a ha]]
    rfl
  rw [hout]
  unfold intoGap
  rw [hone]
  rw [List.length_append, List.length_cons] at hgap
  split
  · -- The gap is after the row: some of what follows goes in front of it.
    next hlt =>
    obtain ⟨passed, rest, rfl, rfl⟩ : ∃ passed rest, after = passed ++ rest ∧
        gap = (before ++ moving :: passed).length := by
      refine ⟨after.take (gap - before.length - 1), after.drop (gap - before.length - 1),
        (List.take_append_drop _ _).symm, ?_⟩
      rw [List.length_append, List.length_cons, List.length_take]
      omega
    have hsplit : before ++ moving :: (passed ++ rest) = (before ++ moving :: passed) ++ rest := by simp
    have hplace : (before ++ moving :: passed).length - 1 = (before ++ passed).length := by simp
    rw [hsplit, List.take_left, List.drop_left, hplace, ← List.append_assoc, insertIdx_length_append,
      List.filter_append, List.filter_cons_of_neg (by simp [hmoving]), hothers before hbefore,
      hothers passed fun a ha => hafter a (List.mem_append_left _ ha),
      hothers rest fun a ha => hafter a (List.mem_append_right _ ha)]
    simp
  · -- The gap is in front of the row: so does the row.
    next hle =>
    obtain ⟨first, passed, rfl, rfl⟩ : ∃ first passed, before = first ++ passed ∧ gap = first.length :=
      ⟨before.take gap, before.drop gap, (List.take_append_drop _ _).symm, by rw [List.length_take]; omega⟩
    rw [List.append_assoc first passed after, insertIdx_length_append, List.append_assoc first passed,
      List.append_assoc (List.filter _ _), List.take_left, List.drop_left,
      List.filter_append, List.filter_cons_of_neg (by simp [hmoving]),
      hothers first fun a ha => hbefore a (List.mem_append_left _ ha),
      hothers passed fun a ha => hbefore a (List.mem_append_right _ ha), hothers after hafter]
    simp

end

section

variable {R : Type} {roots : List (SessionRootFolder R)} {fromKey : Text} {toIndex : Int}

/-- The arrangement that is dragged: the folder is in its gap, the others keep their order. -/
def dragged (roots : List (SessionRootFolder R)) (fromKey : Text) (toIndex : Int) : List (SessionRootFolder R) :=
  roots.map fun root =>
    { root with
      directories := intoGap (·.key = fromKey) (max 0 (min (root.directories.length : Int) toIndex)).toNat
        root.directories }

theorem nodup_ofRoot (hkeys : (folderKeys roots).Nodup) {root : SessionRootFolder R} (hroot : root ∈ roots) :
    (root.directories.map (·.key)).Nodup := (List.nodup_flatMap.mp hkeys).1 root hroot

/-- One root has the key. -/
theorem owner_unique (hkeys : (folderKeys roots).Nodup) {i j : Nat} {a b : SessionRootFolder R}
    (hi : roots[i]? = some a) (hj : roots[j]? = some b) {key : Text} (ha : key ∈ a.directories.map (·.key))
    (hb : key ∈ b.directories.map (·.key)) : i = j := by
  obtain ⟨hilt, rfl⟩ := List.getElem?_eq_some_iff.mp hi
  obtain ⟨hjlt, rfl⟩ := List.getElem?_eq_some_iff.mp hj
  have hdisjoint := List.pairwise_iff_getElem.mp (List.nodup_flatMap.mp hkeys).2
  rcases Nat.lt_trichotomy i j with hlt | rfl | hlt
  · exact absurd hb (hdisjoint i j hilt hjlt hlt ha)
  · rfl
  · exact absurd ha (hdisjoint j i hjlt hilt hlt hb)

/-- The rows on both sides of the one with the key. -/
theorem split_directories {directories : List (SessionDirectory R)} (hkeys : (directories.map (·.key)).Nodup)
    {moving : SessionDirectory R}
    (h : directories[directories.findIdx (·.key = fromKey)]? = some moving) :
    ∃ before after, directories = before ++ moving :: after ∧
      before.length = directories.findIdx (·.key = fromKey) ∧ moving.key = fromKey ∧
      (∀ dir ∈ before, decide (dir.key = fromKey) = false) ∧ ∀ dir ∈ after, decide (dir.key = fromKey) = false := by
  obtain ⟨hlt, hat⟩ := List.getElem?_eq_some_iff.mp h
  have hmoving : moving.key = fromKey := hat ▸ of_decide_eq_true (List.findIdx_getElem (w := hlt))
  have hsplit : directories = directories.take (directories.findIdx (·.key = fromKey)) ++
      moving :: directories.drop (directories.findIdx (·.key = fromKey) + 1) := by
    rw [← hat, List.cons_getElem_drop_succ, List.take_append_drop]
  refine ⟨_, _, hsplit, ?_, hmoving, fun dir hdir => ?_, fun dir hdir => ?_⟩
  · rw [List.length_take]
    omega
  · obtain ⟨k, hk, rfl⟩ := List.mem_take_iff_getElem.mp hdir
    exact List.not_of_lt_findIdx (Nat.lt_of_lt_of_le hk (Nat.min_le_left _ _))
  · rw [hsplit, List.map_append, List.map_cons] at hkeys
    have hnew := (List.nodup_cons.mp (List.nodup_append.mp hkeys).2.1).1
    exact decide_eq_false fun hkey => hnew (List.mem_map.mpr ⟨dir, hdir, hkey.trans hmoving.symm⟩)

theorem reorderFolders_mem {next : List Text} (h : reorderFolders roots fromKey toIndex = some next) :
    fromKey ∈ folderKeys roots := by
  unfold reorderFolders at h
  split at h
  · cases h
  next at' hat =>
  obtain ⟨hlt, hany, -⟩ := List.findIdx?_eq_some_iff_getElem.mp hat
  obtain ⟨dir, hdir, hkey⟩ := List.any_eq_true.mp hany
  exact List.mem_flatMap.mpr ⟨_, List.getElem_mem hlt, List.mem_map.mpr ⟨dir, hdir, of_decide_eq_true hkey⟩⟩

/-- The order of a drag is that of the arrangement. -/
theorem reorderFolders_some (hkeys : (folderKeys roots).Nodup) {next : List Text}
    (h : reorderFolders roots fromKey toIndex = some next) : next = folderKeys (dragged roots fromKey toIndex) := by
  unfold reorderFolders at h
  split at h
  · cases h
  next at' hat =>
  split at h
  · cases h
  next owner howner =>
  dsimp only at h
  split at h
  · cases h
  next moving hmoving =>
  obtain ⟨-, h⟩ := Option.ite_none_left_eq_some.mp h
  obtain rfl := Option.some.inj h
  obtain ⟨before, after, hsplit, hstart, hkey, hbefore, hafter⟩ :=
    split_directories (nodup_ofRoot hkeys (List.mem_of_getElem? howner)) hmoving
  have hset : dragged roots fromKey toIndex = roots.set at' { owner with
      directories := intoGap (·.key = fromKey) (max 0 (min (owner.directories.length : Int) toIndex)).toNat
        owner.directories } := by
    refine List.ext_getElem? fun i => ?_
    unfold dragged
    rw [List.getElem?_map, List.getElem?_set]
    split
    · next heq =>
      obtain ⟨hlt, -⟩ := List.getElem?_eq_some_iff.mp howner
      rw [if_pos hlt, ← heq, howner]
      rfl
    · next hne =>
      cases hother : roots[i]? with
      | none => rfl
      | some other =>
        have hnone : ∀ dir ∈ other.directories, decide (dir.key = fromKey) = false := fun dir hdir =>
          decide_eq_false fun hdirKey => hne (owner_unique hkeys howner hother
            (List.mem_map.mpr ⟨moving, List.mem_of_getElem? hmoving, hkey⟩) (List.mem_map.mpr ⟨dir, hdir, hdirKey⟩))
        rw [Option.map_some, intoGap_none hnone]
  rw [hset, ← hstart, hsplit]
  refine congrArg (fun directories => folderKeys (roots.set at' { owner with directories })) ?_
  refine moved_intoGap (decide_eq_true hkey) hbefore hafter ?_
  omega

/-! ## What a ranking shows -/

/-- The roots with their folders arranged. -/
def arranged (arrange : SessionRootFolder R → List (SessionDirectory R)) (roots : List (SessionRootFolder R)) :
    List (SessionRootFolder R) :=
  roots.map fun root => { root with directories := arrange root }

theorem applyFolderOrder_eq (roots : List (SessionRootFolder R)) (order : List Text) :
    applyFolderOrder roots order = arranged (fun root => Js.sortByRank (·.key) order root.directories) roots := by
  unfold applyFolderOrder
  split
  · next hnil =>
    subst hnil
    unfold arranged
    simp only [Js.sortByRank_nil]
    exact (List.map_id roots).symm
  · rfl

section

variable {arrange : SessionRootFolder R → List (SessionDirectory R)}

theorem arranged_congr {arrange' : SessionRootFolder R → List (SessionDirectory R)} :
    arranged arrange roots = arranged arrange' roots ↔ ∀ root ∈ roots, arrange root = arrange' root := by
  unfold arranged
  rw [List.map_inj_left]
  refine forall₂_congr fun root _ => ⟨congrArg SessionRootFolder.directories, fun h => ?_⟩
  rw [h]

theorem folderKeys_arranged (roots : List (SessionRootFolder R)) :
    folderKeys (arranged arrange roots) = roots.flatMap fun root => (arrange root).map (·.key) := by
  unfold folderKeys arranged
  rw [List.flatMap_map]

theorem folderKeys_perm (hperm : ∀ root ∈ roots, (arrange root).Perm root.directories) :
    (folderKeys (arranged arrange roots)).Perm (folderKeys roots) := by
  rw [folderKeys_arranged]
  exact List.Perm.flatMap_left roots fun root hroot => (hperm root hroot).map _

/-- A part of the keys of an arrangement shows what it ranks as it is arranged, and then the
others as they are listed. -/
theorem applyFolderOrder_sublist (hkeys : (folderKeys roots).Nodup)
    (hperm : ∀ root ∈ roots, (arrange root).Perm root.directories) {kept : List Text}
    (hkept : kept.Sublist (folderKeys (arranged arrange roots))) :
    applyFolderOrder roots kept = arranged (fun root =>
      (arrange root).filter (fun dir => Js.isRanked kept dir.key) ++
        root.directories.filter fun dir => !Js.isRanked kept dir.key) roots := by
  have hnodup := (folderKeys_perm hperm).nodup_iff.mpr hkeys
  have horder : kept.Nodup := hkept.nodup hnodup
  rw [applyFolderOrder_eq]
  refine arranged_congr.mpr fun root hroot => ?_
  have hpart : ((arrange root).map (·.key)).Sublist (folderKeys (arranged arrange roots)) := by
    rw [folderKeys_arranged, List.flatMap_def]
    exact List.sublist_flatten_of_mem (List.mem_map_of_mem hroot)
  have hplaces := hpart.filter (Js.isRanked kept)
  rw [Js.filter_sublist_eq hkept hnodup fun _ => Js.isRanked_iff horder] at hplaces
  exact Js.sort_ranked horder (nodup_ofRoot hkeys hroot) (hperm root hroot) hplaces

/-- All of its keys show the arrangement. -/
theorem applyFolderOrder_arranged (hkeys : (folderKeys roots).Nodup)
    (hperm : ∀ root ∈ roots, (arrange root).Perm root.directories) :
    applyFolderOrder roots (folderKeys (arranged arrange roots)) = arranged arrange roots := by
  have hnodup := (folderKeys_perm hperm).nodup_iff.mpr hkeys
  rw [applyFolderOrder_sublist hkeys hperm (List.Sublist.refl _)]
  refine arranged_congr.mpr fun root hroot => ?_
  have hranked : ∀ dir ∈ arrange root, Js.isRanked (folderKeys (arranged arrange roots)) dir.key = true := by
    intro dir hdir
    refine (Js.isRanked_iff hnodup).mpr ?_
    rw [folderKeys_arranged]
    exact List.mem_flatMap.mpr ⟨root, hroot, List.mem_map_of_mem hdir⟩
  have hrest : root.directories.filter (fun dir => !Js.isRanked (folderKeys (arranged arrange roots)) dir.key) =
      [] := List.filter_eq_nil_iff.mpr fun dir hdir => by
    simp [hranked dir ((hperm root hroot).mem_iff.mpr hdir)]
  rw [List.filter_eq_self.mpr hranked, hrest, List.append_nil]

end

/-- The folders of each root are permuted, and nothing else changes. -/
def PermutedWithin (shown listed : List (SessionRootFolder R)) : Prop :=
  List.Forall₂ (fun root root' => root.directories.Perm root'.directories ∧
    root = { root' with directories := root.directories }) shown listed

theorem permutedWithin_arranged {arrange : SessionRootFolder R → List (SessionDirectory R)}
    (hperm : ∀ root ∈ roots, (arrange root).Perm root.directories) :
    PermutedWithin (arranged arrange roots) roots := by
  unfold PermutedWithin arranged
  rw [List.forall₂_map_left_iff]
  exact List.forall₂_same.mpr fun root hroot => ⟨hperm root hroot, rfl⟩

/-- The folders of a root as they were dragged. -/
def dropped (order : List Text) (fromKey : Text) (toIndex : Int) (root : SessionRootFolder R) :
    List (SessionDirectory R) :=
  intoGap (·.key = fromKey) (max 0 (min (root.directories.length : Int) toIndex)).toNat
    (Js.sortByRank (·.key) order root.directories)

theorem dropped_perm (order : List Text) (root : SessionRootFolder R) :
    (dropped order fromKey toIndex root).Perm root.directories :=
  intoGap_perm.trans (Js.sortByRank_perm _)

theorem dragged_applied (roots : List (SessionRootFolder R)) (order : List Text) :
    dragged (applyFolderOrder roots order) fromKey toIndex = arranged (dropped order fromKey toIndex) roots := by
  unfold dragged dropped
  rw [applyFolderOrder_eq]
  unfold arranged
  rw [List.map_map]
  refine List.map_congr_left fun root _ => ?_
  simp only [Function.comp_apply, (Js.sortByRank_perm root.directories).length_eq]

end

/-! ## What is left of the stored rankings -/

/-- What is taken of the keys of a host. -/
def placed (order : List Text) : List Text := ((order.filter (· ≠ [])).eraseDups).take FOLDER_ORDER_MAX_ROWS

/-- A host that keeps a ranking, with what is left of it. -/
def placedEntry (p : Text × List Text) : Option (Text × List Text) :=
  if placed p.2 = [] then none else some (p.1, placed p.2)

section

variable {N : Type}

theorem placed_snoc (order : List Text) (key : Text) :
    placed (order ++ [key]) = if FOLDER_ORDER_MAX_ROWS ≤ (placed order).length then placed order
      else if key = [] || (placed order).any (· = key) then placed order else placed order ++ [key] := by
  unfold placed
  rw [List.filter_append, List.length_take]
  by_cases hkey : key = []
  · rw [List.filter_cons_of_neg (by simp [hkey])]
    simp [hkey]
  rw [List.filter_cons_of_pos (by simp [hkey]), List.filter_nil, Js.eraseDups_snoc]
  generalize order.filter (· ≠ []) = kept
  by_cases hfull : FOLDER_ORDER_MAX_ROWS ≤ kept.eraseDups.length
  · rw [if_pos (le_min le_rfl hfull)]
    split
    · rfl
    · exact List.take_append_of_le_length hfull
  · have hall : kept.eraseDups.take FOLDER_ORDER_MAX_ROWS = kept.eraseDups :=
      List.take_of_length_le (not_le.mp hfull).le
    have hmem : kept.eraseDups.any (· = key) = true ↔ key ∈ kept := by simp
    rw [if_neg fun hle => hfull (le_min_iff.mp hle).2, hall]
    by_cases hold : key ∈ kept
    · rw [if_pos hold, if_pos (by rw [hmem.mpr hold]; simp), hall]
    · rw [if_neg hold, if_neg (by rw [Bool.or_eq_true, hmem]; simp [hkey, hold]), List.take_of_length_le]
      rw [List.length_append, List.length_singleton]
      omega

theorem placedKeys_str (order : List Text) : placedKeys (order.map (Json.str : Text → Json N)) = placed order := by
  induction order using List.reverseRecOn with
  | nil => rfl
  | append_singleton order key ih =>
    rw [placed_snoc, ← ih]
    unfold placedKeys
    rw [List.map_append, List.foldl_append, List.map_singleton, List.foldl_cons, List.foldl_nil, Js.Json.view_str]

theorem normaliseHost_arr (out : FolderOrder) {host : Text} (hhost : host ≠ []) (hproto : host ≠ protoKey)
    (hnew : host ∉ keys out.hosts) (order : List Text) :
    (normaliseHost out (host, (Json.arr (order.map Json.str) : Json N))).hosts =
      out.hosts ++ (placedEntry (host, order)).toList.take (FOLDER_ORDER_MAX_HOSTS - out.hosts.length) := by
  unfold normaliseHost placedEntry
  rw [Js.Json.view_arr]
  simp only [placedKeys_str, if_neg hhost]
  split
  · next hfull => rw [Nat.sub_eq_zero_of_le hfull, List.take_zero, List.append_nil]
  · next hroom =>
    split
    · rw [Option.toList_none, List.take_nil, List.append_nil]
    · unfold FolderOrder.assign
      rw [dif_pos ⟨hhost, hproto⟩, Option.toList_some, List.take_of_length_le (by simp; omega)]
      exact Js.assign_new hnew

/-- The hosts that keep a ranking, up to a limit. -/
theorem foldl_normaliseHost : ∀ {entries : List (Text × List Text)} {out : FolderOrder},
    (keys (out.hosts ++ entries)).Nodup → (∀ host ∈ keys entries, host ≠ [] ∧ host ≠ protoKey) →
      ((entries.map fun p => (p.1, (Json.arr (p.2.map Json.str) : Json N))).foldl normaliseHost out).hosts =
        out.hosts ++ (entries.filterMap placedEntry).take (FOLDER_ORDER_MAX_HOSTS - out.hosts.length)
  | [], out, _, _ => by simp
  | (host, order) :: entries, out, hnodup, hnamed => by
    obtain ⟨⟨hhost, hproto⟩, hrest⟩ := List.forall_mem_cons.mp hnamed
    have hsplit : (keys out.hosts ++ host :: keys entries).Nodup := by
      simpa [keys] using hnodup
    have hnew : host ∉ keys out.hosts := fun hmem =>
      (List.nodup_append.mp hsplit).2.2 host hmem host List.mem_cons_self rfl
    have hhosts := @normaliseHost_arr N out host hhost hproto hnew order
    have hentry : (keys ((placedEntry (host, order)).toList.take (FOLDER_ORDER_MAX_HOSTS - out.hosts.length))).Sublist
        [host] := by
      refine ((List.take_sublist _ _).map Prod.fst).trans ?_
      unfold placedEntry
      split <;> simp
    have hnext : (keys ((normaliseHost out (host, (Json.arr (order.map Json.str) : Json N))).hosts ++
        entries)).Nodup := by
      rw [hhosts]
      refine hsplit.sublist ?_
      simp only [keys, List.map_append, List.append_assoc]
      exact (List.Sublist.refl _).append (hentry.append (List.Sublist.refl _))
    rw [List.map_cons, List.foldl_cons, foldl_normaliseHost hnext hrest, hhosts, List.append_assoc]
    refine congrArg (out.hosts ++ ·) ?_
    rw [List.length_append, ← Nat.sub_sub]
    generalize FOLDER_ORDER_MAX_HOSTS - out.hosts.length = room
    cases hentry : placedEntry (host, order) with
    | none => rw [List.filterMap_cons_none hentry, Option.toList_none, List.take_nil]; rfl
    | some entry =>
      rw [List.filterMap_cons_some hentry, Option.toList_some]
      cases room with
      | zero => simp
      | succ room => simp

theorem toJson_written [JsNumber N] (values : FolderOrder) : (values.toJson N).written = values.toJson N := by
  refine Js.Json.written_obj_self _ fun p hp => ?_
  obtain ⟨entry, -, rfl⟩ := List.mem_map.mp hp
  refine Js.Json.written_arr_self fun item hitem => ?_
  obtain ⟨key, -, rfl⟩ := List.mem_map.mp hitem
  rfl

/-- What the next start has of the stored rankings. -/
theorem readBack_hosts (N : Type) [JsNumber N] (values : FolderOrder) :
    (readBack N values).hosts =
      ((Js.ownOrder values.hosts).filterMap placedEntry).take FOLDER_ORDER_MAX_HOSTS := by
  have hown : Js.ownOrder (values.members N) = (Js.ownOrder values.hosts).map fun p =>
      (p.1, (Json.arr (p.2.map Json.str) : Json N)) := by
    have hmap := Js.ownOrder_map (fun order : List Text => (Json.arr (order.map Json.str) : Json N))
      (Js.ownOrder values.hosts)
    rw [Js.ownOrder_ownOrder] at hmap
    exact hmap
  have hperm := Js.ownOrder_perm values.hosts
  have hread : readBack N values = (Js.ownOrder (values.members N)).foldl normaliseHost .empty := by
    unfold readBack
    rw [Js.JSON.parse_stringify, toJson_written, Option.bind_some]
    unfold normaliseFolderOrder FolderOrder.toJson
    rw [Js.Json.view_obj]
    rfl
  rw [hread, hown, foldl_normaliseHost]
  · rfl
  · exact (hperm.map Prod.fst).nodup_iff.mpr values.once
  · exact fun host hhost => values.named host ((hperm.map Prod.fst).mem_iff.mp hhost)

end

/-! ## What is shown after a restart -/

/-- The host is among those that keep a ranking. -/
def remembers (values : FolderOrder) (host : Text) (order : List Text) : Bool :=
  ((Js.ownOrder (Js.assign host order values.hosts)).filter (fun p => p.2.any (· ≠ []))).take
    FOLDER_ORDER_MAX_HOSTS |>.any (·.1 = host)

/-- The keys that keep a rank. -/
def kept (values : FolderOrder) (host : Text) (order : List Text) : List Text :=
  if remembers values host order then (order.filter (· ≠ [])).take FOLDER_ORDER_MAX_ROWS else []

section

variable {R : Type} {roots : List (SessionRootFolder R)} {values : FolderOrder} {host : Text} {order : List Text}

theorem placed_eq (h : order.Nodup) : placed order = (order.filter (· ≠ [])).take FOLDER_ORDER_MAX_ROWS := by
  unfold placed
  rw [Js.eraseDups_of_nodup (h.filter _)]

theorem placed_nil (order : List Text) : placed order = [] ↔ order.any (· ≠ []) = false := by
  unfold placed
  rw [List.any_eq_false]
  constructor
  · intro h key hkey hne
    have hmem : key ∈ (order.filter (· ≠ [])).eraseDups := List.mem_eraseDups.mpr (List.mem_filter.mpr ⟨hkey, hne⟩)
    rcases List.take_eq_nil_iff.mp h with hzero | hnil
    · cases hzero
    · rw [hnil] at hmem
      cases hmem
  · intro h
    rw [List.filter_eq_nil_iff.mpr h]
    rfl

theorem filterMap_placedEntry (entries : List (Text × List Text)) :
    entries.filterMap placedEntry =
      (entries.filter fun p => p.2.any (· ≠ [])).map fun p => (p.1, placed p.2) := by
  induction entries with
  | nil => rfl
  | cons p entries ih =>
    by_cases hp : placed p.2 = []
    · have hentry : placedEntry p = none := if_pos hp
      rw [List.filterMap_cons_none hentry, List.filter_cons_of_neg (by rw [(placed_nil _).mp hp]; simp), ih]
    · have hentry : placedEntry p = some (p.1, placed p.2) := if_neg hp
      have hany : p.2.any (· ≠ []) = true := by simpa using (placed_nil _).not.mp hp
      simp only [List.filterMap_cons_some hentry, List.filter_cons, hany, if_true, List.map_cons, ih]

/-- What the next start finds under a host whose order was set. -/
theorem property_readBack (N : Type) [JsNumber N] (hhost : host ≠ []) (hproto : host ≠ protoKey)
    (hsome : order ≠ []) (hnodup : order.Nodup) :
    property host (readBack N (setFolderOrder values host order)).hosts =
      if remembers values host order then some ((order.filter (· ≠ [])).take FOLDER_ORDER_MAX_ROWS) else none := by
  have hset : (setFolderOrder values host order).hosts = Js.assign host order values.hosts := by
    unfold setFolderOrder FolderOrder.assign
    rw [if_neg hhost, if_neg hsome, dif_pos ⟨hhost, hproto⟩]
  have honce : (keys (Js.assign host order values.hosts)).Nodup := Js.nodup_assign values.once
  rw [readBack_hosts, hset, filterMap_placedEntry, ← List.map_take]
  unfold remembers
  generalize hentries : (((Js.ownOrder (Js.assign host order values.hosts)).filter fun p =>
    p.2.any (· ≠ [])).take FOLDER_ORDER_MAX_HOSTS) = entries
  have hsub : entries.Sublist (Js.ownOrder (Js.assign host order values.hosts)) :=
    hentries ▸ (List.take_sublist _ _).trans List.filter_sublist
  have hkeys : keys (entries.map fun p => (p.1, placed p.2)) = keys entries := by
    unfold keys
    rw [List.map_map]
    rfl
  split
  · next hmem =>
    obtain ⟨p, hp, hkey⟩ := List.any_eq_true.mp hmem
    have horder : p.2 = order := by
      have hown : (p.1, p.2) ∈ Js.assign host order values.hosts :=
        (Js.ownOrder_perm _).mem_iff.mp (hsub.subset hp)
      have hfound := (Js.property_eq_some honce).mpr hown
      rw [of_decide_eq_true hkey, Js.property_assign_self] at hfound
      exact (Option.some.inj hfound).symm
    have hnodupKeys : (keys (entries.map fun p => (p.1, placed p.2))).Nodup := by
      rw [hkeys]
      exact (((Js.ownOrder_perm _).map Prod.fst).nodup_iff.mpr honce).sublist (hsub.map Prod.fst)
    refine (Js.property_eq_some hnodupKeys).mpr (List.mem_map.mpr ⟨p, hp, ?_⟩)
    rw [of_decide_eq_true hkey, horder, placed_eq hnodup]
  · next hnone =>
    refine Js.property_eq_none.mpr fun hmem => hnone ?_
    rw [hkeys] at hmem
    obtain ⟨p, hp, hkey⟩ := List.mem_map.mp hmem
    exact List.any_eq_true.mpr ⟨p, hp, decide_eq_true hkey⟩

/-- The arrangement is shown by what is kept of its keys: in each root what is not kept comes last,
as it is listed. -/
structure StillShown (values : FolderOrder) (host : Text) (shown listed : List (SessionRootFolder R)) : Prop where
  named : host ≠ protoKey
  /-- A host without a ranking is not found under a name that every object has. -/
  plain : remembers values host (folderKeys shown) = false →
    ∀ length, property host objectPrototype = some length → length = some 0
  last : List.Forall₂ (fun root root' => root.directories =
    root.directories.filter (fun dir => (kept values host (folderKeys shown)).any (· = dir.key)) ++
      root'.directories.filter fun dir => !(kept values host (folderKeys shown)).any (· = dir.key)) shown listed

theorem kept_sublist : (kept values host order).Sublist order := by
  unfold kept
  split
  · exact (List.take_sublist _ _).trans List.filter_sublist
  · exact List.nil_sublist _

variable {arrange : SessionRootFolder R → List (SessionDirectory R)}

theorem last_iff (hkeys : (folderKeys roots).Nodup)
    (hperm : ∀ root ∈ roots, (arrange root).Perm root.directories) {ranking : List Text}
    (hranking : ranking.Sublist (folderKeys (arranged arrange roots))) :
    List.Forall₂ (fun root root' => root.directories =
      root.directories.filter (fun dir => ranking.any (· = dir.key)) ++
        root'.directories.filter fun dir => !ranking.any (· = dir.key)) (arranged arrange roots) roots ↔
      applyFolderOrder roots ranking = arranged arrange roots := by
  have horder : ranking.Nodup := hranking.nodup ((folderKeys_perm hperm).nodup_iff.mpr hkeys)
  have hranked : ∀ key, Js.isRanked ranking key = ranking.any (· = key) := fun key => by
    rw [Bool.eq_iff_iff, Js.isRanked_iff horder]
    simp
  rw [applyFolderOrder_sublist hkeys hperm hranking, eq_comm, arranged_congr]
  simp only [hranked]
  unfold arranged
  rw [List.forall₂_map_left_iff, List.forall₂_same]

theorem readBack_shown (N : Type) [JsNumber N] (hkeys : (folderKeys roots).Nodup)
    (hperm : ∀ root ∈ roots, (arrange root).Perm root.directories) (hhost : host ≠ [])
    (hsome : folderKeys (arranged arrange roots) ≠ []) :
    applyFound roots (folderOrderFor
      (readBack N (setFolderOrder values host (folderKeys (arranged arrange roots)))) host) =
        some (arranged arrange roots) ↔ StillShown values host (arranged arrange roots) roots := by
  have hnodup := (folderKeys_perm hperm).nodup_iff.mpr hkeys
  have hlast := last_iff hkeys hperm (@kept_sublist values host _)
  by_cases hproto : host = protoKey
  · have hnone : property host (readBack N (setFolderOrder values host (folderKeys (arranged arrange roots)))).hosts =
        none := Js.property_eq_none.mpr fun hmem => (FolderOrder.named _ host hmem).2 hproto
    have hinherited : property host objectPrototype = some none := hproto ▸ rfl
    unfold folderOrderFor
    rw [hnone, hinherited]
    refine iff_of_false (fun h => ?_) fun h => h.named hproto
    cases h
  have hfound := @property_readBack values host _ N _ hhost hproto hsome hnodup
  unfold folderOrderFor
  rw [hfound]
  cases hremembers : remembers values host (folderKeys (arranged arrange roots)) with
  | true =>
    have hkept : kept values host (folderKeys (arranged arrange roots)) =
        ((folderKeys (arranged arrange roots)).filter (· ≠ [])).take FOLDER_ORDER_MAX_ROWS := if_pos hremembers
    rw [hkept] at hlast
    rw [if_pos rfl]
    refine Option.some_inj.trans (hlast.symm.trans ⟨fun h => ⟨hproto, ?_, hkept ▸ h⟩, fun h => hkept ▸ h.last⟩)
    exact fun hfalse => absurd (hremembers.symm.trans hfalse) (by decide)
  | false =>
    have hkept : kept values host (folderKeys (arranged arrange roots)) = [] :=
      if_neg (by rw [hremembers]; decide)
    rw [hkept] at hlast
    have hroots : applyFolderOrder roots [] = roots := if_pos rfl
    rw [hroots] at hlast
    rw [if_neg (by decide)]
    dsimp only
    cases hinherited : property host objectPrototype with
    | none =>
      show some (applyFolderOrder roots []) = _ ↔ _
      rw [hroots]
      refine Option.some_inj.trans (hlast.symm.trans ⟨fun h => ⟨hproto, ?_, hkept ▸ h⟩, fun h => hkept ▸ h.last⟩)
      exact fun _ length hlength => absurd (hinherited.symm.trans hlength) (by simp)
    | some length =>
      show (if length = some 0 then some roots else none) = _ ↔ _
      by_cases hlength : length = some 0
      · rw [if_pos hlength]
        refine Option.some_inj.trans (hlast.symm.trans ⟨fun h => ⟨hproto, ?_, hkept ▸ h⟩, fun h => hkept ▸ h.last⟩)
        exact fun _ other hother => (Option.some.inj (hinherited.symm.trans hother)) ▸ hlength
      · rw [if_neg hlength]
        exact iff_of_false (by simp) fun h => hlength (h.plain hremembers length hinherited)

/-- Any order permutes folders within their roots. An order that a drag returns shows what was
dragged, of the listed roots and of those on the screen. It is still shown after it was stored
for a host and read back, exactly when it is shown by what is kept of its keys. -/
theorem dragged_order (N : Type) [JsNumber N] (roots : List (SessionRootFolder R))
    (hkeys : (folderKeys roots).Nodup) (order : List Text) :
    PermutedWithin (applyFolderOrder roots order) roots ∧
      ∀ fromKey toIndex next, reorderFolders (applyFolderOrder roots order) fromKey toIndex = some next →
        applyFolderOrder roots next = dragged (applyFolderOrder roots order) fromKey toIndex ∧
        applyFolderOrder (applyFolderOrder roots order) next =
          dragged (applyFolderOrder roots order) fromKey toIndex ∧
        ∀ values host, host ≠ [] →
          (applyFound roots (folderOrderFor (readBack N (setFolderOrder values host next)) host) =
              some (dragged (applyFolderOrder roots order) fromKey toIndex) ↔
            StillShown values host (dragged (applyFolderOrder roots order) fromKey toIndex) roots) := by
  have hsorted : ∀ root ∈ roots, (Js.sortByRank (·.key) order root.directories).Perm root.directories :=
    fun root _ => Js.sortByRank_perm _
  refine ⟨applyFolderOrder_eq roots order ▸ permutedWithin_arranged hsorted, fun fromKey toIndex next h => ?_⟩
  have hdropped : ∀ root ∈ roots, (dropped order fromKey toIndex root).Perm root.directories :=
    fun root _ => dropped_perm order root
  have hshown : (folderKeys (applyFolderOrder roots order)).Nodup := by
    rw [applyFolderOrder_eq]
    exact (folderKeys_perm hsorted).nodup_iff.mpr hkeys
  have hnext := reorderFolders_some hshown h
  have hsome : next ≠ [] := by
    have hmem : fromKey ∈ next := by
      rw [hnext]
      exact (folderKeys_perm fun root _ => intoGap_perm).mem_iff.mpr (reorderFolders_mem h)
    exact List.ne_nil_of_mem hmem
  have hscreen : applyFolderOrder (applyFolderOrder roots order) next =
      dragged (applyFolderOrder roots order) fromKey toIndex := by
    rw [hnext]
    exact applyFolderOrder_arranged hshown fun root _ => intoGap_perm
  rw [dragged_applied] at hnext hscreen ⊢
  refine ⟨?_, hscreen, fun values host hhost => ?_⟩
  · rw [hnext]
    exact applyFolderOrder_arranged hkeys hdropped
  · rw [hnext] at hsome ⊢
    exact readBack_shown N hkeys hdropped hhost hsome

end

/-! A root with three folders, of which the last is dragged to the top. -/

def plainFolder (key : Text) : SessionDirectory Unit :=
  { key, path := key, label := key, rows := [], mostRecentActivity := 0, active := false, untracked := false,
    inferredRoot := false }

def plainRoot (directories : List (SessionDirectory Unit)) : SessionRootFolder Unit :=
  { key := ascii "~", label := ascii "home", directories, sessionCount := 0, mostRecentActivity := 0,
    active := false, other := false, configured := false }

def threeFolders : List (SessionRootFolder Unit) :=
  [plainRoot [plainFolder (ascii "~/a"), plainFolder (ascii "~/b"), plainFolder (ascii "~/c")]]

theorem dragged_order_three :
    applyFolderOrder threeFolders [ascii "~/c", ascii "~/a", ascii "~/b"] =
      dragged (applyFolderOrder threeFolders []) (ascii "~/c") 0 :=
  ((dragged_order Js.Literal threeFolders (by decide) []).2 (ascii "~/c") 0
    [ascii "~/c", ascii "~/a", ascii "~/b"] (by decide +kernel)).1

/-- As many hosts with a ranking as are kept. -/
def manyHosts : FolderOrder :=
  { hosts := (List.range 64).map fun n => ([UInt16.ofNat (0x100 + n)], [ascii "~/a"])
    once := by decide
    named := by decide }

/-- The drag is shown, and not after it was stored for one host more or under `__proto__`. -/
theorem dragged_order_lost :
    reorderFolders threeFolders (ascii "~/c") 0 = some [ascii "~/c", ascii "~/a", ascii "~/b"] ∧
    applyFolderOrder threeFolders [ascii "~/c", ascii "~/a", ascii "~/b"] ≠ threeFolders ∧
    applyFound threeFolders (folderOrderFor (readBack Js.Literal
      (setFolderOrder manyHosts (ascii "box") [ascii "~/c", ascii "~/a", ascii "~/b"])) (ascii "box")) =
        some threeFolders ∧
    applyFound threeFolders (folderOrderFor (readBack Js.Literal
      (setFolderOrder .empty protoKey [ascii "~/c", ascii "~/a", ascii "~/b"])) protoKey) = none := by
  refine ⟨by decide +kernel, ?_, ?_, ?_⟩
  · have hshown : applyFolderOrder threeFolders (folderKeys (dragged threeFolders (ascii "~/c") 0)) =
        dragged threeFolders (ascii "~/c") 0 :=
      applyFolderOrder_arranged (by decide) fun root _ => intoGap_perm
    have hkeys : folderKeys (dragged threeFolders (ascii "~/c") 0) = [ascii "~/c", ascii "~/a", ascii "~/b"] := by
      decide
    rw [← hkeys, hshown]
    decide
  · have hfound := @property_readBack manyHosts (ascii "box") [ascii "~/c", ascii "~/a", ascii "~/b"] Js.Literal _
      (by decide) (by decide) (by decide) (by decide)
    have hforgotten : remembers manyHosts (ascii "box") [ascii "~/c", ascii "~/a", ascii "~/b"] = false := by
      decide +kernel
    have hplain : property (ascii "box") objectPrototype = none := by decide
    rw [hforgotten, if_neg (by decide)] at hfound
    unfold folderOrderFor
    rw [hfound, hplain]
    rfl
  · have hnone : property protoKey (readBack Js.Literal (setFolderOrder .empty protoKey
        [ascii "~/c", ascii "~/a", ascii "~/b"])).hosts = none :=
      Js.property_eq_none.mpr fun hmem => (FolderOrder.named _ protoKey hmem).2 rfl
    have hinherited : property protoKey objectPrototype = some none := by decide
    unfold folderOrderFor
    rw [hnone, hinherited]
    rfl

end PocketShell.SessionTree
