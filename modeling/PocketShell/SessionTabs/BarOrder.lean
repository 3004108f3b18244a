import PocketShell.SessionTabs.Bar

/-!
# What a drag shows

A drag gives an order in which one id has moved within its kind, and the bar of that order is the
bar that was dragged, as long as it has no tool tab (`drag_shown`). A tool tab is in no group of
`applyTabOrder`, so any order loses it (`drag_loses_tool`).
-/

namespace PocketShell.SessionTabs.Bar

open Js (Text ascii)

/-! ## 1. An element moved within a list -/

section Moved

variable {α β : Type} {l : List α} {i j : Nat} {x : α}

theorem filter_insertIdx {p : α → Bool} (hx : p x = false) :
    (l.insertIdx j x).filter p = l.filter p := by
  induction l generalizing j with
  | nil => cases j <;> simp [hx]
  | cons y l ih => cases j <;> simp [List.filter_cons, hx, ih]

theorem filter_eraseIdx {p : α → Bool} (hi : l[i]? = some x) (hx : p x = false) :
    (l.eraseIdx i).filter p = l.filter p := by
  induction l generalizing i with
  | nil => simp
  | cons y l ih =>
    cases i with
    | zero =>
      obtain rfl : y = x := by simpa using hi
      simp [hx]
    | succ i => simp [List.filter_cons, ih (by simpa using hi)]

theorem moved_perm (hi : l[i]? = some x) (hj : j < l.length) :
    ((l.eraseIdx i).insertIdx j x).Perm l := by
  obtain ⟨hlt, rfl⟩ := List.getElem?_eq_some_iff.mp hi
  have hlength : j ≤ (l.eraseIdx i).length := by
    rw [List.length_eraseIdx_of_lt hlt]
    omega
  exact (List.perm_insertIdx _ _ hlength).trans (List.getElem_cons_eraseIdx_perm hlt)

/-- A move within a stretch on which `f` is constant is not seen by `f`. -/
theorem map_moved {f : α → β} {first last : Nat} (hlast : last < l.length)
    (hconst : ∀ m, first ≤ m → m ≤ last → l[m]?.map f = some (f x))
    (hi : first ≤ i ∧ i ≤ last) (hj : first ≤ j ∧ j ≤ last) :
    ((l.eraseIdx i).insertIdx j x).map f = l.map f := by
  have hlength : (l.eraseIdx i).length = l.length - 1 := List.length_eraseIdx_of_lt (by omega)
  refine List.ext_getElem? fun m => ?_
  rw [List.getElem?_map, List.getElem?_map, List.getElem?_insertIdx, hlength]
  split
  · rw [List.getElem?_eraseIdx]
    split
    · rfl
    · rw [hconst (m + 1) (by omega) (by omega), hconst m (by omega) (by omega)]
  split
  · rename_i hmj
    rw [if_pos (by omega), hconst m (by omega) (by omega), Option.map_some]
  · rw [List.getElem?_eraseIdx]
    split
    · rw [hconst (m - 1) (by omega) (by omega), hconst m (by omega) (by omega)]
    · rw [show m - 1 + 1 = m by omega]

theorem takeWhile_spec (p : α → Bool) (l : List α) :
    (∀ k < (l.takeWhile p).length, ∃ y, l[k]? = some y ∧ p y = true) ∧
      ∀ y, l[(l.takeWhile p).length]? = some y → p y = false := by
  induction l with
  | nil => simp
  | cons y l ih =>
    rw [List.takeWhile_cons]
    cases hy : p y with
    | false => simp [hy]
    | true =>
      refine ⟨fun k hk => ?_, fun z hz => ih.2 z (by simpa using hz)⟩
      cases k with
      | zero => exact ⟨y, rfl, hy⟩
      | succ k => exact ih.1 k (by simpa using hk)

end Moved

/-! ## 2. The groups of a bar -/

/-- Where the kind is on the bar. -/
def TabKind.place : TabKind → Nat
  | .session => 0
  | .files => 1
  | .tool => 2

theorem TabKind.place_inj {k k' : TabKind} (h : k.place = k'.place) : k = k' := by
  cases k <;> cases k' <;> simp_all [TabKind.place]

/-- Session tabs, then Files tabs, then tool tabs. -/
def Arranged (tabs : List Tab) : Prop := tabs.Pairwise fun a b => a.kind.place ≤ b.kind.place

instance : DecidablePred Arranged := fun tabs => inferInstanceAs (Decidable (tabs.Pairwise _))

def Toolless (tabs : List Tab) : Prop := ∀ tab ∈ tabs, tab.kind ≠ .tool

/-- `moved` is the bar with one tab at another place of its kind. -/
structure MovedWithin (tabs : List Tab) (id : Text) (moved : List Tab) : Prop where
  perm : moved.Perm tabs
  kinds : moved.map (·.kind) = tabs.map (·.kind)
  others : moved.filter (·.id ≠ id) = tabs.filter (·.id ≠ id)

variable {tabs : List Tab}

/-- The group of a tab goes from the first of its kind to the last. -/
theorem group_bounds (harranged : Arranged tabs) {i first : Nat} {tab : Tab}
    (hi : tabs[i]? = some tab) (hfirst : tabs.findIdx (·.kind = tab.kind) = first) :
    first ≤ i ∧ i ≤ lastOfKind tabs tab.kind first ∧
      lastOfKind tabs tab.kind first < tabs.length ∧
      ∀ m, first ≤ m → m ≤ lastOfKind tabs tab.kind first →
        tabs[m]?.map (·.kind) = some tab.kind := by
  obtain ⟨hlt, heq⟩ := List.getElem?_eq_some_iff.mp hi
  have hle : first ≤ i := by
    by_contra hgt
    have hnot := List.not_of_lt_findIdx (hfirst ▸ not_le.mp hgt)
    simp [heq] at hnot
  have hfirstKind : tabs[first].kind = tab.kind := by
    have hfound := List.findIdx_getElem (w := hfirst ▸ lt_of_le_of_lt hle hlt)
    simpa [hfirst] using hfound
  obtain ⟨hgroup, hend⟩ := takeWhile_spec (·.kind = tab.kind) (tabs.drop first)
  unfold lastOfKind
  generalize ((tabs.drop first).takeWhile (·.kind = tab.kind)).length = n at hgroup hend ⊢
  simp only [List.getElem?_drop] at hgroup hend
  have hpos : 0 < n := by
    by_contra hzero
    obtain rfl : n = 0 := by omega
    have hfalse := hend tabs[first] (by simp)
    simp [hfirstKind] at hfalse
  have hlast : first + n - 1 < tabs.length := by
    obtain ⟨y, hy, -⟩ := hgroup (n - 1) (by omega)
    have hbound := (List.getElem?_eq_some_iff.mp hy).1
    omega
  refine ⟨hle, ?_, hlast, fun m hm hm' => ?_⟩
  · by_contra hgt
    have hmid : first + n < tabs.length := by omega
    have hother := hend tabs[first + n] (List.getElem?_eq_getElem hmid)
    -- The bar does not come back to a kind that it has left.
    have hbefore : tabs[first].kind.place ≤ tabs[first + n].kind.place :=
      List.pairwise_iff_getElem.mp harranged first (first + n) _ hmid (by omega)
    have hafter : tabs[first + n].kind.place ≤ tabs[i].kind.place := by
      rcases Nat.lt_or_eq_of_le (show first + n ≤ i by omega) with hlt' | rfl
      · exact List.pairwise_iff_getElem.mp harranged (first + n) i hmid hlt hlt'
      · exact le_rfl
    have hsame : tabs[first + n].kind = tab.kind := by
      refine TabKind.place_inj (le_antisymm ?_ ?_)
      · rw [← heq]; exact hafter
      · rw [← hfirstKind]; exact hbefore
    simp [hsame] at hother
  · obtain ⟨y, hy, hkind⟩ := hgroup (m - first) (by omega)
    rw [show first + (m - first) = m by omega] at hy
    simpa [hy] using hkind

/-- An order that is returned is a move within the kind. -/
theorem reorderTabs_moved (harranged : Arranged tabs) {id : Text} {gap : Int}
    {next : List Text} (h : reorderTabs tabs id gap = some next) :
    ∃ moved, MovedWithin tabs id moved ∧ next = moved.map (·.id) := by
  unfold reorderTabs at h
  split at h
  · cases h
  rename_i start hstart
  split at h
  · cases h
  rename_i moving hmoving
  dsimp only at h
  generalize hfirst : tabs.findIdx (·.kind = moving.kind) = first at h
  obtain ⟨hle, hle', hlast, hkinds⟩ := group_bounds harranged hmoving hfirst
  generalize lastOfKind tabs moving.kind first = last at h hle' hlast hkinds
  generalize htarget : (if (max (first : Int) (min (last + 1 : Int) gap)).toNat > start
    then (max (first : Int) (min (last + 1 : Int) gap)).toNat - 1
    else (max (first : Int) (min (last + 1 : Int) gap)).toNat) = target at h
  have hbounds : first ≤ target ∧ target ≤ last := by
    subst htarget
    split <;> omega
  split at h
  · cases h
  have hid : moving.id = id := by
    obtain ⟨hlt, hfound, -⟩ := List.findIdx?_eq_some_iff_getElem.mp hstart
    rw [List.getElem?_eq_getElem hlt] at hmoving
    simpa [Option.some.inj hmoving] using hfound
  refine ⟨(tabs.eraseIdx start).insertIdx target moving, ⟨?_, ?_, ?_⟩, (Option.some.inj h).symm⟩
  · exact moved_perm hmoving (by omega)
  · exact map_moved hlast hkinds ⟨hle, hle'⟩ hbounds
  · rw [filter_insertIdx (by simp [hid]), filter_eraseIdx hmoving (by simp [hid])]

/-! ## 3. The order that is shown -/

theorem Arranged.of_kinds {tabs moved : List Tab} (h : Arranged tabs)
    (hkinds : moved.map (·.kind) = tabs.map (·.kind)) : Arranged moved := by
  have hmap : ∀ l : List Tab, Arranged l ↔
      (l.map (·.kind)).Pairwise fun a b => a.place ≤ b.place := by
    intro l
    rw [List.pairwise_map]
    rfl
  rw [hmap, hkinds]
  exact (hmap tabs).mp h

/-- A bar without tool tabs is its session tabs and its Files tabs. -/
theorem groups_append (h : Arranged tabs) (htools : Toolless tabs) :
    tabs.filter (·.kind = .session) ++ tabs.filter (·.kind = .files) = tabs := by
  induction tabs with
  | nil => rfl
  | cons tab tabs ih =>
    obtain ⟨hfirst, hrest⟩ := List.pairwise_cons.mp h
    have hsplit := ih hrest fun other hother => htools other (List.mem_cons_of_mem _ hother)
    cases hkind : tab.kind with
    | session => simp [hkind, hsplit]
    | files =>
      have hnone : tabs.filter (·.kind = .session) = [] := by
        refine List.filter_eq_nil_iff.mpr fun other hother => ?_
        have hplace := hfirst other hother
        intro hsession
        simp [hkind, of_decide_eq_true hsession, TabKind.place] at hplace
      rw [hnone] at hsplit
      simpa [hkind, hnone] using hsplit
    | tool => exact absurd hkind (htools tab List.mem_cons_self)

theorem applyTabOrder_perm {order : List Text} :
    (applyTabOrder tabs order).Perm tabs ↔ order = [] ∨ Toolless tabs := by
  unfold applyTabOrder
  split
  · rename_i hempty
    simp [hempty]
  rename_i hsome
  have hsorted := (List.mergeSort_perm (tabs.filter (·.kind = .session))
      (fun a b => decide (tabRank order a.id ≤ tabRank order b.id))).append
    (List.mergeSort_perm (tabs.filter (·.kind = .files))
      fun a b => decide (tabRank order a.id ≤ tabRank order b.id))
  refine ⟨fun hperm => .inr fun tab htab htool => ?_, fun h => ?_⟩
  · have hmem := (hperm.trans (List.Perm.refl _)).mem_iff.mpr htab
    have hgroups := hsorted.mem_iff.mp hmem
    simp [htool] at hgroups
  · refine hsorted.trans ?_
    have hfiles : tabs.filter (·.kind = .files) = tabs.filter (fun tab => !decide (tab.kind = .session)) := by
      refine List.filter_congr fun tab htab => ?_
      have hne := h.resolve_left hsome tab htab
      cases hkind : tab.kind <;> simp_all
    rw [hfiles]
    exact List.filter_append_perm _ tabs

theorem ranked (hids : (tabs.map (·.id)).Nodup) : tabs.Pairwise fun a b =>
      tabRank (tabs.map (·.id)) a.id ≤ tabRank (tabs.map (·.id)) b.id := by
  refine List.pairwise_iff_getElem.mpr fun i j hi hj hlt => ?_
  have hrank : ∀ m (hm : m < tabs.length), tabRank (tabs.map (·.id)) tabs[m].id = m := by
    intro m hm
    have hat := hids.idxOf_getElem m (by simpa using hm)
    simpa [tabRank] using hat
  rw [hrank i hi, hrank j hj]
  omega

/-- A group that is sorted by the order of `moved` is the group of `moved`. -/
theorem sort_group {tabs moved : List Tab} (hperm : moved.Perm tabs)
    (hids : (moved.map (·.id)).Nodup) (p : Tab → Bool) :
    (tabs.filter p).mergeSort (fun a b => decide (tabRank (moved.map (·.id)) a.id ≤
      tabRank (moved.map (·.id)) b.id)) = moved.filter p := by
  have hgroup := List.mergeSort_perm (tabs.filter p) fun a b =>
    decide (tabRank (moved.map (·.id)) a.id ≤ tabRank (moved.map (·.id)) b.id)
  have hsorted := @List.pairwise_mergeSort Tab (fun a b =>
      decide (tabRank (moved.map (·.id)) a.id ≤ tabRank (moved.map (·.id)) b.id))
    (fun a b c hab hbc => by simp only [decide_eq_true_eq] at *; omega)
    (fun a b => by simp only [Bool.or_eq_true, decide_eq_true_eq]; omega) (tabs.filter p)
  refine @List.Perm.eq_of_pairwise Tab (fun a b =>
    tabRank (moved.map (·.id)) a.id ≤ tabRank (moved.map (·.id)) b.id) _ _ ?_ ?_ ?_ ?_
  · -- Two tabs of one rank have one id, and so are one.
    intro a b ha hb hab hba
    have ha' : a ∈ moved := hperm.mem_iff.mpr (List.mem_filter.mp (hgroup.mem_iff.mp ha)).1
    have hb' : b ∈ moved := (List.mem_filter.mp hb).1
    have hrank := le_antisymm hab hba
    have hid : a.id = b.id := (List.idxOf_inj (List.mem_map_of_mem ha')).mp hrank
    exact List.inj_on_of_nodup_map hids ha' hb' hid
  · exact hsorted.imp fun hle => of_decide_eq_true hle
  · exact (ranked hids).sublist List.filter_sublist
  · exact hgroup.trans (hperm.symm.filter p)

theorem applyTabOrder_moved {id : Text} {moved : List Tab}
    (h : MovedWithin tabs id moved) (harranged : Arranged tabs)
    (hids : (tabs.map (·.id)).Nodup) (hsome : moved ≠ []) :
    applyTabOrder tabs (moved.map (·.id)) = moved ↔ Toolless tabs := by
  constructor
  · intro hshown
    have hperm : (applyTabOrder tabs (moved.map (·.id))).Perm tabs := by
      rw [hshown]
      exact h.perm
    exact (applyTabOrder_perm.mp hperm).resolve_left (by simpa using hsome)
  · intro htools
    have hids' : (moved.map (·.id)).Nodup := (h.perm.map (·.id)).nodup_iff.mpr hids
    unfold applyTabOrder
    rw [if_neg (by simpa using hsome)]
    dsimp only
    rw [sort_group h.perm hids', sort_group h.perm hids']
    exact groups_append (harranged.of_kinds h.kinds) fun tab htab =>
      htools tab (h.perm.mem_iff.mp htab)

/-- What a returned order shows on a bar. -/
def Shown (tabs : List Tab) (id : Text) (next : List Text) : Prop :=
  ∃ moved, MovedWithin tabs id moved ∧ next = moved.map (·.id) ∧
    (applyTabOrder tabs next = moved ↔ Toolless tabs)

theorem reorderTabs_shown (harranged : Arranged tabs)
    (hids : (tabs.map (·.id)).Nodup) {id : Text} {gap : Int} {next : List Text}
    (h : reorderTabs tabs id gap = some next) : Shown tabs id next := by
  obtain ⟨moved, hmoved, rfl⟩ := reorderTabs_moved harranged h
  refine ⟨moved, hmoved, rfl, applyTabOrder_moved hmoved harranged hids ?_⟩
  rintro rfl
  obtain rfl := hmoved.perm.nil_eq
  simp [reorderTabs] at h

/-- On a bar of distinct ids: every order shows each tab just when the bar has no tool tab or there
is no order. An order that a drag or a step gives moves one id within its kind, and is shown just
when the bar has no tool tab. -/
theorem drag_shown (tabs : List Tab) (harranged : Arranged tabs)
    (hids : (tabs.map (·.id)).Nodup) :
    (∀ order, (applyTabOrder tabs order).Perm tabs ↔ order = [] ∨ Toolless tabs) ∧
      (∀ id gap next, reorderTabs tabs id gap = some next → Shown tabs id next) ∧
      ∀ id right next, nudgeTabOrder tabs id right = some next → Shown tabs id next := by
  refine ⟨fun order => applyTabOrder_perm, fun id gap next h => reorderTabs_shown harranged hids h,
    fun id right next h => ?_⟩
  unfold nudgeTabOrder at h
  split at h
  · cases h
  · exact reorderTabs_shown harranged hids h

/-- The second of two sessions is dragged in front of the first. -/
theorem drag_shown_sessions :
    Shown [⟨.session, ascii "a"⟩, ⟨.session, ascii "b"⟩, ⟨.files, ascii "f"⟩] (ascii "b")
      [ascii "b", ascii "a", ascii "f"] :=
  (drag_shown [⟨.session, ascii "a"⟩, ⟨.session, ascii "b"⟩, ⟨.files, ascii "f"⟩]
    (by decide) (by decide)).2.1 (ascii "b") 0 _ (by decide)

/-- A tool tab is on the bar. Once there is an order it is on the bar no more. -/
theorem drag_loses_tool :
    reorderTabs [⟨.session, ascii "a"⟩, ⟨.session, ascii "b"⟩, ⟨.tool, ascii "t"⟩] (ascii "b") 0 =
      some [ascii "b", ascii "a", ascii "t"] ∧
    ¬ (applyTabOrder [⟨.session, ascii "a"⟩, ⟨.session, ascii "b"⟩, ⟨.tool, ascii "t"⟩]
      [ascii "b", ascii "a", ascii "t"]).Perm
        [⟨.session, ascii "a"⟩, ⟨.session, ascii "b"⟩, ⟨.tool, ascii "t"⟩] := by
  refine ⟨by decide, fun hperm => ?_⟩
  have htools := (applyTabOrder_perm.mp hperm).resolve_left (by simp)
  exact htools ⟨.tool, ascii "t"⟩ (by simp) rfl

end PocketShell.SessionTabs.Bar
