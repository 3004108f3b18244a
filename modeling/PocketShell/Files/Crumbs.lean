import PocketShell.Preview.Paths

/-!
# The breadcrumb of a directory

`buildCrumbs` shows the way from the root cell to the current folder in a strip of a given width:
whole names only, and one gap for what does not fit.

* `fill_spec`: how far the ancestors are shown.
* `buildCrumbs_trail`: nothing is lost.
* `breadcrumb_path`: what is shown at a width, and that a wider strip shows all that a narrower one does.
-/

namespace PocketShell.Files.Crumbs

open Js (Text ascii)
open Preview (slash split join inside)

/-! ## 1. The strip -/

structure CrumbTarget where
  name : Text
  path : Text

inductive Crumb
  | segment (target : CrumbTarget)
  | gap (hidden : List CrumbTarget)
  | current (target : CrumbTarget)

/-- The average advance of one character, rounded up. -/
def CRUMB_CHAR_PX : ℚ := 7

/-- The `/` between two cells, plus its margins. -/
def CRUMB_SEP_PX : ℚ := 9

/-- The `…` button, plus its padding. -/
def CRUMB_GAP_PX : ℚ := 13

/-- What a cell showing `name` costs, separator included. -/
def cellWidth (name : Text) : ℚ := name.length * CRUMB_CHAR_PX + CRUMB_SEP_PX

/-- What the cells of a row cost. -/
def cost (row : List CrumbTarget) : ℚ := (row.map fun target => cellWidth target.name).sum

/-- The cells below `base`, one for each name. -/
def descend (base : Text) : List Text → List CrumbTarget
  | [] => []
  | part :: parts => ⟨part, base ++ slash :: part⟩ :: descend (base ++ slash :: part) parts

/-- The ancestors from the right, until one does not fit: what is shown, and where that starts. -/
def fill (ancestors : List CrumbTarget) : Nat → ℚ → List CrumbTarget → Nat → List CrumbTarget × Nat
  | 0, _, shown, firstShown => (shown, firstShown)
  | i + 1, left, shown, firstShown =>
    match ancestors[i + 1]? with
    | none => (shown, firstShown)
    | some ancestor =>
      if left < cellWidth ancestor.name then (shown, firstShown)
      else fill ancestors i (left - cellWidth ancestor.name) (ancestor :: shown) (i + 1)

/-- The trail in a strip of the width; `none` is a strip that is not measured yet. -/
def fitCrumbs (root : CrumbTarget) (ancestors : List CrumbTarget) (current : CrumbTarget)
    (width : Option ℚ) : List Crumb :=
  match width with
  | none => ancestors.map .segment ++ [.current current]
  | some width =>
    if ancestors = [] ∨ cost (ancestors ++ [current]) ≤ width then
      ancestors.map .segment ++ [.current current]
    else
      let left := width - CRUMB_GAP_PX - CRUMB_SEP_PX - cellWidth current.name
      let head := if cellWidth root.name ≤ left then [root] else []
      let left := if cellWidth root.name ≤ left then left - cellWidth root.name else left
      let (shown, firstShown) := fill ancestors (ancestors.length - 1) left [] ancestors.length
      let hidden := (ancestors.take firstShown).drop head.length
      if hidden = [] then head.map .segment ++ shown.map .segment ++ [.current current]
      else head.map .segment ++ .gap hidden :: shown.map .segment ++ [.current current]

/-- Is the directory the home, or below it? -/
def inHome (cwd home : Text) : Bool := home ≠ [] && (cwd = home || (home ++ [slash]).isPrefixOf cwd)

def rootOf (cwd home : Text) : CrumbTarget :=
  if inHome cwd home then ⟨ascii "~", home⟩ else ⟨[slash], [slash]⟩

/-- The cells below the root cell. -/
def belowRoot (cwd home : Text) : List CrumbTarget :=
  let rest := if inHome cwd home then cwd.drop home.length else cwd
  descend (if inHome cwd home then home else []) ((split rest).filter (· ≠ []))

/-- The breadcrumb cells of an absolute path that fit the width on one line. -/
def buildCrumbs (cwd home : Text) (width : Option ℚ) : List Crumb :=
  let trail := rootOf cwd home :: belowRoot cwd home
  fitCrumbs (rootOf cwd home) trail.dropLast (trail.getLast (List.cons_ne_nil _ _)) width

/-! ## 2. What is asked -/

/-- An absolute directory without empty segments. -/
def Directory (path : Text) : Prop :=
  ∃ segments : List Text, (∀ s ∈ segments, s ≠ [] ∧ slash ∉ s) ∧ path = slash :: join segments

/-- Not known, or an absolute path without a slash at its end. -/
def Home (home : Text) : Prop := home = [] ∨ home.head? = some slash ∧ home.getLast? ≠ some slash

namespace Crumb

/-- What a cell stands for. -/
def targets : Crumb → List CrumbTarget
  | .segment target => [target]
  | .gap hidden => hidden
  | .current target => [target]

def isGap : Crumb → Bool
  | .gap _ => true
  | _ => false

def isCurrent : Crumb → Bool
  | .current _ => true
  | _ => false

/-- What a cell takes of the strip. -/
def width : Crumb → ℚ
  | .segment target => cellWidth target.name
  | .gap _ => CRUMB_GAP_PX + CRUMB_SEP_PX
  | .current target => cellWidth target.name

end Crumb

/-- The second directory is in the first. -/
def Child (parent child : CrumbTarget) : Prop :=
  child.path = inside parent.path ++ child.name ∧ child.name ≠ [] ∧ slash ∉ child.name

/-- The way from the root cell to the directory, one name at a time. -/
structure IsTrail (cwd home : Text) (trail : List CrumbTarget) : Prop where
  root : trail.head? = some (rootOf cwd home)
  steps : trail.IsChain Child
  last : trail.getLast?.map (·.path) = some cwd

structure Breadcrumb (cwd home : Text) (width : Option ℚ) (crumbs : List Crumb) : Prop where
  trail : IsTrail cwd home (crumbs.flatMap Crumb.targets)
  current : ∃ before target, crumbs = before ++ [.current target] ∧ target.path = cwd ∧
    ∀ crumb ∈ before, crumb.isCurrent = false
  gap : crumbs.countP Crumb.isGap ≤ 1
  fits : ∀ strip, width = some strip →
    (∀ target, .current target ∈ crumbs → CRUMB_GAP_PX + CRUMB_SEP_PX + cellWidth target.name ≤ strip) →
      (crumbs.map Crumb.width).sum ≤ strip
  whole : (∀ strip, width = some strip → cost (crumbs.flatMap Crumb.targets) ≤ strip) →
    ∀ crumb ∈ crumbs, crumb.isGap = false

/-- The folder has a cell of its own. -/
def Shows (crumbs : List Crumb) (target : CrumbTarget) : Prop :=
  .segment target ∈ crumbs ∨ .current target ∈ crumbs

/-- The second strip is as wide as the first, or wider. -/
def Wider (narrow wide : Option ℚ) : Prop :=
  ∀ strip, wide = some strip → ∃ strip', narrow = some strip' ∧ strip' ≤ strip

/-! ## 3. The loop over the ancestors -/

variable {ancestors row : List CrumbTarget} {root current target : CrumbTarget} {strip : ℚ}
  {width : Option ℚ}

theorem cellWidth_pos (name : Text) : 0 < cellWidth name := by
  unfold cellWidth CRUMB_CHAR_PX CRUMB_SEP_PX
  positivity

theorem cost_nonneg (row : List CrumbTarget) : 0 ≤ cost row :=
  List.sum_nonneg fun _ hcell => by
    obtain ⟨target, -, rfl⟩ := List.mem_map.mp hcell
    exact (cellWidth_pos target.name).le

theorem cost_append (row row' : List CrumbTarget) : cost (row ++ row') = cost row + cost row' := by
  unfold cost
  rw [List.map_append, List.sum_append]

theorem cost_cons (target : CrumbTarget) (row : List CrumbTarget) :
    cost (target :: row) = cellWidth target.name + cost row := by
  unfold cost
  rw [List.map_cons, List.sum_cons]

/-- What starts further to the right costs less. -/
theorem cost_drop_le {i j : Nat} (h : i ≤ j) : cost (row.drop j) ≤ cost (row.drop i) := by
  have hsplit : row.drop i = (row.drop i).take (j - i) ++ row.drop j := by
    have hdrop : (row.drop i).drop (j - i) = row.drop j := by
      rw [List.drop_drop, Nat.add_sub_cancel' h]
    rw [← hdrop, List.take_append_drop]
  rw [hsplit, cost_append]
  exact le_add_of_nonneg_left (cost_nonneg _)

/-- What is shown is the longest row from the right that fits. -/
theorem fill_spec (n : Nat) : ∀ left : ℚ, n < ancestors.length →
    ∃ k, 1 ≤ k ∧ k ≤ n + 1 ∧
      fill ancestors n left (ancestors.drop (n + 1)) (n + 1) = (ancestors.drop k, k) ∧
      (k ≤ n → cost (ancestors.drop k) ≤ left + cost (ancestors.drop (n + 1))) ∧
      ∀ j, 1 ≤ j → j < k → left + cost (ancestors.drop (n + 1)) < cost (ancestors.drop j) := by
  induction n with
  | zero => exact fun left _ => ⟨1, le_rfl, le_rfl, rfl, by omega, by omega⟩
  | succ n ih =>
    intro left hn
    have hdrop : ancestors.drop (n + 1) = ancestors[n + 1] :: ancestors.drop (n + 2) :=
      List.drop_eq_getElem_cons hn
    have hcost := congrArg cost hdrop
    rw [cost_cons] at hcost
    unfold fill
    rw [List.getElem?_eq_getElem hn]
    dsimp only
    split
    next hwide =>
      refine ⟨n + 2, by omega, le_rfl, rfl, by omega, fun j _ hj => ?_⟩
      have hle : cost (ancestors.drop (n + 1)) ≤ cost (ancestors.drop j) := cost_drop_le (by omega)
      linarith
    next hfits =>
      obtain ⟨k, hk, hkn, hfill, hsum, hmore⟩ := ih (left - cellWidth ancestors[n + 1].name) (by omega)
      have hbudget : left - cellWidth ancestors[n + 1].name + cost (ancestors.drop (n + 1)) =
          left + cost (ancestors.drop (n + 1 + 1)) := by
        rw [hcost]
        ring
      rw [hbudget] at hsum hmore
      rw [← hdrop]
      refine ⟨k, hk, by omega, hfill, fun _ => ?_, hmore⟩
      rcases Nat.lt_or_ge n k with hlast | hbefore
      · have hk : k = n + 1 := by omega
        rw [hk, hcost]
        linarith
      · exact hsum hbefore

/-! ## 4. The cells of a strip -/

/-- The first `h` ancestors, a gap, and the ancestors from the `k`th on. -/
def collapsed (ancestors : List CrumbTarget) (current : CrumbTarget) (h k : Nat) : List Crumb :=
  (ancestors.take h).map .segment ++
    (if (ancestors.take k).drop h = [] then [] else [.gap ((ancestors.take k).drop h)]) ++
    (ancestors.drop k).map .segment ++ [.current current]

/-- What is left of the strip beside the gap, the current folder and the first `h` ancestors. -/
def budget (ancestors : List CrumbTarget) (current : CrumbTarget) (strip : ℚ) (h : Nat) : ℚ :=
  strip - CRUMB_GAP_PX - CRUMB_SEP_PX - cellWidth current.name - cost (ancestors.take h)

structure Collapsed (ancestors : List CrumbTarget) (current : CrumbTarget) (strip : ℚ) (h k : Nat) : Prop where
  head : h ≤ 1
  first : 1 ≤ k
  last : k ≤ ancestors.length
  root : h = 1 ↔ cost (ancestors.take 1) ≤ budget ancestors current strip 0
  shown : k < ancestors.length → cost (ancestors.drop k) ≤ budget ancestors current strip h
  hidden : ∀ j, 1 ≤ j → j < k → budget ancestors current strip h < cost (ancestors.drop j)

theorem fitCrumbs_whole
    (h : ∀ strip, (some strip : Option ℚ) = width → ancestors = [] ∨ cost (ancestors ++ [current]) ≤ strip) :
    fitCrumbs root ancestors current width = ancestors.map .segment ++ [.current current] := by
  cases width with
  | none => rfl
  | some strip => exact if_pos (h strip rfl)

theorem fitCrumbs_collapsed (hroot : ancestors.head? = some root)
    (hwide : strip < cost (ancestors ++ [current])) :
    ∃ h k, fitCrumbs root ancestors current (some strip) = collapsed ancestors current h k ∧
      Collapsed ancestors current strip h k := by
  obtain ⟨below, rfl⟩ := List.head?_eq_some_iff.mp hroot
  have hfirst : cost ((root :: below).take 1) = cellWidth root.name := by
    rw [List.take_succ_cons, List.take_zero, cost_cons]
    exact add_zero _
  have hnone : cost ((root :: below).take 0) = 0 := rfl
  obtain ⟨h, hhead, hfits⟩ : ∃ h, h ≤ 1 ∧
      (h = 1 ↔ cellWidth root.name ≤ budget (root :: below) current strip 0) := by
    by_cases hfits : cellWidth root.name ≤ budget (root :: below) current strip 0
    · exact ⟨1, le_rfl, fun _ => hfits, fun _ => rfl⟩
    · exact ⟨0, Nat.zero_le _, fun h => absurd h (by decide), fun h => absurd h hfits⟩
  obtain ⟨k, hk, hlast, hfill, hshown, hhidden⟩ := @fill_spec (root :: below) below.length
    (budget (root :: below) current strip h) (by simp)
  have hend : (root :: below).drop (below.length + 1) = [] := List.drop_of_length_le le_rfl
  rw [hend] at hfill hshown hhidden
  have hnothing : cost ([] : List CrumbTarget) = 0 := rfl
  rw [hnothing, add_zero] at hshown hhidden
  refine ⟨h, k, ?_, hhead, hk, hlast, by rwa [hfirst],
    fun hlt => hshown (by simpa using Nat.le_of_lt_succ hlt), hhidden⟩
  have hbudget : budget (root :: below) current strip 0 =
      strip - CRUMB_GAP_PX - CRUMB_SEP_PX - cellWidth current.name := by
    rw [budget, hnone, sub_zero]
  have hleft : budget (root :: below) current strip h =
      if cellWidth root.name ≤ strip - CRUMB_GAP_PX - CRUMB_SEP_PX - cellWidth current.name then
        strip - CRUMB_GAP_PX - CRUMB_SEP_PX - cellWidth current.name - cellWidth root.name
      else strip - CRUMB_GAP_PX - CRUMB_SEP_PX - cellWidth current.name := by
    rw [← hbudget]
    split
    next hle => rw [hfits.mpr hle, hbudget, ← hfirst]; rfl
    next hle =>
      have hzero : h = 0 := by
        have hne : h ≠ 1 := fun hone => hle (hfits.mp hone)
        omega
      rw [hzero]
  have hcells : (if cellWidth root.name ≤ strip - CRUMB_GAP_PX - CRUMB_SEP_PX - cellWidth current.name then
      [root] else []) = (root :: below).take h := by
    rw [← hbudget]
    split
    next hle => rw [hfits.mpr hle]; rfl
    next hle =>
      have hzero : h = 0 := by
        have hne : h ≠ 1 := fun hone => hle (hfits.mp hone)
        omega
      rw [hzero]
      rfl
  have hcount : ((root :: below).take h).length = h := by
    rw [List.length_take, List.length_cons]
    omega
  unfold fitCrumbs
  dsimp only
  rw [if_neg (not_or.mpr ⟨List.cons_ne_nil _ _, not_le.mpr hwide⟩), hcells, ← hleft, hcount]
  have hlength : (root :: below).length - 1 = below.length := rfl
  rw [hlength, List.length_cons, hfill]
  dsimp only
  unfold collapsed
  split
  · rw [List.append_nil]
  · simp

/-! ## 5. What is shown -/

variable {h k : Nat}

theorem collapsed_targets (hk : h ≤ k) :
    (collapsed ancestors current h k).flatMap Crumb.targets = ancestors ++ [current] := by
  have hsegments : ∀ row : List CrumbTarget, (row.map Crumb.segment).flatMap Crumb.targets = row := by
    intro row
    rw [List.flatMap_map]
    exact List.flatMap_singleton' row
  have hgap : (if (ancestors.take k).drop h = [] then [] else [Crumb.gap ((ancestors.take k).drop h)]).flatMap
      Crumb.targets = (ancestors.take k).drop h := by
    split
    next hnil => rw [hnil]; rfl
    next => rw [List.flatMap_singleton]; rfl
  unfold collapsed
  rw [List.flatMap_append, List.flatMap_append, List.flatMap_append, hsegments, hsegments, hgap,
    List.flatMap_singleton]
  have htake : ancestors.take h ++ (ancestors.take k).drop h = ancestors.take k := by
    have hprefix : (ancestors.take k).take h = ancestors.take h := by
      rw [List.take_take, Nat.min_eq_left hk]
    rw [← hprefix, List.take_append_drop]
  rw [htake, List.take_append_drop]
  rfl

theorem collapsed_width : ((collapsed ancestors current h k).map Crumb.width).sum ≤
    cost (ancestors.take h) + (CRUMB_GAP_PX + CRUMB_SEP_PX) + cost (ancestors.drop k) + cellWidth current.name := by
  have hsegments : ∀ row : List CrumbTarget, ((row.map Crumb.segment).map Crumb.width).sum = cost row := by
    intro row
    rw [List.map_map]
    rfl
  have hgap : ((if (ancestors.take k).drop h = [] then [] else [Crumb.gap ((ancestors.take k).drop h)]).map
      Crumb.width).sum ≤ CRUMB_GAP_PX + CRUMB_SEP_PX := by
    split
    · norm_num [CRUMB_GAP_PX, CRUMB_SEP_PX]
    · rw [List.map_singleton, List.sum_singleton]
      exact le_rfl
  have hcurrent : ([Crumb.current current].map Crumb.width).sum = cellWidth current.name := by
    rw [List.map_singleton, List.sum_singleton]
    rfl
  unfold collapsed
  rw [List.map_append, List.map_append, List.map_append, List.sum_append, List.sum_append, List.sum_append,
    hsegments, hsegments, hcurrent]
  linarith

/-- The cells add up to the strip at most, if the gap and the current folder do. -/
theorem Collapsed.fits (hc : Collapsed ancestors current strip h k)
    (halone : CRUMB_GAP_PX + CRUMB_SEP_PX + cellWidth current.name ≤ strip) :
    ((collapsed ancestors current h k).map Crumb.width).sum ≤ strip := by
  refine collapsed_width.trans ?_
  have hhead : cost (ancestors.take h) ≤ strip - CRUMB_GAP_PX - CRUMB_SEP_PX - cellWidth current.name := by
    rcases Nat.lt_or_ge h 1 with hzero | hone
    · have hzero : h = 0 := by omega
      have hnothing : cost (ancestors.take 0) = 0 := rfl
      rw [hzero, hnothing]
      linarith
    · have hone : h = 1 := Nat.le_antisymm hc.head hone
      have hroot := hc.root.mp hone
      have hnothing : cost (ancestors.take 0) = 0 := rfl
      rw [budget, hnothing, sub_zero] at hroot
      rwa [hone]
  rcases Nat.lt_or_ge k ancestors.length with hlt | hge
  · have hshown := hc.shown hlt
    unfold budget at hshown
    linarith
  · have hnothing : cost (ancestors.drop k) = 0 := by
      rw [List.drop_of_length_le hge]
      rfl
    rw [hnothing]
    linarith

theorem mem_collapsed : Shows (collapsed ancestors current h k) target ↔
    target ∈ ancestors.take h ∨ target ∈ ancestors.drop k ∨ target = current := by
  have hgap : ∀ crumb ∈ (if (ancestors.take k).drop h = [] then [] else [Crumb.gap ((ancestors.take k).drop h)]),
      crumb.isGap = true := by
    intro crumb hcrumb
    split at hcrumb
    · cases hcrumb
    · rw [List.mem_singleton.mp hcrumb]
      rfl
  unfold Shows collapsed
  simp only [List.mem_append, List.mem_map, List.mem_singleton]
  constructor
  · rintro ((((⟨t, ht, he⟩ | hg) | ⟨t, ht, he⟩) | he) | (((⟨t, ht, he⟩ | hg) | ⟨t, ht, he⟩) | he))
    · cases he
      exact .inl ht
    · cases hgap _ hg
    · cases he
      exact .inr (.inl ht)
    · cases he
    · cases he
    · cases hgap _ hg
    · cases he
    · cases he
      exact .inr (.inr rfl)
  · rintro (ht | ht | rfl)
    · exact .inl (.inl (.inl (.inl ⟨target, ht, rfl⟩)))
    · exact .inl (.inl (.inr ⟨target, ht, rfl⟩))
    · exact .inr (.inr rfl)

/-- What a wider strip shows of the ancestors. -/
theorem Collapsed.wider {h k h' k' : Nat} {strip' : ℚ}
    (hnames : ∀ t ∈ ancestors, cellWidth root.name ≤ cellWidth t.name)
    (hroot : ancestors.head? = some root) (hc : Collapsed ancestors current strip h k)
    (hc' : Collapsed ancestors current strip' h' k') (hle : strip ≤ strip') : h ≤ h' ∧ k' ≤ k := by
  have hbudget : ∀ j, budget ancestors current strip j ≤ budget ancestors current strip' j := fun j => by
    unfold budget
    linarith
  have hhead : h ≤ h' := by
    rcases Nat.lt_or_ge h 1 with hzero | hone
    · omega
    · have hshown := hc.root.mp (Nat.le_antisymm hc.head hone)
      rw [hc'.root.mpr (hshown.trans (hbudget 0))]
      exact hc.head
  refine ⟨hhead, Nat.le_of_not_lt fun hlt => ?_⟩
  have hk : k < ancestors.length := Nat.lt_of_lt_of_le hlt hc'.last
  have hshown := hc.shown hk
  have hhidden := hc'.hidden k hc.first hlt
  rcases Nat.lt_or_ge h 1 with hzero | hone
  · -- the root cell did not fit, and no name costs less than it does
    have hzero : h = 0 := by omega
    obtain ⟨below, rfl⟩ := List.head?_eq_some_iff.mp hroot
    have hnot : ¬cost ((root :: below).take 1) ≤ budget (root :: below) current strip 0 := fun hfits => by
      have hone := hc.root.mpr hfits
      omega
    have hfirst : cost ((root :: below).take 1) = cellWidth root.name := by
      rw [List.take_succ_cons, List.take_zero, cost_cons]
      exact add_zero _
    have hcell : cellWidth root.name ≤ cost ((root :: below).drop k) := by
      rw [List.drop_eq_getElem_cons hk, cost_cons]
      exact (hnames _ (List.getElem_mem hk)).trans (le_add_of_nonneg_right (cost_nonneg _))
    rw [hzero] at hshown
    rw [hfirst] at hnot
    exact hnot (hcell.trans hshown)
  · have hone : h = h' := Nat.le_antisymm hhead (hc'.head.trans hone)
    rw [← hone] at hhidden
    exact absurd (hshown.trans (hbudget h)) (not_le.mpr hhidden)

/-! ## 6. The trail -/

variable {parts : List Text}

/-- A path of names in a directory, one below the other. -/
theorem descend_steps {base : Text} (hparts : ∀ s ∈ parts, s ≠ [] ∧ slash ∉ s) :
    ∀ root : CrumbTarget, inside root.path = base ++ [slash] →
      (root :: descend base parts).IsChain Child := by
  induction parts generalizing base with
  | nil => exact fun _ _ => .singleton _
  | cons part parts ih =>
    intro root hroot
    obtain ⟨hpart, hmore⟩ := List.forall_mem_cons.mp hparts
    have hchild : Child root ⟨part, base ++ slash :: part⟩ := by
      refine ⟨?_, hpart⟩
      rw [hroot, List.append_assoc]
      rfl
    refine .cons_cons hchild (ih hmore ⟨part, base ++ slash :: part⟩ ?_)
    have hlong : base ++ slash :: part ≠ [slash] := by
      intro he
      have hlength := congrArg List.length he
      have hpos := List.length_pos_iff.mpr hpart.1
      simp at hlength
      omega
    exact if_neg hlong

theorem descend_last : ∀ (base : Text) (root : CrumbTarget), root.path = base ∨ parts ≠ [] →
    ((root :: descend base parts).getLast (List.cons_ne_nil _ _)).path =
      base ++ parts.flatMap (slash :: ·) := by
  induction parts with
  | nil =>
    intro base root h
    rw [descend, List.getLast_singleton, List.flatMap_nil, List.append_nil]
    exact h.resolve_right fun h => h rfl
  | cons part parts ih =>
    intro base root _
    rw [descend, List.getLast_cons (List.cons_ne_nil _ _), ih (base ++ slash :: part) _ (.inl rfl),
      List.flatMap_cons, List.append_assoc]

theorem descend_names : ∀ base : Text, (descend base parts).map (·.name) = parts := by
  induction parts with
  | nil => exact fun _ => rfl
  | cons part parts ih => exact fun base => congrArg (part :: ·) (ih _)

theorem flatMap_join (hne : parts ≠ []) : parts.flatMap (slash :: ·) = slash :: join parts := by
  induction parts with
  | nil => exact absurd rfl hne
  | cons part parts ih =>
    rw [List.flatMap_cons]
    cases parts with
    | nil => simp [join]
    | cons next parts =>
      rw [ih (List.cons_ne_nil _ _), join, join, List.intercalate_cons_cons]
      simp

/-- What the path has below the root cell. -/
theorem belowRoot_parts {cwd home : Text} (hcwd : Directory cwd) (hhome : Home home) :
    ∃ base parts, belowRoot cwd home = descend base parts ∧ (∀ s ∈ parts, s ≠ [] ∧ slash ∉ s) ∧
      inside (rootOf cwd home).path = base ++ [slash] ∧
        (if parts = [] then (rootOf cwd home).path else base ++ parts.flatMap (slash :: ·)) = cwd := by
  obtain ⟨segments, hsegments, rfl⟩ := hcwd
  have hsplit : segments ≠ [] → split (slash :: join segments) = [] :: segments := by
    intro hne
    rw [Preview.split_slash, Preview.split_join hne fun s hs => (hsegments s hs).2]
  have hkept : ∀ parts : List Text, (∀ s ∈ parts, s ≠ [] ∧ slash ∉ s) →
      ([] :: parts).filter (· ≠ []) = parts := by
    intro parts hparts
    rw [List.filter_cons_of_neg (by simp)]
    exact List.filter_eq_self.mpr fun s hs => decide_eq_true (hparts s hs).1
  cases hin : inHome (slash :: join segments) home with
  | false =>
    have hparts : (split (slash :: join segments)).filter (· ≠ []) = segments := by
      by_cases hne : segments = []
      · subst hne
        rfl
      · rw [hsplit hne]
        exact hkept segments hsegments
    unfold belowRoot rootOf
    rw [hin]
    refine ⟨[], segments, ?_, hsegments, rfl, ?_⟩
    · dsimp only
      simp only [Bool.false_eq_true, if_false]
      rw [hparts]
    · split
      next hnil => rw [hnil]; rfl
      next hne => rw [List.nil_append, flatMap_join hne]
  | true =>
    -- below the home the names are those that follow it
    have hroot : inside home = home ++ [slash] := by
      have hlast : home ≠ [slash] := by
        rintro rfl
        rcases hhome with h | h
        · cases h
        · exact h.2 rfl
      exact if_neg hlast
    have hspelled : home ≠ [] ∧ (slash :: join segments = home ∨ home ++ [slash] <+: slash :: join segments) := by
      simpa only [inHome, Bool.and_eq_true, Bool.or_eq_true, decide_eq_true_eq, List.isPrefixOf_iff_prefix] using hin
    obtain ⟨hne, hspelled⟩ := hspelled
    unfold belowRoot rootOf
    rw [hin]
    simp only [if_true]
    rcases hspelled with rfl | ⟨below, hbelow⟩
    · refine ⟨_, [], ?_, by simp, hroot, rfl⟩
      rw [List.drop_length]
      rfl
    · have hbelow : home ++ slash :: below = slash :: join segments := by
        rw [← hbelow, List.append_assoc]
        rfl
      obtain ⟨tail, rfl⟩ : ∃ tail, home = slash :: tail := by
        cases home with
        | nil => exact absurd rfl hne
        | cons unit tail => exact ⟨tail, by rw [(List.cons.inj hbelow).1]⟩
      have hsome : segments ≠ [] := by
        rintro rfl
        simp [join] at hbelow
      have hpieces : segments = split tail ++ split below := by
        have hwhole := hsplit hsome
        rw [← hbelow, List.cons_append, Preview.split_slash] at hwhole
        rw [← (List.cons.inj hwhole).2]
        exact List.splitOn_append_cons_self tail below
      have hparts : ∀ s ∈ split below, s ≠ [] ∧ slash ∉ s := fun s hs =>
        hsegments s (hpieces ▸ List.mem_append_right _ hs)
      refine ⟨slash :: tail, split below, ?_, hparts, hroot, ?_⟩
      · rw [← hbelow, List.drop_left, Preview.split_slash, hkept _ hparts]
      · have hsplit' : split below ≠ [] := List.splitOn_ne_nil _ _
        rw [if_neg hsplit', flatMap_join hsplit', Preview.join_split, hbelow]

theorem trail_of {cwd home : Text} (hcwd : Directory cwd) (hhome : Home home) :
    IsTrail cwd home (rootOf cwd home :: belowRoot cwd home) := by
  obtain ⟨base, parts, hbelow, hparts, hroot, hpath⟩ := belowRoot_parts hcwd hhome
  rw [hbelow]
  refine ⟨rfl, descend_steps hparts _ hroot, ?_⟩
  rw [List.getLast?_eq_some_getLast (List.cons_ne_nil _ _), Option.map_some, Option.some_inj]
  split at hpath
  next hnil =>
    subst hnil
    exact hpath
  next hne => rw [descend_last base _ (.inr hne), hpath]

/-- No name costs less than the one of the root cell. -/
theorem names_long {cwd home : Text} (hcwd : Directory cwd) (hhome : Home home) :
    ∀ t ∈ rootOf cwd home :: belowRoot cwd home, cellWidth (rootOf cwd home).name ≤ cellWidth t.name := by
  have hone : (rootOf cwd home).name.length = 1 := by
    unfold rootOf
    split <;> rfl
  obtain ⟨base, parts, hbelow, hparts, -, -⟩ := belowRoot_parts hcwd hhome
  intro t ht
  have hpos : 1 ≤ t.name.length := by
    rcases List.mem_cons.mp ht with rfl | ht
    · exact hone.ge
    · rw [hbelow] at ht
      have hname : t.name ∈ (descend base parts).map (·.name) := List.mem_map_of_mem ht
      rw [descend_names] at hname
      exact List.length_pos_iff.mpr (hparts _ hname).1
  unfold cellWidth CRUMB_CHAR_PX
  rw [hone]
  have hcast : (1 : ℚ) ≤ t.name.length := by exact_mod_cast hpos
  norm_num
  linarith

/-! ## 7. The breadcrumb -/

section

variable {cwd home : Text}

/-- How the cells are made: the whole trail, or the collapsed one. -/
theorem buildCrumbs_cases (cwd home : Text) (width : Option ℚ) :
    ∃ ancestors current, rootOf cwd home :: belowRoot cwd home = ancestors ++ [current] ∧
      ((buildCrumbs cwd home width = ancestors.map .segment ++ [.current current] ∧
          ∀ strip, width = some strip → ancestors = [] ∨ cost (ancestors ++ [current]) ≤ strip) ∨
        ∃ strip h k, width = some strip ∧ ancestors.head? = some (rootOf cwd home) ∧
          strip < cost (ancestors ++ [current]) ∧
          buildCrumbs cwd home width = collapsed ancestors current h k ∧
          Collapsed ancestors current strip h k) := by
  have hne : rootOf cwd home :: belowRoot cwd home ≠ [] := List.cons_ne_nil _ _
  refine ⟨_, _, (List.dropLast_concat_getLast hne).symm, ?_⟩
  by_cases hwhole : ∀ strip, (some strip : Option ℚ) = width →
      (rootOf cwd home :: belowRoot cwd home).dropLast = [] ∨
        cost ((rootOf cwd home :: belowRoot cwd home).dropLast ++
          [(rootOf cwd home :: belowRoot cwd home).getLast hne]) ≤ strip
  · exact .inl ⟨fitCrumbs_whole hwhole, fun strip hs => hwhole strip hs.symm⟩
  · push Not at hwhole
    obtain ⟨strip, rfl, hsome, hwide⟩ := hwhole
    have hroot : ((rootOf cwd home :: belowRoot cwd home).dropLast).head? = some (rootOf cwd home) := by
      cases hbelow : belowRoot cwd home with
      | nil =>
        rw [hbelow] at hsome
        exact absurd rfl hsome
      | cons _ _ => rfl
    obtain ⟨h, k, hcrumbs, hc⟩ := fitCrumbs_collapsed hroot hwide
    exact .inr ⟨strip, h, k, rfl, hroot, hwide, hcrumbs, hc⟩

theorem whole_targets : (ancestors.map Crumb.segment ++ [Crumb.current current]).flatMap Crumb.targets =
    ancestors ++ [current] := by
  rw [List.flatMap_append, List.flatMap_map, List.flatMap_singleton]
  congr 1
  exact List.flatMap_singleton' ancestors

/-- Nothing is lost, at any width. -/
theorem buildCrumbs_trail (width : Option ℚ) : (buildCrumbs cwd home width).flatMap Crumb.targets =
    rootOf cwd home :: belowRoot cwd home := by
  obtain ⟨ancestors, current, htrail, ⟨hcrumbs, -⟩ | ⟨strip, h, k, -, -, -, hcrumbs, hc⟩⟩ :=
    buildCrumbs_cases cwd home width
  · rw [hcrumbs, whole_targets, htrail]
  · rw [hcrumbs, collapsed_targets (hc.head.trans hc.first), htrail]

theorem whole_width : ((ancestors.map Crumb.segment ++ [Crumb.current current]).map Crumb.width).sum =
    cost (ancestors ++ [current]) := by
  rw [List.map_append, List.map_map, List.map_singleton, cost, List.map_append, List.map_singleton]
  rfl

theorem Collapsed.breadcrumb {h k : Nat} (hc : Collapsed ancestors current strip h k)
    (hwide : strip < cost (ancestors ++ [current])) (htrail : IsTrail cwd home (ancestors ++ [current]))
    (hpath : current.path = cwd) : Breadcrumb cwd home (some strip) (collapsed ancestors current h k) where
  trail := by rwa [collapsed_targets (hc.head.trans hc.first)]
  current := by
    refine ⟨_, current, rfl, hpath, fun crumb hcrumb => ?_⟩
    simp only [List.mem_append, List.mem_map] at hcrumb
    rcases hcrumb with (⟨t, -, rfl⟩ | hgap) | ⟨t, -, rfl⟩
    · rfl
    · split at hgap
      · cases hgap
      · rw [List.mem_singleton.mp hgap]
        rfl
    · rfl
  gap := by
    have hsegments : ∀ row : List CrumbTarget, (row.map Crumb.segment).countP Crumb.isGap = 0 := fun row =>
      List.countP_eq_zero.mpr fun crumb hcrumb => by
        obtain ⟨t, -, rfl⟩ := List.mem_map.mp hcrumb
        exact Bool.false_ne_true
    unfold collapsed
    rw [List.countP_append, List.countP_append, List.countP_append, hsegments, hsegments]
    split <;> simp [Crumb.isGap]
  fits := by
    rintro strip' hstrip halone
    cases hstrip
    exact hc.fits (halone current (List.mem_append_right _ List.mem_cons_self))
  whole hfits := by
    rw [collapsed_targets (hc.head.trans hc.first)] at hfits
    exact absurd (hfits strip rfl) (not_le.mpr hwide)

/-- What is shown of an absolute directory at any width, and that widening the strip hides nothing. -/
theorem breadcrumb_path (hcwd : Directory cwd) (hhome : Home home) :
    (∀ width, Breadcrumb cwd home width (buildCrumbs cwd home width)) ∧
      ∀ narrow wide, Wider narrow wide → ∀ target,
        Shows (buildCrumbs cwd home narrow) target → Shows (buildCrumbs cwd home wide) target := by
  have htrail := trail_of hcwd hhome
  have hnames := names_long hcwd hhome
  constructor
  · intro width
    obtain ⟨ancestors, current, hsplit, hcases⟩ := buildCrumbs_cases cwd home width
    rw [hsplit] at htrail
    have hpath : current.path = cwd := by
      have hlast := htrail.last
      rw [List.getLast?_concat, Option.map_some] at hlast
      exact Option.some.inj hlast
    rcases hcases with ⟨hcrumbs, hwhole⟩ | ⟨strip, h, k, rfl, -, hwide, hcrumbs, hc⟩
    · rw [hcrumbs]
      refine ⟨by rwa [whole_targets], ⟨_, current, rfl, hpath, ?_⟩, ?_, ?_, ?_⟩
      · intro crumb hcrumb
        obtain ⟨t, -, rfl⟩ := List.mem_map.mp hcrumb
        rfl
      · rw [List.countP_eq_zero.mpr]
        · exact Nat.zero_le _
        · intro crumb hcrumb
          rcases List.mem_append.mp hcrumb with hcrumb | hcrumb
          · obtain ⟨t, -, rfl⟩ := List.mem_map.mp hcrumb
            exact Bool.false_ne_true
          · rw [List.mem_singleton.mp hcrumb]
            exact Bool.false_ne_true
      · intro strip hstrip halone
        have hcurrent := halone current (List.mem_append_right _ List.mem_cons_self)
        rw [whole_width]
        rcases hwhole strip hstrip with hnil | hfits
        · subst hnil
          have hgap : (0 : ℚ) ≤ CRUMB_GAP_PX + CRUMB_SEP_PX := by norm_num [CRUMB_GAP_PX, CRUMB_SEP_PX]
          have hcost : cost ([] ++ [current]) = cellWidth current.name := by
            rw [List.nil_append, cost_cons]
            exact add_zero _
          rw [hcost]
          linarith
        · exact hfits
      · intro _ crumb hcrumb
        rcases List.mem_append.mp hcrumb with hcrumb | hcrumb
        · obtain ⟨t, -, rfl⟩ := List.mem_map.mp hcrumb
          rfl
        · rw [List.mem_singleton.mp hcrumb]
          rfl
    · rw [hcrumbs]
      exact hc.breadcrumb hwide htrail hpath
  · intro narrow wide hwider target hshown
    obtain ⟨ancestors, current, hsplit, hcases⟩ := buildCrumbs_cases cwd home wide
    obtain ⟨ancestors', current', hsplit', hcases'⟩ := buildCrumbs_cases cwd home narrow
    obtain ⟨rfl, hcurrent⟩ := List.append_inj' (hsplit.symm.trans hsplit') rfl
    obtain rfl : current = current' := List.cons.inj hcurrent |>.1
    have hmember : target ∈ ancestors ∨ target = current := by
      rcases hcases' with ⟨hcrumbs, -⟩ | ⟨strip, h, k, rfl, -, hwide, hcrumbs, hc⟩
      · rw [hcrumbs] at hshown
        unfold Shows at hshown
        simpa using hshown
      · rw [hcrumbs, mem_collapsed] at hshown
        rcases hshown with ht | ht | ht
        · exact .inl (List.mem_of_mem_take ht)
        · exact .inl (List.mem_of_mem_drop ht)
        · exact .inr ht
    rcases hcases with ⟨hcrumbs, -⟩ | ⟨strip, h, k, rfl, hroot, hwide, hcrumbs, hc⟩
    · rw [hcrumbs]
      unfold Shows
      simpa using hmember
    · obtain ⟨strip', rfl, hle⟩ := hwider strip rfl
      rcases hcases' with ⟨-, hwhole⟩ | ⟨strip'', h', k', hstrip, -, -, hcrumbs', hc'⟩
      · rcases hwhole strip' rfl with hnil | hfits
        · rw [hnil] at hroot
          cases hroot
        · exact absurd (hfits.trans hle) (not_le.mpr hwide)
      · cases hstrip
        have hlong : ∀ t ∈ ancestors, cellWidth (rootOf cwd home).name ≤ cellWidth t.name := fun t ht =>
          hnames t (hsplit ▸ List.mem_append_left _ ht)
        obtain ⟨hh, hk⟩ := hc'.wider hlong hroot hc hle
        rw [hcrumbs', mem_collapsed] at hshown
        rw [hcrumbs, mem_collapsed]
        rcases hshown with ht | ht | ht
        · exact .inl (List.take_subset_take_left _ hh ht)
        · exact .inr (.inl ((List.drop_suffix_drop_left _ hk).subset ht))
        · exact .inr (.inr ht)

end

theorem breadcrumb_home : Breadcrumb (ascii "/home/me/git/app") (ascii "/home/me") (some 40)
    (buildCrumbs (ascii "/home/me/git/app") (ascii "/home/me") (some 40)) := by
  refine (breadcrumb_path ⟨[ascii "home", ascii "me", ascii "git", ascii "app"], ?_, rfl⟩
    (.inr ⟨rfl, ?_⟩)).1 (some 40)
  · simp [ascii, slash]
  · decide

end PocketShell.Files.Crumbs
