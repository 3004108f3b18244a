import Mathlib.Algebra.Order.Round
import Mathlib.Data.Rat.Floor
import Mathlib.Tactic.Linarith

/-!
# The box of the prompt composer

The card floats in a pane and may not cover the corner box of the toggle. All arithmetic is exact,
over any ordered field with a floor.

* `Legal` says which boxes `clampGeometry` answers: `clamp_legal` and `clamp_eq_self`.
* `composer_box`: what a drag of an edge keeps. The opposite edge moves exactly when the dragged
  box would cover the toggle, because the last clamp lifts the whole box.
-/

namespace PocketShell.Composer.Geometry

/-! ## Boxes -/

/-- The measured size of an element. -/
structure Size (K : Type*) [Zero K] [LE K] where
  width : K
  height : K
  width_nonneg : 0 ≤ width
  height_nonneg : 0 ≤ height

/-- The pane, with the box in its bottom right corner that the card may not cover. -/
structure PaneBox (K : Type*) [Zero K] [LE K] extends Size K where
  keepOut : Option (Size K)

@[ext]
structure ComposerGeometry (K : Type*) where
  right : K
  bottom : K
  width : K
  height : K

inductive Side
  | n | s | e | w
deriving DecidableEq

/-- Which edges a drag moves. -/
inductive ResizeEdge
  | n | s | e | w | ne | nw | se | sw

def ResizeEdge.includes : ResizeEdge → Side → Bool
  | n, side => side = .n
  | s, side => side = .s
  | e, side => side = .e
  | w, side => side = .w
  | ne, side => side = .n ∨ side = .e
  | nw, side => side = .n ∨ side = .w
  | se, side => side = .s ∨ side = .e
  | sw, side => side = .s ∨ side = .w

set_option linter.unusedSectionVars false

variable {K : Type*} [Field K] [LinearOrder K] [IsStrictOrderedRing K] [FloorRing K]

namespace COMPOSER_LAYOUT

def minWidth : K := 360

def minHeight : K := 190

def maxHeightFraction : K := 4 / 5

def snapThreshold : K := 12

end COMPOSER_LAYOUT

def clamp (value lo hi : K) : K :=
  max lo (min value hi)

def minWidthIn (pane : PaneBox K) : K :=
  min COMPOSER_LAYOUT.minWidth pane.width

def minHeightIn (pane : PaneBox K) : K :=
  min COMPOSER_LAYOUT.minHeight pane.height

/-- `Math.round` takes a half up, as `round` does. -/
def maxHeightIn (pane : PaneBox K) : K :=
  min pane.height
    (max COMPOSER_LAYOUT.minHeight (round (pane.height * COMPOSER_LAYOUT.maxHeightFraction) : K))

/-- The box to clear at this offset, when the card reaches over the corner. -/
def overCorner (pane : PaneBox K) (right : K) : Option (Size K) :=
  pane.keepOut.filter fun keep => right < keep.width

def roomAbove (pane : PaneBox K) (right : K) : K :=
  match overCorner pane right with
  | some keep => max 0 (pane.height - keep.height)
  | none => pane.height

def floorOver (pane : PaneBox K) (right ceiling : K) : K :=
  match overCorner pane right with
  | some keep => min keep.height ceiling
  | none => 0

def clampGeometry (g : ComposerGeometry K) (pane : PaneBox K) : ComposerGeometry K :=
  let width := clamp g.width (minWidthIn pane) pane.width
  let right := clamp g.right 0 (max 0 (pane.width - width))
  let minH := minHeightIn pane
  let height := clamp g.height minH (max minH (min (maxHeightIn pane) (roomAbove pane right)))
  let ceiling := max 0 (pane.height - height)
  { right := right
    bottom := clamp g.bottom (floorOver pane right ceiling) ceiling
    width := width
    height := height }

def moveGeometry (start : ComposerGeometry K) (dx dy : K) (pane : PaneBox K) : ComposerGeometry K :=
  clampGeometry { start with right := start.right - dx, bottom := start.bottom - dy } pane

/-- The distance from the left side of the pane. -/
def leftIn (pane : PaneBox K) (g : ComposerGeometry K) : K :=
  pane.width - g.right - g.width

/-- The distance from the top of the pane. -/
def topIn (pane : PaneBox K) (g : ComposerGeometry K) : K :=
  pane.height - g.bottom - g.height

/-- What the west or the east edge does to the clamped start box. -/
def dragAcross (base : ComposerGeometry K) (dx : K) (edge : ResizeEdge) (pane : PaneBox K) :
    ComposerGeometry K :=
  let left := leftIn pane base
  let minW := minWidthIn pane
  if edge.includes .w then
    let newLeft := clamp (left + dx) 0 (pane.width - base.right - minW)
    { base with width := pane.width - base.right - newLeft }
  else if edge.includes .e then
    let right := clamp (base.right - dx) 0 (pane.width - left - minW)
    { base with right := right, width := pane.width - left - right }
  else base

/-- What the north or the south edge does to it; `top` is the top of the clamped start box. -/
def dragUpright (top : K) (box : ComposerGeometry K) (dy : K) (edge : ResizeEdge) (pane : PaneBox K) :
    ComposerGeometry K :=
  let minH := minHeightIn pane
  let maxH := maxHeightIn pane
  if edge.includes .n then
    let newTop := clamp (top + dy) (max 0 (pane.height - box.bottom - maxH))
      (pane.height - box.bottom - minH)
    { box with height := pane.height - box.bottom - newTop }
  else if edge.includes .s then
    let bottom := clamp (box.bottom - dy) (max 0 (pane.height - top - maxH)) (pane.height - top - minH)
    { box with bottom := bottom, height := pane.height - top - bottom }
  else box

def resizeGeometry (start : ComposerGeometry K) (dx dy : K) (edge : ResizeEdge) (pane : PaneBox K) :
    ComposerGeometry K :=
  let base := clampGeometry start pane
  clampGeometry (dragUpright (topIn pane base) (dragAcross base dx edge pane) dy edge pane) pane

def snap (threshold value extent size : K) : K :=
  let far := max 0 (extent - size)
  if |value - 0| ≤ threshold then 0
  else if |value - far| ≤ threshold then far
  else value

def snapGeometry (g : ComposerGeometry K) (pane : PaneBox K) (threshold : K) : ComposerGeometry K :=
  let c := clampGeometry g pane
  clampGeometry
    { c with
      right := snap threshold c.right pane.width c.width
      bottom := snap threshold c.bottom pane.height c.height } pane

/-! ## Clamping a number -/

theorem le_clamp (value lo hi : K) : lo ≤ clamp value lo hi :=
  le_max_left _ _

theorem clamp_le {value lo hi : K} (h : lo ≤ hi) : clamp value lo hi ≤ hi :=
  max_le h (min_le_right _ _)

theorem clamp_of_mem {value lo hi : K} (hlo : lo ≤ value) (hhi : value ≤ hi) : clamp value lo hi = value := by
  rw [clamp, min_eq_left hhi, max_eq_right hlo]

theorem clamp_lt_iff {value lo hi bound : K} :
    clamp value lo hi < bound ↔ lo < bound ∧ (value < bound ∨ hi < bound) := by
  rw [clamp, max_lt_iff, min_lt_iff]

/-! ## The bounds of a pane -/

section Bounds

variable (pane : PaneBox K)

theorem minWidthIn_le : minWidthIn pane ≤ pane.width :=
  min_le_right _ _

theorem minWidthIn_nonneg : 0 ≤ minWidthIn pane := by
  refine le_min ?_ pane.width_nonneg
  rw [COMPOSER_LAYOUT.minWidth]
  norm_num

theorem minHeightIn_nonneg : 0 ≤ minHeightIn pane := by
  refine le_min ?_ pane.height_nonneg
  rw [COMPOSER_LAYOUT.minHeight]
  norm_num

theorem maxHeightIn_le : maxHeightIn pane ≤ pane.height :=
  min_le_left _ _

theorem minHeightIn_le_maxHeightIn : minHeightIn pane ≤ maxHeightIn pane :=
  le_min (min_le_right _ _) (le_trans (min_le_left _ _) (le_max_left _ _))

/-- How much of the bottom the toggle takes at this offset. -/
def keepHeight (right : K) : K :=
  match overCorner pane right with
  | some keep => keep.height
  | none => 0

theorem keepHeight_nonneg (right : K) : 0 ≤ keepHeight pane right := by
  rw [keepHeight]
  split
  · next keep _ => exact keep.height_nonneg
  · exact le_refl 0

theorem roomAbove_eq (right : K) : roomAbove pane right = max 0 (pane.height - keepHeight pane right) := by
  rw [roomAbove, keepHeight]
  cases overCorner pane right with
  | some keep => rfl
  | none => rw [sub_zero, max_eq_right pane.height_nonneg]

theorem floorOver_eq (right : K) {ceiling : K} (h : 0 ≤ ceiling) :
    floorOver pane right ceiling = min (keepHeight pane right) ceiling := by
  rw [floorOver, keepHeight]
  cases overCorner pane right with
  | some keep => rfl
  | none => rw [min_eq_left h]

theorem keepHeight_le_iff {right bottom : K} (h : 0 ≤ bottom) : keepHeight pane right ≤ bottom ↔
    ¬∃ keep ∈ pane.keepOut, right < keep.width ∧ bottom < keep.height := by
  rw [keepHeight, overCorner]
  cases pane.keepOut with
  | none => simp [h]
  | some keep =>
    by_cases hover : right < keep.width
    · simp [Option.filter, hover]
    · simp [Option.filter, hover, h]

end Bounds

/-! ## The boxes that are answered -/

/-- The boxes inside the pane that have a legal size and clear the toggle where there is room. -/
structure Legal (pane : PaneBox K) (g : ComposerGeometry K) : Prop where
  width_min : minWidthIn pane ≤ g.width
  right_nonneg : 0 ≤ g.right
  width_fits : g.right + g.width ≤ pane.width
  height_min : minHeightIn pane ≤ g.height
  height_max : g.height ≤ maxHeightIn pane
  bottom_nonneg : 0 ≤ g.bottom
  height_fits : g.bottom + g.height ≤ pane.height
  clear : keepHeight pane g.right ≤ g.bottom ∨
    g.height = minHeightIn pane ∧ g.bottom + minHeightIn pane = pane.height

section Clamp

variable {pane : PaneBox K} {g : ComposerGeometry K}

theorem clamp_width : (clampGeometry g pane).width = clamp g.width (minWidthIn pane) pane.width :=
  rfl

theorem clamp_right : (clampGeometry g pane).right =
    clamp g.right 0 (max 0 (pane.width - (clampGeometry g pane).width)) :=
  rfl

theorem clamp_height : (clampGeometry g pane).height = clamp g.height (minHeightIn pane)
    (max (minHeightIn pane) (min (maxHeightIn pane)
      (max 0 (pane.height - keepHeight pane (clampGeometry g pane).right)))) := by
  rw [← roomAbove_eq]
  rfl

theorem clamp_height_le : (clampGeometry g pane).height ≤ maxHeightIn pane := by
  rw [clamp_height]
  refine le_trans (clamp_le (le_max_left _ _)) ?_
  exact max_le (minHeightIn_le_maxHeightIn pane) (min_le_left _ _)

theorem ceiling_nonneg : 0 ≤ pane.height - (clampGeometry g pane).height :=
  sub_nonneg.mpr (le_trans clamp_height_le (maxHeightIn_le pane))

theorem clamp_bottom : (clampGeometry g pane).bottom = clamp g.bottom
    (min (keepHeight pane (clampGeometry g pane).right) (pane.height - (clampGeometry g pane).height))
    (pane.height - (clampGeometry g pane).height) := by
  rw [← floorOver_eq pane _ ceiling_nonneg, ← max_eq_right (@ceiling_nonneg _ _ _ _ _ pane g)]
  rfl

theorem clamp_legal : Legal pane (clampGeometry g pane) := by
  have hwidthMax : (clampGeometry g pane).width ≤ pane.width := clamp_le (minWidthIn_le pane)
  have hrightMax : (clampGeometry g pane).right ≤ pane.width - (clampGeometry g pane).width := by
    rw [clamp_right, max_eq_right (sub_nonneg.mpr hwidthMax)]
    exact clamp_le (sub_nonneg.mpr hwidthMax)
  have hheightMin : minHeightIn pane ≤ (clampGeometry g pane).height := by
    rw [clamp_height]
    exact le_clamp _ _ _
  have hheightMax : (clampGeometry g pane).height ≤ max (minHeightIn pane) (min (maxHeightIn pane)
      (max 0 (pane.height - keepHeight pane (clampGeometry g pane).right))) := by
    conv_lhs => rw [clamp_height]
    exact clamp_le (le_max_left _ _)
  have hbottomMin : min (keepHeight pane (clampGeometry g pane).right)
      (pane.height - (clampGeometry g pane).height) ≤ (clampGeometry g pane).bottom := by
    rw [clamp_bottom]
    exact le_clamp _ _ _
  have hbottomMax : (clampGeometry g pane).bottom ≤ pane.height - (clampGeometry g pane).height := by
    rw [clamp_bottom]
    exact clamp_le (min_le_right _ _)
  have hkeep := keepHeight_nonneg pane (clampGeometry g pane).right
  refine ⟨?_, ?_, by linarith, hheightMin, clamp_height_le, ?_, by linarith, ?_⟩
  · rw [clamp_width]
    exact le_clamp _ _ _
  · rw [clamp_right]
    exact le_clamp _ _ _
  · exact le_trans (le_min hkeep ceiling_nonneg) hbottomMin
  · rcases le_total (keepHeight pane (clampGeometry g pane).right)
      (pane.height - (clampGeometry g pane).height) with hroom | hroom
    · rw [min_eq_left hroom] at hbottomMin
      exact .inl hbottomMin
    · rw [min_eq_right hroom] at hbottomMin
      -- The height stands at the floor when the room above the toggle is smaller than the floor.
      rcases le_max_iff.mp hheightMax with hfloor | hcap
      · have heq : (clampGeometry g pane).height = minHeightIn pane := le_antisymm hfloor hheightMin
        exact .inr ⟨heq, by linarith⟩
      · rcases le_max_iff.mp (le_trans hcap (min_le_right _ _)) with hzero | habove
        · have hmin := minHeightIn_nonneg pane
          exact .inr ⟨by linarith, by linarith⟩
        · exact .inl (by linarith)

theorem clamp_eq_self (h : Legal pane g) : clampGeometry g pane = g := by
  have hminW := minWidthIn_nonneg pane
  have hminH := minHeightIn_nonneg pane
  have hright := h.right_nonneg
  have hbottom := h.bottom_nonneg
  have hwidthFits := h.width_fits
  have hheightFits := h.height_fits
  have hheightMin := h.height_min
  have hwidth : clamp g.width (minWidthIn pane) pane.width = g.width :=
    clamp_of_mem h.width_min (by linarith)
  have hrightEq : clamp g.right 0 (max 0 (pane.width - g.width)) = g.right :=
    clamp_of_mem hright (le_max_of_le_right (by linarith))
  have hheight : clamp g.height (minHeightIn pane)
      (max (minHeightIn pane) (min (maxHeightIn pane) (roomAbove pane g.right))) = g.height := by
    refine clamp_of_mem h.height_min ?_
    rcases h.clear with hclear | ⟨heq, -⟩
    · refine le_max_of_le_right (le_min h.height_max ?_)
      rw [roomAbove_eq]
      exact le_max_of_le_right (by linarith)
    · exact le_max_of_le_left (le_of_eq heq)
  have hceiling : max 0 (pane.height - g.height) = pane.height - g.height :=
    max_eq_right (by linarith)
  have hbottomEq : clamp g.bottom (floorOver pane g.right (pane.height - g.height))
      (pane.height - g.height) = g.bottom := by
    rw [floorOver_eq pane _ (by linarith)]
    refine clamp_of_mem ?_ (by linarith)
    rcases h.clear with hclear | ⟨heq, hroom⟩
    · exact min_le_of_left_le hclear
    · exact min_le_of_right_le (by linarith)
  unfold clampGeometry
  dsimp only
  rw [hwidth, hrightEq, hheight, hceiling, hbottomEq]

theorem clamp_clamp : clampGeometry (clampGeometry g pane) pane = clampGeometry g pane :=
  clamp_eq_self clamp_legal

/-- Only the vertical axis of a box that is legal across can change. -/
theorem clamp_across (hmin : minWidthIn pane ≤ g.width) (hright : 0 ≤ g.right)
    (hfits : g.right + g.width ≤ pane.width) :
    (clampGeometry g pane).width = g.width ∧ (clampGeometry g pane).right = g.right := by
  have hwidth : clamp g.width (minWidthIn pane) pane.width = g.width :=
    clamp_of_mem hmin (by linarith)
  refine ⟨hwidth, ?_⟩
  unfold clampGeometry
  dsimp only
  rw [hwidth]
  exact clamp_of_mem hright (le_max_of_le_right (by linarith))

end Clamp

/-! ## A box that covers the toggle is lifted -/

section Lifted

variable {pane : PaneBox K} {raw : ComposerGeometry K}

/-- Everything of `Legal` but the toggle. -/
structure Fitting (pane : PaneBox K) (g : ComposerGeometry K) : Prop where
  width_min : minWidthIn pane ≤ g.width
  right_nonneg : 0 ≤ g.right
  width_fits : g.right + g.width ≤ pane.width
  height_min : minHeightIn pane ≤ g.height
  height_max : g.height ≤ maxHeightIn pane
  bottom_nonneg : 0 ≤ g.bottom
  height_fits : g.bottom + g.height ≤ pane.height

theorem Fitting.legal (h : Fitting pane raw) (hclear : keepHeight pane raw.right ≤ raw.bottom ∨
    raw.height = minHeightIn pane ∧ raw.bottom + minHeightIn pane = pane.height) : Legal pane raw :=
  ⟨h.width_min, h.right_nonneg, h.width_fits, h.height_min, h.height_max, h.bottom_nonneg, h.height_fits,
    hclear⟩

theorem Fitting.across (h : Fitting pane raw) :
    (clampGeometry raw pane).width = raw.width ∧ (clampGeometry raw pane).right = raw.right :=
  clamp_across h.width_min h.right_nonneg h.width_fits

/-- The bottom of a box that covers the toggle stays only where the box cannot rise. -/
theorem lifted_bottom (h : Fitting pane raw) (hcovers : raw.bottom < keepHeight pane raw.right) :
    (clampGeometry raw pane).bottom = raw.bottom ↔ raw.bottom + minHeightIn pane = pane.height := by
  have hright : (clampGeometry raw pane).right = raw.right := h.across.2
  constructor
  · intro heq
    have hclear := (@clamp_legal _ _ _ _ _ pane raw).clear
    rw [hright, heq] at hclear
    rcases hclear with hclear | ⟨-, hroom⟩
    · exact absurd hclear (not_le.mpr hcovers)
    · exact hroom
  · intro hroom
    have hfits := h.height_fits
    have hmin := h.height_min
    have heq : raw.height = minHeightIn pane := by linarith
    rw [clamp_eq_self (h.legal (.inr ⟨heq, hroom⟩))]

/-- Its top stays only at the top of the pane. -/
theorem lifted_top (h : Fitting pane raw) (hcovers : raw.bottom < keepHeight pane raw.right) :
    topIn pane (clampGeometry raw pane) = topIn pane raw ↔ topIn pane raw = 0 := by
  have hright : (clampGeometry raw pane).right = raw.right := h.across.2
  have hlegal : Legal pane (clampGeometry raw pane) := clamp_legal
  have hheight := @clamp_height _ _ _ _ _ pane raw
  have hbottom := @clamp_bottom _ _ _ _ _ pane raw
  have hclear := hlegal.clear
  have hfits := hlegal.height_fits
  have hmin := h.height_min
  have hmax := h.height_max
  have hminH := minHeightIn_nonneg pane
  rw [hright] at hheight hbottom hclear
  generalize hcapEq : max (minHeightIn pane) (min (maxHeightIn pane)
    (max 0 (pane.height - keepHeight pane raw.right))) = cap at hheight
  unfold topIn
  constructor
  · intro heq
    rcases hclear with hclear | ⟨hfloor, hroom⟩
    · -- The box rose, so it was cut to the room above the toggle and fills it.
      have hcut : (clampGeometry raw pane).height < raw.height := by linarith
      have hcap : cap ≤ (clampGeometry raw pane).height := by
        rcases le_total raw.height cap with huncut | hcap
        · rw [clamp_of_mem hmin huncut] at hheight
          linarith
        · rw [hheight]
          exact le_trans (le_min hcap (le_refl cap)) (le_max_right _ _)
      have hroom : pane.height - keepHeight pane raw.right ≤ cap := by
        rw [← hcapEq]
        refine le_max_of_le_right (le_min ?_ (le_max_right _ _))
        by_contra hlow
        have hmaxCap : min (maxHeightIn pane) (max 0 (pane.height - keepHeight pane raw.right)) =
            maxHeightIn pane := min_eq_left (le_max_of_le_right (le_of_not_ge hlow))
        have hfull : maxHeightIn pane ≤ cap := by
          rw [← hcapEq, hmaxCap]
          exact le_max_right _ _
        linarith
      linarith
    · linarith
  · intro hzero
    have habove : max 0 (pane.height - keepHeight pane raw.right) ≤ raw.height :=
      max_le (by linarith) (by linarith)
    have hcap : cap = max (minHeightIn pane) (max 0 (pane.height - keepHeight pane raw.right)) := by
      rw [← hcapEq, min_eq_right (le_trans habove hmax)]
    have hroom : pane.height - keepHeight pane raw.right ≤ cap := by
      rw [hcap]
      exact le_max_of_le_right (le_max_right _ _)
    have hle : cap ≤ raw.height := by
      rw [hcap]
      exact max_le hmin habove
    have hmins : minHeightIn pane ≤ cap := by
      rw [hcap]
      exact le_max_left _ _
    have hfull : (clampGeometry raw pane).height = cap := by
      rw [hheight, clamp, min_eq_right hle, max_eq_right hmins]
    have hrisen : (clampGeometry raw pane).bottom = pane.height - cap := by
      rw [hbottom, hfull, min_eq_right (by linarith)]
      exact max_eq_left (min_le_right _ _)
    linarith

end Lifted

/-! ## What a drag does before the last clamp -/

section Drag

variable {pane : PaneBox K} {base : ComposerGeometry K} (dx dy : K) (edge : ResizeEdge)

/-- The offset from the right that a drag asks for. -/
def draggedRight (pane : PaneBox K) (base : ComposerGeometry K) (dx : K) (edge : ResizeEdge) : K :=
  if edge.includes .e then clamp (base.right - dx) 0 (base.right + base.width - minWidthIn pane)
  else base.right

/-- The offset from the bottom that it asks for. -/
def draggedBottom (pane : PaneBox K) (base : ComposerGeometry K) (dy : K) (edge : ResizeEdge) : K :=
  if edge.includes .s then
    clamp (base.bottom - dy) (max 0 (base.bottom + base.height - maxHeightIn pane))
      (base.bottom + base.height - minHeightIn pane)
  else base.bottom

theorem includes_west_east (h : edge.includes .w = true) : edge.includes .e = false := by
  cases edge <;> first | rfl | cases h

theorem includes_north_south (h : edge.includes .n = true) : edge.includes .s = false := by
  cases edge <;> first | rfl | cases h

theorem dragAcross_spec (h : Legal pane base) :
    (dragAcross base dx edge pane).right = draggedRight pane base dx edge ∧
    minWidthIn pane ≤ (dragAcross base dx edge pane).width ∧
    0 ≤ (dragAcross base dx edge pane).right ∧
    (dragAcross base dx edge pane).right + (dragAcross base dx edge pane).width ≤ pane.width ∧
    (edge.includes .e = true → leftIn pane (dragAcross base dx edge pane) = leftIn pane base) ∧
    (dragAcross base dx edge pane).bottom = base.bottom ∧
    (dragAcross base dx edge pane).height = base.height := by
  have hmin := h.width_min
  have hright := h.right_nonneg
  have hfits := h.width_fits
  unfold dragAcross draggedRight leftIn
  dsimp only
  by_cases hwest : edge.includes .w = true
  · have heast := includes_west_east edge hwest
    rw [if_pos hwest, if_neg (by rw [heast]; decide)]
    have hlow := le_clamp (pane.width - base.right - base.width + dx) 0
      (pane.width - base.right - minWidthIn pane)
    have hhigh := @clamp_le _ _ _ _ _ (pane.width - base.right - base.width + dx) 0
      (pane.width - base.right - minWidthIn pane) (by linarith)
    refine ⟨rfl, by dsimp only; linarith, hright, by dsimp only; linarith, fun he => ?_, rfl, rfl⟩
    rw [heast] at he
    cases he
  · rw [if_neg hwest]
    by_cases heast : edge.includes .e = true
    · rw [if_pos heast, if_pos heast]
      have hbound : pane.width - (pane.width - base.right - base.width) - minWidthIn pane =
          base.right + base.width - minWidthIn pane := by ring
      rw [hbound]
      have hlow := le_clamp (base.right - dx) 0 (base.right + base.width - minWidthIn pane)
      have hhigh := @clamp_le _ _ _ _ _ (base.right - dx) 0
        (base.right + base.width - minWidthIn pane) (by linarith)
      exact ⟨rfl, by dsimp only; linarith, hlow, by dsimp only; linarith, fun _ => by dsimp only; ring,
        rfl, rfl⟩
    · rw [if_neg heast, if_neg heast]
      exact ⟨rfl, hmin, hright, hfits, fun _ => rfl, rfl, rfl⟩

/-- The box that `resizeGeometry` clamps. -/
def dragged (pane : PaneBox K) (base : ComposerGeometry K) (dx dy : K) (edge : ResizeEdge) :
    ComposerGeometry K :=
  dragUpright (topIn pane base) (dragAcross base dx edge pane) dy edge pane

theorem dragUpright_spec (h : Legal pane base) {box : ComposerGeometry K}
    (hbottomEq : box.bottom = base.bottom) (hheightEq : box.height = base.height) :
    (dragUpright (topIn pane base) box dy edge pane).bottom = draggedBottom pane base dy edge ∧
    minHeightIn pane ≤ (dragUpright (topIn pane base) box dy edge pane).height ∧
    (dragUpright (topIn pane base) box dy edge pane).height ≤ maxHeightIn pane ∧
    0 ≤ (dragUpright (topIn pane base) box dy edge pane).bottom ∧
    (dragUpright (topIn pane base) box dy edge pane).bottom +
      (dragUpright (topIn pane base) box dy edge pane).height ≤ pane.height ∧
    (edge.includes .s = true →
      topIn pane (dragUpright (topIn pane base) box dy edge pane) = topIn pane base) ∧
    (dragUpright (topIn pane base) box dy edge pane).right = box.right ∧
    (dragUpright (topIn pane base) box dy edge pane).width = box.width := by
  have hmin := h.height_min
  have hmax := h.height_max
  have hbottom := h.bottom_nonneg
  have hfits := h.height_fits
  have hminMax := minHeightIn_le_maxHeightIn pane
  unfold dragUpright draggedBottom topIn
  dsimp only
  rw [hbottomEq]
  by_cases hnorth : edge.includes .n = true
  · have hsouth := includes_north_south edge hnorth
    rw [if_pos hnorth, if_neg (by rw [hsouth]; decide)]
    have hlow := le_clamp (pane.height - base.bottom - base.height + dy)
      (max 0 (pane.height - base.bottom - maxHeightIn pane)) (pane.height - base.bottom - minHeightIn pane)
    have hhigh := @clamp_le _ _ _ _ _ (pane.height - base.bottom - base.height + dy)
      (max 0 (pane.height - base.bottom - maxHeightIn pane)) (pane.height - base.bottom - minHeightIn pane)
      (max_le (by linarith) (by linarith))
    have hzero := le_trans (le_max_left _ _) hlow
    have hcap := le_trans (le_max_right _ _) hlow
    refine ⟨rfl, by dsimp only; linarith, by dsimp only; linarith, hbottom, ?_, fun hs => ?_, rfl, rfl⟩
    · dsimp only
      linarith
    · rw [hsouth] at hs
      cases hs
  · rw [if_neg hnorth]
    by_cases hsouth : edge.includes .s = true
    · rw [if_pos hsouth, if_pos hsouth]
      have hup : pane.height - (pane.height - base.bottom - base.height) - maxHeightIn pane =
          base.bottom + base.height - maxHeightIn pane := by ring
      have hdown : pane.height - (pane.height - base.bottom - base.height) - minHeightIn pane =
          base.bottom + base.height - minHeightIn pane := by ring
      rw [hup, hdown]
      have hlow := le_clamp (base.bottom - dy) (max 0 (base.bottom + base.height - maxHeightIn pane))
        (base.bottom + base.height - minHeightIn pane)
      have hhigh := @clamp_le _ _ _ _ _ (base.bottom - dy)
        (max 0 (base.bottom + base.height - maxHeightIn pane))
        (base.bottom + base.height - minHeightIn pane) (max_le (by linarith) (by linarith))
      have hzero := le_trans (le_max_left _ _) hlow
      have hcap := le_trans (le_max_right _ _) hlow
      exact ⟨rfl, by dsimp only; linarith, by dsimp only; linarith, hzero, by dsimp only; linarith,
        fun _ => by dsimp only; ring, rfl, rfl⟩
    · rw [if_neg hsouth, if_neg hsouth, hheightEq, hbottomEq]
      exact ⟨rfl, hmin, hmax, hbottom, hfits, fun h => absurd h hsouth, rfl, rfl⟩

theorem dragged_fitting (h : Legal pane base) : Fitting pane (dragged pane base dx dy edge) := by
  obtain ⟨-, hwidth, hright, hacross, -, hbottom, hheight⟩ := dragAcross_spec dx edge h
  obtain ⟨-, hmin, hmax, hlow, hfits, -, hsameRight, hsameWidth⟩ :=
    dragUpright_spec dy edge h hbottom hheight
  refine ⟨?_, ?_, ?_, hmin, hmax, hlow, hfits⟩
  · exact le_of_le_of_eq hwidth hsameWidth.symm
  · exact le_of_le_of_eq hright hsameRight.symm
  · rw [dragged, hsameRight, hsameWidth]
    exact hacross

end Drag

/-! ## The card always has a legal box -/

/-- The opposite edge of each dragged edge stands where it stood. -/
structure KeepsOpposite (pane : PaneBox K) (base out : ComposerGeometry K) (edge : ResizeEdge) : Prop where
  west : edge.includes .w = true → out.right = base.right
  east : edge.includes .e = true → leftIn pane out = leftIn pane base
  north : edge.includes .n = true → out.bottom = base.bottom
  south : edge.includes .s = true → topIn pane out = topIn pane base

/-- The box is inside the pane, not below its minimum, and beside or above the toggle where there is
room for that. -/
structure Placed (pane : PaneBox K) (g : ComposerGeometry K) : Prop where
  inside : 0 ≤ g.right ∧ 0 ≤ g.bottom ∧ g.right + g.width ≤ pane.width ∧ g.bottom + g.height ≤ pane.height
  nonneg : 0 ≤ g.width ∧ 0 ≤ g.height
  width_min : COMPOSER_LAYOUT.minWidth ≤ pane.width → COMPOSER_LAYOUT.minWidth ≤ g.width
  height_min : COMPOSER_LAYOUT.minHeight ≤ pane.height → COMPOSER_LAYOUT.minHeight ≤ g.height
  clear : ∀ keep ∈ pane.keepOut, COMPOSER_LAYOUT.minHeight ≤ pane.height - keep.height →
    keep.width ≤ g.right ∨ keep.height ≤ g.bottom

/-- What the box of the composer promises for one stored box, pane and drag. -/
structure LegalBox (pane : PaneBox K) (g : ComposerGeometry K) (dx dy threshold : K) (edge : ResizeEdge) :
    Prop where
  placed : Placed pane (clampGeometry g pane)
  twice : clampGeometry (clampGeometry g pane) pane = clampGeometry g pane
  opposite : KeepsOpposite pane (clampGeometry g pane) (resizeGeometry g dx dy edge pane) edge
  resize : clampGeometry (resizeGeometry g dx dy edge pane) pane = resizeGeometry g dx dy edge pane
  move : clampGeometry (moveGeometry g dx dy pane) pane = moveGeometry g dx dy pane
  snap : clampGeometry (snapGeometry g pane threshold) pane = snapGeometry g pane threshold

/-- The drag brings the right side of the clamped start box over the toggle, or leaves it there. -/
def OverToggle (pane : PaneBox K) (base : ComposerGeometry K) (dx : K) (edge : ResizeEdge) (keep : Size K) :
    Prop :=
  if edge.includes .e then 0 < keep.width ∧
    (base.right - dx < keep.width ∨ base.right + base.width - minWidthIn pane < keep.width)
  else base.right < keep.width

/-- The drag brings its bottom below the top of the toggle, or leaves it there. -/
def BelowToggle (pane : PaneBox K) (base : ComposerGeometry K) (dy : K) (edge : ResizeEdge)
    (keep : Size K) : Prop :=
  if edge.includes .s then max 0 (base.bottom + base.height - maxHeightIn pane) < keep.height ∧
    (base.bottom - dy < keep.height ∨ base.bottom + base.height - minHeightIn pane < keep.height)
  else base.bottom < keep.height

/-- The box can rise from where it is: for a north edge a box of the minimum height, for a south edge
the box itself. -/
def CanRise (pane : PaneBox K) (base : ComposerGeometry K) (edge : ResizeEdge) : Prop :=
  edge.includes .n = true ∧ base.bottom + minHeightIn pane ≠ pane.height ∨
    edge.includes .s = true ∧ base.bottom + base.height ≠ pane.height

/-- The drag would cover the toggle with a box that the clamp then lifts off it. -/
def DragsOntoToggle (pane : PaneBox K) (base : ComposerGeometry K) (dx dy : K) (edge : ResizeEdge) : Prop :=
  CanRise pane base edge ∧
    ∃ keep ∈ pane.keepOut, OverToggle pane base dx edge keep ∧ BelowToggle pane base dy edge keep

section Guarantee

variable {pane : PaneBox K} {base g : ComposerGeometry K} {dx dy : K} {edge : ResizeEdge}

theorem overToggle_iff (keep : Size K) :
    OverToggle pane base dx edge keep ↔ draggedRight pane base dx edge < keep.width := by
  unfold OverToggle draggedRight
  split
  · exact clamp_lt_iff.symm
  · exact Iff.rfl

theorem belowToggle_iff (keep : Size K) :
    BelowToggle pane base dy edge keep ↔ draggedBottom pane base dy edge < keep.height := by
  unfold BelowToggle draggedBottom
  split
  · exact clamp_lt_iff.symm
  · exact Iff.rfl

theorem Legal.placed (h : Legal pane g) : Placed pane g := by
  have hwidth := h.width_min
  have hheight := h.height_min
  have hminW := minWidthIn_nonneg pane
  have hminH := minHeightIn_nonneg pane
  refine ⟨⟨h.right_nonneg, h.bottom_nonneg, h.width_fits, h.height_fits⟩, ⟨by linarith, by linarith⟩,
    fun hroom => ?_, fun hroom => ?_, fun keep hkeep hroom => ?_⟩
  · exact le_trans (le_min (le_refl _) hroom) hwidth
  · exact le_trans (le_min (le_refl _) hroom) hheight
  · by_contra hcovers
    obtain ⟨hright, hbottom⟩ := not_or.mp hcovers
    have hover : ¬keepHeight pane g.right ≤ g.bottom := fun hclear =>
      (keepHeight_le_iff pane h.bottom_nonneg).mp hclear
        ⟨keep, hkeep, not_le.mp hright, not_le.mp hbottom⟩
    rcases h.clear with hclear | ⟨-, htop⟩
    · exact hover hclear
    · have hmin : minHeightIn pane ≤ COMPOSER_LAYOUT.minHeight := min_le_left _ _
      have hlow := not_le.mp hbottom
      linarith

/-- A drag keeps the opposite edges exactly when it does not cover the toggle with a box that can
rise. -/
theorem keepsOpposite_iff (h : Legal pane base) :
    KeepsOpposite pane base (clampGeometry (dragged pane base dx dy edge) pane) edge ↔
      ¬DragsOntoToggle pane base dx dy edge := by
  have hfit := dragged_fitting dx dy edge h
  obtain ⟨hright, hwidth, hlow, hacross, hleft, hbottom, hheight⟩ := dragAcross_spec dx edge h
  obtain ⟨hbottomEq, -, -, -, -, htop, hsameRight, hsameWidth⟩ := dragUpright_spec dy edge h hbottom hheight
  obtain ⟨houtWidth, houtRight⟩ := hfit.across
  have hwest : edge.includes .w = true →
      (clampGeometry (dragged pane base dx dy edge) pane).right = base.right := by
    intro hw
    rw [houtRight, dragged, hsameRight, hright, draggedRight, if_neg]
    rw [includes_west_east edge hw]
    decide
  have heast : edge.includes .e = true →
      leftIn pane (clampGeometry (dragged pane base dx dy edge) pane) = leftIn pane base := by
    intro he
    have hsame : leftIn pane (clampGeometry (dragged pane base dx dy edge) pane) =
        leftIn pane (dragAcross base dx edge pane) := by
      rw [leftIn, leftIn, houtRight, houtWidth, dragged, hsameRight, hsameWidth]
    rw [hsame, hleft he]
  have hnorth : edge.includes .n = true → (dragged pane base dx dy edge).bottom = base.bottom := by
    intro hn
    rw [dragged, hbottomEq, draggedBottom, if_neg]
    rw [includes_north_south edge hn]
    decide
  have hcovers : (∃ keep ∈ pane.keepOut, OverToggle pane base dx edge keep ∧
      BelowToggle pane base dy edge keep) ↔
      (dragged pane base dx dy edge).bottom < keepHeight pane (dragged pane base dx dy edge).right := by
    rw [← not_le, keepHeight_le_iff pane hfit.bottom_nonneg, not_not]
    have hrightEq : (dragged pane base dx dy edge).right = draggedRight pane base dx edge :=
      hsameRight.trans hright
    have hdownEq : (dragged pane base dx dy edge).bottom = draggedBottom pane base dy edge := hbottomEq
    rw [hrightEq, hdownEq]
    simp only [overToggle_iff, belowToggle_iff]
  unfold DragsOntoToggle
  rw [hcovers]
  by_cases hcover :
      (dragged pane base dx dy edge).bottom < keepHeight pane (dragged pane base dx dy edge).right
  · have hbottomIff := lifted_bottom hfit hcover
    have htopIff := lifted_top hfit hcover
    constructor
    · rintro hkeeps ⟨⟨hn, hrise⟩ | ⟨hs, hrise⟩, -⟩
      · refine hrise ?_
        have hstays := hkeeps.north hn
        rw [← hnorth hn] at hstays ⊢
        exact hbottomIff.mp hstays
      · have hstays := hkeeps.south hs
        rw [← htop hs] at hstays
        have hzero := htopIff.mp hstays
        have hbase : topIn pane base = 0 := (htop hs).symm.trans hzero
        rw [topIn] at hbase
        exact hrise (by linarith)
    · intro hsafe
      have hstuck : ¬CanRise pane base edge := fun hrise => hsafe ⟨hrise, hcover⟩
      refine ⟨hwest, heast, fun hn => ?_, fun hs => ?_⟩
      · have hroom : base.bottom + minHeightIn pane = pane.height := by
          by_contra hne
          exact hstuck (.inl ⟨hn, hne⟩)
        rw [← hnorth hn] at hroom ⊢
        exact hbottomIff.mpr hroom
      · have hroom : base.bottom + base.height = pane.height := by
          by_contra hne
          exact hstuck (.inr ⟨hs, hne⟩)
        have hzero : topIn pane base = 0 := by
          rw [topIn]
          linarith
        rw [← htop hs] at hzero ⊢
        exact htopIff.mpr hzero
  · rw [clamp_eq_self (hfit.legal (.inl (not_lt.mp hcover)))] at hwest heast ⊢
    exact iff_of_true ⟨hwest, heast, hnorth, htop⟩ fun hdrag => hcover hdrag.2

end Guarantee

/-- The composer card has a legal box, and a drag keeps the opposite edges, exactly when the drag
does not cover the toggle. -/
theorem composer_box (pane : PaneBox K) (g : ComposerGeometry K) (dx dy threshold : K)
    (edge : ResizeEdge) :
    LegalBox pane g dx dy threshold edge ↔ ¬DragsOntoToggle pane (clampGeometry g pane) dx dy edge := by
  rw [← keepsOpposite_iff clamp_legal]
  constructor
  · exact fun h => h.opposite
  · exact fun h => ⟨clamp_legal.placed, clamp_clamp, h, clamp_clamp, clamp_clamp, clamp_clamp⟩

/-! ### A south edge dragged onto the toggle -/

def windowPane : PaneBox ℚ where
  width := 1000
  height := 600
  width_nonneg := by norm_num
  height_nonneg := by norm_num
  keepOut := some ⟨40, 40, by norm_num, by norm_num⟩

/-- A card that stands on the toggle. -/
def standing : ComposerGeometry ℚ := ⟨0, 40, 720, 240⟩

/-- A west edge cannot lift the card, so its drag stays legal beside the toggle. -/
theorem composer_box_widened :
    LegalBox windowPane standing (-30) 0 COMPOSER_LAYOUT.snapThreshold .w := by
  refine (composer_box windowPane standing (-30) 0 _ .w).mpr ?_
  rintro ⟨⟨hn, -⟩ | ⟨hs, -⟩, -⟩
  · exact absurd hn (by decide)
  · exact absurd hs (by decide)

theorem composer_box_slides :
    ¬∀ (pane : PaneBox ℚ) (g : ComposerGeometry ℚ) (dx dy threshold : ℚ) (edge : ResizeEdge),
      LegalBox pane g dx dy threshold edge := by
  intro h
  have hkept := (h windowPane standing 0 40 COMPOSER_LAYOUT.snapThreshold .s).opposite.south rfl
  revert hkept
  decide +kernel

end PocketShell.Composer.Geometry
