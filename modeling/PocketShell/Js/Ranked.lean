import PocketShell.Js.Object

/-!
# A stable sort by ranks

Elements are sorted by the place of their keys in a list. What has no place stands behind
what has one, in the order it had (`sort_ranked`).
-/

namespace Js

section

variable {K : Type} [DecidableEq K] {key : K}

/-- `new Map(order.map((key, i) => [key, i]))` -/
def ranks (order : List K) : List (K × Nat) :=
  order.zipIdx.foldl (fun map p => assign p.1 p.2 map) []

/-- The place of a key. -/
def rank (order : List K) (key : K) : Option Nat := property key (ranks order)

def isRanked (order : List K) (key : K) : Bool := (rank order key).isSome

/-- `(i ?? Infinity) - (j ?? Infinity)` is not positive. It is no number for two missing
places, which counts as 0. -/
def rankLe : Option Nat → Option Nat → Bool
  | some i, some j => i ≤ j
  | some _, none => true
  | none, some _ => false
  | none, none => true

theorem rankLe_trans : ∀ i j k, rankLe i j = true → rankLe j k = true → rankLe i k = true := by
  intro i j k hij hjk
  cases i <;> cases j <;> cases k <;> simp_all [rankLe]
  omega

theorem rankLe_total : ∀ i j, (rankLe i j || rankLe j i) = true := by
  intro i j
  cases i <;> cases j <;> simp [rankLe]
  omega

theorem property_foldl_zipIdx : ∀ {order : List K} {n : Nat} {map : List (K × Nat)}, order.Nodup →
    property key ((order.zipIdx n).foldl (fun map p => assign p.1 p.2 map) map) =
      if key ∈ order then some (n + order.idxOf key) else property key map
  | [], _, _, _ => by simp
  | head :: order, n, map, h => by
    obtain ⟨hhead, horder⟩ := List.nodup_cons.mp h
    rw [List.zipIdx_cons, List.foldl_cons, property_foldl_zipIdx horder]
    by_cases hkey : key = head
    · rw [if_neg (hkey ▸ hhead), if_pos (hkey ▸ List.mem_cons_self), hkey, property_assign_self,
        List.idxOf_cons_self]
      rfl
    · rw [property_assign_other hkey]
      by_cases hmem : key ∈ order
      · rw [if_pos hmem, if_pos (List.mem_cons_of_mem head hmem), List.idxOf_cons_ne order (Ne.symm hkey)]
        exact congrArg some (by omega)
      · rw [if_neg hmem, if_neg fun h => (List.mem_cons.mp h).elim hkey hmem]

theorem rank_eq {order : List K} (h : order.Nodup) :
    rank order key = if key ∈ order then some (order.idxOf key) else none := by
  unfold rank ranks
  rw [property_foldl_zipIdx h, property_nil, Nat.zero_add]

theorem isRanked_iff {order : List K} (h : order.Nodup) : isRanked order key = true ↔ key ∈ order := by
  unfold isRanked
  rw [rank_eq h]
  split
  · next hmem => exact iff_of_true rfl hmem
  · next hmem => exact iff_of_false (by simp) hmem

omit [DecidableEq K] in
/-- A sublist of a list without repetitions is what the list has of it. -/
theorem filter_sublist_eq {part whole : List K} (h : part.Sublist whole) (hwhole : whole.Nodup) {p : K → Bool}
    (hp : ∀ key, p key = true ↔ key ∈ part) : whole.filter p = part := by
  have hself : part.filter p = part := List.filter_eq_self.mpr fun key hkey => (hp key).mpr hkey
  have hsub : part.Sublist (whole.filter p) := hself ▸ h.filter p
  refine (hsub.eq_of_length_le ?_).symm
  refine ((hwhole.filter p).subperm fun key hkey => ?_).length_le
  exact (hp key).mp (List.mem_filter.mp hkey).2

end

section

variable {K α : Type} [DecidableEq K] {key : α → K} {order : List K} {l target : List α}

def byRank (key : α → K) (order : List K) (a b : α) : Bool := rankLe (rank order (key a)) (rank order (key b))

theorem byRank_trans (a b c : α) : byRank key order a b = true → byRank key order b c = true →
    byRank key order a c = true := rankLe_trans _ _ _

theorem byRank_total (a b : α) : (byRank key order a b || byRank key order b a) = true := rankLe_total _ _

/-- `l.sort(byRank)` -/
def sortByRank (key : α → K) (order : List K) (l : List α) : List α := l.mergeSort (byRank key order)

theorem sortByRank_perm (l : List α) : (sortByRank key order l).Perm l := List.mergeSort_perm _ _

theorem sortByRank_pairwise (l : List α) :
    (sortByRank key order l).Pairwise fun a b => byRank key order a b = true :=
  List.pairwise_mergeSort byRank_trans byRank_total l

@[simp] theorem sortByRank_nil (l : List α) : sortByRank key [] l = l := by
  refine List.mergeSort_of_pairwise ?_
  exact List.pairwise_of_forall fun _ _ => rfl

/-- What has no place keeps its order. -/
theorem sortByRank_unranked (l : List α) :
    (sortByRank key order l).filter (fun a => !isRanked order (key a)) =
      l.filter fun a => !isRanked order (key a) := by
  have hnone : ∀ a ∈ l.filter (fun a => !isRanked order (key a)), rank order (key a) = none := by
    intro a ha
    have hnot := (List.mem_filter.mp ha).2
    unfold isRanked at hnot
    simpa using hnot
  have hsorted : (l.filter fun a => !isRanked order (key a)).Pairwise fun a b => byRank key order a b = true :=
    List.pairwise_of_forall_mem_list fun a ha b hb => by rw [byRank, hnone a ha, hnone b hb]; rfl
  have hsub := List.sublist_mergeSort byRank_trans byRank_total hsorted List.filter_sublist
  have hself : ((l.filter fun a => !isRanked order (key a)).filter fun a => !isRanked order (key a)) =
      l.filter fun a => !isRanked order (key a) := by
    rw [List.filter_filter]
    simp
  have hkept := hself ▸ hsub.filter fun a => !isRanked order (key a)
  exact (hkept.eq_of_length ((sortByRank_perm l).filter _).length_eq.symm).symm

/-- What has a place comes first. -/
theorem sortByRank_split (l : List α) :
    sortByRank key order l = (sortByRank key order l).filter (fun a => isRanked order (key a)) ++
      (sortByRank key order l).filter fun a => !isRanked order (key a) := by
  have hsorted := @sortByRank_pairwise K α _ key order l
  generalize sortByRank key order l = sorted at hsorted
  induction sorted with
  | nil => rfl
  | cons a sorted ih =>
    obtain ⟨hhead, htail⟩ := List.pairwise_cons.mp hsorted
    by_cases ha : isRanked order (key a) = true
    · simp only [List.filter_cons, ha, if_true, Bool.not_true, Bool.false_eq_true, if_false, List.cons_append]
      rw [← ih htail]
    · have hnone : rank order (key a) = none := by simpa [isRanked] using ha
      have hrest : ∀ b ∈ sorted, isRanked order (key b) = false := by
        intro b hb
        have hle := hhead b hb
        rw [byRank, hnone] at hle
        unfold isRanked
        cases hb' : rank order (key b) with
        | none => rfl
        | some place =>
          rw [hb'] at hle
          cases hle
      have hall : sorted.filter (fun b => isRanked order (key b)) = [] :=
        List.filter_eq_nil_iff.mpr fun b hb => by simp [hrest b hb]
      rw [hall, List.nil_append] at ih
      simp only [List.filter_cons, ha, hall, Bool.not_false, if_true, Bool.false_eq_true, if_false, List.nil_append]
      rw [← ih htail]

/-- A list that stands in the order of `order` is what the sort makes of any permutation of it,
as far as it has places. -/
theorem sort_ranked (horder : order.Nodup) (hkeys : (l.map key).Nodup) (hperm : target.Perm l)
    (hplaces : ((target.map key).filter (isRanked order)).Sublist order) :
    sortByRank key order l = target.filter (fun a => isRanked order (key a)) ++
      l.filter fun a => !isRanked order (key a) := by
  rw [sortByRank_split, sortByRank_unranked]
  congr 1
  have hmem : ∀ {a}, a ∈ (sortByRank key order l).filter (fun a => isRanked order (key a)) →
      a ∈ l ∧ key a ∈ order := fun ha =>
    ⟨(sortByRank_perm l).mem_iff.mp (List.mem_filter.mp ha).1, (isRanked_iff horder).mp (List.mem_filter.mp ha).2⟩
  refine @List.Perm.eq_of_pairwise α (fun a b => byRank key order a b = true) _ _ ?_ ?_ ?_ ?_
  · intro a b ha hb hab hba
    obtain ⟨ha, hakey⟩ := hmem ha
    have hb' : b ∈ l := hperm.mem_iff.mp (List.mem_filter.mp hb).1
    have hbkey : key b ∈ order := (isRanked_iff horder).mp (List.mem_filter.mp hb).2
    rw [byRank, rank_eq horder, rank_eq horder, if_pos hakey, if_pos hbkey] at hab hba
    have hplace : order.idxOf (key a) = order.idxOf (key b) :=
      le_antisymm (of_decide_eq_true hab) (of_decide_eq_true hba)
    exact List.inj_on_of_nodup_map hkeys ha hb' ((List.idxOf_inj hakey).mp hplace)
  · exact (sortByRank_pairwise l).sublist List.filter_sublist
  · have hidx : order.Pairwise fun a b => rankLe (rank order a) (rank order b) = true := by
      refine List.pairwise_iff_getElem.mpr fun i j hi hj hlt => ?_
      rw [rank_eq horder, rank_eq horder, if_pos (List.getElem_mem hi), if_pos (List.getElem_mem hj),
        horder.idxOf_getElem i hi, horder.idxOf_getElem j hj]
      exact decide_eq_true hlt.le
    have hfiltered := hidx.sublist hplaces
    rw [List.filter_map] at hfiltered
    exact List.pairwise_map.mp hfiltered
  · exact ((sortByRank_perm l).trans hperm.symm).filter _

end

end Js
