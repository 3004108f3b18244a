import PocketShell.Js.Number

/-!
# Objects whose property order is not observed

A dictionary holds every key once, in the order that `sort` gives the keys: two
dictionaries with the same properties are equal, whatever the order they were made in
(`ofList_perm`). `ownOrder` is the order in which the language lists the properties.
-/

namespace Js

/-- The code units that `sort` compares. -/
def codes (text : Text) : List Nat := text.map UInt16.toNat

theorem codes_injective : Function.Injective codes :=
  List.map_injective_iff.mpr fun _ _ h => UInt16.toNat_inj.mp h

variable {V : Type}

/-- The number of a key that is an array index. -/
def arrayIndex (key : Text) : Option Nat :=
  let n := readNatural key
  if naturalText n = key ∧ n < 4294967295 then some n else none

/-- Array indices come first, in ascending order. -/
def ownOrder (members : List (Text × V)) : List (Text × V) :=
  (members.filter fun p => (arrayIndex p.1).isSome).mergeSort
      (fun p q => (arrayIndex p.1).getD 0 ≤ (arrayIndex q.1).getD 0) ++
    members.filter fun p => !(arrayIndex p.1).isSome

theorem ownOrder_map {W : Type} (f : V → W) (members : List (Text × V)) :
    ownOrder (members.map fun p => (p.1, f p.2)) = (ownOrder members).map fun p => (p.1, f p.2) := by
  have hsort := @List.map_mergeSort _ _ (fun p q => decide ((arrayIndex p.1).getD 0 ≤ (arrayIndex q.1).getD 0))
    (fun p q => decide ((arrayIndex p.1).getD 0 ≤ (arrayIndex q.1).getD 0)) (fun p : Text × V => (p.1, f p.2))
    (members.filter fun p => (arrayIndex p.1).isSome) fun _ _ _ _ => rfl
  unfold ownOrder
  rw [List.map_append, hsort, List.filter_map, List.filter_map]
  rfl

/-- Properties that are created in their order keep it. -/
theorem ownOrder_ownOrder (members : List (Text × V)) : ownOrder (ownOrder members) = ownOrder members := by
  unfold ownOrder
  generalize hindices : (members.filter fun p => (arrayIndex p.1).isSome).mergeSort
    (fun p q => (arrayIndex p.1).getD 0 ≤ (arrayIndex q.1).getD 0) = indices
  have hindex : ∀ p ∈ indices, (arrayIndex p.1).isSome = true := by
    subst hindices
    exact fun p hp => (List.mem_filter.mp ((List.mergeSort_perm _ _).mem_iff.mp hp)).2
  have hsorted : indices.Pairwise fun p q => decide ((arrayIndex p.1).getD 0 ≤ (arrayIndex q.1).getD 0) = true := by
    subst hindices
    refine List.pairwise_mergeSort (fun a b c hab hbc => ?_) (fun a b => ?_) _
    · exact decide_eq_true ((of_decide_eq_true hab).trans (of_decide_eq_true hbc))
    · simpa using Nat.le_total _ _
  have hfirst : (indices ++ members.filter fun p => !(arrayIndex p.1).isSome).filter
      (fun p => (arrayIndex p.1).isSome) = indices := by
    rw [List.filter_append, List.filter_eq_self.mpr hindex, List.filter_filter]
    simp only [Bool.and_not_self, List.filter_false, List.append_nil]
  have hrest : (indices ++ members.filter fun p => !(arrayIndex p.1).isSome).filter
      (fun p => !(arrayIndex p.1).isSome) = members.filter fun p => !(arrayIndex p.1).isSome := by
    rw [List.filter_append, List.filter_eq_nil_iff.mpr (fun p hp => by simp [hindex p hp]), List.filter_filter]
    simp
  rw [hfirst, hrest, List.mergeSort_of_pairwise hsorted]

theorem ownOrder_perm (members : List (Text × V)) : (ownOrder members).Perm members :=
  ((List.mergeSort_perm ..).append_right _).trans (List.filter_append_perm _ _)

/-- The keys stand in their order. -/
abbrev Sorted (entries : List (Text × V)) : Prop :=
  entries.Pairwise fun p q => codes p.1 < codes q.1

structure Dict (V : Type) where
  entries : List (Text × V)
  sorted : Sorted entries

namespace Dict

variable {key : Text} {value : V} {entries : List (Text × V)}

def empty : Dict V := ⟨[], List.Pairwise.nil⟩

def insert (key : Text) (value : V) : List (Text × V) → List (Text × V)
  | [] => [(key, value)]
  | (k, v) :: rest =>
    if codes key < codes k then (key, value) :: (k, v) :: rest
    else if k = key then (key, value) :: rest
    else (k, v) :: insert key value rest

theorem mem_insert {p : Text × V} (h : p ∈ insert key value entries) :
    p = (key, value) ∨ p ∈ entries := by
  induction entries with
  | nil => exact .inl (List.mem_singleton.mp h)
  | cons q entries ih =>
    obtain ⟨k, v⟩ := q
    rw [insert] at h
    split at h
    · exact List.mem_cons.mp h
    split at h
    · exact (List.mem_cons.mp h).imp id (List.mem_cons_of_mem _)
    · rcases List.mem_cons.mp h with h | h
      · exact .inr (h ▸ List.mem_cons_self)
      · exact (ih h).imp id (List.mem_cons_of_mem _)

theorem sorted_insert (h : Sorted entries) : Sorted (insert key value entries) := by
  induction entries with
  | nil => exact List.pairwise_singleton _ _
  | cons q entries ih =>
    obtain ⟨k, v⟩ := q
    obtain ⟨hk, hs⟩ := List.pairwise_cons.mp h
    rw [insert]
    split
    · next hlt =>
      refine List.pairwise_cons.mpr ⟨fun p hp => ?_, h⟩
      rcases List.mem_cons.mp hp with rfl | hp
      · exact hlt
      · exact hlt.trans (hk p hp)
    split
    · next he => exact List.pairwise_cons.mpr ⟨he ▸ hk, hs⟩
    · next hlt hne =>
      refine List.pairwise_cons.mpr ⟨fun p hp => ?_, ih hs⟩
      rcases mem_insert hp with rfl | hp
      · exact lt_of_le_of_ne (not_lt.mp hlt) fun he => hne (codes_injective he)
      · exact hk p hp

/-- `d[key] = value` -/
def set (d : Dict V) (key : Text) (value : V) : Dict V :=
  ⟨insert key value d.entries, sorted_insert d.sorted⟩

/-- The object with these properties, a later one over an earlier one of its key. -/
def ofList (entries : List (Text × V)) : Dict V := entries.foldl (fun d p => d.set p.1 p.2) empty

theorem insert_perm (h : key ∉ keys entries) :
    (insert key value entries).Perm ((key, value) :: entries) := by
  induction entries with
  | nil => exact .refl _
  | cons q entries ih =>
    obtain ⟨k, v⟩ := q
    obtain ⟨hne, hrest⟩ := not_or.mp (List.mem_cons.not.mp h)
    rw [insert]
    split
    · exact .refl _
    rw [if_neg (Ne.symm hne)]
    exact ((ih hrest).cons _).trans (.swap _ _ _)

theorem foldl_perm (more : List (Text × V)) (d : Dict V) (h : (keys (d.entries ++ more)).Nodup) :
    (more.foldl (fun d p => d.set p.1 p.2) d).entries.Perm (d.entries ++ more) := by
  induction more generalizing d with
  | nil => rw [List.append_nil]; exact .refl _
  | cons p more ih =>
    obtain ⟨key, value⟩ := p
    have hmiddle : (d.entries ++ (key, value) :: more).Perm ((key, value) :: (d.entries ++ more)) :=
      List.perm_middle
    have hnodup : (keys ((key, value) :: (d.entries ++ more))).Nodup :=
      (hmiddle.map Prod.fst).nodup_iff.mp h
    have hnew : key ∉ keys d.entries := fun hmem => (List.nodup_cons.mp hnodup).1 <| by
      show key ∈ (d.entries ++ more).map Prod.fst
      rw [List.map_append]
      exact List.mem_append_left _ hmem
    have hset : ((d.set key value).entries ++ more).Perm ((key, value) :: (d.entries ++ more)) :=
      (insert_perm hnew).append_right more
    refine (ih (d.set key value) ?_).trans (hset.trans hmiddle.symm)
    exact (hset.map Prod.fst).nodup_iff.mpr hnodup

theorem nodup_keys (d : Dict V) : (keys d.entries).Nodup :=
  List.pairwise_map.mpr (d.sorted.imp fun h he => absurd (congrArg codes he) h.ne)

/-- The properties of a dictionary make it again, in any order. -/
theorem ofList_perm {d : Dict V} (h : entries.Perm d.entries) : ofList entries = d := by
  have hnodup : (keys entries).Nodup := (h.map Prod.fst).nodup_iff.mpr d.nodup_keys
  have hperm : (ofList entries).entries.Perm d.entries := (foldl_perm entries empty hnodup).trans h
  have hentries : (ofList entries).entries = d.entries := by
    refine hperm.eq_of_pairwise (fun p q _ _ hpq hqp => ?_) (ofList entries).sorted d.sorted
    exact absurd (hpq.trans hqp) (lt_irrefl _)
  obtain ⟨_, _⟩ := d
  cases hentries
  rfl

end Dict

end Js
