import Mathlib

/-!
# Own properties of an object

An object is its own properties, each key once, in the order they were created. Keys
that are array indices, which the language moves to the front, keep their place.
-/

namespace Js

variable {K V : Type} [DecidableEq K] {key k : K} {value : V} {o : List (K × V)}

/-- `o[key]` -/
def property (key : K) (o : List (K × V)) : Option V := (o.find? (·.1 = key)).map Prod.snd

/-- `o[key] = value` -/
def assign (key : K) (value : V) : List (K × V) → List (K × V)
  | [] => [(key, value)]
  | (k, v) :: rest => if k = key then (key, value) :: rest else (k, v) :: assign key value rest

/-- `delete o[key]` -/
def remove (key : K) (o : List (K × V)) : List (K × V) := o.filter (·.1 ≠ key)

def keys (o : List (K × V)) : List K := o.map Prod.fst

omit [DecidableEq K] in
/-- The keys of an object literal. -/
theorem once_of (names : List K) (h : keys o = names) (hn : names.Nodup) : (keys o).Nodup := h ▸ hn

omit [DecidableEq K] in
theorem nodup_single : (keys [(key, value)]).Nodup := List.nodup_singleton _

@[simp] theorem property_nil : property key ([] : List (K × V)) = none := rfl

theorem property_cons {v : V} : property key ((k, v) :: o) = if k = key then some v else property key o := by
  unfold property
  rw [List.find?_cons]
  by_cases hk : k = key <;> simp [hk]

@[simp] theorem property_assign_self : property key (assign key value o) = some value := by
  induction o with
  | nil => simp [assign, property_cons]
  | cons p o ih =>
    obtain ⟨k, v⟩ := p
    rw [assign]
    split
    · simp [property_cons]
    · next hk => rw [property_cons, if_neg hk, ih]

theorem property_assign_other (h : k ≠ key) : property k (assign key value o) = property k o := by
  induction o with
  | nil => simp [assign, property_cons, Ne.symm h]
  | cons p o ih =>
    obtain ⟨k', v⟩ := p
    rw [assign]
    split
    · next hk => rw [property_cons, property_cons, hk]; simp [Ne.symm h]
    · rw [property_cons, property_cons, ih]

theorem property_eq_none : property key o = none ↔ key ∉ keys o := by
  induction o with
  | nil => simp [keys]
  | cons p o ih =>
    obtain ⟨k, v⟩ := p
    rw [property_cons]
    split
    · next hk => simp [keys, hk]
    · next hk => simpa [keys, Ne.symm hk] using ih

/-- The first property with a key is the only one. -/
theorem property_eq_some (h : (keys o).Nodup) : property key o = some value ↔ (key, value) ∈ o := by
  induction o with
  | nil => simp
  | cons p o ih =>
    obtain ⟨k, v⟩ := p
    obtain ⟨hk, ho⟩ := List.nodup_cons.mp h
    rw [property_cons, List.mem_cons]
    split
    · next he =>
      refine ⟨fun h => .inl (by cases h; rw [he]), fun h => ?_⟩
      rcases h with h | h
      · cases h
        rfl
      · exact absurd (List.mem_map_of_mem (f := Prod.fst) h) (he ▸ hk)
    · next he =>
      rw [ih ho]
      exact ⟨.inr, fun h => h.resolve_left fun h => he (by cases h; rfl)⟩

theorem mem_of_property (h : property key o = some value) : (key, value) ∈ o := by
  obtain ⟨p, hp, rfl⟩ := Option.map_eq_some_iff.mp h
  have hk : p.1 = key := by simpa using List.find?_some hp
  exact hk ▸ List.mem_of_find?_eq_some hp

@[simp] theorem mem_keys_assign : k ∈ keys (assign key value o) ↔ k = key ∨ k ∈ keys o := by
  induction o with
  | nil => simp [assign, keys]
  | cons p o ih =>
    obtain ⟨k', v⟩ := p
    rw [assign]
    split
    · next hk => simp [keys, hk]
    · have ih' : k ∈ (assign key value o).map Prod.fst ↔ k = key ∨ k ∈ o.map Prod.fst := ih
      simp only [keys, List.map_cons, List.mem_cons, ih']
      exact or_left_comm

theorem nodup_assign (h : (keys o).Nodup) : (keys (assign key value o)).Nodup := by
  induction o with
  | nil => exact List.nodup_singleton _
  | cons p o ih =>
    obtain ⟨k, v⟩ := p
    obtain ⟨hk, ho⟩ := List.nodup_cons.mp h
    rw [assign]
    split
    · next he => exact List.nodup_cons.mpr ⟨he ▸ hk, ho⟩
    · next he =>
      refine List.nodup_cons.mpr ⟨fun hmem => ?_, ih ho⟩
      exact (mem_keys_assign.mp hmem).elim he hk

theorem mem_assign {p : K × V} (h : p ∈ assign key value o) : p = (key, value) ∨ p ∈ o := by
  induction o with
  | nil => exact .inl (List.mem_singleton.mp h)
  | cons q o ih =>
    obtain ⟨k, v⟩ := q
    rw [assign] at h
    split at h
    · rcases List.mem_cons.mp h with h | h
      · exact .inl h
      · exact .inr (List.mem_cons_of_mem _ h)
    · rcases List.mem_cons.mp h with h | h
      · exact .inr (h ▸ List.mem_cons_self)
      · exact (ih h).imp id (List.mem_cons_of_mem _)

theorem mem_remove {p : K × V} : p ∈ remove key o ↔ p ∈ o ∧ p.1 ≠ key := by
  simp [remove]

@[simp] theorem mem_keys_remove : k ∈ keys (remove key o) ↔ k ∈ keys o ∧ k ≠ key := by
  simp only [keys, List.mem_map, mem_remove]
  constructor
  · rintro ⟨p, ⟨hp, hk⟩, rfl⟩
    exact ⟨⟨p, hp, rfl⟩, hk⟩
  · rintro ⟨⟨p, hp, rfl⟩, hk⟩
    exact ⟨p, ⟨hp, hk⟩, rfl⟩

theorem nodup_remove (h : (keys o).Nodup) : (keys (remove key o)).Nodup :=
  h.sublist (List.filter_sublist.map Prod.fst)

@[simp] theorem property_remove_self : property key (remove key o) = none :=
  property_eq_none.mpr fun h => (mem_keys_remove.mp h).2 rfl

theorem property_remove_other (h : k ≠ key) : property k (remove key o) = property k o := by
  induction o with
  | nil => rfl
  | cons p o ih =>
    obtain ⟨k', v⟩ := p
    unfold remove at ih ⊢
    rw [List.filter_cons]
    split
    · rw [property_cons, property_cons, ih]
    · next hk =>
      have hk' : k' = key := by simpa using hk
      rw [ih, property_cons, if_neg (hk' ▸ Ne.symm h)]

/-- A new key goes to the end. -/
theorem assign_new (h : key ∉ keys o) : assign key value o = o ++ [(key, value)] := by
  induction o with
  | nil => rfl
  | cons p o ih =>
    obtain ⟨k, v⟩ := p
    rw [keys, List.map_cons, List.mem_cons, not_or] at h
    rw [assign, if_neg (Ne.symm h.1), ih h.2, List.cons_append]

end Js
