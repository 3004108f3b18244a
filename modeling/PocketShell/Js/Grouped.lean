import PocketShell.Js.Object

/-!
# Grouping by key

A map of groups, filled item by item: an item whose key is there goes into its group,
another one opens a group at the end.

* `file`: one item.
* `Filed`: what the map holds of the items that were filed.
* `Leads`: what comes first in a list.
-/

namespace Js

section Leads

variable {X Y : Type} {xs : List X} {p q : X → Prop}

/-- Some item with `p` is before every item with `q`. -/
def Leads (xs : List X) (p q : X → Prop) : Prop :=
  ∃ early late, xs = early ++ late ∧ (∃ x ∈ early, p x) ∧ ∀ x ∈ early, ¬ q x

theorem Leads.append (h : Leads xs p q) (more : List X) : Leads (xs ++ more) p q := by
  obtain ⟨early, late, rfl, hp, hq⟩ := h
  exact ⟨early, late ++ more, List.append_assoc .., hp, hq⟩

theorem Leads.congr {p' q' : X → Prop} (h : Leads xs p q) (hp : ∀ x ∈ xs, p x → p' x)
    (hq : ∀ x ∈ xs, q' x → q x) : Leads xs p' q' := by
  obtain ⟨early, late, rfl, ⟨x, hx, hpx⟩, hnot⟩ := h
  have hmem : ∀ x ∈ early, x ∈ early ++ late := fun x hx => List.mem_append_left late hx
  exact ⟨early, late, rfl, ⟨x, hx, hp x (hmem x hx) hpx⟩, fun x hx hqx => hnot x hx (hq x (hmem x hx) hqx)⟩

/-- What leads among the items of a kind leads among all of them. -/
theorem Leads.of_filter {r : X → Bool} (h : Leads (xs.filter r) p q) :
    Leads xs p (fun x => r x = true ∧ q x) := by
  obtain ⟨early, late, hxs, ⟨x, hx, hp⟩, hq⟩ := h
  obtain ⟨early', late', rfl, rfl, rfl⟩ := List.filter_eq_append_iff.mp hxs
  refine ⟨early', late', rfl, ⟨x, List.mem_of_mem_filter hx, hp⟩, fun y hy hqy => ?_⟩
  exact hq y (List.mem_filter.mpr ⟨hy, hqy.1⟩) hqy.2

theorem Leads.of_map {f : Y → X} {ys : List Y} (h : Leads (ys.map f) p q) :
    Leads ys (fun y => p (f y)) (fun y => q (f y)) := by
  obtain ⟨early, late, hys, ⟨x, hx, hp⟩, hq⟩ := h
  obtain ⟨early', late', rfl, rfl, rfl⟩ := List.map_eq_append_iff.mp hys
  obtain ⟨y, hy, rfl⟩ := List.mem_map.mp hx
  exact ⟨early', late', rfl, ⟨y, hy, hp⟩, fun y hy => hq (f y) (List.mem_map_of_mem hy)⟩

end Leads

variable {K V X : Type}

/-! ## First appearances -/

section

variable [BEq K] [LawfulBEq K]

theorem eraseDups_snoc (ks : List K) (k : K) :
    (ks ++ [k]).eraseDups = if k ∈ ks then ks.eraseDups else ks.eraseDups ++ [k] := by
  rw [List.eraseDups_append, List.removeAll]
  by_cases hk : k ∈ ks <;> simp [hk, List.eraseDups_cons]

theorem nodup_eraseDups (ks : List K) : ks.eraseDups.Nodup := by
  induction ks using List.reverseRecOn with
  | nil => exact List.nodup_nil
  | append_singleton ks k ih =>
    rw [eraseDups_snoc]
    split
    · exact ih
    · next hk =>
      rw [← List.concat_eq_append]
      exact ih.concat fun h => hk (List.mem_eraseDups.mp h)

theorem eraseDups_of_nodup {ks : List K} (h : ks.Nodup) : ks.eraseDups = ks := by
  induction ks using List.reverseRecOn with
  | nil => rfl
  | append_singleton ks k ih =>
    have hk : k ∉ ks := fun hk => (List.nodup_append.mp h).2.2 k hk k (List.mem_singleton_self k) rfl
    rw [eraseDups_snoc, if_neg hk, ih (List.nodup_append.mp h).1]

/-- Keys that are seeds, or are left out by `p`, add nothing that `p` keeps. -/
theorem filter_eraseDups {seeds ks : List K} {p : K → Bool} (hn : seeds.Nodup)
    (hseeds : ∀ k ∈ seeds, p k = true) (h : ∀ k ∈ ks, k ∈ seeds ∨ p k = false) :
    (seeds ++ ks).eraseDups.filter p = seeds := by
  induction ks using List.reverseRecOn with
  | nil =>
    rw [List.append_nil, eraseDups_of_nodup hn, List.filter_eq_self]
    exact hseeds
  | append_singleton ks k ih =>
    have ih := ih fun k hk => h k (List.mem_append_left _ hk)
    rw [← List.append_assoc, eraseDups_snoc]
    split
    · exact ih
    · next hnew =>
      have hk : p k = false :=
        (h k (List.mem_append_right _ (List.mem_singleton_self k))).resolve_left
          fun hseed => hnew (List.mem_append_left _ hseed)
      rw [List.filter_append, ih, List.filter_singleton, hk]
      simp

/-- The keys stand in the order of the first item with each. -/
theorem eraseDups_leads (keyOf : X → K) (xs : List X) :
    (xs.map keyOf).eraseDups.Pairwise fun k k' => Leads xs (keyOf · = k) (keyOf · = k') := by
  induction xs using List.reverseRecOn with
  | nil => exact List.Pairwise.nil
  | append_singleton xs x ih =>
    rw [List.map_append, List.map_singleton, eraseDups_snoc]
    have hold := ih.imp fun {k k'} h => Leads.append h [x]
    split
    · exact hold
    · next hx =>
      refine List.pairwise_append.mpr ⟨hold, List.pairwise_singleton _ _, fun k hk k' hk' => ?_⟩
      obtain rfl := List.mem_singleton.mp hk'
      obtain ⟨y, hy, rfl⟩ := List.mem_map.mp (List.mem_eraseDups.mp hk)
      exact ⟨xs, [x], rfl, ⟨y, hy, rfl⟩, fun z hz hkey => hx (List.mem_map.mpr ⟨z, hz, hkey⟩)⟩

end

/-! ## The map -/

variable [DecidableEq K]

/-- The group of `key` is pushed to, or opened. -/
def file (key : K) (opened : V) (push : V → V) : List (K × V) → List (K × V)
  | [] => [(key, opened)]
  | (k, v) :: rest => if k = key then (k, push v) :: rest else (k, v) :: file key opened push rest

variable {key : K} {opened : V} {push : V → V} {o : List (K × V)}

theorem keys_file : keys (file key opened push o) = if key ∈ keys o then keys o else keys o ++ [key] := by
  induction o with
  | nil => rfl
  | cons p o ih =>
    obtain ⟨k, v⟩ := p
    unfold file
    by_cases hk : k = key
    · simp [keys, hk]
    · rw [if_neg hk]
      have hhead : keys ((k, v) :: file key opened push o) = k :: keys (file key opened push o) := rfl
      rw [hhead, ih]
      by_cases hmem : key ∈ keys o
      · have hcons : key ∈ keys ((k, v) :: o) := List.mem_cons_of_mem k hmem
        rw [if_pos hmem, if_pos hcons]
        rfl
      · have hcons : key ∉ keys ((k, v) :: o) := by
          intro h
          exact (List.mem_cons.mp h).elim (fun h => hk h.symm) hmem
        rw [if_neg hmem, if_neg hcons]
        rfl

/-- An entry is the one of `key` or an old one. -/
theorem mem_file (hn : (keys o).Nodup) {p : K × V} (hp : p ∈ file key opened push o) :
    (p.1 = key ∧ ((∃ v, (key, v) ∈ o ∧ p.2 = push v) ∨ key ∉ keys o ∧ p.2 = opened)) ∨
      p.1 ≠ key ∧ p ∈ o := by
  induction o with
  | nil =>
    obtain rfl := List.mem_singleton.mp hp
    exact .inl ⟨rfl, .inr ⟨List.not_mem_nil, rfl⟩⟩
  | cons q o ih =>
    obtain ⟨k, v⟩ := q
    have hk : k ∉ keys o := (List.nodup_cons.mp hn).1
    have hnil : (keys o).Nodup := (List.nodup_cons.mp hn).2
    unfold file at hp
    split at hp
    · next heq =>
      subst heq
      rcases List.mem_cons.mp hp with rfl | hp
      · exact .inl ⟨rfl, .inl ⟨v, List.mem_cons_self, rfl⟩⟩
      · refine .inr ⟨fun h => hk ?_, List.mem_cons_of_mem _ hp⟩
        exact h ▸ List.mem_map_of_mem hp
    · next hne =>
      rcases List.mem_cons.mp hp with rfl | hp
      · exact .inr ⟨hne, List.mem_cons_self⟩
      · rcases ih hnil hp with ⟨h, ⟨w, hw, hpush⟩ | ⟨hnew, hopen⟩⟩ | ⟨h, hold⟩
        · exact .inl ⟨h, .inl ⟨w, List.mem_cons_of_mem _ hw, hpush⟩⟩
        · refine .inl ⟨h, .inr ⟨fun hmem => ?_, hopen⟩⟩
          exact (List.mem_cons.mp hmem).elim (fun heq => hne heq.symm) hnew
        · exact .inr ⟨h, List.mem_cons_of_mem _ hold⟩

/-- What holds of an opened group, and of a group that is pushed to, holds of all. -/
theorem forall_file {P : K → V → Prop} (ho : ∀ p ∈ o, P p.1 p.2) (hopen : P key opened)
    (hpush : ∀ v, P key v → P key (push v)) : ∀ p ∈ file key opened push o, P p.1 p.2 := by
  induction o with
  | nil =>
    intro p hp
    exact List.mem_singleton.mp hp ▸ hopen
  | cons q o ih =>
    obtain ⟨k, v⟩ := q
    have hhead : P k v := ho _ List.mem_cons_self
    have htail : ∀ p ∈ o, P p.1 p.2 := fun p hp => ho p (List.mem_cons_of_mem _ hp)
    intro p hp
    unfold file at hp
    split at hp
    · next heq =>
      rcases List.mem_cons.mp hp with rfl | hp
      · exact heq ▸ hpush v (heq ▸ hhead)
      · exact htail p hp
    · rcases List.mem_cons.mp hp with rfl | hp
      · exact hhead
      · exact ih htail p hp

/-! ## A list of items -/

variable {items : V → List X} {keyOf : X → K} {seeds : List K} {xs : List X}

/-- The keys are `seeds` and those of the items as they appeared; each group has the
items of its key, in their order. -/
structure Filed (items : V → List X) (keyOf : X → K) (seeds : List K) (xs : List X)
    (o : List (K × V)) : Prop where
  keys : keys o = (seeds ++ xs.map keyOf).eraseDups
  items : ∀ p ∈ o, items p.2 = xs.filter (keyOf · = p.1)

namespace Filed

theorem nodup (h : Filed items keyOf seeds xs o) : (Js.keys o).Nodup := h.keys ▸ nodup_eraseDups _

theorem seeded {start : List (K × V)} (hs : (Js.keys start).Nodup) (hempty : ∀ p ∈ start, items p.2 = []) :
    Filed items keyOf (Js.keys start) [] start where
  keys := by rw [List.map_nil, List.append_nil, eraseDups_of_nodup hs]
  items := hempty

/-- One more item. -/
theorem snoc (h : Filed items keyOf seeds xs o) {x : X} (hopen : items opened = [x])
    (hpush : ∀ v, items (push v) = items v ++ [x]) :
    Filed items keyOf seeds (xs ++ [x]) (file (keyOf x) opened push o) where
  keys := by
    rw [keys_file, h.keys, List.map_append, List.map_singleton, ← List.append_assoc, eraseDups_snoc]
    simp only [List.mem_eraseDups]
  items p hp := by
    rcases mem_file h.nodup hp with ⟨hkey, ⟨v, hv, hp⟩ | ⟨hnew, hp⟩⟩ | ⟨hkey, hp⟩
    · rw [hp, hpush, h.items _ hv, hkey]
      simp
    · have hnone : xs.filter (keyOf · = p.1) = [] := by
        rw [List.filter_eq_nil_iff]
        intro y hy hyk
        rw [h.keys, List.mem_eraseDups, ← hkey] at hnew
        exact hnew (List.mem_append_right _ (List.mem_map.mpr ⟨y, hy, of_decide_eq_true hyk⟩))
      rw [hp, hopen, List.filter_append, hnone, hkey]
      simp
    · rw [h.items p hp]
      simp [Ne.symm hkey]

/-- All the items of a list. -/
theorem all {opened : X → V} {push : X → V → V} {start : List (K × V)}
    (h : Filed items keyOf seeds [] start) (hopen : ∀ x, items (opened x) = [x])
    (hpush : ∀ x v, items (push x v) = items v ++ [x]) (xs : List X) :
    Filed items keyOf seeds xs (xs.foldl (fun o x => file (keyOf x) (opened x) (push x) o) start) := by
  induction xs using List.reverseRecOn with
  | nil => exact h
  | append_singleton xs x ih =>
    rw [List.foldl_append]
    exact ih.snoc (hopen x) (hpush x)

/-- Every item has a group. -/
theorem mem (h : Filed items keyOf seeds xs o) {x : X} (hx : x ∈ xs) :
    ∃ v, (keyOf x, v) ∈ o ∧ x ∈ items v := by
  have hkey : keyOf x ∈ Js.keys o := by
    rw [h.keys, List.mem_eraseDups]
    exact List.mem_append_right _ (List.mem_map_of_mem hx)
  obtain ⟨⟨_, v⟩, hp, rfl⟩ := List.mem_map.mp hkey
  refine ⟨v, hp, ?_⟩
  rw [h.items _ hp]
  exact List.mem_filter.mpr ⟨hx, decide_eq_true rfl⟩

/-- Only a seed can be empty. -/
theorem ne_nil (h : Filed items keyOf seeds xs o) {p : K × V} (hp : p ∈ o) (hs : p.1 ∉ seeds) :
    items p.2 ≠ [] := by
  have hkey : p.1 ∈ Js.keys o := List.mem_map_of_mem hp
  rw [h.keys, List.mem_eraseDups] at hkey
  obtain ⟨x, hx, hxk⟩ := List.mem_map.mp ((List.mem_append.mp hkey).resolve_left hs)
  rw [h.items p hp]
  exact List.ne_nil_of_mem (List.mem_filter.mpr ⟨hx, decide_eq_true hxk⟩)

/-- Where all other keys are left out by `p`, the seeds are what it keeps. -/
theorem filter_keys (h : Filed items keyOf seeds xs o) {p : K → Bool} (hn : seeds.Nodup)
    (hseeds : ∀ k ∈ seeds, p k = true) (hkeys : ∀ x ∈ xs, keyOf x ∈ seeds ∨ p (keyOf x) = false) :
    (Js.keys o).filter p = seeds := by
  rw [h.keys]
  refine filter_eraseDups hn hseeds fun k hk => ?_
  obtain ⟨x, hx, rfl⟩ := List.mem_map.mp hk
  exact hkeys x hx

end Filed

/-- The items of all keys are all the items. -/
theorem flatMap_filter_perm {ks : List K} (hn : ks.Nodup) (h : ∀ x ∈ xs, keyOf x ∈ ks) :
    (ks.flatMap fun k => xs.filter (keyOf · = k)).Perm xs := by
  induction ks generalizing xs with
  | nil =>
    cases xs with
    | nil => exact List.Perm.refl _
    | cons x xs => exact absurd (h x List.mem_cons_self) List.not_mem_nil
  | cons k ks ih =>
    obtain ⟨hk, hks⟩ := List.nodup_cons.mp hn
    have hrest : (ks.flatMap fun k => xs.filter (keyOf · = k)) =
        ks.flatMap fun k' => (xs.filter fun x => !decide (keyOf x = k)).filter (keyOf · = k') := by
      refine List.flatMap_congr fun k' hk' => ?_
      rw [List.filter_filter]
      refine List.filter_congr fun x _ => ?_
      by_cases hx : keyOf x = k'
      · have hne : k' ≠ k := fun heq => hk (heq ▸ hk')
        simp [hx, hne]
      · simp [hx]
    rw [List.flatMap_cons, hrest]
    refine ((ih hks fun x hx => ?_).append_left _).trans (List.filter_append_perm _ xs)
    obtain ⟨hx, hne⟩ := List.mem_filter.mp hx
    refine (List.mem_cons.mp (h x hx)).resolve_left fun heq => ?_
    simp [heq] at hne

/-- No item is lost and none is there twice. -/
theorem Filed.perm (h : Filed items keyOf seeds xs o) : (o.flatMap fun p => items p.2).Perm xs := by
  have heq : (o.flatMap fun p => items p.2) = (Js.keys o).flatMap fun k => xs.filter (keyOf · = k) := by
    rw [Js.keys, List.flatMap_map]
    exact List.flatMap_congr fun p hp => h.items p hp
  rw [heq]
  refine flatMap_filter_perm h.nodup fun x hx => ?_
  rw [h.keys, List.mem_eraseDups]
  exact List.mem_append_right _ (List.mem_map_of_mem hx)

/-- The groups stand in the order of their first items. -/
theorem Filed.leads (h : Filed items keyOf [] xs o) :
    o.Pairwise fun p p' => Leads xs (· ∈ items p.2) (· ∈ items p'.2) := by
  have hkeys : (Js.keys o).Pairwise fun k k' => Leads xs (keyOf · = k) (keyOf · = k') := by
    rw [h.keys]
    exact eraseDups_leads keyOf xs
  rw [Js.keys, List.pairwise_map] at hkeys
  refine hkeys.imp_of_mem fun {p p'} hp hp' hlead => hlead.congr ?_ ?_
  · intro x hx hkey
    rw [h.items p hp]
    exact List.mem_filter.mpr ⟨hx, decide_eq_true hkey⟩
  · intro x _ hx
    rw [h.items p' hp'] at hx
    exact of_decide_eq_true (List.mem_filter.mp hx).2

end Js
