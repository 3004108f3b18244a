import Mathlib

/-!
# Calls chained on promises

Each call of a queue waits for the promise of the call before it. If a promise
settles only after the one it waits for, a call whose turn has come finds every
earlier call settled, and calls that act once, unsettled and in their turn act in
the order they were made.
-/

namespace Coop

/-- A queued call: its own promise, and the one it waits for. -/
structure ChainLink where
  ticket : Nat
  behind : Nat

/-- Every call waits for the one before it. -/
def Chained (ls : List ChainLink) : Prop := ls.IsChain fun a b => b.behind = a.ticket

namespace Chained

variable {ls ms : List ChainLink} {l : ChainLink} {S : List Nat}

theorem nil : Chained [] := List.isChain_nil

/-- A call queued behind the last one. -/
theorem snoc (h : Chained ls) (hl : ∀ m, ls.getLast? = some m → l.behind = m.ticket) :
    Chained (ls ++ [l]) := by
  refine List.isChain_append.mpr ⟨h, List.isChain_singleton _, fun m hm m' hm' => ?_⟩
  cases (Option.mem_some_iff.mp hm')
  exact hl m hm

theorem left (h : Chained (ls ++ ms)) : Chained ls := (List.isChain_append.mp h).1

/-- A call whose turn has come finds every earlier one settled. -/
theorem settled (hS : ∀ m ∈ ls, m.ticket ∈ S → m.behind ∈ S) (h : Chained (ls ++ [l]))
    (hl : l.behind ∈ S) : ∀ m ∈ ls, m.ticket ∈ S := by
  induction ls using List.reverseRecOn generalizing l with
  | nil => exact fun m hm => by cases hm
  | append_singleton ls m ih =>
    have hlast : l.behind = m.ticket := by
      refine (List.isChain_append.mp h).2.2 m ?_ l ?_
      · rw [List.getLast?_append, List.getLast?_singleton]
        rfl
      · rfl
    have hm : m.ticket ∈ S := hlast ▸ hl
    have hrest := ih (fun m' hm' => hS m' (List.mem_append_left _ hm')) h.left
      (hS m (List.mem_append_right _ (List.mem_singleton.mpr rfl)) hm)
    intro m' hm'
    rcases List.mem_append.mp hm' with hm' | hm'
    · exact hrest m' hm'
    · rw [List.mem_singleton.mp hm']
      exact hm

/-- The calls that have acted did so in their order, and the next one comes after
them: it is not settled, and each of them had its turn. -/
theorem acts_next {acted : List Nat} (h : Chained ls) (hS : ∀ m ∈ ls, m.ticket ∈ S → m.behind ∈ S)
    (hacted : acted.Sublist (ls.map ChainLink.ticket))
    (hturn : ∀ m ∈ ls, m.ticket ∈ acted → m.behind ∈ S) (hl : l ∈ ls) (hnew : l.ticket ∉ acted)
    (hopen : l.ticket ∉ S) (hb : l.behind ∈ S) :
    (acted ++ [l.ticket]).Sublist (ls.map ChainLink.ticket) ∧ ∀ t ∈ acted, t ∈ S := by
  obtain ⟨as, bs, rfl⟩ := List.append_of_mem hl
  have hchain : ∀ cs m ds, bs = cs ++ m :: ds → Chained ((as ++ l :: cs) ++ [m]) := by
    rintro cs m ds rfl
    have h' : Chained (((as ++ l :: cs) ++ [m]) ++ ds) := by simpa using h
    exact h'.left
  have hbefore : ∀ m ∈ as, m.ticket ∈ S := by
    refine settled (l := l) (fun m hm => hS m (List.mem_append_left _ hm)) ?_ hb
    have h' : Chained ((as ++ [l]) ++ bs) := by simpa using h
    exact h'.left
  -- none of those that have acted was called after `l`
  have hafter : ∀ m ∈ bs, m.ticket ∉ acted := by
    intro m hm hmem
    obtain ⟨cs, ds, hbs⟩ := List.append_of_mem hm
    have hmem' : m ∈ as ++ l :: bs := List.mem_append_right _ (List.mem_cons_of_mem _ hm)
    refine hopen (settled (l := m) (fun m' hm' => hS m' ?_) (hchain cs m ds hbs)
      (hturn m hmem' hmem) l (List.mem_append_right _ List.mem_cons_self))
    rcases List.mem_append.mp hm' with hm' | hm'
    · exact List.mem_append_left _ hm'
    · refine List.mem_append_right _ ?_
      rcases List.mem_cons.mp hm' with rfl | hm'
      · exact List.mem_cons_self
      · exact List.mem_cons_of_mem _ (hbs ▸ List.mem_append_left _ hm')
  rw [List.map_append, List.map_cons] at hacted ⊢
  obtain ⟨xs, ys, rfl, hxs, hys⟩ := List.sublist_append_iff.mp hacted
  have hnil : ys = [] := by
    refine List.eq_nil_iff_forall_not_mem.mpr fun y hy => ?_
    rcases List.mem_cons.mp (hys.subset hy) with rfl | hy'
    · exact hnew (List.mem_append_right _ hy)
    · obtain ⟨m, hm, rfl⟩ := List.mem_map.mp hy'
      exact hafter m hm (List.mem_append_right _ hy)
  subst hnil
  rw [List.append_nil]
  refine ⟨hxs.append ((List.nil_sublist _).cons_cons _), fun t ht => ?_⟩
  obtain ⟨m, hm, rfl⟩ := List.mem_map.mp (hxs.subset ht)
  exact hbefore m hm

end Chained

end Coop
