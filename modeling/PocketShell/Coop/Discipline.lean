import PocketShell.Coop.Thread

/-!
# Token disciplines

A program logic for cooperative threads. A `Discipline` gives out tokens. The
owner of a token may rely on `keep` of that token across its awaits: everybody
else's writes respect it. Tokens are minted by writes, can be laid down in the
shared state (`held`) and picked up again, and are split between a thread and
the calls it forks. A token that is `owed` cannot be dropped: its owner must
lay it down, or be parked at a request that may `carry` it.

* `Discipline.wp`: what it takes for a thread to run within the discipline.
* `Ledger`: who owns what in a configuration; `run_ledger` keeps it over one
  uninterrupted run of a thread.
* `Sound.inv`, `Sound.seg`, `Sound.owed`: in every reachable configuration the
  invariant holds, every step meets its two-state guarantee, and every owed
  token is laid down or carried.
-/

namespace Coop

variable {σ Q L A T : Type} {R : Q → Type}

structure Discipline (sys : System σ R L A) (T : Type) where
  /-- Which steps the runs may take. -/
  ok : σ → Label R L A → Prop
  /-- Holds whenever no thread is in the middle of a run. -/
  inv : σ → Prop
  /-- What everybody may rely on across an await. -/
  base : σ → σ → Prop
  /-- What the owner of a token may rely on besides. -/
  keep : T → σ → σ → Prop
  minted : σ → Set T
  held : σ → Set T
  owed : Set T
  carry : Q → Set T
  /-- What a whole step, from one await to the next, guarantees. -/
  seg : Label R L A → σ → σ → Prop
  /-- What a thread knows when it stands at a loop head. -/
  loopInv : L → Set T → σ → Prop
  base_refl : ∀ s, base s s
  base_trans : ∀ s s' s'', base s s' → base s' s'' → base s s''
  keep_refl : ∀ x s, keep x s s
  keep_trans : ∀ x s s' s'', keep x s s' → keep x s' s'' → keep x s s''
  loop_mono : ∀ l o o' s, o ⊆ o' → loopInv l o s → loopInv l o' s

namespace Discipline

variable {sys : System σ R L A} (D : Discipline sys T)

/-- What the owner of `o` may rely on between two states. -/
def Rely (o : Set T) (s s' : σ) : Prop := D.base s s' ∧ ∀ x ∈ o, D.keep x s s'

/-- What the ledger says about the tokens of a thread that gets its turn. -/
def Owns (o : Set T) (s : σ) : Prop := o ⊆ D.minted s ∧ Disjoint o (D.held s)

/-- The tokens the owner of `o` can dispose of when it writes `s'` over `s`. -/
def pool (o : Set T) (s s' : σ) : Set T := o ∪ D.held s ∪ (D.minted s' \ D.minted s)

/-- The owner of `o` may write `s'` over `s`. -/
structure Move (o : Set T) (s s' : σ) : Prop where
  base : D.base s s'
  minted : D.minted s ⊆ D.minted s'
  held : D.held s' ⊆ D.pool o s s'
  keep : ∀ x ∈ D.minted s, x ∉ o → x ∉ D.held s → D.keep x s s'

/-- What is left to the writer: all it could dispose of and did not lay down. -/
def after (o : Set T) (s s' : σ) : Set T := D.pool o s s' \ D.held s'

/-- No token of `o` is owed. -/
def Settled (o : Set T) : Prop := ∀ x ∈ o, x ∉ D.owed

/-- The owner of `o` may park at `q`. -/
def Carries (q : Q) (o : Set T) : Prop := ∀ x ∈ o, x ∈ D.owed → x ∈ D.carry q

/-- Run from `s` with the tokens `o`, the thread keeps the discipline now and
after every answer it can get, and the run that starts at `s` ends in `post`. -/
def wp : Thread σ R L → Set T → σ → (σ → Prop) → Prop
  | .done, o, s, post => D.Settled o ∧ post s
  | .read k, o, s, post => wp (k s) o s post
  | .write s' k, o, s, post => D.Move o s s' ∧ wp k (D.after o s s') s' post
  | .await q k, o, s, post =>
    D.Carries q o ∧ post s ∧
      ∀ s₁ a, D.Rely o s s₁ → D.Owns o s₁ → D.inv s₁ → sys.ready s₁ q a = true →
        D.ok s₁ (.reply q a) → wp (k a) o s₁ fun s₂ => D.inv s₂ ∧ D.seg (.reply q a) s₁ s₂
  | .fork t k, o, s, post =>
    ∃ o₁ o₂, o = o₁ ∪ o₂ ∧ Disjoint o₁ o₂ ∧ wp t o₁ s fun s₁ => wp k o₂ s₁ post
  | .goto l, o, s, post =>
    D.Settled o ∧ post s ∧ ∀ s₁, D.Rely o s s₁ → D.Owns o s₁ → D.inv s₁ → D.loopInv l o s₁

/-- A parked thread keeps the discipline from here on. -/
def Safe (o : Set T) (s : σ) : Parked σ R L → Prop
  | .waiting q k =>
    D.Carries q o ∧
      ∀ s₁ a, D.Rely o s s₁ → D.Owns o s₁ → D.inv s₁ → sys.ready s₁ q a = true →
        D.ok s₁ (.reply q a) → D.wp (k a) o s₁ fun s₂ => D.inv s₂ ∧ D.seg (.reply q a) s₁ s₂
  | .looping l =>
    D.Settled o ∧ ∀ s₁, D.Rely o s s₁ → D.Owns o s₁ → D.inv s₁ → D.loopInv l o s₁

/-- The program keeps the discipline: every call does, and every loop body does
from what is known at its head. -/
structure Sound (s₀ : σ) : Prop where
  init : D.inv s₀
  heldMinted : D.held s₀ ⊆ D.minted s₀
  owedHeld : ∀ x ∈ D.minted s₀, x ∈ D.owed → x ∈ D.held s₀
  start : ∀ a s, D.inv s → D.ok s (.start a) →
    D.wp (sys.body a) ∅ s fun s₂ => D.inv s₂ ∧ D.seg (.start a) s s₂
  loop : ∀ l o s, D.inv s → D.Owns o s → D.loopInv l o s → D.ok s (.loop l) →
    D.wp (sys.loop l) o s fun s₂ => D.inv s₂ ∧ D.seg (.loop l) s s₂

variable {D}

@[simp] theorem wp_done {o : Set T} {s : σ} {post : σ → Prop} :
    D.wp .done o s post ↔ D.Settled o ∧ post s := Iff.rfl

@[simp] theorem wp_read {k : σ → Thread σ R L} {o : Set T} {s : σ} {post : σ → Prop} :
    D.wp (.read k) o s post ↔ D.wp (k s) o s post := Iff.rfl

theorem Rely.refl (o : Set T) (s : σ) : D.Rely o s s :=
  ⟨D.base_refl s, fun x _ => D.keep_refl x s⟩

theorem Rely.trans {o : Set T} {s s' s'' : σ} (h : D.Rely o s s') (h' : D.Rely o s' s'') :
    D.Rely o s s'' :=
  ⟨D.base_trans _ _ _ h.1 h'.1, fun x hx => D.keep_trans x _ _ _ (h.2 x hx) (h'.2 x hx)⟩

variable {t : Thread σ R L}

/-- The post-condition of a run can be weakened. -/
theorem wp_mono : ∀ {o : Set T} {s : σ} {post post' : σ → Prop},
    (∀ s, post s → post' s) → D.wp t o s post → D.wp t o s post' := by
  induction t with
  | done => exact fun himp h => ⟨h.1, himp _ h.2⟩
  | read k ih => exact fun himp h => ih _ himp h
  | write s' k ih => exact fun himp h => ⟨h.1, ih himp h.2⟩
  | await q k _ => exact fun himp h => ⟨h.1, himp _ h.2.1, h.2.2⟩
  | fork t k iht ihk =>
    rintro o s post post' himp ⟨o₁, o₂, hu, hd, h⟩
    exact ⟨o₁, o₂, hu, hd, iht (fun _ h' => ihk himp h') h⟩
  | goto l => exact fun himp h => ⟨h.1, himp _ h.2.1, h.2.2⟩

theorem wp_post : ∀ {o : Set T} {s : σ} {post : σ → Prop}, D.wp t o s post → post (t.run s).1 := by
  induction t with
  | done => exact fun h => h.2
  | read k ih => exact fun h => ih _ h
  | write s' k ih => exact fun h => ih h.2
  | await q k _ => exact fun h => h.2.1
  | fork t k iht ihk => exact fun ⟨_, _, _, _, h⟩ => ihk (iht h)
  | goto l => exact fun h => h.2.1

/-- Where a run ends does not depend on what is asked of it there. -/
theorem wp_run : ∀ {o : Set T} {s : σ} {post post' : σ → Prop},
    D.wp t o s post → post' (t.run s).1 → D.wp t o s post' := by
  induction t with
  | done => exact fun h h' => ⟨h.1, h'⟩
  | read k ih => exact fun h => ih _ h
  | write s' k ih => exact fun h h' => ⟨h.1, ih h.2 h'⟩
  | await q k _ => exact fun h h' => ⟨h.1, h', h.2.2⟩
  | fork t k iht ihk =>
    rintro o s post post' ⟨o₁, o₂, hu, hd, h⟩ h'
    have hk := wp_post h
    exact ⟨o₁, o₂, hu, hd, iht h (ihk hk h')⟩
  | goto l => exact fun h h' => ⟨h.1, h', h.2.2⟩

theorem Rely.mono {o o' : Set T} {s s' : σ} (h : D.Rely o' s s') (ho : o ⊆ o') : D.Rely o s s' :=
  ⟨h.1, fun x hx => h.2 x (ho hx)⟩

theorem Owns.mono {o o' : Set T} {s : σ} (h : D.Owns o' s) (ho : o ⊆ o') : D.Owns o s :=
  ⟨ho.trans h.1, h.2.mono_left ho⟩

/-- A thread can be given tokens it has no use for, unless they are owed. -/
theorem wp_sub : ∀ {o o' : Set T} {s : σ} {post : σ → Prop}, o ⊆ o' →
    D.Settled ( o' \ o) → D.wp t o s post → D.wp t o' s post := by
  induction t with
  | done =>
    intro o o' s post hsub hset h
    refine ⟨fun x hx hxo => ?_, h.2⟩
    by_cases hxm : x ∈ o
    · exact h.1 x hxm hxo
    · exact hset x ⟨hx, hxm⟩ hxo
  | read k ih => exact fun hsub hset h => ih _ hsub hset h
  | write s' k ih =>
    intro o o' s post hsub hset h
    have hpool : D.pool o s s' ⊆ D.pool o' s s' :=
      Set.union_subset_union_left _ (Set.union_subset_union_left _ hsub)
    refine ⟨⟨h.1.base, h.1.minted, h.1.held.trans hpool, fun x hx hxo hxh =>
      h.1.keep x hx (fun hxm => hxo (hsub hxm)) hxh⟩, ih (Set.sdiff_subset_sdiff_left hpool) ?_ h.2⟩
    rintro x ⟨⟨hxp, hxh⟩, hxn⟩ hxo
    have hxnp : x ∉ D.pool o s s' := fun hxp' => hxn ⟨hxp', hxh⟩
    rcases hxp with (hx | hx) | hx
    · exact hset x ⟨hx, fun hxm => hxnp (.inl (.inl hxm))⟩ hxo
    · exact hxnp (.inl (.inr hx))
    · exact hxnp (.inr hx)
  | await q k ih =>
    intro o o' s post hsub hset h
    refine ⟨fun x hx hxo => ?_, h.2.1, fun s₁ a hr hw hi hrd hok =>
      ih a hsub hset (h.2.2 s₁ a (hr.mono hsub) (hw.mono hsub) hi hrd hok)⟩
    by_cases hxm : x ∈ o
    · exact h.1 x hxm hxo
    · exact absurd hxo (hset x ⟨hx, hxm⟩)
  | fork t k iht _ =>
    rintro o o' s post hsub hset ⟨o₁, o₂, rfl, hd, h⟩
    refine ⟨o₁ ∪ ( o' \ (o₁ ∪ o₂)), o₂, ?_, ?_, iht Set.subset_union_left ?_ h⟩
    · rw [Set.union_right_comm, Set.union_sdiff_cancel hsub]
    · refine Set.disjoint_union_left.mpr ⟨hd, ?_⟩
      exact Set.disjoint_sdiff_left.mono_right Set.subset_union_right
    · rintro x ⟨hx | hx, hxn⟩
      · exact absurd hx hxn
      · exact hset x hx
  | goto l =>
    intro o o' s post hsub hset h
    refine ⟨fun x hx hxo => ?_, h.2.1, fun s₁ hr hw hi =>
      D.loop_mono _ _ _ _ hsub (h.2.2 s₁ (hr.mono hsub) (hw.mono hsub) hi)⟩
    by_cases hxm : x ∈ o
    · exact h.1 x hxm hxo
    · exact hset x ⟨hx, hxm⟩ hxo

variable {k : Thread σ R L}

/-- The owner of `o` writes without minting or laying down anything. -/
theorem wp_write {o : Set T} {s s' : σ} {post : σ → Prop} (hw : D.Owns o s)
    (hb : D.base s s') (hm : D.minted s' = D.minted s) (hh : D.held s' = D.held s)
    (hk : ∀ x ∈ D.minted s, x ∉ o → D.keep x s s') (h : D.wp k o s' post) :
    D.wp (.write s' k) o s post := by
  have hpool : D.pool o s s' = o ∪ D.held s := by
    rw [pool, hm, sdiff_self]
    exact Set.union_empty _
  refine ⟨⟨hb, hm.ge, ?_, fun x hx hxo _ => hk x hx hxo⟩, ?_⟩
  · rw [hpool, hh]
    exact Set.subset_union_right
  · rwa [after, hpool, hh, Set.union_sdiff_right, hw.2.sdiff_eq_left]

/-- The writer mints `x`. -/
theorem wp_mint {o : Set T} {s s' : σ} {post : σ → Prop} {x : T} (hw : D.Owns o s)
    (hb : D.base s s') (hx : x ∉ D.minted s) (hm : D.minted s' = insert x (D.minted s))
    (hh : D.held s' = D.held s) (hs : D.held s ⊆ D.minted s)
    (hk : ∀ y ∈ D.minted s, y ∉ o → D.keep y s s') (h : D.wp k (insert x o) s' post) :
    D.wp (.write s' k) o s post := by
  have hpool : D.pool o s s' = insert x o ∪ D.held s := by
    have hnew : D.minted s' \ D.minted s = {x} := by
      rw [hm, Set.insert_sdiff_of_notMem _ hx, sdiff_self]
      exact insert_empty_eq x
    rw [pool, hnew, Set.union_singleton, Set.insert_union]
  refine ⟨⟨hb, hm ▸ Set.subset_insert _ _, ?_, fun y hy hyo _ => hk y hy hyo⟩, ?_⟩
  · rw [hpool, hh]
    exact Set.subset_union_right
  · have hd : Disjoint (insert x o) (D.held s) :=
      Set.disjoint_insert_left.mpr ⟨fun hxs => hx (hs hxs), hw.2⟩
    rwa [after, hpool, hh, Set.union_sdiff_right, hd.sdiff_eq_left]

/-- The writer lays down `x`. -/
theorem wp_lay {o : Set T} {s s' : σ} {post : σ → Prop} {x : T} (hw : D.Owns o s)
    (hb : D.base s s') (hx : x ∈ o) (hm : D.minted s' = D.minted s)
    (hh : D.held s' = insert x (D.held s)) (hk : ∀ y ∈ D.minted s, y ∉ o → D.keep y s s')
    (h : D.wp k ( o \ {x}) s' post) : D.wp (.write s' k) o s post := by
  have hpool : D.pool o s s' = o ∪ D.held s := by
    rw [pool, hm, sdiff_self]
    exact Set.union_empty _
  refine ⟨⟨hb, hm.ge, ?_, fun y hy hyo _ => hk y hy hyo⟩, ?_⟩
  · rw [hpool, hh]
    exact Set.insert_subset (.inl hx) Set.subset_union_right
  · rwa [after, hpool, hh, Set.insert_eq, Set.union_comm {x}, ← Set.sdiff_sdiff,
      Set.union_sdiff_right, hw.2.sdiff_eq_left]

/-! ### Disciplines without tokens -/

section

variable [IsEmpty T] {o : Set T} {s s' : σ} {post : σ → Prop}

theorem wp_write_iff {k : Thread σ R L} :
    D.wp (.write s' k) o s post ↔ D.base s s' ∧ D.wp k o s' post := by
  rw [wp, Subsingleton.elim (D.after o s s') o]
  refine and_congr_left fun _ => ⟨Move.base, fun h => ⟨h, ?_, ?_, fun x => isEmptyElim x⟩⟩
  · exact (Subsingleton.elim _ _).subset
  · exact (Subsingleton.elim _ _).subset

theorem wp_await_iff {q : Q} {k : R q → Thread σ R L} :
    D.wp (.await q k) o s post ↔ post s ∧ ∀ s₁ a, D.base s s₁ → D.inv s₁ →
      sys.ready s₁ q a = true → D.ok s₁ (.reply q a) →
      D.wp (k a) o s₁ fun s₂ => D.inv s₂ ∧ D.seg (.reply q a) s₁ s₂ := by
  constructor
  · rintro ⟨_, hpost, h⟩
    refine ⟨hpost, fun s₁ a hb => h s₁ a ⟨hb, fun x => isEmptyElim x⟩ ⟨?_, ?_⟩⟩
    · exact fun x => isEmptyElim x
    · exact Set.disjoint_left.mpr fun x => isEmptyElim x
  · rintro ⟨hpost, h⟩
    exact ⟨fun x => isEmptyElim x, hpost, fun s₁ a hr _ => h s₁ a hr.1⟩

theorem wp_done_iff : D.wp .done o s post ↔ post s :=
  ⟨And.right, fun h => ⟨fun x => isEmptyElim x, h⟩⟩

end

/-- What the others may rely on over a whole run. -/
theorem wp_rely : ∀ {o o' : Set T} {s : σ} {post : σ → Prop},
    D.wp t o s post → D.Owns o' s → Disjoint o o' →
    D.Rely o' s (t.run s).1 ∧ D.Owns o' (t.run s).1 := by
  induction t with
  | done => exact fun _ hw _ => ⟨.refl _ _, hw⟩
  | read k ih => exact fun h => ih _ h
  | write s' k ih =>
    intro o o' s post h hw hd
    have hpool : Disjoint (D.pool o s s') o' := by
      refine Set.disjoint_left.mpr ?_
      rintro x ((hx | hx) | hx) hx'
      · exact Set.disjoint_left.mp hd hx hx'
      · exact Set.disjoint_left.mp hw.2 hx' hx
      · exact hx.2 (hw.1 hx')
    have hr : D.Rely o' s s' := by
      refine ⟨h.1.base, fun x hx => h.1.keep x (hw.1 hx) ?_ (Set.disjoint_left.mp hw.2 hx)⟩
      exact fun hxo => Set.disjoint_left.mp hd hxo hx
    have hw' : D.Owns o' s' := ⟨hw.1.trans h.1.minted, (hpool.mono_left h.1.held).symm⟩
    obtain ⟨hr', hw''⟩ := ih h.2 hw' (hpool.mono_left Set.sdiff_subset)
    exact ⟨hr.trans hr', hw''⟩
  | await q k _ => exact fun _ hw _ => ⟨.refl _ _, hw⟩
  | fork t k iht ihk =>
    rintro o o' s post ⟨o₁, o₂, rfl, _, h⟩ hw hd
    obtain ⟨hd₁, hd₂⟩ := Set.disjoint_union_left.mp hd
    obtain ⟨hr, hw'⟩ := iht h hw hd₁
    have hk := wp_post h
    obtain ⟨hr', hw''⟩ := ihk hk hw' hd₂
    exact ⟨hr.trans hr', hw''⟩
  | goto l => exact fun _ hw _ => ⟨.refl _ _, hw⟩

/-- A parked thread stays safe when the others write. -/
theorem Safe.step {o : Set T} {s s' : σ} {p : Parked σ R L} (h : D.Safe o s p)
    (hr : D.Rely o s s') : D.Safe o s' p := by
  cases p with
  | waiting q k => exact ⟨h.1, fun s₁ a h₁ => h.2 s₁ a (hr.trans h₁)⟩
  | looping l => exact ⟨h.1, fun s₁ h₁ => h.2 s₁ (hr.trans h₁)⟩

/-! ## The ledger of a configuration -/

/-- One line of the ledger: the tokens of a thread, and the thread when it is
parked (`none` while it is running). -/
abbrev Entry (σ : Type) {Q : Type} (R : Q → Type) (L T : Type) : Type :=
  Set T × Option (Parked σ R L)

/-- Every token has at most one owner, every parked thread is safe with what it
owns, and no owed token is lost. -/
structure Ledger (D : Discipline sys T) (s : σ) (es : List (Entry σ R L T)) : Prop where
  apart : es.Pairwise fun e f => Disjoint e.1 f.1
  minted : ∀ e ∈ es, e.1 ⊆ D.minted s
  free : ∀ e ∈ es, Disjoint e.1 (D.held s)
  heldMinted : D.held s ⊆ D.minted s
  safe : ∀ e ∈ es, ∀ p, e.2 = some p → D.Safe e.1 s p
  owed : ∀ x ∈ D.minted s, x ∈ D.owed → x ∈ D.held s ∨ ∃ e ∈ es, x ∈ e.1

namespace Ledger

variable {s s' : σ} {o o₁ o₂ : Set T} {es fs F : List (Entry σ R L T)}

theorem perm (h : D.Ledger s es) (hp : es.Perm fs) : D.Ledger s fs where
  apart := (hp.pairwise_iff fun h => h.symm).mp h.apart
  minted := fun e he => h.minted e (hp.mem_iff.mpr he)
  free := fun e he => h.free e (hp.mem_iff.mpr he)
  heldMinted := h.heldMinted
  safe := fun e he => h.safe e (hp.mem_iff.mpr he)
  owed := fun x hx ho => (h.owed x hx ho).imp id fun ⟨e, he, hxe⟩ => ⟨e, hp.mem_iff.mp he, hxe⟩

/-- The running thread ends. -/
theorem drop (h : D.Ledger s ((o, none) :: F)) (hs : D.Settled o) : D.Ledger s F where
  apart := (List.pairwise_cons.mp h.apart).2
  minted := fun e he => h.minted e (List.mem_cons_of_mem _ he)
  free := fun e he => h.free e (List.mem_cons_of_mem _ he)
  heldMinted := h.heldMinted
  safe := fun e he => h.safe e (List.mem_cons_of_mem _ he)
  owed := fun x hx ho => by
    rcases h.owed x hx ho with hh | ⟨e, he, hxe⟩
    · exact .inl hh
    · rcases List.mem_cons.mp he with rfl | he
      · exact absurd ho (hs x hxe)
      · exact .inr ⟨e, he, hxe⟩

/-- The running thread parks. -/
theorem park {p : Parked σ R L} (h : D.Ledger s ((o, none) :: F)) (hp : D.Safe o s p) :
    D.Ledger s ((o, some p) :: F) where
  apart := List.pairwise_cons.mpr (List.pairwise_cons.mp h.apart)
  minted := fun e he => by
    rcases List.mem_cons.mp he with rfl | he
    · exact h.minted (o, none) List.mem_cons_self
    · exact h.minted e (List.mem_cons_of_mem _ he)
  free := fun e he => by
    rcases List.mem_cons.mp he with rfl | he
    · exact h.free (o, none) List.mem_cons_self
    · exact h.free e (List.mem_cons_of_mem _ he)
  heldMinted := h.heldMinted
  safe := fun e he q hq => by
    rcases List.mem_cons.mp he with rfl | he
    · cases hq; exact hp
    · exact h.safe e (List.mem_cons_of_mem _ he) q hq
  owed := fun x hx ho => by
    rcases h.owed x hx ho with hh | ⟨e, he, hxe⟩
    · exact .inl hh
    · rcases List.mem_cons.mp he with rfl | he
      · exact .inr ⟨(o, some p), List.mem_cons_self, hxe⟩
      · exact .inr ⟨e, List.mem_cons_of_mem _ he, hxe⟩

/-- A parked thread gets its turn. -/
theorem wake {p : Parked σ R L} (h : D.Ledger s ((o, some p) :: F)) :
    D.Ledger s ((o, none) :: F) where
  apart := List.pairwise_cons.mpr (List.pairwise_cons.mp h.apart)
  minted := fun e he => by
    rcases List.mem_cons.mp he with rfl | he
    · exact h.minted (o, some p) List.mem_cons_self
    · exact h.minted e (List.mem_cons_of_mem _ he)
  free := fun e he => by
    rcases List.mem_cons.mp he with rfl | he
    · exact h.free (o, some p) List.mem_cons_self
    · exact h.free e (List.mem_cons_of_mem _ he)
  heldMinted := h.heldMinted
  safe := fun e he q hq => by
    rcases List.mem_cons.mp he with rfl | he
    · cases hq
    · exact h.safe e (List.mem_cons_of_mem _ he) q hq
  owed := fun x hx ho => by
    rcases h.owed x hx ho with hh | ⟨e, he, hxe⟩
    · exact .inl hh
    · rcases List.mem_cons.mp he with rfl | he
      · exact .inr ⟨(o, none), List.mem_cons_self, hxe⟩
      · exact .inr ⟨e, List.mem_cons_of_mem _ he, hxe⟩

theorem owns {p : Option (Parked σ R L)} (h : D.Ledger s ((o, p) :: F)) : D.Owns o s :=
  ⟨h.minted (o, p) List.mem_cons_self, h.free (o, p) List.mem_cons_self⟩

/-- The running thread hands some of its tokens to a call it forks. -/
theorem split (h : D.Ledger s ((o₁ ∪ o₂, none) :: F)) (hd : Disjoint o₁ o₂) :
    D.Ledger s ((o₁, none) :: (o₂, none) :: F) where
  apart := by
    obtain ⟨h₁, h₂⟩ := List.pairwise_cons.mp h.apart
    refine List.pairwise_cons.mpr ⟨fun e he => ?_, List.pairwise_cons.mpr ⟨fun e he => ?_, h₂⟩⟩
    · rcases List.mem_cons.mp he with rfl | he
      · exact hd
      · exact (h₁ e he).mono_left Set.subset_union_left
    · exact (h₁ e he).mono_left Set.subset_union_right
  minted := fun e he => by
    have ho := h.minted (o₁ ∪ o₂, none) List.mem_cons_self
    rcases List.mem_cons.mp he with rfl | he
    · exact Set.subset_union_left.trans ho
    · rcases List.mem_cons.mp he with rfl | he
      · exact Set.subset_union_right.trans ho
      · exact h.minted e (List.mem_cons_of_mem _ he)
  free := fun e he => by
    have ho := h.free (o₁ ∪ o₂, none) List.mem_cons_self
    rcases List.mem_cons.mp he with rfl | he
    · exact ho.mono_left Set.subset_union_left
    · rcases List.mem_cons.mp he with rfl | he
      · exact ho.mono_left Set.subset_union_right
      · exact h.free e (List.mem_cons_of_mem _ he)
  heldMinted := h.heldMinted
  safe := fun e he q hq => by
    rcases List.mem_cons.mp he with rfl | he
    · cases hq
    · rcases List.mem_cons.mp he with rfl | he
      · cases hq
      · exact h.safe e (List.mem_cons_of_mem _ he) q hq
  owed := fun x hx ho => by
    rcases h.owed x hx ho with hh | ⟨e, he, hxe⟩
    · exact .inl hh
    · rcases List.mem_cons.mp he with rfl | he
      · rcases hxe with hx₁ | hx₂
        · exact .inr ⟨(o₁, none), List.mem_cons_self, hx₁⟩
        · exact .inr ⟨(o₂, none), List.mem_cons_of_mem _ List.mem_cons_self, hx₂⟩
      · exact .inr ⟨e, List.mem_cons_of_mem _ (List.mem_cons_of_mem _ he), hxe⟩

/-- What the others may rely on when the running thread writes. -/
theorem others_rely (h : D.Ledger s ((o, none) :: F)) (hm : D.Move o s s') :
    ∀ e ∈ F, D.Rely e.1 s s' := by
  intro e he
  refine ⟨hm.base, fun x hx => hm.keep x (h.minted e (List.mem_cons_of_mem _ he) hx) ?_ ?_⟩
  · intro hxo
    exact Set.disjoint_left.mp ((List.pairwise_cons.mp h.apart).1 e he) hxo hx
  · exact Set.disjoint_left.mp (h.free e (List.mem_cons_of_mem _ he)) hx

/-- The pool of the running thread is out of reach of the others. -/
theorem pool_apart (h : D.Ledger s ((o, none) :: F)) :
    ∀ e ∈ F, Disjoint (D.pool o s s') e.1 := by
  intro e he
  have hmint := h.minted e (List.mem_cons_of_mem _ he)
  refine Set.disjoint_left.mpr ?_
  rintro x ((hx | hx) | hx) hxe
  · exact Set.disjoint_left.mp ((List.pairwise_cons.mp h.apart).1 e he) hx hxe
  · exact Set.disjoint_left.mp (h.free e (List.mem_cons_of_mem _ he)) hxe hx
  · exact hx.2 (hmint hxe)

theorem pool_minted (h : D.Ledger s ((o, none) :: F)) (hm : D.Move o s s') :
    D.pool o s s' ⊆ D.minted s' := by
  rintro x ((hx | hx) | hx)
  · exact hm.minted (h.minted (o, none) List.mem_cons_self hx)
  · exact hm.minted (h.heldMinted hx)
  · exact hx.1

/-- The running thread writes. -/
theorem write (h : D.Ledger s ((o, none) :: F)) (hm : D.Move o s s') :
    D.Ledger s' ((D.after o s s', none) :: F) where
  apart := List.pairwise_cons.mpr
    ⟨fun e he => (h.pool_apart e he).mono_left Set.sdiff_subset, (List.pairwise_cons.mp h.apart).2⟩
  minted := fun e he => by
    rcases List.mem_cons.mp he with rfl | he
    · exact Set.sdiff_subset.trans (h.pool_minted hm)
    · exact (h.minted e (List.mem_cons_of_mem _ he)).trans hm.minted
  free := fun e he => by
    rcases List.mem_cons.mp he with rfl | he
    · exact Set.disjoint_sdiff_left
    · exact ((h.pool_apart e he).mono_left hm.held).symm
  heldMinted := hm.held.trans (h.pool_minted hm)
  safe := fun e he p hp => by
    rcases List.mem_cons.mp he with rfl | he
    · cases hp
    · exact (h.safe e (List.mem_cons_of_mem _ he) p hp).step (h.others_rely hm e he)
  owed := fun x hx ho => by
    by_cases hh : x ∈ D.held s'
    · exact .inl hh
    · have hmem : x ∈ D.pool o s s' ∨ ∃ e ∈ F, x ∈ e.1 := by
        by_cases hmint : x ∈ D.minted s
        · rcases h.owed x hmint ho with hh' | ⟨e, he, hxe⟩
          · exact .inl (.inl (.inr hh'))
          · rcases List.mem_cons.mp he with rfl | he
            · exact .inl (.inl (.inl hxe))
            · exact .inr ⟨e, he, hxe⟩
        · exact .inl (.inr ⟨hx, hmint⟩)
      rcases hmem with hp | ⟨e, he, hxe⟩
      · exact .inr ⟨_, List.mem_cons_self, hp, hh⟩
      · exact .inr ⟨e, List.mem_cons_of_mem _ he, hxe⟩

end Ledger

/-- A run of a thread that keeps the discipline keeps the ledger: everything it
parks is entered with the tokens it parked with. -/
theorem run_ledger : ∀ {o : Set T} {s : σ} {post : σ → Prop}
    {F : List (Entry σ R L T)}, D.Ledger s ((o, none) :: F) → D.wp t o s post →
    ∃ es : List (Entry σ R L T), es.map Prod.snd = (t.run s).2.map some ∧
      D.Ledger (t.run s).1 (es ++ F) ∧ post (t.run s).1 := by
  induction t with
  | done => exact fun h hw => ⟨[], rfl, h.drop hw.1, hw.2⟩
  | read k ih => exact fun h hw => ih _ h hw
  | write s' k ih => exact fun h hw => ih (h.write hw.1) hw.2
  | await q k _ =>
    exact fun h hw => ⟨[(_, some (.waiting q k))], rfl, h.park ⟨hw.1, hw.2.2⟩, hw.2.1⟩
  | fork t k iht ihk =>
    rintro o s post F h ⟨o₁, o₂, rfl, hd, hw⟩
    obtain ⟨es₁, hm₁, h₁, hw₁⟩ := iht (h.split hd) hw
    obtain ⟨es₂, hm₂, h₂, hpost⟩ := ihk (h₁.perm List.perm_middle) hw₁
    refine ⟨es₁ ++ es₂, ?_, h₂.perm ?_, hpost⟩
    · simp only [Thread.run, List.map_append, hm₁, hm₂]
    · rw [← List.append_assoc]
      exact List.Perm.append_right F List.perm_append_comm
  | goto l => exact fun h hw => ⟨[(_, some (.looping l))], rfl, h.park ⟨hw.1, hw.2.2⟩, hw.2.1⟩

/-! ## Reachable configurations -/

/-- A configuration with an owner for every parked thread. -/
def Owned (D : Discipline sys T) (c : Config σ R L) : Prop :=
  ∃ es : List (Entry σ R L T), es.map Prod.snd = c.parked.map some ∧ D.Ledger c.state es

theorem map_split {es : List (Entry σ R L T)} {ps qs : List (Parked σ R L)} {p : Parked σ R L}
    (h : es.map Prod.snd = (ps ++ p :: qs).map some) :
    ∃ el o er, es = el ++ (o, some p) :: er ∧ el.map Prod.snd = ps.map some ∧
      er.map Prod.snd = qs.map some := by
  rw [List.map_append, List.map_cons] at h
  obtain ⟨el, er', rfl, hl, hr⟩ := List.map_eq_append_iff.mp h
  obtain ⟨⟨o, p'⟩, er, rfl, rfl, htail⟩ := List.map_eq_cons_iff.mp hr
  exact ⟨el, o, er, rfl, hl, htail⟩

variable {s₀ : σ}

/-- One step of the system: the invariant and the ledger are kept, and the step
meets its guarantee. -/
theorem Sound.step (hD : D.Sound s₀) {c c' : Config σ R L} {l : Label R L A}
    (hi : D.inv c.state) (ho : D.Owned c) (hok : D.ok c.state l) (hs : sys.Step c l c') :
    D.inv c'.state ∧ D.Owned c' ∧ D.seg l c.state c'.state := by
  obtain ⟨es, hm, hl⟩ := ho
  -- the thread that runs is taken out of the ledger, and what it parks put in its place
  have place : ∀ {t : Thread σ R L} {s : σ} {o : Set T} {ps : List (Parked σ R L)}
      (qs : List (Parked σ R L)) {el : List (Entry σ R L T)} (er : List (Entry σ R L T))
      {l : Label R L A},
      el.map Prod.snd = ps.map some → er.map Prod.snd = qs.map some →
      D.Ledger s ((o, none) :: (el ++ er)) →
      D.wp t o s (fun s₂ => D.inv s₂ ∧ D.seg l s s₂) →
      D.inv (t.run s).1 ∧ D.Owned ⟨(t.run s).1, ps ++ (t.run s).2 ++ qs⟩ ∧
        D.seg l s (t.run s).1 := by
    intro t s o ps qs el er l hel her hled hw
    obtain ⟨fs, hfs, hled', hinv, hseg⟩ := run_ledger hled hw
    refine ⟨hinv, ⟨el ++ fs ++ er, ?_, hled'.perm ?_⟩, hseg⟩
    · simp only [List.map_append, hel, hfs, her]
    · rw [← List.append_assoc]
      exact List.Perm.append_right er List.perm_append_comm
  have hempty : ∀ s : σ, D.Ledger s es → D.Ledger s ((∅, none) :: es) := by
    intro s h
    refine ⟨List.pairwise_cons.mpr ⟨fun e _ => Set.empty_disjoint _, h.apart⟩, ?_, ?_,
      h.heldMinted, ?_, fun x hx hxo => (h.owed x hx hxo).imp id fun ⟨e, he, hxe⟩ =>
        ⟨e, List.mem_cons_of_mem _ he, hxe⟩⟩
    · rintro e he
      rcases List.mem_cons.mp he with rfl | he
      · exact Set.empty_subset _
      · exact h.minted e he
    · rintro e he
      rcases List.mem_cons.mp he with rfl | he
      · exact Set.empty_disjoint _
      · exact h.free e he
    · rintro e he p hp
      rcases List.mem_cons.mp he with rfl | he
      · cases hp
      · exact h.safe e he p hp
  cases hs with
  | start a s ps =>
    have hw := hD.start a s hi hok
    have h := place [] [] hm rfl (by simpa using hempty s hl) hw
    simpa using h
  | reply s ps qs q k a hr =>
    obtain ⟨el, o, er, rfl, hel, her⟩ := map_split hm
    have hled := hl.perm List.perm_middle
    have hsafe := hled.safe _ List.mem_cons_self _ rfl
    exact place qs er hel her hled.wake (hsafe.2 s a (Rely.refl o s) hled.owns hi hr hok)
  | loop s ps qs l =>
    obtain ⟨el, o, er, rfl, hel, her⟩ := map_split hm
    have hled := hl.perm List.perm_middle
    have hsafe := hled.safe _ List.mem_cons_self _ rfl
    have hloop := hsafe.2 s (Rely.refl o s) hled.owns hi
    exact place qs er hel her hled.wake (hD.loop l o s hi hled.owns hloop hok)

variable {c : Config σ R L}

theorem Sound.reach (hD : D.Sound s₀) (h : sys.Reach D.ok ⟨s₀, []⟩ c) : D.inv c.state ∧ D.Owned c := by
  induction h with
  | init =>
    refine ⟨hD.init, [], rfl, List.Pairwise.nil, ?_, ?_, hD.heldMinted, ?_,
      fun x hx ho => .inl (hD.owedHeld x hx ho)⟩ <;>
    · intro e he
      cases he
  | step _ hok hs ih =>
    obtain ⟨hi, ho, _⟩ := hD.step ih.1 ih.2 hok hs
    exact ⟨hi, ho⟩

/-- The invariant holds in every reachable configuration. -/
theorem Sound.inv (hD : D.Sound s₀) (h : sys.Reach D.ok ⟨s₀, []⟩ c) : D.inv c.state :=
  (hD.reach h).1

/-- Every step of a run meets its guarantee. -/
theorem Sound.seg (hD : D.Sound s₀) {c c' : Config σ R L} {l : Label R L A}
    (h : sys.Reach D.ok ⟨s₀, []⟩ c) (hok : D.ok c.state l) (hs : sys.Step c l c') :
    D.seg l c.state c'.state :=
  (hD.step (hD.reach h).1 (hD.reach h).2 hok hs).2.2

/-- Every owed token is laid down in the state, or carried by a thread parked at
a request that may carry it. -/
theorem Sound.owed (hD : D.Sound s₀)
    (h : sys.Reach D.ok ⟨s₀, []⟩ c) {x : T} (hx : x ∈ D.minted c.state) (ho : x ∈ D.owed) :
    x ∈ D.held c.state ∨ ∃ q k, Parked.waiting q k ∈ c.parked ∧ x ∈ D.carry q := by
  obtain ⟨es, hm, hl⟩ := (hD.reach h).2
  rcases hl.owed x hx ho with hh | ⟨e, he, hxe⟩
  · exact .inl hh
  · have hmem : e.2 ∈ c.parked.map some := hm ▸ List.mem_map_of_mem he
    obtain ⟨p, hp, hpe⟩ := List.mem_map.mp hmem
    have hsafe := hl.safe e he p hpe.symm
    cases p with
    | waiting q k => exact .inr ⟨q, k, hp, hsafe.1 x hxe ho⟩
    | looping l => exact absurd ho (hsafe.1 x hxe)

end Discipline

end Coop
