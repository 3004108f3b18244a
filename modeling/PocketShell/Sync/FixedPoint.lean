import PocketShell.Js.Rewritten
import PocketShell.Sync.Guarantee

/-!
# A round after itself

* `Repeats`: the round again, over the account it just wrote.
* `round_fixed`: when it pushes the same text and leaves the same selection.
-/

namespace PocketShell.Sync

open Js (Text Json JsNumber StableNumber assign property keys ascii)

variable {N : Type} {hosts remote : List (SyncHostEntry N)} {e r : SyncHostEntry N}
  {hostAlias key : Text} {checked : List Text} {sel : SyncSelectionState} {own : LocalHost N}

/-! ## The selection again -/

theorem unique_nodup (aliases : List Text) : (unique aliases).Nodup := by
  unfold unique
  induction hlen : aliases.length using Nat.strong_induction_on generalizing aliases with
  | _ n ih =>
    cases aliases with
    | nil => exact List.nodup_nil
    | cons a rest =>
      have hless : (rest.filter fun b => !b == a).length < n :=
        hlen ▸ Nat.lt_succ_of_le (List.length_filter_le _ _)
      rw [List.eraseDups_cons]
      refine List.nodup_cons.mpr ⟨fun h => ?_, ih _ hless _ rfl⟩
      simpa using (List.mem_filter.mp (List.mem_eraseDups.mp h)).2

theorem unique_of_nodup : ∀ {aliases : List Text}, aliases.Nodup → unique aliases = aliases := by
  intro aliases
  induction aliases with
  | nil => exact fun _ => rfl
  | cons a rest ih =>
    intro h
    obtain ⟨ha, hrest⟩ := List.nodup_cons.mp h
    have hfilter : (rest.filter fun b => !b == a) = rest :=
      List.filter_eq_self.mpr fun b hb => by
        have hne : b ≠ a := fun he => ha (he ▸ hb)
        simpa using hne
    rw [unique, List.eraseDups_cons, hfilter]
    exact congrArg (a :: ·) (ih hrest)

theorem autoCheck_nodup {off : List Text} : ∀ {known : List Text}, (autoCheckFrom off known remote).Nodup := by
  induction remote with
  | nil => exact List.nodup_nil
  | cons host remote ih =>
    intro known
    rw [autoCheckFrom]
    split
    · exact ih
    · exact List.nodup_cons.mpr ⟨fun h => (mem_autoCheckFrom.mp h).2.1 List.mem_cons_self, ih⟩

theorem checked_nodup : (applyAccountToSelection remote sel).checked.Nodup :=
  List.nodup_append'.mpr ⟨unique_nodup _, autoCheck_nodup, fun _ ha hb => (mem_autoCheckFrom.mp hb).2.1 ha⟩

/-- An account without new aliases adds none. -/
theorem autoCheck_known {off known : List Text} (h : ∀ host ∈ remote, host.name ∈ known) :
    autoCheckFrom off known remote = [] := by
  refine List.eq_nil_iff_forall_not_mem.mpr fun a ha => ?_
  obtain ⟨hm, hk, _⟩ := mem_autoCheckFrom.mp ha
  obtain ⟨host, hhost, rfl⟩ := List.mem_map.mp hm
  exact hk (h host hhost)

theorem apply_again (hn : checked.Nodup) (h : ∀ host ∈ remote, host.name ∈ checked) :
    applyAccountToSelection remote ⟨checked, []⟩ = ⟨checked, []⟩ := by
  show (⟨unique checked ++ autoCheckFrom [] (unique checked) remote, [].filter _⟩ : SyncSelectionState) = _
  rw [unique_of_nodup hn, autoCheck_known h, List.append_nil]
  rfl

/-- An untick that is left is one of an alias that is not ticked. -/
theorem unticked_apart {a : Text} (h : a ∈ (applyAccountToSelection remote sel).unticked) :
    a ∉ (applyAccountToSelection remote sel).checked := by
  exact of_decide_eq_true (Bool.and_eq_true_iff.mp (List.mem_filter.mp h).2).2

/-! ## Laying over what was laid over before -/

theorem assign_map {V : Type} {value : V} : ∀ {merged : List (Text × V)}, (keys merged).Nodup →
    key ∈ keys merged →
    assign key value merged = merged.map fun p => if p.1 = key then (key, value) else p := by
  intro merged
  induction merged with
  | nil => exact fun _ h => by cases h
  | cons p merged ih =>
    obtain ⟨k, v⟩ := p
    intro hn hmem
    obtain ⟨hk, hn⟩ := List.nodup_cons.mp hn
    rw [assign, List.map_cons]
    by_cases he : k = key
    · rw [if_pos he, if_pos he, List.map_congr_left (g := id), List.map_id]
      intro q hq
      refine if_neg fun hqk => hk ?_
      show k ∈ _
      rw [he, ← hqk]
      exact List.mem_map_of_mem (f := Prod.fst) hq
    · rw [if_neg he, if_neg he, ih hn ((List.mem_cons.mp hmem).resolve_left fun h => he h.symm)]

/-- Properties that are all there already keep their places. -/
theorem overlay_known {rest : List (Text × Option (Json N))} : (keys rest).Nodup →
    ∀ {merged}, (keys merged).Nodup → (∀ p ∈ rest, p.2 ≠ none → p.1 ∈ keys merged) →
    overlay rest merged = merged.map fun p => (p.1, ((property p.1 rest).join).or p.2) := by
  induction rest with
  | nil =>
    intro _ merged _ _
    rw [overlay, List.map_congr_left (g := id), List.map_id]
    exact fun _ _ => rfl
  | cons q rest ih =>
    obtain ⟨k, value⟩ := q
    intro hr merged hn hknown
    obtain ⟨hk, hr'⟩ := List.nodup_cons.mp hr
    have hrest := fun p hp => hknown p (List.mem_cons_of_mem _ hp)
    have hnone : property k rest = none := Js.property_eq_none.mpr hk
    cases value with
    | none =>
      rw [overlay, ih hr' hn hrest]
      refine List.map_congr_left fun p _ => ?_
      rw [Js.property_cons]
      split
      · next he => rw [← he, hnone]; rfl
      · rfl
    | some v =>
      have hmem : k ∈ keys merged := hknown (k, some v) List.mem_cons_self (by simp)
      have hset : setProperty k (some v) merged = assign k (some v) merged :=
        if_neg fun h => h.2 hmem
      have hkeys : keys (assign k (some v) merged) = keys merged := by
        rw [assign_map hn hmem, keys, List.map_map]
        refine List.map_congr_left fun p _ => ?_
        show (if p.1 = k then (k, some v) else p).1 = p.1
        split
        · next he => exact he.symm
        · rfl
      rw [overlay, hset, ih hr' (by rw [hkeys]; exact hn) (by rw [hkeys]; exact hrest),
        assign_map hn hmem, List.map_map]
      refine List.map_congr_left fun p _ => ?_
      rw [Js.property_cons, Function.comp_apply]
      by_cases he : p.1 = k
      · simp only [if_pos he, if_pos he.symm]
        rw [hnone, he]
        rfl
      · simp only [if_neg he, if_neg (Ne.symm he)]

/-- The entry has what the client says. -/
def Holds (own : LocalHost N) (e : SyncHostEntry N) : Prop :=
  ∀ key v, own.get key = some v → e.get key = some v

theorem holds_merge (r : Option (SyncHostEntry N)) : Holds own (mergeLocalOverRemote own.toSyncHostEntry r) := by
  intro key v h
  cases r with
  | none => exact h
  | some r =>
    rw [get_merge, h]
    rfl

theorem mem_defined {members : List (Text × Option (Json N))} {p : Text × Json N} :
    p ∈ defined members ↔ (p.1, some p.2) ∈ members := by
  obtain ⟨key, v⟩ := p
  rw [defined, List.mem_filterMap]
  constructor
  · rintro ⟨⟨k, w⟩, hm, h⟩
    cases w with
    | none => cases h
    | some w =>
      cases h
      exact hm
  · exact fun h => ⟨_, h, rfl⟩

theorem get_of_mem {p : Text × Json N} (h : p ∈ defined e.members) : e.get p.1 = some p.2 := by
  show (property p.1 e.members).join = _
  rw [(Js.property_eq_some e.once).mpr (mem_defined.mp h)]
  rfl

variable [JsNumber N]

theorem sent_members : e.sent.members =
    (defined e.members).map fun p => (p.1, some p.2.written) := by
  show readMembers _ = _
  rw [readMembers, List.map_map]
  rfl

omit [JsNumber N] in
theorem defined_map (f : Text × Json N → Json N) (members : List (Text × Json N)) :
    defined (members.map fun p => (p.1, some (f p))) = members.map fun p => (p.1, f p) := by
  rw [defined, List.filterMap_map, ← List.filterMap_eq_map]
  rfl

/-- Entries that are written as the same text. -/
def SameEntry (e' e : SyncHostEntry N) : Prop := e'.toJson.SameText e.toJson

theorem sent_same [StableNumber N] : SameEntry e.sent e := by
  refine .obj ?_
  rw [sent_members, defined_map, List.forall₂_map_left_iff, List.forall₂_same]
  exact fun p _ => ⟨rfl, .written⟩

/-- What the client says, over an entry that was made with it and sent. -/
theorem merge_sent_same [StableNumber N] (h : Holds own e) :
    SameEntry (mergeLocalOverRemote own.toSyncHostEntry (some e.sent)) e := by
  have hknown : ∀ p ∈ own.members, p.2 ≠ none → p.1 ∈ keys e.sent.members := by
    rintro ⟨k, value⟩ hp hne
    obtain ⟨v, rfl⟩ := Option.ne_none_iff_exists'.mp hne
    have hown : own.get k = some v := by
      show (property k own.members).join = some v
      rw [(Js.property_eq_some own.once).mpr hp]
      rfl
    by_contra hk
    have hget : e.sent.get k = (e.get k).map Json.written := get_sent
    rw [h k v hown] at hget
    have hnone : e.sent.get k = none := by
      show (property k e.sent.members).join = none
      rw [Js.property_eq_none.mpr hk]
      rfl
    rw [hnone] at hget
    cases hget
  have hmembers : (mergeLocalOverRemote own.toSyncHostEntry (some e.sent)).members =
      (defined e.members).map fun p => (p.1, some ((own.get p.1).getD p.2.written)) := by
    show overlay own.members e.sent.members = _
    rw [overlay_known own.once e.sent.once hknown, sent_members, List.map_map]
    refine List.map_congr_left fun p _ => ?_
    show (p.1, ((property p.1 own.members).join).or (some p.2.written)) = _
    rw [SyncHostEntry.get]
    cases (property p.1 own.members).join <;> rfl
  refine .obj ?_
  rw [hmembers, defined_map, List.forall₂_map_left_iff, List.forall₂_same]
  intro p hp
  refine ⟨rfl, ?_⟩
  cases hown : own.get p.1 with
  | none => exact .written
  | some v =>
    have hv := h _ _ hown
    rw [get_of_mem hp] at hv
    cases hv
    exact .refl

/-! ## The whole list -/

omit [JsNumber N] in
/-- The aliases in their order, each with its entry. -/
theorem assembleFrom_filterMap : ∀ {seen : List Text}, checked.Nodup → (∀ a ∈ checked, a ∉ seen) →
    assembleFrom hosts remote seen checked = checked.filterMap (entryOf hosts remote) := by
  induction checked with
  | nil => exact fun _ _ => rfl
  | cons a checked ih =>
    intro seen hn hseen
    obtain ⟨ha, hn'⟩ := List.nodup_cons.mp hn
    have hlater : ∀ b ∈ checked, b ∉ a :: seen := fun b hb hm =>
      (List.mem_cons.mp hm).elim (fun h => ha (h ▸ hb)) (hseen b (List.mem_cons_of_mem _ hb))
    rw [assembleFrom, if_neg (hseen a List.mem_cons_self), ih hn' hlater, List.filterMap_cons]
    cases entryOf hosts remote a <;> rfl

omit [JsNumber N] in
theorem byName_eq_some (hn : (hosts.map (·.name)).Nodup) :
    byName hosts hostAlias = some e ↔ e ∈ hosts ∧ e.name = hostAlias := by
  refine ⟨byName_mem, fun ⟨he, hname⟩ => ?_⟩
  have hmem : hostAlias ∈ hosts.map (·.name) := hname ▸ List.mem_map_of_mem he
  obtain ⟨e', he'⟩ := Option.isSome_iff_exists.mp (byName_isSome hmem)
  obtain ⟨hmem, hname'⟩ := byName_mem he'
  rw [he', List.inj_on_of_nodup_map hn hmem he (hname'.trans hname.symm)]

omit [JsNumber N] in
theorem entryOf_own {host : SyncHostEntry N} (h : byName hosts hostAlias = some host) :
    entryOf hosts remote hostAlias = some (mergeLocalOverRemote host (byName remote hostAlias)) := by
  rw [entryOf, h]

omit [JsNumber N] in
theorem entryOf_other (h : byName hosts hostAlias = none) :
    entryOf hosts remote hostAlias = byName remote hostAlias := by
  rw [entryOf, h]

theorem sent_names : (hosts.map SyncHostEntry.sent).map (·.name) = hosts.map (·.name) := by
  rw [List.map_map]
  rfl

/-- The account that was written has what was assembled. -/
theorem byName_sent (hn : (hosts.map (·.name)).Nodup) :
    byName (hosts.map SyncHostEntry.sent) hostAlias = (byName hosts hostAlias).map SyncHostEntry.sent := by
  cases h : byName hosts hostAlias with
  | some e =>
    obtain ⟨he, hname⟩ := byName_mem h
    exact (byName_eq_some (by rw [sent_names]; exact hn)).mpr ⟨List.mem_map_of_mem he, hname⟩
  | none =>
    cases h' : byName (hosts.map SyncHostEntry.sent) hostAlias with
    | none => rfl
    | some e' =>
      obtain ⟨he', hname⟩ := byName_mem h'
      obtain ⟨e, he, rfl⟩ := List.mem_map.mp he'
      rw [(byName_eq_some hn).mpr ⟨he, hname⟩] at h
      cases h

variable {localHosts : List (LocalHost N)}

/-- The client's hosts, as the functions of the merge take them. -/
def entries (localHosts : List (LocalHost N)) : List (SyncHostEntry N) :=
  localHosts.map (·.toSyncHostEntry)

omit [JsNumber N] in
theorem byName_assembled (ha : hostAlias ∈ checked) :
    byName (assembleSyncSet hosts remote checked) hostAlias = entryOf hosts remote hostAlias := by
  cases h : entryOf hosts remote hostAlias with
  | some e => exact (byName_eq_some assembleFrom_names).mpr ⟨mem_assemble.mpr ⟨_, ha, h⟩, entryOf_name h⟩
  | none =>
    cases h' : byName (assembleSyncSet hosts remote checked) hostAlias with
    | none => rfl
    | some e =>
      obtain ⟨he, hname⟩ := byName_mem h'
      obtain ⟨b, _, hb⟩ := mem_assemble.mp he
      rw [← hname, entryOf_name hb, hb] at h
      cases h

/-- An alias contributes the same text as before. -/
theorem entryOf_again [StableNumber N] (ha : hostAlias ∈ checked) :
    Option.Rel SameEntry
      (entryOf (entries localHosts)
        ((assembleSyncSet (entries localHosts) remote checked).map SyncHostEntry.sent) hostAlias)
      (entryOf (entries localHosts) remote hostAlias) := by
  have hagain : byName ((assembleSyncSet (entries localHosts) remote checked).map SyncHostEntry.sent)
      hostAlias = (entryOf (entries localHosts) remote hostAlias).map SyncHostEntry.sent := by
    rw [← byName_assembled ha]
    exact byName_sent assembleFrom_names
  cases hown : byName (entries localHosts) hostAlias with
  | none =>
    rw [entryOf_other hown, hagain]
    cases entryOf (entries localHosts) remote hostAlias with
    | none => exact .none
    | some e => exact .some sent_same
  | some host =>
    obtain ⟨own, _, rfl⟩ := List.mem_map.mp (byName_mem hown).1
    rw [entryOf_own hown, hagain, entryOf_own hown]
    exact .some (merge_sent_same (holds_merge _))

theorem assemble_again [StableNumber N] (hn : checked.Nodup) :
    List.Forall₂ SameEntry
      (assembleSyncSet (entries localHosts)
        ((assembleSyncSet (entries localHosts) remote checked).map SyncHostEntry.sent) checked)
      (assembleSyncSet (entries localHosts) remote checked) := by
  have hnone : ∀ a ∈ checked, a ∉ ([] : List Text) := fun _ _ h => by cases h
  have hsame : List.Forall₂ (fun a b => a = b ∧ a ∈ checked) checked checked :=
    List.forall₂_same.mpr fun a ha => ⟨rfl, ha⟩
  rw [assembleSyncSet, assembleFrom_filterMap hn hnone]
  conv_rhs => rw [assembleSyncSet, assembleFrom_filterMap hn hnone]
  refine List.rel_filterMap ?_ hsame
  rintro a _ ⟨rfl, ha⟩
  exact entryOf_again ha

theorem serialize_same {hosts hosts' : List (SyncHostEntry N)}
    (h : List.Forall₂ SameEntry hosts' hosts) :
    serializeSyncPayload hosts' = serializeSyncPayload hosts := by
  refine Json.SameText.stringify (.obj (.cons ⟨rfl, .arr ?_⟩ .nil))
  rw [List.forall₂_map_left_iff, List.forall₂_map_right_iff]
  exact h

/-! ## A round and the next one -/

variable {attempts left : Nat} {answers : Answers} {effects : Nat → Answers}
  {selection : SyncSelectionState} {version : Int} {selectedAliases untickedAliases : List Text} {n : Nat}

/-- The hosts that a pull shows. -/
def accountHosts (N : Type) [JsNumber N] (snapshot : SyncRoundSnapshot) : List (SyncHostEntry N) :=
  match accountOf snapshot with
  | .ok (_, hosts) => hosts
  | .error _ => []

/-- The selection after so many pulls, the first of them that of attempt `first`. -/
def absorbed (N : Type) [JsNumber N] (effects : Nat → Answers) (first : Nat) :
    Nat → SyncSelectionState → SyncSelectionState
  | 0, sel => sel
  | pulls + 1, sel =>
    applyAccountToSelection (accountHosts N (effects (first + pulls)).pull)
      (absorbed N effects first pulls sel)

theorem absorbed_first {first : Nat} : ∀ pulls sel, absorbed N effects first (pulls + 1) sel =
    absorbed N effects (first + 1) pulls
      (applyAccountToSelection (accountHosts N (effects first).pull) sel) := by
  intro pulls
  induction pulls with
  | zero => exact fun _ => rfl
  | succ pulls ih =>
    intro sel
    rw [absorbed, ih, absorbed, Nat.add_assoc, Nat.add_comm 1]

/-- What a round that reports success has done in its last attempt. -/
structure Wrote (localHosts : List (LocalHost N)) (effects : Nat → Answers) (attempts : Nat)
    (sel : SyncSelectionState) (version : Int) (selectedAliases untickedAliases : List Text)
    (hosts : List (SyncHostEntry N)) : Prop where
  valid : isVersion version = true
  ticked : selectedAliases = sel.checked
  spent : untickedAliases = sel.unticked.filter (hasName hosts)
  set : hosts = assembleSyncSet (entries localHosts) (accountHosts N (effects attempts).pull) sel.checked
  nonempty : hosts ≠ []
  named : ∀ r ∈ accountHosts N (effects attempts).pull, Js.trim r.name ≠ [] ∧ Js.trim r.hostname ≠ []

theorem attemptsFrom_wrote : ∀ {attempts sel},
    (attemptsFrom localHosts effects left attempts sel).1 =
      .synced version selectedAliases untickedAliases hosts n →
    ∃ pulls, n = attempts + pulls ∧
      Wrote localHosts effects n (absorbed N effects attempts (pulls + 1) sel) version selectedAliases
        untickedAliases hosts := by
  induction left with
  | zero => exact fun h => by cases h
  | succ left ih =>
    intro attempts sel h
    have hatt : Attempted localHosts attempts sel (effects attempts)
        (attempt localHosts attempts sel (effects attempts)) := attempt_cases
    rw [attemptsFrom] at h
    generalize attempt localHosts attempts sel (effects attempts) = a at hatt h
    cases hatt with
    | unread result hacc => exact absurd h (accountOf_error hacc)
    | unsent base remote result hacc hr => rcases hr with rfl | ⟨_, rfl⟩ <;> cases h
    | sent base remote hacc hne =>
      have hremote : accountHosts N (effects attempts).pull = remote := by rw [accountHosts, hacc]
      cases hb : afterPush attempts (applyAccountToSelection remote sel)
          (assembled localHosts remote sel) (effects attempts).push with
      | done result =>
        rw [hb] at h
        obtain rfl : result = _ := h
        obtain ⟨_, rfl, rfl, rfl, hversion, rfl⟩ := afterPush_synced hb
        refine ⟨0, rfl, hversion, ?_, ?_, ?_, hne, ?_⟩
        · rw [absorbed, absorbed, Nat.add_zero, hremote]
        · rw [absorbed, absorbed, Nat.add_zero, hremote]
        · rw [absorbed, absorbed, Nat.add_zero, hremote]
          rfl
        · rw [hremote]
          exact accountOf_named hacc
      | again sel' =>
        rw [hb] at h
        obtain ⟨rfl, _, _⟩ := afterPush_again hb
        obtain ⟨pulls, rfl, hw⟩ := ih h
        refine ⟨pulls + 1, by rw [Nat.add_assoc, Nat.add_comm 1], ?_⟩
        rw [absorbed_first, hremote]
        exact hw

/-- The round again, with the selection it left and over the account it wrote: the
same text is pushed, and a push that lands leaves the same selection. -/
def Repeats (localHosts : List (LocalHost N)) (selectedAliases untickedAliases : List Text)
    (plaintext : Text) : Prop :=
  ∀ (effects : Nat → Answers) version, isVersion version = true →
    (effects 1).pull = .ok version plaintext → (effects 1).onPulled = none →
    ∃ pulled later, (runSyncRound localHosts ⟨selectedAliases, untickedAliases⟩ effects).2 =
        .pulled (.ok version plaintext) :: .observed pulled ::
          .pushed (some version) plaintext (effects 1).push :: later ∧
      ∀ next, (effects 1).push = .ok next → isVersion next = true →
        ∃ hosts, (runSyncRound localHosts ⟨selectedAliases, untickedAliases⟩ effects).1 =
          .synced next selectedAliases untickedAliases hosts 1

omit [JsNumber N] in
theorem run_second {localHosts : List (LocalHost N)} [JsNumber N] {unticked : List Text}
    {outcome : Attempt N} {e₁ e₂ e₃ : Event N}
    (h : attempt localHosts 1 ⟨unique checked, unique unticked⟩ (effects 1) = (outcome, [e₁, e₂, e₃])) :
    (∃ later, (runSyncRound localHosts ⟨checked, unticked⟩ effects).2 = e₁ :: e₂ :: e₃ :: later) ∧
      ∀ result, outcome = .done result → (runSyncRound localHosts ⟨checked, unticked⟩ effects).1 = result := by
  rw [runSyncRound, SYNC_ROUND_CONFLICT_RETRIES, attemptsFrom, h]
  cases outcome with
  | done result => exact ⟨⟨[], rfl⟩, fun result' he => by cases he; rfl⟩
  | again sel => exact ⟨⟨_, rfl⟩, fun _ he => by cases he⟩

/-- The name and the hostname are not blank. -/
def Addressable (e : SyncHostEntry N) : Prop := Js.trim e.name ≠ [] ∧ Js.trim e.hostname ≠ []

/-- An account that every client reads is one that the round repeats itself over. -/
theorem repeats_of_addressable [StableNumber N] (hn : checked.Nodup)
    (hset : hosts = assembleSyncSet (entries localHosts) remote checked) (hne : hosts ≠ [])
    (hall : ∀ e ∈ hosts, Addressable e) : Repeats localHosts checked [] (serializeSyncPayload hosts) := by
  intro effects version hversion hpull hobserver
  have hacc : accountOf (effects 1).pull = .ok (some version, hosts.map SyncHostEntry.sent) := by
    rw [hpull, accountOf, hversion, parse_serialize, parseEntries_written.mpr ⟨hall, rfl⟩]
    rfl
  have hknown : ∀ host ∈ hosts.map SyncHostEntry.sent, host.name ∈ checked := by
    intro host hh
    obtain ⟨e, he, rfl⟩ := List.mem_map.mp hh
    obtain ⟨a, ha, hentry⟩ := mem_assemble.mp (hset ▸ he)
    show e.name ∈ checked
    rw [entryOf_name hentry]
    exact ha
  have happly : applyAccountToSelection (hosts.map SyncHostEntry.sent) ⟨unique checked, unique []⟩ =
      ⟨checked, []⟩ := by
    rw [unique_of_nodup hn]
    exact apply_again hn hknown
  have hsame : List.Forall₂ SameEntry
      (assembleSyncSet (entries localHosts) (hosts.map SyncHostEntry.sent) checked) hosts := by
    rw [hset]
    exact assemble_again hn
  have hagain : assembleSyncSet (entries localHosts) (hosts.map SyncHostEntry.sent) checked ≠ [] := by
    intro h
    rw [h, List.forall₂_nil_left_iff] at hsame
    exact hne hsame
  have hattempt : attempt localHosts 1 ⟨unique checked, unique []⟩ (effects 1) =
      (afterPush 1 ⟨checked, []⟩
          (assembleSyncSet (entries localHosts) (hosts.map SyncHostEntry.sent) checked) (effects 1).push,
        [.pulled (.ok version (serializeSyncPayload hosts)),
          .observed ⟨some version, hosts.map SyncHostEntry.sent, checked, []⟩,
          .pushed (some version) (serializeSyncPayload hosts) (effects 1).push]) := by
    unfold attempt
    rw [hacc]
    dsimp only
    rw [happly, afterPull, hobserver, hpull]
    dsimp only
    rw [← serialize_same hsame]
    exact congrArg (fun r : Attempt N × List (Event N) => (r.1, _ :: r.2)) (if_neg hagain)
  obtain ⟨⟨later, hevents⟩, hresult⟩ := run_second hattempt
  refine ⟨_, later, hevents, fun next hnext hvalid => ?_⟩
  have hdone : ∀ set : List (SyncHostEntry N), afterPush 1 ⟨checked, []⟩ set (effects 1).push =
      .done (.synced next checked [] set 1) := by
    intro set
    rw [hnext, afterPush, hvalid]
    rfl
  exact ⟨_, hresult _ (hdone _)⟩

/-- An account with a blank name or hostname stops the next round at its pull. -/
theorem not_repeats (h : ¬ ∀ e ∈ hosts, Addressable e) {untickedAliases : List Text} :
    ¬ Repeats localHosts checked untickedAliases (serializeSyncPayload hosts) := by
  intro hr
  let effects : Nat → Answers := fun _ => ⟨.ok 0 (serializeSyncPayload hosts), none, .other⟩
  obtain ⟨pulled, later, hevents, _⟩ := hr effects 0 rfl rfl rfl
  cases hacc : accountOf (N := N) (.ok 0 (serializeSyncPayload hosts)) with
  | ok account =>
    obtain ⟨base, remote⟩ := account
    rcases accountOf_ok hacc with ⟨h', _⟩ | ⟨_, _, h', _, hparse⟩
    · cases h'
    · cases h'
      rw [parse_serialize] at hparse
      exact h (parseEntries_written.mp hparse).1
  | error result =>
    have hattempt : attempt localHosts 1 ⟨unique checked, unique untickedAliases⟩ (effects 1) =
        (.done result, [.pulled (effects 1).pull]) := by
      unfold attempt
      rw [hacc]
    rw [runSyncRound, SYNC_ROUND_CONFLICT_RETRIES, attemptsFrom, hattempt] at hevents
    cases hevents

/-- Nothing of the untick list is left when a push has landed. -/
theorem Wrote.spent_all {sel₀ : SyncSelectionState}
    (hw : Wrote localHosts effects n (applyAccountToSelection remote sel₀) version selectedAliases
      untickedAliases hosts) : untickedAliases = [] := by
  rw [hw.spent, List.filter_eq_nil_iff]
  intro a ha hname
  obtain ⟨e, he, hea⟩ := List.mem_map.mp (of_decide_eq_true hname)
  rw [hw.set] at he
  obtain ⟨b, hb, hentry⟩ := mem_assemble.mp he
  obtain rfl : a = b := hea.symm.trans (entryOf_name hentry)
  exact unticked_apart ha hb

omit [JsNumber N] in
theorem merge_hostname {host : SyncHostEntry N} {r : Option (SyncHostEntry N)} :
    (mergeLocalOverRemote host r).hostname = host.hostname := by
  cases r <;> rfl

omit [JsNumber N] in
/-- The entries of a push have names and hostnames when those of the client do that
it takes. -/
theorem addressable_iff (hdistinct : (localHosts.map (·.name)).Nodup)
    (hremote : ∀ r ∈ remote, Addressable r) :
    (∀ e ∈ assembleSyncSet (entries localHosts) remote checked, Addressable e) ↔
      ∀ host ∈ localHosts, host.name ∈ checked → Addressable host.toSyncHostEntry := by
  have hdistinct : ((entries localHosts).map (·.name)).Nodup := by
    rw [entries, List.map_map]
    exact hdistinct
  constructor
  · intro h host hhost hticked
    have hown : byName (entries localHosts) host.name = some host.toSyncHostEntry :=
      (byName_eq_some hdistinct).mpr ⟨List.mem_map_of_mem hhost, rfl⟩
    have he := h _ (mem_assemble.mpr ⟨_, hticked, entryOf_own hown⟩)
    rw [Addressable, merge_name, merge_hostname] at he
    exact he
  · intro h e he
    obtain ⟨a, ha, hentry⟩ := mem_assemble.mp he
    cases hown : byName (entries localHosts) a with
    | none =>
      rw [entryOf_other hown] at hentry
      exact hremote e (byName_mem hentry).1
    | some host =>
      obtain ⟨hmem, rfl⟩ := byName_mem hown
      obtain ⟨own, hown', rfl⟩ := List.mem_map.mp hmem
      rw [entryOf_own hown] at hentry
      cases hentry
      rw [Addressable, merge_name, merge_hostname]
      exact h own hown' ha

/-- A round that reports success pushed what it reports. It repeats itself exactly when
the client's hosts that the selection takes have names and hostnames. What it leaves
ticked is not unticked, and every later round that is not touched takes all of the
account's aliases. -/
theorem round_fixed [StableNumber N] (localHosts : List (LocalHost N))
    (hdistinct : (localHosts.map (·.name)).Nodup) (selection : SyncSelectionState)
    (effects : Nat → Answers) (version : Int) (selectedAliases untickedAliases : List Text)
    (hosts : List (SyncHostEntry N)) (attempts : Nat)
    (h : (runSyncRound localHosts selection effects).1 =
      .synced version selectedAliases untickedAliases hosts attempts) :
    (∃ before base, (runSyncRound localHosts selection effects).2 =
      before ++ [.pushed base (serializeSyncPayload hosts) (.ok version)]) ∧
    (Repeats localHosts selectedAliases untickedAliases (serializeSyncPayload hosts) ↔
      ∀ host ∈ localHosts, host.name ∈ (absorbed N effects 1 attempts
          ⟨unique selection.checked, unique selection.unticked⟩).checked →
        Addressable host.toSyncHostEntry) ∧
    (∀ a ∈ selectedAliases, a ∉ untickedAliases) ∧
    (∀ a ∈ selection.unticked, a ∉ hosts.map (·.name) → a ∉ untickedAliases) ∧
    ∀ (localHosts' : List (LocalHost N)) effects' before base plaintext answer after,
      (runSyncRound localHosts' ⟨selectedAliases, untickedAliases⟩ effects').2 =
        before ++ .pushed base plaintext answer :: after →
      ∃ (earlier : List (Event N)) (snapshot : SyncRoundSnapshot) (pulled : SyncRoundPulled N)
          (taken : List (SyncHostEntry N)),
        before = earlier ++ [.pulled snapshot, .observed pulled] ∧
        plaintext = serializeSyncPayload taken ∧
        ∀ r ∈ pulled.hosts, ∃ e ∈ taken, e.name = r.name := by
  obtain ⟨pulls, rfl, hw⟩ := attemptsFrom_wrote h
  have hspent : untickedAliases = [] := Wrote.spent_all hw
  have hticked := hw.ticked
  rw [Nat.add_comm 1]
  subst hspent hticked
  refine ⟨attemptsFrom_synced h, ?_, fun _ _ => List.not_mem_nil,
    fun _ _ _ => List.not_mem_nil, ?_⟩
  · have hset := hw.set
    rw [← addressable_iff hdistinct hw.named, ← hset]
    constructor
    · intro hr
      by_contra hne
      exact not_repeats hne hr
    · exact repeats_of_addressable checked_nodup hset hw.nonempty
  · intro localHosts' effects' before base plaintext answer after hpush
    obtain ⟨remote, sel, hp⟩ := runSyncRound_pushed hpush
    obtain ⟨earlier, snapshot, hbefore, _⟩ := hp.pulled
    refine ⟨earlier, snapshot, pulledOf base remote sel, assembled localHosts' remote sel, hbefore,
      hp.plaintext, fun r hr => ?_⟩
    exact hp.kept hr |>.resolve_left fun hu => by cases hu.1

def oneHostEntry : SyncHostEntry Js.Literal where
  name := ascii "db"
  hostname := ascii "h"
  members := [(nameKey, some (.str (ascii "db"))), (hostnameKey, some (.str (ascii "h")))]
  once := by decide
  named := rfl
  addressed := rfl

theorem round_fixed_untouched :
    Repeats ([] : List (LocalHost Js.Literal)) [ascii "db"] [] (serializeSyncPayload [oneHostEntry]) :=
  (round_fixed ([] : List (LocalHost Js.Literal)) List.nodup_nil ⟨[], []⟩ oneHost 8 [ascii "db"] []
    [oneHostEntry] 1 rfl).2.1.mpr fun _ h => by cases h

theorem round_not_fixed :
    (runSyncRound [unnamed] ⟨[ascii "web"], []⟩ fun _ => ⟨.absent, none, .ok 1⟩).1 =
      .synced 1 [ascii "web"] [] [unnamed.toSyncHostEntry] 1 ∧
    ¬ Repeats [unnamed] [ascii "web"] [] (serializeSyncPayload [unnamed.toSyncHostEntry]) := by
  refine ⟨rfl, not_repeats fun h => ?_⟩
  exact (h unnamed.toSyncHostEntry List.mem_cons_self).2 rfl

end PocketShell.Sync
