import PocketShell.SavedHosts.Guarantee

/-!
# Importing the same hosts again

An import leaves a document that is `Settled` for its hosts and its default, and so does every
operation of the user after it. A settled document is left alone by the same import, unless the
selection was taken back or the default was a host of the user's own that is gone
(`import_again_iff`).
-/

namespace PocketShell.SavedHosts

open Js (Text Json JsInteger ascii property assign keys)

variable {N : Type} [JsInteger N] {env : Env N}

/-! ## What is committed -/

omit [JsInteger N] in
theorem uniqueStrings_same {ids ids' : List Text}
    (h : uniqueStrings (some (.arr (ids.map .str) : Json N)) = some ids') : ids' = ids := by
  have hread : ∀ ids strings : List Text, (ids.map .str : List (Json N)).mapM stringOf = some strings →
      strings = ids := by
    intro ids
    induction ids with
    | nil =>
      intro strings h
      cases h
      rfl
    | cons id ids ih =>
      intro strings h
      rw [List.map_cons, List.mapM_cons] at h
      obtain ⟨s, hs, h⟩ := Option.bind_eq_some_iff.mp h
      obtain ⟨rest, hrest, h⟩ := Option.bind_eq_some_iff.mp h
      cases h
      unfold stringOf at hs
      rw [Json.view_str] at hs
      dsimp only at hs
      split at hs
      · cases hs
      · cases hs
        rw [ih rest hrest]
  unfold uniqueStrings itemsOf at h
  rw [Option.map_some, Json.view_arr] at h
  obtain ⟨items, hitems, h⟩ := Option.bind_eq_some_iff.mp h
  cases hitems
  obtain ⟨strings, hstrings, h⟩ := Option.bind_eq_some_iff.mp h
  split at h
  · cases h
    exact hread ids _ hstrings
  · cases h

theorem validateHost_same {host host' : SavedHost N} (hfields : host.toSavedHostFields.Valid env)
    (h : validateHost env host.toJson = .ok host') : host' = host := by
  unfold validateHost at h
  rw [hostInput_toJson] at h
  obtain ⟨⟨id, input⟩, hinput, h⟩ := bind_ok h
  cases hinput
  obtain ⟨_, -, h⟩ := bind_ok h
  obtain ⟨fields, hvalid, h⟩ := bind_ok h
  rw [validateSavedHostInput_input hfields] at hvalid
  cases hvalid
  cases h
  rfl

theorem validateHosts_same {hosts hosts' : List (SavedHost N)}
    (hfields : ∀ host ∈ hosts, host.toSavedHostFields.Valid env)
    (h : (hosts.map SavedHost.toJson).mapM (validateHost env) = .ok hosts') : hosts' = hosts := by
  induction hosts generalizing hosts' with
  | nil =>
    cases h
    rfl
  | cons host hosts ih =>
    obtain ⟨hhost, hrest⟩ := List.forall_mem_cons.mp hfields
    rw [List.map_cons, List.mapM_cons] at h
    obtain ⟨first, hfirst, h⟩ := bind_ok h
    obtain ⟨rest, hmap, h⟩ := bind_ok h
    cases h
    rw [validateHost_same hhost hfirst, ih hrest hmap]

/-- A document whose hosts are normalized is refused or taken as it is. -/
theorem validateDocument_same {next document : SavedHostDocument N}
    (hfields : ∀ host ∈ next.hosts, host.toSavedHostFields.Valid env)
    (h : validateDocument env next.toJson = .ok document) : document = next := by
  unfold validateDocument at h
  rw [frameOf_toJson] at h
  obtain ⟨frame, hframe, h⟩ := bind_ok h
  cases hframe
  obtain ⟨⟨imported, tombstones⟩, hmarkers, h⟩ := bind_ok h
  obtain ⟨hosts, hhosts, h⟩ := bind_ok h
  obtain ⟨_, -, h⟩ := bind_ok h
  obtain ⟨_, -, h⟩ := bind_ok h
  cases h
  obtain ⟨ids, hids, hmarkers⟩ := Option.bind_eq_some_iff.mp (orThrow_ok hmarkers)
  obtain ⟨deleted, hdeleted, hmarkers⟩ := Option.bind_eq_some_iff.mp hmarkers
  split at hmarkers
  · cases hmarkers
    rw [validateHosts_same hfields hhosts, uniqueStrings_same hids, uniqueStrings_same hdeleted]
    rfl
  · cases hmarkers

variable {accepts : Bool} {next : SavedHostDocument N}

theorem commit_ok {s s' : Store N} (hfields : ∀ host ∈ next.hosts, host.toSavedHostFields.Valid env)
    (h : commit env accepts next s = (.ok (), s')) :
    s'.document = next ∧ validateDocument env next.toJson = .ok next := by
  unfold commit at h
  cases hvalid : validateDocument env next.toJson with
  | error message =>
    rw [hvalid] at h
    cases h
  | ok document =>
    obtain rfl := validateDocument_same hfields hvalid
    rw [hvalid] at h
    cases accepts with
    | true =>
      cases h
      exact ⟨rfl, rfl⟩
    | false => cases h

/-! ## What the user can do -/

/-- An operation of the user. The id of a new host is none that was imported. -/
def Call.byUser (document : SavedHostDocument N) : Call N → Prop
  | .add _ id => id ∉ document.importedHostIds
  | .load => False
  | .importHosts _ _ => False
  | _ => True

inductive Edited (env : Env N) (s : Store N) : Store N → Prop
  | refl : Edited env s s
  | step {t : Store N} (call : Call N) (accepts : Bool) :
      Edited env s t → call.byUser t.document → Edited env s (call.run env accepts t).2

/-- What an operation of the user makes of a document. -/
inductive Edit (document : SavedHostDocument N) : SavedHostDocument N → Prop
  | kept : Edit document document
  | added (host : SavedHost N) : host.id ∉ document.importedHostIds →
      Edit document (document.added host)
  | updated (index : Nat) (host : SavedHost N) :
      (document.hosts[index]?).map (·.id) = some host.id →
      Edit document { document with hosts := document.hosts.set index host }
  | deleted (id : Text) : Edit document (document.deleted id)
  | selected (id : Option Text) : Edit document { document with selectedHostId := id }
  | defaulted (id : Option Text) :
      Edit document { document with defaultHostId := id, defaultHostExplicitlySet := true }
  | moved (hosts : List (SavedHost N)) : hosts.Perm document.hosts →
      Edit document { document with hosts }

variable {s : Store N}

theorem commit_edit (hs : env.Stable) (hfields : ∀ host ∈ next.hosts, host.toSavedHostFields.Valid env)
    (hedit : Edit s.document next) : Edit s.document (commit env accepts next s).2.document := by
  have hout : Outcome env s (commit env accepts next s) := commit_outcome hs next
  generalize hresult : commit env accepts next s = result at hout ⊢
  cases hout with
  | threw => exact .kept
  | kept => exact .kept
  | stored document => exact (commit_ok hfields hresult).1 ▸ hedit
  | loaded document => exact (commit_ok hfields hresult).1 ▸ hedit

omit [JsInteger N] in
theorem edit_checked {α : Type} {result : Except String α} {f : α → Op N Unit}
    (h : ∀ a, result = .ok a → Edit s.document (f a s).2.document) :
    Edit s.document ((checked result >>= f) s).2.document := by
  cases result with
  | error message => exact .kept
  | ok a => exact h a rfl

variable {document : SavedHostDocument N}

omit [JsInteger N] in
theorem indexOf_ok {id : Text} {index : Nat} (h : document.indexOf id = .ok index) :
    ∃ host, document.hosts[index]? = some host ∧ host.id = id := by
  obtain ⟨hlt, hid, -⟩ := List.findIdx?_eq_some_iff_getElem.mp (orThrow_ok h)
  exact ⟨_, List.getElem?_eq_getElem hlt, of_decide_eq_true hid⟩

omit [JsInteger N] in
theorem added_hosts (document : SavedHostDocument N) (host : SavedHost N) :
    (document.added host).hosts = document.hosts ++ [host] := by
  unfold SavedHostDocument.added
  dsimp only
  split <;> rfl

theorem user_edit (hs : env.Stable) (h : s.document.Valid env) {call : Call N}
    (huser : call.byUser s.document) (accepts : Bool) :
    Edit s.document (call.run env accepts s).2.document := by
  have hhosts : ∀ host ∈ s.document.hosts, host.toSavedHostFields.Valid env :=
    fun host hhost => (h.hosts host hhost).fields
  cases call with
  | load => exact huser.elim
  | importHosts hosts defaultHostId => exact huser.elim
  | add input id =>
    refine edit_checked fun fields hvalid => ?_
    show Edit s.document ((if _ then _ else _ : Op N Unit) s).2.document
    split
    · exact .kept
    · refine commit_edit hs (fun host hhost => ?_) (.added _ huser)
      rw [added_hosts] at hhost
      rcases List.mem_append.mp hhost with hold | hnew
      · exact hhosts host hold
      · obtain rfl := List.mem_singleton.mp hnew
        exact validateSavedHostInput_valid hs hvalid
  | update id input =>
    refine edit_checked fun index hindex => edit_checked fun fields hvalid => ?_
    obtain ⟨old, hold, rfl⟩ := indexOf_ok hindex
    refine commit_edit hs (fun host hhost => ?_) (.updated index _ (by rw [hold]; rfl))
    rcases List.mem_or_eq_of_mem_set hhost with hkept | rfl
    · exact hhosts host hkept
    · exact validateSavedHostInput_valid hs hvalid
  | delete id =>
    show Edit s.document ((if _ then _ else _ : Op N Unit) s).2.document
    split
    · exact commit_edit hs (fun host hhost => hhosts host (List.mem_filter.mp hhost).1) (.deleted id)
    · exact .kept
  | select id =>
    show Edit s.document ((if _ then _ else _ : Op N Unit) s).2.document
    split
    · exact .kept
    · exact commit_edit hs hhosts (.selected id)
  | setDefault id =>
    show Edit s.document ((if _ then _ else _ : Op N Unit) s).2.document
    split
    · exact .kept
    · exact commit_edit hs hhosts (.defaulted id)
  | move id destinationIndex =>
    refine edit_checked fun source _ => edit_checked fun destination hdestination =>
      edit_checked fun host hhost => ?_
    have hperm : ((s.document.hosts.eraseIdx source).insertIdx destination host).Perm
        s.document.hosts := by
      have hlt := (List.getElem?_eq_some_iff.mp (orThrow_ok hhost)).1
      have hbound : destination < s.document.hosts.length := by
        unfold SavedHostDocument.positionOf at hdestination
        obtain ⟨i, hi, rfl⟩ := Option.map_eq_some_iff.mp (orThrow_ok hdestination)
        obtain ⟨-, hrange⟩ := Option.filter_eq_some_iff.mp hi
        simp only [Bool.and_eq_true, decide_eq_true_eq] at hrange
        omega
      obtain ⟨_, rfl⟩ := List.getElem?_eq_some_iff.mp (orThrow_ok hhost)
      have hlength : destination ≤ (s.document.hosts.eraseIdx source).length := by
        rw [List.length_eraseIdx_of_lt hlt]
        omega
      exact (List.perm_insertIdx _ _ hlength).trans (List.getElem_cons_eraseIdx_perm hlt)
    exact commit_edit hs (fun other hother => hhosts other (hperm.mem_iff.mp hother))
      (.moved _ hperm)

/-! ## What stays true after an import -/

/-- What an import of `hosts` and `defaultHostId` has made of a document. -/
structure Settled (hosts : List (SavedHost N)) (defaultHostId : Option Text)
    (document : SavedHostDocument N) : Prop where
  /-- A host is there and marked, or deleted for good. -/
  imported : ∀ host ∈ hosts, host.id ∈ document.importTombstones ∨
    host.id ∈ document.importedHostIds ∧ host.id ∈ document.hosts.map (·.id)
  tombstones : document.importTombstones ⊆ document.importedHostIds
  /-- An imported default is there, or deleted for good. -/
  known : ∀ id ∈ defaultHostId, id ∈ document.importedHostIds →
    id ∈ document.importTombstones ∨ id ∈ document.hosts.map (·.id)
  /-- The default is chosen, or it is the deleted one. -/
  chosen : ∀ id ∈ defaultHostId, document.defaultHostExplicitlySet = true ∨
    id ∈ document.importedHostIds ∧ id ∉ document.hosts.map (·.id)

variable {hosts : List (SavedHost N)} {defaultHostId : Option Text}

omit [JsInteger N] in
/-- The same ids under the same marks. -/
theorem Settled.same {document next : SavedHostDocument N} (h : Settled hosts defaultHostId document)
    (hids : ∀ id, id ∈ next.hosts.map (·.id) ↔ id ∈ document.hosts.map (·.id))
    (himported : next.importedHostIds = document.importedHostIds)
    (htombstones : next.importTombstones = document.importTombstones)
    (hexplicit : document.defaultHostExplicitlySet = true → next.defaultHostExplicitlySet = true) :
    Settled hosts defaultHostId next where
  imported host hhost := by
    rw [htombstones, himported, hids]
    exact h.imported host hhost
  tombstones := by
    rw [htombstones, himported]
    exact h.tombstones
  known id hid := by
    rw [htombstones, himported, hids]
    exact h.known id hid
  chosen id hid := by
    rw [himported, hids]
    exact (h.chosen id hid).imp_left hexplicit

omit [JsInteger N] in
theorem Settled.deleted (h : Settled hosts defaultHostId document) (id : Text) :
    Settled hosts defaultHostId (document.deleted id) := by
  have htombstones : ∀ i, i ∈ (document.deleted id).importTombstones ↔
      i ∈ document.importTombstones ∨ i = id ∧ id ∈ document.importedHostIds := by
    intro i
    by_cases hmarked : id ∈ document.importedHostIds
    · simp [SavedHostDocument.deleted, hmarked]
    · simp [SavedHostDocument.deleted, hmarked]
  -- An imported id that was there is there still, or has become a tombstone.
  have hgone : ∀ i, i ∈ document.importedHostIds → i ∈ document.hosts.map (·.id) →
      i ∈ (document.deleted id).importTombstones ∨
        i ∈ (document.deleted id).hosts.map (·.id) := by
    intro i himported hlisted
    by_cases heq : i = id
    · exact .inl ((htombstones i).mpr (.inr ⟨heq, heq ▸ himported⟩))
    · exact .inr (mem_deleted.mpr ⟨hlisted, heq⟩)
  constructor
  · intro host hhost
    rcases h.imported host hhost with hdead | ⟨himported, hlisted⟩
    · exact .inl ((htombstones _).mpr (.inl hdead))
    · exact (hgone _ himported hlisted).imp_right fun hmem => ⟨himported, hmem⟩
  · intro i hi
    rcases (htombstones i).mp hi with hold | ⟨rfl, himported⟩
    · exact h.tombstones hold
    · exact himported
  · intro i hi himported
    rcases h.known i hi himported with hdead | hlisted
    · exact .inl ((htombstones _).mpr (.inl hdead))
    · exact hgone i himported hlisted
  · intro i hi
    rcases h.chosen i hi with hexplicit | ⟨himported, hmissing⟩
    · exact .inl (by simp [SavedHostDocument.deleted, hexplicit])
    · exact .inr ⟨himported, fun hmem => hmissing (mem_deleted.mp hmem).1⟩

omit [JsInteger N] in
theorem Settled.added (h : Settled hosts defaultHostId document)
    {host : SavedHost N} (hfresh : host.id ∉ document.importedHostIds) :
    Settled hosts defaultHostId (document.added host) := by
  have hids : (document.added host).hosts.map (·.id) = document.hosts.map (·.id) ++ [host.id] := by
    rw [added_hosts, List.map_append]
    rfl
  have himported : (document.added host).importedHostIds = document.importedHostIds := by
    unfold SavedHostDocument.added
    dsimp only
    split <;> rfl
  have htombstones : (document.added host).importTombstones = document.importTombstones := by
    unfold SavedHostDocument.added
    dsimp only
    split <;> rfl
  have hexplicit : document.defaultHostExplicitlySet = true →
      (document.added host).defaultHostExplicitlySet = true := by
    intro hset
    unfold SavedHostDocument.added
    dsimp only
    split
    · rfl
    · exact hset
  constructor
  · intro other hother
    rw [htombstones, himported, hids]
    exact (h.imported other hother).imp_right (And.imp_right (List.mem_append_left _))
  · rw [htombstones, himported]
    exact h.tombstones
  · intro id hid
    rw [htombstones, himported, hids]
    exact fun hmarked => (h.known id hid hmarked).imp_right (List.mem_append_left _)
  · intro id hid
    rw [himported, hids]
    refine (h.chosen id hid).imp hexplicit fun ⟨hmarked, hmissing⟩ => ⟨hmarked, fun hmem => ?_⟩
    rcases List.mem_append.mp hmem with hold | hnew
    · exact hmissing hold
    · exact hfresh (List.mem_singleton.mp hnew ▸ hmarked)

omit [JsInteger N] in
theorem Settled.edit {document next : SavedHostDocument N} (h : Settled hosts defaultHostId document)
    (hedit : Edit document next) : Settled hosts defaultHostId next := by
  cases hedit with
  | kept => exact h
  | selected id => exact h.same (fun _ => Iff.rfl) rfl rfl fun hset => hset
  | defaulted id => exact h.same (fun _ => Iff.rfl) rfl rfl fun _ => rfl
  | updated index host hid =>
    have hids : (document.hosts.set index host).map (·.id) = document.hosts.map (·.id) := by
      rw [List.map_set]
      refine List.ext_getElem? fun i => ?_
      rw [List.getElem?_set]
      split
      · next heq =>
        subst heq
        rw [List.getElem?_map, hid]
        split
        · rfl
        · next hout =>
          rw [List.getElem?_eq_none (by simpa using hout)] at hid
          cases hid
      · rfl
    exact h.same (fun _ => by rw [hids]) rfl rfl fun hset => hset
  | moved hosts hperm => exact h.same (fun _ => (hperm.map _).mem_iff) rfl rfl fun hset => hset
  | added host hfresh => exact h.added hfresh
  | deleted id => exact h.deleted id

/-! ## The import -/

variable {m m' : List (Text × SavedHost N)}

/-- The hosts that a run of the loop takes, by id. -/
theorem admitHost_ok {candidate : SavedHost N} (h : admitHost document m candidate = .ok m') :
    candidate.id ∈ document.importTombstones ∧ m' = m ∨
      candidate.id ∉ document.importTombstones ∧ m' = assign candidate.id candidate m ∧
        (property candidate.id m).any (!sameHost · candidate) = false := by
  unfold admitHost at h
  split at h
  · next hdead =>
    cases h
    exact .inl ⟨by simpa using hdead, rfl⟩
  split at h
  · cases h
  split at h
  · cases h
  · next hdead hsame _ =>
    cases h
    exact .inr ⟨by simpa using hdead, rfl, by simpa using hsame⟩

theorem admitHosts_keys (h : hosts.foldlM (admitHost document) m = .ok m') (id : Text) :
    id ∈ keys m' ↔ id ∈ keys m ∨
      id ∉ document.importTombstones ∧ id ∈ hosts.map (·.id) := by
  induction hosts generalizing m with
  | nil =>
    cases h
    simp
  | cons host hosts ih =>
    rw [List.foldlM_cons] at h
    obtain ⟨next, hnext, h⟩ := bind_ok h
    rw [ih h, List.map_cons, List.mem_cons]
    rcases admitHost_ok hnext with ⟨hdead, rfl⟩ | ⟨hlive, rfl, -⟩
    · have hne : id ∉ document.importTombstones → id ≠ host.id := fun hid heq => hid (heq ▸ hdead)
      tauto
    · rw [Js.mem_keys_assign]
      have hsame : id = host.id → id ∉ document.importTombstones := fun heq => heq ▸ hlive
      tauto

theorem admitHosts_mem (h : hosts.foldlM (admitHost document) m = .ok m') :
    ∀ p ∈ m', p ∈ m ∨ p.2.id = p.1 ∧ p.2 ∈ hosts := by
  induction hosts generalizing m with
  | nil =>
    cases h
    exact fun p hp => .inl hp
  | cons host hosts ih =>
    rw [List.foldlM_cons] at h
    obtain ⟨next, hnext, h⟩ := bind_ok h
    intro p hp
    rcases ih h p hp with hp | ⟨hid, hmem⟩
    · rcases admitHost_ok hnext with ⟨-, rfl⟩ | ⟨-, rfl, -⟩
      · exact .inl hp
      · rcases Js.mem_assign hp with rfl | hp
        · exact .inr ⟨rfl, List.mem_cons_self⟩
        · exact .inl hp
    · exact .inr ⟨hid, List.mem_cons_of_mem _ hmem⟩

/-- With more tombstones and every host marked, what passed passes again. -/
theorem admitHosts_again {document next : SavedHostDocument N}
    (htombstones : document.importTombstones ⊆ next.importTombstones)
    (hmarked : ∀ host ∈ hosts, host.id ∈ next.importTombstones ∨ host.id ∈ next.importedHostIds)
    {m m' n : List (Text × SavedHost N)} (h : hosts.foldlM (admitHost document) m = .ok m')
    (hagree : ∀ id ∉ next.importTombstones, property id m = property id n) :
    ∃ n', hosts.foldlM (admitHost next) n = .ok n' := by
  induction hosts generalizing m n with
  | nil => exact ⟨n, rfl⟩
  | cons host hosts ih =>
    rw [List.foldlM_cons] at h
    obtain ⟨m₁, hnext, h⟩ := bind_ok h
    obtain ⟨hhost, hrest⟩ := List.forall_mem_cons.mp hmarked
    rw [List.foldlM_cons]
    by_cases hdead : host.id ∈ next.importTombstones
    · have hskip : admitHost next n host = .ok n := by
        unfold admitHost
        rw [if_pos (by simpa using hdead)]
      rw [hskip]
      refine ih hrest h fun id hid => ?_
      rcases admitHost_ok hnext with ⟨-, rfl⟩ | ⟨-, rfl, -⟩
      · exact hagree id hid
      · rw [Js.property_assign_other fun heq : id = host.id => hid (heq ▸ hdead)]
        exact hagree id hid
    · rcases admitHost_ok hnext with ⟨hold, -⟩ | ⟨-, rfl, hsame⟩
      · exact absurd (htombstones hold) hdead
      have htake : admitHost next n host = .ok (assign host.id host n) := by
        have hmark : next.importedHostIds.contains host.id = true := by
          simpa using hhost.resolve_left hdead
        unfold admitHost
        rw [if_neg (by simpa using hdead), ← hagree _ hdead, hsame, hmark]
        rfl
      rw [htake]
      refine ih hrest h fun id hid => ?_
      by_cases heq : id = host.id
      · subst heq
        rw [Js.property_assign_self, Js.property_assign_self]
      · rw [Js.property_assign_other heq, Js.property_assign_other heq]
        exact hagree id hid

omit [JsInteger N] in
theorem existingById_eq (h : (document.hosts.map (·.id)).Nodup) :
    document.existingById = document.hosts.map fun host => (host.id, host) := by
  unfold SavedHostDocument.existingById
  generalize document.hosts = hosts at h
  induction hosts using List.reverseRecOn with
  | nil => rfl
  | append_singleton hosts host ih =>
    rw [List.map_append, List.nodup_append] at h
    obtain ⟨hhosts, -, hdisjoint⟩ := h
    have hnew : host.id ∉ keys (hosts.map fun host => (host.id, host)) := by
      intro hmem
      obtain ⟨p, hp, hid⟩ := List.mem_map.mp hmem
      obtain ⟨other, hother, rfl⟩ := List.mem_map.mp hp
      exact hdisjoint other.id (List.mem_map_of_mem hother) host.id (by simp) hid
    rw [List.foldl_append, ih hhosts, List.foldl_cons, List.foldl_nil, Js.assign_new hnew,
      List.map_append]
    rfl

omit [JsInteger N] in
theorem keys_existingById (h : (document.hosts.map (·.id)).Nodup) :
    keys document.existingById = document.hosts.map (·.id) := by
  rw [existingById_eq h]
  simp [keys, Function.comp_def]

omit [JsInteger N] in
theorem assign_same {key : Text} {host : SavedHost N} {m : List (Text × SavedHost N)}
    (h : property key m = some host) : assign key host m = m := by
  induction m with
  | nil => cases h
  | cons p m ih =>
    obtain ⟨k, v⟩ := p
    rw [Js.property_cons] at h
    rw [assign]
    split
    · next heq =>
      rw [if_pos heq] at h
      cases h
      rw [heq]
    · next hne =>
      rw [if_neg hne] at h
      rw [ih h]

/-- The hosts after an import, by id. -/
def SavedHostDocument.hostsById (document : SavedHostDocument N)
    (incomingById : List (Text × SavedHost N)) : List (Text × SavedHost N) :=
  incomingById.foldl
    (fun m p => assign p.1 ((property p.1 document.existingById).getD p.2) m) document.existingById

variable {incoming : List (Text × SavedHost N)}

omit [JsInteger N] in
theorem hostsById_keys (id : Text) : id ∈ keys (document.hostsById incoming) ↔
      id ∈ keys document.existingById ∨ id ∈ keys incoming := by
  unfold SavedHostDocument.hostsById
  generalize hm : document.existingById = m
  have hall : ∀ e : List (Text × SavedHost N), id ∈ keys (incoming.foldl
      (fun m p => assign p.1 ((property p.1 e).getD p.2) m) m) ↔
        id ∈ keys m ∨ id ∈ keys incoming := by
    intro e
    clear hm
    induction incoming generalizing m with
    | nil => simp [keys]
    | cons p incoming ih =>
      rw [List.foldl_cons, ih, Js.mem_keys_assign]
      simp only [keys, List.map_cons, List.mem_cons]
      tauto
  exact hall m

omit [JsInteger N] in
theorem hostsById_mem
    (h : (document.hosts.map (·.id)).Nodup) (hincoming : ∀ p ∈ incoming, p.2.id = p.1) :
    ∀ p ∈ document.hostsById incoming, p.2.id = p.1 ∧
      (p.2 ∈ document.hosts ∨ p ∈ incoming) := by
  have hexisting : ∀ p ∈ document.existingById, p.2.id = p.1 ∧ p.2 ∈ document.hosts := by
    rw [existingById_eq h]
    intro p hp
    obtain ⟨host, hhost, rfl⟩ := List.mem_map.mp hp
    exact ⟨rfl, hhost⟩
  have hall : ∀ (rest m : List (Text × SavedHost N)), rest ⊆ incoming →
      (∀ p ∈ m, p.2.id = p.1 ∧ (p.2 ∈ document.hosts ∨ p ∈ incoming)) →
      ∀ p ∈ rest.foldl (fun m p => assign p.1 ((property p.1 document.existingById).getD p.2) m) m,
        p.2.id = p.1 ∧ (p.2 ∈ document.hosts ∨ p ∈ incoming) := by
    intro rest
    induction rest with
    | nil => exact fun m _ hm => hm
    | cons q rest ih =>
      intro m hsub hm
      obtain ⟨hq, hrest⟩ := List.cons_subset.mp hsub
      refine ih _ hrest fun p hp => ?_
      rcases Js.mem_assign hp with rfl | hp
      · cases hfound : property q.1 document.existingById with
        | none => exact ⟨hincoming q hq, .inr hq⟩
        | some host =>
          obtain ⟨hid, hhost⟩ := hexisting _ (Js.mem_of_property hfound)
          exact ⟨hid, .inl hhost⟩
      · exact hm p hp
  exact hall incoming _ (List.Subset.refl _) fun p hp =>
    ⟨(hexisting p hp).1, .inl (hexisting p hp).2⟩

omit [JsInteger N] in
/-- Hosts that are there already change nothing. -/
theorem hostsById_same (h : ∀ p ∈ incoming, p.1 ∈ keys document.existingById) :
    document.hostsById incoming = document.existingById := by
  unfold SavedHostDocument.hostsById
  induction incoming with
  | nil => rfl
  | cons p incoming ih =>
    obtain ⟨hp, hrest⟩ := List.forall_mem_cons.mp h
    obtain ⟨host, hhost⟩ := Option.ne_none_iff_exists'.mp
      fun hnone => Js.property_eq_none.mp hnone hp
    rw [List.foldl_cons, hhost, Option.getD_some, assign_same hhost]
    exact ih hrest

variable {imported : List (SavedHost N)}

theorem importHosts_run {hosts : List (Json N)}
    (himported : hosts.mapM (validateHost env) = .ok imported)
    (hincoming : imported.foldlM (admitHost s.document) [] = .ok incoming)
    (defaultHostId : Option Text) (accepts : Bool) :
    (Call.importHosts hosts defaultHostId).run env accepts s =
      if defaultHostId.all (s.document.knows incoming) then
        commit env accepts (s.document.imported incoming defaultHostId) s
      else (.error (.store
        "The imported default host is missing from the imported host list; nothing was written."), s) := by
  show (checked (hosts.mapM (validateHost env)) >>= _ : Op N Unit) s = _
  rw [himported]
  show ((ExceptT.mk (pure (imported.foldlM (admitHost s.document) [])) : Op N _) >>= _ : Op N Unit) s = _
  rw [hincoming]
  show (if !defaultHostId.all (s.document.knows incoming) then _ else _ : Op N Unit) s = _
  cases defaultHostId.all (s.document.knows incoming) <;> rfl

theorem importHosts_ok {hosts : List (Json N)}
    {s s' : Store N} (h : (Call.importHosts hosts defaultHostId).run env accepts s = (.ok (), s')) :
    ∃ imported incoming, hosts.mapM (validateHost env) = .ok imported ∧
      imported.foldlM (admitHost s.document) [] = .ok incoming ∧
      defaultHostId.all (s.document.knows incoming) = true ∧
      commit env accepts (s.document.imported incoming defaultHostId) s = (.ok (), s') := by
  cases himported : hosts.mapM (validateHost env) with
  | error message =>
    have hrun : (Call.importHosts hosts defaultHostId).run env accepts s =
        (.error (.store message), s) := by
      show (checked (hosts.mapM (validateHost env)) >>= _ : Op N Unit) s = _
      rw [himported]
      rfl
    rw [hrun] at h
    cases h
  | ok imported =>
    cases hincoming : imported.foldlM (admitHost s.document) [] with
    | error e =>
      have hrun : (Call.importHosts hosts defaultHostId).run env accepts s = (.error e, s) := by
        show (checked (hosts.mapM (validateHost env)) >>= _ : Op N Unit) s = _
        rw [himported]
        show ((ExceptT.mk (pure (imported.foldlM (admitHost s.document) [])) : Op N _) >>= _ :
          Op N Unit) s = _
        rw [hincoming]
        rfl
      rw [hrun] at h
      cases h
    | ok incoming =>
      rw [importHosts_run himported hincoming] at h
      split at h
      · next hknown => exact ⟨imported, incoming, rfl, hincoming, hknown, h⟩
      · cases h

omit [JsInteger N] in
theorem knows_iff (h : (document.hosts.map (·.id)).Nodup) {id : Text} :
    document.knows incoming id = true ↔ id ∈ document.importTombstones ∨ id ∈ keys incoming ∨
      id ∈ document.hosts.map (·.id) := by
  unfold SavedHostDocument.knows
  rw [keys_existingById h]
  simp only [Bool.or_eq_true, List.contains_iff_mem, or_assoc]

omit [JsInteger N] in
/-- What an import commits, field by field. -/
theorem imported_spec (h : (document.hosts.map (·.id)).Nodup) (hincoming : ∀ p ∈ incoming, p.2.id = p.1)
    (defaultHostId : Option Text) :
    (∀ id, id ∈ (document.imported incoming defaultHostId).hosts.map (·.id) ↔
        id ∈ document.hosts.map (·.id) ∨ id ∈ keys incoming) ∧
      (document.imported incoming defaultHostId).hosts =
        (document.hostsById incoming).map Prod.snd ∧
      (∀ id, id ∈ (document.imported incoming defaultHostId).importedHostIds ↔
        id ∈ document.importedHostIds ∨ id ∈ keys incoming) ∧
      (document.imported incoming defaultHostId).importTombstones = document.importTombstones := by
  refine ⟨fun id => ?_, rfl, fun id => ?_, rfl⟩
  · have hids : (document.imported incoming defaultHostId).hosts.map (·.id) =
        keys (document.hostsById incoming) := by
      show ((document.hostsById incoming).map Prod.snd).map (·.id) = _
      rw [List.map_map]
      exact List.map_congr_left fun p hp => (hostsById_mem h hincoming p hp).1
    rw [hids, hostsById_keys, keys_existingById h]
  · show id ∈ document.importedHostIds ++
      (keys incoming).filter (fun id => !document.importedHostIds.contains id) ↔ _
    simp only [List.mem_append, List.mem_filter, Bool.not_eq_true', List.contains_eq_mem,
      decide_eq_false_iff_not]
    tauto

theorem settled_imported (h : document.Valid env)
    (hincoming : imported.foldlM (admitHost document) [] = .ok incoming)
    (hknown : defaultHostId.all (document.knows incoming) = true) :
    Settled imported defaultHostId (document.imported incoming defaultHostId) := by
  have hids : ∀ p ∈ incoming, p.2.id = p.1 := fun p hp =>
    ((admitHosts_mem hincoming p hp).resolve_left (by simp)).1
  have hkeys := admitHosts_keys hincoming
  obtain ⟨hlisted, -, hmarked, htombstones⟩ := imported_spec h.unique hids defaultHostId
  have hknows : ∀ id ∈ defaultHostId, id ∈ document.importTombstones ∨ id ∈ keys incoming ∨
      id ∈ document.hosts.map (·.id) := by
    intro id hid
    cases hid
    exact (knows_iff h.unique).mp (by simpa using hknown)
  constructor
  · intro host hhost
    rw [htombstones, hmarked, hlisted]
    by_cases hdead : host.id ∈ document.importTombstones
    · exact .inl hdead
    · have hkey : host.id ∈ keys incoming :=
        (hkeys _).mpr (.inr ⟨hdead, List.mem_map_of_mem hhost⟩)
      exact .inr ⟨.inr hkey, .inr hkey⟩
  · rw [htombstones]
    exact fun id hid => (hmarked id).mpr (.inl (h.tombstones.2 hid))
  · intro id hid _
    rw [htombstones, hlisted]
    rcases hknows id hid with hdead | hnew | hold
    · exact .inl hdead
    · exact .inr (.inr hnew)
    · exact .inr (.inl hold)
  · intro id hid
    rw [hmarked, hlisted]
    by_cases hthere : id ∈ document.hosts.map (·.id) ∨ id ∈ keys incoming
    · refine .inl ?_
      cases hid
      have hfilter : (some id).filter (keys (document.hostsById incoming)).contains = some id :=
        Option.filter_eq_some_iff.mpr ⟨rfl, by
          rw [List.contains_iff_mem, hostsById_keys, keys_existingById h.unique]
          exact hthere⟩
      show (document.defaultHostExplicitlySet || (!document.defaultHostExplicitlySet &&
        ((some id).filter (keys (document.hostsById incoming)).contains).isSome)) = true
      rw [hfilter]
      cases document.defaultHostExplicitlySet <;> rfl
    · rcases hknows id hid with hdead | hnew | hold
      · exact .inr ⟨.inl (h.tombstones.2 hdead), hthere⟩
      · exact absurd (.inr hnew) hthere
      · exact absurd (.inl hold) hthere

/-! ## The import again -/

omit [JsInteger N] in
theorem Edit.tombstones {document next : SavedHostDocument N} (h : Edit document next) :
    document.importTombstones ⊆ next.importTombstones := by
  cases h with
  | deleted id =>
    unfold SavedHostDocument.deleted
    dsimp only
    split
    · exact List.subset_append_left _ _
    · exact List.Subset.refl _
  | added host =>
    unfold SavedHostDocument.added
    dsimp only
    split <;> exact List.Subset.refl _
  | _ => exact List.Subset.refl _

/-- The default is there, and nothing is selected. -/
def FallsBack (document : SavedHostDocument N) (defaultHostId : Option Text) : Prop :=
  ∃ id ∈ defaultHostId, document.lists id = true ∧ document.selectedHostId = none

omit [JsInteger N] in
theorem selection_kept (document : SavedHostDocument N) (defaultHostId : Option Text) :
    document.selectedHostId.or (defaultHostId.filter (document.hosts.map (·.id)).contains) =
      document.selectedHostId ↔ ¬ FallsBack document defaultHostId := by
  cases hselected : document.selectedHostId with
  | some id => simp [FallsBack, hselected]
  | none =>
    rw [Option.none_or, Option.filter_eq_none_iff]
    constructor
    · rintro hnone ⟨id, hid, hlisted, -⟩
      exact hnone id hid (List.contains_iff_mem.mpr (lists_iff.mp hlisted))
    · intro hfalls id hid hcontains
      exact hfalls ⟨id, hid, lists_iff.mpr (List.contains_iff_mem.mp hcontains), hselected⟩

omit [JsInteger N] in
/-- On a settled document an import changes at most the selection. -/
theorem imported_again (h : (document.hosts.map (·.id)).Nodup)
    (hincoming : ∀ id ∈ keys incoming, id ∈ document.importedHostIds ∧
      id ∈ document.hosts.map (·.id))
    (hchosen : ∀ id ∈ defaultHostId, document.defaultHostExplicitlySet = true ∨
      id ∉ document.hosts.map (·.id)) :
    document.imported incoming defaultHostId = { document with
      selectedHostId := document.selectedHostId.or
        (defaultHostId.filter (document.hosts.map (·.id)).contains) } := by
  have hsame : document.hostsById incoming = document.existingById :=
    hostsById_same fun p hp => by
      rw [keys_existingById h]
      exact (hincoming p.1 (List.mem_map_of_mem hp)).2
  have hmarks : (keys incoming).filter (fun id => !document.importedHostIds.contains id) = [] := by
    refine List.filter_eq_nil_iff.mpr fun id hid => ?_
    simp [(hincoming id hid).1]
  have happly : (!document.defaultHostExplicitlySet &&
      (defaultHostId.filter (document.hosts.map (·.id)).contains).isSome) = false := by
    cases hdefault : defaultHostId.filter (document.hosts.map (·.id)).contains with
    | none => simp
    | some id =>
      obtain ⟨hid, hthere⟩ := Option.filter_eq_some_iff.mp hdefault
      have hset := (hchosen id hid).resolve_right (not_not.mpr (List.contains_iff_mem.mp hthere))
      simp [hset]
  have hhosts : (document.hostsById incoming).map Prod.snd = document.hosts := by
    rw [hsame, existingById_eq h, List.map_map]
    exact List.map_id _
  have hdefault : defaultHostId.filter (keys (document.hostsById incoming)).contains =
      defaultHostId.filter (document.hosts.map (·.id)).contains := by
    rw [hsame, keys_existingById h]
  show (⟨(document.hostsById incoming).map Prod.snd,
    document.selectedHostId.or (defaultHostId.filter (keys (document.hostsById incoming)).contains),
    if (!document.defaultHostExplicitlySet &&
        (defaultHostId.filter (keys (document.hostsById incoming)).contains).isSome) = true then
      defaultHostId.filter (keys (document.hostsById incoming)).contains
    else document.defaultHostId,
    document.defaultHostExplicitlySet || (!document.defaultHostExplicitlySet &&
      (defaultHostId.filter (keys (document.hostsById incoming)).contains).isSome),
    document.importedHostIds ++ (keys incoming).filter
      (fun id => !document.importedHostIds.contains id),
    document.importTombstones⟩ : SavedHostDocument N) = _
  rw [hdefault, happly, hhosts, hmarks, List.append_nil, Bool.or_false]
  rfl

/-- What the second import finds: a settled document with the tombstones of the first one. -/
theorem edited_settled (hs : env.Stable)
    {s t : Store N} (h : s.document.Valid env) (hsettled : Settled hosts defaultHostId s.document)
    (hedited : Edited env s t) : t.document.Valid env ∧
      Settled hosts defaultHostId t.document ∧
      s.document.importTombstones ⊆ t.document.importTombstones := by
  induction hedited with
  | refl => exact ⟨h, hsettled, List.Subset.refl _⟩
  | @step u call accepts hedited huser ih =>
    obtain ⟨hvalid, hsettled, htombstones⟩ := ih
    have hedit := user_edit hs hvalid huser accepts
    refine ⟨?_, hsettled.edit hedit, List.Subset.trans htombstones hedit.tombstones⟩
    have hout := run_outcome hs accepts u call
    generalize hrun : call.run env accepts u = result at hout ⊢
    cases hout with
    | threw => exact hvalid
    | kept => exact hvalid
    | stored document hdocument => exact hdocument
    | loaded document hload => exact loadFrom_valid hs hload

theorem commit_valid (h : next.Valid env) (s : Store N) :
    commit env true next s = (.ok (), stored next) := by
  unfold commit
  rw [validateDocument_toJson h]
  rfl

/-- An import, and what the user does after it. The same import again succeeds and leaves the
document as it is, just when it does not fall back to its default for a selection, and its default
is listed or was imported. -/
theorem import_again_iff (hs : env.Stable) {storage : Option Text} {s s₁ s₂ : Store N}
    (hreached : Reached env storage s) {hosts : List (Json N)} {defaultHostId : Option Text}
    {accepts : Bool}
    (himport : (Call.importHosts hosts defaultHostId).run env accepts s = (.ok (), s₁))
    (hedited : Edited env s₁ s₂) :
    (((Call.importHosts hosts defaultHostId).run env true s₂).1 = .ok () ∧
        ((Call.importHosts hosts defaultHostId).run env true s₂).2.document = s₂.document) ↔
      ¬ FallsBack s₂.document defaultHostId ∧
        ∀ id ∈ defaultHostId, s₂.document.lists id = true ∨ id ∈ s₂.document.importedHostIds := by
  have hvalid := (hreached.inv hs).valid
  obtain ⟨imported, incoming, himported, hincoming, hknown, hcommit⟩ := importHosts_ok himport
  -- The first import.
  have hids : ∀ p ∈ incoming, p.2.id = p.1 ∧ p.2 ∈ imported := fun p hp =>
    (admitHosts_mem hincoming p hp).resolve_left (by simp)
  have hfields : ∀ host ∈ (s.document.imported incoming defaultHostId).hosts,
      host.toSavedHostFields.Valid env := by
    intro host hhost
    rw [(imported_spec hvalid.unique (fun p hp => (hids p hp).1) defaultHostId).2.1] at hhost
    obtain ⟨p, hp, rfl⟩ := List.mem_map.mp hhost
    rcases (hostsById_mem hvalid.unique (fun p hp => (hids p hp).1) p hp).2 with hold | hnew
    · exact (hvalid.hosts _ hold).fields
    · obtain ⟨value, -, hvalue⟩ := mapM_ok himported _ (hids p hnew).2
      exact (validateHost_valid hs hvalue).fields
  obtain ⟨hdocument, hwritten⟩ := commit_ok hfields hcommit
  have hsettled : Settled imported defaultHostId s₁.document :=
    hdocument ▸ settled_imported hvalid hincoming hknown
  have hvalid₁ : s₁.document.Valid env := hdocument ▸ validateDocument_valid hs hwritten
  obtain ⟨hvalid₂, hsettled₂, htombstones⟩ := edited_settled hs hvalid₁ hsettled hedited
  have hdead : s.document.importTombstones ⊆ s₂.document.importTombstones := by
    rw [hdocument] at htombstones
    exact htombstones
  -- The second one takes hosts that are there and marked.
  obtain ⟨again, hagain⟩ := admitHosts_again (n := []) hdead
    (fun host hhost => (hsettled₂.imported host hhost).imp_right And.left) hincoming
    (fun _ _ => rfl)
  have hthere : ∀ id ∈ keys again, id ∈ s₂.document.importedHostIds ∧
      id ∈ s₂.document.hosts.map (·.id) := by
    intro id hid
    obtain ⟨hlive, hmem⟩ := ((admitHosts_keys hagain id).mp hid).resolve_left (by simp [keys])
    obtain ⟨host, hhost, rfl⟩ := List.mem_map.mp hmem
    exact (hsettled₂.imported host hhost).resolve_left hlive
  have hknows : defaultHostId.all (s₂.document.knows again) = true ↔ ∀ id ∈ defaultHostId,
      s₂.document.lists id = true ∨ id ∈ s₂.document.importedHostIds := by
    cases defaultHostId with
    | none => simp
    | some id =>
      rw [Option.all_some, knows_iff hvalid₂.unique]
      simp only [Option.mem_some_iff, forall_eq', lists_iff]
      constructor
      · rintro (hdead | hnew | hold)
        · exact .inr (hvalid₂.tombstones.2 hdead)
        · exact .inl (hthere id hnew).2
        · exact .inl hold
      · rintro (hold | hmarked)
        · exact .inr (.inr hold)
        · rcases hsettled₂.known id rfl hmarked with hdead | hold
          · exact .inl hdead
          · exact .inr (.inr hold)
  have hnext := imported_again hvalid₂.unique hthere
    fun id hid => (hsettled₂.chosen id hid).imp_right And.right
  have hrun := importHosts_run himported hagain defaultHostId true
  rw [hrun, hnext, ← hknows]
  -- The document that would be written is valid, and differs in its selection at most.
  have hwrite : SavedHostDocument.Valid env { s₂.document with
      selectedHostId := s₂.document.selectedHostId.or
        (defaultHostId.filter (s₂.document.hosts.map (·.id)).contains) } := by
    refine ⟨hvalid₂.hosts, hvalid₂.unique, fun id hid => ?_, hvalid₂.default, hvalid₂.imported,
      hvalid₂.tombstones⟩
    rcases Option.or_eq_some_iff.mp hid with hid | ⟨-, hid⟩
    · exact hvalid₂.selected id hid
    · exact List.contains_iff_mem.mp (Option.filter_eq_some_iff.mp hid).2
  have hselection := selection_kept s₂.document defaultHostId
  cases hall : defaultHostId.all (s₂.document.knows again) with
  | false => simp
  | true =>
    rw [if_pos rfl, commit_valid hwrite]
    simp only [true_and, and_true, ← hselection]
    constructor
    · intro hsame
      exact congrArg SavedHostDocument.selectedHostId hsame
    · intro hsame
      show ({ s₂.document with selectedHostId := _ } : SavedHostDocument N) = _
      rw [hsame]

/-! ### A deletion, and a selection that is taken back -/

/-- The host is imported as the default. -/
def importedDefault : Store Js.Numeral :=
  ((Call.importHosts [devbox.toJson] (some devbox.id)).run plainEnv true (fresh none)).2

def afterDelete : Store Js.Numeral := ((Call.delete devbox.id).run plainEnv true importedDefault).2

def afterSelectNull : Store Js.Numeral := ((Call.select none).run plainEnv true importedDefault).2

theorem import_again_deleted :
    ((Call.importHosts [devbox.toJson] (some devbox.id)).run plainEnv true afterDelete).1 = .ok () ∧
      ((Call.importHosts [devbox.toJson] (some devbox.id)).run plainEnv true afterDelete).2.document =
        afterDelete.document := by
  have himport : (Call.importHosts [devbox.toJson] (some devbox.id)).run plainEnv true (fresh none) =
      (.ok (), importedDefault) := Prod.ext (by decide +kernel) rfl
  have hedited : Edited plainEnv importedDefault afterDelete :=
    .step (.delete devbox.id) true .refl trivial
  refine (import_again_iff plainEnv_stable .fresh himport hedited).mpr ⟨?_, ?_⟩
  · rintro ⟨id, hid, hlisted, -⟩
    obtain rfl : devbox.id = id := Option.some.inj hid
    exact absurd hlisted (by decide +kernel)
  · intro id hid
    obtain rfl : devbox.id = id := Option.some.inj hid
    exact .inr (by decide +kernel)

/-- Nothing is selected, and the same import selects its default again. -/
theorem import_selects_again :
    afterSelectNull.document.selectedHostId = none ∧
      ((Call.importHosts [devbox.toJson] (some devbox.id)).run plainEnv true
        afterSelectNull).2.document.selectedHostId = some devbox.id := by
  decide +kernel

end PocketShell.SavedHosts
