import PocketShell.SavedHosts.Store

/-!
# What the saved-host store guarantees

* `run_outcome`: what a call can return or throw, with the store it leaves.
* `Inv`, `Reached.inv`: the document is valid, and it is the one that is stored.
* `delete_listed`: when a listed host can be deleted.
* `saved_hosts`: all of it, for every run.
-/

namespace PocketShell.SavedHosts

open Js (Text Json JsInteger JSON.parse JSON.stringify ascii)

variable {N : Type} [JsInteger N]

section

variable (env : Env N)

/-! ## What an operation can do -/

/-- The store after a write. -/
def stored (document : SavedHostDocument N) : Store N :=
  ⟨document, some (JSON.stringify document.toJson), true⟩

/-- What a call can return or throw, with the store it leaves. -/
inductive Outcome (s : Store N) : Except Thrown Unit × Store N → Prop
  | threw (e : Thrown) : Outcome s (.error e, s)
  | kept : Outcome s (.ok (), s)
  | stored (document : SavedHostDocument N) : document.Valid env → Outcome s (.ok (), stored document)
  | loaded (document : SavedHostDocument N) : loadFrom env s.storage = .ok document →
      Outcome s (.ok (), { s with document := document })

variable {env} {s : Store N} {accepts : Bool}

theorem Outcome.checked {α : Type} {result : Except String α} {f : α → Op N Unit}
    (h : ∀ a, result = .ok a → Outcome env s (f a s)) : Outcome env s ((checked result >>= f) s) := by
  cases result with
  | error message => exact .threw _
  | ok a => exact h a rfl

theorem Outcome.admitted {α : Type} {result : Except Thrown α} {f : α → Op N Unit}
    (h : ∀ a, Outcome env s (f a s)) :
    Outcome env s (((ExceptT.mk (pure result) : Op N α) >>= f) s) := by
  cases result with
  | error e => exact .threw _
  | ok a => exact h a

theorem commit_outcome (hs : env.Stable) (next : SavedHostDocument N) :
    Outcome env s (commit env accepts next s) := by
  refine Outcome.checked fun validated hvalid => ?_
  cases accepts with
  | true => exact .stored validated (validateDocument_valid hs hvalid)
  | false => exact .threw _

/-- One lemma for all operations. -/
theorem run_outcome (hs : env.Stable) (accepts : Bool) (s : Store N) (call : Call N) :
    Outcome env s (call.run env accepts s) := by
  cases call with
  | load => exact Outcome.checked fun document h => .loaded document h
  | add input id =>
    refine Outcome.checked fun fields _ => ?_
    show Outcome env s ((if _ then _ else _ : Op N Unit) s)
    split
    · exact .threw _
    · exact commit_outcome hs _
  | update id input =>
    exact Outcome.checked fun index _ => Outcome.checked fun fields _ => commit_outcome hs _
  | delete id =>
    show Outcome env s ((if _ then _ else _ : Op N Unit) s)
    split
    · exact commit_outcome hs _
    · exact .kept
  | select id =>
    show Outcome env s ((if _ then _ else _ : Op N Unit) s)
    split
    · exact .threw _
    · exact commit_outcome hs _
  | setDefault id =>
    show Outcome env s ((if _ then _ else _ : Op N Unit) s)
    split
    · exact .threw _
    · exact commit_outcome hs _
  | move id destinationIndex =>
    exact Outcome.checked fun source _ => Outcome.checked fun destination _ =>
      Outcome.checked fun host _ => commit_outcome hs _
  | importHosts hosts defaultHostId =>
    refine Outcome.checked fun imported _ => ?_
    show Outcome env s ((ExceptT.mk (pure (imported.foldlM (admitHost s.document) [])) >>= _ : Op N Unit) s)
    refine Outcome.admitted fun incomingById => ?_
    split
    · exact .threw _
    · exact commit_outcome hs _

/-- An operation that throws leaves the store as it was. -/
theorem run_atomic (hs : env.Stable) {call : Call N} {e : Thrown} {s' : Store N}
    (h : call.run env accepts s = (.error e, s')) : s' = s := by
  have hout := run_outcome hs accepts s call
  rw [h] at hout
  cases hout
  rfl

/-! ## Every state -/

structure Inv (env : Env N) (s : Store N) : Prop where
  valid : s.document.Valid env
  durable : s.written = true → loadFrom env s.storage = .ok s.document

theorem emptyDocument_valid : (emptyDocument : SavedHostDocument N).Valid env where
  hosts := fun _ h => by cases h
  unique := List.nodup_nil
  selected := fun _ h => by cases h
  default := fun _ h => by cases h
  imported := ⟨List.nodup_nil, List.not_mem_nil⟩
  tombstones := ⟨List.nodup_nil, List.nil_subset _⟩

variable {document : SavedHostDocument N}

theorem loadFrom_valid (hs : env.Stable) {storage : Option Text}
    (h : loadFrom env storage = .ok document) : document.Valid env := by
  unfold loadFrom at h
  split at h
  · cases h
    exact emptyDocument_valid
  split at h
  · cases h
  · exact validateDocument_valid hs h

/-- What is written is loaded again. -/
theorem loadFrom_stored (h : document.Valid env) :
    loadFrom env (some (JSON.stringify document.toJson)) = .ok document := by
  have hparse := Js.JSON.parse_stringify document.toJson
  rw [written_document h] at hparse
  simp only [loadFrom, hparse]
  exact validateDocument_toJson h

theorem Inv.outcome (hs : env.Stable) (h : Inv env s) {r : Except Thrown Unit × Store N}
    (hr : Outcome env s r) : Inv env r.2 := by
  cases hr with
  | threw => exact h
  | kept => exact h
  | stored document hvalid => exact ⟨hvalid, fun _ => loadFrom_stored hvalid⟩
  | loaded document hload => exact ⟨loadFrom_valid hs hload, fun _ => hload⟩

theorem Reached.inv (hs : env.Stable) {storage : Option Text} (h : Reached env storage s) : Inv env s := by
  induction h with
  | fresh => exact ⟨emptyDocument_valid, fun h => by cases h⟩
  | step call accepts _ ih => exact ih.outcome hs (run_outcome hs accepts _ call)

/-! ## Deleting a host -/

omit [JsInteger N] in
theorem mem_deleted {id i : Text} :
    i ∈ (document.deleted id).hosts.map (·.id) ↔ i ∈ document.hosts.map (·.id) ∧ i ≠ id := by
  simp only [SavedHostDocument.deleted, List.mem_map, List.mem_filter, decide_eq_true_eq]
  constructor
  · rintro ⟨host, ⟨hhost, hne⟩, rfl⟩
    exact ⟨⟨host, hhost, rfl⟩, hne⟩
  · rintro ⟨⟨host, hhost, rfl⟩, hne⟩
    exact ⟨host, ⟨hhost, hne⟩, rfl⟩

/-- What is left of a choice when a host goes. -/
theorem cleared {choice : Option Text} {id i : Text}
    (h : (if choice = some id then none else choice) = some i) : choice = some i ∧ i ≠ id := by
  split at h
  · cases h
  · next hne =>
    refine ⟨h, ?_⟩
    rintro rfl
    exact hne h

variable {id : Text}

theorem deleted_valid (h : document.Valid env)
    (hid : id ∉ document.importTombstones) : (document.deleted id).Valid env where
  hosts := fun host hhost => h.hosts host (List.mem_filter.mp hhost).1
  unique := h.unique.sublist (List.filter_sublist.map _)
  selected := fun i hi => by
    obtain ⟨hselected, hne⟩ := cleared hi
    exact mem_deleted.mpr ⟨h.selected i hselected, hne⟩
  default := fun i hi => by
    have hi' : (if document.defaultHostId = some id then none else document.defaultHostId) = some i := by
      simpa [SavedHostDocument.deleted] using hi
    obtain ⟨hdefault, hne⟩ := cleared hi'
    exact mem_deleted.mpr ⟨h.default i hdefault, hne⟩
  imported := h.imported
  tombstones := by
    show (if _ then _ else _ : List Text).Nodup ∧ (if _ then _ else _ : List Text) ⊆ document.importedHostIds
    split
    · next himported =>
      refine ⟨h.tombstones.1.append (List.nodup_singleton _) ?_, ?_⟩
      · exact List.disjoint_singleton.mpr hid
      · refine List.append_subset.mpr ⟨h.tombstones.2, ?_⟩
        exact List.cons_subset.mpr ⟨by simpa using himported, List.nil_subset _⟩
    · exact h.tombstones

/-- The tombstone is there already. -/
theorem deleted_tombstoned (h : document.Valid env) (hid : id ∈ document.importTombstones) :
    validateDocument env (document.deleted id).toJson = .error conflictingMarkers := by
  have htombstones : (document.deleted id).importTombstones = document.importTombstones ++ [id] :=
    if_pos (by simpa using h.tombstones.2 hid)
  have hne : [] ∉ document.importTombstones ++ [id] := by
    intro hmem
    have hsub : document.importTombstones ++ [id] ⊆ document.importedHostIds :=
      List.append_subset.mpr ⟨h.tombstones.2, List.cons_subset.mpr ⟨h.tombstones.2 hid, List.nil_subset _⟩⟩
    exact h.imported.2 (hsub hmem)
  have hnodup : ¬ (document.importTombstones ++ [id]).Nodup := fun hnodup =>
    List.disjoint_of_nodup_append hnodup hid (List.mem_singleton.mpr rfl)
  have htwice : uniqueStrings (document.deleted id).frame.importTombstones = none := by
    show uniqueStrings (some (.arr ((document.deleted id).importTombstones.map .str))) = none
    rw [htombstones, uniqueStrings_ids hne, if_neg hnodup]
  have hmarkers : markersOf (document.deleted id).frame = none := by
    unfold markersOf
    rw [htwice]
    cases uniqueStrings (document.deleted id).frame.importedHostIds <;> rfl
  unfold validateDocument
  rw [frameOf_toJson]
  show (orThrow (markersOf (document.deleted id).frame) _ >>= _) = _
  rw [hmarkers]
  rfl

/-- A listed host is deleted unless it was imported and deleted before. -/
theorem delete_listed (h : s.document.Valid env) (hid : s.document.lists id = true) :
    (∃ e, ((Call.delete id).run env accepts s).1 = .error e ∧ e ≠ .storage) ↔
      id ∈ s.document.importTombstones := by
  have hrun : (Call.delete id).run env accepts s = commit env accepts (s.document.deleted id) s := by
    show (if s.document.lists id then commit env accepts (s.document.deleted id) else pure () : Op N Unit) s = _
    rw [if_pos hid]
  rw [hrun]
  constructor
  · rintro ⟨e, he, hne⟩
    by_contra hnot
    unfold commit at he
    rw [validateDocument_toJson (deleted_valid h hnot)] at he
    cases accepts with
    | true => cases he
    | false =>
      cases he
      exact hne rfl
  · intro hmem
    refine ⟨.store conflictingMarkers, ?_, by decide⟩
    unfold commit
    rw [deleted_tombstoned h hmem]
    rfl

/-! ## Every run -/

/-- What a document says fits together. -/
structure Consistent (document : SavedHostDocument N) : Prop where
  unique : (document.hosts.map (·.id)).Nodup
  selected : ∀ id, document.selectedHostId = some id → document.lists id = true
  default : ∀ id, document.defaultHostId = some id → document.lists id = true
  tombstones : document.importTombstones.Nodup
  imported : document.importTombstones ⊆ document.importedHostIds

omit [JsInteger N] in
theorem lists_iff : document.lists id = true ↔ id ∈ document.hosts.map (·.id) := by
  simp [SavedHostDocument.lists]

theorem SavedHostDocument.Valid.consistent (h : document.Valid env) : Consistent document :=
  ⟨h.unique, fun id hid => lists_iff.mpr (h.selected id hid), fun id hid => lists_iff.mpr (h.default id hid),
    h.tombstones.1, h.tombstones.2⟩

theorem saved_hosts {storage : Option Text} (hs : env.Stable) (h : Reached env storage s) :
    Consistent s.document ∧ (s.written = true → loadFrom env s.storage = .ok s.document) ∧
      (∀ (call : Call N) accepts e s', call.run env accepts s = (.error e, s') → s' = s) ∧
      ∀ id accepts, s.document.lists id = true →
        ((∃ e, ((Call.delete id).run env accepts s).1 = .error e ∧ e ≠ .storage) ↔
          id ∈ s.document.importTombstones) := by
  have hi := h.inv hs
  exact ⟨hi.valid.consistent, hi.durable, fun _ _ _ _ hrun => run_atomic hs hrun,
    fun _ _ hid => delete_listed hi.valid hid⟩

end

/-! ### An imported host that comes back under its id -/

omit [JsInteger N] in
theorem keyRef_once (handleId label : Text) (passphraseRequired : Bool) :
    (Js.keys [(kindKey, (.str (ascii "key-handle") : Json N)), (handleIdKey, .str handleId),
      (labelKey, .str label), (passphraseRequiredKey, .bool passphraseRequired)]).Nodup :=
  Js.once_of keyRefKeys rfl (by decide)

omit [JsInteger N] in
theorem keyRefOf_self {handleId label : Text} {passphraseRequired : Bool}
    (hhandle : Js.trim handleId ≠ []) (hlabel : Js.trim label ≠ []) :
    keyRefOf [(kindKey, (.str (ascii "key-handle") : Json N)), (handleIdKey, .str handleId),
      (labelKey, .str label), (passphraseRequiredKey, .bool passphraseRequired)] =
      some (keyRef handleId label passphraseRequired) := by
  have once := keyRef_once (N := N) handleId label passphraseRequired
  have hkind := textOf_mem once (.head _)
  have hid := textOf_mem once (.tail _ (.head _))
  have hname := textOf_mem once (.tail _ (.tail _ (.head _)))
  have hrequired := (Js.property_eq_some once).mpr (.tail _ (.tail _ (.tail _ (.head _))))
  have hhandle' : (some handleId).filter (Js.trim · ≠ []) = some handleId :=
    Option.filter_eq_some_iff.mpr ⟨rfl, decide_eq_true hhandle⟩
  have hlabel' : (some label).filter (Js.trim · ≠ []) = some label :=
    Option.filter_eq_some_iff.mpr ⟨rfl, decide_eq_true hlabel⟩
  unfold keyRefOf
  rw [hkind, hid, hname, hrequired, hhandle', hlabel']
  rfl

omit [JsInteger N] in
theorem validateSavedHostKeyRef_keyRef {handleId label : Text} {passphraseRequired : Bool}
    (hhandle : Js.trim handleId ≠ []) (hlabel : Js.trim label ≠ []) :
    validateSavedHostKeyRef (keyRef handleId label passphraseRequired : Json N) =
      .ok (keyRef handleId label passphraseRequired) := by
  unfold validateSavedHostKeyRef keyRef
  rw [Json.view_obj]
  show orThrow (keyRefOf _) _ = _
  rw [keyRefOf_self hhandle hlabel]
  rfl

/-- A validated key reference passes again, and is read as it was written. -/
theorem validateSavedHostKeyRef_stable {value reference : Json N}
    (h : validateSavedHostKeyRef value = .ok reference) :
    validateSavedHostKeyRef reference = .ok reference ∧ reference.written = reference := by
  unfold validateSavedHostKeyRef at h
  split at h
  · cases h
    exact ⟨rfl, rfl⟩
  · obtain ⟨_, -, h⟩ := Option.bind_eq_some_iff.mp (orThrow_ok h)
    obtain ⟨handleId, hhandle, h⟩ := Option.bind_eq_some_iff.mp h
    obtain ⟨label, hlabel, h⟩ := Option.bind_eq_some_iff.mp h
    obtain ⟨passphraseRequired, -, h⟩ := Option.bind_eq_some_iff.mp h
    split at h
    · cases h
      obtain ⟨-, hhandle⟩ := Option.filter_eq_some_iff.mp hhandle
      obtain ⟨-, hlabel⟩ := Option.filter_eq_some_iff.mp hlabel
      refine ⟨validateSavedHostKeyRef_keyRef (of_decide_eq_true hhandle) (of_decide_eq_true hlabel), ?_⟩
      refine Json.written_obj_self (keyRef_once handleId label passphraseRequired) fun p hp => ?_
      simp only [List.mem_cons, List.not_mem_nil, or_false] at hp
      rcases hp with rfl | rfl | rfl | rfl <;> rfl
    · cases h
  · cases h

/-- A store of key references; no URL is parsed. -/
def plainEnv : Env Js.Numeral := ⟨fun _ => none, validateSavedHostKeyRef⟩

theorem plainEnv_stable : plainEnv.Stable where
  origins := fun _ _ _ _ _ _ h => by cases h
  credential := fun _ _ h => validateSavedHostKeyRef_stable h

def devbox : SavedHost Js.Numeral :=
  ⟨⟨ascii "devbox", ascii "dev.example.test", 22, ascii "alex", .null, none⟩, ascii "41"⟩

/-- The host is imported, deleted, and added under the id it had. -/
def readded : Store Js.Numeral :=
  [Call.importHosts [devbox.toJson] none, .delete devbox.id, .add devbox.input devbox.id].foldl
    (fun s call => (call.run plainEnv true s).2) (fresh none)

theorem readded_reached : Reached plainEnv none readded :=
  .step _ true (.step _ true (.step _ true .fresh))

/-- It cannot be deleted again, though the storage would take the document. -/
theorem delete_throws : Reached plainEnv none readded ∧ readded.document.lists devbox.id = true ∧
    ((Call.delete devbox.id).run plainEnv true readded).1 = .error (.store conflictingMarkers) := by
  exact ⟨readded_reached, by decide +kernel, by decide +kernel⟩

theorem saved_hosts_readded : Consistent readded.document ∧
    loadFrom plainEnv readded.storage = .ok readded.document := by
  obtain ⟨hconsistent, hdurable, -⟩ := saved_hosts plainEnv_stable readded_reached
  exact ⟨hconsistent, hdurable rfl⟩

end PocketShell.SavedHosts
