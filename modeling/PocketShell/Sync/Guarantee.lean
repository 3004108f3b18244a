import PocketShell.Sync.Round

/-!
# What a sync round guarantees

* `account_kept`: no host leaves the account that the caller did not untick.
* `payload_readable`: when the payload a round pushes is one that every client reads.
-/

namespace PocketShell.Sync

open Js (Text Json JsNumber JSON.parse JSON.stringify View assign property keys ascii)

variable {N : Type} {hosts remote : List (SyncHostEntry N)} {e host r : SyncHostEntry N}
  {hostAlias key : Text} {checked : List Text} {sel sel₀ : SyncSelectionState}

/-! ## One entry -/

/-- A defined local field wins, the account keeps the others. -/
theorem get_merge {host : LocalHost N} :
    (mergeLocalOverRemote host.toSyncHostEntry (some r)).get key =
      (host.get key).or (r.get key) := by
  show (property key (overlay host.members r.members)).join =
    (property key host.members).join.or (property key r.members).join
  by_cases hk : key = protoKey
  · rw [hk, property_overlay_proto host.ordinary, Js.property_eq_none.mpr host.ordinary]
    rfl
  · rw [property_overlay hk _ host.once]
    cases h : (property key host.members).join with
    | none => rfl
    | some v => exact h

theorem byName_mem (h : byName hosts hostAlias = some e) : e ∈ hosts ∧ e.name = hostAlias := by
  refine ⟨List.mem_reverse.mp (List.mem_of_find?_eq_some h), ?_⟩
  simpa using List.find?_some h

theorem byName_isSome (h : hostAlias ∈ hosts.map (·.name)) : (byName hosts hostAlias).isSome = true := by
  obtain ⟨e, he, rfl⟩ := List.mem_map.mp h
  rw [byName, List.find?_isSome]
  exact ⟨e, List.mem_reverse.mpr he, by simp⟩

theorem merge_name : (mergeLocalOverRemote host (byName remote hostAlias)).name = host.name := by
  cases byName remote hostAlias <;> rfl

theorem entryOf_name (h : entryOf hosts remote hostAlias = some e) : e.name = hostAlias := by
  unfold entryOf at h
  split at h
  · next host hh =>
    cases h
    rw [merge_name]
    exact (byName_mem hh).2
  · exact (byName_mem h).2

/-! ## The assembled set -/

theorem mem_assembleFrom : ∀ {seen : List Text}, e ∈ assembleFrom hosts remote seen checked ↔
    ∃ hostAlias ∈ checked, hostAlias ∉ seen ∧ entryOf hosts remote hostAlias = some e := by
  induction checked with
  | nil => simp [assembleFrom]
  | cons a checked ih =>
    intro seen
    rw [assembleFrom]
    split
    · next ha =>
      rw [ih]
      constructor
      · rintro ⟨b, hb, hs⟩
        exact ⟨b, List.mem_cons_of_mem _ hb, hs⟩
      · rintro ⟨b, hb, hs⟩
        rcases List.mem_cons.mp hb with rfl | hb
        · exact absurd ha hs.1
        · exact ⟨b, hb, hs⟩
    · next ha =>
      rw [List.mem_append, Option.mem_toList, ih]
      constructor
      · rintro (h | ⟨b, hb, hs, h⟩)
        · exact ⟨a, List.mem_cons_self, ha, h⟩
        · exact ⟨b, List.mem_cons_of_mem _ hb, fun hm => hs (List.mem_cons_of_mem _ hm), h⟩
      · rintro ⟨b, hb, hs, h⟩
        by_cases hab : b = a
        · exact .inl (hab ▸ h)
        · refine .inr ⟨b, (List.mem_cons.mp hb).resolve_left hab, fun hm => ?_, h⟩
          exact (List.mem_cons.mp hm).elim hab hs

theorem mem_assemble : e ∈ assembleSyncSet hosts remote checked ↔
    ∃ hostAlias ∈ checked, entryOf hosts remote hostAlias = some e := by
  rw [assembleSyncSet, mem_assembleFrom]
  simp

theorem assembleFrom_names : ∀ {seen : List Text},
    ((assembleFrom hosts remote seen checked).map (·.name)).Nodup := by
  induction checked with
  | nil => exact List.nodup_nil
  | cons a checked ih =>
    intro seen
    rw [assembleFrom]
    split
    · exact ih
    · cases he : entryOf hosts remote a with
      | none => exact ih
      | some e =>
        refine List.nodup_cons.mpr ⟨fun hmem => ?_, ih⟩
        obtain ⟨e', he', hname⟩ := List.mem_map.mp hmem
        obtain ⟨b, _, hb, hentry⟩ := mem_assembleFrom.mp he'
        have hname : e'.name = e.name := hname
        rw [entryOf_name he, entryOf_name hentry] at hname
        exact hb (hname ▸ List.mem_cons_self)

/-! ## The selection -/

theorem mem_autoCheckFrom {off : List Text} : ∀ {known : List Text},
    hostAlias ∈ autoCheckFrom off known remote ↔
      hostAlias ∈ remote.map (·.name) ∧ hostAlias ∉ known ∧ hostAlias ∉ off := by
  induction remote with
  | nil => simp [autoCheckFrom]
  | cons host remote ih =>
    intro known
    rw [autoCheckFrom]
    split
    · next hk =>
      rw [ih, List.map_cons, List.mem_cons]
      refine ⟨fun h => ⟨.inr h.1, h.2⟩, fun h => ⟨h.1.resolve_left ?_, h.2⟩⟩
      rintro rfl
      exact hk.elim h.2.1 h.2.2
    · next hk =>
      obtain ⟨hkn, hoff⟩ := not_or.mp hk
      constructor
      · intro h
        rcases List.mem_cons.mp h with rfl | h
        · exact ⟨List.mem_cons_self, hkn, hoff⟩
        · obtain ⟨hm, hkn, hoff⟩ := ih.mp h
          exact ⟨List.mem_cons_of_mem _ hm, fun h => hkn (List.mem_cons_of_mem _ h), hoff⟩
      · rintro ⟨hm, hkn, hoff⟩
        by_cases hne : hostAlias = host.name
        · exact hne ▸ List.mem_cons_self
        · refine List.mem_cons_of_mem _ (ih.mpr ⟨(List.mem_cons.mp hm).resolve_left hne, ?_, hoff⟩)
          exact fun h => (List.mem_cons.mp h).elim hne hkn

theorem mem_checked : hostAlias ∈ (applyAccountToSelection remote sel).checked ↔
    hostAlias ∈ sel.checked ∨ hostAlias ∈ remote.map (·.name) ∧ hostAlias ∉ sel.unticked := by
  show hostAlias ∈ unique sel.checked ++ _ ↔ _
  rw [List.mem_append, unique, List.mem_eraseDups, aliasesToAutoCheck, mem_autoCheckFrom,
    List.mem_eraseDups]
  constructor
  · rintro (h | ⟨hm, _, hu⟩)
    · exact .inl h
    · exact .inr ⟨hm, hu⟩
  · rintro (h | ⟨hm, hu⟩)
    · exact .inl h
    · by_cases hc : hostAlias ∈ sel.checked
      · exact .inl hc
      · exact .inr ⟨hm, hc, hu⟩

theorem unticked_subset : ∀ hostAlias ∈ (applyAccountToSelection remote sel).unticked,
    hostAlias ∈ sel.unticked :=
  fun _ h => List.mem_eraseDups.mp (List.mem_of_mem_filter h)

/-! ## One attempt -/

variable {localHosts : List (LocalHost N)} {attempts : Nat} {answers : Answers}
  {effects : Nat → Answers} {selection : SyncSelectionState} {past before after : List (Event N)}
  {base : Option Int} {plaintext : Text} {answer : SyncRoundPushResult}

/-- What the observer is shown. -/
def pulledOf (base : Option Int) (remote : List (SyncHostEntry N)) (sel : SyncSelectionState) :
    SyncRoundPulled N :=
  ⟨base, remote, (applyAccountToSelection remote sel).checked,
    (applyAccountToSelection remote sel).unticked⟩

/-- The set that is assembled from an account and the selection before it was pulled. -/
def assembled (localHosts : List (LocalHost N)) (remote : List (SyncHostEntry N))
    (sel : SyncSelectionState) : List (SyncHostEntry N) :=
  assembleSyncSet (localHosts.map (·.toSyncHostEntry)) remote
    (applyAccountToSelection remote sel).checked

/-- The round goes on after a valid conflict only. -/
theorem afterPush_again {hosts : List (SyncHostEntry N)} {sel' : SyncSelectionState}
    (h : afterPush attempts sel hosts answer = .again sel') :
    sel' = sel ∧ (∃ version, answer = .conflict version ∧ isVersion version = true) ∧
      attempts ≤ SYNC_ROUND_CONFLICT_RETRIES := by
  unfold afterPush at h
  cases answer with
  | conflict version =>
    dsimp only at h
    split at h
    · cases h
    · next hv =>
      split at h
      · cases h
      · next hle =>
        cases h
        exact ⟨rfl, ⟨version, rfl, by simpa using hv⟩, Nat.le_of_not_lt hle⟩
  | ok version =>
    dsimp only at h
    split at h <;> cases h
  | _ => cases h

variable {version : Int} {selectedAliases untickedAliases : List Text}

theorem afterPush_synced {hosts hosts' : List (SyncHostEntry N)} {n : Nat}
    (h : afterPush attempts sel hosts answer =
      .done (.synced version selectedAliases untickedAliases hosts' n)) :
    answer = .ok version ∧ hosts' = hosts ∧ selectedAliases = sel.checked ∧
      untickedAliases = sel.unticked.filter (hasName hosts) ∧ isVersion version = true ∧ n = attempts := by
  unfold afterPush at h
  cases answer with
  | conflict version =>
    dsimp only at h
    split at h
    · cases h
    · split at h <;> cases h
  | ok version =>
    dsimp only at h
    split at h
    · cases h
    · next hv =>
      cases h
      exact ⟨rfl, rfl, rfl, rfl, by simpa using hv, rfl⟩
  | _ => cases h

/-- What the selection of a round keeps of the caller's. -/
structure Carried (selection : SyncSelectionState) (past : List (Event N)) (sel : SyncSelectionState) :
    Prop where
  checked : ∀ hostAlias ∈ selection.checked, hostAlias ∈ sel.checked
  unticked : ∀ hostAlias ∈ sel.unticked, hostAlias ∈ selection.unticked
  known : ∀ hostAlias ∈ sel.checked, hostAlias ∈ selection.checked ∨
    ∃ pulled, Event.observed pulled ∈ past ∧ hostAlias ∈ pulled.hosts.map (·.name)

theorem Carried.apply (h : Carried selection past sel) (events : List (Event N))
    (ho : Event.observed (pulledOf base remote sel) ∈ events) :
    Carried selection (past ++ events) (applyAccountToSelection remote sel) where
  checked a ha := mem_checked.mpr (.inl (h.checked a ha))
  unticked a ha := h.unticked a (unticked_subset a ha)
  known a ha := by
    rcases mem_checked.mp ha with ha | ⟨ha, _⟩
    · exact (h.known a ha).imp id fun ⟨pulled, hp, hm⟩ => ⟨pulled, List.mem_append_left _ hp, hm⟩
    · exact .inr ⟨_, List.mem_append_right _ ho, ha⟩

/-- The first push of a list that begins with an attempt. -/
theorem split_push {x y z e : Event N} {more : List (Event N)} (hx : x ≠ e) (hy : y ≠ e)
    (h : [x, y, z] ++ more = before ++ e :: after) :
    (before = [x, y] ∧ e = z ∧ after = more) ∨
      ∃ before', before = [x, y, z] ++ before' ∧ more = before' ++ e :: after := by
  rcases before with _ | ⟨_, _ | ⟨_, _ | ⟨_, before'⟩⟩⟩
  · cases h
    exact absurd rfl hx
  · cases h
    exact absurd rfl hy
  · cases h
    exact .inl ⟨rfl, rfl, rfl⟩
  · cases h
    exact .inr ⟨before', rfl, rfl⟩

variable [JsNumber N]

/-- The events of an attempt that gets as far as its push. -/
def sentEvents (localHosts : List (LocalHost N)) (sel : SyncSelectionState) (answers : Answers)
    (base : Option Int) (remote : List (SyncHostEntry N)) : List (Event N) :=
  [.pulled answers.pull, .observed (pulledOf base remote sel),
    .pushed base (serializeSyncPayload (assembled localHosts remote sel)) answers.push]

/-- What an attempt can do. -/
inductive Attempted (localHosts : List (LocalHost N)) (attempts : Nat) (sel : SyncSelectionState)
    (answers : Answers) : Attempt N × List (Event N) → Prop
  | unread (result : SyncRoundResult N) : accountOf answers.pull = .error result →
      Attempted localHosts attempts sel answers (.done result, [.pulled answers.pull])
  | unsent (base : Option Int) (remote : List (SyncHostEntry N)) (result : SyncRoundResult N) :
      accountOf answers.pull = .ok (base, remote) →
      (result = .emptySelection ∨ ∃ e, result = .rejected e) →
      Attempted localHosts attempts sel answers
        (.done result, [.pulled answers.pull, .observed (pulledOf base remote sel)])
  | sent (base : Option Int) (remote : List (SyncHostEntry N)) :
      accountOf answers.pull = .ok (base, remote) → assembled localHosts remote sel ≠ [] →
      Attempted localHosts attempts sel answers
        (afterPush attempts (applyAccountToSelection remote sel) (assembled localHosts remote sel)
            answers.push,
          sentEvents localHosts sel answers base remote)

theorem attempt_cases : Attempted localHosts attempts sel answers
    (attempt localHosts attempts sel answers) := by
  unfold attempt
  cases hacc : accountOf (N := N) answers.pull with
  | error result => exact .unread result hacc
  | ok account =>
    obtain ⟨base, remote⟩ := account
    unfold afterPull
    cases answers.onPulled with
    | some e => exact .unsent base remote _ hacc (.inr ⟨e, rfl⟩)
    | none =>
      dsimp only
      split
      · exact .unsent base remote _ hacc (.inl rfl)
      · next hne => exact .sent base remote hacc hne

/-! ## The attempts of a round -/

/-- A push of a round, with what came before it. -/
structure Pushing (localHosts : List (LocalHost N)) (selection : SyncSelectionState)
    (before : List (Event N)) (base : Option Int) (plaintext : Text)
    (remote : List (SyncHostEntry N)) (sel : SyncSelectionState) : Prop where
  pulled : ∃ earlier snapshot,
    before = earlier ++ [.pulled snapshot, .observed (pulledOf base remote sel)] ∧
    accountOf (N := N) snapshot = .ok (base, remote)
  carried : Carried selection before (applyAccountToSelection remote sel)
  unticked : ∀ hostAlias ∈ sel.unticked, hostAlias ∈ selection.unticked
  nonempty : assembled localHosts remote sel ≠ []
  plaintext : plaintext = serializeSyncPayload (assembled localHosts remote sel)

/-- What every way an attempt can go preserves holds of the whole loop. -/
theorem attemptsFrom_rule (localHosts : List (LocalHost N)) (effects : Nat → Answers)
    {motive : Nat → SyncSelectionState → SyncRoundResult N × List (Event N) → Prop}
    (exhausted : ∀ sel, motive 0 sel (.conflictLimit 0 (SYNC_ROUND_CONFLICT_RETRIES + 1), []))
    (unread : ∀ left sel (answers : Answers) result, accountOf answers.pull = .error result →
      motive (left + 1) sel (result, [.pulled answers.pull]))
    (unsent : ∀ left sel (answers : Answers) base remote result,
      accountOf answers.pull = .ok (base, remote) →
      (result = .emptySelection ∨ ∃ e, result = .rejected e) →
      motive (left + 1) sel (result, [.pulled answers.pull, .observed (pulledOf base remote sel)]))
    (last : ∀ left attempts sel (answers : Answers) base remote result,
      accountOf answers.pull = .ok (base, remote) → assembled localHosts remote sel ≠ [] →
      afterPush attempts (applyAccountToSelection remote sel) (assembled localHosts remote sel)
        answers.push = .done result →
      motive (left + 1) sel (result, sentEvents localHosts sel answers base remote))
    (again : ∀ left sel (answers : Answers) base remote version r,
      accountOf answers.pull = .ok (base, remote) → assembled localHosts remote sel ≠ [] →
      answers.push = .conflict version → isVersion version = true →
      motive left (applyAccountToSelection remote sel) r →
      motive (left + 1) sel (r.1, sentEvents localHosts sel answers base remote ++ r.2)) (left : Nat) :
    ∀ attempts sel, motive left sel (attemptsFrom localHosts effects left attempts sel) := by
  induction left with
  | zero => exact fun _ sel => exhausted sel
  | succ left ih =>
    intro attempts sel
    have hatt : Attempted localHosts attempts sel (effects attempts)
        (attempt localHosts attempts sel (effects attempts)) := attempt_cases
    rw [attemptsFrom]
    generalize attempt localHosts attempts sel (effects attempts) = a at hatt
    cases hatt with
    | unread result hacc => exact unread left sel _ result hacc
    | unsent base remote result hacc hr => exact unsent left sel _ base remote result hacc hr
    | sent base remote hacc hne =>
      cases hb : afterPush attempts (applyAccountToSelection remote sel)
          (assembled localHosts remote sel) (effects attempts).push with
      | done result => exact last left attempts sel _ base remote result hacc hne hb
      | again sel' =>
        obtain ⟨rfl, ⟨version, hpush, hversion⟩, _⟩ := afterPush_again hb
        exact again left sel _ base remote version _ hacc hne hpush hversion (ih _ _)

variable {left : Nat}

theorem attemptsFrom_pushed (hc : Carried selection past sel)
    (h : (attemptsFrom localHosts effects left attempts sel).2 =
      before ++ .pushed base plaintext answer :: after) :
    ∃ remote sel', Pushing localHosts selection (past ++ before) base plaintext remote sel' := by
  have hmem : ∀ {events before : List (Event N)},
      events = before ++ .pushed base plaintext answer :: after →
      Event.pushed base plaintext answer ∈ events := by
    rintro _ _ rfl
    exact List.mem_append_right _ List.mem_cons_self
  -- the push is that of this attempt, or of a later one
  have hsent : ∀ {sel past before} {answers : Answers} {base' remote} {more : List (Event N)},
      accountOf answers.pull = .ok (base', remote) → assembled localHosts remote sel ≠ [] →
      Carried selection past sel →
      sentEvents localHosts sel answers base' remote ++ more =
        before ++ .pushed base plaintext answer :: after →
      (∃ sel', Pushing localHosts selection (past ++ before) base plaintext remote sel') ∨
        ∃ before', before = sentEvents localHosts sel answers base' remote ++ before' ∧
          more = before' ++ .pushed base plaintext answer :: after := by
    intro sel past before answers base' remote more hacc hne hc h
    rcases split_push (fun h => by cases h) (fun h => by cases h) h with ⟨rfl, he, _⟩ | h
    · cases he
      exact .inl ⟨sel, ⟨past, _, rfl, hacc⟩, hc.apply _ (List.mem_cons_of_mem _ List.mem_cons_self),
        hc.unticked, hne, rfl⟩
    · exact .inr h
  have hall := attemptsFrom_rule localHosts effects
    (motive := fun _ sel r => ∀ past before, Carried selection past sel →
      r.2 = before ++ .pushed base plaintext answer :: after →
      ∃ remote sel', Pushing localHosts selection (past ++ before) base plaintext remote sel')
    (fun _ past before _ h => by simpa using hmem h)
    (fun _ _ _ _ _ past before _ h => by simpa using hmem h)
    (fun _ _ _ _ _ _ _ _ past before _ h => by simpa using hmem h)
    (fun _ _ sel answers base' remote result hacc hne _ past before hc h => by
      have h : sentEvents localHosts sel answers base' remote ++ [] =
          before ++ .pushed base plaintext answer :: after := by rwa [List.append_nil]
      rcases hsent hacc hne hc h with ⟨sel', hp⟩ | ⟨before', _, he⟩
      · exact ⟨remote, sel', hp⟩
      · exact absurd he (by simp))
    (fun _ sel answers base' remote version r hacc hne _ _ ih past before hc h => by
      rcases hsent hacc hne hc h with ⟨sel', hp⟩ | ⟨before', rfl, he⟩
      · exact ⟨remote, sel', hp⟩
      · have hlater : Carried selection (past ++ sentEvents localHosts sel answers base' remote)
            (applyAccountToSelection remote sel) :=
          hc.apply _ (List.mem_cons_of_mem _ List.mem_cons_self)
        obtain ⟨remote', sel', hp⟩ := ih _ before' hlater he
        exact ⟨remote', sel', by rwa [List.append_assoc] at hp⟩)
  exact hall left attempts sel past before hc h

theorem runSyncRound_pushed
    (h : (runSyncRound localHosts selection effects).2 = before ++ .pushed base plaintext answer :: after) :
    ∃ remote sel, Pushing localHosts selection before base plaintext remote sel := by
  have hc : Carried (N := N) selection [] ⟨unique selection.checked, unique selection.unticked⟩ :=
    ⟨fun _ => List.mem_eraseDups.mpr, fun _ => List.mem_eraseDups.mp,
      fun _ h => .inl (List.mem_eraseDups.mp h)⟩
  exact attemptsFrom_pushed hc h

variable {snapshot : SyncRoundSnapshot}

/-- What an account was read from. -/
theorem accountOf_ok (h : accountOf snapshot = .ok (base, remote)) :
    (snapshot = .absent ∧ base = none ∧ remote = []) ∨
      ∃ version text, snapshot = .ok version text ∧ base = some version ∧
        parseSyncPayloadResult text = .ok remote := by
  unfold accountOf at h
  cases snapshot with
  | absent =>
    cases h
    exact .inl ⟨rfl, rfl, rfl⟩
  | ok version text =>
    dsimp only at h
    split at h
    · cases h
    · split at h
      · cases h
      · next hosts hp =>
        cases h
        exact .inr ⟨version, text, rfl, rfl, hp⟩
  | _ => cases h

/-- An account host stays unless the caller's selection took it out. -/
theorem Pushing.kept (hp : Pushing localHosts selection before base plaintext remote sel) {r : SyncHostEntry N}
    (hr : r ∈ remote) : r.name ∈ selection.unticked ∧ r.name ∉ selection.checked ∨
      ∃ e ∈ assembled localHosts remote sel, e.name = r.name := by
  have hname : r.name ∈ remote.map (·.name) := List.mem_map_of_mem (f := (·.name)) hr
  by_cases hchecked : r.name ∈ (applyAccountToSelection remote sel).checked
  · right
    have hsome := byName_isSome hname
    obtain ⟨e, he⟩ : ∃ e, entryOf (localHosts.map (·.toSyncHostEntry)) remote r.name = some e := by
      unfold entryOf
      split
      · exact ⟨_, rfl⟩
      · exact Option.isSome_iff_exists.mp hsome
    exact ⟨e, mem_assemble.mpr ⟨_, hchecked, he⟩, entryOf_name he⟩
  · left
    refine ⟨?_, fun hc => hchecked (hp.carried.checked _ hc)⟩
    by_contra hu
    exact hchecked (mem_checked.mpr (.inr ⟨hname, fun h => hu (hp.unticked _ h)⟩))

/-- Which account hosts a push takes, and with which fields: the value of a client's
field that is defined, and of the account's last entry otherwise. -/
theorem account_kept
    (h : (runSyncRound localHosts selection effects).2 = before ++ .pushed base plaintext answer :: after) :
    ∃ (earlier : List (Event N)) (snapshot : SyncRoundSnapshot) (pulled : SyncRoundPulled N)
        (hosts : List (SyncHostEntry N)),
      before = earlier ++ [.pulled snapshot, .observed pulled] ∧
      (snapshot = .absent ∧ pulled.hosts = [] ∨
        ∃ version text, snapshot = .ok version text ∧ parseSyncPayloadResult text = .ok pulled.hosts) ∧
      plaintext = serializeSyncPayload hosts ∧
      (∀ r ∈ pulled.hosts, r.name ∈ selection.unticked ∧ r.name ∉ selection.checked ∨
        ∃ e ∈ hosts, e.name = r.name) ∧
      (∀ e ∈ hosts, ∀ r, byName pulled.hosts e.name = some r → ∀ key, e.get key =
        ((byName (localHosts.map (·.toSyncHostEntry)) e.name).bind (·.get key)).or (r.get key)) ∧
      (hosts.map (·.name)).Nodup ∧
      (∀ e ∈ hosts, e.name ∈ pulled.selectedAliases) ∧
      ∀ hostAlias ∈ pulled.selectedAliases, hostAlias ∈ selection.checked ∨
        ∃ seen, Event.observed seen ∈ before ∧ hostAlias ∈ seen.hosts.map (·.name) := by
  obtain ⟨remote, sel, hp⟩ := runSyncRound_pushed h
  obtain ⟨earlier, snapshot, hbefore, hacc⟩ := hp.pulled
  refine ⟨earlier, snapshot, pulledOf base remote sel, assembled localHosts remote sel, hbefore, ?_,
    hp.plaintext, fun _ => hp.kept, ?_, assembleFrom_names, ?_, hp.carried.known⟩
  · refine (accountOf_ok hacc).imp (fun h => ⟨h.1, h.2.2⟩) ?_
    rintro ⟨version, text, hs, _, hparse⟩
    exact ⟨version, text, hs, hparse⟩
  · intro e he r hr key
    obtain ⟨a, _, hentry⟩ := mem_assemble.mp he
    obtain rfl := entryOf_name hentry
    have hr : byName remote e.name = some r := hr
    unfold entryOf at hentry
    rw [hr] at hentry
    cases hh : byName (localHosts.map (·.toSyncHostEntry)) e.name with
    | none =>
      rw [hh] at hentry
      cases hentry
      rfl
    | some host =>
      rw [hh] at hentry
      obtain ⟨own, _, rfl⟩ := List.mem_map.mp (byName_mem hh).1
      have he' : mergeLocalOverRemote own.toSyncHostEntry (some r) = e := Option.some.inj hentry
      rw [← he']
      exact get_merge
  · intro e he
    obtain ⟨a, ha, hentry⟩ := mem_assemble.mp he
    rw [entryOf_name hentry]
    exact ha

def Event.pushes (p : Option Int → Text → Bool) : Event N → Bool
  | .pushed base plaintext _ => p base plaintext
  | _ => false

omit [JsNumber N] in
/-- A push that is computed of a run is one of its events. -/
theorem exists_pushed (events : List (Event N)) (p : Option Int → Text → Bool)
    (h : events.any (Event.pushes p) = true) :
    ∃ before base plaintext answer after, events = before ++ .pushed base plaintext answer :: after ∧
      p base plaintext = true := by
  obtain ⟨e, hmem, he⟩ := List.any_eq_true.mp h
  obtain ⟨before, after, rfl⟩ := List.append_of_mem hmem
  cases e with
  | pushed base plaintext answer => exact ⟨before, base, plaintext, answer, after, rfl, he⟩
  | _ => cases he

def oneHostText : Text :=
  ascii "\x7b\"hosts\":[\x7b\"name\":\"db\",\"hostname\":\"h\"\x7d]\x7d"

/-- An account with one host, read at version 7, that takes the next write. -/
def oneHost : Nat → Answers := fun _ =>
  ⟨.ok 7 oneHostText, none, .ok 8⟩

theorem account_kept_untouched : ∃ before answer after,
    (runSyncRound ([] : List (LocalHost Js.Literal)) ⟨[], []⟩ oneHost).2 = before ++ .pushed (some 7)
      oneHostText answer :: after ∧
    ∃ hosts : List (SyncHostEntry Js.Literal),
      oneHostText = serializeSyncPayload hosts ∧
      (hosts.map (·.name)).Nodup := by
  obtain ⟨before, base, plaintext, answer, after, he, hp⟩ := exists_pushed
    (runSyncRound ([] : List (LocalHost Js.Literal)) ⟨[], []⟩ oneHost).2
    (fun base plaintext => decide (base = some 7) && decide
      (plaintext = oneHostText))
    (by decide +kernel)
  rw [Bool.and_eq_true, decide_eq_true_eq, decide_eq_true_eq] at hp
  obtain ⟨rfl, rfl⟩ := hp
  obtain ⟨_, _, _, hosts, _, _, htext, _, _, hnodup, _⟩ := account_kept he
  exact ⟨before, answer, after, he, hosts, htext, hnodup⟩

/-! ## What a payload is read as -/

theorem keys_written_defined : keys (readMembers ((defined e.members).map fun p => (p.1, p.2.written))) =
    keys (defined e.members) := by
  rw [readMembers_keys, Json.keys_written]

theorem property_sent {members : List (Text × Option (Json N))} (hn : (keys members).Nodup) :
    (property key (readMembers ((defined members).map fun p => (p.1, p.2.written)))).join =
      (property key members).join.map Json.written := by
  induction members with
  | nil => rfl
  | cons p members ih =>
    obtain ⟨key', value⟩ := p
    obtain ⟨hk, hn'⟩ := List.nodup_cons.mp hn
    rw [Js.property_cons]
    cases value with
    | none =>
      have hd : defined ((key', none) :: members) = defined members := rfl
      rw [hd, ih hn']
      split
      · next he =>
        rw [Js.property_eq_none.mpr (he ▸ hk)]
        rfl
      · rfl
    | some v =>
      have hd : defined ((key', some v) :: members) = (key', v) :: defined members := rfl
      rw [hd, List.map_cons, readMembers, List.map_cons, Js.property_cons]
      split
      · rfl
      · exact ih hn'

/-- A text is read as it was written. -/
theorem property_sent_text {text : Text} (h : property key e.members = some (some (.str text))) :
    property key ((defined e.members).map fun p => (p.1, p.2.written)) = some (.str text) := by
  have hs : (property key (readMembers ((defined e.members).map fun p => (p.1, p.2.written)))).join =
      (property key e.members).join.map Json.written := property_sent e.once
  rw [h, property_readMembers] at hs
  cases hp : property key ((defined e.members).map fun p => (p.1, p.2.written)) with
  | none =>
    rw [hp] at hs
    cases hs
  | some v =>
    rw [hp] at hs
    exact hs

/-- What is read of an entry as it is written. -/
def SyncHostEntry.sent (e : SyncHostEntry N) : SyncHostEntry N where
  name := e.name
  hostname := e.hostname
  members := readMembers ((defined e.members).map fun p => (p.1, p.2.written))
  once := by
    rw [keys_written_defined]
    exact keys_defined.nodup e.once
  named := by
    rw [property_readMembers, property_sent_text e.named]
    rfl
  addressed := by
    rw [property_readMembers, property_sent_text e.addressed]
    rfl

theorem get_sent : e.sent.get key = (e.get key).map Json.written := property_sent e.once

theorem namedEntry_sent (once : (keys ((defined e.members).map fun p => (p.1, p.2.written))).Nodup) :
    namedEntry ((defined e.members).map fun p => (p.1, p.2.written)) once =
      if Js.trim e.name ≠ [] ∧ Js.trim e.hostname ≠ [] then some e.sent else none := by
  have hname : textOf nameKey ((defined e.members).map fun p => (p.1, p.2.written)) = some e.name := by
    rw [textOf, property_sent_text e.named]
    rfl
  have hhostname : textOf hostnameKey ((defined e.members).map fun p => (p.1, p.2.written)) =
      some e.hostname := by
    rw [textOf, property_sent_text e.addressed]
    rfl
  unfold namedEntry
  split
  · next h =>
    rw [hname] at h
    cases h
  · next name h =>
    rw [hname] at h
    cases h
    split
    · next h' =>
      rw [hhostname] at h'
      cases h'
    · next hostname h' =>
      rw [hhostname] at h'
      cases h'
      rfl

theorem isPlausible_written : isPlausibleHostEntry e.toJson.written =
    if Js.trim e.name ≠ [] ∧ Js.trim e.hostname ≠ [] then some e.sent else none := by
  rw [SyncHostEntry.toJson, Json.written_obj, isPlausible_obj]
  exact namedEntry_sent _

theorem parse_serialize : parseSyncPayloadResult (serializeSyncPayload hosts) =
    parseEntries 0 [] (hosts.map fun e => e.toJson.written) := by
  have hdecode : decodeSyncPayload (serializeSyncPayload hosts) =
      .ok [(hostsKey, Json.arr (hosts.map fun e => e.toJson.written))]
        (hosts.map fun e => e.toJson.written) := by
    have hw : (payload (hosts.map SyncHostEntry.toJson)).written =
        payload (hosts.map fun e => e.toJson.written) := by
      rw [payload, Json.written_obj, payload]
      refine Subtype.ext ?_
      simp only [List.map_cons, List.map_nil, Json.written_arr, List.map_map]
      rfl
    rw [decodeSyncPayload, serializeSyncPayload, Js.JSON.parse_stringify, hw]
    simp only [payload, Json.view_obj, Js.property_cons, if_pos, Option.map_some, Json.view_arr]
  have hversion : schemaVersionKey ∉ keys [(hostsKey, Json.arr (hosts.map fun e => e.toJson.written))] := by
    intro h
    have hne : schemaVersionKey ≠ hostsKey := by decide
    exact hne (List.mem_singleton.mp h)
  have hkeys : ¬ ∃ key ∈ keys [(hostsKey, Json.arr (hosts.map fun e => e.toJson.written))],
      key ≠ hostsKey := by
    rintro ⟨key, h, hne⟩
    exact hne (List.mem_singleton.mp h)
  rw [parseSyncPayloadResult, hdecode]
  simp only [if_neg hversion, if_neg hkeys]

variable {read : List (SyncHostEntry N)}

/-- The loop of the parser reads all of the entries, or none. -/
theorem parseEntries_written : ∀ {index : Nat} {acc : List (SyncHostEntry N)},
    parseEntries index acc (hosts.map fun e => e.toJson.written) = .ok read ↔
      (∀ e ∈ hosts, Js.trim e.name ≠ [] ∧ Js.trim e.hostname ≠ []) ∧
        read = acc ++ hosts.map SyncHostEntry.sent := by
  induction hosts with
  | nil =>
    intro index acc
    simp [parseEntries, eq_comm]
  | cons e hosts ih =>
    intro index acc
    rw [List.map_cons, parseEntries, isPlausible_written, List.forall_mem_cons]
    split
    · next host hh =>
      split at hh
      · next hnamed =>
        cases hh
        rw [ih, List.append_assoc, List.map_cons]
        exact ⟨fun h => ⟨⟨hnamed, h.1⟩, h.2⟩, fun h => ⟨h.1.2, h.2⟩⟩
      · cases hh
    · next hh =>
      split at hh
      · cases hh
      · next hnamed => exact ⟨fun h => (by cases h), fun h => absurd h.1.1 hnamed⟩

/-- The payload is read as `hosts`, field by field. -/
def Reads (plaintext : Text) (hosts : List (SyncHostEntry N)) : Prop :=
  ∃ read, parseSyncPayloadResult plaintext = .ok read ∧
    List.Forall₂ (fun e host => ∀ key, e.get key = host.get key) read hosts

/-- A value that is written as it is: no number in it is infinite or no number at all. -/
def Survives (value : Option (Json N)) : Prop := ∀ v, value = some v → v.written = v

theorem reads_iff : Reads (serializeSyncPayload hosts) hosts ↔
    ∀ e ∈ hosts, Js.trim e.name ≠ [] ∧ Js.trim e.hostname ≠ [] ∧ ∀ key, Survives (e.get key) := by
  have hfields : List.Forall₂ (fun e host => ∀ key, e.get key = host.get key)
      (hosts.map SyncHostEntry.sent) hosts ↔ ∀ e ∈ hosts, ∀ key, Survives (e.get key) := by
    rw [List.forall₂_map_left_iff, List.forall₂_same]
    refine forall₂_congr fun e _ => forall_congr' fun key => ?_
    rw [get_sent]
    cases e.get key with
    | none => exact ⟨fun _ _ h => (by cases h), fun _ => rfl⟩
    | some v =>
      refine ⟨fun h w hw => ?_, fun h => congrArg some (h v rfl)⟩
      cases hw
      exact Option.some.inj h
  unfold Reads
  rw [parse_serialize]
  constructor
  · rintro ⟨read, hread, hf⟩
    obtain ⟨hnamed, rfl⟩ := parseEntries_written.mp hread
    have hs := hfields.mp hf
    exact fun e he => ⟨(hnamed e he).1, (hnamed e he).2, hs e he⟩
  · intro h
    refine ⟨_, parseEntries_written.mpr ⟨fun e he => ⟨(h e he).1, (h e he).2.1⟩, rfl⟩, ?_⟩
    exact hfields.mpr fun e he => (h e he).2.2

omit [JsNumber N] in
theorem namedEntry_named {members : List (Text × Json N)} {once : (keys members).Nodup}
    (h : namedEntry members once = some host) : Js.trim host.name ≠ [] ∧ Js.trim host.hostname ≠ [] := by
  unfold namedEntry at h
  split at h
  · cases h
  · split at h
    · cases h
    · split at h
      · next hnamed =>
        cases h
        exact hnamed
      · cases h

omit [JsNumber N] in
/-- What a client that accepts the payload has accepted of its entries. -/
theorem parseEntries_named {entries : List (Json N)} :
    ∀ {index : Nat} {acc : List (SyncHostEntry N)}, parseEntries index acc entries = .ok read →
      (∀ e ∈ acc, Js.trim e.name ≠ [] ∧ Js.trim e.hostname ≠ []) →
      ∀ e ∈ read, Js.trim e.name ≠ [] ∧ Js.trim e.hostname ≠ [] := by
  induction entries with
  | nil =>
    intro index acc h hacc
    cases h
    exact hacc
  | cons entry entries ih =>
    intro index acc h hacc
    rw [parseEntries] at h
    split at h
    · next host hh =>
      refine ih h (List.forall_mem_append.mpr ⟨hacc, List.forall_mem_singleton.mpr ?_⟩)
      unfold isPlausibleHostEntry at hh
      split at hh
      · exact namedEntry_named hh
      · cases hh
    · cases h

theorem accountOf_named (h : accountOf snapshot = .ok (base, remote)) :
    ∀ r ∈ remote, Js.trim r.name ≠ [] ∧ Js.trim r.hostname ≠ [] := by
  rcases accountOf_ok h with ⟨_, _, rfl⟩ | ⟨_, text, _, _, hparse⟩
  · exact nofun
  · unfold parseSyncPayloadResult at hparse
    split at hparse
    · cases hparse
    · split at hparse
      · cases hparse
      · split at hparse
        · cases hparse
        · exact parseEntries_named hparse nofun

/-- The client's entry of an alias, and what the account adds to it, can be sent. -/
structure Sendable (localHosts : List (LocalHost N)) (remote : List (SyncHostEntry N))
    (hostAlias : Text) : Prop where
  own : ∀ host, byName (localHosts.map (·.toSyncHostEntry)) hostAlias = some host →
    Js.trim host.name ≠ [] ∧ Js.trim host.hostname ≠ [] ∧ ∀ key, Survives (host.get key)
  account : ∀ r, byName remote hostAlias = some r → ∀ key,
    (∀ host, byName (localHosts.map (·.toSyncHostEntry)) hostAlias = some host →
      host.get key = none) → Survives (r.get key)

theorem entryOf_sendable (hr : ∀ r ∈ remote, Js.trim r.name ≠ [] ∧ Js.trim r.hostname ≠ []) :
    (∀ e, entryOf (localHosts.map (·.toSyncHostEntry)) remote hostAlias = some e →
      Js.trim e.name ≠ [] ∧ Js.trim e.hostname ≠ [] ∧ ∀ key, Survives (e.get key)) ↔
      Sendable localHosts remote hostAlias := by
  unfold entryOf
  cases hh : byName (localHosts.map (·.toSyncHostEntry)) hostAlias with
  | none =>
    constructor
    · intro h
      refine ⟨fun host he => ?_, fun r he key _ => (h r he).2.2 key⟩
      rw [hh] at he
      cases he
    · intro h e he
      refine ⟨(hr e (byName_mem he).1).1, (hr e (byName_mem he).1).2, fun key => ?_⟩
      refine h.account e he key fun host hhost => ?_
      rw [hh] at hhost
      cases hhost
  | some host =>
    obtain ⟨own, _, rfl⟩ := List.mem_map.mp (byName_mem hh).1
    cases hrem : byName remote hostAlias with
    | none =>
      constructor
      · intro h
        refine ⟨fun host he => ?_, fun r he => ?_⟩
        · rw [hh] at he
          cases he
          exact h _ rfl
        · rw [hrem] at he
          cases he
      · rintro h e he
        cases he
        exact h.own _ hh
    | some r =>
      have hget : ∀ key, (mergeLocalOverRemote own.toSyncHostEntry (some r)).get key =
          (own.get key).or (r.get key) := fun _ => get_merge
      constructor
      · intro h
        obtain ⟨hn, hhn, hs⟩ := h _ rfl
        refine ⟨fun host he => ?_, fun r' he key hnone => ?_⟩
        · rw [hh] at he
          cases he
          refine ⟨hn, hhn, fun key v hv => hs key v ?_⟩
          rw [hget, hv]
          rfl
        · rw [hrem] at he
          cases he
          intro v hv
          refine hs key v ?_
          rw [hget, hnone _ hh, hv]
          rfl
      · rintro h e he
        cases he
        refine ⟨(h.own _ hh).1, (h.own _ hh).2.1, fun key => ?_⟩
        rw [hget]
        cases hv : own.get key with
        | some v =>
          have hs := (h.own _ hh).2.2 key
          rw [hv] at hs
          exact hs
        | none =>
          refine h.account r hrem key fun host he => ?_
          rw [hh] at he
          cases he
          exact hv

theorem assembled_sendable (hr : ∀ r ∈ remote, Js.trim r.name ≠ [] ∧ Js.trim r.hostname ≠ []) :
    Reads (serializeSyncPayload (assembled localHosts remote sel)) (assembled localHosts remote sel) ↔
      ∀ hostAlias ∈ (applyAccountToSelection remote sel).checked, Sendable localHosts remote hostAlias := by
  rw [reads_iff]
  constructor
  · exact fun h a ha => (entryOf_sendable hr).mp fun e he => h e (mem_assemble.mpr ⟨a, ha, he⟩)
  · intro h e he
    obtain ⟨a, ha, hentry⟩ := mem_assemble.mp he
    exact (entryOf_sendable hr).mpr (h a ha) e hentry

/-! ## When a round ends -/

def Event.isPushed : Event N → Bool
  | .pushed .. => true
  | _ => false

/-- After which the round goes on. -/
def Event.goesOn : Event N → Prop
  | .pulled snapshot => ∃ account, accountOf (N := N) snapshot = .ok account
  | .observed _ => True
  | .pushed _ _ answer => ∃ version, answer = .conflict version ∧ isVersion version = true

theorem accountOf_error {result : SyncRoundResult N} (h : accountOf snapshot = .error result)
    {n : Nat} : result ≠ .synced version selectedAliases untickedAliases hosts n := by
  rintro rfl
  unfold accountOf at h
  cases snapshot with
  | ok version text =>
    dsimp only at h
    split at h
    · cases h
    · split at h <;> cases h
  | _ => cases h

/-- Every event of a round but the last is one after which it goes on. -/
theorem attemptsFrom_goesOn :
    ∀ e ∈ (attemptsFrom localHosts effects left attempts sel).2.dropLast, e.goesOn :=
  attemptsFrom_rule localHosts effects (motive := fun _ _ r => ∀ e ∈ r.2.dropLast, e.goesOn)
    (fun _ => nofun)
    (fun _ _ _ _ _ => nofun)
    (fun _ _ _ base remote _ hacc _ e he => by
      cases List.mem_singleton.mp he
      exact ⟨(base, remote), hacc⟩)
    (fun _ _ _ _ base remote _ hacc _ _ e he => by
      rcases List.mem_cons.mp he with rfl | he
      · exact ⟨(base, remote), hacc⟩
      · cases List.mem_singleton.mp he
        trivial)
    (fun _ sel answers base remote version r hacc _ hpush hversion ih e he => by
      have hsent : ∀ e ∈ sentEvents localHosts sel answers base remote, e.goesOn := by
        refine List.forall_mem_cons.mpr ⟨⟨(base, remote), hacc⟩, List.forall_mem_cons.mpr
          ⟨trivial, List.forall_mem_singleton.mpr ⟨version, hpush, hversion⟩⟩⟩
      rw [List.dropLast_append] at he
      split at he
      · exact hsent e (List.dropLast_subset _ he)
      · exact (List.mem_append.mp he).elim (hsent e) (ih e))
    left attempts sel

theorem attemptsFrom_count :
    (attemptsFrom localHosts effects left attempts sel).2.countP Event.isPushed ≤ left :=
  attemptsFrom_rule localHosts effects (motive := fun left _ r => r.2.countP Event.isPushed ≤ left)
    (fun _ => Nat.le_refl _)
    (fun _ _ _ _ _ => Nat.zero_le _)
    (fun _ _ _ _ _ _ _ _ => Nat.zero_le _)
    (fun left _ _ _ _ _ _ _ _ _ => Nat.succ_le_succ (Nat.zero_le left))
    (fun left sel answers base remote _ r _ _ _ _ ih => by
      rw [List.countP_append, Nat.add_comm]
      exact Nat.add_le_add ih (Nat.le_refl 1))
    left attempts sel

/-- A round that reports success ends with the push of what it reports. -/
theorem attemptsFrom_synced {n : Nat} (h : (attemptsFrom localHosts effects left attempts sel).1 =
      .synced version selectedAliases untickedAliases hosts n) :
    ∃ before base, (attemptsFrom localHosts effects left attempts sel).2 =
      before ++ [.pushed base (serializeSyncPayload hosts) (.ok version)] := by
  revert h
  exact attemptsFrom_rule localHosts effects (motive := fun _ _ r =>
      r.1 = .synced version selectedAliases untickedAliases hosts n → ∃ before base,
        r.2 = before ++ [.pushed base (serializeSyncPayload hosts) (.ok version)])
    (fun _ h => by cases h)
    (fun _ _ _ _ hacc h => absurd h (accountOf_error hacc))
    (fun _ _ _ _ _ _ _ hr h => by
      rcases hr with rfl | ⟨_, rfl⟩ <;> cases h)
    (fun _ _ sel answers base remote result _ _ hb h => by
      obtain rfl : result = _ := h
      obtain ⟨hpush, rfl, _⟩ := afterPush_synced hb
      refine ⟨[.pulled answers.pull, .observed (pulledOf base remote sel)], base, ?_⟩
      rw [sentEvents, hpush]
      rfl)
    (fun _ _ _ _ _ _ _ _ _ _ _ ih h => by
      obtain ⟨before, base, he⟩ := ih h
      exact ⟨_, base, by rw [he, ← List.append_assoc]⟩)
    left attempts sel

/-- Every push of a round is based on the version of the pull right before it, and
its payload is read as the hosts it was made of exactly when every entry that is
selected can be sent. -/
theorem payload_readable (localHosts : List (LocalHost N)) (selection : SyncSelectionState)
    (effects : Nat → Answers) :
    (∀ before base plaintext answer after, (runSyncRound localHosts selection effects).2 =
        before ++ .pushed base plaintext answer :: after →
      ∃ (earlier : List (Event N)) (snapshot : SyncRoundSnapshot) (pulled : SyncRoundPulled N)
          (hosts : List (SyncHostEntry N)),
        before = earlier ++ [.pulled snapshot, .observed pulled] ∧
        (snapshot = .absent ∧ base = none ∨
          ∃ version text, snapshot = .ok version text ∧ base = some version) ∧
        hosts ≠ [] ∧ plaintext = serializeSyncPayload hosts ∧
        (Reads plaintext hosts ↔
          ∀ hostAlias ∈ pulled.selectedAliases, Sendable localHosts pulled.hosts hostAlias)) ∧
    (∀ version selectedAliases untickedAliases hosts attempts,
      (runSyncRound localHosts selection effects).1 =
        .synced version selectedAliases untickedAliases hosts attempts →
      ∃ before base, (runSyncRound localHosts selection effects).2 =
        before ++ [.pushed base (serializeSyncPayload hosts) (.ok version)]) ∧
    (runSyncRound localHosts selection effects).2.countP Event.isPushed ≤
      SYNC_ROUND_CONFLICT_RETRIES + 1 ∧
    ∀ e ∈ (runSyncRound localHosts selection effects).2.dropLast, e.goesOn := by
  refine ⟨fun before base plaintext answer after h => ?_,
    fun _ _ _ _ _ h => attemptsFrom_synced h, attemptsFrom_count, attemptsFrom_goesOn⟩
  obtain ⟨remote, sel, hp⟩ := runSyncRound_pushed h
  obtain ⟨earlier, snapshot, hbefore, hacc⟩ := hp.pulled
  refine ⟨earlier, snapshot, pulledOf base remote sel, assembled localHosts remote sel, hbefore, ?_,
    hp.nonempty, hp.plaintext, ?_⟩
  · refine (accountOf_ok hacc).imp (fun h => ⟨h.1, h.2.1⟩) ?_
    rintro ⟨version, text, hs, hb, _⟩
    exact ⟨version, text, hs, hb⟩
  · rw [hp.plaintext]
    exact assembled_sendable (accountOf_named hacc)

/-- A host that can be sent. -/
def addressed : LocalHost Js.Literal where
  name := ascii "web"
  hostname := ascii "h"
  members := [(nameKey, some (.str (ascii "web"))), (hostnameKey, some (.str (ascii "h")))]
  once := by decide
  named := rfl
  addressed := rfl
  ordinary := by decide

theorem addressed_sendable : Sendable [addressed] [] (ascii "web") where
  own host h := by
    have hhost : host = addressed.toSyncHostEntry := (Option.some.inj h).symm
    subst hhost
    refine ⟨by decide, by decide, fun key value hvalue => ?_⟩
    have hmem := Js.mem_of_property (Option.join_eq_some_iff.mp hvalue)
    simp only [addressed, List.mem_cons, Prod.mk.injEq, Option.some.injEq, List.not_mem_nil, or_false] at hmem
    rcases hmem with ⟨-, rfl⟩ | ⟨-, rfl⟩ <;> rfl
  account _ h := by cases h

/-- The first push of an account. -/
def firstPush : List (Event Js.Literal) :=
  (runSyncRound [addressed] ⟨[ascii "web"], []⟩ fun _ => ⟨.absent, none, .ok 1⟩).2

theorem payload_readable_addressed : ∃ before base plaintext answer after,
    firstPush = before ++ .pushed base plaintext answer :: after ∧
    ∃ hosts : List (SyncHostEntry Js.Literal), hosts ≠ [] ∧ Reads plaintext hosts := by
  obtain ⟨before, base, plaintext, answer, after, he, -⟩ := exists_pushed firstPush (fun _ _ => true)
    (by decide +kernel)
  obtain ⟨earlier, _, pulled, hosts, hbefore, -, hne, -, hreads⟩ := (payload_readable [addressed]
    ⟨[ascii "web"], []⟩ fun _ => ⟨.absent, none, .ok 1⟩).1 before base plaintext answer after he
  have hpulled : (firstPush.all fun e => match e with
      | .observed pulled => pulled.selectedAliases = [ascii "web"] && pulled.hosts.isEmpty
      | _ => true) = true := by decide +kernel
  have hobserved := List.all_eq_true.mp hpulled (.observed pulled) (by rw [he, hbefore]; simp)
  obtain ⟨haliases, hhosts⟩ := Bool.and_eq_true_iff.mp hobserved
  refine ⟨before, base, plaintext, answer, after, he, hosts, hne, hreads.mpr ?_⟩
  rw [of_decide_eq_true haliases, List.isEmpty_iff.mp hhosts]
  intro hostAlias hmem
  rw [List.mem_singleton.mp hmem]
  exact addressed_sendable

/-- What `HostName` without a value makes of a `Host` block. -/
def unnamed : LocalHost Js.Literal where
  name := ascii "web"
  hostname := []
  members := [(nameKey, some (.str (ascii "web"))), (hostnameKey, some (.str []))]
  once := by decide
  named := rfl
  addressed := rfl
  ordinary := by decide

theorem payload_unreadable : ∃ before base plaintext answer after,
    (runSyncRound [unnamed] ⟨[ascii "web"], []⟩ fun _ => ⟨.absent, none, .ok 1⟩).2 =
      before ++ .pushed base plaintext answer :: after ∧
    ∀ hosts : List (SyncHostEntry Js.Literal), parseSyncPayloadResult plaintext ≠ .ok hosts := by
  obtain ⟨before, base, plaintext, answer, after, he, hp⟩ := exists_pushed
    (runSyncRound [unnamed] ⟨[ascii "web"], []⟩ fun _ => ⟨.absent, none, .ok 1⟩).2
    (fun _ plaintext => (parseSyncPayloadResult (N := Js.Literal) plaintext).isInvalid)
    (by decide +kernel)
  refine ⟨before, base, plaintext, answer, after, he, fun hosts h => ?_⟩
  rw [h] at hp
  cases hp

end PocketShell.Sync
