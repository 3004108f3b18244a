import PocketShell.Coop.Log
import PocketShell.Sessions.Store

/-!
# The optimistic list tells the truth

* `Truthful`: the rows have different identities, what was created or renamed to is listed, what
  was killed is not, and what was renamed away is only if the last listing has it.
* `Careful`: what a rename, a clear and a listing must find. A rename finds its new name free, a
  clear finds no refresh waiting, and a listing is newer than those that came in, has every live
  name but those that were created and wait for their first listing, and has each waiting name
  that was renamed away.
* `Ledgers`: the two ledgers of the store are what the log says of the names.
* `truthful_run`: a run of careful steps within the two TTLs.
* `renamed_row_returns`: a created row is renamed, and the next listing brings its old name back.
-/

namespace PocketShell.Sessions

open Js (Text)
open Coop (Each each_nil mem_snoc)

variable {R : Type}

/-! ## 1. Ledgers -/

def State.pendingIds (s : State R) : List Identity := s.pendingRows.map (identity ·.summary)

def State.killedKeys (s : State R) : List Identity := s.killedRows.map (·.key)

/-- The reply comes while whatever waits for a listing or was killed is within its TTL, and the
host lists each identity once. -/
def Within (s : State R) : Action R → Prop
  | .listed _ rows _ now later => (rows.map identity).Nodup ∧
      (∀ id since, unlistedSince s.log id = some since → now - since ≤ PENDING_TTL_MS) ∧
      ∀ id since, killedSince s.log id = some since → later - since ≤ KILLED_TTL_MS
  | _ => True

/-- What a step must find: of the log, the list and the host's reply. -/
def Careful (s : State R) : Action R → Prop
  | .renameLocal old new workspace => old ≠ new → identityOf old workspace ∈ s.listing →
      identityOf new workspace ∉ s.listing
  | .clear => s.requests = []
  | .listed request rows _ _ _ =>
      (∀ id, belief s.log id = some .live →
        id ∈ rows.map identity ∨ (unlistedSince s.log id).isSome) ∧
      (∀ id relisted, (unlistedSince s.log id).isSome → belief s.log id = some (.moved relisted) →
        id ∈ rows.map identity) ∧
      ∀ ticket ids, .listed ticket ids ∈ s.log → ticket ≤ request.ticket
  | _ => True

/-- What the store holds for killed is so in the log. -/
def Buries (s : State R) : Prop := ∀ row ∈ s.killedRows, killedSince s.log row.key = some row.at_

/-- The ledgers are what the log says. -/
structure Ledgers (s : State R) : Prop where
  pending : ∀ row ∈ s.pendingRows, unlistedSince s.log (identity row.summary) = some row.at_
  unlisted : ∀ id, (unlistedSince s.log id).isSome → id ∈ s.pendingIds
  killed : Buries s

/-! ## 2. The truth -/

/-- The list shows what the log says of each identity. -/
structure Truthful (s : State R) : Prop where
  once : s.listing.Nodup
  live : ∀ id, belief s.log id = some .live → id ∈ s.listing
  dead : ∀ id, belief s.log id = some .dead → id ∉ s.listing
  moved : ∀ id, belief s.log id = some (.moved false) → id ∉ s.listing

/-- The events since the refresh was requested. -/
def sinceRequest (log : List Event) (ticket : Nat) : List Event :=
  log.dropWhile (· ≠ .requested ticket)

/-- A reply is of a refresh requested after the last clear, and no listing replaces that of a
refresh requested later. -/
def Proper (before : List Event) : Event → Prop
  | .listed ticket _ => .cleared ∉ sinceRequest before ticket ∧
      ∀ other ids, .listed other ids ∈ before → other ≤ ticket
  | .failed ticket => .cleared ∉ sinceRequest before ticket
  | _ => True

/-- The ledgers and the requests beside the log. -/
structure Inv (s : State R) : Prop where
  pendingOnce : s.pendingIds.Nodup
  lifted : ∀ id ∈ s.listing, id ∉ s.killedKeys
  unkilled : ∀ id ∈ s.pendingIds, id ∉ s.killedKeys
  buried : ∀ id, belief s.log id = some .dead → id ∈ s.killedKeys
  issued : ∀ ticket, .requested ticket ∈ s.log → ticket < s.nextTicket
  waiting : ∀ request ∈ s.requests, .cleared ∉ sinceRequest s.log request.ticket
  truthful : Truthful s
  proper : Each Proper s.log

theorem inv_start : Inv ({} : State R) where
  pendingOnce := List.nodup_nil
  lifted _ h := by cases h
  unkilled _ h := by cases h
  buried _ h := by cases h
  issued _ h := by cases h
  waiting _ h := by cases h
  truthful := ⟨List.nodup_nil, fun _ h => (by cases h), fun _ h => (by cases h),
    fun _ h => (by cases h)⟩
  proper := each_nil _

/-! ## 3. Steps -/

theorem sinceRequest_snoc {log : List Event} {e : Event} {ticket : Nat} (he : e ≠ .cleared)
    (h : .cleared ∉ sinceRequest log ticket) : .cleared ∉ sinceRequest (log ++ [e]) ticket := by
  intro hmem
  unfold sinceRequest at h hmem
  rw [List.dropWhile_append] at hmem
  have hlast : .cleared ∉ [e] := by
    rw [List.mem_singleton]
    exact fun heq => he heq.symm
  split at hmem
  · exact hlast ((List.dropWhile_sublist _).subset hmem)
  · rcases List.mem_append.mp hmem with hmem | hmem
    · exact h hmem
    · exact hlast hmem

/-- The parts of the invariant that a step with another event than a request or a clear keeps. -/
theorem Inv.log {s t : State R} (h : Inv s) {e : Event} (hlog : t.log = s.log ++ [e])
    (hnext : t.nextTicket = s.nextTicket) (hrequests : ∀ r ∈ t.requests, r ∈ s.requests)
    (hclear : e ≠ .cleared) (hrequest : ∀ ticket, e ≠ .requested ticket) (hproper : Proper s.log e) :
    (∀ ticket, .requested ticket ∈ t.log → ticket < t.nextTicket) ∧
      (∀ request ∈ t.requests, .cleared ∉ sinceRequest t.log request.ticket) ∧
      Each Proper t.log := by
  rw [hlog, hnext]
  refine ⟨fun ticket hmem => ?_, fun r hr => ?_, h.proper.snoc hproper⟩
  · rcases mem_snoc.mp hmem with hmem | hmem
    · exact h.issued ticket hmem
    · exact absurd hmem.symm (hrequest ticket)
  · exact sinceRequest_snoc hclear (h.waiting r (hrequests r hr))

theorem Inv.addPending {s : State R} (h : Inv s) (summary : SessionSummary R) (now : Int) :
    Inv (s.addPending summary now) := by
  obtain ⟨hissued, hwaiting, hproper⟩ := h.log (t := s.addPending summary now) rfl rfl
    (fun _ hr => hr) (by simp) (by simp) trivial
  have hlisting : (s.addPending summary now).listing =
      identity summary :: s.listing.filter (· ≠ identity summary) := by
    simp [State.addPending, State.addLog, State.listing, List.filter_map, Function.comp_def]
  have hpending : (s.addPending summary now).pendingIds =
      s.pendingIds.filter (· ≠ identity summary) ++ [identity summary] := by
    simp [State.addPending, State.addLog, State.pendingIds, List.filter_map, Function.comp_def]
  have hkilled : (s.addPending summary now).killedKeys =
      s.killedKeys.filter (· ≠ identity summary) := by
    simp [State.addPending, State.addLog, State.killedKeys, List.filter_map, Function.comp_def]
  have hbelief : belief (s.addPending summary now).log =
      Belief.after (belief s.log) (.created (identity summary) now) := belief_snoc _ _
  refine ⟨?_, ?_, ?_, ?_, hissued, hwaiting, ⟨?_, ?_, ?_, ?_⟩, hproper⟩
  · rw [hpending, List.nodup_append]
    refine ⟨h.pendingOnce.filter _, List.nodup_singleton _, fun id hid other hother heq => ?_⟩
    rw [List.mem_singleton.mp hother] at heq
    simp [heq] at hid
  · rw [hlisting, hkilled]
    intro id hid hdead
    obtain ⟨hdead, hne⟩ := List.mem_filter.mp hdead
    rcases List.mem_cons.mp hid with rfl | hid
    · simp at hne
    · exact h.lifted id (List.mem_of_mem_filter hid) hdead
  · rw [hpending, hkilled]
    intro id hid hdead
    obtain ⟨hdead, hne⟩ := List.mem_filter.mp hdead
    rcases mem_snoc.mp hid with hid | hid
    · exact h.unkilled id (List.mem_of_mem_filter hid) hdead
    · simp [hid] at hne
  · rw [hbelief, hkilled]
    intro id hdead
    unfold Belief.after at hdead
    dsimp only at hdead
    split at hdead
    · cases hdead
    next hne => exact List.mem_filter.mpr ⟨h.buried id hdead, by simpa using hne⟩
  · rw [hlisting]
    exact List.nodup_cons.mpr ⟨by simp, h.truthful.once.filter _⟩
  · rw [hbelief, hlisting]
    intro id hlive
    unfold Belief.after at hlive
    dsimp only at hlive
    split at hlive
    next heq => exact heq ▸ List.mem_cons_self
    next hne =>
      exact List.mem_cons_of_mem _ (List.mem_filter.mpr ⟨h.truthful.live id hlive, by simpa using hne⟩)
  · rw [hbelief, hlisting]
    intro id hdead hid
    unfold Belief.after at hdead
    dsimp only at hdead
    split at hdead
    · cases hdead
    next hne =>
      rcases List.mem_cons.mp hid with heq | hid
      · exact hne heq
      · exact h.truthful.dead id hdead (List.mem_of_mem_filter hid)
  · rw [hbelief, hlisting]
    intro id hmoved hid
    unfold Belief.after at hmoved
    dsimp only at hmoved
    split at hmoved
    · cases hmoved
    next hne =>
      rcases List.mem_cons.mp hid with heq | hid
      · exact hne heq
      · exact h.truthful.moved id hmoved (List.mem_of_mem_filter hid)

theorem Inv.removeLocal {s : State R} (h : Inv s) (name : Text) (workspace : Option Text)
    (now : Int) : Inv (s.removeLocal name workspace now) := by
  obtain ⟨hissued, hwaiting, hproper⟩ := h.log (t := s.removeLocal name workspace now) rfl rfl
    (fun _ hr => hr) (by simp) (by simp) trivial
  let key := identityOf name workspace
  have hlisting : (s.removeLocal name workspace now).listing = s.listing.filter (· ≠ key) := by
    simp [State.removeLocal, State.addLog, State.listing, List.filter_map, Function.comp_def, key]
  have hpending : (s.removeLocal name workspace now).pendingIds =
      s.pendingIds.filter (· ≠ key) := by
    simp [State.removeLocal, State.addLog, State.pendingIds, List.filter_map, Function.comp_def, key]
  have hkilled : (s.removeLocal name workspace now).killedKeys =
      s.killedKeys.filter (· ≠ key) ++ [key] := by
    simp [State.removeLocal, State.addLog, State.killedKeys, List.filter_map, Function.comp_def, key]
  have hbelief : belief (s.removeLocal name workspace now).log =
      Belief.after (belief s.log) (.killed key now) := belief_snoc _ _
  have hkept : ∀ {ids : List Identity}, (∀ id ∈ ids, id ∉ s.killedKeys) →
      ∀ id ∈ ids.filter (· ≠ key), id ∉ s.killedKeys.filter (· ≠ key) ++ [key] := by
    intro ids hids id hid hdead
    obtain ⟨hid, hne⟩ := List.mem_filter.mp hid
    rcases mem_snoc.mp hdead with hdead | hdead
    · exact hids id hid (List.mem_of_mem_filter hdead)
    · simp [hdead] at hne
  refine ⟨?_, ?_, ?_, ?_, hissued, hwaiting, ⟨?_, ?_, ?_, ?_⟩, hproper⟩
  · rw [hpending]
    exact h.pendingOnce.filter _
  · rw [hlisting, hkilled]
    exact hkept h.lifted
  · rw [hpending, hkilled]
    exact hkept h.unkilled
  · rw [hbelief, hkilled]
    intro id hdead
    unfold Belief.after at hdead
    dsimp only at hdead
    split at hdead
    next heq => exact List.mem_append_right _ (List.mem_singleton.mpr heq)
    next hne =>
      exact List.mem_append_left _ (List.mem_filter.mpr ⟨h.buried id hdead, by simpa using hne⟩)
  · rw [hlisting]
    exact h.truthful.once.filter _
  · rw [hbelief, hlisting]
    intro id hlive
    unfold Belief.after at hlive
    dsimp only at hlive
    split at hlive
    · cases hlive
    next hne => exact List.mem_filter.mpr ⟨h.truthful.live id hlive, by simpa using hne⟩
  · rw [hbelief, hlisting]
    intro id hdead hid
    obtain ⟨hid, hne⟩ := List.mem_filter.mp hid
    unfold Belief.after at hdead
    dsimp only at hdead
    split at hdead
    next heq => simp [heq] at hne
    next => exact h.truthful.dead id hdead hid
  · rw [hbelief, hlisting]
    intro id hmoved hid
    obtain ⟨hid, -⟩ := List.mem_filter.mp hid
    unfold Belief.after at hmoved
    dsimp only at hmoved
    split at hmoved
    · cases hmoved
    · exact h.truthful.moved id hmoved hid

/-- A row under its new name has the new identity. -/
theorem identity_rename {row : SessionSummary R} {old new : Text} {workspace : Option Text}
    (h : identity row = identityOf old workspace) :
    identity (renameRow row new) = identityOf new workspace := by
  have hws : row.workspace.getD [] = workspace.getD [] := (Prod.mk.inj h).1
  show (row.workspace.getD [], new) = (workspace.getD [], new)
  rw [hws]

/-- The identity that a listed one has after the rename. -/
def moved (old new id : Identity) : Identity := if id = old then new else id

theorem renameLocal_listing (s : State R) (old new : Text) (workspace : Option Text) :
    (s.renameLocal old new workspace).listing =
      s.listing.map (moved (identityOf old workspace) (identityOf new workspace)) := by
  unfold State.listing
  rw [List.map_map]
  show (s.sessions.map _).map identity = _
  rw [List.map_map]
  refine List.map_congr_left fun row _ => ?_
  simp only [Function.comp, moved]
  by_cases heq : identity row = identityOf old workspace
  · rw [if_neg (by simpa using heq), if_pos heq, identity_rename heq]
  · rw [if_pos heq, if_neg heq]

variable {k k' id : Identity} {ids : List Identity}

theorem mem_moved (h : id ∈ ids.map (moved k k')) : id = k' ∧ k ∈ ids ∨ id ≠ k ∧ id ∈ ids := by
  obtain ⟨i, hi, rfl⟩ := List.mem_map.mp h
  unfold moved
  split
  next heq => exact .inl ⟨rfl, heq ▸ hi⟩
  next hne => exact .inr ⟨hne, hi⟩

theorem moved_mem (hne : id ≠ k) (h : id ∈ ids) : id ∈ ids.map (moved k k') :=
  List.mem_map.mpr ⟨id, h, if_neg hne⟩

theorem moved_nodup {k k' : Identity} (hnodup : ids.Nodup)
    (hfree : k ∈ ids → k' ∉ ids) : (ids.map (moved k k')).Nodup := by
  refine List.Nodup.map_on (fun a ha b hb heq => ?_) hnodup
  unfold moved at heq
  split at heq <;> split at heq
  next hak hbk => rw [hak, hbk]
  next hak hbk => exact absurd (heq ▸ hb) (hfree (hak ▸ ha))
  next hak hbk => exact absurd (heq.symm ▸ ha) (hfree (hbk ▸ hb))
  next => exact heq

/-- What the rename makes of the belief in an identity. -/
theorem renamed_cases {f : Identity → Option Belief} {shown : Bool}
    (hne : k ≠ k') {b : Belief} (h : Belief.after f (.renamed k k' shown) id = some b) :
    (id = k' ∧ shown = true ∧ b = .live) ∨ (id = k' ∧ shown = false ∧ f id = some b ∧ b ≠ .dead) ∨
      (id = k ∧ (b = .moved false ∨ f id = some .dead ∧ b = .dead)) ∨
      (id ≠ k ∧ id ≠ k' ∧ f id = some b) := by
  simp only [Belief.after, if_neg hne] at h
  split at h
  next hid =>
    split at h
    next hshown =>
      cases h
      exact .inl ⟨hid, hshown, rfl⟩
    next hshown =>
      split at h
      · cases h
      next hdead =>
        refine .inr (.inl ⟨hid, by simpa using hshown, h, ?_⟩)
        rintro rfl
        exact hdead h
  next hid =>
    split at h
    next hold =>
      split at h
      next hdead =>
        cases h
        exact .inr (.inr (.inl ⟨hold, .inr ⟨hdead, rfl⟩⟩))
      next =>
        cases h
        exact .inr (.inr (.inl ⟨hold, .inl rfl⟩))
    next hold => exact .inr (.inr (.inr ⟨hold, hid, h⟩))

theorem Inv.renameLocal {s : State R} (h : Inv s) {old new : Text} {workspace : Option Text}
    (hc : Careful s (.renameLocal old new workspace)) : Inv (s.renameLocal old new workspace) := by
  obtain ⟨hissued, hwaiting, hproper⟩ := h.log (t := s.renameLocal old new workspace) rfl rfl
    (fun _ hr => hr) (by simp) (by simp) trivial
  have hlisting := renameLocal_listing s old new workspace
  have hpending : (s.renameLocal old new workspace).pendingIds = s.pendingIds := rfl
  have hkilled : (s.renameLocal old new workspace).killedKeys =
      if identityOf new workspace ≠ identityOf old workspace then
        s.killedKeys.filter (· ≠ identityOf new workspace) else s.killedKeys := by
    simp only [State.renameLocal, State.addLog, State.killedKeys]
    split <;> simp [List.filter_map, Function.comp_def]
  have hbelief : belief (s.renameLocal old new workspace).log =
      Belief.after (belief s.log) (.renamed (identityOf old workspace) (identityOf new workspace)
        (s.listing.contains (identityOf old workspace) ||
          s.listing.contains (identityOf new workspace))) := belief_snoc _ _
  have hfree : identityOf old workspace ≠ identityOf new workspace →
      identityOf old workspace ∈ s.listing → identityOf new workspace ∉ s.listing :=
    fun hne => hc fun heq => hne (heq ▸ rfl)
  generalize s.renameLocal old new workspace = t at *
  generalize identityOf old workspace = k at *
  generalize identityOf new workspace = k' at *
  -- a rename to its own identity changes no ledger and no belief
  by_cases hne : k = k'
  · subst hne
    have hsame : t.listing = s.listing := by
      rw [hlisting]
      refine (List.map_congr_left fun id _ => ?_).trans (List.map_id _)
      by_cases heq : id = k <;> simp [moved, heq]
    have hkilled' : t.killedKeys = s.killedKeys := by simp [hkilled]
    have hbelief' : belief t.log = belief s.log := by
      rw [hbelief]
      funext id
      simp [Belief.after]
    refine ⟨?_, ?_, ?_, ?_, hissued, hwaiting, ⟨?_, ?_, ?_, ?_⟩, hproper⟩
    · exact hpending ▸ h.pendingOnce
    · rw [hsame, hkilled']
      exact h.lifted
    · rw [hpending, hkilled']
      exact h.unkilled
    · rw [hbelief', hkilled']
      exact h.buried
    · exact hsame ▸ h.truthful.once
    · rw [hbelief', hsame]
      exact h.truthful.live
    · rw [hbelief', hsame]
      exact h.truthful.dead
    · rw [hbelief', hsame]
      exact h.truthful.moved
  · have hkilled' : t.killedKeys = s.killedKeys.filter (· ≠ k') := by
      rw [hkilled, if_pos (Ne.symm hne)]
    refine ⟨?_, ?_, ?_, ?_, hissued, hwaiting, ⟨?_, ?_, ?_, ?_⟩, hproper⟩
    · exact hpending ▸ h.pendingOnce
    · rw [hlisting, hkilled']
      intro id hid hdead
      obtain ⟨hdead, hne'⟩ := List.mem_filter.mp hdead
      rcases mem_moved hid with ⟨rfl, -⟩ | ⟨-, hid⟩
      · simp at hne'
      · exact h.lifted id hid hdead
    · rw [hpending, hkilled']
      exact fun id hid hdead => h.unkilled id hid (List.mem_of_mem_filter hdead)
    · rw [hbelief, hkilled']
      intro id hdead
      rcases renamed_cases hne hdead with ⟨-, -, hb⟩ | ⟨-, -, -, hb⟩ | ⟨rfl, hb | ⟨hb, -⟩⟩ |
        ⟨-, hne', hb⟩
      · cases hb
      · exact absurd rfl hb
      · cases hb
      · exact List.mem_filter.mpr ⟨h.buried id hb, by simpa using hne⟩
      · exact List.mem_filter.mpr ⟨h.buried id hb, by simpa using hne'⟩
    -- the old row takes the new name: two rows only if both were listed, which the condition excludes
    · rw [hlisting]
      exact moved_nodup h.truthful.once (hfree hne)
    · rw [hbelief, hlisting]
      intro id hlive
      rcases renamed_cases hne hlive with ⟨rfl, hshown, -⟩ | ⟨rfl, hshown, hb, -⟩ |
        ⟨-, hb | ⟨-, hb⟩⟩ | ⟨hid, -, hb⟩
      · simp only [Bool.or_eq_true, List.contains_iff_mem] at hshown
        rcases hshown with hshown | hshown
        · exact List.mem_map.mpr ⟨k, hshown, if_pos rfl⟩
        · exact moved_mem (Ne.symm hne) hshown
      · exact moved_mem (Ne.symm hne) (h.truthful.live id hb)
      · cases hb
      · cases hb
      · exact moved_mem hid (h.truthful.live id hb)
    · rw [hbelief, hlisting]
      intro id hdead hid
      rcases renamed_cases hne hdead with ⟨-, -, hb⟩ | ⟨-, -, -, hb⟩ | ⟨rfl, hb | ⟨hb, -⟩⟩ |
        ⟨-, hne', hb⟩
      · cases hb
      · exact absurd rfl hb
      · cases hb
      · rcases mem_moved hid with ⟨heq, -⟩ | ⟨-, hid⟩
        · exact hne heq
        · exact h.truthful.dead id hb hid
      · rcases mem_moved hid with ⟨heq, -⟩ | ⟨-, hid⟩
        · exact hne' heq
        · exact h.truthful.dead id hb hid
    · rw [hbelief, hlisting]
      intro id hmoved hid
      rcases renamed_cases hne hmoved with ⟨-, -, hb⟩ | ⟨rfl, hshown, hb, -⟩ |
        ⟨rfl, -⟩ | ⟨-, hne', hb⟩
      · cases hb
      · rcases mem_moved hid with ⟨-, hk⟩ | ⟨-, hid⟩
        · simp [hk] at hshown
        · exact h.truthful.moved id hb hid
      · rcases mem_moved hid with ⟨heq, -⟩ | ⟨hid, -⟩
        · exact hne heq
        · exact hid rfl
      · rcases mem_moved hid with ⟨heq, -⟩ | ⟨-, hid⟩
        · exact hne' heq
        · exact h.truthful.moved id hb hid

theorem Inv.refresh {s : State R} (h : Inv s) (quiet : Bool) : Inv (s.refresh quiet) := by
  have hlog : (s.refresh quiet).log = s.log ++ [.requested s.nextTicket] := rfl
  have hbelief : belief (s.refresh quiet).log = belief s.log := belief_snoc _ _
  refine ⟨h.pendingOnce, h.lifted, h.unkilled, ?_, fun ticket hmem => ?_, fun r hr => ?_,
    ⟨h.truthful.once, ?_, ?_, ?_⟩, h.proper.snoc trivial⟩
  · exact hbelief ▸ h.buried
  · rcases mem_snoc.mp hmem with hmem | hmem
    · exact Nat.lt_succ_of_lt (h.issued ticket hmem)
    · cases hmem
      exact Nat.lt_succ_self _
  · rw [hlog]
    rcases mem_snoc.mp hr with hr | hr
    · exact sinceRequest_snoc (by simp) (h.waiting r hr)
    · cases hr
      have hnew : s.log.dropWhile (· ≠ .requested s.nextTicket) = [] := by
        refine List.dropWhile_eq_nil_iff.mpr fun e he => ?_
        have hne : e ≠ .requested s.nextTicket := by
          rintro rfl
          exact Nat.lt_irrefl _ (h.issued _ he)
        simpa using hne
      unfold sinceRequest
      rw [List.dropWhile_append, hnew]
      simp
  · exact hbelief ▸ h.truthful.live
  · exact hbelief ▸ h.truthful.dead
  · exact hbelief ▸ h.truthful.moved

theorem Inv.failed {s : State R} (h : Inv s) {request : Request} (hmem : request ∈ s.requests)
    (message : Text) : Inv (s.failed request message) := by
  obtain ⟨hissued, hwaiting, hproper⟩ := h.log (t := s.failed request message) rfl rfl
    (fun _ hr => List.mem_of_mem_erase hr) (by simp) (by simp) (h.waiting request hmem)
  have hbelief : belief (s.failed request message).log = belief s.log := belief_snoc _ _
  refine ⟨h.pendingOnce, h.lifted, h.unkilled, ?_, hissued, hwaiting,
    ⟨h.truthful.once, ?_, ?_, ?_⟩, hproper⟩
  · exact hbelief ▸ h.buried
  · exact hbelief ▸ h.truthful.live
  · exact hbelief ▸ h.truthful.dead
  · exact hbelief ▸ h.truthful.moved

theorem Inv.clear {s : State R} (h : Inv s) (hc : s.requests = []) : Inv s.clear := by
  have hbelief : belief s.clear.log = fun _ => none := belief_snoc _ _
  refine ⟨List.nodup_nil, fun _ hid => (by cases hid), fun _ hid => (by cases hid), ?_,
    fun ticket hmem => ?_, fun r hr => ?_, ⟨List.nodup_nil, ?_, ?_, ?_⟩, h.proper.snoc trivial⟩
  · rw [hbelief]
    exact fun _ hb => (by cases hb)
  · rcases mem_snoc.mp hmem with hmem | hmem
    · exact h.issued ticket hmem
    · cases hmem
  · have hr' : r ∈ s.requests := hr
    rw [hc] at hr'
    cases hr'
  · rw [hbelief]
    exact fun _ hb => (by cases hb)
  · rw [hbelief]
    exact fun _ hb => (by cases hb)
  · rw [hbelief]
    exact fun _ hb => (by cases hb)

section Listed

variable {s : State R} {request : Request} {rows : List (SessionSummary R)} {errors : List Text}
  {now later : Int}

variable (s request rows errors now later) in
/-- The two folds leave everything but the list and the ledgers. -/
theorem listed_cases : ∃ pending killed merged,
    s.listed request rows errors now later = State.addLog (State.settle { s with
      pendingRows := pending
      killedRows := killed
      sessions := merged
      listErrors := errors } request) (.listed request.ticket (rows.map identity)) ∧
    (∀ row ∈ killed, row ∈ s.killedRows) ∧
    ∀ row ∈ rows, row ∉ merged →
      ∃ grave ∈ s.killedRows, grave.key = identity row ∧ later - grave.at_ ≤ KILLED_TTL_MS := by
  obtain ⟨unconfirmed, pending, hpending⟩ : ∃ unconfirmed pending,
      s.mergePending rows now = (unconfirmed ++ rows, { s with pendingRows := pending }) := by
    unfold State.mergePending
    split
    next => exact ⟨[], _, rfl⟩
    next => exact ⟨_, _, rfl⟩
  have hlisted : s.listed request rows errors now later = (fun merged : List (SessionSummary R) × State R =>
      State.addLog (State.settle { merged.2 with sessions := merged.1, listErrors := errors } request)
        (.listed request.ticket (rows.map identity)))
      (State.mergeKilled { s with pendingRows := pending } (unconfirmed ++ rows) later) := by
    unfold State.listed
    rw [hpending]
  rw [hlisted]
  unfold State.mergeKilled
  split
  next =>
    exact ⟨pending, s.killedRows, unconfirmed ++ rows, rfl, fun _ hrow => hrow,
      fun row hrow hnot => absurd (List.mem_append_right _ hrow) hnot⟩
  next =>
    refine ⟨pending, _, _, rfl, fun _ hrow => List.mem_of_mem_filter hrow, fun row hrow hnot => ?_⟩
    have hdead : identity row ∈
        (s.killedRows.filter fun grave => later - grave.at_ ≤ KILLED_TTL_MS).map (·.key) := by
      by_contra hfree
      exact hnot (List.mem_filter.mpr ⟨List.mem_append_right _ hrow, by simpa using hfree⟩)
    obtain ⟨grave, hgrave, hkey⟩ := List.mem_map.mp hdead
    obtain ⟨hgrave, hfresh⟩ := List.mem_filter.mp hgrave
    exact ⟨grave, hgrave, hkey, of_decide_eq_true hfresh⟩

theorem listed_log : (s.listed request rows errors now later).log =
    s.log ++ [.listed request.ticket (rows.map identity)] := by
  obtain ⟨_, _, _, heq, -⟩ := listed_cases s request rows errors now later
  rw [heq]
  rfl

/-- What is listed and not shown is held for killed. -/
theorem listed_missing {row : SessionSummary R} (hrow : row ∈ rows)
    (hnot : row ∉ (s.listed request rows errors now later).sessions) :
    ∃ grave ∈ s.killedRows, grave.key = identity row ∧ later - grave.at_ ≤ KILLED_TTL_MS := by
  obtain ⟨_, _, _, heq, -, hmissing⟩ := listed_cases s request rows errors now later
  rw [heq] at hnot
  exact hmissing row hrow hnot

theorem listed_killedRows {row : KilledRow}
    (h : row ∈ (s.listed request rows errors now later).killedRows) : row ∈ s.killedRows := by
  obtain ⟨_, _, _, heq, hkilled, -⟩ := listed_cases s request rows errors now later
  rw [heq] at h
  exact hkilled row h

end Listed

/-- Within its TTL, a pending row stays unless the host lists it. -/
theorem mergePending_eq {s : State R} (rows : List (SessionSummary R)) {now : Int}
    (h : ∀ row ∈ s.pendingRows, now - row.at_ ≤ PENDING_TTL_MS) :
    s.mergePending rows now =
      (((s.pendingRows.filter fun row => !(rows.map identity).contains (identity row.summary)).map
        (·.summary)) ++ rows,
      { s with pendingRows := s.pendingRows.filter fun row =>
          !(rows.map identity).contains (identity row.summary) }) := by
  have hstill : (s.pendingRows.filter fun row =>
      !(rows.map identity).contains (identity row.summary) && now - row.at_ ≤ PENDING_TTL_MS) =
        s.pendingRows.filter fun row => !(rows.map identity).contains (identity row.summary) :=
    List.filter_congr fun row hrow => by simp [h row hrow]
  unfold State.mergePending
  split
  next hnil =>
    have hnil' : s.pendingRows = [] := List.isEmpty_iff.mp hnil
    cases s
    cases hnil'
    rfl
  next =>
    dsimp only
    rw [hstill]

/-- Within its TTL, a killed identity is filtered. -/
theorem mergeKilled_eq {s : State R} (rows : List (SessionSummary R)) {now : Int}
    (h : ∀ row ∈ s.killedRows, now - row.at_ ≤ KILLED_TTL_MS) :
    s.mergeKilled rows now = (rows.filter (fun row => !s.killedKeys.contains (identity row)), s) := by
  have halive : (s.killedRows.filter fun row => now - row.at_ ≤ KILLED_TTL_MS) = s.killedRows :=
    List.filter_eq_self.mpr fun row hrow => by simp [h row hrow]
  unfold State.mergeKilled
  split
  next hnil =>
    have hnil' : s.killedRows = [] := List.isEmpty_iff.mp hnil
    simp [State.killedKeys, hnil']
  next =>
    dsimp only
    rw [halive]
    rfl

namespace Buries

variable {s : State R}

theorem start : Buries ({} : State R) := fun _ h => by cases h

theorem addPending (h : Buries s) (summary : SessionSummary R) (now : Int) :
    Buries (s.addPending summary now) := by
  have hkilled : killedSince (s.addPending summary now).log =
      killedAfter (killedSince s.log) (.created (identity summary) now) := killedSince_snoc _ _
  intro row hrow
  rw [hkilled]
  obtain ⟨hrow, hne⟩ := List.mem_filter.mp hrow
  simpa [killedAfter, of_decide_eq_true hne] using h row hrow

theorem removeLocal (h : Buries s) (name : Text) (workspace : Option Text) (now : Int) :
    Buries (s.removeLocal name workspace now) := by
  let key := identityOf name workspace
  have hkilled : killedSince (s.removeLocal name workspace now).log =
      killedAfter (killedSince s.log) (.killed key now) := killedSince_snoc _ _
  intro row hrow
  rw [hkilled]
  rcases mem_snoc.mp hrow with hrow | hrow
  · obtain ⟨hrow, hne⟩ := List.mem_filter.mp hrow
    have hne' : row.key ≠ key := of_decide_eq_true hne
    simpa [killedAfter, hne'] using h row hrow
  · rw [hrow]
    simp [killedAfter, key]

theorem renameLocal (h : Buries s) (old new : Text) (workspace : Option Text) :
    Buries (s.renameLocal old new workspace) := by
  have hkilled : killedSince (s.renameLocal old new workspace).log =
      killedAfter (killedSince s.log) (.renamed (identityOf old workspace) (identityOf new workspace)
        (s.listing.contains (identityOf old workspace) ||
          s.listing.contains (identityOf new workspace))) := killedSince_snoc _ _
  intro row hrow
  rw [hkilled]
  have hrow' : row ∈ (if identityOf new workspace ≠ identityOf old workspace then
    s.killedRows.filter (·.key ≠ identityOf new workspace) else s.killedRows) := hrow
  split at hrow'
  next hne =>
    obtain ⟨hrow', hkey⟩ := List.mem_filter.mp hrow'
    simpa [killedAfter, of_decide_eq_true hkey] using h row hrow'
  next heq =>
    have heq' : identityOf new workspace = identityOf old workspace := not_not.mp heq
    simpa [killedAfter, heq'] using h row hrow'

/-- An event that is about no kill. -/
theorem other (h : Buries s) {t : State R} {e : Event} (hlog : t.log = s.log ++ [e])
    (he : killedAfter (killedSince s.log) e = killedSince s.log)
    (hrows : ∀ row ∈ t.killedRows, row ∈ s.killedRows) : Buries t := by
  intro row hrow
  rw [hlog, killedSince_snoc, he]
  exact h row (hrows row hrow)

theorem step (h : Buries s) (action : Action R) : Buries (s.step action) := by
  cases action with
  | addPending summary now => exact h.addPending summary now
  | removeLocal name workspace now => exact h.removeLocal name workspace now
  | renameLocal old new workspace => exact h.renameLocal old new workspace
  | clear => exact fun _ hrow => by cases hrow
  | refresh quiet => exact h.other rfl rfl fun _ hrow => hrow
  | listed request rows errors now later =>
    show Buries (if request ∈ s.requests then s.listed request rows errors now later else s)
    split
    next => exact h.other (listed_log ..) rfl fun _ hrow => listed_killedRows hrow
    next => exact h
  | failed request message =>
    show Buries (if request ∈ s.requests then s.failed request message else s)
    split
    next => exact h.other rfl rfl fun _ hrow => hrow
    next => exact h

end Buries

/-- The log grows, and only `removeLocal` adds a kill to it. -/
theorem step_log (s : State R) (action : Action R) : ∃ es, (s.step action).log = s.log ++ es ∧
    ∀ id now, .killed id now ∈ es →
      ∃ name workspace, action = .removeLocal name workspace now ∧ id = identityOf name workspace := by
  cases action with
  | removeLocal name workspace now =>
    refine ⟨_, rfl, fun id now' hmem => ?_⟩
    cases List.mem_singleton.mp hmem
    exact ⟨name, workspace, rfl, rfl⟩
  | addPending | renameLocal | clear | refresh =>
    exact ⟨_, rfl, fun _ _ hmem => by cases List.mem_singleton.mp hmem⟩
  | listed request rows errors now later =>
    by_cases hwaits : request ∈ s.requests
    · refine ⟨_, (congrArg State.log (if_pos hwaits)).trans (listed_log ..), fun _ _ hmem => ?_⟩
      cases List.mem_singleton.mp hmem
    · exact ⟨[], (congrArg State.log (if_neg hwaits)).trans (List.append_nil _).symm,
        fun _ _ hmem => by cases hmem⟩
  | failed request message =>
    by_cases hwaits : request ∈ s.requests
    · refine ⟨_, congrArg State.log (if_pos hwaits), fun _ _ hmem => ?_⟩
      cases List.mem_singleton.mp hmem
    · exact ⟨[], (congrArg State.log (if_neg hwaits)).trans (List.append_nil _).symm,
        fun _ _ hmem => by cases hmem⟩

/-- What the log has for killed was killed. -/
theorem mem_of_killedSince {log : List Event} {id : Identity} {at_ : Int}
    (h : killedSince log id = some at_) : .killed id at_ ∈ log := by
  induction log using List.reverseRecOn with
  | nil => cases h
  | append_singleton log e ih =>
    rw [killedSince_snoc] at h
    have holder : killedSince log id = some at_ → .killed id at_ ∈ log ++ [e] :=
      fun h => List.mem_append_left _ (ih h)
    cases e with
    | killed k now =>
      simp only [killedAfter] at h
      split at h
      next heq =>
        cases h
        exact heq ▸ List.mem_append_right _ (List.mem_singleton.mpr rfl)
      next => exact holder h
    | created k now =>
      simp only [killedAfter] at h
      split at h
      next => cases h
      next => exact holder h
    | renamed old new shown =>
      simp only [killedAfter] at h
      split at h
      next => cases h
      next => exact holder h
    | cleared => cases h
    | requested | listed | failed => exact holder h

namespace Ledgers

variable {s : State R}

theorem mem_pendingIds (h : Ledgers s) {id : Identity} (hid : id ∈ s.pendingIds) :
    (unlistedSince s.log id).isSome := by
  obtain ⟨row, hrow, rfl⟩ := List.mem_map.mp hid
  rw [h.pending row hrow]
  rfl

variable {rows : List (SessionSummary R)}

/-- What a listing within the TTLs makes of the store. -/
theorem listed_eq (h : Ledgers s) {request : Request}
    {errors : List Text} {now later : Int} (hw : Within s (.listed request rows errors now later)) :
    s.listed request rows errors now later = State.addLog (State.settle { s with
      pendingRows := s.pendingRows.filter fun row =>
        !(rows.map identity).contains (identity row.summary)
      sessions := ((s.pendingRows.filter fun row =>
        !(rows.map identity).contains (identity row.summary)).map
          (·.summary) ++ rows).filter fun row => !s.killedKeys.contains (identity row)
      listErrors := errors } request) (.listed request.ticket (rows.map identity)) := by
  obtain ⟨-, hpending, hkilled⟩ := hw
  unfold State.listed
  rw [mergePending_eq rows fun row hrow => hpending _ _ (h.pending row hrow)]
  dsimp only
  rw [mergeKilled_eq _ (by exact fun row hrow => hkilled _ _ (h.killed row hrow))]
  rfl

theorem start : Ledgers ({} : State R) where
  pending _ h := by cases h
  unlisted _ h := by cases h
  killed := Buries.start

theorem addPending (h : Ledgers s) (summary : SessionSummary R) (now : Int) :
    Ledgers (s.addPending summary now) := by
  have hunlisted : unlistedSince (s.addPending summary now).log =
      unlistedAfter (unlistedSince s.log) (.created (identity summary) now) := unlistedSince_snoc _ _
  refine ⟨fun row hrow => ?_, fun id hid => ?_, h.killed.addPending summary now⟩
  · rw [hunlisted]
    rcases mem_snoc.mp hrow with hrow | hrow
    · obtain ⟨hrow, hne⟩ := List.mem_filter.mp hrow
      simpa [unlistedAfter, of_decide_eq_true hne] using h.pending row hrow
    · rw [hrow]
      simp [unlistedAfter]
  · rw [hunlisted] at hid
    unfold State.pendingIds
    by_cases heq : id = identity summary
    · exact heq ▸ List.mem_map_of_mem (List.mem_append_right _ (List.mem_singleton.mpr rfl))
    · have hold : id ∈ s.pendingIds := h.unlisted id (by simpa [unlistedAfter, heq] using hid)
      obtain ⟨row, hrow, rfl⟩ := List.mem_map.mp hold
      exact List.mem_map_of_mem
        (List.mem_append_left _ (List.mem_filter.mpr ⟨hrow, decide_eq_true heq⟩))

theorem removeLocal (h : Ledgers s) (name : Text) (workspace : Option Text) (now : Int) :
    Ledgers (s.removeLocal name workspace now) := by
  let key := identityOf name workspace
  have hunlisted : unlistedSince (s.removeLocal name workspace now).log =
      unlistedAfter (unlistedSince s.log) (.killed key now) := unlistedSince_snoc _ _
  refine ⟨fun row hrow => ?_, fun id hid => ?_, h.killed.removeLocal name workspace now⟩
  · rw [hunlisted]
    obtain ⟨hrow, hne⟩ := List.mem_filter.mp hrow
    have hne' : identity row.summary ≠ key := of_decide_eq_true hne
    simpa [unlistedAfter, hne'] using h.pending row hrow
  · rw [hunlisted] at hid
    by_cases heq : id = key
    · simp [unlistedAfter, heq] at hid
    · have hold : id ∈ s.pendingIds := h.unlisted id (by simpa [unlistedAfter, heq] using hid)
      obtain ⟨row, hrow, rfl⟩ := List.mem_map.mp hold
      exact List.mem_map_of_mem (List.mem_filter.mpr ⟨hrow, decide_eq_true heq⟩)

theorem renameLocal (h : Ledgers s) (old new : Text) (workspace : Option Text) :
    Ledgers (s.renameLocal old new workspace) := by
  have hunlisted : unlistedSince (s.renameLocal old new workspace).log = unlistedSince s.log :=
    unlistedSince_snoc _ _
  exact ⟨hunlisted ▸ h.pending, hunlisted ▸ h.unlisted, h.killed.renameLocal old new workspace⟩

theorem listed (h : Ledgers s) {request : Request}
    {errors : List Text} {now later : Int} (hw : Within s (.listed request rows errors now later)) :
    Ledgers (s.listed request rows errors now later) := by
  have hburies : Buries (s.listed request rows errors now later) :=
    h.killed.other (listed_log ..) rfl fun _ hrow => listed_killedRows hrow
  rw [h.listed_eq hw] at hburies ⊢
  let ids := rows.map identity
  have hunlisted : unlistedSince (s.log ++ [.listed request.ticket ids]) =
      unlistedAfter (unlistedSince s.log) (.listed request.ticket ids) := unlistedSince_snoc _ _
  refine ⟨fun row hrow => ?_, fun id hid => ?_, hburies⟩
  · obtain ⟨hrow, hnot⟩ := List.mem_filter.mp hrow
    have hnot' : identity row.summary ∉ ids := by simpa [ids] using hnot
    refine (congrFun hunlisted _).trans ?_
    simpa only [unlistedAfter, if_neg hnot'] using h.pending row hrow
  · have hid' : (unlistedAfter (unlistedSince s.log) (.listed request.ticket ids) id).isSome :=
      congrFun hunlisted id ▸ hid
    by_cases hin : id ∈ ids
    · simp [unlistedAfter, hin] at hid'
    · simp only [unlistedAfter, if_neg hin] at hid'
      obtain ⟨row, hrow, rfl⟩ := List.mem_map.mp (h.unlisted id hid')
      exact List.mem_map_of_mem (List.mem_filter.mpr ⟨hrow, by simpa [ids] using hin⟩)

theorem clear : Ledgers s.clear where
  pending _ h := by cases h
  unlisted id h := by
    have hnone : unlistedSince s.clear.log = fun _ => none := unlistedSince_snoc _ _
    rw [hnone] at h
    cases h
  killed _ hrow := by cases hrow

/-- An event that neither ledger is about. -/
theorem other (h : Ledgers s) {t : State R} {e : Event} (hlog : t.log = s.log ++ [e])
    (hunlisted : unlistedAfter (unlistedSince s.log) e = unlistedSince s.log)
    (hkilled : killedAfter (killedSince s.log) e = killedSince s.log)
    (hp : t.pendingRows = s.pendingRows) (hk : t.killedRows = s.killedRows) : Ledgers t := by
  have hu : unlistedSince t.log = unlistedSince s.log := by
    rw [hlog, unlistedSince_snoc, hunlisted]
  refine ⟨?_, ?_, h.killed.other hlog hkilled (hk ▸ fun _ hrow => hrow)⟩
  · rw [hp, hu]
    exact h.pending
  · rw [State.pendingIds, hp, hu]
    exact h.unlisted

theorem step (h : Ledgers s) {action : Action R} (hw : Within s action) : Ledgers (s.step action) := by
  cases action with
  | addPending summary now => exact h.addPending summary now
  | removeLocal name workspace now => exact h.removeLocal name workspace now
  | renameLocal old new workspace => exact h.renameLocal old new workspace
  | clear => exact clear
  | refresh quiet => exact h.other rfl rfl rfl rfl rfl
  | listed request rows errors now later =>
    show Ledgers (if request ∈ s.requests then s.listed request rows errors now later else s)
    split
    next => exact h.listed hw
    next => exact h
  | failed request message =>
    show Ledgers (if request ∈ s.requests then s.failed request message else s)
    split
    next => exact h.other rfl rfl rfl rfl rfl
    next => exact h

end Ledgers

theorem Inv.listed {s : State R} (h : Inv s) {request : Request} (hmem : request ∈ s.requests)
    {rows : List (SessionSummary R)} {errors : List Text} {now later : Int}
    (hl : Ledgers s) (hw : Within s (.listed request rows errors now later))
    (hc : Careful s (.listed request rows errors now later)) :
    Inv (s.listed request rows errors now later) := by
  obtain ⟨hlist, haway, hnewest⟩ := hc
  let ids := rows.map identity
  rw [hl.listed_eq hw]
  generalize ht : State.addLog (State.settle _ request) _ = t
  have hlisting : t.listing = (s.pendingIds.filter (fun id => !ids.contains id) ++ ids).filter
      fun id => !s.killedKeys.contains id := by
    simp [← ht, State.listing, State.addLog, State.settle, State.pendingIds, List.filter_map,
      Function.comp_def, ids]
  have hpending : t.pendingIds = s.pendingIds.filter fun id => !ids.contains id := by
    simp [← ht, State.addLog, State.settle, State.pendingIds, List.filter_map, Function.comp_def, ids]
  have hkilled : t.killedKeys = s.killedKeys := by
    rw [← ht]
    rfl
  have hlog : t.log = s.log ++ [.listed request.ticket ids] := by
    rw [← ht]
    rfl
  have hbelief : belief t.log = Belief.after (belief s.log) (.listed request.ticket ids) := by
    rw [hlog]
    exact belief_snoc _ _
  obtain ⟨hissued, hwaiting, hproper⟩ := h.log (t := t) hlog (by rw [← ht]; rfl)
    (fun r hr => by
      rw [← ht] at hr
      exact List.mem_of_mem_erase hr)
    (by simp) (by simp) ⟨h.waiting request hmem, hnewest⟩
  -- a row is shown if it is listed or still pending, and was not killed
  have hshown : ∀ {id}, id ∈ t.listing ↔
      ((id ∈ s.pendingIds ∧ id ∉ ids) ∨ id ∈ ids) ∧ id ∉ s.killedKeys := by
    intro id
    rw [hlisting]
    simp only [List.mem_filter, List.mem_append, List.contains_eq_mem, Bool.not_eq_true',
      decide_eq_false_iff_not]
  have hafter : ∀ {id b}, Belief.after (belief s.log) (.listed request.ticket ids) id = some b →
      belief s.log id = some b ∨
        ∃ relisted, belief s.log id = some (.moved relisted) ∧ b = .moved (ids.contains id) := by
    intro id b hb
    unfold Belief.after at hb
    dsimp only at hb
    split at hb
    next relisted hmoved =>
      cases hb
      exact .inr ⟨relisted, hmoved, rfl⟩
    next => exact .inl hb
  refine ⟨?_, ?_, ?_, ?_, hissued, hwaiting, ⟨?_, ?_, ?_, ?_⟩, hproper⟩
  · rw [hpending]
    exact h.pendingOnce.filter _
  · rw [hkilled]
    exact fun id hid => (hshown.mp hid).2
  · rw [hpending, hkilled]
    exact fun id hid => h.unkilled id (List.mem_of_mem_filter hid)
  · rw [hbelief, hkilled]
    intro id hdead
    rcases hafter hdead with hdead | ⟨relisted, -, hb⟩
    · exact h.buried id hdead
    · cases hb
  · rw [hlisting]
    refine List.Nodup.filter _ (List.nodup_append.mpr ⟨h.pendingOnce.filter _, hw.1, ?_⟩)
    rintro id hid other hother rfl
    have hnot := (List.mem_filter.mp hid).2
    simp [hother] at hnot
  · rw [hbelief]
    intro id hlive
    rcases hafter hlive with hlive | ⟨relisted, -, hb⟩
    · refine hshown.mpr ⟨?_, h.lifted id (h.truthful.live id hlive)⟩
      by_cases hid : id ∈ ids
      · exact .inr hid
      · exact .inl ⟨hl.unlisted id ((hlist id hlive).resolve_left hid), hid⟩
    · cases hb
  · rw [hbelief]
    intro id hdead hid
    rcases hafter hdead with hdead | ⟨relisted, -, hb⟩
    · exact (hshown.mp hid).2 (h.buried id hdead)
    · cases hb
  · rw [hbelief]
    intro id hmoved hid
    obtain ⟨hin, -⟩ := hshown.mp hid
    -- a row that was renamed away and is pending again would have to be in the listing
    have haway' : ∃ relisted, belief s.log id = some (.moved relisted) ∧ id ∉ ids := by
      rcases hafter hmoved with hold | ⟨relisted, hold, hb⟩
      · have hb : Belief.after (belief s.log) (.listed request.ticket ids) id =
            some (.moved (ids.contains id)) := by
          simp [Belief.after, hold]
        rw [hb] at hmoved
        exact ⟨false, hold, by simpa using hmoved⟩
      · exact ⟨relisted, hold, by simpa using hb.symm⟩
    obtain ⟨relisted, hold, hnot⟩ := haway'
    rcases hin with ⟨hpend, -⟩ | hin
    · exact hnot (haway id relisted (hl.mem_pendingIds hpend) hold)
    · exact hnot hin

/-- **Step.** -/
theorem Inv.step {s : State R} (h : Inv s) (hl : Ledgers s) {action : Action R}
    (hw : Within s action) (hc : Careful s action) : Inv (s.step action) := by
  cases action with
  | addPending summary now => exact h.addPending summary now
  | removeLocal name workspace now => exact h.removeLocal name workspace now
  | renameLocal old new workspace => exact h.renameLocal hc
  | clear => exact h.clear hc
  | refresh quiet => exact h.refresh quiet
  | listed request rows errors now later =>
    show Inv (if request ∈ s.requests then s.listed request rows errors now later else s)
    split
    next hmem => exact h.listed hmem hl hw hc
    next => exact h
  | failed request message =>
    show Inv (if request ∈ s.requests then s.failed request message else s)
    split
    next hmem => exact h.failed hmem message
    next => exact h

/-! ## 4. Runs -/

/-- Each step of the run is as `P` wants it, in the state where it is taken. -/
def RunFrom (P : State R → Action R → Prop) : State R → List (Action R) → Prop
  | _, [] => True
  | s, action :: rest => P s action ∧ RunFrom P (s.step action) rest

theorem inv_runFrom {s : State R} (h : Inv s) (hl : Ledgers s) {actions : List (Action R)}
    (hrun : RunFrom (fun s action => Within s action ∧ Careful s action) s actions) :
    Inv (actions.foldl State.step s) := by
  induction actions generalizing s with
  | nil => exact h
  | cons action rest ih => exact ih (h.step hl hrun.1.1 hrun.1.2) (hl.step hrun.1.1) hrun.2

/-- A run of careful steps within the two TTLs shows the truth, and each reply is in its order. -/
theorem truthful_run (actions : List (Action R))
    (hrun : RunFrom (fun s action => Within s action ∧ Careful s action) {} actions) :
    Truthful (run actions) ∧ Each Proper (run actions).log :=
  have hinv := inv_runFrom inv_start .start hrun
  ⟨hinv.truthful, hinv.proper⟩

/-- A row called `unit`, of no workspace. -/
def rowNamed (unit : UInt16) : SessionSummary Unit := { name := [unit], rest := () }

/-- A session that was created at the start is all that waits, five seconds later. -/
theorem within_created {s : State Unit} {request : Request} {rows : List (SessionSummary Unit)}
    (hrows : (rows.map identity).Nodup)
    (hlog : ∀ id since, unlistedSince s.log id = some since → since = 0)
    (hkilled : ∀ id, killedSince s.log id = none) : Within s (.listed request rows [] 5000 5000) := by
  refine ⟨hrows, fun id since hsince => ?_, fun id since hsince => ?_⟩
  · rw [hlog id since hsince]
    decide
  · rw [hkilled id] at hsince
    cases hsince

/-- A session is created, and the first listing does not have it yet. -/
theorem truthful_run_created :
    Truthful (run [.addPending (rowNamed 0x61) 0, .refresh true,
        .listed ⟨0, true⟩ [] [] 5000 5000]) ∧
      Each Proper (run [.addPending (rowNamed 0x61) 0, .refresh true,
        .listed ⟨0, true⟩ [] [] 5000 5000]).log := by
  refine truthful_run _ ⟨⟨trivial, trivial⟩, ⟨trivial, trivial⟩, ⟨?_, ?_⟩, trivial⟩
  · refine within_created List.nodup_nil (fun id since hsince => ?_) fun id => ?_
    · simp [State.step, State.addPending, State.refresh, State.addLog, unlistedSince,
        unlistedAfter] at hsince
      exact hsince.2.symm
    · simp [State.step, State.addPending, State.refresh, State.addLog, killedSince, killedAfter]
  · refine ⟨fun id hid => .inr ?_, fun id relisted _ hid => ?_, fun ticket ids hmem => ?_⟩
    · by_cases heq : id = identity (rowNamed 0x61)
      · rw [heq]
        decide
      · simp [State.step, State.addPending, State.refresh, State.addLog, belief, Belief.after,
          heq] at hid
    · by_cases heq : id = identity (rowNamed 0x61) <;>
        simp [State.step, State.addPending, State.refresh, State.addLog, belief, Belief.after,
          heq] at hid
    · simp [State.step, State.addPending, State.refresh, State.addLog] at hmem

/-- A session is created and renamed, and the host lists it under its new name. -/
def renamedEarly : List (Action Unit) :=
  [.addPending (rowNamed 0x61) 0, .renameLocal [0x61] [0x62] none, .refresh true,
    .listed ⟨0, true⟩ [rowNamed 0x62] [] 5000 5000]

/-- The pending ledger brings the old name back beside the new one. -/
theorem renamed_row_returns :
    ¬∀ actions : List (Action Unit), RunFrom Within {} actions →
      Truthful (run actions) ∧ Each Proper (run actions).log := by
  intro h
  have hwithin : RunFrom Within {} renamedEarly := by
    refine ⟨trivial, trivial, trivial, within_created ?_ (fun id since hsince => ?_) fun id => ?_, trivial⟩
    · exact List.nodup_singleton _
    · simp [State.step, State.addPending, State.renameLocal, State.refresh, State.addLog,
        unlistedSince, unlistedAfter] at hsince
      exact hsince.2.symm
    · simp [State.step, State.addPending, State.renameLocal, State.refresh, State.addLog,
        killedSince, killedAfter]
  have htrue := (h renamedEarly hwithin).1
  exact htrue.moved ([], [0x61]) (by decide) (by decide)

end PocketShell.Sessions
