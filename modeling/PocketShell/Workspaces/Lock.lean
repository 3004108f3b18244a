import PocketShell.Workspaces.Roots

/-!
# The lock of a registration change

* `Parked.held`: the operations whose `finally` is still to run.
* `Segment`: what a run from one await to the next does to the lock.
* `Locked`, `Locked.step`: of the operations of the current epoch at most one is
  running, it is the one that holds the lock, and `mutating` says so.
-/

namespace PocketShell.Workspaces

open Js (Text JsInteger)

def Frame.operation : Frame → Option Operation
  | .finishing operation => some operation
  | _ => none

def held (frames : List Frame) : List Operation := frames.filterMap Frame.operation

/-- The operations that what is parked is to finish. -/
def Parked.held : Parked → List Operation
  | .listing _ _ _ _ frames => Workspaces.held frames
  | .restoring _ operation _ _ _ frames => operation :: Workspaces.held frames
  | .changing _ operation _ _ => [operation]
  | .returning _ frames => Workspaces.held frames

def State.Ran.held (r : State.Ran) : List Operation := r.2.toList.flatMap Parked.held

namespace State

/-- The operation of the current epoch that holds the lock. -/
def holder (s : State) : List Operation := s.operation.toList.filter (·.epoch = s.epoch)

/-- No change starts or ends. -/
structure Keeps (s : State) (operations : List Operation) (r : Ran) : Prop where
  epoch : r.1.epoch = s.epoch
  operation : r.1.operation = s.operation
  mutating : r.1.state.mutating = s.state.mutating
  held : r.held = operations

/-- A change starts. -/
structure Starts (s : State) (operations : List Operation) (r : Ran) : Prop where
  idle : s.busy = false
  epoch : r.1.epoch = s.epoch
  operation : r.1.operation = some ⟨s.epoch, s.generation + 1⟩
  mutating : r.1.state.mutating = true
  held : r.held = ⟨s.epoch, s.generation + 1⟩ :: operations

def Segment (s : State) (operations : List Operation) (r : Ran) : Prop :=
  Keeps s operations r ∨ Starts s operations r

variable (N : Type) [JsInteger N] (refuses : Refusals) {s : State}

/-- What the lock is made of. -/
structure SameLock (s s' : State) : Prop where
  epoch : s'.epoch = s.epoch
  operation : s'.operation = s.operation
  generation : s'.generation = s.generation
  mutating : s'.state.mutating = s.state.mutating

variable {s' : State}

theorem SameLock.busy (h : SameLock s s') : s'.busy = s.busy := by
  unfold State.busy
  rw [h.operation, h.epoch]

variable {operations : List Operation}

theorem Keeps.of_same {r : Ran} (hr : Keeps s' operations r)
    (h : SameLock s s') : Keeps s operations r :=
  ⟨hr.epoch.trans h.epoch, hr.operation.trans h.operation, hr.mutating.trans h.mutating, hr.held⟩

theorem Segment.of_same {r : Ran}
    (hr : Segment s' operations r) (h : SameLock s s') : Segment s operations r := by
  rcases hr with hr | hr
  · exact .inl (hr.of_same h)
  · have hidle : s.busy = false := by
      have := hr.idle
      unfold busy at this ⊢
      rwa [h.operation, h.epoch] at this
    refine .inr ⟨hidle, hr.epoch.trans h.epoch, ?_, hr.mutating, ?_⟩
    · rw [hr.operation, h.epoch, h.generation]
    · rw [hr.held, h.epoch, h.generation]

theorem answer_keeps (outcome : Except Text Unit) (frames : List Frame) :
    Keeps s (held frames) (s.answer outcome frames) := by
  unfold answer
  cases frames with
  | nil => exact ⟨rfl, rfl, rfl, rfl⟩
  | cons frame frames => exact ⟨rfl, rfl, rfl, List.append_nil _⟩

theorem list_keeps (frames : List Frame) : Keeps s (held frames) (s.list frames) := by
  unfold list
  split
  · exact answer_keeps _ _
  · exact ⟨rfl, rfl, rfl, List.append_nil _⟩

theorem flushRelist_keeps (frames : List Frame) : Keeps s (held frames) (s.flushRelist frames) := by
  unfold flushRelist
  split
  · exact answer_keeps _ _
  · exact (list_keeps frames).of_same ⟨rfl, rfl, rfl, rfl⟩

variable (selection : WorkspaceRootsSelection)

theorem settleSuperseded_keeps (frames : List Frame) :
    Keeps s (held frames) (s.settleSuperseded selection frames) := by
  unfold settleSuperseded
  split
  · exact answer_keeps _ _
  · split
    · exact (answer_keeps _ _).of_same ⟨rfl, rfl, rfl, rfl⟩
    · exact list_keeps frames

theorem superseded_keeps (change : Option Change) (caught : Bool)
    (frames : List Frame) : Keeps s (held frames) (s.superseded selection change caught frames) :=
  settleSuperseded_keeps selection (.settling selection change caught :: frames)

theorem decideRestore_segment (hidle : s.busy = false) (selection : WorkspaceRootsSelection)
    (previous : PreviousWorkspaceRoots) (memberships : List WorkspaceMembership) (frames : List Frame) :
    Segment s (held frames) (s.decideRestore N refuses selection previous memberships frames) := by
  unfold decideRestore
  split
  · exact .inl ((answer_keeps _ _).of_same ⟨rfl, rfl, rfl, rfl⟩)
  split
  · exact .inl (answer_keeps _ _)
  split
  · split
    · exact .inl (answer_keeps _ _)
    · exact .inl ((answer_keeps _ _).of_same ⟨rfl, rfl, rfl, rfl⟩)
  · exact .inr ⟨hidle, rfl, rfl, rfl, List.append_nil _⟩

variable {N refuses} in
/-- An order that is seeded leaves the lock alone. -/
theorem seedOrder_same {selection : WorkspaceRootsSelection} {previous : PreviousWorkspaceRoots}
    (h : s.seedOrder N refuses selection previous = .ok s') : SameLock s s' := by
  unfold seedOrder at h
  cases hseed : s.order.seed N refuses s.storage selection.hostIdentity ⟨previous.rootOrder⟩ with
  | error error =>
    rw [hseed] at h
    cases h
  | ok seeded =>
    rw [hseed] at h
    cases seeded with
    | none =>
      cases h
      exact ⟨rfl, rfl, rfl, rfl⟩
    | some written =>
      cases h
      exact ⟨rfl, rfl, rfl, rfl⟩

theorem restorePrevious_segment (hidle : s.busy = false) (selection : WorkspaceRootsSelection)
    (memberships : List WorkspaceMembership) (frames : List Frame) :
    Segment s (held frames) (s.restorePrevious N refuses selection memberships frames) := by
  unfold restorePrevious
  split
  · exact .inl (answer_keeps _ _)
  split
  · exact .inl (answer_keeps _ _)
  · next s' hseed =>
    have hsame := seedOrder_same hseed
    exact (decideRestore_segment N refuses (hsame.busy.trans hidle) _ _ _ _).of_same hsame

theorem listed_segment (epoch generation sequence : Nat)
    (frames : List Frame) (reply : Except Text (List WorkspaceMembership)) :
    Segment s (held frames) (s.listed N refuses selection epoch generation sequence frames reply) := by
  unfold listed
  split
  · exact .inl (answer_keeps _ _)
  cases reply with
  | error error => exact .inl ((answer_keeps _ _).of_same ⟨rfl, rfl, rfl, rfl⟩)
  | ok memberships =>
    dsimp only
    split
    · exact .inl ((answer_keeps _ _).of_same ⟨rfl, rfl, rfl, rfl⟩)
    · next hbusy =>
      have hidle : s.busy = false := by simpa using hbusy
      split
      · exact .inl (list_keeps frames)
      split
      · have hsame : SameLock s { s.accept memberships with restoreDue := false } := ⟨rfl, rfl, rfl, rfl⟩
        exact (restorePrevious_segment N refuses (hsame.busy.trans hidle) selection memberships
          frames).of_same hsame
      · exact .inl ((answer_keeps _ _).of_same ⟨rfl, rfl, rfl, rfl⟩)

theorem restored_same (missing : Nat)
    (latest : List WorkspaceMembership) : SameLock s (s.restored N refuses selection missing latest) := by
  unfold restored
  split <;> exact ⟨rfl, rfl, rfl, rfl⟩

theorem rootAdded_keeps (operation : Operation) (rest : List Text)
    (missing : Nat) (latest : List WorkspaceMembership) (frames : List Frame)
    (reply : Except Text (List WorkspaceMembership)) :
    Keeps s (operation :: held frames)
      (s.rootAdded N refuses selection operation rest missing latest frames reply) := by
  unfold rootAdded
  cases reply with
  | error error =>
    dsimp only
    split
    · exact superseded_keeps _ _ _ (.finishing operation :: frames)
    · exact (answer_keeps _ (.finishing operation :: frames)).of_same ⟨rfl, rfl, rfl, rfl⟩
  | ok memberships =>
    dsimp only
    split
    · exact superseded_keeps _ _ _ (.finishing operation :: frames)
    · cases rest with
      | nil =>
        exact (answer_keeps _ (.finishing operation :: frames)).of_same
          (restored_same N refuses selection missing memberships)
      | cons root rest => exact ⟨rfl, rfl, rfl, List.append_nil _⟩

theorem mutated_keeps (operation : Operation) (change : Change)
    (success : Text) (reply : Except Text (List WorkspaceMembership)) :
    Keeps s [operation] (s.mutated selection operation change success reply) := by
  unfold mutated
  cases reply with
  | error error =>
    dsimp only
    split
    · exact superseded_keeps _ _ _ [.finishing operation]
    · exact (answer_keeps _ [.finishing operation]).of_same ⟨rfl, rfl, rfl, rfl⟩
  | ok memberships =>
    dsimp only
    split
    · exact superseded_keeps _ _ _ [.finishing operation]
    · exact (answer_keeps _ [.finishing operation]).of_same ⟨rfl, rfl, rfl, rfl⟩

/-- The `finally` of an operation: it is off the list, and off the lock. -/
structure Finishes (s : State) (done : Operation) (operations : List Operation) (r : Ran) : Prop where
  epoch : r.1.epoch = s.epoch
  operation : r.1.operation = if s.operation = some done then none else s.operation
  mutating : r.1.state.mutating = if done.epoch = s.epoch then false else s.state.mutating
  held : r.held = operations

theorem finish_finishes (operation : Operation) (outcome : Except Text Unit) (frames : List Frame) :
    Finishes s operation (held frames) (s.finish operation outcome frames) := by
  unfold finish
  dsimp only
  split
  · next hepoch =>
    obtain ⟨h₁, h₂, h₃, h₄⟩ := flushRelist_keeps (s := { s with
      generation := s.generation + 1
      operation := if s.operation = some operation then none else s.operation
      state := { s.state with mutating := false } }) (.resuming outcome :: frames)
    exact ⟨h₁, h₂, by rw [if_pos hepoch]; exact h₃, h₄⟩
  · next hepoch =>
    obtain ⟨h₁, h₂, h₃, h₄⟩ := answer_keeps (s := { s with
      generation := s.generation + 1
      operation := if s.operation = some operation then none else s.operation }) outcome frames
    exact ⟨h₁, h₂, by rw [if_neg hepoch]; exact h₃, h₄⟩

theorem resume_keeps (outcome : Except Text Unit) {frames : List Frame}
    (h : ∀ operation more, frames ≠ .finishing operation :: more) :
    Keeps s (held frames) (s.resume outcome frames) := by
  unfold resume
  split
  · exact ⟨rfl, rfl, rfl, rfl⟩
  · exact absurd rfl (h _ _)
  · next pending frames =>
    show Keeps s (held frames) _
    cases outcome with
    | ok => exact answer_keeps pending frames
    | error error => exact answer_keeps _ frames
  · next selection change caught frames =>
    show Keeps s (held frames) _
    cases outcome with
    | ok =>
      refine (answer_keeps (.ok ()) frames).of_same ?_
      unfold settled
      cases change <;> exact ⟨rfl, rfl, rfl, rfl⟩
    | error error =>
      dsimp only
      split
      · exact answer_keeps _ _
      · exact superseded_keeps _ _ _ _

/-- A call of the client outside `select`. -/
theorem refresh_keeps : Keeps s [] s.refresh := by
  unfold refresh
  split
  · exact ⟨rfl, rfl, rfl, rfl⟩
  · exact (list_keeps []).of_same ⟨rfl, rfl, rfl, rfl⟩

theorem mutate_starts (hidle : s.busy = false) (selection : WorkspaceRootsSelection) (change : Change)
    (success : Text) : Starts s [] (s.mutate selection change success) :=
  ⟨hidle, rfl, rfl, rfl, rfl⟩

theorem addRoot_segment (raw : Text) (home : Option Text) : Segment s [] (s.addRoot raw home) := by
  unfold addRoot
  split
  · exact .inl ⟨rfl, rfl, rfl, rfl⟩
  split
  · exact .inl ⟨rfl, rfl, rfl, rfl⟩
  · next hbusy =>
    dsimp only
    split
    · exact .inl ⟨rfl, rfl, rfl, rfl⟩
    · exact .inr (mutate_starts (by simpa using hbusy) _ _ _)

theorem removeRoot_segment (path : Text) : Segment s [] (s.removeRoot path) := by
  unfold removeRoot
  split
  · exact .inl ⟨rfl, rfl, rfl, rfl⟩
  split
  · exact .inl ⟨rfl, rfl, rfl, rfl⟩
  · next hbusy => exact .inr (mutate_starts (by simpa using hbusy) _ _ _)

theorem moveRoot_keeps (path : Text) (direction : Direction) (home : Option Text) :
    Keeps s [] (s.moveRoot N refuses path direction home, none) := by
  unfold moveRoot
  split
  · split
    · exact ⟨rfl, rfl, rfl, rfl⟩
    · unfold moved
      dsimp only
      split <;> exact ⟨rfl, rfl, rfl, rfl⟩
  · exact ⟨rfl, rfl, rfl, rfl⟩

/-- A selection starts an epoch in which no change runs yet. -/
structure Selects (s : State) (r : Ran) : Prop where
  epoch : r.1.epoch = s.epoch + 1
  operation : r.1.operation = s.operation
  mutating : r.1.state.mutating = false
  held : r.held = []

theorem Selects.of_keeps {r : Ran} (hr : Keeps s' [] r) (hepoch : s'.epoch = s.epoch + 1)
    (hoperation : s'.operation = s.operation) (hmutating : s'.state.mutating = false) : Selects s r :=
  ⟨hr.epoch.trans hepoch, hr.operation.trans hoperation, hr.mutating.trans hmutating, hr.held⟩

theorem select_selects (selection : Option WorkspaceRootsSelection) : Selects s (s.select selection) := by
  unfold select
  cases selection with
  | none => exact ⟨rfl, rfl, rfl, rfl⟩
  | some next =>
    dsimp only
    split
    · exact .of_keeps refresh_keeps rfl rfl rfl
    · exact .of_keeps refresh_keeps rfl rfl rfl

end State

/-! ## Every run -/

namespace App

def held (app : App) : List Operation := app.parked.flatMap Parked.held

/-- Of the operations of the current epoch just the one that holds the lock is running,
and `mutating` says so. -/
structure Locked (app : App) : Prop where
  holder : app.held.filter (·.epoch = app.s.epoch) = app.s.holder
  past : ∀ operation ∈ app.held, operation.epoch ≤ app.s.epoch
  operation : ∀ operation, app.s.operation = some operation → operation.epoch ≤ app.s.epoch
  mutating : app.s.state.mutating = app.s.busy

variable {app app' : App} {before after operations : List Operation} {r : State.Ran}

theorem holder_idle {s : State} (h : s.busy = false) : s.holder = [] := by
  unfold State.busy at h
  unfold State.holder
  cases hoperation : s.operation with
  | none => rfl
  | some operation =>
    rw [hoperation, Option.any_some] at h
    rw [Option.toList_some, List.filter_cons_of_neg (by simp [h]), List.filter_nil]

theorem Locked.keeps (h : app.Locked) (hheld : app.held = before ++ operations ++ after)
    (hr : State.Keeps app.s operations r) (hs : app'.s = r.1)
    (hheld' : app'.held = before ++ r.held ++ after) : app'.Locked := by
  have hsame : app'.held = app.held := by rw [hheld', hheld, hr.held]
  have hholder : app'.s.holder = app.s.holder := by
    unfold State.holder
    rw [hs, hr.operation, hr.epoch]
  have hbusy : app'.s.busy = app.s.busy := by
    unfold State.busy
    rw [hs, hr.operation, hr.epoch]
  have hepoch : app'.s.epoch = app.s.epoch := hs ▸ hr.epoch
  refine ⟨?_, ?_, ?_, ?_⟩
  · rw [hsame, hepoch, hholder]
    exact h.holder
  · rw [hsame, hepoch]
    exact h.past
  · rw [hepoch, hs, hr.operation]
    exact h.operation
  · rw [hbusy, hs, hr.mutating]
    exact h.mutating

theorem Locked.starts (h : app.Locked) (hheld : app.held = before ++ operations ++ after)
    (hr : State.Starts app.s operations r) (hs : app'.s = r.1)
    (hheld' : app'.held = before ++ r.held ++ after) : app'.Locked := by
  have hepoch : app'.s.epoch = app.s.epoch := hs ▸ hr.epoch
  have hoperation : app'.s.operation = some ⟨app.s.epoch, app.s.generation + 1⟩ := hs ▸ hr.operation
  have hnone : (before ++ operations ++ after).filter (·.epoch = app.s.epoch) = [] := by
    rw [← hheld, h.holder]
    exact holder_idle hr.idle
  have hmem : ∀ operation ∈ app'.held,
      operation = ⟨app.s.epoch, app.s.generation + 1⟩ ∨ operation ∈ app.held := by
    intro operation ho
    rw [hheld', hr.held] at ho
    rw [hheld]
    simp only [List.mem_append, List.mem_cons] at ho ⊢
    tauto
  refine ⟨?_, ?_, ?_, ?_⟩
  · rw [hheld', hr.held, hepoch]
    unfold State.holder
    rw [hoperation, hepoch]
    simp only [List.filter_append, List.append_eq_nil_iff] at hnone
    simp [hnone.1.1, hnone.1.2, hnone.2]
  · intro operation ho
    rw [hepoch]
    rcases hmem operation ho with rfl | ho
    · exact le_rfl
    · exact h.past operation ho
  · intro operation ho
    rw [hoperation] at ho
    cases ho
    exact hepoch.ge
  · rw [hs, hr.mutating]
    unfold State.busy
    rw [hr.operation, hr.epoch]
    simp

theorem Locked.segment (h : app.Locked) (hheld : app.held = before ++ operations ++ after)
    (hr : State.Segment app.s operations r) (hs : app'.s = r.1)
    (hheld' : app'.held = before ++ r.held ++ after) : app'.Locked :=
  hr.elim (h.keeps hheld · hs hheld') (h.starts hheld · hs hheld')

theorem Locked.finishes {done : Operation} (h : app.Locked)
    (hheld : app.held = before ++ done :: operations ++ after)
    (hr : State.Finishes app.s done operations r) (hs : app'.s = r.1)
    (hheld' : app'.held = before ++ r.held ++ after) : app'.Locked := by
  have hepoch : app'.s.epoch = app.s.epoch := hs ▸ hr.epoch
  have hholder := h.holder
  rw [hheld] at hholder
  have hpast : ∀ operation ∈ app'.held, operation.epoch ≤ app'.s.epoch := by
    intro operation ho
    rw [hepoch]
    refine h.past operation ?_
    rw [hheld', hr.held] at ho
    rw [hheld]
    simp only [List.mem_append, List.mem_cons] at ho ⊢
    tauto
  by_cases hcurrent : done.epoch = app.s.epoch
  · -- the operation is the one of the current epoch, and so the one that holds the lock
    have hlock : app.s.operation = some done := by
      have hmem : done ∈ app.s.holder := by
        rw [← hholder]
        simp [hcurrent]
      have := (List.mem_filter.mp hmem).1
      rwa [Option.mem_toList] at this
    have hnone : app'.s.operation = none := by rw [hs, hr.operation, if_pos hlock]
    have hsingle : (before.filter (·.epoch = app.s.epoch)).length +
        ((operations.filter (·.epoch = app.s.epoch)).length +
          (after.filter (·.epoch = app.s.epoch)).length + 1) = 1 := by
      have hlength := congrArg List.length hholder
      unfold State.holder at hlength
      rw [hlock] at hlength
      simpa [List.filter_append, List.filter_cons, hcurrent] using hlength
    refine ⟨?_, hpast, ?_, ?_⟩
    · rw [hheld', hr.held, hepoch]
      unfold State.holder
      rw [hnone]
      refine List.length_eq_zero_iff.mp ?_
      simp only [List.filter_append, List.length_append]
      omega
    · intro operation ho
      rw [hnone] at ho
      cases ho
    · rw [hs, hr.mutating, if_pos hcurrent]
      unfold State.busy
      rw [← hs, hnone]
      rfl
  · -- the operation is of an earlier epoch: what it gives back is nobody's
    have hother : app.s.operation = some done → app.s.holder = [] := by
      intro hlock
      unfold State.holder
      rw [hlock, Option.toList_some, List.filter_cons_of_neg (by simpa using hcurrent), List.filter_nil]
    have hkept : app'.s.holder = app.s.holder := by
      by_cases hlock : app.s.operation = some done
      · rw [hother hlock]
        unfold State.holder
        rw [hs, hr.operation, if_pos hlock]
        rfl
      · unfold State.holder
        rw [hs, hr.operation, if_neg hlock, hr.epoch]
    have hbusy : app'.s.busy = app.s.busy := by
      unfold State.busy
      rw [hs, hr.operation, hr.epoch]
      by_cases hlock : app.s.operation = some done
      · rw [if_pos hlock, hlock]
        simp [hcurrent]
      · rw [if_neg hlock]
    refine ⟨?_, hpast, ?_, ?_⟩
    · rw [hkept, hheld', hr.held, hepoch, ← hholder]
      simp [List.filter_append, hcurrent]
    · intro operation ho
      rw [hs, hr.operation] at ho
      split at ho
      · cases ho
      · rw [hepoch]
        exact h.operation operation ho
    · rw [hbusy, hs, hr.mutating, if_neg hcurrent]
      exact h.mutating

theorem Locked.selects (h : app.Locked) (hr : State.Selects app.s r) (hs : app'.s = r.1)
    (hheld' : app'.held = app.held ++ r.held) : app'.Locked := by
  have hepoch : app'.s.epoch = app.s.epoch + 1 := hs ▸ hr.epoch
  have hheld : app'.held = app.held := by rw [hheld', hr.held, List.append_nil]
  have hbusy : app'.s.busy = false := by
    unfold State.busy
    rw [hepoch, hs, hr.operation]
    cases hoperation : app.s.operation with
    | none => rfl
    | some operation =>
      have := h.operation operation hoperation
      simp only [Option.any_some, decide_eq_false_iff_not]
      omega
  refine ⟨?_, ?_, ?_, ?_⟩
  · rw [holder_idle hbusy, hheld, hepoch]
    refine List.filter_eq_nil_iff.mpr fun operation ho => ?_
    have := h.past operation ho
    simp only [decide_eq_true_eq]
    omega
  · intro operation ho
    rw [hheld] at ho
    rw [hepoch]
    exact Nat.le_succ_of_le (h.past operation ho)
  · intro operation ho
    rw [hs, hr.operation] at ho
    rw [hepoch]
    exact Nat.le_succ_of_le (h.operation operation ho)
  · rw [hbusy, hs, hr.mutating]

theorem held_ran : (app.ran r).held = app.held ++ [] ++ r.held := by
  unfold ran held State.Ran.held
  rw [List.flatMap_append, List.append_nil]

/-- What is held before and after what is parked at `i`. -/
theorem held_at {i : Nat} {p : Parked} (h : app.parked[i]? = some p) :
    app.held = (app.parked.take i).flatMap Parked.held ++ p.held ++
      (app.parked.drop (i + 1)).flatMap Parked.held := by
  obtain ⟨hi, hp⟩ := List.getElem?_eq_some_iff.mp h
  have hparked : app.parked = app.parked.take i ++ p :: app.parked.drop (i + 1) := by
    rw [← hp, List.getElem_cons_drop hi, List.take_append_drop]
  unfold held
  conv_lhs => rw [hparked]
  rw [List.flatMap_append, List.flatMap_cons, List.append_assoc]

theorem held_ranAt {i : Nat} : (app.ranAt i r).held = (app.parked.take i).flatMap Parked.held ++ r.held ++
    (app.parked.drop (i + 1)).flatMap Parked.held := by
  unfold ranAt held State.Ran.held
  rw [List.flatMap_append, List.flatMap_append]

variable {N : Type} [JsInteger N] {refuses : Refusals}

theorem Locked.replied (h : app.Locked) (i : Nat) (outcome : Except Text (List WorkspaceMembership)) :
    (app.replied N refuses i outcome).Locked := by
  unfold App.replied
  split
  · next hp => exact h.segment (held_at hp) (State.listed_segment N refuses _ _ _ _ _ _) rfl held_ranAt
  · next hp => exact h.keeps (held_at hp) (State.rootAdded_keeps N refuses _ _ _ _ _ _ _) rfl held_ranAt
  · next hp => exact h.keeps (held_at hp) (State.mutated_keeps _ _ _ _ _) rfl held_ranAt
  · exact h

theorem Locked.resumed (h : app.Locked) (i : Nat) : (app.resumed i).Locked := by
  unfold App.resumed
  split
  · next outcome frames hp =>
    by_cases hfinish : ∃ operation more, frames = .finishing operation :: more
    · obtain ⟨operation, more, rfl⟩ := hfinish
      exact h.finishes (held_at hp) (State.finish_finishes operation outcome more) rfl held_ranAt
    · have hother : ∀ operation more, frames ≠ .finishing operation :: more :=
        fun operation more heq => hfinish ⟨operation, more, heq⟩
      exact h.keeps (held_at hp) (State.resume_keeps outcome hother) rfl held_ranAt
  · exact h

/-- A process that starts. -/
theorem launch_locked (storage : Storage) (log : List Event) :
    (App.mk (launch N refuses storage log) []).Locked := by
  refine ⟨rfl, fun operation ho => ?_, fun operation ho => ?_, rfl⟩
  · cases ho
  · cases ho

theorem Locked.ran (h : app.Locked) (hr : State.Segment app.s [] r) : (app.ran r).Locked := by
  have hheld : app.held = app.held ++ [] ++ [] := by rw [List.append_nil, List.append_nil]
  refine h.segment hheld hr rfl ?_
  rw [held_ran, List.append_nil, List.append_nil]

/-- A call that parks nothing. -/
theorem Locked.same {s : State} (h : app.Locked) (hr : State.Keeps app.s [] (s, none)) :
    (App.mk s app.parked).Locked := by
  have hheld : app.held = app.held ++ [] ++ [] := by rw [List.append_nil, List.append_nil]
  exact h.keeps hheld hr rfl hheld

theorem Locked.step (h : app.Locked) (action : Action) : (app.step N refuses action).Locked := by
  cases action with
  | restart => exact launch_locked _ _
  | select selection =>
    exact h.selects (State.select_selects selection) rfl (held_ran.trans (by rw [List.append_nil]))
  | refresh => exact h.ran (.inl State.refresh_keeps)
  | addRoot raw home => exact h.ran (State.addRoot_segment raw home)
  | removeRoot path => exact h.ran (State.removeRoot_segment path)
  | moveRoot path direction home => exact h.same (State.moveRoot_keeps N refuses path direction home)
  | clearMessages => exact h.same ⟨rfl, rfl, rfl, rfl⟩
  | reply i outcome => exact h.replied i outcome
  | resume i => exact h.resumed i
  | damageOrder text => exact h.same ⟨rfl, rfl, rfl, rfl⟩
  | damageRestored text => exact h.same ⟨rfl, rfl, rfl, rfl⟩

end App

end PocketShell.Workspaces
