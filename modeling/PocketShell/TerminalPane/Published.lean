import PocketShell.TerminalPane.Pane

/-!
# What a pane publishes

The entries of a pane in the shells registry, against the requests it made. `read` is what is
compared of two targets: the key, or the whole target.

* `Published`: one entry at most, under a key that names the target its shell was asked for, of a
  shell that lives, and none while a switch is under way. A composer writes into such shells only.
* `Timely`: the answers at which no slip of `showTarget` breaks this. The target is read again
  after the `await`.
* `published_timely`: a run of such answers.
-/

namespace PocketShell.TerminalPane

open Js (Text ascii)

/-! ## 1. What must hold -/

/-- The shell was answered for what `key` names, as far as `read` tells. -/
def Answered {α : Type} (read : Target → α) (answers : List (ShellId × Target)) (key : Text)
    (named : Option Target) (id : ShellId) : Prop :=
  ∃ shown target, named = some shown ∧ shown.registryKey = key ∧ (id, target) ∈ answers ∧
    read target = read shown

structure Published {α : Type} (read : Target → α) (s : State) : Prop where
  one : ∀ key key' entry entry', s.registry key = some entry → entry.mine → s.registry key' = some entry' →
    entry'.mine → key = key'
  /-- The shell was answered for the target the key names, and has not been reported exited. -/
  own : ∀ key entry, s.registry key = some entry → entry.mine →
    Answered read s.history.answers key s.history.named entry.shellId ∧
      entry.shellId ∉ s.history.exits
  switching : s.request.isSome → ∀ key entry, s.registry key = some entry → ¬ entry.mine
  composed : ∀ key named id, (key, named, id) ∈ s.history.composed →
    Answered read s.history.answers key named id

/-- The target reads as the one the shell was asked for, and the shell still lives. -/
def Timely {α : Type} (read : Target → α) (s : State) : Action → Prop
  | .attached id _ => ∀ request, s.request = some request → s.term = true →
    s.target.registryKey ≠ [] → read request.target = read s.target ∧ id ∉ s.history.exits
  | _ => True

/-! ## 2. What the pane keeps -/

variable {α : Type} {read : Target → α}

theorem Answered.later {answers : List (ShellId × Target)} {key : Text} {named : Option Target} {id : ShellId}
    (h : Answered read answers key named id) (new : List (ShellId × Target)) :
    Answered read (new ++ answers) key named id := by
  obtain ⟨shown, target, hnamed, hkey, hanswer, hread⟩ := h
  exact ⟨shown, target, hnamed, hkey, List.mem_append_right new hanswer, hread⟩

variable (read) in
/-- An entry of the pane is the one it knows of, and the streams of its shell are bound. -/
structure Inv (s : State) : Prop where
  mine : ∀ key entry, s.registry key = some entry → entry.mine →
    s.registeredKey = some key ∧ s.shellId = some entry.shellId ∧ s.request = none ∧
      Answered read s.history.answers key s.history.named entry.shellId
  alive : ∀ key entry, s.registry key = some entry → entry.mine → entry.shellId ∉ s.history.exits
  bound : s.shellId ≠ none → s.bound = true ∧ s.term = true
  previous : ∀ request, s.request = some request → s.term = true → request.previousId = s.shellId
  composed : ∀ key named id, (key, named, id) ∈ s.history.composed →
    Answered read s.history.answers key named id

theorem Inv.published {s : State} (hs : Inv read s) : Published read s := by
  refine ⟨fun key key' entry entry' h hmine h' hmine' => ?_, fun key entry h hmine => ?_,
    fun hrequest key entry h hmine => ?_, hs.composed⟩
  · have hkey := (hs.mine key entry h hmine).1
    have hkey' := (hs.mine key' entry' h' hmine').1
    exact Option.some.inj (hkey.symm.trans hkey')
  · exact ⟨(hs.mine key entry h hmine).2.2.2, hs.alive key entry h hmine⟩
  · rw [(hs.mine key entry h hmine).2.2.1] at hrequest
    exact absurd hrequest (by simp)

/-- What the invariant reads. -/
def State.core (s : State) :=
  (s.registry, s.registeredKey, s.shellId, s.request, s.bound, s.term, s.history.answers, s.history.exits,
    s.history.named, s.history.composed)

/-- The fields the invariant reads are as before. -/
def Same (s s' : State) : Prop := s'.core = s.core

namespace Same

variable {s s' s'' : State}

theorem trans (h : Same s s') (h' : Same s' s'') : Same s s'' := Eq.trans h' h

theorem inv (h : Same s s') (hs : Inv read s) : Inv read s' := by
  simp only [Same, State.core, Prod.mk.injEq] at h
  obtain ⟨hregistry, hregistered, hshell, hrequest, hbound, hterm, hanswers, hexits, hnamed, hcomposed⟩ := h
  refine ⟨?_, ?_, ?_, ?_, ?_⟩
  · rw [hregistry, hregistered, hshell, hrequest, hanswers, hnamed]
    exact hs.mine
  · rw [hregistry, hexits]
    exact hs.alive
  · rw [hshell, hbound, hterm]
    exact hs.bound
  · rw [hshell, hrequest, hterm]
    exact hs.previous
  · rw [hcomposed, hanswers]
    exact hs.composed

theorem openTarget (s : State) (rejoin : Option Nat) : Same s (s.openTarget rejoin) := rfl

theorem openOver (s : State) (opening : Opening) (now : Int) : Same s (s.openOver opening now) := by
  unfold State.openOver
  split
  · exact rfl
  · split
    · exact rfl
    · split <;> exact rfl

theorem input (s : State) (data : Text) : Same s (s.input data) := by
  unfold State.input
  split
  · exact rfl
  · exact rfl

theorem expectIntentionalDetach (s : State) : Same s s.expectIntentionalDetach := by
  unfold State.expectIntentionalDetach
  dsimp only
  split <;> exact rfl

theorem rested (s : State) (now : Int) : Same s (s.rested now) := by
  unfold State.rested
  split
  · exact rfl
  · exact rfl

theorem askHost (s : State) (exit : Nat) (id : ShellId) : Same s (s.askHost exit id) := by
  unfold State.askHost
  split
  · exact rfl
  · split <;> exact rfl

theorem rejoinAfterClientExit (s : State) (exit : Nat) (id : ShellId) (now : Int) :
    Same s (s.rejoinAfterClientExit exit id now) := by
  unfold State.rejoinAfterClientExit
  split
  · exact rfl
  · exact (rested s now).trans (askHost _ exit id)

theorem finishClientExit (s : State) (exit : Nat) (id : ShellId) (now : Int) :
    Same s (s.finishClientExit exit id now) := by
  have hjudged : Same s (s.addLog (.judged exit now)) := rfl
  unfold State.finishClientExit
  dsimp only
  split
  · exact rfl
  · split
    · exact hjudged.trans (rejoinAfterClientExit _ exit id now)
    · exact rfl

theorem clientExited (s : State) (exit : Nat) (id : ShellId) (now : Int) :
    Same s (s.clientExited exit id now) := by
  have hfinish : ∀ t : State, Same s t → Same s (t.finishClientExit exit id now) :=
    fun t ht => ht.trans (finishClientExit t exit id now)
  unfold State.clientExited
  split
  · exact finishClientExit s exit id now
  · split
    · exact hfinish _ rfl
    · split
      · exact rfl
      · exact hfinish _ rfl

theorem detachSettled (s : State) (timedOut : Bool) (now : Int) :
    Same s (s.detachSettled timedOut now) := by
  unfold State.detachSettled
  split
  · exact rfl
  · split
    · unfold State.detachConfirmed
      split
      · exact rfl
      · refine trans ?_ (finishClientExit _ _ _ _)
        exact rfl
    · exact rfl

theorem fitFrame (s : State) (visible plausibleGrid : Bool) : Same s (s.fitFrame visible plausibleGrid) := by
  unfold State.fitFrame
  split
  · exact rfl
  · dsimp only
    split
    · exact rfl
    · split <;> exact rfl

theorem reconcileTick (s : State) (visible : Bool) : Same s (s.reconcileTick visible) := by
  unfold State.reconcileTick
  split
  · exact rfl
  · split
    · exact rfl
    · exact rfl

theorem parseStalled (s : State) (recovering : Bool) (now : Int) :
    Same s (s.parseStalled recovering now) := by
  unfold State.parseStalled
  split
  · exact rfl
  · split
    · exact rfl
    · exact rfl

theorem hostAnswered (s : State) (exit : Nat) (id : ShellId) (owner : Owner) (outlived : Bool) :
    Same s (s.hostAnswered exit id owner outlived) := by
  unfold State.hostAnswered
  dsimp only
  split
  · exact rfl
  · split <;> exact rfl

theorem probed (s : State) (id : ShellId) (far : GeometryProbe) (now : Int) :
    Same s (s.probed id far now) := by
  unfold State.probed
  split
  · exact rfl
  · cases far with
    | bare => exact rfl
    | dead =>
      dsimp only
      unfold State.scheduleRejoin
      dsimp only
      split <;> exact rfl
    | client => exact rfl

theorem resume (s : State) (call : Call) (answer : Answer) (now : Int) :
    Same s (s.resume call answer now) := by
  have hclosed : ∀ exit id owner, Same s (s.closedForRejoin exit id owner) := by
    intro exit id owner
    unfold State.closedForRejoin
    split
    · exact openTarget s _
    · exact rfl
  unfold State.resume
  split
  · exact hostAnswered s _ _ _ _
  · exact hostAnswered s _ _ _ _
  · exact hclosed _ _ _
  · exact hclosed _ _ _
  · unfold State.closedForRepair
    split
    · exact openTarget s _
    · exact rfl
  · refine trans ?_ (probed _ _ _ _)
    exact rfl
  · exact rfl
  · exact rfl

theorem replied (s : State) (id : Nat) (answer : Answer) (now : Int) :
    Same s (s.replied id answer now) := by
  unfold State.replied
  split
  · exact rfl
  · refine trans ?_ (resume _ _ answer now)
    exact rfl

end Same

/-! ## 3. The registry -/

namespace Registry

variable {r : Registry} {key key' : Text} {entry : Registration}

theorem register_some {id : ShellId} {mine : Bool} (h : r.register key id mine key' = some entry) :
    r key' = some entry ∨ key' = key ∧ key ≠ [] ∧ entry = ⟨id, mine⟩ := by
  unfold register at h
  split at h
  · exact .inl h
  · rename_i hkey
    dsimp only at h
    split at h
    · rename_i heq
      exact .inr ⟨heq, hkey, (Option.some.inj h).symm⟩
    · exact .inl h

theorem unregister_some {id : Option ShellId} (h : r.unregister key id key' = some entry) :
    r key' = some entry := by
  unfold unregister at h
  cases hcurrent : r key with
  | none =>
    rw [hcurrent] at h
    exact h
  | some current =>
    rw [hcurrent] at h
    dsimp only at h
    split at h
    · exact h
    · dsimp only at h
      split at h
      · cases h
      · exact h

/-- An entry is dropped by its key and its shell. -/
theorem unregister_own (h : r key = some entry) : r.unregister key (some entry.shellId) key = none := by
  unfold unregister
  rw [h]
  simp

end Registry

/-! ## 4. Switches, exits and others -/

section Steps

variable {s : State}

/-- No entry is the pane's. -/
def NoneMine (s : State) : Prop := ∀ key entry, s.registry key = some entry → ¬ entry.mine

theorem inv_of_none {s' : State} (hnone : NoneMine s')
    (hbound : s'.shellId ≠ none → s'.bound = true ∧ s'.term = true)
    (hprevious : ∀ request, s'.request = some request → s'.term = true → request.previousId = s'.shellId)
    (hcomposed : ∀ key named id, (key, named, id) ∈ s'.history.composed →
      Answered read s'.history.answers key named id) : Inv read s' :=
  ⟨fun key entry h hmine => absurd hmine (hnone key entry h),
    fun key entry h hmine => absurd hmine (hnone key entry h), hbound, hprevious, hcomposed⟩

theorem retract_none (hs : Inv read s) : NoneMine (s.retract s.shellId) := by
  unfold State.retract
  split
  · rename_i hkey
    intro key entry h hmine
    rw [(hs.mine key entry h hmine).1] at hkey
    cases hkey
  · rename_i known hknown
    intro key entry h hmine
    have hold : s.registry key = some entry := Registry.unregister_some h
    obtain ⟨hkey, hshell, -⟩ := hs.mine key entry hold hmine
    obtain rfl := Option.some.inj (hkey.symm.trans hknown)
    have hdropped := Registry.unregister_own hold
    rw [← hshell] at hdropped
    exact absurd (hdropped.symm.trans h) (by simp)

@[simp] theorem retract_shellId (s : State) (id : Option ShellId) : (s.retract id).shellId = s.shellId := by
  unfold State.retract
  split <;> rfl

@[simp] theorem retract_bound (s : State) (id : Option ShellId) : (s.retract id).bound = s.bound := by
  unfold State.retract
  split <;> rfl

@[simp] theorem retract_term (s : State) (id : Option ShellId) : (s.retract id).term = s.term := by
  unfold State.retract
  split <;> rfl

@[simp] theorem retract_request (s : State) (id : Option ShellId) :
    (s.retract id).request = s.request := by
  unfold State.retract
  split <;> rfl

@[simp] theorem retract_history (s : State) (id : Option ShellId) :
    (s.retract id).history = s.history := by
  unfold State.retract
  split <;> rfl

theorem retract_registry (s : State) (id : Option ShellId) (request : Option Request) :
    (State.retract { s with request } id).registry = (s.retract id).registry := by
  unfold State.retract
  dsimp only
  split <;> rfl

theorem inv_turn (hs : Inv read s) : Inv read s.turn := by
  unfold State.turn
  split
  · rename_i opening rest _ _
    have hchain : Inv read (s.withChain rest) := Same.inv (s := s) rfl hs
    unfold State.showTarget
    split
    · exact hchain
    · refine inv_of_none ?_ ?_ ?_ ?_
      · have hnone := retract_none hchain
        unfold NoneMine at hnone ⊢
        rw [retract_registry]
        exact hnone
      · rw [retract_shellId, retract_bound, retract_term]
        exact hs.bound
      · intro request hrequest _
        rw [retract_request] at hrequest
        obtain rfl := Option.some.inj hrequest
        rw [retract_shellId]
      · rw [retract_history]
        exact hs.composed
  · exact hs

theorem none_of_request (hs : Inv read s) {request : Request} (h : s.request = some request) : NoneMine s := by
  intro key entry hentry hmine
  rw [(hs.mine key entry hentry hmine).2.2.1] at h
  cases h

theorem inv_attachFailed (hs : Inv read s) (now : Int) : Inv read (s.attachFailed now) := by
  unfold State.attachFailed
  split
  · exact hs
  · rename_i request hrequest
    refine (Same.openOver _ request.opening now).inv ?_
    have hnone := none_of_request hs hrequest
    exact inv_of_none hnone (fun h => absurd rfl h) (fun _ h => by cases h) hs.composed

/-- After `adoptShell` the answered shell is on screen, and its streams are bound. -/
theorem adoptShell_shown (hs : Inv read s) {previousId : Option ShellId} (hprevious : previousId = s.shellId)
    (hterm : s.term = true) (id : ShellId) :
    (s.adoptShell previousId id).shellId = some id ∧ (s.adoptShell previousId id).bound = true ∧
      (s.adoptShell previousId id).term = true := by
  unfold State.adoptShell
  split
  · exact ⟨rfl, rfl, hterm⟩
  · rename_i hsame
    have hshown : s.shellId = some id := by rw [← hprevious, ← not_not.mp hsame]
    exact ⟨hshown, (hs.bound (by rw [hshown]; simp)).1, hterm⟩

theorem adoptShell_registry (s : State) (previousId : Option ShellId) (id : ShellId) :
    (s.adoptShell previousId id).registry = s.registry ∧
      (s.adoptShell previousId id).target = s.target ∧
      (s.adoptShell previousId id).request = s.request ∧
      (s.adoptShell previousId id).history = s.history := by
  unfold State.adoptShell
  split <;> exact ⟨rfl, rfl, rfl, rfl⟩

/-- A shell is published by a pane that has nothing published. -/
theorem inv_publish (hnone : NoneMine s) {id : ShellId} (hshell : s.shellId = some id)
    (hbound : s.bound = true) (hterm : s.term = true) (hrequest : s.request = none) (target : Target)
    (hanswer : (id, target) ∈ s.history.answers)
    (hown : s.target.registryKey ≠ [] → read target = read s.target ∧ id ∉ s.history.exits)
    (hcomposed : ∀ key named id, (key, named, id) ∈ s.history.composed →
      Answered read s.history.answers key named id) (attachedOwner : AttachedOwner) (now : Int) :
    Inv read (s.publish attachedOwner id now) := by
  refine ⟨fun key entry hentry hmine => ?_, fun key entry hentry hmine => ?_, fun _ => ⟨hbound, hterm⟩,
    fun request h => absurd (hrequest.symm.trans h) (by simp), hcomposed⟩
  · rcases Registry.register_some hentry with hold | ⟨rfl, hkey, rfl⟩
    · exact absurd hmine (hnone key entry hold)
    · exact ⟨rfl, hshell, hrequest, s.target, target, rfl, rfl, hanswer, (hown hkey).1⟩
  · rcases Registry.register_some hentry with hold | ⟨rfl, hkey, rfl⟩
    · exact absurd hmine (hnone key entry hold)
    · exact (hown hkey).2

theorem inv_attached (hs : Inv read s) (id : ShellId) (now : Int)
    (htimely : Timely read s (.attached id now)) : Inv read (s.attached id now) := by
  unfold State.attached
  split
  · exact hs
  · rename_i request hrequest
    have hnone := none_of_request hs hrequest
    have hover : Inv read (s.requestOver [(id, request.target)]) :=
      inv_of_none hnone hs.bound (fun _ h => by cases h) fun key named id h =>
        (hs.composed key named id h).later _
    unfold State.attachAnswered
    split
    · exact hover
    · rename_i hterm
      have hup' : (s.requestOver [(id, request.target)]).term = true := by simpa using hterm
      have hterm' : s.term = true := hup'
      obtain ⟨hshell, hbound, hup⟩ :=
        adoptShell_shown hover (hs.previous request hrequest hterm') hterm' id
      obtain ⟨hregistry, htarget, hidle, hhistory⟩ :=
        adoptShell_registry (s.requestOver [(id, request.target)]) request.previousId id
      refine (Same.openOver _ request.opening now).inv ?_
      refine inv_publish ?_ hshell hbound hup hidle request.target ?_ ?_ ?_ _ now
      · unfold NoneMine
        rw [hregistry]
        exact hnone
      · rw [hhistory]
        exact List.mem_cons_self
      · rw [htarget, hhistory]
        exact htimely request hrequest hterm'
      · rw [hhistory]
        exact hover.composed

theorem shellLost_none (hs : Inv read s) (id : ShellId) (hshell : s.shellId = some id) :
    NoneMine (s.shellLost id) := by
  intro key entry hentry hmine
  have hold : s.registry key = some entry := by
    unfold State.shellLost State.addLog at hentry
    cases hkey : s.registeredKey with
    | none =>
      rw [hkey] at hentry
      exact hentry
    | some known =>
      rw [hkey] at hentry
      exact Registry.unregister_some hentry
  obtain ⟨hkey, hown, -⟩ := hs.mine key entry hold hmine
  have hdropped := Registry.unregister_own hold
  obtain rfl : entry.shellId = id := Option.some.inj (hown.symm.trans hshell)
  unfold State.shellLost State.addLog at hentry
  dsimp only at hentry
  rw [hkey] at hentry
  exact absurd (hdropped.symm.trans hentry) (by simp)

theorem inv_exited (hs : Inv read s) (id : ShellId) (now : Int) : Inv read (s.exited id now) := by
  unfold State.exited
  split
  · exact hs
  · split
    · rename_i hheard
      have hshell : s.shellId = some id := by
        simp only [Bool.and_eq_true, decide_eq_true_eq] at hheard
        exact hheard.1.2
      refine (Same.clientExited _ _ id now).inv ?_
      have hnone := shellLost_none hs id hshell
      exact inv_of_none hnone hs.bound hs.previous hs.composed
    · rename_i hunheard
      refine ⟨hs.mine, fun key entry hentry hmine => ?_, hs.bound, hs.previous, hs.composed⟩
      intro hexited
      rcases List.mem_cons.mp hexited with heq | hold
      · obtain ⟨-, hshell, -⟩ := hs.mine key entry hentry hmine
        obtain ⟨hbound, hterm⟩ := hs.bound (by rw [hshell]; simp)
        refine hunheard ?_
        rw [hbound, hterm, hshell, heq]
        simp
      · exact hs.alive key entry hentry hmine hold

theorem inv_compose (hs : Inv read s) (sessionKey : Text) : Inv read (s.compose sessionKey) := by
  unfold State.compose
  split
  · exact hs
  · rename_i entry hentry
    split
    · rename_i hmine
      refine ⟨hs.mine, hs.alive, hs.bound, hs.previous, fun key named id hwritten => ?_⟩
      rcases List.mem_cons.mp hwritten with hnew | hold
      · obtain ⟨rfl, rfl, rfl⟩ := hnew
        exact (hs.mine _ entry hentry hmine).2.2.2
      · exact hs.composed key named id hold
    · exact hs

theorem inv_detach (hs : Inv read s) : Inv read s.detach := by
  have hhistory : s.detach.history = s.history := retract_history _ _
  refine inv_of_none ?_ (fun h => absurd rfl h) (fun _ _ h => by cases h) ?_
  swap
  · rw [hhistory]
    exact hs.composed
  intro key entry hentry
  have hsame : (s.retract s.shellId).registry = s.detach.registry := by
    unfold State.detach State.retract
    dsimp only
    split <;> rfl
  rw [← hsame] at hentry
  exact retract_none hs key entry hentry

end Steps

/-! ## 5. Runs -/

theorem inv_step {s : State} (hs : Inv read s) {a : Action} (htimely : Timely read s a) :
    Inv read (step s a) := by
  have hsame : ∀ t : State, Same s t → Inv read t := fun _ h => h.inv hs
  cases a with
  | setTarget target => exact hsame _ rfl
  | setLink up => exact hsame _ rfl
  | openTarget => exact hsame _ (.openTarget s none)
  | turn => exact inv_turn hs
  | attached id now => exact inv_attached hs id now htimely
  | attachFailed now => exact inv_attachFailed hs now
  | input data => exact hsame _ (.input s data)
  | acknowledge acknowledgement accepted => exact hsame _ rfl
  | expectIntentionalDetach => exact hsame _ (.expectIntentionalDetach s)
  | cancelDetachCandidate => exact hsame _ rfl
  | exited id now => exact inv_exited hs id now
  | detachSettled timedOut now => exact hsame _ (.detachSettled s timedOut now)
  | fitFrame visible plausibleGrid => exact hsame _ (.fitFrame s visible plausibleGrid)
  | reconcileTick visible => exact hsame _ (.reconcileTick s visible)
  | parseStalled recovering now => exact hsame _ (.parseStalled s recovering now)
  | reply id answer now => exact hsame _ (.replied s id answer now)
  | detach => exact inv_detach hs
  | otherRegister key id =>
    have hold : ∀ key' entry, s.registry.register key id false key' = some entry → entry.mine →
        s.registry key' = some entry := by
      intro key' entry hentry hmine
      rcases Registry.register_some hentry with hold | ⟨-, -, rfl⟩
      · exact hold
      · cases hmine
    exact ⟨fun key' entry h hmine => hs.mine key' entry (hold key' entry h hmine) hmine,
      fun key' entry h hmine => hs.alive key' entry (hold key' entry h hmine) hmine, hs.bound, hs.previous,
      hs.composed⟩
  | otherUnregister key id =>
    exact ⟨fun key' entry h => hs.mine key' entry (Registry.unregister_some h),
      fun key' entry h => hs.alive key' entry (Registry.unregister_some h), hs.bound, hs.previous,
      hs.composed⟩
  | otherClear =>
    exact ⟨fun _ _ h => (by cases h), fun _ _ h => (by cases h), hs.bound, hs.previous, hs.composed⟩
  | compose sessionKey => exact inv_compose hs sessionKey

/-- Every answer is timely. -/
def TimelyFrom {α : Type} (read : Target → α) : State → List Action → Prop
  | _, [] => True
  | s, a :: rest => Timely read s a ∧ TimelyFrom read (step s a) rest

/-- What the pane publishes is right in every state. -/
def PublishedFrom {α : Type} (read : Target → α) : State → List Action → Prop
  | s, [] => Published read s
  | s, a :: rest => Published read s ∧ PublishedFrom read (step s a) rest

theorem published_from {s : State} {actions : List Action} (hs : Inv read s)
    (h : TimelyFrom read s actions) : PublishedFrom read s actions := by
  induction actions generalizing s with
  | nil => exact hs.published
  | cons a rest ih => exact ⟨hs.published, ih (inv_step hs h.1) h.2⟩

theorem inv_start (target : Target) : Inv read { target } :=
  ⟨fun _ _ h => (by cases h), fun _ _ h => (by cases h), fun h => absurd rfl h, fun _ h => (by cases h),
    fun _ _ _ h => (by cases h)⟩

/-- In a run of timely answers the pane publishes a shell only under the target it was asked for,
and a composer writes into no other. -/
theorem published_timely {α : Type} (read : Target → α) (target : Target) (actions : List Action)
    (h : TimelyFrom read { target } actions) : PublishedFrom read { target } actions :=
  published_from (inv_start target) h

def tabA : Target := { connectionId := ascii "c", registryKey := ascii "a", session := ascii "a" }
def tabB : Target := { tabA with registryKey := ascii "b", session := ascii "b" }

/-- The pane asks for the shell of one session, and is pointed at another before the answer. -/
def switchedMeanwhile : List Action := [.openTarget, .turn, .setTarget tabB, .attached 1 0]

/-- The shell of the first session is published under the key of the second. -/
theorem other_session_published : ¬ ∀ (target : Target) (actions : List Action),
    Published Target.registryKey (run target actions) := by
  intro h
  obtain ⟨⟨shown, target, hnamed, hkey, hanswer, hread⟩, -⟩ :=
    (h tabA switchedMeanwhile).own (ascii "b") ⟨1, true⟩ (by decide) rfl
  obtain ⟨-, rfl⟩ := Prod.mk.inj (List.mem_singleton.mp hanswer)
  rw [hkey] at hread
  exact absurd hread (by decide)

theorem published_timely_exited :
    PublishedFrom id { target := tabA }
      [.openTarget, .turn, .attached 1 0, .compose (ascii "a"), .exited 1 5] := by
  refine published_timely id tabA _ ⟨trivial, trivial, ?_, trivial, trivial, trivial⟩
  intro request hrequest _ _
  obtain rfl := Option.some.inj hrequest
  exact ⟨rfl, List.not_mem_nil⟩

end PocketShell.TerminalPane
