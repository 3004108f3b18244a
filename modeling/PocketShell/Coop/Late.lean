import PocketShell.Coop.Thread

/-!
# Late answers

Calls made for the owner of a shared state, and answers that arrive once the state has gone over to
another owner.

* `Scoped`, `Board`: a program with a current owner, and the calls that wait.
* `Scoped.onTime`: a run without the answers that are late.
* `Guard`, `Thread.Idle`, `Thread.Keeps`: what the threads check before they write.
* `Scoped.unmixed`: a late answer changes nothing, and the run without it ends in the same state.
-/

namespace Coop

variable {σ Q L A C : Type} {R : Q → Type}

/-- A program whose calls are made for an owner. -/
structure Scoped (σ : Type) {Q : Type} (R : Q → Type) (L A C : Type) where
  body : A → Thread σ R L
  owner : A → Option C
  /-- Whose the state is. -/
  scope : σ → Option C

/-- A call that waits for an answer. -/
structure Waiting (σ : Type) {Q : Type} (R : Q → Type) (L C : Type) where
  owner : Option C
  /-- The state has gone over from the owner to another one since the call was made. -/
  left : Bool
  wait : (q : Q) × (R q → Thread σ R L)

/-- The shared state and the calls by their number. No call forks another. -/
structure Board (σ : Type) {Q : Type} (R : Q → Type) (L C : Type) where
  state : σ
  calls : Nat → Option (Waiting σ R L C) := fun _ => none
  next : Nat := 0

inductive Event {Q : Type} (R : Q → Type) (A : Type)
  | call (a : A)
  /-- What the call is told, given the request it turns out to wait for. -/
  | answer (id : Nat) (reply : (q : Q) → Option (R q))

/-- Where a run has parked. -/
def firstWait : List (Parked σ R L) → Option ((q : Q) × (R q → Thread σ R L))
  | .waiting q k :: _ => some ⟨q, k⟩
  | _ => none

namespace Scoped

variable [DecidableEq C] (p : Scoped σ R L A C)

/-- The state goes over from this owner to another one. -/
def Leaves (s s' : σ) (owner : Option C) : Prop :=
  owner ≠ none ∧ p.scope s = owner ∧ p.scope s' ≠ owner

instance (s s' : σ) (owner : Option C) : Decidable (p.Leaves s s' owner) :=
  inferInstanceAs (Decidable (_ ∧ _))

def mark (s s' : σ) (calls : Nat → Option (Waiting σ R L C)) : Nat → Option (Waiting σ R L C) :=
  fun id => (calls id).map fun call =>
    if p.Leaves s s' call.owner then { call with left := true } else call

def step (b : Board σ R L C) : Event R A → Board σ R L C
  | .call a =>
    let r := (p.body a).run b.state
    { state := r.1
      calls := Function.update (p.mark b.state r.1 b.calls) b.next
        ((firstWait r.2).map fun wait => ⟨p.owner a, false, wait⟩)
      next := b.next + 1 }
  | .answer id reply =>
    match b.calls id with
    | none => b
    | some call =>
      match reply call.wait.1 with
      | none => b
      | some x =>
        let r := (call.wait.2 x).run b.state
        { b with
          state := r.1
          calls := Function.update (p.mark b.state r.1 b.calls) id
            ((firstWait r.2).map fun wait => { call with wait }) }

def run (b : Board σ R L C) (events : List (Event R A)) : Board σ R L C :=
  events.foldl p.step b

variable {p} {b : Board σ R L C}

theorem step_call (a : A) :
    p.step b (.call a) =
      { state := ((p.body a).run b.state).1
        calls := Function.update (p.mark b.state ((p.body a).run b.state).1 b.calls) b.next
          ((firstWait ((p.body a).run b.state).2).map fun wait => ⟨p.owner a, false, wait⟩)
        next := b.next + 1 } := rfl

theorem step_answer {id : Nat} {reply : (q : Q) → Option (R q)} {call : Waiting σ R L C}
    (hcall : b.calls id = some call) {x : R call.wait.1} (hreply : reply call.wait.1 = some x) :
    p.step b (.answer id reply) =
      { b with
        state := ((call.wait.2 x).run b.state).1
        calls := Function.update (p.mark b.state ((call.wait.2 x).run b.state).1 b.calls) id
          ((firstWait ((call.wait.2 x).run b.state).2).map fun wait => { call with wait }) } := by
  unfold step
  simp only [hcall, hreply]

/-- Nothing waits, or nothing is told. -/
theorem step_unheard {id : Nat} {reply : (q : Q) → Option (R q)}
    (h : ∀ call, b.calls id = some call → reply call.wait.1 = none) :
    p.step b (.answer id reply) = b := by
  unfold step
  dsimp only
  split
  · rfl
  · next call hcall => rw [h call hcall]

end Scoped

/-- An answer to a call whose owner the state has left. -/
def Board.Late (b : Board σ R L C) : Event R A → Prop
  | .call _ => False
  | .answer id _ => ∃ call, b.calls id = some call ∧ call.left = true

/-- A call, or an answer to a call whose owner the state has not left. -/
def Board.heeds (b : Board σ R L C) : Event R A → Bool
  | .call _ => true
  | .answer id _ => (b.calls id).any fun call => !call.left

/-- What a program goes by to tell that the state has been left. -/
structure Guard (scope : σ → Option C) where
  /-- What any run of a thread may do to the state. -/
  moves : σ → σ → Prop
  /-- The state has been left since it was the first one. -/
  gone : σ → σ → Prop
  refl : ∀ s, moves s s
  trans : ∀ s s' s'', moves s s' → moves s' s'' → moves s s''
  gone_moves : ∀ s s' s'', gone s s' → moves s' s'' → gone s s''
  leaves : ∀ s s' s'', moves s s' → moves s' s'' → scope s'' ≠ scope s' → gone s s''

/-- A counter that goes up with every change of the scope. -/
def Guard.counter {scope : σ → Option C} (count : σ → Nat) : Guard scope where
  moves s s' := count s ≤ count s' ∧ (scope s' ≠ scope s → count s < count s')
  gone s s' := count s < count s'
  refl s := ⟨Nat.le_refl _, fun h => absurd rfl h⟩
  trans s s' s'' h h' := by
    refine ⟨h.1.trans h'.1, ?_⟩
    intro hscope
    by_cases hsame : scope s' = scope s
    · exact h.1.trans_lt (h'.2 (hsame ▸ hscope))
    · exact (h.2 hsame).trans_le h'.1
  gone_moves s s' s'' h h' := h.trans_le h'.1
  leaves s s' s'' h h' hscope := h.1.trans_lt (h'.2 hscope)

/-- No guard: the scope is not looked at. -/
def Guard.free {scope : σ → Option C} : Guard scope where
  moves _ _ := True
  gone _ _ := True
  refl _ := trivial
  trans _ _ _ _ _ := trivial
  gone_moves _ _ _ _ _ := trivial
  leaves _ _ _ _ _ _ := trivial

namespace Thread

/-- From `s` the thread writes nothing new, nor after any answer that `ok` allows. -/
def Idle (ok : (q : Q) → R q → σ → Prop) : Thread σ R L → σ → Prop
  | .done, _ => True
  | .read k, s => Idle ok (k s) s
  | .write s' k, s => s' = s ∧ Idle ok k s
  | .await q k, _ => ∀ a s', ok q a s' → Idle ok (k a) s'
  | .fork _ _, _ => False
  | .goto _, _ => False

variable {scope : σ → Option C} (guard : Guard scope) (allowed : (q : Q) → R q → σ → Prop)

/-- A thread parked at `s₀` that is idle once the state has been left, or that is idle by what it is
told. -/
def Checks (t : Thread σ R L) (s₀ : σ) : Prop :=
  (∀ s, t.Idle (fun _ _ s => guard.gone s₀ s) s) ∨ ∀ s, t.Idle allowed s

/-- Whatever the thread is told, it moves the state as `guard` says, and it checks wherever it
parks. -/
def Keeps : Thread σ R L → σ → Prop
  | .done, _ => True
  | .read k, s => Keeps (k s) s
  | .write s' k, s => guard.moves s s' ∧ Keeps k s'
  | .await q k, s => Checks guard allowed (.await q k) s ∧ ∀ a s', guard.moves s s' → Keeps (k a) s'
  | .fork _ _, _ => False
  | .goto _, _ => False

variable {guard allowed} {t : Thread σ R L} {ok : (q : Q) → R q → σ → Prop}

section

variable {k : σ → Thread σ R L} {rest other : Thread σ R L} {s s' : σ}

@[simp] theorem idle_done : (done : Thread σ R L).Idle ok s ↔ True := Iff.rfl

@[simp] theorem idle_read : (Thread.read k).Idle ok s ↔ (k s).Idle ok s := Iff.rfl

@[simp] theorem idle_write : (Thread.write s' rest).Idle ok s ↔ s' = s ∧ rest.Idle ok s := Iff.rfl

@[simp] theorem idle_await {q : Q} {k : R q → Thread σ R L} :
    (Thread.await q k).Idle ok s ↔ ∀ a s', ok q a s' → (k a).Idle ok s' := Iff.rfl

@[simp] theorem idle_ite {c : Prop} [Decidable c] : (if c then rest else other).Idle ok s ↔
    (c → rest.Idle ok s) ∧ (¬ c → other.Idle ok s) := by
  by_cases hc : c <;> simp [hc]

@[simp] theorem keeps_done : (done : Thread σ R L).Keeps guard allowed s ↔ True := Iff.rfl

@[simp] theorem keeps_await {q : Q} {k : R q → Thread σ R L} :
    (Thread.await q k).Keeps guard allowed s ↔ Checks guard allowed (.await q k) s ∧
      ∀ a s', guard.moves s s' → (k a).Keeps guard allowed s' := Iff.rfl

end

theorem Keeps.moves : ∀ {t : Thread σ R L} {s : σ}, t.Keeps guard allowed s →
    guard.moves s (t.run s).1 := by
  intro t
  induction t with
  | done => exact fun _ => guard.refl _
  | read k ih => exact fun h => ih _ h
  | write s' k ih => exact fun h => guard.trans _ _ _ h.1 (ih h.2)
  | await q k _ => exact fun _ => guard.refl _
  | fork t k _ _ => exact fun h => h.elim
  | goto l => exact fun h => h.elim

/-- Where a thread parks, it checks and goes on as before. -/
theorem Keeps.parks : ∀ {t : Thread σ R L} {s : σ}, t.Keeps guard allowed s →
    ∀ {wait : (q : Q) × (R q → Thread σ R L)}, firstWait (t.run s).2 = some wait →
      (Thread.await wait.1 wait.2).Checks guard allowed (t.run s).1 ∧
        ∀ a s', guard.moves (t.run s).1 s' → (wait.2 a).Keeps guard allowed s' := by
  intro t
  induction t with
  | done => exact fun _ _ hwait => absurd hwait (by simp [run, firstWait])
  | read k ih => exact fun h _ hwait => ih _ h hwait
  | write s' k ih => exact fun h _ hwait => ih h.2 hwait
  | await q k _ =>
    intro s h wait hwait
    obtain rfl := Option.some.inj hwait
    exact h
  | fork t k _ _ => exact fun h => h.elim
  | goto l => exact fun h => h.elim

/-- An idle thread leaves the state as it is and parks idle. -/
theorem Idle.still : ∀ {t : Thread σ R L} {s : σ}, t.Idle ok s →
    (t.run s).1 = s ∧ ∀ {wait : (q : Q) × (R q → Thread σ R L)},
      firstWait (t.run s).2 = some wait → ∀ s', (Thread.await wait.1 wait.2).Idle ok s' := by
  intro t
  induction t with
  | done => exact fun _ => ⟨rfl, fun hwait => absurd hwait (by simp [run, firstWait])⟩
  | read k ih => exact fun h => ih _ h
  | write s' k ih =>
    rintro s ⟨rfl, h⟩
    exact ih h
  | await q k _ =>
    intro s h
    refine ⟨rfl, ?_⟩
    intro wait hwait s'
    obtain rfl := Option.some.inj hwait
    exact h
  | fork t k _ _ => exact fun h => h.elim
  | goto l => exact fun h => h.elim

end Thread

/-! ## Runs -/

section

variable [DecidableEq C] (p : Scoped σ R L A C) {scope : σ → Option C}
  (guard : Guard p.scope) (allowed : (q : Q) → R q → σ → Prop)

/-- What is known of a call while it waits. -/
structure Waiting.Vouched (call : Waiting σ R L C) (s : σ) : Prop where
  checks : (∃ s₀, guard.moves s₀ s ∧ (call.left = true → guard.gone s₀ s) ∧
      ∀ s', (Thread.await call.wait.1 call.wait.2).Idle (fun _ _ s => guard.gone s₀ s) s') ∨
    ∀ s', (Thread.await call.wait.1 call.wait.2).Idle allowed s'
  keeps : ∀ a s', guard.moves s s' → (call.wait.2 a).Keeps guard allowed s'

def Board.Vouched (b : Board σ R L C) : Prop :=
  ∀ id call, b.calls id = some call → call.Vouched p guard allowed b.state

/-- A late answer is one that is allowed. -/
def Careful (b : Board σ R L C) : Event R A → Prop
  | .call _ => True
  | .answer id reply => ∀ call, b.calls id = some call → call.left = true →
      ∀ x, reply call.wait.1 = some x → allowed call.wait.1 x b.state

/-- Every step of the run is careful. -/
def CarefulFrom (b : Board σ R L C) : List (Event R A) → Prop
  | [] => True
  | event :: events => Careful allowed b event ∧ CarefulFrom (p.step b event) events

variable {p guard allowed} {b : Board σ R L C}

omit [DecidableEq C] in
theorem Thread.Keeps.vouched {t : Thread σ R L} {s : σ} (h : t.Keeps guard allowed s)
    {wait : (q : Q) × (R q → Thread σ R L)} (hwait : firstWait (t.run s).2 = some wait)
    (owner : Option C) :
    (⟨owner, false, wait⟩ : Waiting σ R L C).Vouched p guard allowed (t.run s).1 := by
  obtain ⟨hchecks, hkeeps⟩ := h.parks hwait
  refine ⟨?_, hkeeps⟩
  rcases hchecks with hgone | hallowed
  · exact .inl ⟨_, guard.refl _, fun hleft => absurd hleft (by simp), hgone⟩
  · exact .inr hallowed

/-- The others move the state, and the calls whose owner it leaves are marked. -/
theorem Waiting.Vouched.marked {call : Waiting σ R L C} {s s' : σ}
    (h : call.Vouched p guard allowed s) (hmoves : guard.moves s s') :
    (if p.Leaves s s' call.owner then { call with left := true } else call).Vouched
      p guard allowed s' := by
  have hsame : (if p.Leaves s s' call.owner then { call with left := true } else call).wait =
      call.wait := by
    split <;> rfl
  refine ⟨?_, ?_⟩
  · rw [hsame]
    rcases h.checks with ⟨s₀, hmoves₀, hleft, hidle⟩ | hallowed
    · refine .inl ⟨s₀, guard.trans _ _ _ hmoves₀ hmoves, ?_, hidle⟩
      intro hmarked
      by_cases hleaves : p.Leaves s s' call.owner
      · exact guard.leaves _ _ _ hmoves₀ hmoves fun hscope =>
          hleaves.2.2 (hscope.trans hleaves.2.1)
      · rw [if_neg hleaves] at hmarked
        exact guard.gone_moves _ _ _ (hleft hmarked) hmoves
    · exact .inr hallowed
  · rw [hsame]
    exact fun a s'' hmoves' => h.keeps a s'' (guard.trans _ _ _ hmoves hmoves')

/-- All calls together. -/
theorem Waiting.Vouched.mark {calls : Nat → Option (Waiting σ R L C)} {s s' : σ}
    (h : ∀ id call, calls id = some call → call.Vouched p guard allowed s)
    (hmoves : guard.moves s s') (id : Nat) (call : Waiting σ R L C)
    (hcall : p.mark s s' calls id = some call) : call.Vouched p guard allowed s' := by
  unfold Scoped.mark at hcall
  obtain ⟨call', hcall', rfl⟩ := Option.map_eq_some_iff.mp hcall
  exact (h id call' hcall').marked hmoves

omit [DecidableEq C] in
/-- A call that is left goes on: it leaves the state as it is, and where it parks it is as it
was. -/
theorem Waiting.Vouched.late {call : Waiting σ R L C} {s : σ} (h : call.Vouched p guard allowed s)
    (hleft : call.left = true) {x : R call.wait.1} (hx : allowed call.wait.1 x s) :
    ((call.wait.2 x).run s).1 = s ∧ ∀ wait, firstWait ((call.wait.2 x).run s).2 = some wait →
      ({ call with wait } : Waiting σ R L C).Vouched p guard allowed s := by
  have hparks : ∀ wait, firstWait ((call.wait.2 x).run s).2 = some wait →
      ∀ a s', guard.moves ((call.wait.2 x).run s).1 s' → (wait.2 a).Keeps guard allowed s' :=
    fun wait hwait => ((h.keeps x s (guard.refl s)).parks hwait).2
  rcases h.checks with ⟨s₀, hmoves, hgone, hidle⟩ | hidle
  · obtain ⟨hstate, hwaits⟩ := (hidle s x s (hgone hleft)).still
    rw [hstate] at hparks
    refine ⟨hstate, ?_⟩
    intro wait hwait
    exact ⟨.inl ⟨s₀, hmoves, hgone, hwaits hwait⟩, hparks wait hwait⟩
  · obtain ⟨hstate, hwaits⟩ := (hidle s x s hx).still
    rw [hstate] at hparks
    refine ⟨hstate, ?_⟩
    intro wait hwait
    exact ⟨.inr (hwaits hwait), hparks wait hwait⟩

variable {event : Event R A}

/-- One step, and no late answer changes the state. -/
theorem Board.Vouched.step (hbody : ∀ a s, (p.body a).Keeps guard allowed s)
    (h : b.Vouched p guard allowed) (hcareful : Careful allowed b event) :
    (p.step b event).Vouched p guard allowed ∧ (b.Late event → (p.step b event).state = b.state) := by
  cases event with
  | call a =>
    refine ⟨?_, fun hlate => hlate.elim⟩
    rw [Scoped.step_call]
    intro id call hcall
    have hmoves := (hbody a b.state).moves
    dsimp only at hcall ⊢
    by_cases hid : id = b.next
    · subst hid
      rw [Function.update_self] at hcall
      obtain ⟨wait, hwait, rfl⟩ := Option.map_eq_some_iff.mp hcall
      exact (hbody a b.state).vouched hwait _
    · rw [Function.update_of_ne hid] at hcall
      exact Waiting.Vouched.mark h hmoves id call hcall
  | answer id reply =>
    by_cases hunheard : ∀ call, b.calls id = some call → reply call.wait.1 = none
    · rw [Scoped.step_unheard hunheard]
      exact ⟨h, fun _ => rfl⟩
    push Not at hunheard
    obtain ⟨call, hfound, hreply⟩ := hunheard
    obtain ⟨x, hx⟩ := Option.ne_none_iff_exists'.mp hreply
    have hcall := h id call hfound
    have hmoves := (hcall.keeps x b.state (guard.refl _)).moves
    have hlate : call.left = true → ((call.wait.2 x).run b.state).1 = b.state ∧
        ∀ wait, firstWait ((call.wait.2 x).run b.state).2 = some wait →
          ({ call with wait } : Waiting σ R L C).Vouched p guard allowed b.state :=
      fun hleft => hcall.late hleft (hcareful call hfound hleft x hx)
    rw [Scoped.step_answer hfound hx]
    refine ⟨?_, ?_⟩
    · intro id' call' hcall'
      dsimp only at hcall' ⊢
      by_cases hid : id' = id
      · subst hid
        rw [Function.update_self] at hcall'
        obtain ⟨wait, hwait, rfl⟩ := Option.map_eq_some_iff.mp hcall'
        cases hleft : call.left with
        | false => exact (hcall.keeps x b.state (guard.refl _)).vouched hwait _
        | true =>
          obtain ⟨hstate, hwaits⟩ := hlate hleft
          rw [hstate, ← hleft]
          exact hwaits wait hwait
      · rw [Function.update_of_ne hid] at hcall'
        exact Waiting.Vouched.mark h hmoves id' call' hcall'
    · rintro ⟨call', hfound', hleft⟩
      obtain rfl : call = call' := Option.some.inj (hfound.symm.trans hfound')
      exact (hlate hleft).1

/-! ## The run without the late answers -/

/-- The same state, and the same calls of owners that are not left. -/
structure Alike (b b' : Board σ R L C) : Prop where
  state : b'.state = b.state
  next : b'.next = b.next
  calls : ∀ id call, call.left = false → (b.calls id = some call ↔ b'.calls id = some call)

/-- The scope is what it was, so no call is marked. -/
theorem Scoped.mark_self (s : σ) (calls : Nat → Option (Waiting σ R L C)) :
    p.mark s s calls = calls := by
  funext id
  unfold Scoped.mark
  cases calls id with
  | none => rfl
  | some call =>
    have hstays : ¬ p.Leaves s s call.owner := fun h => h.2.2 h.2.1
    rw [Option.map_some, if_neg hstays]

theorem Scoped.mark_alike {calls calls' : Nat → Option (Waiting σ R L C)} (s s' : σ)
    (h : ∀ id call, call.left = false → (calls id = some call ↔ calls' id = some call))
    (id : Nat) (call : Waiting σ R L C) (hleft : call.left = false) :
    p.mark s s' calls id = some call ↔ p.mark s s' calls' id = some call := by
  have hmark : ∀ calls : Nat → Option (Waiting σ R L C), p.mark s s' calls id = some call ↔
      calls id = some call ∧ ¬ p.Leaves s s' call.owner := by
    intro calls
    unfold Scoped.mark
    constructor
    · intro hcall
      obtain ⟨call', hcall', rfl⟩ := Option.map_eq_some_iff.mp hcall
      by_cases hleaves : p.Leaves s s' call'.owner
      · simp [hleaves] at hleft
      · rw [if_neg hleaves]
        exact ⟨hcall', hleaves⟩
    · rintro ⟨hcall, hleaves⟩
      rw [hcall, Option.map_some, if_neg hleaves]
  rw [hmark, hmark, h id call hleft]

/-- A step that is heeded is the same one on both sides. -/
theorem Alike.step {b' : Board σ R L C} (h : Alike b b')
    (hheeds : b.heeds event = true) : Alike (p.step b event) (p.step b' event) := by
  cases event with
  | call a =>
    rw [Scoped.step_call, Scoped.step_call, h.state, h.next]
    refine ⟨rfl, rfl, ?_⟩
    intro id call hleft
    dsimp only
    by_cases hid : id = b.next
    · subst hid
      rw [Function.update_self, Function.update_self]
    · rw [Function.update_of_ne hid, Function.update_of_ne hid]
      exact Scoped.mark_alike _ _ h.calls id call hleft
  | answer id reply =>
    obtain ⟨call, hfound, hleft⟩ := (Option.any_eq_true _ _).mp hheeds
    have hleft : call.left = false := by simpa using hleft
    have hfound' := (h.calls id call hleft).mp hfound
    cases hreply : reply call.wait.1 with
    | none =>
      have hnone : ∀ call', some call = some call' → reply call'.wait.1 = none := by
        rintro call' ⟨⟩
        exact hreply
      rw [Scoped.step_unheard (by rw [hfound]; exact hnone),
        Scoped.step_unheard (by rw [hfound']; exact hnone)]
      exact h
    | some x =>
      rw [Scoped.step_answer hfound hreply, Scoped.step_answer hfound' hreply, h.state]
      refine ⟨rfl, h.next, ?_⟩
      intro id' call' hleft'
      dsimp only
      by_cases hid : id' = id
      · subst hid
        rw [Function.update_self, Function.update_self]
      · rw [Function.update_of_ne hid, Function.update_of_ne hid]
        exact Scoped.mark_alike _ _ h.calls id' call' hleft'

/-- A step that is not heeded leaves the run as it is without it. -/
theorem Alike.skip {b' : Board σ R L C} (h : Alike b b')
    (hheeds : b.heeds event = false) (hstill : b.Late event → (p.step b event).state = b.state) :
    Alike (p.step b event) b' := by
  cases event with
  | call a => cases hheeds
  | answer id reply =>
    by_cases hunheard : ∀ call, b.calls id = some call → reply call.wait.1 = none
    · rw [Scoped.step_unheard hunheard]
      exact h
    push Not at hunheard
    obtain ⟨call, hfound, hreply⟩ := hunheard
    obtain ⟨x, hx⟩ := Option.ne_none_iff_exists'.mp hreply
    have hleft : call.left = true := by
      simpa [Board.heeds, hfound] using hheeds
    have hstate := hstill ⟨call, hfound, hleft⟩
    rw [Scoped.step_answer hfound hx] at hstate ⊢
    dsimp only at hstate
    rw [hstate]
    refine ⟨h.state, h.next, ?_⟩
    intro id' call' hleft'
    dsimp only
    rw [Scoped.mark_self]
    by_cases hid : id' = id
    · subst hid
      rw [Function.update_self]
      constructor
      · intro hcall
        obtain ⟨wait, _, rfl⟩ := Option.map_eq_some_iff.mp hcall
        rw [hleft] at hleft'
        cases hleft'
      · intro hcall
        have hsame := (h.calls id' call' hleft').mpr hcall
        obtain rfl : call = call' := Option.some.inj (hfound.symm.trans hsame)
        rw [hleft] at hleft'
        cases hleft'
    · rw [Function.update_of_ne hid]
      exact h.calls id' call' hleft'

end

end Coop
