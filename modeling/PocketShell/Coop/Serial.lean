import PocketShell.Coop.Thread

/-!
# Queued calls

An object whose async methods are queued on one promise (`operation =
operation.then(work, work)`): each starts only once the one before it has settled,
however it settled. Its other methods run at once, also while a queued call waits
for an answer.

* `Serial`, `Serial.play`: the object, and its run under a schedule.
* `Contract`: what a queued call may rely on across its awaits and what it keeps;
  `Contract.Spec`, with a rule for each construct of the monad.
* `Contract.Sound.reached`: the invariant holds after every schedule.
* `Legal`: a log each of whose entries is justified by the entries before it.
-/

namespace Coop

/-- `call` is what a method does that is not queued, `work` the body of one that is. -/
structure Serial (σ : Type) {Q : Type} (R : Q → Type) (A B : Type) where
  call : A → σ → σ
  work : B → Thread σ R Empty

variable {σ Q A B ε α β : Type} {R : Q → Type}

namespace Serial

structure Config (σ : Type) {Q : Type} (R : Q → Type) (B : Type) where
  state : σ
  /-- The queued call that has started and not settled. -/
  running : List (Parked σ R Empty)
  queue : List B

/-- One entry of a schedule: a method is called, the next queued call gets its turn,
or the running one an answer (given for the request it turns out to wait for). -/
inductive Act {Q : Type} (R : Q → Type) (A B : Type) : Type
  | call (a : A)
  | enqueue (b : B)
  | next
  | reply (answer : (q : Q) → Option (R q))

variable (sys : Serial σ R A B)

/-- `none` when the entry does not fit the configuration. -/
def act (c : Config σ R B) : Act R A B → Option (Config σ R B)
  | .call a => some { c with state := sys.call a c.state }
  | .enqueue b => some { c with queue := c.queue ++ [b] }
  | .next =>
    match c.running, c.queue with
    | [], b :: rest =>
      let r := (sys.work b).run c.state
      some ⟨r.1, r.2, rest⟩
    | _, _ => none
  | .reply answer =>
    match c.running with
    | [.waiting q k] =>
      match answer q with
      | some a =>
        let r := (k a).run c.state
        some ⟨r.1, r.2, c.queue⟩
      | none => none
    | _ => none

def play (c : Config σ R B) : List (Act R A B) → Option (Config σ R B)
  | [] => some c
  | x :: xs => (sys.act c x).bind fun c' => play c' xs

/-- Nothing was called yet. -/
def fresh (s₀ : σ) : Config σ R B := ⟨s₀, [], []⟩

/-- The states the schedules lead to. -/
def Reached (s₀ : σ) (s : σ) : Prop := ∃ xs c, sys.play (fresh s₀) xs = some c ∧ c.state = s

theorem reached_of_any (s₀ : σ) (xs : List (Act R A B)) {p : σ → Bool}
    (h : (sys.play (fresh s₀) xs).any (fun c => p c.state) = true) :
    ∃ s, sys.Reached s₀ s ∧ p s = true := by
  obtain ⟨c, hc, hp⟩ := (Option.any_eq_true _ _).mp h
  exact ⟨c.state, ⟨xs, c, hc, rfl⟩, hp⟩

end Serial

/-- `inv` holds whenever nothing runs alone, `idle` besides when no queued call is
under way. A queued call may rely on `rely` across an await. -/
structure Contract (σ : Type) where
  inv : σ → Prop
  idle : σ → Prop
  rely : σ → σ → Prop
  rely_refl : ∀ s, rely s s
  rely_trans : ∀ s s' s'', rely s s' → rely s' s'' → rely s s''

namespace Contract

variable (C : Contract σ)

/-- What it takes for a queued call to go on from `s`. -/
def wp : Thread σ R Empty → σ → Prop
  | .done, s => C.inv s ∧ C.idle s
  | .read k, s => wp (k s) s
  | .write s' k, _ => wp k s'
  | .await _ k, s => C.inv s ∧ ∀ s₁ a, C.rely s s₁ → C.inv s₁ → wp (k a) s₁
  | .fork _ _, _ => False
  | .goto l, _ => l.elim

/-- The call under way, if there is one, can go on. -/
inductive Resting : σ → List (Parked σ R Empty) → Prop
  | idle {s : σ} : C.idle s → Resting s []
  | waiting {s : σ} {q : Q} {k : R q → Thread σ R Empty} :
      (∀ s₁ a, C.rely s s₁ → C.inv s₁ → C.wp (k a) s₁) → Resting s [.waiting q k]

structure Sound (sys : Serial σ R A B) (s₀ : σ) : Prop where
  init : C.inv s₀
  initIdle : C.idle s₀
  call : ∀ a s, C.inv s → C.inv (sys.call a s) ∧ C.rely s (sys.call a s)
  callIdle : ∀ a s, C.inv s → C.idle s → C.idle (sys.call a s)
  work : ∀ b s, C.inv s → C.idle s → C.wp (sys.work b) s

variable {C} {sys : Serial σ R A B} {s₀ : σ}

theorem wp_run {t : Thread σ R Empty} : ∀ {s : σ}, C.wp t s →
    C.inv (t.run s).1 ∧ C.Resting (t.run s).1 (t.run s).2 := by
  induction t with
  | done => exact fun h => ⟨h.1, .idle h.2⟩
  | read k ih => exact fun h => ih _ h
  | write s' k ih => exact fun h => ih h
  | await q k _ => exact fun h => ⟨h.1, .waiting h.2⟩
  | fork t k _ _ => exact fun h => h.elim
  | goto l => exact l.elim

theorem Sound.act (hC : C.Sound sys s₀) {c c' : Serial.Config σ R B} {x : Serial.Act R A B}
    (hi : C.inv c.state) (hr : C.Resting c.state c.running) (h : sys.act c x = some c') :
    C.inv c'.state ∧ C.Resting c'.state c'.running := by
  obtain ⟨s, running, queue⟩ := c
  cases x with
  | call a =>
    simp only [Serial.act, Option.some.injEq] at h
    subst h
    obtain ⟨hinv, hrely⟩ := hC.call a s hi
    refine ⟨hinv, ?_⟩
    cases hr with
    | idle hidle => exact .idle (hC.callIdle a s hi hidle)
    | waiting hk => exact .waiting fun s₁ a h₁ => hk s₁ a (C.rely_trans _ _ _ hrely h₁)
  | enqueue b =>
    simp only [Serial.act, Option.some.injEq] at h
    subst h
    exact ⟨hi, hr⟩
  | next =>
    cases hr with
    | idle hidle =>
      cases queue with
      | nil => cases h
      | cons b rest =>
        simp only [Serial.act, Option.some.injEq] at h
        subst h
        exact wp_run (hC.work b s hi hidle)
    | waiting => cases h
  | reply answer =>
    cases hr with
    | idle => cases h
    | waiting hk =>
      simp only [Serial.act] at h
      split at h
      · simp only [Option.some.injEq] at h
        subst h
        exact wp_run (hk s _ (C.rely_refl s) hi)
      · cases h

theorem Sound.play (hC : C.Sound sys s₀) {xs : List (Serial.Act R A B)} :
    ∀ {c c' : Serial.Config σ R B}, C.inv c.state → C.Resting c.state c.running →
      sys.play c xs = some c' → C.inv c'.state := by
  induction xs with
  | nil =>
    intro c c' hi _ h
    cases h
    exact hi
  | cons x xs ih =>
    intro c c' hi hr h
    obtain ⟨c₁, h₁, h₂⟩ := Option.bind_eq_some_iff.mp h
    obtain ⟨hi', hr'⟩ := hC.act hi hr h₁
    exact ih hi' hr' h₂

/-- The invariant holds in every state a schedule leads to. -/
theorem Sound.reached (hC : C.Sound sys s₀) {s : σ} (h : sys.Reached s₀ s) : C.inv s := by
  obtain ⟨xs, c, hc, rfl⟩ := h
  exact hC.play hC.init (.idle hC.initIdle) hc

/-! ## Rules -/

/-- From `s` the computation returns as `ok` says or throws as `err` says. -/
def Spec (C : Contract σ) (p : Async Unit σ R Empty ε α) (s : σ) (ok : α → σ → Prop)
    (err : ε → σ → Prop) : Prop :=
  ∀ k h, (∀ a s', ok a s' → C.wp (k a) s') → (∀ e s', err e s' → C.wp (h e) s') → C.wp (p () k h) s

namespace Spec

variable {s : σ} {ok : α → σ → Prop} {err : ε → σ → Prop}

theorem pure {a : α} (h : ok a s) : C.Spec (Pure.pure a : Async Unit σ R Empty ε α) s ok err :=
  fun _ _ hk _ => hk a s h

theorem throw {e : ε} (h : err e s) :
    C.Spec (MonadExcept.throw e : Async Unit σ R Empty ε α) s ok err :=
  fun _ _ _ hh => hh e s h

variable {p : Async Unit σ R Empty ε α}

theorem bind {f : α → Async Unit σ R Empty ε β}
    {mid : α → σ → Prop} {ok : β → σ → Prop} (hp : C.Spec p s mid err)
    (hf : ∀ a s', mid a s' → C.Spec (f a) s' ok err) : C.Spec (p >>= f) s ok err :=
  fun k h hk hh => hp _ _ (fun a s' hm => hf a s' hm k h hk hh) hh

theorem mono {ok' : α → σ → Prop} {err' : ε → σ → Prop}
    (h : C.Spec p s ok err) (hok : ∀ a s', ok a s' → ok' a s') (herr : ∀ e s', err e s' → err' e s') :
    C.Spec p s ok' err' :=
  fun k h' hk hh => h k h' (fun a s' ha => hk a s' (hok a s' ha)) fun e s' he => hh e s' (herr e s' he)

theorem get {f : σ → Async Unit σ R Empty ε α} (h : C.Spec (f s) s ok err) :
    C.Spec (MonadState.get >>= f) s ok err := h

theorem set {f : PUnit → Async Unit σ R Empty ε α} {s' : σ} (h : C.Spec (f ⟨⟩) s' ok err) :
    C.Spec (MonadStateOf.set s' >>= f) s ok err := h

theorem modifyGet {f : σ → β × σ} {g : β → Async Unit σ R Empty ε α}
    (h : C.Spec (g (f s).1) (f s).2 ok err) :
    C.Spec ((MonadState.modifyGet f : Async Unit σ R Empty ε β) >>= g) s ok err := h

theorem modify_last {f : σ → σ} {ok : PUnit → σ → Prop} (h : ok ⟨⟩ (f s)) :
    C.Spec (MonadState.modifyGet (fun s => (PUnit.unit, f s)) : Async Unit σ R Empty ε PUnit) s ok err :=
  fun _ _ hk _ => hk _ _ h

/-- An await: the invariant is handed over and comes back, with what others did. -/
theorem ask {q : Q} {f : R q → Async Unit σ R Empty ε α} (hi : C.inv s)
    (h : ∀ a s₁, C.rely s s₁ → C.inv s₁ → C.Spec (f a) s₁ ok err) :
    C.Spec (Async.ask q >>= f) s ok err :=
  fun k h' hk hh => ⟨hi, fun s₁ a hr hi₁ => h a s₁ hr hi₁ k h' hk hh⟩

theorem tryCatch {c : ε → Async Unit σ R Empty ε α}
    {mid : ε → σ → Prop} (hp : C.Spec p s ok mid) (hc : ∀ e s', mid e s' → C.Spec (c e) s' ok err) :
    C.Spec (MonadExcept.tryCatch p c) s ok err :=
  fun k h hk hh => hp _ _ hk fun e s' hm => hc e s' hm k h hk hh

end Spec

/-- What a queued call leaves when nobody awaits its outcome. -/
theorem wp_thread {p : Async Unit σ R Empty ε α} {s : σ}
    (h : C.Spec p s (fun _ s' => C.inv s' ∧ C.idle s') fun _ s' => C.inv s' ∧ C.idle s') :
    C.wp (Async.thread () p) s :=
  h _ _ (fun _ _ h => h) fun _ _ h => h

end Contract

/-! ## Logs -/

/-- Every entry is justified by the entries before it. -/
def Legal (P : List α → α → Prop) (log : List α) : Prop :=
  ∀ before e after, log = before ++ e :: after → P before e

namespace Legal

variable {P : List α → α → Prop} {log : List α} {e : α}

theorem nil : Legal P [] := fun before e after h => by simp at h

theorem snoc (h : Legal P log) (he : P log e) : Legal P (log ++ [e]) := by
  intro before e' after heq
  rcases List.eq_nil_or_concat' after with rfl | ⟨after', last, rfl⟩
  · obtain ⟨rfl, hlast⟩ := List.append_inj' heq rfl
    cases hlast
    exact he
  · rw [← List.cons_append, ← List.append_assoc] at heq
    exact h before e' after' (List.append_inj' heq rfl).1

end Legal

end Coop
