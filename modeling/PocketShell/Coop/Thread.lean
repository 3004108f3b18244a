import Mathlib

/-!
# Cooperative threads

A program of `async` functions that share one state and run on one event loop.
Between two `await`s a function runs alone; at an `await` it is parked until its
answer arrives, and anything else may run in between.

* `Thread`: the rest of an async call, as a tree of reads and writes of the
  shared state, awaits, forks and loop heads.
* `Async`: the monad such calls are written in, with a continuation for a
  result and one for a thrown error.
* `Config`, `Step`, `Reach`: parked threads beside the shared state, and the
  runs of a `System` in every order its answers can arrive.
* `Config.play`: the run of one fixed schedule, computed.
-/

namespace Coop

/-- The rest of an async call over the shared state `σ`. `R q` is the type of
the answers to the request `q`; `L` names the heads of unbounded loops. -/
inductive Thread (σ : Type) {Q : Type} (R : Q → Type) (L : Type) : Type
  | done
  | read (k : σ → Thread σ R L)
  | write (s : σ) (k : Thread σ R L)
  | await (q : Q) (k : R q → Thread σ R L)
  /-- Call `t` without awaiting it: `t` runs up to its first await, then `k`. -/
  | fork (t k : Thread σ R L)
  | goto (l : L)

/-- A thread that has given up control: it waits for an answer, or for its turn
at the head of a loop. -/
inductive Parked (σ : Type) {Q : Type} (R : Q → Type) (L : Type) : Type
  | waiting (q : Q) (k : R q → Thread σ R L)
  | looping (l : L)

variable {σ Q L A ε α β : Type} {R : Q → Type}

/-- Run a thread up to its next await: the new state, and everything parked on
the way (the calls it forked and the rest of the thread itself). -/
def Thread.run : Thread σ R L → σ → σ × List (Parked σ R L)
  | .done, s => (s, [])
  | .read k, s => (k s).run s
  | .write s' k, _ => k.run s'
  | .await q k, s => (s, [.waiting q k])
  | .fork t k, s =>
    let forked := t.run s
    let rest := k.run forked.1
    (rest.1, forked.2 ++ rest.2)
  | .goto l, s => (s, [.looping l])

/-! ## The monad of async functions -/

/-- An async computation: what it does next, given on whose behalf it runs
(`ρ`), what follows a result and what follows a thrown error. -/
def Async (ρ σ : Type) {Q : Type} (R : Q → Type) (L ε α : Type) : Type :=
  ρ → (α → Thread σ R L) → (ε → Thread σ R L) → Thread σ R L

namespace Async

variable {ρ : Type}

instance : Monad (Async ρ σ R L ε) where
  pure a := fun _ ok _ => ok a
  bind p f := fun c ok err => p c (fun a => f a c ok err) err

instance : MonadExceptOf ε (Async ρ σ R L ε) where
  throw e := fun _ _ err => err e
  tryCatch p h := fun c ok err => p c ok fun e => h e c ok err

instance : MonadStateOf σ (Async ρ σ R L ε) where
  get := fun _ ok _ => .read ok
  set s := fun _ ok _ => .write s (ok ())
  modifyGet f := fun _ ok _ => .read fun s => .write (f s).2 (ok (f s).1)

/-- On whose behalf the computation runs. -/
def caller : Async ρ σ R L ε ρ := fun c ok _ => ok c

/-- Await the answer to a request. -/
def ask (q : Q) : Async ρ σ R L ε (R q) := fun _ ok _ => .await q ok

/-- Call an async function on behalf of `c'` and go on without awaiting it. -/
def spawn (c' : ρ) (p : Async ρ σ R L ε α) : Async ρ σ R L ε Unit :=
  fun _ ok _ => .fork (p c' (fun _ => .done) (fun _ => .done)) (ok ())

/-- Run `p` and then `fin`, whether `p` returns or throws. -/
def andFinally (p : Async ρ σ R L ε α) (fin : Async ρ σ R L ε Unit) : Async ρ σ R L ε α :=
  fun c ok err => p c (fun a => fin c (fun _ => ok a) err) (fun e => fin c (fun _ => err e) err)

/-- The outcome of `p` as a value. -/
def attempt (p : Async ρ σ R L ε α) : Async ρ σ R L ε (Except ε α) :=
  fun c ok _ => p c (fun a => ok (.ok a)) fun e => ok (.error e)

/-- The body of a loop continues at its head: the call itself never returns. -/
def loopAt (l : L) : Async ρ σ R L ε α := fun _ _ _ => .goto l

/-- A call nobody awaits: its result and its error are dropped. -/
def thread (c : ρ) (p : Async ρ σ R L ε α) : Thread σ R L := p c (fun _ => .done) (fun _ => .done)

variable (c : ρ) (ok : β → Thread σ R L) (err : ε → Thread σ R L)

@[simp] theorem pure_apply (b : β) : (pure b : Async ρ σ R L ε β) c ok err = ok b := rfl

@[simp] theorem bind_apply (p : Async ρ σ R L ε α) (f : α → Async ρ σ R L ε β) :
    (p >>= f) c ok err = p c (fun a => f a c ok err) err := rfl

@[simp] theorem map_apply (p : Async ρ σ R L ε α) (f : α → β) :
    (f <$> p) c ok err = p c (fun a => ok (f a)) err := rfl

@[simp] theorem throw_apply (e : ε) : (throw e : Async ρ σ R L ε β) c ok err = err e := rfl

@[simp] theorem tryCatch_apply (p : Async ρ σ R L ε β) (h : ε → Async ρ σ R L ε β) :
    (tryCatch p h) c ok err = p c ok fun e => h e c ok err := rfl

@[simp] theorem tryCatchThe_apply (p : Async ρ σ R L ε β) (h : ε → Async ρ σ R L ε β) :
    (tryCatchThe ε p h) c ok err = p c ok fun e => h e c ok err := rfl

@[simp] theorem get_apply (k : σ → Thread σ R L) :
    (get : Async ρ σ R L ε σ) c k err = .read k := rfl

@[simp] theorem set_apply (s : σ) (k : PUnit → Thread σ R L) :
    (set s : Async ρ σ R L ε PUnit) c k err = .write s (k ()) := rfl

@[simp] theorem modify_apply (f : σ → σ) (k : PUnit → Thread σ R L) :
    (modify f : Async ρ σ R L ε PUnit) c k err = .read fun s => .write (f s) (k ()) := rfl

@[simp] theorem modifyGet_apply (f : σ → β × σ) :
    (modifyGet f : Async ρ σ R L ε β) c ok err =
      .read fun s => .write (f s).2 (ok (f s).1) := rfl

@[simp] theorem caller_apply (k : ρ → Thread σ R L) :
    (caller : Async ρ σ R L ε ρ) c k err = k c := rfl

@[simp] theorem ask_apply (q : Q) (k : R q → Thread σ R L) :
    (ask q : Async ρ σ R L ε (R q)) c k err = .await q k := rfl

@[simp] theorem spawn_apply (c' : ρ) (p : Async ρ σ R L ε α) (k : Unit → Thread σ R L) :
    (spawn c' p : Async ρ σ R L ε Unit) c k err = .fork (thread c' p) (k ()) := rfl

@[simp] theorem andFinally_apply (p : Async ρ σ R L ε β) (fin : Async ρ σ R L ε Unit) :
    andFinally p fin c ok err =
      p c (fun a => fin c (fun _ => ok a) err) (fun e => fin c (fun _ => err e) err) := rfl

@[simp] theorem attempt_apply (p : Async ρ σ R L ε α) (k : Except ε α → Thread σ R L) :
    attempt p c k err = p c (fun a => k (.ok a)) fun e => k (.error e) := rfl

@[simp] theorem loopAt_apply (l : L) : (loopAt l : Async ρ σ R L ε β) c ok err = .goto l := rfl

end Async

/-! ## Systems and their runs -/

/-- The async program: what a call or an external event `A` runs, what a loop
head runs, and which answers a request can get in a state. A request to another
thread (joining it, waiting for its turn in a queue) is ready only once that
thread has got that far; a request to the outside can be given any answer. -/
structure System (σ : Type) {Q : Type} (R : Q → Type) (L A : Type) where
  body : A → Thread σ R L
  loop : L → Thread σ R L
  ready : σ → (q : Q) → R q → Bool

/-- What a step of a run does. -/
inductive Label {Q : Type} (R : Q → Type) (L A : Type) : Type
  | start (a : A)
  | reply (q : Q) (a : R q)
  | loop (l : L)

structure Config (σ : Type) {Q : Type} (R : Q → Type) (L : Type) where
  state : σ
  parked : List (Parked σ R L)

namespace System

variable (sys : System σ R L A)

/-- One step: a new call arrives, a parked thread gets its answer, or a loop
goes round. -/
inductive Step : Config σ R L → Label R L A → Config σ R L → Prop
  | start (a : A) (s : σ) (ps : List (Parked σ R L)) :
      Step ⟨s, ps⟩ (.start a) ⟨((sys.body a).run s).1, ps ++ ((sys.body a).run s).2⟩
  | reply (s : σ) (ps qs : List (Parked σ R L)) (q : Q) (k : R q → Thread σ R L) (a : R q) :
      sys.ready s q a = true →
      Step ⟨s, ps ++ .waiting q k :: qs⟩ (.reply q a)
        ⟨((k a).run s).1, ps ++ ((k a).run s).2 ++ qs⟩
  | loop (s : σ) (ps qs : List (Parked σ R L)) (l : L) :
      Step ⟨s, ps ++ .looping l :: qs⟩ (.loop l)
        ⟨((sys.loop l).run s).1, ps ++ ((sys.loop l).run s).2 ++ qs⟩

/-- The configurations reached from `c₀` by steps that all meet `ok`, a
condition on the state before the step and on what the step does. -/
inductive Reach (ok : σ → Label R L A → Prop) (c₀ : Config σ R L) : Config σ R L → Prop
  | init : Reach ok c₀ c₀
  | step {c c' : Config σ R L} {l : Label R L A} :
      Reach ok c₀ c → ok c.state l → sys.Step c l c' → Reach ok c₀ c'

/-- Every step is allowed. -/
def any : σ → Label R L A → Prop := fun _ _ => True

theorem Reach.mono {ok ok' : σ → Label R L A → Prop} {c₀ c : Config σ R L}
    (h : sys.Reach ok c₀ c) (himp : ∀ s l, ok s l → ok' s l) : sys.Reach ok' c₀ c := by
  induction h with
  | init => exact .init
  | step _ hok hs ih => exact .step ih (himp _ _ hok) hs

/-! ## Fixed schedules -/

/-- One entry of a schedule: a call, an answer to the `i`-th parked thread
(given for the request it turns out to wait for), or the `i`-th thread's turn at
its loop head. -/
inductive Act {Q : Type} (R : Q → Type) (A : Type) : Type
  | start (a : A)
  | reply (i : Nat) (answer : (q : Q) → Option (R q))
  | loop (i : Nat)

/-- The step one schedule entry takes and the configuration it leads to; `none`
when the entry does not fit the configuration. -/
def act (c : Config σ R L) : Act R A → Option (Label R L A × Config σ R L)
  | .start a =>
    let r := (sys.body a).run c.state
    some (.start a, ⟨r.1, c.parked ++ r.2⟩)
  | .reply i answer =>
    match c.parked[i]? with
    | some (.waiting q k) =>
      match answer q with
      | some a =>
        if sys.ready c.state q a then
          let r := (k a).run c.state
          some (.reply q a, ⟨r.1, c.parked.take i ++ r.2 ++ c.parked.drop (i + 1)⟩)
        else none
      | none => none
    | _ => none
  | .loop i =>
    match c.parked[i]? with
    | some (.looping l) =>
      let r := (sys.loop l).run c.state
      some (.loop l, ⟨r.1, c.parked.take i ++ r.2 ++ c.parked.drop (i + 1)⟩)
    | _ => none

/-- The configuration a whole schedule leads to by steps that meet `ok`. -/
def play (ok : σ → Label R L A → Bool) (c : Config σ R L) : List (Act R A) → Option (Config σ R L)
  | [] => some c
  | x :: xs =>
    match sys.act c x with
    | some (l, c') => if ok c.state l then play ok c' xs else none
    | none => none

theorem split_at {ps : List (Parked σ R L)} {i : Nat} {p : Parked σ R L}
    (h : ps[i]? = some p) : ps = ps.take i ++ p :: ps.drop (i + 1) := by
  obtain ⟨hi, hp⟩ := List.getElem?_eq_some_iff.mp h
  rw [← hp, List.getElem_cons_drop hi, List.take_append_drop]

/-- Every schedule entry that fits is a step of the system. -/
theorem act_step {c c' : Config σ R L} {l : Label R L A} {x : Act R A}
    (h : sys.act c x = some (l, c')) : sys.Step c l c' := by
  obtain ⟨s, parked⟩ := c
  cases x with
  | start a =>
    simp only [act, Option.some.injEq] at h
    cases h
    exact .start a s parked
  | reply i answer =>
    simp only [act] at h
    split at h
    · next q k hp =>
      split at h
      · next a _ =>
        split at h
        · next hr =>
          cases h
          have hstep : sys.Step _ (.reply q a) _ :=
            .reply s (parked.take i) (parked.drop (i + 1)) q k a hr
          rwa [← split_at hp] at hstep
        · cases h
      · cases h
    · cases h
  | loop i =>
    simp only [act] at h
    split at h
    · next l hp =>
      cases h
      have hstep : sys.Step _ (.loop l) _ := .loop s (parked.take i) (parked.drop (i + 1)) l
      rwa [← split_at hp] at hstep
    · cases h

/-- A schedule that plays through reaches the configuration it ends in. -/
theorem play_reach {ok : σ → Label R L A → Bool} {ok' : σ → Label R L A → Prop}
    (himp : ∀ s l, ok s l = true → ok' s l) {c₀ c c' : Config σ R L} {xs : List (Act R A)}
    (hc : sys.Reach ok' c₀ c) (h : sys.play ok c xs = some c') : sys.Reach ok' c₀ c' := by
  induction xs generalizing c with
  | nil =>
    simp only [play, Option.some.injEq] at h
    exact h ▸ hc
  | cons x xs ih =>
    simp only [play] at h
    split at h
    · next l c₁ h₁ =>
      split at h
      · next hok => exact ih (.step hc (himp _ _ hok) (sys.act_step h₁)) h
      · cases h
    · cases h

/-- What a computed run shows of the configuration it ends in holds of a reachable one. -/
theorem played (ok : σ → Label R L A → Bool) (c₀ : Config σ R L) (xs : List (Act R A))
    {p : Config σ R L → Bool} (h : (sys.play ok c₀ xs).any p = true) :
    ∃ c, sys.Reach (fun s l => ok s l = true) c₀ c ∧ p c = true := by
  obtain ⟨c, hc, hp⟩ := (Option.any_eq_true p _).mp h
  exact ⟨c, sys.play_reach (fun _ _ => id) .init hc, hp⟩

/-- The same in runs whose steps are free. -/
theorem played_any (c₀ : Config σ R L) (xs : List (Act R A)) {p : Config σ R L → Bool}
    (h : (sys.play (fun _ _ => true) c₀ xs).any p = true) :
    ∃ c, sys.Reach any c₀ c ∧ p c = true := by
  obtain ⟨c, hr, hp⟩ := sys.played _ c₀ xs h
  exact ⟨c, hr.mono sys fun _ _ _ => trivial, hp⟩

/-- What is computed of one more entry holds of a step of a run. -/
theorem played_step (ok : σ → Label R L A → Bool) (c₀ : Config σ R L) (xs : List (Act R A))
    (x : Act R A) {p : σ → Label R L A → σ → Bool}
    (h : (sys.play ok c₀ xs).any (fun c =>
      (sys.act c x).any fun r => p c.state r.1 r.2.state) = true) :
    ∃ c l c', sys.Reach (fun s l => ok s l = true) c₀ c ∧ sys.Step c l c' ∧
      p c.state l c'.state = true := by
  obtain ⟨c, hr, hp⟩ := sys.played ok c₀ xs h
  obtain ⟨⟨l, c'⟩, ha, hp⟩ := (Option.any_eq_true _ _).mp hp
  exact ⟨c, l, c', hr, sys.act_step ha, hp⟩

end System

end Coop
