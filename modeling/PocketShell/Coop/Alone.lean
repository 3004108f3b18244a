import PocketShell.Coop.Thread

/-!
# One thread among others

What one thread comes to, whatever the others do to the state while it waits.

* `Thread.Ends`: every way on leads to a point where `post` holds.
-/

namespace Coop

variable {σ Q L : Type} {R : Q → Type}

/-- From `s` the thread gets to a point where `post` holds, whichever of its `turns`
each of its requests takes: an answer, and the state by the time it is there. Some turn
there is. -/
inductive Thread.Ends (turns : σ → (q : Q) → R q → σ → Prop) (post : Thread σ R L → σ → Prop) :
    Thread σ R L → σ → Prop
  | here {t : Thread σ R L} {s : σ} : post t s → Ends turns post t s
  | read {k : σ → Thread σ R L} {s : σ} : Ends turns post (k s) s → Ends turns post (.read k) s
  | write {k : Thread σ R L} {s s' : σ} : Ends turns post k s' → Ends turns post (.write s' k) s
  | await {q : Q} {k : R q → Thread σ R L} {s : σ} : (∃ a s', turns s q a s') →
      (∀ a s', turns s q a s' → Ends turns post (k a) s') → Ends turns post (.await q k) s

namespace Thread.Ends

variable {turns : σ → (q : Q) → R q → σ → Prop} {post post' : Thread σ R L → σ → Prop}
  {t : Thread σ R L} {s : σ}

theorem mono (h : t.Ends turns post s) (himp : ∀ t s, post t s → post' t s) : t.Ends turns post' s := by
  induction h with
  | here h => exact .here (himp _ _ h)
  | read _ ih => exact .read ih
  | write _ ih => exact .write ih
  | await hsome _ ih => exact .await hsome ih

end Thread.Ends

end Coop
