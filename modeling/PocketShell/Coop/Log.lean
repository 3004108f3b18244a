import Mathlib.Data.List.Induction

/-!
# Logs

What holds of each event of a log, given the log before it, is kept by adding an event at the
end of which it holds.
-/

namespace Coop

variable {α : Type}

variable {log : List α}

theorem mem_snoc {e other : α} : other ∈ log ++ [e] ↔ other ∈ log ∨ other = e := by
  rw [List.mem_append, List.mem_singleton]

/-- Each event of the log is as `P` wants it, given the log before it. -/
def Each (P : List α → α → Prop) (log : List α) : Prop :=
  ∀ before e after, log = before ++ e :: after → P before e

theorem each_nil (P : List α → α → Prop) : Each P [] := by
  intro before e after h
  simp at h

theorem Each.snoc {P : List α → α → Prop} {e : α} (h : Each P log) (he : P log e) :
    Each P (log ++ [e]) := by
  intro before e' after heq
  rcases List.eq_nil_or_concat after with rfl | ⟨rest, last, rfl⟩
  · obtain ⟨rfl, hlast⟩ := List.append_inj' heq rfl
    cases hlast
    exact he
  · have hsplit : log ++ [e] = (before ++ e' :: rest) ++ [last] := by simpa using heq
    obtain ⟨hlog, -⟩ := List.append_inj' hsplit rfl
    exact h before e' rest hlog

theorem Each.append {P : List α → α → Prop} (h : Each P log) (items : List α)
    (hitems : ∀ before e after, items = before ++ e :: after → P (log ++ before) e) :
    Each P (log ++ items) := by
  induction items using List.reverseRecOn with
  | nil => rwa [List.append_nil]
  | append_singleton items e ih =>
    rw [← List.append_assoc]
    refine (ih fun before e' after heq => ?_).snoc (hitems items e [] rfl)
    exact hitems before e' (after ++ [e]) (by rw [heq, List.append_assoc, List.cons_append])

end Coop
