import PocketShell.Js.Utf8
import PocketShell.Js.Value

/-!
# JSON is well formed

* `stringify_wellFormed`: no half of a pair is left in what `JSON.stringify` gives.
* `fromUtf8_stringify`: JSON of an object is read back from its bytes.
-/

namespace Js

theorem wellFormed_append {more : Text} (hm : wellFormed more = true) :
    ∀ text : Text, wellFormed text = true → wellFormed (text ++ more) = true
  | [], _ => hm
  | [unit], h => by
    rw [List.singleton_append, wellFormed_cons (by simpa [plain, wellFormed] using h)]
    exact hm
  | unit :: next :: rest, h => by
    rw [wellFormed] at h
    rw [List.cons_append, List.cons_append, wellFormed]
    split
    · next hp =>
      rw [if_pos hp] at h
      exact wellFormed_append hm rest h
    · next hp =>
      rw [if_neg hp] at h
      obtain ⟨hu, hr⟩ := Bool.and_eq_true_iff.mp h
      rw [hu, ← List.cons_append, wellFormed_append hm (next :: rest) hr]
      rfl

theorem wellFormed_plain {text : Text} (h : ∀ unit ∈ text, plain unit = true) :
    wellFormed text = true := by
  induction text with
  | nil => rfl
  | cons unit text ih =>
    obtain ⟨hu, ht⟩ := List.forall_mem_cons.mp h
    rw [wellFormed_cons hu]
    exact ih ht

theorem hexDigit_plain : ∀ n < 16, plain (hexDigit n) = true := by decide

theorem escapeUnit_wellFormed {unit : UInt16} : wellFormed (escapeUnit unit) = true := by
  have hlt : unit.toNat < 65536 := unit.toNat_lt
  unfold escapeUnit
  repeat' split
  all_goals try rfl
  · refine wellFormed_plain (List.forall_mem_cons.mpr ⟨rfl, List.forall_mem_cons.mpr ⟨rfl, ?_⟩⟩)
    refine List.forall_mem_cons.mpr ⟨hexDigit_plain _ (by omega), List.forall_mem_cons.mpr
      ⟨hexDigit_plain _ (by omega), List.forall_mem_cons.mpr ⟨hexDigit_plain _ (by omega),
        List.forall_mem_singleton.mpr (hexDigit_plain _ (by omega))⟩⟩⟩
  · next h =>
    simp only [Bool.or_eq_true, not_or, Bool.not_eq_true] at h
    simp [wellFormed, h.1.2, h.2]

theorem escapeUnits_wellFormed : ∀ text : Text, wellFormed (escapeUnits text) = true
  | [] => rfl
  | [unit] => escapeUnit_wellFormed
  | unit :: next :: rest => by
    rw [escapeUnits]
    split
    · next hp =>
      obtain ⟨hh, hl⟩ := Bool.and_eq_true_iff.mp hp
      rw [wellFormed_pair hh hl]
      exact escapeUnits_wellFormed rest
    · exact wellFormed_append (escapeUnits_wellFormed (next :: rest)) _ escapeUnit_wellFormed

theorem numberUnit_plain {unit : UInt16} (h : isNumberUnit unit = true) : plain unit = true := by
  simp only [isNumberUnit, isDigit, Bool.or_eq_true, Bool.and_eq_true, decide_eq_true_eq,
    UInt16.le_iff_toNat_le] at h
  have hsmall : unit.toNat < 0xd800 := by
    rcases h with ((((h | h) | h) | h) | h) | h
    · have := h.2
      simp at this
      omega
    all_goals
      rw [h]
      decide
  have hh : isHigh unit = false := Bool.eq_false_iff.mpr fun h => by
    rw [isHigh_iff] at h
    omega
  have hl : isLow unit = false := Bool.eq_false_iff.mpr fun h => by
    rw [isLow_iff] at h
    omega
  rw [plain, hh, hl]
  rfl

theorem token_wellFormed {token : Token} (h : token.Valid) : wellFormed token.text = true := by
  cases token with
  | num literal =>
    obtain ⟨state, hfold, _⟩ := (Option.any_eq_true _ _).mp h
    exact wellFormed_plain fun unit hu => numberUnit_plain (foldlM_units hfold unit hu)
  | str s =>
    show wellFormed (0x22 :: (escapeUnits s ++ [0x22])) = true
    rw [wellFormed_cons rfl]
    exact wellFormed_append rfl _ (escapeUnits_wellFormed s)
  | _ => rfl

theorem render_wellFormed {tokens : List Token} (h : ∀ token ∈ tokens, token.Valid) :
    wellFormed (render tokens) = true := by
  induction tokens with
  | nil => rfl
  | cons token tokens ih =>
    obtain ⟨ht, hr⟩ := List.forall_mem_cons.mp h
    show wellFormed (token.text ++ render tokens) = true
    exact wellFormed_append (ih hr) _ (token_wellFormed ht)

variable {N : Type} [JsNumber N]

theorem stringify_wellFormed (v : Json N) : wellFormed (JSON.stringify v) = true :=
  render_wellFormed (tokens_fit v.1).2

variable {members : List (Text × Json N)}

theorem stripMark_obj {once : (keys members).Nodup} :
    stripMark (JSON.stringify (Json.obj members once)) = JSON.stringify (Json.obj members once) := rfl

/-- JSON of an object is read back from its bytes. -/
theorem fromUtf8_stringify {once : (keys members).Nodup} :
    fromUtf8 (utf8 (JSON.stringify (Json.obj members once))) =
      some (JSON.stringify (Json.obj members once)) :=
  fromUtf8_self (stringify_wellFormed _) stripMark_obj

end Js
