import PocketShell.Js.Json

/-!
# Code points

What `for (const ch of text)` gives: a pair of surrogates as one piece, every other unit,
a surrogate without its half included, as a piece of its own.
-/

namespace Js

def codePoints : Text → List Text
  | [] => []
  | [unit] => [[unit]]
  | unit :: next :: rest =>
    if isHigh unit && isLow next then [unit, next] :: codePoints rest
    else [unit] :: codePoints (next :: rest)

/-- A text of one code point. -/
def IsCodePoint (text : Text) : Prop := codePoints text = [text]

theorem codePoints_flatten (text : Text) : (codePoints text).flatten = text := by
  fun_induction codePoints text with
  | case1 => rfl
  | case2 unit => rfl
  | case3 unit next rest h ih => rw [List.flatten_cons, ih]; rfl
  | case4 unit next rest h ih => rw [List.flatten_cons, ih]; rfl

theorem codePoints_single (text : Text) : ∀ point ∈ codePoints text, IsCodePoint point := by
  fun_induction codePoints text with
  | case1 => exact fun _ h => by cases h
  | case2 unit => exact List.forall_mem_singleton.mpr rfl
  | case3 unit next rest h ih =>
    refine List.forall_mem_cons.mpr ⟨?_, ih⟩
    show codePoints [unit, next] = [[unit, next]]
    rw [codePoints, if_pos h]
    rfl
  | case4 unit next rest h ih => exact List.forall_mem_cons.mpr ⟨rfl, ih⟩

theorem IsCodePoint.ne_nil {text : Text} (h : IsCodePoint text) : text ≠ [] := by
  rintro rfl
  cases h

theorem codePoints_ne_nil {text : Text} (h : text ≠ []) : codePoints text ≠ [] := by
  intro hpoints
  have hflat := codePoints_flatten text
  rw [hpoints] at hflat
  exact h hflat.symm

end Js
