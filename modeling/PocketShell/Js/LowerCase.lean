import PocketShell.Js.Text

/-!
# Lower case

`toLowerCase`: every unit gives way to its lower case, which can depend on what stands around it.
The tables of the language are a parameter; the letters of ASCII are known.

* `Cased`: a word of ASCII in any case.
* `toLowerCase_ascii`: a beginning of ASCII stands in lower case.
* `toLowerCase_startsWith`: what stands where the lower case starts with a word of ASCII.
-/

namespace Js

/-- A letter of the Latin alphabet in lower case. -/
def asciiLower (unit : UInt16) : UInt16 := if 0x41 ≤ unit && unit ≤ 0x5a then unit + 0x20 else unit

/-- A word that differs from `word` in nothing but the case of the Latin letters. -/
def Cased (word text : Text) : Prop := text.map asciiLower = word.map asciiLower

/-- What the language knows of lower case. -/
structure LowerCase where
  /-- What a unit becomes between two texts. -/
  piece : Text → UInt16 → Text → Text
  nonempty : ∀ before unit after, piece before unit after ≠ []
  ascii : ∀ before unit after, unit < 0x80 → piece before unit after = [asciiLower unit]
  /-- What becomes more than one unit is a letter with a mark, and no mark is of ASCII. -/
  mark : ∀ before unit after first second more,
    piece before unit after = first :: second :: more → 0x80 ≤ second

namespace LowerCase

/-- Only the letters of ASCII have a lower case. -/
def latin : LowerCase where
  piece _ unit _ := [asciiLower unit]
  nonempty _ _ _ := List.cons_ne_nil _ _
  ascii _ _ _ _ := rfl
  mark _ _ _ _ _ _ h := by cases h

variable (lower : LowerCase)

def piecesFrom (before : Text) : Text → Text
  | [] => []
  | unit :: rest => lower.piece before unit rest ++ piecesFrom (before ++ [unit]) rest

def toLowerCase (text : Text) : Text := lower.piecesFrom [] text

variable {lower} {before text word rest : Text}

theorem piecesFrom_ascii (h : ∀ unit ∈ word, unit < 0x80) :
    lower.piecesFrom before (word ++ rest) =
      word.map asciiLower ++ lower.piecesFrom (before ++ word) rest := by
  induction word generalizing before with
  | nil => simp
  | cons unit word ih =>
    obtain ⟨hunit, hword⟩ := List.forall_mem_cons.mp h
    rw [List.cons_append, piecesFrom, lower.ascii _ _ _ hunit, ih hword, List.map_cons, List.append_assoc]
    rfl

/-- A beginning of ASCII stands in lower case. -/
theorem toLowerCase_ascii (h : ∀ unit ∈ word, unit < 0x80) :
    word.map asciiLower <+: lower.toLowerCase (word ++ rest) :=
  ⟨_, (piecesFrom_ascii h).symm⟩

theorem piecesFrom_startsWith (hword : ∀ unit ∈ word, unit < 0x80)
    (h : word <+: lower.piecesFrom before text) :
    ∀ unit ∈ text.take word.length, unit < 0x80 → asciiLower unit ∈ word := by
  induction word generalizing before text with
  | nil => simp
  | cons letter word ih =>
    obtain ⟨-, htail⟩ := List.forall_mem_cons.mp hword
    cases text with
    | nil => simp
    | cons unit rest =>
      obtain ⟨more, hmore⟩ := h
      rw [piecesFrom] at hmore
      intro u hu hlow
      rcases List.mem_cons.mp hu with rfl | hu
      · rw [lower.ascii _ _ _ hlow, List.singleton_append, List.cons_append] at hmore
        rw [← (List.cons.inj hmore).1]
        exact List.mem_cons_self
      · cases hpiece : lower.piece before unit rest with
        | nil => exact absurd hpiece (lower.nonempty _ _ _)
        | cons first marks =>
          rw [hpiece, List.cons_append, List.cons_append] at hmore
          have hbelow := (List.cons.inj hmore).2
          cases marks with
          | nil => exact List.mem_cons_of_mem _ (ih htail ⟨more, hbelow⟩ u hu hlow)
          | cons second marks =>
            -- a mark stands where the word goes on
            cases word with
            | nil => simp at hu
            | cons next word =>
              rw [List.cons_append, List.cons_append] at hbelow
              have hnext : next < 0x80 := htail next List.mem_cons_self
              rw [(List.cons.inj hbelow).1] at hnext
              exact absurd (lower.mark _ _ _ _ _ _ hpiece) (UInt16.not_le.mpr hnext)

/-- Where the lower case starts with a word of ASCII, what stands there in ASCII is of the word. -/
theorem toLowerCase_startsWith (hword : ∀ unit ∈ word, unit < 0x80)
    (h : word <+: lower.toLowerCase text) :
    ∀ unit ∈ text.take word.length, unit < 0x80 → asciiLower unit ∈ word :=
  piecesFrom_startsWith hword h

end LowerCase

end Js
