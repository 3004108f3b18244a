import Mathlib

/-!
# Strings of the source

A string is its UTF-16 code units.
-/

namespace Js

abbrev Text : Type := List UInt16

/-- A string of characters that are one unit each. -/
def ascii (s : String) : Text := s.toList.map fun c => c.toNat.toUInt16

/-- The text of a literal without reading it as bytes, which an evaluation would do. -/
theorem ascii_ofList (chars : List Char) :
    ascii (String.ofList chars) = chars.map fun c => c.toNat.toUInt16 := by
  rw [ascii, String.toList_ofList]

/-- What `trim` strips and `\s` matches. -/
def isSpace (unit : UInt16) : Bool :=
  0x09 ≤ unit && unit ≤ 0x0d || unit = 0x20 || unit = 0xa0 || unit = 0x1680 ||
    0x2000 ≤ unit && unit ≤ 0x200a || unit = 0x2028 || unit = 0x2029 || unit = 0x202f ||
    unit = 0x205f || unit = 0x3000 || unit = 0xfeff

def trimStart (text : Text) : Text := text.dropWhile isSpace

def trimEnd (text : Text) : Text := (text.reverse.dropWhile isSpace).reverse

def trim (text : Text) : Text := trimEnd (trimStart text)

theorem trimEnd_eq (text : Text) : trimEnd text = text.rdropWhile isSpace := rfl

variable {text : Text}

theorem trimStart_of_head (h : ∀ unit ∈ text.head?, isSpace unit = false) : trimStart text = text := by
  cases text with
  | nil => rfl
  | cons unit rest => exact List.dropWhile_cons_of_neg (by simp [h unit rfl])

theorem trimEnd_of_last (h : ∀ unit ∈ text.getLast?, isSpace unit = false) : trimEnd text = text := by
  have hhead : ∀ unit ∈ text.reverse.head?, isSpace unit = false := by
    rwa [List.head?_reverse]
  show (trimStart text.reverse).reverse = text
  rw [trimStart_of_head hhead, List.reverse_reverse]

theorem trim_plain (h : ∀ unit ∈ text, isSpace unit = false) : trim text = text := by
  unfold trim
  rw [trimStart_of_head fun unit hu => h unit (List.mem_of_mem_head? hu),
    trimEnd_of_last fun unit hu => h unit (List.mem_of_mem_getLast? hu)]

theorem trimStart_head (text : Text) : ∀ unit ∈ (trimStart text).head?, isSpace unit = false := by
  intro unit hu
  have h := List.head?_dropWhile_not isSpace text
  have hhead : (text.dropWhile isSpace).head? = some unit := hu
  rwa [hhead] at h

theorem trim_head (text : Text) : ∀ unit ∈ (trim text).head?, isSpace unit = false := by
  intro unit hunit
  obtain ⟨more, hmore⟩ := List.rdropWhile_prefix isSpace (trimStart text)
  have htrim : trim text = (trimStart text).rdropWhile isSpace := rfl
  refine trimStart_head text unit ?_
  rw [htrim] at hunit
  rw [← hmore, List.head?_append, hunit]
  rfl

theorem trim_last (text : Text) : ∀ unit ∈ (trim text).getLast?, isSpace unit = false := by
  intro unit hunit
  unfold trim trimEnd at hunit
  rw [List.getLast?_reverse] at hunit
  have h := List.head?_dropWhile_not isSpace (trimStart text).reverse
  rwa [hunit] at h

theorem trim_self (hhead : ∀ unit ∈ text.head?, isSpace unit = false)
    (hlast : ∀ unit ∈ text.getLast?, isSpace unit = false) : trim text = text := by
  unfold trim
  rw [trimStart_of_head hhead, trimEnd_of_last hlast]

/-- What is trimmed stays as it is. -/
theorem trim_trim (text : Text) : trim (trim text) = trim text :=
  trim_self (trim_head text) (trim_last text)

/-- How many pieces `split(/\s+/)` gives: one more than there are maximal runs of
white space. `inRun` tells that the unit before is white space. -/
def piecesFrom (inRun : Bool) : Text → Nat
  | [] => 1
  | unit :: rest =>
    if isSpace unit then (if inRun then 0 else 1) + piecesFrom true rest
    else piecesFrom false rest

def pieces (text : Text) : Nat := piecesFrom false text

theorem pieces_pos (text : Text) : 0 < pieces text := by
  have h : ∀ inRun, 0 < piecesFrom inRun text := by
    induction text with
    | nil => exact fun _ => Nat.one_pos
    | cons unit rest ih =>
      intro inRun
      rw [piecesFrom]
      split
      · exact Nat.add_pos_right _ (ih true)
      · exact ih false
  exact h false

/-- `parts.join(separator)` -/
def join (separator : Text) (parts : List Text) : Text := separator.intercalate parts

/-- The pieces of `split` do not have the separator. -/
theorem splitOn_free {α : Type} [BEq α] [LawfulBEq α] {sep : α} {units : List α} :
    ∀ piece ∈ units.splitOn sep, sep ∉ piece := by
  induction units with
  | nil => simp
  | cons unit units ih =>
    rw [List.splitOn_cons_eq_if_modifyHead]
    split
    · exact List.forall_mem_cons.mpr ⟨List.not_mem_nil, ih⟩
    · next hne =>
      cases hsplit : units.splitOn sep with
      | nil => exact absurd hsplit (List.splitOn_ne_nil _ _)
      | cons first others =>
        rw [hsplit] at ih
        obtain ⟨hfirst, hothers⟩ := List.forall_mem_cons.mp ih
        refine List.forall_mem_cons.mpr ⟨fun hmem => ?_, hothers⟩
        rcases List.mem_cons.mp hmem with hmem | hmem
        · exact hne (by simp [hmem])
        · exact hfirst hmem

end Js
