import PocketShell.Diagnostics.Redaction

/-!
# Key blocks of a report

Which lines of a report are the body of a private key, and that the rule of key blocks hides them
from what follows it.

* `opensAfter`: whether a key block is open after a line.
* `Alike`: two reports that differ in lines of key bodies only.
* `alike_hidden`: the rule makes them one text.
-/

namespace PocketShell.Diagnostics

open Js (Text ascii RegExp Match Continuation Cursor Exact isDigit replaceAll join exec findAfter
  literalLength seqLength starLength)

/-! ## 1. Lines of key bodies -/

/-- Is a key block open at the end of a line? `fuel` starts above the length of the line. -/
def openAfter : Nat → Bool → Text → Bool
  | 0, inside, _ => inside
  | fuel + 1, false, line =>
    match exec beginMarker line with
    | none => false
    | some m => openAfter fuel true m.after
  | fuel + 1, true, line =>
    match exec endMarker line with
    | none => true
    | some m => openAfter fuel false m.after

def opensAfter (inside : Bool) (line : Text) : Bool := openAfter (line.length + 1) inside line

def closes (line : Text) : Bool := (exec endMarker line).isSome

/-- The same lines but for those strictly between the line that opens a key block and the one that
closes it. The flag tells whether a block is open before the first of them. -/
inductive Alike : Bool → List Text → List Text → Prop
  | nil {inside : Bool} : Alike inside [] []
  | keep {inside : Bool} (line : Text) {rest rest' : List Text} :
      Alike (opensAfter inside line) rest rest' → Alike inside (line :: rest) (line :: rest')
  | body {line line' : Text} {rest rest' : List Text} : closes line = false → closes line' = false →
      rest.any closes = true → Alike true rest rest' → Alike true (line :: rest) (line' :: rest')

/-- Some line is strictly inside a key block. -/
def holdsKeyBody : Bool → List Text → Bool
  | _, [] => false
  | inside, line :: rest =>
    inside && !closes line && rest.any closes || holdsKeyBody (opensAfter inside line) rest

def lines (text : Text) : List Text := text.splitOn 0x0a

/-! ## 2. Where a marker ends -/

def markerLength (side : String) : Text → Option Nat :=
  seqLength (literalLength (ascii side))
    (starLength isMarkerUnit (literalLength (ascii "PRIVATE KEY-----")))

def beginLength : Text → Option Nat := markerLength "-----BEGIN "

def endLength : Text → Option Nat := markerLength "-----END "

theorem exact_marker (side : String) : Exact (marker side) (markerLength side) := by
  have hinner : ∀ u ∈ ascii "PRIVATE KEY", isMarkerUnit u = true := List.all_eq_true.mp (by decide)
  -- Up to the first dash after the side, the class takes everything.
  have hdisjoint := Js.word_disjoint (d := 0x2d) (ascii "----") hinner (by decide)
  have hword : Exact (.seq (.literal (ascii "PRIVATE KEY-----")) .empty)
      (literalLength (ascii "PRIVATE KEY-----")) := fun k c => Js.exact_literal _ k c
  exact (Js.exact_literal _).seq (Js.exact_star hword hdisjoint)

theorem stops_marker {side : String} (hside : ascii side ≠ []) (hline : 0x0a ∉ ascii side) :
    Js.Stops 0x0a (markerLength side) :=
  (Js.stops_literal hside hline).seq (Js.stops_star (by decide) (Js.stops_literal (by decide) (by decide)))

theorem stops_begin : Js.Stops 0x0a beginLength := stops_marker (by decide) (by decide)

theorem stops_end : Js.Stops 0x0a endLength := stops_marker (by decide) (by decide)

/-! ## 3. What the rule leaves -/

/-- What follows the block that is open at the start of a text. -/
def afterEnd (t : Text) : Text := (findAfter endLength t).getD []

/-- What follows a block that begins at the start of a text. -/
def afterBlock (t : Text) : Option Text := (beginLength t).map fun n => afterEnd (t.drop n)

theorem afterEnd_length (t : Text) : (afterEnd t).length ≤ t.length := by
  unfold afterEnd
  cases h : findAfter endLength t with
  | none => exact Nat.zero_le _
  | some rest => exact Nat.le_of_lt (Js.findAfter_less stops_end h)

theorem afterBlock_less (t rest : Text) (h : afterBlock t = some rest) : rest.length < t.length := by
  obtain ⟨n, hn, rfl⟩ := Option.map_eq_some_iff.mp h
  have hpos := stops_begin.pos t n hn
  have hwithin := stops_begin.within t n hn
  have hle := afterEnd_length (t.drop n)
  rw [List.length_drop] at hle
  omega

theorem run_blockRule (before rest : Text) :
    (blockRule.run some ⟨before, rest, []⟩).map Cursor.rest = afterBlock rest := by
  show (beginMarker.run _ _).map _ = _
  rw [beginMarker, exact_marker]
  unfold afterBlock
  change Option.map _ (Option.bind (beginLength rest) _) = _
  cases beginLength rest with
  | none => rfl
  | some n => exact Js.run_until (exact_marker "-----END ") (Cursor.skip ⟨before, rest, []⟩ n)

theorem redactKeyBlocks_eq (fuel : Nat) {t : Text} (h : t.length < fuel) :
    redactKeyBlocks t = Js.replaceBy afterBlock keyRedacted fuel t := by
  rw [redactKeyBlocks, Js.replaceAll_find afterBlock_less run_blockRule]
  exact Js.replaceBy_fuel afterBlock_less (Nat.lt_succ_self _) h

theorem redactKeyBlocks_block {t : Text} {n : Nat} (h : beginLength t = some n) :
    redactKeyBlocks t = keyRedacted ++ redactKeyBlocks (afterEnd (t.drop n)) := by
  have hblock : afterBlock t = some (afterEnd (t.drop n)) := by
    rw [afterBlock, h, Option.map_some]
  have hless := afterBlock_less _ _ hblock
  rw [redactKeyBlocks_eq _ (Nat.lt_succ_self _), redactKeyBlocks_eq _ hless]
  cases t with
  | nil => exact absurd hless (Nat.not_lt_zero _)
  | cons u t => simp only [Js.replaceBy, hblock]

theorem redactKeyBlocks_unit {u : UInt16} {t : Text} (h : beginLength (u :: t) = none) :
    redactKeyBlocks (u :: t) = u :: redactKeyBlocks t := by
  have hblock : afterBlock (u :: t) = none := by
    rw [afterBlock, h, Option.map_none]
  rw [redactKeyBlocks_eq _ (Nat.lt_succ_self _), redactKeyBlocks_eq (u :: t).length (Nat.lt_succ_self _)]
  simp only [Js.replaceBy, hblock]

/-- What is left of a text, given whether a block is open at its start. -/
def leftOf (inside : Bool) (t : Text) : Text := redactKeyBlocks (if inside then afterEnd t else t)

/-! ## 4. Line by line -/

/-- The end of the text, or of a line of it. -/
def EndsLine (z : Text) : Prop := z.head?.all (· = 0x0a)

theorem exec_begin (line : Text) : (exec beginMarker line).map Match.after = findAfter beginLength line :=
  Js.exec_find (exact_marker _) line

theorem exec_end (line : Text) : (exec endMarker line).map Match.after = findAfter endLength line :=
  Js.exec_find (exact_marker _) line

theorem afterEnd_line (line : Text) {z : Text} (hz : EndsLine z) :
    afterEnd (line ++ z) = ((findAfter endLength line).map (· ++ z)).getD (afterEnd z) := by
  unfold afterEnd
  rw [Js.findAfter_append stops_end hz]
  cases findAfter endLength line <;> rfl

theorem redact_noBegin {line z : Text} (hz : EndsLine z) (h : findAfter beginLength line = none) :
    redactKeyBlocks (line ++ z) = line ++ redactKeyBlocks z := by
  induction line with
  | nil => rfl
  | cons u line ih =>
    obtain ⟨hhere, hlater⟩ := Option.or_eq_none_iff.mp h
    have hnone : beginLength (u :: line ++ z) = none := by
      rw [stops_begin.ends _ z hz]
      exact Option.map_eq_none_iff.mp hhere
    rw [List.cons_append] at hnone
    rw [List.cons_append, redactKeyBlocks_unit hnone, ih hlater, List.cons_append]

theorem redact_begin {line rest : Text} (h : findAfter beginLength line = some rest) :
    ∃ before, ∀ z, EndsLine z →
      redactKeyBlocks (line ++ z) = before ++ redactKeyBlocks (afterEnd (rest ++ z)) := by
  induction line with
  | nil => exact absurd h (by simp [findAfter, stops_begin.nil])
  | cons u line ih =>
    rcases Option.or_eq_some_iff.mp h with hhere | ⟨hhere, hlater⟩
    · obtain ⟨n, hn, rfl⟩ := Option.map_eq_some_iff.mp hhere
      refine ⟨keyRedacted, fun z hz => ?_⟩
      have hn' : beginLength (u :: line ++ z) = some n := by
        rw [stops_begin.ends _ z hz, hn]
      rw [redactKeyBlocks_block hn', List.drop_append_of_le_length (stops_begin.within _ _ hn)]
    · obtain ⟨before, hbefore⟩ := ih hlater
      refine ⟨u :: before, fun z hz => ?_⟩
      have hnone : beginLength (u :: line ++ z) = none := by
        rw [stops_begin.ends _ z hz]
        exact Option.map_eq_none_iff.mp hhere
      rw [List.cons_append] at hnone
      rw [List.cons_append, redactKeyBlocks_unit hnone, hbefore z hz, List.cons_append]

/-- A line gives the same text whatever follows it, which is then read with the block it opens. -/
theorem leftOf_line : ∀ (fuel : Nat) (inside : Bool) (line : Text), line.length < fuel →
    ∃ before, ∀ z, EndsLine z → leftOf inside (line ++ z) = before ++ leftOf (openAfter fuel inside line) z := by
  intro fuel
  induction fuel with
  | zero => exact fun _ _ h => absurd h (Nat.not_lt_zero _)
  | succ fuel ih =>
    intro inside line hlen
    cases inside with
    | false =>
      have hexec := exec_begin line
      cases hm : exec beginMarker line with
      | none =>
        rw [hm] at hexec
        refine ⟨line, fun z hz => ?_⟩
        simpa [leftOf, openAfter, hm] using redact_noBegin hz hexec.symm
      | some m =>
        rw [hm] at hexec
        have hless := Js.findAfter_less stops_begin hexec.symm
        obtain ⟨before, hbefore⟩ := redact_begin hexec.symm
        obtain ⟨more, hmore⟩ := ih true m.after (by omega)
        refine ⟨before ++ more, fun z hz => ?_⟩
        have hrest := hmore z hz
        simp only [leftOf, if_true] at hrest
        simp only [leftOf, openAfter, hm, Bool.false_eq_true, if_false]
        rw [hbefore z hz, hrest, List.append_assoc]
    | true =>
      have hexec := exec_end line
      cases hm : exec endMarker line with
      | none =>
        rw [hm] at hexec
        refine ⟨[], fun z hz => ?_⟩
        simp only [leftOf, openAfter, hm, if_true, List.nil_append]
        rw [afterEnd_line line hz, ← hexec]
        rfl
      | some m =>
        rw [hm] at hexec
        have hless := Js.findAfter_less stops_end hexec.symm
        obtain ⟨more, hmore⟩ := ih false m.after (by omega)
        refine ⟨more, fun z hz => ?_⟩
        have hrest := hmore z hz
        simp only [leftOf, Bool.false_eq_true, if_false] at hrest
        simp only [leftOf, openAfter, hm, if_true]
        rw [afterEnd_line line hz, ← hexec]
        exact hrest

/-- A line inside a block that does not close it leaves nothing. -/
theorem leftOf_body {line z : Text} (hz : EndsLine z) (h : closes line = false) :
    leftOf true (line ++ z) = leftOf true z := by
  have hexec := exec_end line
  rw [closes, Option.isSome_eq_false_iff, Option.isNone_iff_eq_none] at h
  rw [h] at hexec
  simp only [leftOf, if_true]
  rw [afterEnd_line line hz, ← hexec]
  rfl

/-- The lines after the first one, with the line feed before them. -/
def following : List Text → Text
  | [] => []
  | line :: rest => 0x0a :: join [0x0a] (line :: rest)

theorem join_cons (line : Text) (rest : List Text) :
    join [0x0a] (line :: rest) = line ++ following rest := by
  cases rest with
  | nil => simp [join, following]
  | cons next rest => simp [join, following, List.intercalate_cons_cons]

theorem endsLine_following (rest : List Text) : EndsLine (following rest) := by
  cases rest with
  | nil => rfl
  | cons line rest => simp [EndsLine, following]

theorem leftOf_lineFeed (t : Text) : leftOf true (0x0a :: t) = leftOf true t ∧
    leftOf false (0x0a :: t) = 0x0a :: leftOf false t := by
  have hend : endLength (0x0a :: t) = none := (stops_end.ends [] (0x0a :: t) rfl).trans stops_end.nil
  have hbegin : beginLength (0x0a :: t) = none :=
    (stops_begin.ends [] (0x0a :: t) rfl).trans stops_begin.nil
  constructor
  · simp [leftOf, afterEnd, findAfter, hend]
  · simp [leftOf, redactKeyBlocks_unit hbegin]

variable {inside : Bool} {rest rest' : List Text}

theorem leftOf_following (h : leftOf inside (join [0x0a] rest) = leftOf inside (join [0x0a] rest'))
    (hnil : rest = [] ↔ rest' = []) : leftOf inside (following rest) = leftOf inside (following rest') := by
  cases rest with
  | nil => rw [hnil.mp rfl]
  | cons line rest =>
    cases rest' with
    | nil => exact absurd (hnil.mpr rfl) (by simp)
    | cons line' rest' =>
      unfold following
      cases inside with
      | true => rw [(leftOf_lineFeed _).1, (leftOf_lineFeed _).1, h]
      | false => rw [(leftOf_lineFeed _).2, (leftOf_lineFeed _).2, h]

theorem alike_nil (h : Alike inside rest rest') : rest = [] ↔ rest' = [] := by
  cases h <;> simp

theorem alike_left (h : Alike inside rest rest') :
    leftOf inside (join [0x0a] rest) = leftOf inside (join [0x0a] rest') := by
  induction h with
  | nil => rfl
  | @keep inside line rest rest' hrest ih =>
    obtain ⟨before, hbefore⟩ := leftOf_line (line.length + 1) inside line (Nat.lt_succ_self _)
    rw [join_cons, join_cons, hbefore _ (endsLine_following _), hbefore _ (endsLine_following _)]
    exact congrArg (before ++ ·) (leftOf_following ih (alike_nil hrest))
  | body hline hline' _ hrest ih =>
    rw [join_cons, join_cons, leftOf_body (endsLine_following _) hline,
      leftOf_body (endsLine_following _) hline']
    exact leftOf_following ih (alike_nil hrest)

/-- Lines of key bodies do not pass the rule. -/
theorem alike_hidden {t t' : Text} (h : Alike false (lines t) (lines t')) :
    redactKeyBlocks t = redactKeyBlocks t' := by
  have hleft := alike_left h
  unfold lines join at hleft
  rwa [List.intercalate_splitOn, List.intercalate_splitOn] at hleft

/-! ## 5. Reports with and without key bodies -/

theorem alike_refl (inside : Bool) (rest : List Text) : Alike inside rest rest := by
  induction rest generalizing inside with
  | nil => exact .nil
  | cons line rest ih => exact .keep line (ih _)

theorem alike_eq (h : Alike inside rest rest')
    (hbody : holdsKeyBody inside rest = false) : rest = rest' := by
  induction h with
  | nil => rfl
  | keep line _ ih => rw [ih (Bool.or_eq_false_iff.mp hbody).2]
  | body hline _ hclosed _ _ =>
    have hhere := (Bool.or_eq_false_iff.mp hbody).1
    simp [hline, hclosed] at hhere

/-- A line of a key body can be any line that does not close the block. -/
theorem body_free {rest : List Text} (h : holdsKeyBody inside rest = true) :
    ∃ above line below, rest = above ++ line :: below ∧ below ≠ [] ∧
      ∀ other, closes other = false → Alike inside rest (above ++ other :: below) := by
  induction rest generalizing inside with
  | nil => exact absurd h (by simp [holdsKeyBody])
  | cons line rest ih =>
    rcases Bool.or_eq_true_iff.mp h with hhere | hlater
    · simp only [Bool.and_eq_true, Bool.not_eq_true'] at hhere
      obtain ⟨⟨rfl, hline⟩, hclosed⟩ := hhere
      refine ⟨[], line, rest, rfl, ?_, fun other hother => ?_⟩
      · rintro rfl
        exact absurd hclosed (by simp)
      · exact .body hline hother hclosed (alike_refl true rest)
    · obtain ⟨above, body, below, rfl, hbelow, hfree⟩ := ih hlater
      exact ⟨line :: above, body, below, rfl, hbelow, fun other hother => .keep line (hfree other hother)⟩

end PocketShell.Diagnostics
