import PocketShell.Js.CodePoints

/-!
# Wrapping an annotation

`wrapLines` of `doodleGeometry.ts`: greedy lines of the words of each paragraph, a word
that is too wide broken between code points. The loop keeps the current line in a
variable whose empty value also stands for "no word yet", so a word that is reached with an
empty line loses the space before it.
-/

namespace PocketShell.Doodle

open Js (Text ascii codePoints IsCodePoint)

def space : UInt16 := 0x20

def newline : UInt16 := 0x0a

section Wrapping

variable {W : Type} [LinearOrder W] (maxWidth : W) (measure : Text → W)

/-! ## The functions of the source -/

/-- One code point more in `breakWord`: the finished pieces and the chunk. -/
def breakPoint (state : List Text × Text) (ch : Text) : List Text × Text :=
  let candidate := state.2 ++ ch
  if state.2 ≠ [] ∧ maxWidth < measure candidate then (state.1 ++ [state.2], ch)
  else (state.1, candidate)

/-- Split one over-long word into chunks that each fit. -/
def breakWord (word : Text) : List Text :=
  let state := (codePoints word).foldl (breakPoint maxWidth measure) ([], [])
  state.1 ++ [state.2]

/-- One word more in `wrapLines`: the lines so far and the current line. -/
def wrapWord (state : List Text × Text) (word : Text) : List Text × Text :=
  let state :=
    if state.2 ≠ [] ∧ maxWidth < measure (state.2 ++ space :: word) then (state.1 ++ [state.2], [])
    else state
  if state.2 = [] ∧ maxWidth < measure word then
    -- Every piece but the last is a finished line, the last one keeps going.
    let pieces := breakWord maxWidth measure word
    (state.1 ++ pieces.dropLast, pieces.getLast?.getD [])
  else (state.1, if state.2 = [] then word else state.2 ++ space :: word)

def wrapParagraph (out : List Text) (paragraph : Text) : List Text :=
  if paragraph = [] then out ++ [[]]
  else
    let state := (paragraph.splitOn space).foldl (wrapWord maxWidth measure) (out, [])
    state.1 ++ [state.2]

/-- Break `text` into rendered lines, at most `maxWidth` wide. -/
def wrapLines [Zero W] (text : Text) : List Text :=
  let paragraphs := text.splitOn newline
  if ¬0 < maxWidth then paragraphs
  else paragraphs.foldl (wrapParagraph maxWidth measure) []

/-! ## What wrapping is for -/

/-- With one space or nothing put back at each break, the lines spell the text. -/
inductive Spells : List Text → Text → Prop
  | last (line : Text) : Spells [line] line
  | joined {line text : Text} {lines : List Text} : Spells lines text → Spells (line :: lines) (line ++ text)
  | spaced {line text : Text} {lines : List Text} :
    Spells lines text → Spells (line :: lines) (line ++ space :: text)

/-- The lines of one paragraph. -/
def linesOf (paragraph : Text) : List Text := wrapParagraph maxWidth measure [] paragraph

/-- The lines that a paragraph should have. -/
structure Wrapped (paragraph : Text) (lines : List Text) : Prop where
  width : ∀ line ∈ lines, measure line ≤ maxWidth ∨ IsCodePoint line
  spelled : Spells lines paragraph
  blank : paragraph = [] → lines = [[]]
  verbatim : (∀ start, start <+: paragraph → measure start ≤ maxWidth) → lines = [paragraph]

/-- From the current line on, no empty word with another one after it comes where a space
is too wide. -/
def SpacesFit (line : Text) : List Text → Prop
  | [] => True
  | word :: rest =>
    (word = [] → rest ≠ [] → measure (line ++ [space]) ≤ maxWidth) ∧
      SpacesFit (wrapWord maxWidth measure ([], line) word).2 rest

/-- No space in front, and no second of two adjacent spaces where the line is full. -/
def Keeps (paragraph : Text) : Prop :=
  paragraph.head? ≠ some space ∧ SpacesFit maxWidth measure [] (paragraph.splitOn space)

instance decidableSpacesFit : (line : Text) → (words : List Text) →
    Decidable (SpacesFit maxWidth measure line words)
  | _, [] => .isTrue trivial
  | line, word :: rest =>
    have := decidableSpacesFit (wrapWord maxWidth measure ([], line) word).2 rest
    inferInstanceAs (Decidable ((word = [] → rest ≠ [] → measure (line ++ [space]) ≤ maxWidth) ∧
      SpacesFit maxWidth measure (wrapWord maxWidth measure ([], line) word).2 rest))

instance (paragraph : Text) : Decidable (Keeps maxWidth measure paragraph) :=
  inferInstanceAs (Decidable (paragraph.head? ≠ some space ∧
    SpacesFit maxWidth measure [] (paragraph.splitOn space)))

/-! ## Spelling -/

variable {maxWidth measure} {lines more : List Text} {line text word : Text} {words : List Text}

theorem Spells.head (h : Spells (line :: lines) text) : line <+: text := by
  cases h with
  | last => exact List.prefix_refl line
  | joined => exact List.prefix_append line _
  | spaced => exact List.prefix_append line _

theorem Spells.ne_nil (h : Spells lines text) : lines ≠ [] := by
  cases h <;> exact List.cons_ne_nil _ _

/-- Where the text goes on with no space, nothing is put back at the break. -/
theorem spells_joined (hlines : lines ≠ []) (hhead : text.head? ≠ some space) :
    Spells (line :: lines) (line ++ text) ↔ Spells lines text := by
  refine ⟨fun h => ?_, .joined⟩
  generalize hwhole : line ++ text = whole at h
  cases h with
  | last => exact absurd rfl hlines
  | joined h => rwa [List.append_cancel_left hwhole]
  | spaced h => exact absurd (congrArg List.head? (List.append_cancel_left hwhole)) hhead

/-- Where it goes on with a space that the next line does not have, one is. -/
theorem spells_spaced (hlines : ∀ text, Spells lines text → text.head? ≠ some space)
    (hne : lines ≠ []) :
    Spells (line :: lines) (line ++ space :: text) ↔ Spells lines text := by
  refine ⟨fun h => ?_, .spaced⟩
  generalize hwhole : line ++ space :: text = whole at h
  cases h with
  | last => exact absurd rfl hne
  | joined h =>
    have htext := List.append_cancel_left hwhole
    exact absurd (htext ▸ rfl) (hlines _ h)
  | spaced h => rwa [(List.cons.inj (List.append_cancel_left hwhole)).2]

theorem head_append {left : Text} (hne : left ≠ []) (hfree : space ∉ left) :
    (left ++ text).head? ≠ some space := by
  obtain ⟨unit, left, rfl⟩ := List.exists_cons_of_ne_nil hne
  intro h
  exact hfree (Option.some.inj h ▸ List.mem_cons_self)

theorem spells_pieces {pieces : List Text} (hlines : lines ≠ []) (hhead : text.head? ≠ some space)
    (h : ∀ piece ∈ pieces, piece ≠ [] ∧ space ∉ piece) :
    Spells (pieces ++ lines) (pieces.flatten ++ text) ↔ Spells lines text := by
  induction pieces with
  | nil => exact Iff.rfl
  | cons piece pieces ih =>
    obtain ⟨⟨hpiece, hfree⟩, hrest⟩ := List.forall_mem_cons.mp h
    have hnext : (pieces.flatten ++ text).head? ≠ some space := by
      cases pieces with
      | nil => exact hhead
      | cons next pieces =>
        have hn := hrest next List.mem_cons_self
        rw [List.flatten_cons, List.append_assoc]
        exact head_append hn.1 hn.2
    rw [List.flatten_cons, List.append_assoc, List.cons_append,
      spells_joined (List.append_ne_nil_of_right_ne_nil _ hlines) hnext, ih hrest]

/-! ## Over-long words -/

/-- A line that is not too long, or cannot be shorter. -/
def Fine (maxWidth : W) (measure : Text → W) (line : Text) : Prop :=
  measure line ≤ maxWidth ∨ IsCodePoint line

/-- The pieces that are done are not empty, and neither is the chunk after the first
code point. -/
theorem breakPoints_spec : ∀ (points : List Text) (state : List Text × Text),
    (∀ point ∈ points, IsCodePoint point) →
    (∀ piece ∈ state.1, piece ≠ [] ∧ Fine maxWidth measure piece) →
    (state.2 ≠ [] → Fine maxWidth measure state.2) →
    ∃ pieces chunk, points.foldl (breakPoint maxWidth measure) state = (pieces, chunk) ∧
      (∀ piece ∈ pieces, piece ≠ [] ∧ Fine maxWidth measure piece) ∧
      (chunk ≠ [] → Fine maxWidth measure chunk) ∧ (points ≠ [] ∨ state.2 ≠ [] → chunk ≠ []) ∧
      pieces.flatten ++ chunk = state.1.flatten ++ state.2 ++ points.flatten
  | [], (pieces, chunk), _, hpieces, hchunk =>
    ⟨pieces, chunk, rfl, hpieces, hchunk, fun h => h.resolve_left fun h => h rfl, by simp⟩
  | point :: points, (pieces, chunk), hpoints, hpieces, hchunk => by
    obtain ⟨hpoint, hrest⟩ := List.forall_mem_cons.mp hpoints
    rw [List.foldl_cons, breakPoint]
    split
    · next hwide =>
      have hdone : ∀ piece ∈ pieces ++ [chunk], piece ≠ [] ∧ Fine maxWidth measure piece :=
        List.forall_mem_append.mpr ⟨hpieces, List.forall_mem_singleton.mpr ⟨hwide.1, hchunk hwide.1⟩⟩
      obtain ⟨pieces', chunk', heq, hall, hfine, hne, hflat⟩ :=
        breakPoints_spec points (pieces ++ [chunk], point) hrest hdone fun _ => .inr hpoint
      refine ⟨pieces', chunk', heq, hall, hfine, fun _ => hne (.inr hpoint.ne_nil), ?_⟩
      rw [hflat]
      simp
    · next hnarrow =>
      have hne : chunk ++ point ≠ [] := List.append_ne_nil_of_right_ne_nil _ hpoint.ne_nil
      have hfine : chunk ++ point ≠ [] → Fine maxWidth measure (chunk ++ point) := by
        intro _
        by_cases hempty : chunk = []
        · rw [hempty]
          exact .inr hpoint
        · exact .inl (not_lt.mp fun hlt => hnarrow ⟨hempty, hlt⟩)
      obtain ⟨pieces', chunk', heq, hall, hfine', hne', hflat⟩ :=
        breakPoints_spec points (pieces, chunk ++ point) hrest hpieces hfine
      refine ⟨pieces', chunk', heq, hall, hfine', fun _ => hne' (.inr hne), ?_⟩
      rw [hflat]
      simp

theorem breakWord_spec (h : word ≠ []) :
    ∃ pieces last, breakWord maxWidth measure word = pieces ++ [last] ∧ last ≠ [] ∧
      Fine maxWidth measure last ∧ (∀ piece ∈ pieces, piece ≠ [] ∧ Fine maxWidth measure piece) ∧
      pieces.flatten ++ last = word := by
  obtain ⟨pieces, chunk, heq, hall, hfine, hne, hflat⟩ :=
    @breakPoints_spec W _ maxWidth measure (codePoints word) ([], [])
      (Js.codePoints_single word) (fun _ h => by cases h) (fun h => absurd rfl h)
  have hchunk := hne (.inl (Js.codePoints_ne_nil h))
  refine ⟨pieces, chunk, ?_, hchunk, hfine hchunk, hall, ?_⟩
  · rw [breakWord, heq]
  · rw [hflat, Js.codePoints_flatten]
    rfl

/-! ## One word -/

/-- A word on a line of its own. -/
theorem wrapWord_fresh (hempty : measure [] ≤ maxWidth) (word : Text) :
    ∃ pieces last, wrapWord maxWidth measure ([], []) word = (pieces, last) ∧
      pieces.flatten ++ last = word ∧ (word ≠ [] → last ≠ []) ∧ Fine maxWidth measure last ∧
      (∀ piece ∈ pieces, piece ≠ [] ∧ Fine maxWidth measure piece) ∧
      (measure word ≤ maxWidth → pieces = []) := by
  have hfirst : ¬((([], []) : List Text × Text).2 ≠ [] ∧
      maxWidth < measure ((([], []) : List Text × Text).2 ++ space :: word)) := fun h => h.1 rfl
  unfold wrapWord
  rw [if_neg hfirst]
  dsimp only
  split
  · next hwide =>
    have hword : word ≠ [] := by
      rintro rfl
      exact absurd hwide.2 (not_lt.mpr hempty)
    obtain ⟨pieces, last, heq, hlast, hfine, hall, hflat⟩ :=
      @breakWord_spec W _ maxWidth measure word hword
    refine ⟨pieces, last, ?_, hflat, fun _ => hlast, hfine, hall, fun h => absurd hwide.2 (not_lt.mpr h)⟩
    rw [heq]
    simp
  · next hfits =>
    have hle : measure word ≤ maxWidth := not_lt.mp fun hlt => hfits ⟨rfl, hlt⟩
    exact ⟨[], word, rfl, rfl, id, .inl hle, fun _ h => (by cases h), fun _ => rfl⟩

theorem wrapWord_out (out : List Text) (line word : Text) :
    wrapWord maxWidth measure (out, line) word =
      (out ++ (wrapWord maxWidth measure ([], line) word).1,
        (wrapWord maxWidth measure ([], line) word).2) := by
  unfold wrapWord
  by_cases hwide : line ≠ [] ∧ maxWidth < measure (line ++ space :: word)
  · simp only [if_pos hwide]
    split <;> simp
  · simp only [if_neg hwide]
    split <;> simp

/-- A word that fits goes on the line. -/
theorem wrapWord_fits (hline : line ≠ []) (h : measure (line ++ space :: word) ≤ maxWidth) :
    wrapWord maxWidth measure ([], line) word = ([], line ++ space :: word) := by
  have hfits : ¬(line ≠ [] ∧ maxWidth < measure (line ++ space :: word)) := fun hw => not_lt.mpr h hw.2
  unfold wrapWord
  simp only [if_neg hfits]
  rw [if_neg fun hw => hline hw.1, if_neg hline]

/-- One that does not ends the line. -/
theorem wrapWord_wide (hline : line ≠ []) (h : maxWidth < measure (line ++ space :: word)) :
    wrapWord maxWidth measure ([], line) word =
      (line :: (wrapWord maxWidth measure ([], []) word).1, (wrapWord maxWidth measure ([], []) word).2) := by
  have hbreak : wrapWord maxWidth measure ([], line) word = wrapWord maxWidth measure ([line], []) word := by
    have hwide : line ≠ [] ∧ maxWidth < measure (line ++ space :: word) := ⟨hline, h⟩
    have hdone : ¬(([] : Text) ≠ [] ∧ maxWidth < measure ([] ++ space :: word)) := fun h => h.1 rfl
    unfold wrapWord
    dsimp only
    rw [if_pos hwide, if_neg hdone]
    rfl
  rw [hbreak, wrapWord_out]
  rfl

/-! ## The words of a paragraph -/

/-- The lines that end after the current one is reached. -/
def linesFrom (maxWidth : W) (measure : Text → W) (line : Text) (words : List Text) : List Text :=
  let state := words.foldl (wrapWord maxWidth measure) ([], line)
  state.1 ++ [state.2]

/-- What stands after the current line. -/
def tail (words : List Text) : Text := words.flatMap (space :: ·)

theorem foldl_out (out : List Text) (line : Text) (words : List Text) :
    words.foldl (wrapWord maxWidth measure) (out, line) =
      (out ++ (words.foldl (wrapWord maxWidth measure) ([], line)).1,
        (words.foldl (wrapWord maxWidth measure) ([], line)).2) := by
  induction words generalizing out line with
  | nil => simp
  | cons word words ih =>
    rw [List.foldl_cons, wrapWord_out, ih, List.foldl_cons,
      ih (wrapWord maxWidth measure ([], line) word).1 (wrapWord maxWidth measure ([], line) word).2]
    simp

theorem linesFrom_cons (line word : Text) (words : List Text) :
    linesFrom maxWidth measure line (word :: words) =
      (wrapWord maxWidth measure ([], line) word).1 ++
        linesFrom maxWidth measure (wrapWord maxWidth measure ([], line) word).2 words := by
  unfold linesFrom
  rw [List.foldl_cons, foldl_out]
  simp

theorem linesFrom_ne_nil : linesFrom maxWidth measure line words ≠ [] :=
  List.append_ne_nil_of_right_ne_nil _ (List.cons_ne_nil _ _)

theorem linesFrom_wide (hline : line ≠ []) (h : maxWidth < measure (line ++ space :: word)) :
    linesFrom maxWidth measure line (word :: words) =
      line :: linesFrom maxWidth measure [] (word :: words) := by
  rw [linesFrom_cons, linesFrom_cons, wrapWord_wide hline h]
  rfl

/-- The first line begins with the current one. -/
theorem linesFrom_head (hline : line ≠ []) :
    ∃ more lines, linesFrom maxWidth measure line words = (line ++ more) :: lines := by
  induction words generalizing line with
  | nil => exact ⟨[], [], by simp [linesFrom]⟩
  | cons word words ih =>
    by_cases hwide : maxWidth < measure (line ++ space :: word)
    · rw [linesFrom_wide hline hwide]
      exact ⟨[], _, by rw [List.append_nil]⟩
    · rw [linesFrom_cons, wrapWord_fits hline (not_lt.mp hwide)]
      obtain ⟨more, lines, heq⟩ := ih (List.append_ne_nil_of_left_ne_nil hline (space :: word))
      exact ⟨space :: word ++ more, lines, by rw [List.nil_append, heq, List.append_assoc]⟩

/-- A line that has no word yet begins no text with a space. -/
theorem fresh_head (hempty : measure [] ≤ maxWidth) (hwords : ∀ word ∈ words, space ∉ word) :
    ∀ text, Spells (linesFrom maxWidth measure [] words) text → text.head? ≠ some space := by
  induction words with
  | nil =>
    intro text h
    have hline : linesFrom maxWidth measure [] [] = [[]] := rfl
    rw [hline] at h
    cases h with
    | last => exact fun h => by cases h
    | joined h => exact absurd rfl h.ne_nil
    | spaced h => exact absurd rfl h.ne_nil
  | cons word words ih =>
    obtain ⟨hfree, hrest⟩ := List.forall_mem_cons.mp hwords
    intro text h
    obtain ⟨pieces, last, heq, hflat, hlast, _, hpieces, hnone⟩ :=
      wrapWord_fresh hempty word
    rw [linesFrom_cons, heq] at h
    by_cases hword : word = []
    · subst hword
      obtain ⟨_, rfl⟩ := List.append_eq_nil_iff.mp hflat
      rw [hnone hempty] at h
      exact ih hrest text h
    · -- The first piece of the word, or the line that begins with its only one.
      cases pieces with
      | nil =>
        have hlast' : last = word := hflat
        obtain ⟨more, lines, hhead⟩ :=
          @linesFrom_head W _ maxWidth measure last words (hlast hword)
        rw [List.nil_append, hhead] at h
        obtain ⟨rest, rfl⟩ := h.head
        rw [hlast', List.append_assoc]
        exact head_append hword hfree
      | cons piece pieces =>
        obtain ⟨rest, rfl⟩ := h.head
        refine head_append (hpieces piece List.mem_cons_self).1 fun hm => hfree ?_
        rw [← hflat, List.flatten_cons, List.append_assoc]
        exact List.mem_append_left _ hm

/-- Spelling from a fresh word on is spelling from its last piece on. -/
theorem spells_fresh (hempty : measure [] ≤ maxWidth) (hword : word ≠ []) (hfree : space ∉ word) :
    Spells (linesFrom maxWidth measure [] (word :: words)) (word ++ tail words) ↔
      Spells (linesFrom maxWidth measure (wrapWord maxWidth measure ([], []) word).2 words)
        ((wrapWord maxWidth measure ([], []) word).2 ++ tail words) := by
  obtain ⟨pieces, last, heq, hflat, hlast, _, hpieces, _⟩ :=
    wrapWord_fresh hempty word
  have hin : ∀ unit, unit ∈ pieces.flatten ++ last → unit ∈ word := fun unit h => hflat ▸ h
  rw [linesFrom_cons, heq]
  conv_lhs => rw [← hflat, List.append_assoc]
  refine spells_pieces linesFrom_ne_nil ?_ fun piece hp => ⟨(hpieces piece hp).1, fun hm => hfree ?_⟩
  · exact head_append (hlast hword) fun hm => hfree (hin _ (List.mem_append_right _ hm))
  · exact hin _ (List.mem_append_left _ (List.mem_flatten_of_mem hp hm))

/-- The lines spell the paragraph exactly where no second space is too wide. -/
theorem spells_iff (hempty : measure [] ≤ maxWidth) (hwords : ∀ word ∈ words, space ∉ word)
    (hline : line ≠ []) :
    Spells (linesFrom maxWidth measure line words) (line ++ tail words) ↔
      SpacesFit maxWidth measure line words := by
  induction words generalizing line with
  | nil =>
    have hone : linesFrom maxWidth measure line [] = [line] := rfl
    rw [hone, tail, List.flatMap_nil, List.append_nil]
    exact iff_of_true (.last line) trivial
  | cons word words ih =>
    obtain ⟨hfree, hrest⟩ := List.forall_mem_cons.mp hwords
    have htail : tail (word :: words) = space :: (word ++ tail words) := rfl
    rw [SpacesFit, htail]
    by_cases hwide : maxWidth < measure (line ++ space :: word)
    · rw [linesFrom_wide hline hwide,
        spells_spaced (fresh_head hempty hwords) linesFrom_ne_nil, wrapWord_wide hline hwide]
      by_cases hword : word = []
      · subst hword
        have hempty' : wrapWord maxWidth measure ([], []) [] = ([], []) := by
          obtain ⟨pieces, last, heq, hflat, _, _, _, hnone⟩ :=
            wrapWord_fresh hempty []
          rw [heq, (List.append_eq_nil_iff.mp hflat).2, hnone hempty]
        rw [linesFrom_cons, hempty', List.nil_append, List.nil_append]
        cases words with
        | nil => exact iff_of_true (.last []) ⟨fun _ h => absurd rfl h, trivial⟩
        | cons next words =>
          refine iff_of_false (fun h => ?_) fun h => ?_
          · exact fresh_head hempty hrest _ h rfl
          · exact not_lt.mpr (h.1 rfl (List.cons_ne_nil _ _)) hwide
      · obtain ⟨pieces, last, heq, _, hlast, _⟩ := wrapWord_fresh hempty word
        rw [spells_fresh hempty hword hfree, heq]
        rw [ih hrest (hlast hword)]
        exact (and_iff_right fun h => absurd h hword).symm
    · rw [linesFrom_cons, wrapWord_fits hline (not_lt.mp hwide), List.nil_append]
      have hassoc : line ++ space :: (word ++ tail words) = (line ++ space :: word) ++ tail words := by simp
      rw [hassoc, ih hrest (List.append_ne_nil_of_left_ne_nil hline _)]
      refine (and_iff_right fun h _ => ?_).symm
      rw [h] at hwide
      exact not_lt.mp hwide

/-! ## Paragraphs -/

theorem linesFrom_fine (hempty : measure [] ≤ maxWidth) (hline : Fine maxWidth measure line) :
    ∀ other ∈ linesFrom maxWidth measure line words, Fine maxWidth measure other := by
  induction words generalizing line with
  | nil => exact List.forall_mem_singleton.mpr hline
  | cons word words ih =>
    obtain ⟨pieces, last, heq, _, _, hlast, hpieces, _⟩ :=
      wrapWord_fresh hempty word
    have hfresh : ∀ other ∈ linesFrom maxWidth measure [] (word :: words), Fine maxWidth measure other := by
      rw [linesFrom_cons, heq]
      exact List.forall_mem_append.mpr ⟨fun piece hp => (hpieces piece hp).2, ih hlast⟩
    by_cases hne : line = []
    · rw [hne]
      exact hfresh
    · by_cases hwide : maxWidth < measure (line ++ space :: word)
      · rw [linesFrom_wide hne hwide]
        exact List.forall_mem_cons.mpr ⟨hline, hfresh⟩
      · rw [linesFrom_cons, wrapWord_fits hne (not_lt.mp hwide)]
        exact ih (.inl (not_lt.mp hwide))

/-- Where every beginning fits, the line is never broken. -/
theorem linesFrom_verbatim (hline : line ≠ [])
    (hfits : ∀ start, start <+: line ++ tail words → measure start ≤ maxWidth) :
    linesFrom maxWidth measure line words = [line ++ tail words] := by
  induction words generalizing line with
  | nil => simp [linesFrom, tail]
  | cons word words ih =>
    have hassoc : line ++ tail (word :: words) = (line ++ space :: word) ++ tail words := by simp [tail]
    rw [hassoc] at hfits ⊢
    rw [linesFrom_cons, wrapWord_fits hline (hfits _ (List.prefix_append _ _)), List.nil_append]
    exact ih (List.append_ne_nil_of_left_ne_nil hline _) hfits

theorem paragraph_words (paragraph : Text) :
    ∃ first rest, paragraph.splitOn space = first :: rest ∧ paragraph = first ++ tail rest := by
  cases hsplit : paragraph.splitOn space with
  | nil => exact absurd hsplit (List.splitOn_ne_nil _ _)
  | cons first rest =>
    refine ⟨first, rest, rfl, ?_⟩
    have hjoin : [space].intercalate (paragraph.splitOn space) = paragraph := List.intercalate_splitOn space
    rw [hsplit] at hjoin
    rw [← hjoin]
    clear hsplit hjoin
    induction rest generalizing first with
    | nil => simp [tail]
    | cons next rest ih =>
      rw [List.intercalate_cons_cons, ih next]
      simp [tail]

/-- The lines of a paragraph that is not empty, from its first word on. -/
theorem linesOf_words {paragraph : Text} (h : paragraph ≠ []) :
    linesOf maxWidth measure paragraph = linesFrom maxWidth measure [] (paragraph.splitOn space) := by
  rw [linesOf, wrapParagraph, if_neg h]
  rfl

/-- Wrapping is faithful exactly to the paragraphs it can keep. -/
theorem wrapped_iff (hempty : measure [] ≤ maxWidth) (paragraph : Text) :
    Wrapped maxWidth measure paragraph (linesOf maxWidth measure paragraph) ↔
      Keeps maxWidth measure paragraph := by
  by_cases hblank : paragraph = []
  · subst hblank
    have hlines : linesOf maxWidth measure [] = [[]] := rfl
    rw [hlines]
    refine iff_of_true ?_ ⟨fun h => (by cases h), fun _ h => absurd rfl h, trivial⟩
    exact ⟨List.forall_mem_singleton.mpr (.inl hempty), .last [], fun _ => rfl, fun _ => rfl⟩
  obtain ⟨first, rest, hsplit, htext⟩ := paragraph_words paragraph
  have hwords : ∀ word ∈ first :: rest, space ∉ word := hsplit ▸ Js.splitOn_free
  obtain ⟨hfirst, hrest⟩ := List.forall_mem_cons.mp hwords
  have hfine : ∀ line ∈ linesFrom maxWidth measure [] (first :: rest), Fine maxWidth measure line :=
    linesFrom_fine hempty (.inl hempty)
  rw [linesOf_words hblank, Keeps, hsplit]
  by_cases hword : first = []
  · -- The paragraph begins with the space that the empty line loses.
    subst hword
    have hnext : ∃ next others, rest = next :: others := by
      refine List.exists_cons_of_ne_nil ?_
      rintro rfl
      exact hblank htext
    obtain ⟨next, others, rfl⟩ := hnext
    have hhead : paragraph.head? = some space := by rw [htext]; rfl
    refine iff_of_false (fun h => ?_) fun h => h.1 hhead
    exact fresh_head hempty hwords _ h.spelled hhead
  · obtain ⟨pieces, last, heq, hflat, hlast, _, _, hnone⟩ := wrapWord_fresh hempty first
    have hspells : Spells (linesFrom maxWidth measure [] (first :: rest)) paragraph ↔
        SpacesFit maxWidth measure [] (first :: rest) := by
      have h := @spells_fresh W _ maxWidth measure first rest hempty hword hfirst
      rw [heq] at h
      rw [htext, h, SpacesFit, heq]
      rw [spells_iff hempty hrest (hlast hword)]
      exact (and_iff_right fun h => absurd h hword).symm
    have hhead : paragraph.head? ≠ some space := htext ▸ head_append hword hfirst
    refine ⟨fun h => ⟨hhead, hspells.mp h.spelled⟩, fun h => ⟨hfine, hspells.mpr h.2,
      fun h => absurd h hblank, fun hfits => ?_⟩⟩
    have hnarrow : measure first ≤ maxWidth := hfits first (htext ▸ List.prefix_append _ _)
    have hsame : last = first := by
      rwa [hnone hnarrow] at hflat
    rw [linesFrom_cons, heq, hnone hnarrow, List.nil_append, hsame]
    rw [linesFrom_verbatim hword (htext ▸ hfits), ← htext]

/-- The paragraphs are wrapped one after the other. -/
theorem wrapLines_paragraphs [Zero W] (hpos : 0 < maxWidth) (text : Text) :
    wrapLines maxWidth measure text = (text.splitOn newline).flatMap (linesOf maxWidth measure) := by
  have hout : ∀ (paragraphs out : List (List UInt16)), paragraphs.foldl (wrapParagraph maxWidth measure) out =
      out ++ paragraphs.flatMap (linesOf maxWidth measure) := by
    intro paragraphs
    induction paragraphs with
    | nil => simp
    | cons paragraph paragraphs ih =>
      intro out
      have hone : wrapParagraph maxWidth measure out paragraph = out ++ linesOf maxWidth measure paragraph := by
        unfold linesOf wrapParagraph
        split
        · rfl
        · rw [foldl_out]
          simp
      rw [List.foldl_cons, ih, hone, List.flatMap_cons, List.append_assoc]
  rw [wrapLines, if_neg (not_not.mpr hpos), hout]
  rfl

/-- No line is too wide, but for one code point, whatever the spaces. -/
theorem wrapLines_fine [Zero W] (hpos : 0 < maxWidth) (hempty : measure [] ≤ maxWidth) (text : Text) :
    ∀ line ∈ wrapLines maxWidth measure text, Fine maxWidth measure line := by
  rw [wrapLines_paragraphs hpos]
  intro line hline
  obtain ⟨paragraph, _, hline⟩ := List.mem_flatMap.mp hline
  by_cases hblank : paragraph = []
  · rw [hblank] at hline
    rw [List.mem_singleton.mp (show line ∈ [[]] from hline)]
    exact .inl hempty
  · rw [linesOf_words hblank] at hline
    exact linesFrom_fine hempty (.inl hempty) line hline

variable (maxWidth measure) in
/-- Paragraphs come in order, each by lines that keep its width and its text. -/
def Faithful [Zero W] (text : Text) : Prop :=
  wrapLines maxWidth measure text = (text.splitOn newline).flatMap (linesOf maxWidth measure) ∧
    ∀ paragraph ∈ text.splitOn newline, Wrapped maxWidth measure paragraph (linesOf maxWidth measure paragraph)

/-- Wrapping keeps the text and its width exactly where no space is reached with an empty
or a full line. -/
theorem wrapLines_faithful [Zero W] (maxWidth : W) (measure : Text → W) (hpos : 0 < maxWidth)
    (hempty : measure [] ≤ maxWidth) (text : Text) :
    Faithful maxWidth measure text ↔
      ∀ paragraph ∈ text.splitOn newline, Keeps maxWidth measure paragraph := by
  have hlines := @wrapLines_paragraphs W _ maxWidth measure _ hpos text
  rw [Faithful, and_iff_right hlines]
  exact forall₂_congr fun paragraph _ => wrapped_iff hempty paragraph

end Wrapping

/-- A wide gap that fits, and a path that is broken. -/
theorem wrapLines_faithful_list : Faithful 4 List.length (ascii "a  b\n/srv/log c") :=
  (wrapLines_faithful 4 List.length (by decide) (by decide) _).mpr (by decide)

/-- A space in front, and the second of two where the line is full. -/
theorem spaces_lost :
    (wrapLines 10 List.length (ascii " a") = [ascii "a"] ∧ ¬Faithful 10 List.length (ascii " a")) ∧
      wrapLines 2 List.length (ascii "ab  cd") = [ascii "ab", ascii "cd"] ∧
        ¬Faithful 2 List.length (ascii "ab  cd") := by
  refine ⟨⟨by decide, fun h => ?_⟩, by decide, fun h => ?_⟩
  · have hkeeps := (wrapped_iff (by decide) (ascii " a")).mp (h.2 (ascii " a") (by decide))
    exact absurd hkeeps (by decide)
  · have hkeeps := (wrapped_iff (by decide) (ascii "ab  cd")).mp (h.2 (ascii "ab  cd") (by decide))
    exact absurd hkeeps (by decide)

end PocketShell.Doodle
