import PocketShell.Shell.Syntax

/-!
# Quoting for a remote shell

* `shellQuote`, `shellQuoteRemotePath`: the quoting of `shellQuote.ts`.
* `expand_shellQuote`: a quoted value is one word, with that value.
* `expand_shellQuoteRemotePath`: a quoted path is one word, if the home directory is not split.
-/

namespace PocketShell.HostCommands

open Js (Text ascii)
open Shell (Word Part Piece run step expand assigned ReadsWord Begins isIfs singleQuote)

/-! ## The code -/

/-- `'\''` for every single quote. -/
def shellEscapeInsideSingleQuotes (value : Text) : Text :=
  value.flatMap fun unit => if unit = singleQuote then ascii "'\\''" else [unit]

def shellQuote (value : Text) : Text := ascii "'" ++ shellEscapeInsideSingleQuotes value ++ ascii "'"

/-- `value.trim() || '~'` -/
def trimmedPath (value : Text) : Text := if Js.trim value = [] then ascii "~" else Js.trim value

def shellQuoteRemotePath (value : Text) : Text :=
  if trimmedPath value = ascii "~" || trimmedPath value = ascii "$HOME" then ascii "$HOME"
  else if (ascii "~/").isPrefixOf (trimmedPath value) then
    ascii "$HOME/" ++ shellQuote ((trimmedPath value).drop 2)
  else if (ascii "$HOME/").isPrefixOf (trimmedPath value) then
    ascii "$HOME/" ++ shellQuote ((trimmedPath value).drop 6)
  else shellQuote (trimmedPath value)

/-! ## What it stands for -/

inductive Place
  /-- The home directory. -/
  | home
  /-- A path below it. -/
  | below (rest : Text)
  | path (value : Text)

/-- The place that a remote path names. -/
def placeOf (value : Text) : Place :=
  if trimmedPath value = ascii "~" || trimmedPath value = ascii "$HOME" then .home
  else if (ascii "~/").isPrefixOf (trimmedPath value) then .below ((trimmedPath value).drop 2)
  else if (ascii "$HOME/").isPrefixOf (trimmedPath value) then .below ((trimmedPath value).drop 6)
  else .path (trimmedPath value)

def Place.usesHome : Place → Bool
  | .path _ => false
  | _ => true

/-- The path of a place. -/
def Place.at (home : Text) : Place → Text
  | .home => home
  | .below rest => home ++ ascii "/" ++ rest
  | .path value => value

/-- The parts that a quoted value is read as. -/
def quotedParts (value : Text) : Word :=
  value.flatMap fun unit => if unit = singleQuote then [.quoted unit, .quotes] else [.quoted unit]

def dataWord (value : Text) : Word := .quotes :: quotedParts value

def homeParam : Part := .param (ascii "HOME") false

def Place.word : Place → Word
  | .home => [homeParam]
  | .below rest => [homeParam, .plain 0x2f] ++ dataWord rest
  | .path value => dataWord value

/-- The text that a place is written as. -/
def Place.text : Place → Text
  | .home => ascii "$HOME"
  | .below rest => ascii "$HOME/" ++ shellQuote rest
  | .path value => shellQuote value

theorem shellQuoteRemotePath_text (value : Text) : shellQuoteRemotePath value = (placeOf value).text := by
  unfold shellQuoteRemotePath placeOf
  split
  · rfl
  split
  · rfl
  split <;> rfl

/-! ## How it is read -/

theorem run_escape (s : Shell.State) (value : Text) (parts : Word) :
    run ⟨s.tokens, some parts, .single⟩ (shellEscapeInsideSingleQuotes value) =
      ⟨s.tokens, some (parts ++ quotedParts value), .single⟩ := by
  induction value generalizing parts with
  | nil => simp [shellEscapeInsideSingleQuotes, quotedParts, run]
  | cons unit rest ih =>
    by_cases hunit : unit = singleQuote
    · subst hunit
      show run ⟨s.tokens, some (parts ++ [.quoted singleQuote] ++ [.quotes]), .single⟩
        (shellEscapeInsideSingleQuotes rest) = _
      rw [ih, List.append_assoc, List.append_assoc]
      rfl
    · have hescape : shellEscapeInsideSingleQuotes (unit :: rest) =
          unit :: shellEscapeInsideSingleQuotes rest := by
        simp [shellEscapeInsideSingleQuotes, hunit]
      have hparts : quotedParts (unit :: rest) = .quoted unit :: quotedParts rest := by
        simp [quotedParts, hunit]
      have hstep : step ⟨s.tokens, some parts, .single⟩ unit = ⟨s.tokens, some (parts ++ [.quoted unit]), .single⟩ := by
        show (if unit = singleQuote then _ else _) = _
        rw [if_neg hunit]
        rfl
      rw [hescape, hparts]
      show run (step ⟨s.tokens, some parts, .single⟩ unit) (shellEscapeInsideSingleQuotes rest) = _
      rw [hstep, ih, List.append_assoc]
      rfl

/-- A quoted value goes on with the word it stands in. -/
theorem run_shellQuote {s : Shell.State} (hs : s.mode = .plain) (value : Text) :
    run s (shellQuote value) = { s with word := some (s.word.getD [] ++ dataWord value) } := by
  obtain ⟨tokens, word, mode⟩ := s
  cases hs
  unfold shellQuote
  rw [Shell.run_append, Shell.run_append]
  show run (run ⟨tokens, some (word.getD [] ++ [.quotes]), .single⟩ (shellEscapeInsideSingleQuotes value)) _ = _
  rw [run_escape ⟨tokens, word, .plain⟩, List.append_assoc]
  rfl

theorem begins_shellQuote (value : Text) : Begins (shellQuote value) (dataWord value) :=
  run_shellQuote rfl value

theorem Place.readsWord (place : Place) : ReadsWord place.text place.word := by
  cases place with
  | home => exact Shell.readsWord_name none rfl
  | below rest =>
    refine Begins.readsWord ?_
    have hhome : run Shell.start (ascii "$HOME/") = ⟨[], some [homeParam, .plain 0x2f], .plain⟩ := rfl
    show run Shell.start (ascii "$HOME/" ++ shellQuote rest) = _
    rw [Shell.run_append, hhome, run_shellQuote rfl]
    rfl
  | path value => exact (begins_shellQuote value).readsWord

/-! ## What it expands to -/

section

variable (env : Shell.Env)

theorem whole_quotedParts (value : Text) :
    ∀ unit, Piece.char unit true ∉ (quotedParts value).flatMap (Part.expand env) := by
  intro unit hmem
  obtain ⟨part, hpart, hpiece⟩ := List.mem_flatMap.mp hmem
  obtain ⟨c, -, hc⟩ := List.mem_flatMap.mp hpart
  split at hc
  · rcases List.mem_cons.mp hc with rfl | hc
    · cases List.mem_singleton.mp hpiece
    · cases List.mem_singleton.mp hc
      cases List.mem_singleton.mp hpiece
  · cases List.mem_singleton.mp hc
    cases List.mem_singleton.mp hpiece

theorem assigned_quotedParts (value : Text) : assigned env (quotedParts value) = value := by
  induction value with
  | nil => rfl
  | cons unit rest ih =>
    by_cases hunit : unit = singleQuote
    · subst hunit
      show singleQuote :: assigned env (quotedParts rest) = _
      rw [ih]
    · have hparts : quotedParts (unit :: rest) = .quoted unit :: quotedParts rest := by
        simp [quotedParts, hunit]
      rw [hparts]
      show unit :: assigned env (quotedParts rest) = _
      rw [ih]

theorem assigned_dataWord (value : Text) : assigned env (dataWord value) = value :=
  assigned_quotedParts env value

theorem whole_dataWord (value : Text) :
    ∀ unit, Piece.char unit true ∉ (dataWord value).flatMap (Part.expand env) := by
  intro unit hmem
  rcases List.mem_cons.mp hmem with h | h
  · cases h
  · exact whole_quotedParts env value unit h

theorem expand_dataWord (value : Text) : expand env (dataWord value) = [value] := by
  rw [Shell.expand_whole (by simp [dataWord, Part.expand]) (whole_dataWord env value), assigned_dataWord]

def homeOf : Text := env.param (ascii "HOME")

theorem assigned_append (first second : Word) :
    assigned env (first ++ second) = assigned env first ++ assigned env second := by
  simp [assigned]

theorem assigned_homeParam : assigned env [homeParam] = homeOf env := by
  simp [assigned, homeParam, Part.expand, List.flatMap_map, Piece.text, homeOf]

theorem Place.assigned_word (place : Place) : assigned env place.word = place.at (homeOf env) := by
  cases place with
  | home => exact assigned_homeParam env
  | below rest =>
    show assigned env ([homeParam] ++ ([.plain 0x2f] ++ dataWord rest)) = _
    rw [assigned_append, assigned_append, assigned_homeParam, assigned_dataWord, Place.at, List.append_assoc]
    rfl
  | path value => exact assigned_dataWord env value

theorem whole_homeParam :
    (∀ unit, Piece.char unit true ∉ Part.expand env homeParam) ↔ ∀ unit ∈ homeOf env, isIfs unit = false := by
  constructor
  · intro h unit hunit
    by_contra hifs
    refine h unit (List.mem_map.mpr ⟨unit, hunit, ?_⟩)
    simpa using hifs
  · intro h unit hmem
    obtain ⟨c, hc, hpiece⟩ := List.mem_map.mp hmem
    simp [h c hc] at hpiece

/-- No unit of the home directory is split at where a place uses it. -/
def Place.Whole (place : Place) (home : Text) : Prop :=
  place.usesHome = true → ∀ unit ∈ home, isIfs unit = false

theorem Place.whole_word (place : Place) :
    (∀ unit, Piece.char unit true ∉ place.word.flatMap (Part.expand env)) ↔ place.Whole (homeOf env) := by
  cases place with
  | home =>
    have hword : Place.home.word.flatMap (Part.expand env) = Part.expand env homeParam := by simp [Place.word]
    rw [hword, whole_homeParam]
    simp [Place.Whole, Place.usesHome]
  | below rest =>
    have hword : (Place.below rest).word.flatMap (Part.expand env) =
        Part.expand env homeParam ++ .char 0x2f false :: (dataWord rest).flatMap (Part.expand env) := by
      simp [Place.word, Part.expand]
    rw [hword]
    simp only [List.mem_append, List.mem_cons, not_or, forall_and]
    rw [whole_homeParam]
    constructor
    · rintro ⟨h, -⟩ -
      exact h
    · intro h
      exact ⟨h rfl, (fun _ h => by cases h), whole_dataWord env rest⟩
  | path value => exact iff_of_true (whole_dataWord env value) (fun h => by cases h)

/-- A place is one word exactly when the home directory is not split in it. -/
theorem Place.expand_word (place : Place) (hne : homeOf env ≠ []) :
    expand env place.word = [place.at (homeOf env)] ↔ place.Whole (homeOf env) := by
  rw [← place.whole_word, ← place.assigned_word]
  refine ⟨Shell.whole_of_expand, fun h => Shell.expand_whole ?_ h⟩
  intro hnil
  cases place with
  | home => exact hne (by simpa [Place.word, homeParam, Part.expand, homeOf] using hnil)
  | below rest => simp [Place.word, dataWord, Part.expand] at hnil
  | path value => simp [Place.word, dataWord, Part.expand] at hnil

end

end PocketShell.HostCommands
