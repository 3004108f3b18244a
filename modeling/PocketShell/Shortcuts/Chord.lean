import PocketShell.Js.Text

/-!
# Chords and their spelling

A chord is three modifiers and a key token. Its spelling has the modifiers in a fixed order, so
it can be compared and stored.

* `Casing`: the upper case of the language, with what the spelling relies on.
* `canonicalKey`, `chordToString`, `parseChord`, `formatChord`.
* `readable_parse`: what was read is read again from its own spelling.
-/

namespace PocketShell.Shortcuts

open Js (Text ascii isSpace join)

/-! ## 1. Letters -/

def plus : UInt16 := 0x2b

def upperUnit (unit : UInt16) : UInt16 :=
  if 0x61 ≤ unit && unit ≤ 0x7a then unit - 0x20 else unit

def lowerUnit (unit : UInt16) : UInt16 :=
  if 0x41 ≤ unit && unit ≤ 0x5a then unit + 0x20 else unit

/-- `toUpperCase`: the usual letters of ASCII. What is in upper case stays, nothing disappears,
and no character becomes a space or a plus sign. -/
structure Casing where
  toUpperCase : Text → Text
  ofAscii : ∀ text : Text, text.all (· < 0x80) = true → toUpperCase text = text.map upperUnit
  again : ∀ text, toUpperCase (toUpperCase text) = toUpperCase text
  kept : ∀ text, toUpperCase text = [] → text = []
  marks : ∀ text unit, unit ∈ toUpperCase text → isSpace unit = true ∨ unit = plus → unit ∈ text

variable (casing : Casing)

/-- One character: `Array.from(key).length === 1`. -/
def isCharacter : Text → Bool
  | [_] => true
  | [high, low] => 0xd800 ≤ high && high < 0xdc00 && 0xdc00 ≤ low && low < 0xe000
  | _ => false

/-- Ё stands for the key it is printed on. -/
def layoutAlias (upper : Text) : Text := if upper = [0x401] then [0x60] else upper

/-- The canonical spelling of a key token. -/
def canonicalKey (key : Text) : Text :=
  if key = ascii " " || key = ascii "Space" || key = ascii "Spacebar" then ascii "Space"
  else if isCharacter key then layoutAlias (casing.toUpperCase key)
  else key

/-! ## 2. Chords -/

/-- One chord. `ctrl` is Ctrl or Command. -/
structure Chord where
  ctrl : Bool
  alt : Bool
  shift : Bool
  key : Text
  deriving DecidableEq

/-- The stored spelling: modifiers in a fixed order, then the key. -/
def chordToString (chord : Chord) : Text :=
  join [plus] ((if chord.ctrl then [ascii "Ctrl"] else []) ++ (if chord.alt then [ascii "Alt"] else []) ++
    (if chord.shift then [ascii "Shift"] else []) ++ [chord.key])

inductive Modifier
  | ctrl
  | alt
  | shift
  deriving DecidableEq

/-- The modifier a word names in any case. No character outside ASCII has one of these letters
for its lower case. -/
def modifierOf (head : Text) : Option Modifier :=
  let lower := head.map lowerUnit
  if lower = ascii "ctrl" || lower = ascii "cmd" || lower = ascii "control" ||
      lower = ascii "command" then some .ctrl
  else if lower = ascii "alt" || lower = ascii "option" then some .alt
  else if lower = ascii "shift" then some .shift
  else none

/-- Peel the modifiers off the front. The rest gets shorter each time, and `fuel` starts above
its length. A plus sign at the front is the key itself. -/
def peel : Nat → List Modifier → Text → Option (List Modifier × Text)
  | 0, _, _ => none
  | fuel + 1, held, rest =>
    match rest.findIdx? (· = plus) with
    | none => some (held, rest)
    | some 0 => some (held, rest)
    | some (index + 1) =>
      match modifierOf (rest.take (index + 1)) with
      | none => none
      | some modifier =>
        if modifier ∈ held then none else peel fuel (modifier :: held) (rest.drop (index + 2))

/-- Read a stored chord back. -/
def parseChord (raw : Text) : Option Chord :=
  let trimmed := Js.trim raw
  if trimmed = [] then none
  else
    match peel (trimmed.length + 1) [] trimmed with
    | none => none
    | some (held, rest) =>
      if rest = [] then none
      else some ⟨.ctrl ∈ held, .alt ∈ held, .shift ∈ held, canonicalKey casing rest⟩

/-- How a key token is shown. -/
def keyLabel (key : Text) : Text :=
  if key = ascii "ArrowUp" then ascii "Up"
  else if key = ascii "ArrowDown" then ascii "Down"
  else if key = ascii "ArrowLeft" then ascii "Left"
  else if key = ascii "ArrowRight" then ascii "Right"
  else if key = ascii "Escape" then ascii "Esc"
  else if key = ascii "Delete" then ascii "Del"
  else if key = ascii "PageUp" then ascii "PgUp"
  else if key = ascii "PageDown" then ascii "PgDn"
  else key

/-- The parts of a chord as they are shown. -/
def formatChordParts (chord : Chord) (mac : Bool) : List Text :=
  (if chord.ctrl then [if mac then ascii "Cmd" else ascii "Ctrl"] else []) ++
    (if chord.alt then [if mac then ascii "Option" else ascii "Alt"] else []) ++
    (if chord.shift then [ascii "Shift"] else []) ++ [keyLabel chord.key]

def formatChord (chord : Chord) : Text := join [plus] (formatChordParts chord false)

/-! ## 3. What a spelling says -/

/-- A chord that its own spelling gives back. -/
def Readable (chord : Chord) : Prop := parseChord casing (chordToString chord) = some chord

instance (chord : Chord) : Decidable (Readable casing chord) :=
  inferInstanceAs (Decidable (_ = _))

def Modifier.name : Modifier → Text
  | .ctrl => ascii "Ctrl"
  | .alt => ascii "Alt"
  | .shift => ascii "Shift"

def Chord.modifiers (chord : Chord) : List Modifier :=
  (if chord.ctrl then [.ctrl] else []) ++ (if chord.alt then [.alt] else []) ++
    (if chord.shift then [.shift] else [])

/-- The modifiers, each with its plus sign, before the key. -/
def spelled : List Modifier → Text → Text
  | [], key => key
  | modifier :: rest, key => modifier.name ++ plus :: spelled rest key

theorem chordToString_eq (chord : Chord) :
    chordToString chord = spelled chord.modifiers chord.key := by
  obtain ⟨ctrl, alt, shift, key⟩ := chord
  cases ctrl <;> cases alt <;> cases shift <;>
    simp [chordToString, Chord.modifiers, spelled, join, Modifier.name, List.intercalate]

theorem Chord.nodup_modifiers (chord : Chord) : chord.modifiers.Nodup := by
  obtain ⟨ctrl, alt, shift, key⟩ := chord
  cases ctrl <;> cases alt <;> cases shift <;> simp [Chord.modifiers]

theorem modifierOf_name (modifier : Modifier) : modifierOf modifier.name = some modifier := by
  cases modifier <;> rfl

/-- The first plus sign after a name is the one that ends it. -/
theorem findIdx_name (modifier : Modifier) (rest : Text) :
    (modifier.name ++ plus :: rest).findIdx? (· = plus) = some modifier.name.length := by
  cases modifier <;> rfl

theorem peel_name {fuel : Nat} {held : List Modifier} {modifier : Modifier}
    (hnew : modifier ∉ held) (rest : Text) :
    peel (fuel + 1) held (modifier.name ++ plus :: rest) = peel fuel (modifier :: held) rest := by
  have hlength : ∃ n, modifier.name.length = n + 1 := by cases modifier <;> exact ⟨_, rfl⟩
  obtain ⟨n, hn⟩ := hlength
  have htake : (modifier.name ++ plus :: rest).take (n + 1) = modifier.name := by
    rw [← hn, List.take_left']
    rfl
  have hdrop : (modifier.name ++ plus :: rest).drop (n + 2) = rest := by
    rw [show n + 2 = modifier.name.length + 1 by rw [hn], ← List.drop_drop, List.drop_left]
    rfl
  rw [peel, findIdx_name, hn]
  simp only [htake, hdrop, modifierOf_name, if_neg hnew]

variable {key : Text}

/-- A key with no plus sign, or with one at its front, is not peeled. -/
theorem peel_key {fuel : Nat} {held : List Modifier}
    (h : key.head? = some plus ∨ plus ∉ key) : peel (fuel + 1) held key = some (held, key) := by
  have hidx : key.findIdx? (· = plus) = some 0 ∨ key.findIdx? (· = plus) = none := by
    rcases h with h | h
    · obtain ⟨rest, rfl⟩ := List.head?_eq_some_iff.mp h
      exact .inl (by simp [List.findIdx?_cons])
    · refine .inr (List.findIdx?_eq_none_iff.mpr fun unit hunit => ?_)
      have hne : unit ≠ plus := fun he => h (he ▸ hunit)
      simp [hne]
  rw [peel]
  rcases hidx with hidx | hidx <;> rw [hidx]

variable {modifiers : List Modifier}

theorem peel_spelled (hkey : key.head? = some plus ∨ plus ∉ key) :
    ∀ {fuel : Nat} {held : List Modifier}, modifiers.length < fuel → modifiers.Nodup →
      (∀ m ∈ modifiers, m ∉ held) →
      peel fuel held (spelled modifiers key) = some (modifiers.reverse ++ held, key) := by
  induction modifiers with
  | nil =>
    intro fuel held hfuel _ _
    obtain ⟨n, rfl⟩ := Nat.exists_eq_add_of_lt hfuel
    rw [show ([] : List Modifier).length + n + 1 = n + 1 by simp, spelled, peel_key hkey]
    rfl
  | cons modifier rest ih =>
    intro fuel held hfuel hnodup hnew
    obtain ⟨hfirst, hrest⟩ := List.nodup_cons.mp hnodup
    obtain ⟨n, rfl⟩ : ∃ n, fuel = n + 1 := ⟨fuel - 1, by simp at hfuel; omega⟩
    rw [spelled, peel_name (hnew modifier List.mem_cons_self), ih (by simpa using hfuel) hrest]
    · simp
    · intro m hm hmem
      rcases List.mem_cons.mp hmem with rfl | hmem
      · exact hfirst hm
      · exact hnew m (List.mem_cons_of_mem _ hm) hmem

/-- A key token as the loader leaves it. -/
structure Token (key : Text) : Prop where
  nonempty : key ≠ []
  noPlus : key.head? = some plus ∨ plus ∉ key
  closed : ∀ unit ∈ key.getLast?, isSpace unit = false
  canonical : canonicalKey casing key = key

variable {casing}

theorem spelled_ne_nil (h : key ≠ []) : spelled modifiers key ≠ [] := by
  cases modifiers with
  | nil => exact h
  | cons modifier rest => simp [spelled]

theorem spelled_last (h : key ≠ []) : (spelled modifiers key).getLast? = key.getLast? := by
  induction modifiers with
  | nil => rfl
  | cons modifier rest ih =>
    rw [spelled, List.getLast?_append, List.getLast?_cons_of_ne_nil (spelled_ne_nil h), ih]
    cases hlast : key.getLast? with
    | none => exact absurd (List.getLast?_eq_none_iff.mp hlast) h
    | some unit => rfl

theorem spelled_length (modifiers : List Modifier) (key : Text) :
    modifiers.length ≤ (spelled modifiers key).length := by
  induction modifiers with
  | nil => exact Nat.zero_le _
  | cons modifier rest ih =>
    simp only [spelled, List.length_cons, List.length_append]
    omega

/-- A chord with a proper key token is read from its spelling. -/
theorem Token.readable {chord : Chord} (h : Token casing chord.key)
    (hbare : chord.modifiers = [] → ∀ unit ∈ chord.key.head?, isSpace unit = false) :
    Readable casing chord := by
  have hhead : ∀ unit ∈ (spelled chord.modifiers chord.key).head?, isSpace unit = false := by
    intro unit hunit
    cases hmods : chord.modifiers with
    | nil =>
      rw [hmods] at hunit
      exact hbare hmods unit hunit
    | cons modifier rest =>
      rw [hmods] at hunit
      cases modifier <;> cases hunit <;> rfl
  have htrim : Js.trim (chordToString chord) = spelled chord.modifiers chord.key := by
    rw [chordToString_eq]
    unfold Js.trim
    rw [Js.trimStart_of_head hhead, Js.trimEnd_of_last]
    rw [spelled_last h.nonempty]
    exact h.closed
  have hpeel : peel ((spelled chord.modifiers chord.key).length + 1) []
      (spelled chord.modifiers chord.key) = some (chord.modifiers.reverse ++ [], chord.key) :=
    peel_spelled h.noPlus (Nat.lt_succ_of_le (spelled_length _ _)) chord.nodup_modifiers (by simp)
  unfold Readable parseChord
  rw [htrim]
  simp only [if_neg (spelled_ne_nil h.nonempty), hpeel, if_neg h.nonempty, h.canonical]
  obtain ⟨ctrl, alt, shift, key⟩ := chord
  cases ctrl <;> cases alt <;> cases shift <;> rfl

/-! ## 4. What the loader leaves -/

/-- What is left of a text is the end of it, and a plus sign in it is at its front. -/
theorem peel_suffix {fuel : Nat} : ∀ {held : List Modifier} {text : Text}
    {result : List Modifier × Text}, peel fuel held text = some result →
      result.2 <:+ text ∧ (result.2.head? = some plus ∨ plus ∉ result.2) ∧ held <:+ result.1 ∧
        (result.1 = [] → result.2 = text) := by
  induction fuel with
  | zero =>
    intro held text result h
    cases h
  | succ fuel ih =>
    intro held text result h
    rw [peel] at h
    split at h
    next hidx =>
      cases h
      refine ⟨List.suffix_rfl, .inr fun hmem => ?_, List.suffix_rfl, fun _ => rfl⟩
      have hno := (List.findIdx?_eq_none_iff.mp hidx) plus hmem
      simp at hno
    next hidx =>
      cases h
      refine ⟨List.suffix_rfl, .inl ?_, List.suffix_rfl, fun _ => rfl⟩
      cases text with
      | nil => cases hidx
      | cons unit rest =>
        rw [List.findIdx?_cons] at hidx
        split at hidx
        next hunit => simpa using hunit
        next => simp at hidx
    next index hidx =>
      split at h
      · cases h
      next modifier hmod =>
        split at h
        · cases h
        · obtain ⟨hsuffix, hplus, hheld, -⟩ := ih h
          refine ⟨hsuffix.trans (List.drop_suffix _ _), hplus,
            (List.suffix_cons _ _).trans hheld, fun hnil => ?_⟩
          rw [hnil] at hheld
          cases List.suffix_nil.mp hheld

theorem surrogate_plain {unit : UInt16} (hlow : 0xd800 ≤ unit) (hhigh : unit < 0xe000) :
    isSpace unit = false ∧ unit ≠ plus := by
  simp only [UInt16.le_iff_toNat_le, UInt16.lt_iff_toNat_lt, UInt16.reduceToNat] at hlow hhigh
  have hne : ∀ other : UInt16, other.toNat < 0xd800 ∨ 0xe000 ≤ other.toNat → unit ≠ other := by
    rintro other hother rfl
    omega
  have hgt : ∀ other : UInt16, other.toNat < 0xd800 → ¬unit ≤ other := by
    intro other hother hle
    rw [UInt16.le_iff_toNat_le] at hle
    omega
  refine ⟨?_, hne plus (by decide)⟩
  simp [isSpace, hgt, hne]

/-- One character is one unit, or two that are neither a space nor a plus sign. -/
theorem isCharacter_cases (h : isCharacter key = true) :
    (∃ unit, key = [unit]) ∨ ∀ unit ∈ key, isSpace unit = false ∧ unit ≠ plus := by
  unfold isCharacter at h
  split at h
  next unit => exact .inl ⟨unit, rfl⟩
  next high low =>
    simp only [Bool.and_eq_true, decide_eq_true_eq] at h
    obtain ⟨⟨⟨hhigh, hhigh'⟩, hlow⟩, hlow'⟩ := h
    refine .inr fun unit hunit => ?_
    simp only [List.mem_cons, List.not_mem_nil, or_false] at hunit
    rcases hunit with rfl | rfl
    · exact surrogate_plain hhigh (UInt16.lt_trans hhigh' (by decide))
    · exact surrogate_plain (UInt16.le_trans (by decide) hlow) hlow'
  next => cases h

/-- A single character that is no space has no space in upper case either. -/
theorem upper_plain (hchar : isCharacter key = true)
    (hlast : ∀ unit ∈ key.getLast?, isSpace unit = false) :
    ∀ unit ∈ casing.toUpperCase key, isSpace unit = false := by
  intro unit hunit
  by_contra hspace
  have hspace : isSpace unit = true := by simpa using hspace
  have hmem := casing.marks key unit hunit (.inl hspace)
  rcases isCharacter_cases hchar with ⟨only, rfl⟩ | hplain
  · cases List.mem_singleton.mp hmem
    exact absurd (hlast unit rfl) (by simp [hspace])
  · exact absurd (hplain unit hmem).1 (by simp [hspace])

/-- The plus sign is the only character with one in its upper case. -/
theorem upper_plus (hchar : isCharacter key = true)
    (hmem : plus ∈ casing.toUpperCase key) : casing.toUpperCase key = [plus] := by
  have hkey := casing.marks key plus hmem (.inr rfl)
  rcases isCharacter_cases hchar with ⟨only, rfl⟩ | hplain
  · cases List.mem_singleton.mp hkey
    exact casing.ofAscii _ (by decide)
  · exact absurd rfl (hplain plus hkey).2

/-- No upper case is one of the names with small letters. -/
theorem upper_ne (name : String) (hascii : (ascii name).all (· < 0x80) = true)
    (hsmall : (ascii name).map upperUnit ≠ ascii name) (key : Text) :
    casing.toUpperCase key ≠ ascii name := by
  intro h
  have hagain := casing.again key
  rw [h, casing.ofAscii _ hascii] at hagain
  exact hsmall hagain

theorem token_space : Token casing (ascii "Space") :=
  ⟨by decide, .inr (by decide), fun _ h => (by cases h; rfl), rfl⟩

theorem token_canonical (hne : key ≠ []) (hplus : key.head? = some plus ∨ plus ∉ key)
    (hlast : ∀ unit ∈ key.getLast?, isSpace unit = false) :
    Token casing (canonicalKey casing key) := by
  unfold canonicalKey
  split
  · exact token_space
  next hplain =>
    split
    next hchar =>
      unfold layoutAlias
      split
      · refine ⟨by decide, .inr (by decide), fun _ h => (by cases h; rfl), ?_⟩
        have hsame : casing.toUpperCase [0x60] = [0x60] := casing.ofAscii _ (by decide)
        simp [canonicalKey, isCharacter, hsame, layoutAlias]
        decide
      next halias =>
        have hspace : ∀ unit ∈ casing.toUpperCase key, isSpace unit = false := upper_plain hchar hlast
        refine ⟨fun hnil => hne (casing.kept key hnil), ?_, fun unit hunit =>
          hspace unit (List.mem_of_mem_getLast? hunit), ?_⟩
        · by_cases hmem : plus ∈ casing.toUpperCase key
          · exact .inl (by rw [upper_plus hchar hmem]; rfl)
          · exact .inr hmem
        · have hblank : casing.toUpperCase key ≠ ascii " " := by
            intro h
            exact absurd (hspace 0x20 (by rw [h]; decide)) (by decide)
          unfold canonicalKey
          rw [if_neg]
          · rw [casing.again]
            simp [layoutAlias, halias]
          · simp [hblank, upper_ne "Space" (by decide) (by decide),
              upper_ne "Spacebar" (by decide) (by decide)]
    next hchar =>
      refine ⟨hne, hplus, hlast, ?_⟩
      unfold canonicalKey
      rw [if_neg hplain, if_neg hchar]

/-- The upper case of a key, or one of the two names, has no space at its front. -/
theorem canonicalKey_head (hlast : ∀ unit ∈ key.getLast?, isSpace unit = false)
    (hhead : ∀ unit ∈ key.head?, isSpace unit = false) :
    ∀ unit ∈ (canonicalKey casing key).head?, isSpace unit = false := by
  unfold canonicalKey
  split
  · intro unit hunit
    cases hunit
    rfl
  · split
    next hchar =>
      unfold layoutAlias
      split
      · intro unit hunit
        cases hunit
        rfl
      · exact fun unit hunit => upper_plain hchar hlast unit (List.mem_of_mem_head? hunit)
    next => exact hhead

/-- What was read is read again from its own spelling. -/
theorem readable_parse {raw : Text} {chord : Chord} (h : parseChord casing raw = some chord) :
    Readable casing chord := by
  unfold parseChord at h
  dsimp only at h
  split at h
  · cases h
  next htrimmed =>
    split at h
    · cases h
    next held rest hpeel =>
      split at h
      · cases h
      next hne =>
        cases h
        obtain ⟨⟨front, hfront⟩, hplus, -, hbare⟩ := peel_suffix hpeel
        have hlast : ∀ unit ∈ rest.getLast?, isSpace unit = false := by
          intro unit hunit
          refine Js.trim_last raw unit ?_
          have hunit' : rest.getLast? = some unit := hunit
          rw [← hfront, List.getLast?_append, hunit']
          rfl
        refine Token.readable (token_canonical hne hplus hlast) fun hmods => ?_
        have hheld : held = [] := by
          cases held with
          | nil => rfl
          | cons modifier more => cases modifier <;> simp [Chord.modifiers] at hmods
        refine canonicalKey_head hlast fun unit hunit => Js.trim_head raw unit ?_
        rw [← hbare hheld]
        exact hunit

end PocketShell.Shortcuts
