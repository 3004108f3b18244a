import PocketShell.Js.Utf8

/-!
# Percent encoding

* `encodeURIComponent`, `decodeURIComponent`: by way of the UTF-8 bytes of a code point.
* `decode_encode`: a string whose halves of pairs all stand in pairs comes back.
-/

namespace Js

/-! ## Encoding -/

/-- A letter or digit, or one of `-_.!~*'()`. -/
def isUnreserved (unit : UInt16) : Bool :=
  0x41 ≤ unit && unit ≤ 0x5a || isLetter unit || isDigit unit || unit = 0x2d || unit = 0x5f ||
    unit = 0x2e || unit = 0x21 || unit = 0x7e || unit = 0x2a || unit = 0x27 || unit = 0x28 || unit = 0x29

def upperHex (n : Nat) : UInt16 := (if n < 10 then 0x30 + n else 0x37 + n).toUInt16

def escapeByte (b : UInt8) : Text := [0x25, upperHex (b.toNat / 16), upperHex (b.toNat % 16)]

def escapeBytes (bytes : List UInt8) : Text := bytes.flatMap escapeByte

/-- A unit that is not part of a pair; half of one throws. -/
def encodeUnit (unit : UInt16) : Option Text :=
  if isUnreserved unit then some [unit]
  else if isHigh unit || isLow unit then none
  else some (escapeBytes (utf8Code unit.toNat))

/-- `none` when it throws. -/
def encodeURIComponent : Text → Option Text
  | [] => some []
  | [unit] => encodeUnit unit
  | unit :: next :: rest =>
    if isHigh unit && isLow next then
      (encodeURIComponent rest).map (escapeBytes (utf8Code (pairCode unit next)) ++ ·)
    else do
      let encoded ← encodeUnit unit
      let more ← encodeURIComponent (next :: rest)
      return encoded ++ more

/-! ## Decoding -/

def hexByte (a b : UInt16) : Option Nat := do
  let high ← hexValue a
  let low ← hexValue b
  return 16 * high + low

def decodeUriFrom (state : Utf8State) : Text → Option Text
  | [] => if state.left = 0 then some [] else none
  | unit :: rest =>
    if unit = 0x25 then
      match rest with
      | a :: b :: more =>
        match (hexByte a b).bind state.step with
        | some (units, state) => (decodeUriFrom state more).map (units ++ ·)
        | none => none
      | _ => none
    else if state.left = 0 then (decodeUriFrom state rest).map (unit :: ·)
    else none

/-- `none` when it throws. -/
def decodeURIComponent (text : Text) : Option Text := decodeUriFrom .idle text

/-! ## Round trip -/

variable {rest units : Text} {state state' : Utf8State}

theorem hexValue_upperHex : ∀ n < 16, hexValue (upperHex n) = some n := by decide

theorem decode_escape {b : UInt8} (h : state.step b.toNat = some (units, state')) :
    decodeUriFrom state (escapeByte b ++ rest) = (decodeUriFrom state' rest).map (units ++ ·) := by
  have hlt := b.toNat_lt
  have hhex : hexByte (upperHex (b.toNat / 16)) (upperHex (b.toNat % 16)) = some b.toNat := by
    unfold hexByte
    rw [hexValue_upperHex _ (by omega), hexValue_upperHex _ (by omega)]
    exact congrArg some (by omega)
  have hstep : (hexByte (upperHex (b.toNat / 16)) (upperHex (b.toNat % 16))).bind state.step =
      some (units, state') := by
    rw [hhex]
    exact h
  unfold escapeByte
  simp only [List.cons_append, List.nil_append]
  rw [decodeUriFrom, if_pos rfl]
  simp only [hstep]

/-- Escaped bytes are read as the bytes. -/
theorem decode_run (bytes : List UInt8) :
    ∀ {state state' : Utf8State} {units : Text}, state.run bytes = some (units, state') →
      decodeUriFrom state (escapeBytes bytes ++ rest) =
        (decodeUriFrom state' rest).map (units ++ ·) := by
  induction bytes with
  | nil =>
    intro state state' units h
    cases h
    exact Option.map_id'.symm
  | cons b bytes ih =>
    intro state state' units h
    rw [Utf8State.run] at h
    cases hstep : state.step b.toNat with
    | none =>
      rw [hstep] at h
      cases h
    | some q =>
      obtain ⟨done, next⟩ := q
      rw [hstep] at h
      obtain ⟨⟨more, last⟩, hrun, heq⟩ := Option.map_eq_some_iff.mp h
      obtain ⟨rfl, rfl⟩ := Prod.mk.inj heq
      have hcons : escapeBytes (b :: bytes) ++ rest = escapeByte b ++ (escapeBytes bytes ++ rest) := by
        rw [escapeBytes, List.flatMap_cons, List.append_assoc]
        rfl
      rw [hcons, decode_escape hstep, ih hrun, Option.map_map]
      refine congrArg (Option.map · _) (funext fun tail => ?_)
      simp

variable {unit : UInt16}

theorem unreserved_percent (h : isUnreserved unit = true) : unit ≠ 0x25 := by
  rintro rfl
  cases h

theorem decode_unit {encoded : Text} (h : encodeUnit unit = some encoded) :
    decodeUriFrom .idle (encoded ++ rest) = (decodeUriFrom .idle rest).map (unit :: ·) := by
  unfold encodeUnit at h
  split at h
  · next hu =>
    cases h
    rw [List.singleton_append]
    conv_lhs => unfold decodeUriFrom
    rw [if_neg (unreserved_percent hu)]
    exact if_pos rfl
  split at h
  · cases h
  · next hs =>
    cases h
    have hrun : Utf8State.idle.run (utf8Code unit.toNat) = some ([unit], .idle) := by
      rw [utf8_code (isScalar_unit hs), codeUnits_unit]
    exact decode_run _ hrun

theorem decode_pair {high low : UInt16} (hh : isHigh high = true) (hl : isLow low = true) :
    decodeUriFrom .idle (escapeBytes (utf8Code (pairCode high low)) ++ rest) =
      (decodeUriFrom .idle rest).map (high :: low :: ·) :=
  decode_run _ (utf8_pair hh hl)

theorem decodeUriFrom_encode : ∀ {text encoded : Text}, encodeURIComponent text = some encoded →
    decodeUriFrom .idle (encoded ++ rest) = (decodeUriFrom .idle rest).map (text ++ ·)
  | [], _, h => by
    cases h
    exact Option.map_id'.symm
  | [unit], _, h => by
    rw [encodeURIComponent] at h
    exact decode_unit h
  | unit :: next :: more, encoded, h => by
    rw [encodeURIComponent] at h
    split at h
    · next hp =>
      obtain ⟨hh, hl⟩ := Bool.and_eq_true_iff.mp hp
      obtain ⟨tail, htail, rfl⟩ := Option.map_eq_some_iff.mp h
      rw [List.append_assoc, decode_pair hh hl, decodeUriFrom_encode htail, Option.map_map]
      rfl
    · obtain ⟨first, hfirst, h⟩ := Option.bind_eq_some_iff.mp h
      obtain ⟨tail, htail, h⟩ := Option.bind_eq_some_iff.mp h
      cases h
      rw [List.append_assoc, decode_unit hfirst, decodeUriFrom_encode htail, Option.map_map]
      rfl

theorem decode_encode {text encoded : Text} (h : encodeURIComponent text = some encoded) :
    decodeURIComponent encoded = some text := by
  have hd : decodeUriFrom .idle (encoded ++ []) = (decodeUriFrom .idle []).map (text ++ ·) :=
    decodeUriFrom_encode h
  rw [List.append_nil] at hd
  rw [decodeURIComponent, hd]
  show some (text ++ []) = some text
  rw [List.append_nil]

/-! ## What is encoded -/

/-- What stands in an encoded string. -/
def isEncodedUnit (unit : UInt16) : Bool := isUnreserved unit || unit = 0x25

theorem escapeBytes_units (bytes : List UInt8) : ∀ unit ∈ escapeBytes bytes, isEncodedUnit unit = true := by
  have hhex : ∀ n < 16, isEncodedUnit (upperHex n) = true := by decide
  intro unit hu
  obtain ⟨b, _, hu⟩ := List.mem_flatMap.mp hu
  have hb := b.toNat_lt
  simp only [escapeByte, List.mem_cons, List.not_mem_nil, or_false] at hu
  rcases hu with rfl | rfl | rfl
  · rfl
  · exact hhex _ (by omega)
  · exact hhex _ (by omega)

theorem encodeUnit_some (h : (!(isHigh unit || isLow unit)) = true) :
    ∃ encoded, encodeUnit unit = some encoded ∧ ∀ u ∈ encoded, isEncodedUnit u = true := by
  unfold encodeUnit
  split
  · next hu =>
    refine ⟨_, rfl, List.forall_mem_singleton.mpr ?_⟩
    rw [isEncodedUnit, hu]
    rfl
  · rw [if_neg (by simpa using h)]
    exact ⟨_, rfl, escapeBytes_units _⟩

theorem encode_some : ∀ {text : Text}, wellFormed text = true →
    ∃ encoded, encodeURIComponent text = some encoded ∧ ∀ u ∈ encoded, isEncodedUnit u = true
  | [], _ => ⟨[], rfl, fun _ h => by cases h⟩
  | [unit], h => encodeUnit_some h
  | unit :: next :: rest, h => by
    rw [wellFormed] at h
    rw [encodeURIComponent]
    split
    · next hp =>
      rw [if_pos hp] at h
      obtain ⟨encoded, he, hu⟩ := encode_some h
      exact ⟨_, by rw [he]; rfl, List.forall_mem_append.mpr ⟨escapeBytes_units _, hu⟩⟩
    · next hp =>
      rw [if_neg hp] at h
      obtain ⟨hunit, hrest⟩ := Bool.and_eq_true_iff.mp h
      obtain ⟨first, hf, hfu⟩ := encodeUnit_some hunit
      obtain ⟨encoded, he, hu⟩ := encode_some hrest
      exact ⟨_, by rw [hf, he]; rfl, List.forall_mem_append.mpr ⟨hfu, hu⟩⟩

end Js
