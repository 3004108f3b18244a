import PocketShell.Js.Json

/-!
# Bytes of a string

* `utf8`: what `TextEncoder` gives; a unit that is half of no pair becomes U+FFFD.
* `Utf8State.step`: the decoder, one byte at a time. `utf8_code`: it reads back a code point.
* `fromUtf8`: what a fatal `TextDecoder` gives, which takes a byte order mark away.
* `fromUtf8_utf8`, `fromUtf8_utf8_iff`: what comes back, and when that is the string itself.
-/

namespace Js

abbrev Bytes : Type := List UInt8

def byte (n : Nat) : UInt8 := n.toUInt8

/-- The bytes of one code point. -/
def utf8Code (code : Nat) : Bytes :=
  if code < 0x80 then [byte code]
  else if code < 0x800 then [byte (0xc0 + code / 64), byte (0x80 + code % 64)]
  else if code < 0x10000 then
    [byte (0xe0 + code / 4096), byte (0x80 + code / 64 % 64), byte (0x80 + code % 64)]
  else
    [byte (0xf0 + code / 262144), byte (0x80 + code / 4096 % 64), byte (0x80 + code / 64 % 64),
      byte (0x80 + code % 64)]

/-- The code point of a pair. -/
def pairCode (high low : UInt16) : Nat := 0x10000 + (high.toNat - 0xd800) * 1024 + (low.toNat - 0xdc00)

/-- The code point of a unit that is not part of a pair. -/
def unitCode (unit : UInt16) : Nat := if isHigh unit || isLow unit then 0xfffd else unit.toNat

def utf8 : Text → Bytes
  | [] => []
  | [unit] => utf8Code (unitCode unit)
  | unit :: next :: rest =>
    if isHigh unit && isLow next then utf8Code (pairCode unit next) ++ utf8 rest
    else utf8Code (unitCode unit) ++ utf8 (next :: rest)

/-! ## Decoding -/

/-- Inside of a code point: how many bytes are still to come, the bits so far, and the
least code point that needs that many bytes. -/
structure Utf8State where
  left : Nat
  code : Nat
  least : Nat

def Utf8State.idle : Utf8State := ⟨0, 0, 0⟩

/-- The units of a code point. -/
def codeUnits (code : Nat) : Text :=
  if code < 0x10000 then [code.toUInt16]
  else [(0xd800 + (code - 0x10000) / 1024).toUInt16, (0xdc00 + (code - 0x10000) % 1024).toUInt16]

def isScalar (code : Nat) : Bool := code < 0xd800 || 0xdfff < code && code ≤ 0x10ffff

/-- The first byte of a code point. -/
def Utf8State.lead (b : Nat) : Option (Text × Utf8State) :=
  if b < 0x80 then some ([b.toUInt16], .idle)
  else if 0xc0 ≤ b ∧ b < 0xe0 then some ([], ⟨1, b - 0xc0, 0x80⟩)
  else if 0xe0 ≤ b ∧ b < 0xf0 then some ([], ⟨2, b - 0xe0, 0x800⟩)
  else if 0xf0 ≤ b ∧ b < 0xf8 then some ([], ⟨3, b - 0xf0, 0x10000⟩)
  else none

/-- The units that a byte completes, and the state after it. -/
def Utf8State.step (state : Utf8State) (b : Nat) : Option (Text × Utf8State) :=
  if state.left = 0 then Utf8State.lead b
  else if 0x80 ≤ b ∧ b < 0xc0 then
    let code := 64 * state.code + (b - 0x80)
    if state.left = 1 then
      if state.least ≤ code ∧ isScalar code = true then some (codeUnits code, .idle) else none
    else some ([], ⟨state.left - 1, code, state.least⟩)
  else none

/-- The units that the bytes complete, and the state after them. -/
def Utf8State.run (state : Utf8State) : Bytes → Option (Text × Utf8State)
  | [] => some ([], state)
  | b :: rest =>
    match state.step b.toNat with
    | none => none
    | some (units, state) => (Utf8State.run state rest).map fun q => (units ++ q.1, q.2)

/-- The text of bytes that end between two code points. -/
def decoded (bytes : Bytes) : Option Text :=
  match Utf8State.idle.run bytes with
  | some (units, state) => if state.left = 0 then some units else none
  | none => none

def stripMark : Text → Text
  | 0xfeff :: rest => rest
  | text => text

/-- `none` when it throws. -/
def fromUtf8 (bytes : Bytes) : Option Text := (decoded bytes).map stripMark

/-- Every half of a pair stands beside the other half. -/
def wellFormed : Text → Bool
  | [] => true
  | [unit] => !(isHigh unit || isLow unit)
  | unit :: next :: rest =>
    if isHigh unit && isLow next then wellFormed rest
    else !(isHigh unit || isLow unit) && wellFormed (next :: rest)

/-! ## Decoding with replacements -/

/-- Inside of a code point: how many bytes are still to come, the bits so far, and the bounds of the
next byte. -/
structure LossyState where
  needed : Nat
  code : Nat
  lower : Nat
  upper : Nat

def LossyState.idle : LossyState := ⟨0, 0, 0x80, 0xbf⟩

def LossyState.lead (b : Nat) : Text × LossyState :=
  if b < 0x80 then ([b.toUInt16], .idle)
  else if 0xc2 ≤ b ∧ b ≤ 0xdf then ([], ⟨1, b - 0xc0, 0x80, 0xbf⟩)
  else if 0xe0 ≤ b ∧ b ≤ 0xef then
    ([], ⟨2, b - 0xe0, if b = 0xe0 then 0xa0 else 0x80, if b = 0xed then 0x9f else 0xbf⟩)
  else if 0xf0 ≤ b ∧ b ≤ 0xf4 then
    ([], ⟨3, b - 0xf0, if b = 0xf0 then 0x90 else 0x80, if b = 0xf4 then 0x8f else 0xbf⟩)
  else ([0xfffd], .idle)

/-- A byte that does not fit ends the code point before it. -/
def LossyState.step (state : LossyState) (b : Nat) : Text × LossyState :=
  if state.needed = 0 then LossyState.lead b
  else if state.lower ≤ b ∧ b ≤ state.upper then
    let code := 64 * state.code + b % 64
    if state.needed = 1 then (codeUnits code, .idle) else ([], ⟨state.needed - 1, code, 0x80, 0xbf⟩)
  else
    let next := LossyState.lead b
    (0xfffd :: next.1, next.2)

def lossyFrom (state : LossyState) : Bytes → Text
  | [] => if state.needed = 0 then [] else [0xfffd]
  | b :: rest =>
    let next := state.step b.toNat
    next.1 ++ lossyFrom next.2 rest

/-- What a `TextDecoder` that is not fatal gives. -/
def decodeText (bytes : Bytes) : Text := stripMark (lossyFrom .idle bytes)

/-! ## One code point -/

variable {rest : Bytes} {units : Text} {state state' : Utf8State} {b code : Nat}

theorem toNat_byte (h : code < 256) : (byte code).toNat = code := by
  unfold byte
  simp only [Nat.toUInt8, UInt8.toNat_ofNat']
  omega

theorem utf8_cons (hb : b < 256) (h : state.step b = some (units, state')) :
    state.run (byte b :: rest) = (state'.run rest).map fun q => (units ++ q.1, q.2) := by
  rw [Utf8State.run, toNat_byte hb, h]

theorem utf8_silent (hb : b < 256) (h : state.step b = some ([], state')) :
    state.run (byte b :: rest) = state'.run rest := by
  rw [utf8_cons hb h]
  exact Option.map_id'

theorem utf8_single (hb : b < 256) (h : state.step b = some (units, state')) :
    state.run [byte b] = some (units, state') := by
  rw [utf8_cons hb h, Utf8State.run, Option.map_some, List.append_nil]

/-- A byte inside of a code point. -/
theorem utf8_more {left least : Nat} (h : code < 64) (hleft : 2 ≤ left) :
    Utf8State.run ⟨left, b, least⟩ (byte (0x80 + code) :: rest) =
      Utf8State.run ⟨left - 1, 64 * b + code, least⟩ rest := by
  refine utf8_silent (by omega) ?_
  unfold Utf8State.step
  rw [if_neg (by simp only; omega), if_pos (by omega), if_neg (by simp only; omega)]
  simp

/-- The last byte of a code point. -/
theorem utf8_last {least : Nat} (h : code < 64) (hle : least ≤ 64 * b + code)
    (hs : isScalar (64 * b + code) = true) :
    Utf8State.run ⟨1, b, least⟩ [byte (0x80 + code)] =
      some (codeUnits (64 * b + code), .idle) := by
  refine utf8_single (by omega) ?_
  have hc : 64 * b + (0x80 + code - 0x80) = 64 * b + code := by omega
  unfold Utf8State.step
  rw [if_neg (by simp), if_pos (by omega), if_pos rfl]
  simp only [hc]
  rw [if_pos ⟨hle, hs⟩]

theorem idle_step : Utf8State.idle.step b = Utf8State.lead b := rfl

theorem lead_two (h : code < 32) : Utf8State.idle.step (0xc0 + code) = some ([], ⟨1, code, 0x80⟩) := by
  rw [idle_step, Utf8State.lead, if_neg (by omega), if_pos (by omega), Nat.add_sub_cancel_left]

theorem lead_three (h : code < 16) : Utf8State.idle.step (0xe0 + code) = some ([], ⟨2, code, 0x800⟩) := by
  rw [idle_step, Utf8State.lead, if_neg (by omega), if_neg (by omega), if_pos (by omega),
    Nat.add_sub_cancel_left]

theorem lead_four (h : code < 8) : Utf8State.idle.step (0xf0 + code) = some ([], ⟨3, code, 0x10000⟩) := by
  rw [idle_step, Utf8State.lead, if_neg (by omega), if_neg (by omega), if_neg (by omega),
    if_pos (by omega), Nat.add_sub_cancel_left]

theorem isScalar_iff : isScalar code = true ↔ code < 0xd800 ∨ 0xdfff < code ∧ code ≤ 0x10ffff := by
  simp only [isScalar, Bool.or_eq_true, Bool.and_eq_true, decide_eq_true_eq]

/-- The bytes of a code point are read as its units. -/
theorem utf8_code (hs : isScalar code = true) :
    Utf8State.idle.run (utf8Code code) = some (codeUnits code, .idle) := by
  have hmax : code ≤ 0x10ffff := by
    rcases isScalar_iff.mp hs with h | h <;> omega
  unfold utf8Code
  split
  · next h =>
    have hlead : Utf8State.idle.step code = some (codeUnits code, .idle) := by
      rw [idle_step, Utf8State.lead, codeUnits, if_pos h, if_pos (by omega)]
    exact utf8_single (by omega) hlead
  split
  · next h h' =>
    have hcode : 64 * (code / 64) + code % 64 = code := by omega
    rw [utf8_silent (by omega) (lead_two (by omega)),
      utf8_last (by omega) (by omega) (by rw [hcode]; exact hs), hcode]
  split
  · next h h' h'' =>
    have hcode : 64 * (64 * (code / 4096) + code / 64 % 64) + code % 64 = code := by omega
    rw [utf8_silent (by omega) (lead_three (by omega)), utf8_more (by omega) (by omega),
      utf8_last (by omega) (by omega) (by rw [hcode]; exact hs), hcode]
  · next h h' h'' =>
    have hcode : 64 * (64 * (64 * (code / 262144) + code / 4096 % 64) + code / 64 % 64) + code % 64 =
        code := by omega
    rw [utf8_silent (by omega) (lead_four (by omega)), utf8_more (by omega) (by omega),
      utf8_more (by omega) (by omega), utf8_last (by omega) (by omega) (by rw [hcode]; exact hs), hcode]

variable {unit : UInt16}

theorem isHigh_iff : isHigh unit = true ↔ 0xd800 ≤ unit.toNat ∧ unit.toNat ≤ 0xdbff := by
  simp [isHigh, UInt16.le_iff_toNat_le]

theorem isLow_iff : isLow unit = true ↔ 0xdc00 ≤ unit.toNat ∧ unit.toNat ≤ 0xdfff := by
  simp [isLow, UInt16.le_iff_toNat_le]

theorem codeUnits_unit (unit : UInt16) : codeUnits unit.toNat = [unit] := by
  have hlt : unit.toNat < 65536 := unit.toNat_lt
  unfold codeUnits
  rw [if_pos hlt]
  simp

theorem isScalar_unit (h : ¬(isHigh unit || isLow unit) = true) : isScalar unit.toNat = true := by
  have hlt : unit.toNat < 65536 := unit.toNat_lt
  rw [Bool.or_eq_true, not_or, isHigh_iff, isLow_iff] at h
  exact isScalar_iff.mpr (by omega)

variable {high low : UInt16}

theorem pairCode_spec (hh : isHigh high = true) (hl : isLow low = true) :
    isScalar (pairCode high low) = true ∧ codeUnits (pairCode high low) = [high, low] := by
  rw [isHigh_iff] at hh
  rw [isLow_iff] at hl
  have hmin : 0x10000 ≤ pairCode high low ∧ pairCode high low ≤ 0x10ffff := by
    unfold pairCode
    omega
  have hhigh : 0xd800 + (pairCode high low - 0x10000) / 1024 = high.toNat := by
    unfold pairCode
    omega
  have hlow : 0xdc00 + (pairCode high low - 0x10000) % 1024 = low.toNat := by
    unfold pairCode
    omega
  refine ⟨isScalar_iff.mpr (by omega), ?_⟩
  unfold codeUnits
  rw [if_neg (by omega), hhigh, hlow]
  simp

/-! ## A text -/

theorem utf8_append (first : Bytes) :
    ∀ {state state' : Utf8State} {units : Text}, state.run first = some (units, state') →
      state.run (first ++ rest) = (state'.run rest).map fun q => (units ++ q.1, q.2) := by
  induction first with
  | nil =>
    intro state state' units h
    cases h
    exact Option.map_id'.symm
  | cons b first ih =>
    intro state state' units h
    rw [Utf8State.run] at h
    rw [List.cons_append, Utf8State.run]
    cases hstep : state.step b.toNat with
    | none =>
      rw [hstep] at h
      cases h
    | some q =>
      obtain ⟨done, next⟩ := q
      rw [hstep] at h
      obtain ⟨⟨more, last⟩, hrun, heq⟩ := Option.map_eq_some_iff.mp h
      obtain ⟨rfl, rfl⟩ := Prod.mk.inj heq
      dsimp only
      rw [ih hrun, Option.map_map]
      refine congrArg (Option.map · _) (funext fun q => ?_)
      simp

/-- The code points at the start of a text. -/
theorem decoded_append {first : Bytes} (h : Utf8State.idle.run first = some (units, .idle)) :
    decoded (first ++ rest) = (decoded rest).map (units ++ ·) := by
  unfold decoded
  rw [utf8_append first h]
  cases Utf8State.idle.run rest with
  | none => rfl
  | some q =>
    obtain ⟨more, last⟩ := q
    dsimp only [Option.map_some]
    split <;> rfl

/-- A unit that is half of no pair, as it is read back. -/
def repairUnit (unit : UInt16) : UInt16 := if isHigh unit || isLow unit then 0xfffd else unit

theorem utf8_unit (unit : UInt16) :
    Utf8State.idle.run (utf8Code (unitCode unit)) = some ([repairUnit unit], .idle) := by
  unfold unitCode repairUnit
  split
  · exact utf8_code rfl
  · next h => rw [utf8_code (isScalar_unit h), codeUnits_unit]

theorem utf8_pair (hh : isHigh high = true) (hl : isLow low = true) :
    Utf8State.idle.run (utf8Code (pairCode high low)) = some ([high, low], .idle) := by
  obtain ⟨hs, hu⟩ := pairCode_spec hh hl
  rw [utf8_code hs, hu]

/-- The text with every half of no pair replaced. -/
def repaired : Text → Text
  | [] => []
  | [unit] => [repairUnit unit]
  | unit :: next :: rest =>
    if isHigh unit && isLow next then unit :: next :: repaired rest
    else repairUnit unit :: repaired (next :: rest)

theorem decoded_utf8 : ∀ text : Text, decoded (utf8 text) = some (repaired text)
  | [] => rfl
  | [unit] => by
    have hd : decoded (utf8Code (unitCode unit) ++ []) = (decoded []).map ([repairUnit unit] ++ ·) :=
      decoded_append (utf8_unit unit)
    rw [List.append_nil] at hd
    rw [utf8, hd]
    rfl
  | unit :: next :: rest => by
    rw [utf8, repaired]
    split
    · next hp =>
      obtain ⟨hh, hl⟩ := Bool.and_eq_true_iff.mp hp
      rw [decoded_append (utf8_pair hh hl), decoded_utf8 rest]
      rfl
    · rw [decoded_append (utf8_unit unit), decoded_utf8 (next :: rest)]
      rfl

theorem repaired_of_wellFormed : ∀ text : Text, wellFormed text = true → repaired text = text
  | [], _ => rfl
  | [unit], h => by
    have h' : (isHigh unit || isLow unit) = false := by simpa [wellFormed] using h
    simp [repaired, repairUnit, h']
  | unit :: next :: rest, h => by
    rw [wellFormed] at h
    rw [repaired]
    split
    · next hp =>
      rw [if_pos hp] at h
      rw [repaired_of_wellFormed rest h]
    · next hp =>
      rw [if_neg hp] at h
      obtain ⟨hu, hr⟩ := Bool.and_eq_true_iff.mp h
      have hu' : (isHigh unit || isLow unit) = false := by simpa using hu
      rw [repaired_of_wellFormed (next :: rest) hr, repairUnit, hu']
      rfl

theorem repaired_length : ∀ text : Text, (repaired text).length = text.length
  | [] => rfl
  | [_] => rfl
  | unit :: next :: rest => by
    rw [repaired]
    split
    · simp [repaired_length rest]
    · simp [repaired_length (next :: rest)]

/-- What comes back of a text. -/
theorem fromUtf8_utf8 (text : Text) : fromUtf8 (utf8 text) = some (stripMark (repaired text)) := by
  rw [fromUtf8, decoded_utf8, Option.map_some]

variable {text : Text}

/-- Text that does not begin with a byte order mark comes back. -/
theorem fromUtf8_self (h : wellFormed text = true) (hm : stripMark text = text) :
    fromUtf8 (utf8 text) = some text := by
  rw [fromUtf8_utf8, repaired_of_wellFormed text h, hm]

/-- No half of a pair. -/
def plain (unit : UInt16) : Bool := !(isHigh unit || isLow unit)

theorem wellFormed_cons (h : plain unit = true) : wellFormed (unit :: text) = wellFormed text := by
  have hn : (isHigh unit || isLow unit) = false := by simpa [plain] using h
  have hh : isHigh unit = false := (Bool.or_eq_false_iff.mp hn).1
  cases text with
  | nil => simp [wellFormed, hn]
  | cons next rest => simp [wellFormed, hh, (Bool.or_eq_false_iff.mp hn).2]

theorem wellFormed_pair (hh : isHigh high = true)
    (hl : isLow low = true) : wellFormed (high :: low :: text) = wellFormed text := by
  simp [wellFormed, hh, hl]

theorem repairUnit_plain (unit : UInt16) : plain (repairUnit unit) = true := by
  unfold repairUnit plain
  split
  · rfl
  · next h => simpa using h

theorem repaired_wellFormed : ∀ text : Text, wellFormed (repaired text) = true
  | [] => rfl
  | [unit] => by
    rw [repaired, wellFormed_cons (repairUnit_plain unit)]
    rfl
  | unit :: next :: rest => by
    rw [repaired]
    split
    · next hp =>
      obtain ⟨hh, hl⟩ := Bool.and_eq_true_iff.mp hp
      rw [wellFormed_pair hh hl]
      exact repaired_wellFormed rest
    · rw [wellFormed_cons (repairUnit_plain unit)]
      exact repaired_wellFormed (next :: rest)

theorem stripMark_eq (text : Text) : stripMark text = text ∨
    (stripMark text).length < text.length := by
  unfold stripMark
  split
  · exact .inr (Nat.lt_succ_self _)
  · exact .inl rfl

/-- Exactly the well-formed texts without a byte order mark come back as they are. -/
theorem fromUtf8_utf8_iff :
    fromUtf8 (utf8 text) = some text ↔ wellFormed text = true ∧ stripMark text = text := by
  refine ⟨fun h => ?_, fun h => fromUtf8_self h.1 h.2⟩
  rw [fromUtf8_utf8] at h
  have hself : stripMark (repaired text) = text := Option.some.inj h
  rcases stripMark_eq (repaired text) with hkept | hshort
  · have hrepaired : repaired text = text := hkept.symm.trans hself
    rw [hrepaired] at hself
    exact ⟨hrepaired ▸ repaired_wellFormed text, hself⟩
  · rw [hself, repaired_length] at hshort
    exact absurd hshort (lt_irrefl _)

end Js
