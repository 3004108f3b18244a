import PocketShell.Composer.Delivery

/-!
# The bytes of a prompt

`encodeComposerText` against the encoder of the Web: the text is first made a string of scalar
values, and the bytes are the UTF-8 of these.

* `scalarValueString`: the text with U+FFFD for each surrogate that stands beside no other half.
* `utf16`: the units of a scalar value.
* `encodeComposerText_utf8`: the bytes are those of the scalar values, and are read back as these.
-/

namespace PocketShell.Composer

open Js (Text ascii)

/-! ## What the Web asks for -/

/-- Whether the unit is a surrogate without its other half, `before` being the unit before it. -/
def unpaired (before : Option UInt16) (unit : UInt16) (after : Option UInt16) : Bool :=
  isHighSurrogate unit && !after.any isLowSurrogate || isLowSurrogate unit && !before.any isHighSurrogate

def scalarValuesFrom (before : Option UInt16) : Text → Text
  | [] => []
  | unit :: rest =>
    (if unpaired before unit rest.head? then 0xfffd else unit) :: scalarValuesFrom (some unit) rest

/-- The text after USVString conversion. -/
def scalarValueString (text : Text) : Text := scalarValuesFrom none text

def utf16 (c : Char) : Text :=
  if c.toNat < 0x10000 then [c.toNat.toUInt16]
  else [(0xd800 + (c.toNat - 0x10000) / 0x400).toUInt16, (0xdc00 + (c.toNat - 0x10000) % 0x400).toUInt16]

/-! ## One code point -/

theorem or_eq_add (k a : Nat) {x : Nat} (h : x < 2 ^ k) : 2 ^ k * a ||| x = 2 ^ k * a + x :=
  (Nat.two_pow_add_eq_or_of_lt h a).symm

theorem and_low (n : Nat) : n &&& 0x3f = n % 64 := Nat.and_two_pow_sub_one_eq_mod n 6

/-- A byte after the first one. -/
theorem trailing (n : Nat) : 0x80 ||| n &&& 0x3f = n % 64 + 0x80 := by
  rw [and_low, Nat.add_comm]
  exact or_eq_add 6 2 (Nat.mod_lt n (by decide))

theorem lead_two {n : Nat} (h : n ≤ 0x7ff) : 0xc0 ||| n >>> 6 = n / 64 % 0x20 + 0xc0 := by
  have hlt : n >>> 6 < 2 ^ 6 := by
    rw [Nat.shiftRight_eq_div_pow]
    omega
  have hor : 0xc0 ||| n >>> 6 = 0xc0 + n >>> 6 := or_eq_add 6 3 hlt
  rw [hor, Nat.shiftRight_eq_div_pow]
  omega

theorem lead_three {n : Nat} (h : n ≤ 0xffff) : 0xe0 ||| n >>> 12 = n / 4096 % 0x10 + 0xe0 := by
  have hlt : n >>> 12 < 2 ^ 5 := by
    rw [Nat.shiftRight_eq_div_pow]
    omega
  have hor : 0xe0 ||| n >>> 12 = 0xe0 + n >>> 12 := or_eq_add 5 7 hlt
  rw [hor, Nat.shiftRight_eq_div_pow]
  omega

theorem lead_four {n : Nat} (h : n ≤ 0x10ffff) : 0xf0 ||| n >>> 18 = n / 262144 % 0x08 + 0xf0 := by
  have hlt : n >>> 18 < 2 ^ 4 := by
    rw [Nat.shiftRight_eq_div_pow]
    omega
  have hor : 0xf0 ||| n >>> 18 = 0xf0 + n >>> 18 := or_eq_add 4 15 hlt
  rw [hor, Nat.shiftRight_eq_div_pow]
  omega

/-- The bytes of a scalar value. -/
theorem encodeCodePoint_char (c : Char) : encodeCodePoint c.toNat = String.utf8EncodeChar c := by
  have hvalid : c.toNat < 0xd800 ∨ 0xdfff < c.toNat ∧ c.toNat < 0x110000 := c.valid
  have hmax : c.toNat ≤ 0x10ffff := by omega
  unfold encodeCodePoint String.utf8EncodeChar
  show _ = ite (c.toNat ≤ 0x7f) _ _
  by_cases h1 : c.toNat ≤ 0x7f
  · rw [if_pos h1, if_pos h1]
    rfl
  rw [if_neg h1, if_neg h1]
  by_cases h2 : c.toNat ≤ 0x7ff
  · rw [if_pos h2, lead_two h2, trailing]
    exact (if_pos h2).symm
  rw [if_neg h2]
  refine Eq.trans ?_ (if_neg h2).symm
  by_cases h3 : c.toNat ≤ 0xffff
  · rw [if_pos h3, lead_three h3, trailing, trailing, Nat.shiftRight_eq_div_pow]
    exact (if_pos h3).symm
  · rw [if_neg h3, lead_four hmax, trailing, trailing, trailing, Nat.shiftRight_eq_div_pow,
      Nat.shiftRight_eq_div_pow]
    exact (if_neg h3).symm

/-! ## One turn of the loop -/

variable {unit : UInt16}

theorem isHigh_iff : isHighSurrogate unit = true ↔ 0xd800 ≤ unit.toNat ∧ unit.toNat ≤ 0xdbff := by
  simp [isHighSurrogate, UInt16.le_iff_toNat_le]

theorem isLow_iff : isLowSurrogate unit = true ↔ 0xdc00 ≤ unit.toNat ∧ unit.toNat ≤ 0xdfff := by
  simp [isLowSurrogate, UInt16.le_iff_toNat_le]

theorem not_low_of_high (h : isHighSurrogate unit = true) : isLowSurrogate unit = false := by
  rw [isHigh_iff] at h
  rw [Bool.eq_false_iff, ne_eq, isLow_iff]
  omega

/-- The scalar value of a unit that is half of no pair. -/
theorem exists_lone (unit : UInt16) : ∃ c : Char, c.toNat = loneCodePoint unit ∧
    utf16 c = [if isHighSurrogate unit || isLowSurrogate unit then 0xfffd else unit] := by
  unfold loneCodePoint
  split
  · exact ⟨'\uFFFD', rfl, rfl⟩
  · next hplain =>
    have hlt := unit.toNat_lt
    have hvalid : unit.toNat.isValidChar := by
      rw [Bool.or_eq_true, isHigh_iff, isLow_iff] at hplain
      show _ ∨ _
      omega
    refine ⟨Char.ofNatAux unit.toNat hvalid, rfl, ?_⟩
    have hcode : (Char.ofNatAux unit.toNat hvalid).toNat = unit.toNat := rfl
    rw [utf16, hcode, if_pos hlt]
    exact congrArg (fun u => [u]) (UInt16.toNat_inj.mp (by simp))

theorem exists_pair {high low : UInt16} (hhigh : isHighSurrogate high = true)
    (hlow : isLowSurrogate low = true) : ∃ c : Char,
      c.toNat = 0x10000 + (high.toNat - 0xd800) <<< 10 + (low.toNat - 0xdc00) ∧ utf16 c = [high, low] := by
  rw [isHigh_iff] at hhigh
  rw [isLow_iff] at hlow
  have hshift : (high.toNat - 0xd800) <<< 10 = (high.toNat - 0xd800) * 0x400 := Nat.shiftLeft_eq _ 10
  have hvalid : (0x10000 + (high.toNat - 0xd800) <<< 10 + (low.toNat - 0xdc00)).isValidChar := by
    rw [hshift]
    show _ ∨ _
    omega
  have hcode : (Char.ofNatAux _ hvalid).toNat =
      0x10000 + (high.toNat - 0xd800) * 0x400 + (low.toNat - 0xdc00) := by
    rw [← hshift]
    rfl
  have hfirst : 0xd800 + ((Char.ofNatAux _ hvalid).toNat - 0x10000) / 0x400 = high.toNat := by omega
  have hsecond : 0xdc00 + ((Char.ofNatAux _ hvalid).toNat - 0x10000) % 0x400 = low.toNat := by omega
  refine ⟨Char.ofNatAux _ hvalid, rfl, ?_⟩
  rw [utf16, if_neg (by omega), hfirst, hsecond]
  simp

/-! ## The whole text -/

/-- Where no pair is open and none begins, a surrogate is replaced. -/
theorem unpaired_eq {before after : Option UInt16}
    (hopen : before.any isHighSurrogate = true → isLowSurrogate unit = false)
    (hbegin : (isHighSurrogate unit && after.any isLowSurrogate) = false) :
    unpaired before unit after = (isHighSurrogate unit || isLowSurrogate unit) := by
  unfold unpaired
  cases hhigh : isHighSurrogate unit <;> cases hlow : isLowSurrogate unit <;>
    cases hbefore : before.any isHighSurrogate <;> simp_all

/-- The text that is left, where no pair is open. -/
theorem encode_chars : ∀ (text : Text) (before : Option UInt16),
    (before.any isHighSurrogate = true → text.head?.any isLowSurrogate = false) →
    ∃ chars : List Char, chars.flatMap utf16 = scalarValuesFrom before text ∧
      encodeComposerText text = chars.flatMap String.utf8EncodeChar
  | [], _, _ => ⟨[], rfl, rfl⟩
  | [unit], before, hopen => by
    obtain ⟨c, hcode, hunits⟩ := exists_lone unit
    refine ⟨[c], ?_, ?_⟩
    · rw [List.flatMap_singleton, hunits, scalarValuesFrom,
        unpaired_eq hopen (by rw [List.head?_nil, Option.any_none, Bool.and_false])]
      rfl
    · rw [List.flatMap_singleton, ← encodeCodePoint_char, hcode]
      rfl
  | first :: second :: rest, before, hopen => by
    cases hpair : isHighSurrogate first && isLowSurrogate second with
    | true =>
      obtain ⟨hhigh, hlow⟩ := Bool.and_eq_true_iff.mp hpair
      have hnotHigh : isHighSurrogate second = false := by
        rw [Bool.eq_false_iff]
        intro hsecond
        rw [not_low_of_high hsecond] at hlow
        cases hlow
      have hclosed : (some second).any isHighSurrogate = true → rest.head?.any isLowSurrogate = false := by
        intro h
        rw [Option.any_some, hnotHigh] at h
        cases h
      obtain ⟨c, hcode, hunits⟩ := exists_pair hhigh hlow
      obtain ⟨chars, hrest, hbytes⟩ := encode_chars rest (some second) hclosed
      have hfirst : unpaired before first (some second) = false := by
        simp [unpaired, hlow, not_low_of_high hhigh]
      have hsecond : unpaired (some first) second rest.head? = false := by
        simp [unpaired, hhigh, hnotHigh]
      refine ⟨c :: chars, ?_, ?_⟩
      · rw [List.flatMap_cons, hunits, hrest, scalarValuesFrom, scalarValuesFrom, List.head?_cons, hfirst,
          hsecond]
        rfl
      · rw [List.flatMap_cons, ← hbytes, ← encodeCodePoint_char, hcode, encodeComposerText, hpair, if_pos rfl]
    | false =>
      have hnext : (some first).any isHighSurrogate = true →
          (second :: rest).head?.any isLowSurrogate = false := by
        intro hhigh
        rw [Option.any_some] at hhigh
        rwa [hhigh, Bool.true_and] at hpair
      obtain ⟨c, hcode, hunits⟩ := exists_lone first
      obtain ⟨chars, hrest, hbytes⟩ := encode_chars (second :: rest) (some first) hnext
      have hstep : scalarValuesFrom before (first :: second :: rest) =
          (if unpaired before first (some second) then 0xfffd else first) ::
            scalarValuesFrom (some first) (second :: rest) := rfl
      have hfirst : unpaired before first (some second) = (isHighSurrogate first || isLowSurrogate first) :=
        unpaired_eq hopen hpair
      refine ⟨c :: chars, ?_, ?_⟩
      · rw [List.flatMap_cons, hunits, hrest, hstep, hfirst]
        rfl
      · rw [List.flatMap_cons, ← hbytes, ← encodeCodePoint_char, hcode, encodeComposerText, hpair,
          if_neg Bool.false_ne_true]

/-- The bytes are the UTF-8 of the scalar values, and a strict decoder reads these back. -/
theorem encodeComposerText_utf8 (text : Text) : ∃ chars : List Char,
    chars.flatMap utf16 = scalarValueString text ∧
      (encodeComposerText text).toByteArray = chars.utf8Encode ∧
      (encodeComposerText text).toByteArray.utf8Decode? = some chars.toArray := by
  obtain ⟨chars, hunits, hbytes⟩ := encode_chars text none (by simp)
  have hencoded : (encodeComposerText text).toByteArray = chars.utf8Encode := by
    rw [hbytes]
    rfl
  refine ⟨chars, hunits, hencoded, ?_⟩
  rw [hencoded]
  exact List.utf8Decode?_utf8Encode

example : encodeComposerText (ascii "a" ++ [0xe9, 0x20ac, 0xd83d, 0xde00, 0xd83d]) =
    [0x61, 0xc3, 0xa9, 0xe2, 0x82, 0xac, 0xf0, 0x9f, 0x98, 0x80, 0xef, 0xbf, 0xbd] := by decide

end PocketShell.Composer
