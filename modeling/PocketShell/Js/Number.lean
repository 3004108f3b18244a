import PocketShell.Js.Value

/-!
# Integers among the numbers

* `decimal`: how an integer is written.
* `JsInteger`: what is relied on of the integers of the language.
* `Numeral`: numbers that are integers, or else kept as they were written.
-/

namespace Js

/-- `Number.MAX_SAFE_INTEGER` -/
def maxSafe : Int := 9007199254740991

def isSafe (z : Int) : Bool := -maxSafe ≤ z && z ≤ maxSafe

def digitUnit (d : Nat) : UInt16 := (0x30 + d).toUInt16

def naturalText (n : Nat) : Text :=
  if n = 0 then [0x30] else (Nat.digits 10 n).reverse.map digitUnit

def decimal (z : Int) : Text := if z < 0 then 0x2d :: naturalText z.natAbs else naturalText z.natAbs

/-- The numbers of the language with their integers. An integer up to 2^53 is one of
them and is written with its digits. -/
class JsInteger (N : Type) extends JsNumber N where
  ofInt : Int → N
  /-- The value of a number that `Number.isSafeInteger` accepts. -/
  safe : N → Option Int
  safe_ofInt : ∀ z, safe (ofInt z) = if isSafe z then some z else none
  write_ofInt : ∀ z, z.natAbs ≤ 9007199254740992 → write (ofInt z) = some (decimal z)
  read_decimal : ∀ z, z.natAbs ≤ 9007199254740992 → read (decimal z) = ofInt z

/-! ## Digits -/

theorem digitUnit_isDigit : ∀ d < 10, isDigit (digitUnit d) = true := by decide

theorem digitUnit_zero : ∀ d < 10, digitUnit d = 0x30 → d = 0 := by decide

theorem digits_whole {digits : List Nat} (h : ∀ d ∈ digits, d < 10) :
    (digits.map digitUnit).foldlM (fun state unit => NumberState.step unit state) NumberState.whole =
      some .whole := by
  induction digits with
  | nil => rfl
  | cons d digits ih =>
    obtain ⟨hd, hr⟩ := List.forall_mem_cons.mp h
    rw [List.map_cons, List.foldlM_cons, NumberState.step, if_pos (digitUnit_isDigit d hd)]
    exact ih hr

theorem step_minus {unit : UInt16} (h : unit ≠ 0x2d) :
    NumberState.step unit .start = NumberState.step unit .minus := by
  rw [NumberState.step, NumberState.step, if_neg h]

theorem natural_minus (n : Nat) : (naturalText n).foldlM (fun state unit => NumberState.step unit state)
    NumberState.minus = some (if n = 0 then .zero else .whole) := by
  unfold naturalText
  split
  · rfl
  · next hn =>
    have hne : Nat.digits 10 n ≠ [] := Nat.digits_ne_nil_iff_ne_zero.mpr hn
    have hlt : ∀ d ∈ Nat.digits 10 n, d < 10 := fun d hd => Nat.digits_lt_base (by decide) hd
    -- the leading digit is the last one that `Nat.digits` gives
    have hsplit : (Nat.digits 10 n).reverse =
        (Nat.digits 10 n).getLast hne :: (Nat.digits 10 n).dropLast.reverse := by
      conv_lhs => rw [← List.dropLast_append_getLast hne]
      rw [List.reverse_append, List.reverse_singleton, List.singleton_append]
    have hlast : (Nat.digits 10 n).getLast hne < 10 := hlt _ (List.getLast_mem hne)
    have hnz : (Nat.digits 10 n).getLast hne ≠ 0 := Nat.getLast_digit_ne_zero 10 hn
    have hfirst : NumberState.step (digitUnit ((Nat.digits 10 n).getLast hne)) .minus = some .whole := by
      rw [NumberState.step, NumberState.first, if_neg (fun h => hnz (digitUnit_zero _ hlast h)),
        if_pos (digitUnit_isDigit _ hlast)]
    rw [hsplit, List.map_cons, List.foldlM_cons, hfirst]
    refine digits_whole fun d hd => hlt d (List.mem_of_mem_dropLast (List.mem_reverse.mp hd))

theorem natural_cons (n : Nat) : ∃ unit more, naturalText n = unit :: more ∧ isDigit unit = true := by
  unfold naturalText
  split
  · exact ⟨_, _, rfl, rfl⟩
  · next hn =>
    cases hd : (Nat.digits 10 n).reverse with
    | nil => exact absurd (List.reverse_eq_nil_iff.mp hd) (Nat.digits_ne_nil_iff_ne_zero.mpr hn)
    | cons d digits =>
      have hmem : d ∈ Nat.digits 10 n := List.mem_reverse.mp (hd ▸ List.mem_cons_self)
      exact ⟨_, _, rfl, digitUnit_isDigit d (Nat.digits_lt_base (by decide) hmem)⟩

theorem isDigit_ne {unit : UInt16} (h : isDigit unit = true) : unit ≠ 0x2d := by
  rintro rfl
  cases h

theorem decimal_isNumber (z : Int) : isNumber (decimal z) = true := by
  have hacc : ∀ n : Nat, NumberState.accepts (if n = 0 then .zero else .whole) = true := by
    intro n
    split <;> rfl
  unfold decimal isNumber
  split
  · have hminus : NumberState.step 0x2d .start = some .minus := rfl
    rw [List.foldlM_cons, hminus]
    show Option.any _ (List.foldlM _ _ _) = true
    rw [natural_minus]
    exact hacc _
  · obtain ⟨unit, more, he, hd⟩ := natural_cons z.natAbs
    have hm := natural_minus z.natAbs
    rw [he, List.foldlM_cons, ← step_minus (isDigit_ne hd)] at hm
    rw [he, List.foldlM_cons, hm]
    exact hacc _

/-- An integer up to 2^53 is read as it was written. -/
theorem written_ofInt {N : Type} [JsInteger N] {z : Int} (h : z.natAbs ≤ 9007199254740992) :
    (Json.num (JsInteger.ofInt z) : Json N).written = .num (JsInteger.ofInt z) := by
  refine Subtype.ext ?_
  show (Raw.num (JsInteger.ofInt z) : Raw N).written = .num (JsInteger.ofInt z)
  rw [Raw.written, JsInteger.write_ofInt z h]
  exact congrArg Raw.num (JsInteger.read_decimal z h)

/-! ## Reading digits -/

def readNatural (text : Text) : Nat := Nat.ofDigits 10 (text.map fun unit => unit.toNat - 0x30).reverse

def readDecimal : Text → Int
  | 0x2d :: digits => -readNatural digits
  | digits => readNatural digits

theorem digitUnit_toNat : ∀ d < 10, (digitUnit d).toNat - 0x30 = d := by decide

theorem readNatural_naturalText (n : Nat) : readNatural (naturalText n) = n := by
  unfold readNatural naturalText
  split
  · next h =>
    rw [h]
    rfl
  · have hmap : ((Nat.digits 10 n).reverse.map digitUnit).map (fun unit => unit.toNat - 0x30) =
        (Nat.digits 10 n).reverse := by
      rw [List.map_map, List.map_congr_left (g := id), List.map_id]
      intro d hd
      exact digitUnit_toNat d (Nat.digits_lt_base (by decide) (List.mem_reverse.mp hd))
    rw [hmap, List.reverse_reverse, Nat.ofDigits_digits]

theorem readDecimal_decimal (z : Int) : readDecimal (decimal z) = z := by
  unfold decimal
  split
  · show -((readNatural (naturalText z.natAbs) : Nat) : Int) = z
    rw [readNatural_naturalText]
    omega
  · obtain ⟨unit, more, he, hd⟩ := natural_cons z.natAbs
    have hread : readDecimal (naturalText z.natAbs) = readNatural (naturalText z.natAbs) := by
      rw [he]
      unfold readDecimal
      split
      · next h => exact absurd (List.cons.inj h).1 (isDigit_ne hd)
      · rfl
    rw [hread, readNatural_naturalText]
    omega

/-- Numbers that are integers, or else kept as they were written. -/
inductive Numeral
  | int (z : Int)
  | other (literal : Literal)

namespace Numeral

def read (text : Text) : Numeral :=
  if decimal (readDecimal text) = text then .int (readDecimal text) else .other (JsNumber.read text)

def write : Numeral → Text
  | .int z => decimal z
  | .other literal => literal.1

theorem write_isNumber (n : Numeral) : isNumber n.write = true := by
  cases n with
  | int z => exact decimal_isNumber z
  | other literal => exact literal.2

end Numeral

instance : JsInteger Numeral where
  read := Numeral.read
  write n := some n.write
  write_isNumber n _ h := by
    cases h
    exact n.write_isNumber
  ofInt := .int
  safe
    | .int z => if isSafe z then some z else none
    | .other _ => none
  safe_ofInt _ := rfl
  write_ofInt _ _ := rfl
  read_decimal z _ := by
    show Numeral.read (decimal z) = _
    rw [Numeral.read, readDecimal_decimal, if_pos rfl]

end Js
