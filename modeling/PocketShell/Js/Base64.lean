import PocketShell.Js.Utf8

/-!
# Base64

* `btoa`, `atob`: between bytes and their text, as the platform has them.
* `atob_btoa`: the bytes come back.
-/

namespace Js

/-- `=` -/
def padUnit : UInt16 := 0x3d

/-- The character of six bits. -/
def base64Unit (n : Nat) : UInt16 :=
  (if n < 26 then 0x41 + n else if n < 52 then 0x61 + (n - 26) else if n < 62 then 0x30 + (n - 52)
    else if n = 62 then 0x2b else 0x2f).toUInt16

def base64Digit (unit : UInt16) : Option Nat :=
  if 0x41 ≤ unit && unit ≤ 0x5a then some (unit.toNat - 0x41)
  else if 0x61 ≤ unit && unit ≤ 0x7a then some (unit.toNat - 0x61 + 26)
  else if 0x30 ≤ unit && unit ≤ 0x39 then some (unit.toNat - 0x30 + 52)
  else if unit = 0x2b then some 62
  else if unit = 0x2f then some 63
  else none

/-- The digits of the bytes, six bits each. -/
def sextets : Bytes → List Nat
  | [] => []
  | [a] => [a.toNat / 4, a.toNat % 4 * 16]
  | [a, b] => [a.toNat / 4, a.toNat % 4 * 16 + b.toNat / 16, b.toNat % 16 * 4]
  | a :: b :: c :: rest =>
    a.toNat / 4 :: (a.toNat % 4 * 16 + b.toNat / 16) :: (b.toNat % 16 * 4 + c.toNat / 64) ::
      c.toNat % 64 :: sextets rest

/-- The bytes of the digits; what is left of the last one is dropped. -/
def octets : List Nat → Bytes
  | p :: q :: r :: s :: rest =>
    byte (p * 4 + q / 16) :: byte (q % 16 * 16 + r / 4) :: byte (r % 4 * 64 + s) :: octets rest
  | [p, q, r] => [byte (p * 4 + q / 16), byte (q % 16 * 16 + r / 4)]
  | [p, q] => [byte (p * 4 + q / 16)]
  | _ => []

/-- `btoa` of a string with one unit for each byte. -/
def btoa (bytes : Bytes) : Text :=
  (sextets bytes).map base64Unit ++ List.replicate ((3 - bytes.length % 3) % 3) padUnit

/-- The white space that `atob` skips. -/
def isAsciiSpace (unit : UInt16) : Bool :=
  unit = 0x20 || unit = 0x09 || unit = 0x0a || unit = 0x0c || unit = 0x0d

/-- Without one or two `=` at the end. -/
def dropPadding (data : Text) : Text :=
  if data.getLast? = some padUnit then
    if data.dropLast.getLast? = some padUnit then data.dropLast.dropLast else data.dropLast
  else data

/-- `none` where `atob` throws. -/
def atob (text : Text) : Option Bytes :=
  let data := text.filter fun unit => !isAsciiSpace unit
  let data := if data.length % 4 = 0 then dropPadding data else data
  if data.length % 4 = 1 then none else (data.mapM base64Digit).map octets

/-! ## There and back -/

theorem base64Digit_unit : ∀ n < 64, base64Digit (base64Unit n) = some n := by decide

theorem base64Unit_plain : ∀ n < 64, isAsciiSpace (base64Unit n) = false ∧ base64Unit n ≠ padUnit := by
  decide

theorem sextets_lt : ∀ (bytes : Bytes), ∀ n ∈ sextets bytes, n < 64
  | [] => fun _ h => by cases h
  | [a] => by
    have := a.toNat_lt
    simp only [sextets, List.mem_cons, List.not_mem_nil, or_false]
    omega
  | [a, b] => by
    have := a.toNat_lt
    have := b.toNat_lt
    simp only [sextets, List.mem_cons, List.not_mem_nil, or_false]
    omega
  | a :: b :: c :: rest => by
    have := a.toNat_lt
    have := b.toNat_lt
    have := c.toNat_lt
    have ih := sextets_lt rest
    simp only [sextets, List.mem_cons]
    rintro n (h | h | h | h | h)
    · omega
    · omega
    · omega
    · omega
    · exact ih n h

theorem byte_toNat {b : UInt8} {n : Nat} (h : n = b.toNat) : byte n = b := by
  subst h
  unfold byte
  simp

theorem octets_sextets : ∀ bytes : Bytes, octets (sextets bytes) = bytes
  | [] => rfl
  | [a] => by
    have := a.toNat_lt
    simp only [sextets, octets, List.cons.injEq, and_true]
    exact byte_toNat (by omega)
  | [a, b] => by
    have := a.toNat_lt
    have := b.toNat_lt
    simp only [sextets, octets, List.cons.injEq, and_true]
    exact ⟨byte_toNat (by omega), byte_toNat (by omega)⟩
  | a :: b :: c :: rest => by
    have := a.toNat_lt
    have := b.toNat_lt
    have := c.toNat_lt
    simp only [sextets, octets, octets_sextets rest, List.cons.injEq, and_true]
    exact ⟨byte_toNat (by omega), byte_toNat (by omega), byte_toNat (by omega)⟩

/-- The digits that are missing for a whole number of groups. -/
theorem sextets_length : ∀ bytes : Bytes,
    (sextets bytes).length % 4 = (4 - (3 - bytes.length % 3) % 3) % 4
  | [] => rfl
  | [_] => rfl
  | [_, _] => rfl
  | a :: b :: c :: rest => by
    have ih := sextets_length rest
    simp only [sextets, List.length_cons]
    omega

theorem mapM_digits : ∀ digits : List Nat, (∀ n ∈ digits, n < 64) →
    (digits.map base64Unit).mapM base64Digit = some digits
  | [], _ => rfl
  | n :: digits, h => by
    obtain ⟨hn, hr⟩ := List.forall_mem_cons.mp h
    rw [List.map_cons, List.mapM_cons, base64Digit_unit n hn, mapM_digits digits hr]
    rfl

theorem dropPadding_append {data : Text} (h : data.getLast? ≠ some padUnit) :
    ∀ n ≤ 2, dropPadding (data ++ List.replicate n padUnit) = data
  | 0, _ => by
    rw [List.replicate_zero, List.append_nil, dropPadding, if_neg h]
  | 1, _ => by
    have hdrop : (data ++ [padUnit]).dropLast = data := List.dropLast_concat
    rw [List.replicate_one, dropPadding, if_pos (by simp), hdrop, if_neg h]
  | 2, _ => by
    have hsplit : data ++ List.replicate 2 padUnit = (data ++ [padUnit]) ++ [padUnit] := by
      rw [List.append_assoc]
      rfl
    rw [hsplit, dropPadding, if_pos (by simp), List.dropLast_concat, if_pos (by simp),
      List.dropLast_concat]

theorem units_last (bytes : Bytes) :
    ((sextets bytes).map base64Unit).getLast? ≠ some padUnit := by
  rw [List.getLast?_map]
  intro h
  obtain ⟨n, hn, hpad⟩ := Option.map_eq_some_iff.mp h
  exact (base64Unit_plain n (sextets_lt bytes n (List.mem_of_mem_getLast? hn))).2 hpad

/-- The bytes come back. -/
theorem atob_btoa (bytes : Bytes) : atob (btoa bytes) = some bytes := by
  have hspaceless : (btoa bytes).filter (fun unit => !isAsciiSpace unit) = btoa bytes := by
    refine List.filter_eq_self.mpr fun unit hunit => ?_
    rcases List.mem_append.mp hunit with hunit | hunit
    · obtain ⟨n, hn, rfl⟩ := List.mem_map.mp hunit
      rw [(base64Unit_plain n (sextets_lt bytes n hn)).1]
      rfl
    · rw [List.eq_of_mem_replicate hunit]
      rfl
  have hlength := sextets_length bytes
  have hwhole : (btoa bytes).length % 4 = 0 := by
    rw [btoa, List.length_append, List.length_map, List.length_replicate]
    omega
  have hdata : dropPadding (btoa bytes) = (sextets bytes).map base64Unit :=
    dropPadding_append (units_last bytes) _ (by omega)
  unfold atob
  simp only [hspaceless]
  rw [if_pos hwhole, hdata, List.length_map, if_neg (by omega), mapM_digits _ (sextets_lt bytes),
    Option.map_some, octets_sextets]

end Js
