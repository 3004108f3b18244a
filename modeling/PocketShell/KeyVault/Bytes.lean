import PocketShell.Js.Base64

/-!
# Byte helpers of the vault

`bytes.ts`: strict base64url. Exactly the texts that `toB64url` gives are read
(`fromB64url_eq_some`).
-/

namespace PocketShell.KeyVault

open Js (Text Bytes btoa atob padUnit sextets base64Unit)

/-- Standard base64 with padding. -/
def toB64 (bytes : Bytes) : Text := btoa bytes

/-- Standard base64 decode; `none` where it throws. -/
def fromB64 (text : Text) : Option Bytes := atob text

/-- `+` and `/` as the url alphabet has them. -/
def toUrlUnit (unit : UInt16) : UInt16 := if unit = 0x2b then 0x2d else if unit = 0x2f then 0x5f else unit

def ofUrlUnit (unit : UInt16) : UInt16 := if unit = 0x2d then 0x2b else if unit = 0x5f then 0x2f else unit

/-- Base64url without padding. -/
def toB64url (bytes : Bytes) : Text := ((toB64 bytes).map toUrlUnit).rdropWhile (· = padUnit)

/-- `[A-Za-z0-9_-]` -/
def isUrlUnit (unit : UInt16) : Bool :=
  0x41 ≤ unit && unit ≤ 0x5a || 0x61 ≤ unit && unit ≤ 0x7a || 0x30 ≤ unit && unit ≤ 0x39 ||
    unit = 0x5f || unit = 0x2d

/-- Strict base64url decode: the url alphabet only, and only what `toB64url` gives. -/
def fromB64url (text : Text) : Option Bytes :=
  if ¬ text.all isUrlUnit = true ∨ text.length % 4 = 1 then none
  else
    let padded := text.map ofUrlUnit ++ List.replicate ((4 - text.length % 4) % 4) padUnit
    match fromB64 padded with
    | none => none
    | some bytes => if toB64url bytes = text then some bytes else none

/-! ## There and back -/

theorem urlUnit_of : ∀ n < 64, isUrlUnit (toUrlUnit (base64Unit n)) = true ∧
    ofUrlUnit (toUrlUnit (base64Unit n)) = base64Unit n ∧ toUrlUnit (base64Unit n) ≠ padUnit := by
  decide

theorem rdropWhile_replicate {p : UInt16 → Bool} {unit : UInt16} (h : p unit = true) (text : Text)
    (n : Nat) : (text ++ List.replicate n unit).rdropWhile p = text.rdropWhile p := by
  induction n with
  | zero => rw [List.replicate_zero, List.append_nil]
  | succ n ih => rw [List.replicate_succ', ← List.append_assoc, List.rdropWhile_concat_pos p _ _ h, ih]

theorem toB64url_eq (bytes : Bytes) :
    toB64url bytes = (sextets bytes).map fun n => toUrlUnit (base64Unit n) := by
  have hpads : (List.replicate ((3 - bytes.length % 3) % 3) padUnit).map toUrlUnit =
      List.replicate ((3 - bytes.length % 3) % 3) padUnit := by
    rw [List.map_replicate]
    rfl
  unfold toB64url toB64 btoa
  rw [List.map_append, hpads, rdropWhile_replicate (decide_eq_true rfl), List.map_map]
  refine List.rdropWhile_eq_self_iff.mpr fun hne hlast => ?_
  obtain ⟨n, hn, heq⟩ := List.mem_map.mp (List.getLast_mem hne)
  have hpad : toUrlUnit (base64Unit n) = padUnit := heq.trans (of_decide_eq_true hlast)
  exact (urlUnit_of n (Js.sextets_lt bytes n hn)).2.2 hpad

theorem fromB64url_toB64url (bytes : Bytes) : fromB64url (toB64url bytes) = some bytes := by
  have hunits : (toB64url bytes).all isUrlUnit = true := by
    rw [toB64url_eq]
    refine List.all_eq_true.mpr fun unit hunit => ?_
    obtain ⟨n, hn, rfl⟩ := List.mem_map.mp hunit
    exact (urlUnit_of n (Js.sextets_lt bytes n hn)).1
  have hlength : (toB64url bytes).length % 4 = (4 - (3 - bytes.length % 3) % 3) % 4 := by
    rw [toB64url_eq, List.length_map]
    exact Js.sextets_length bytes
  have hback : (toB64url bytes).map ofUrlUnit = (sextets bytes).map base64Unit := by
    rw [toB64url_eq, List.map_map]
    exact List.map_congr_left fun n hn => (urlUnit_of n (Js.sextets_lt bytes n hn)).2.1
  have hpadded : (toB64url bytes).map ofUrlUnit ++
      List.replicate ((4 - (toB64url bytes).length % 4) % 4) padUnit = btoa bytes := by
    rw [hback, btoa]
    congr 2
    omega
  have haccepted : ¬ (¬ (toB64url bytes).all isUrlUnit = true ∨ (toB64url bytes).length % 4 = 1) := by
    rintro (hno | hone)
    · exact hno hunits
    · omega
  unfold fromB64url
  rw [if_neg haccepted]
  simp only [hpadded, fromB64, Js.atob_btoa, if_true]

theorem toB64url_fromB64url {text : Text} {bytes : Bytes} (h : fromB64url text = some bytes) :
    toB64url bytes = text := by
  unfold fromB64url at h
  split at h
  · cases h
  · dsimp only at h
    split at h
    · cases h
    · split at h
      · next heq =>
        cases h
        exact heq
      · cases h

end PocketShell.KeyVault
