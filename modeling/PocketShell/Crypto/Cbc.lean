import Mathlib

/-!
# Cipher block chaining

A block cipher of 16 bytes, chained, with the padding of PKCS#7. The padding of a text can
be forged from its cipher text: one more block that decrypts to a whole block of padding.
-/

namespace Cbc

structure BlockCipher where
  encrypt : (key block : List UInt8) → List UInt8
  decrypt : (key block : List UInt8) → List UInt8
  encrypt_length : ∀ key block, block.length = 16 → (encrypt key block).length = 16
  decrypt_encrypt : ∀ key block, block.length = 16 → decrypt key (encrypt key block) = block

def xor (left right : List UInt8) : List UInt8 := List.zipWith (· ^^^ ·) left right

/-- `count` blocks of `data`; `iv` is the block before them. -/
def encryptBlocks (encrypt : List UInt8 → List UInt8) : (count : Nat) → (iv data : List UInt8) → List UInt8
  | 0, _, _ => []
  | count + 1, iv, data =>
    let block := encrypt (xor (data.take 16) iv)
    block ++ encryptBlocks encrypt count block (data.drop 16)

def decryptBlocks (decrypt : List UInt8 → List UInt8) : (count : Nat) → (iv data : List UInt8) → List UInt8
  | 0, _, _ => []
  | count + 1, iv, data =>
    xor (decrypt (data.take 16)) iv ++ decryptBlocks decrypt count (data.take 16) (data.drop 16)

/-- With one to sixteen bytes more that say how many they are. -/
def padded (data : List UInt8) : List UInt8 :=
  data ++ List.replicate (16 - data.length % 16) (16 - data.length % 16).toUInt8

/-- Without its padding; `none` where there is none. -/
def unpadded (data : List UInt8) : Option (List UInt8) :=
  let count := (data.getLast?.getD 0).toNat
  if 1 ≤ count ∧ count ≤ 16 ∧ List.replicate count count.toUInt8 <:+ data then
    some (data.take (data.length - count))
  else none

def encrypt (cipher : BlockCipher) (key iv data : List UInt8) : List UInt8 :=
  encryptBlocks (cipher.encrypt key) ((padded data).length / 16) iv (padded data)

def decrypt (cipher : BlockCipher) (key iv data : List UInt8) : Option (List UInt8) :=
  if data = [] ∨ data.length % 16 ≠ 0 then none
  else unpadded (decryptBlocks (cipher.decrypt key) (data.length / 16) iv data)

variable {cipher : BlockCipher} {key iv data last : List UInt8}

theorem xor_xor {left right : List UInt8} (h : left.length = right.length) : xor (xor left right) right = left := by
  induction left generalizing right with
  | nil => rfl
  | cons a left ih =>
    cases right with
    | nil => cases h
    | cons b right =>
      have htail : xor (xor left right) right = left := ih (Nat.succ.inj h)
      show (a ^^^ b ^^^ b) :: xor (xor left right) right = a :: left
      rw [htail, UInt8.xor_assoc, UInt8.xor_self, UInt8.xor_zero]

theorem xor_length {left right : List UInt8} (h : left.length = right.length) :
    (xor left right).length = left.length := by
  rw [xor, List.length_zipWith, h, Nat.min_self]

theorem decryptBlocks_succ (decrypt : List UInt8 → List UInt8) (count : Nat) (iv data : List UInt8) :
    decryptBlocks decrypt (count + 1) iv data =
      xor (decrypt (data.take 16)) iv ++ decryptBlocks decrypt count (data.take 16) (data.drop 16) := rfl

/-- One more block is decrypted with the block before it. -/
theorem decryptBlocks_snoc {decrypt : List UInt8 → List UInt8} {block : List UInt8} (hblock : block.length = 16) :
    ∀ {count : Nat} {iv data : List UInt8}, 0 < count → data.length = 16 * count →
      decryptBlocks decrypt (count + 1) iv (data ++ block) =
        decryptBlocks decrypt count iv data ++ xor (decrypt block) (data.drop (data.length - 16))
  | 1, iv, data, _, hdata => by
    have hwhole : data.drop (data.length - 16) = data := by rw [hdata]; rfl
    simp only [decryptBlocks]
    rw [hwhole, List.take_left' hdata, List.drop_left' hdata, List.take_of_length_le (le_of_eq hblock),
      List.take_of_length_le (le_of_eq hdata)]
    simp
  | count + 2, iv, data, _, hdata => by
    have hshort : (data.drop 16).length = 16 * (count + 1) := by
      rw [List.length_drop]
      omega
    have hlast : (data.drop 16).drop ((data.drop 16).length - 16) = data.drop (data.length - 16) := by
      rw [List.drop_drop, List.length_drop]
      congr 1
      omega
    have ih := @decryptBlocks_snoc decrypt block hblock (count + 1) (data.take 16) (data.drop 16)
      (Nat.succ_pos count) hshort
    rw [decryptBlocks_succ decrypt (count + 2), List.take_append_of_le_length (by omega),
      List.drop_append_of_le_length (by omega), ih, hlast, decryptBlocks_succ decrypt (count + 1),
      List.append_assoc]

theorem unpadded_block (data : List UInt8) : unpadded (data ++ List.replicate 16 16) = some data := by
  have hlast : (data ++ List.replicate 16 (16 : UInt8)).getLast?.getD 0 = 16 := by simp
  have hpad : 1 ≤ (16 : UInt8).toNat ∧ (16 : UInt8).toNat ≤ 16 ∧
      List.replicate (16 : UInt8).toNat (16 : UInt8).toNat.toUInt8 <:+ data ++ List.replicate 16 (16 : UInt8) :=
    ⟨by decide, by decide, List.suffix_append data _⟩
  unfold unpadded
  simp only [hlast]
  rw [if_pos hpad]
  refine congrArg some (List.take_left' ?_)
  rw [List.length_append, List.length_replicate]
  exact (Nat.add_sub_cancel _ _).symm

/-- The first block of the encryption of a block of padding, after the last block of a
cipher text. -/
theorem forged_block (hiv : iv.length = 16) :
    (encrypt cipher key iv (List.replicate 16 16)).take 16 =
      cipher.encrypt key (xor (List.replicate 16 16) iv) := by
  have hpadded : padded (List.replicate 16 16) = List.replicate 16 16 ++ List.replicate 16 16 := rfl
  have hxor : (xor (List.replicate 16 16) iv).length = 16 := xor_length (by rw [hiv, List.length_replicate])
  rw [encrypt, hpadded]
  exact List.take_left' (cipher.encrypt_length key _ hxor)

/-- Decryption without padding, by a forged block. -/
theorem decrypt_forged (hne : data ≠ []) (hwhole : data.length % 16 = 0) :
    decrypt cipher key iv (data ++
      (encrypt cipher key (data.drop (data.length - 16)) (List.replicate 16 16)).take 16) =
        some (decryptBlocks (cipher.decrypt key) (data.length / 16) iv data) := by
  have hpos : 0 < data.length := List.length_pos_iff.mpr hne
  have hlast : (data.drop (data.length - 16)).length = 16 := by
    rw [List.length_drop]
    omega
  have hforged : (xor (List.replicate 16 16) (data.drop (data.length - 16))).length = 16 :=
    xor_length (by rw [hlast, List.length_replicate])
  have hblock := cipher.encrypt_length key _ hforged
  have hcount : data.length = 16 * (data.length / 16) := by omega
  have hsnoc := @decryptBlocks_snoc (cipher.decrypt key) _ hblock (data.length / 16) iv data (by omega) hcount
  rw [cipher.decrypt_encrypt key _ hforged, xor_xor (by rw [hlast, List.length_replicate])] at hsnoc
  rw [forged_block hlast]
  have hall : (data ++ cipher.encrypt key (xor (List.replicate 16 16) (data.drop (data.length - 16)))).length =
      data.length + 16 := by
    rw [List.length_append, hblock]
  have hgood : ¬(data ++ cipher.encrypt key (xor (List.replicate 16 16) (data.drop (data.length - 16))) = [] ∨
      (data ++ cipher.encrypt key (xor (List.replicate 16 16) (data.drop (data.length - 16)))).length % 16 ≠ 0) := by
    rw [hall, not_or, not_not]
    exact ⟨List.append_ne_nil_of_left_ne_nil hne _, by omega⟩
  have hblocks : (data.length + 16) / 16 = data.length / 16 + 1 := by omega
  rw [decrypt, if_neg hgood, hall, hblocks, hsnoc, unpadded_block]

end Cbc
