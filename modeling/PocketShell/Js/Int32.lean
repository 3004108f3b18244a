import Mathlib

/-!
# Numbers under the 32-bit operators

Integers among the numbers: sums and products are rounded to 53 bits, and the bitwise
operators work on the last 32 bits of what they are given, read with a sign but for `>>>`.
`Reads` tells which word an integer stands for, whatever its sign and its excess.
-/

namespace Js.Int32

/-- `n / 2^k` to the nearest integer, ties to the even one. -/
def nearest (n k : Nat) : Nat :=
  if 2 * (n % 2 ^ k) < 2 ^ k ∨ 2 * (n % 2 ^ k) = 2 ^ k ∧ n / 2 ^ k % 2 = 0 then n / 2 ^ k
  else n / 2 ^ k + 1

/-- The number nearest to an integer: one of 53 significant bits. -/
def toDouble (n : Int) : Int :=
  if n.natAbs ≤ 2 ^ 53 then n
  else n.sign * (nearest n.natAbs (n.natAbs.log2 - 52) * 2 ^ (n.natAbs.log2 - 52))

/-- `x + y` -/
def add (x y : Int) : Int := toDouble (x + y)

/-- `x * y` -/
def mul (x y : Int) : Int := toDouble (x * y)

/-- The 32 bits that `ToInt32` and `ToUint32` share. -/
def bits (x : Int) : BitVec 32 := BitVec.ofInt 32 x

/-- `x & y` -/
def bitAnd (x y : Int) : Int := (bits x &&& bits y).toInt

/-- `x | y` -/
def bitOr (x y : Int) : Int := (bits x ||| bits y).toInt

/-- `x ^ y` -/
def bitXor (x y : Int) : Int := (bits x ^^^ bits y).toInt

/-- `~x` -/
def bitNot (x : Int) : Int := (~~~bits x).toInt

/-- `x << n` -/
def shiftLeft (x : Int) (n : Nat) : Int := (bits x <<< (n % 32)).toInt

/-- `x >> n` -/
def shiftRight (x : Int) (n : Nat) : Int := ((bits x).sshiftRight (n % 32)).toInt

/-- `x >>> n` -/
def shiftRightUnsigned (x : Int) (n : Nat) : Int := (bits x >>> (n % 32)).toNat

theorem toDouble_of_le {n : Int} (h : n.natAbs ≤ 2 ^ 53) : toDouble n = n := if_pos h

/-! ## Natural numbers -/

section

variable {m n : Nat}

theorem bits_natural (h : m < 2 ^ 31) : (bits m).toNat = m := by
  rw [bits, BitVec.ofInt_natCast, BitVec.toNat_ofNat, Nat.mod_eq_of_lt (by omega)]

theorem toInt_natural {word : BitVec 32} (h : word.toNat < 2 ^ 31) : word.toInt = word.toNat :=
  BitVec.toInt_eq_toNat_of_lt (by omega)

/-- `m >> n` of a natural number without a sign bit. -/
theorem shiftRight_natural (h : m < 2 ^ 31) (hn : n < 32) : shiftRight m n = (m / 2 ^ n : Nat) := by
  have hbits := bits_natural h
  rw [shiftRight, BitVec.toInt_sshiftRight, toInt_natural (by omega), hbits, Nat.mod_eq_of_lt hn,
    Int.shiftRight_eq_div_pow]
  simp

theorem shiftLeft_natural (h : m * 2 ^ n < 2 ^ 31) (hn : n < 32) : shiftLeft m n = (m * 2 ^ n : Nat) := by
  have hm : m < 2 ^ 31 := lt_of_le_of_lt (Nat.le_mul_of_pos_right m (Nat.two_pow_pos n)) h
  have hshift : (bits m <<< n).toNat = m * 2 ^ n := by
    rw [BitVec.toNat_shiftLeft, bits_natural hm, Nat.shiftLeft_eq, Nat.mod_eq_of_lt (by omega)]
  rw [shiftLeft, Nat.mod_eq_of_lt hn, toInt_natural (by omega), hshift]

theorem add_natural (h : m + n ≤ 2 ^ 53) : add m n = (m + n : Nat) := by
  rw [add, toDouble_of_le (by omega)]
  simp

theorem mul_natural (h : m * n ≤ 2 ^ 53) : mul m n = (m * n : Nat) := by
  rw [mul, ← Nat.cast_mul, toDouble_of_le (by rwa [Int.natAbs_natCast])]

end

/-! ## Words -/

/-- An integer that stands for a word and is at most `k` words large. -/
structure Reads (k : Nat) (x : Int) (word : BitVec 32) : Prop where
  bits : bits x = word
  bound : x.natAbs ≤ k * 2 ^ 32

namespace Reads

variable {j k n : Nat} {x y : Int} {a b word : BitVec 32}

theorem unsigned (word : BitVec 32) : Reads 1 word.toNat word where
  bits := by simp [Int32.bits]
  bound := by
    have h := word.isLt
    rw [Int.natAbs_natCast]
    omega

theorem signed (word : BitVec 32) : Reads 1 word.toInt word where
  bits := by simp [Int32.bits]
  bound := by
    have hlow := word.le_toInt
    have hhigh := word.toInt_lt
    omega

theorem bitAnd (h : Reads j x a) (h' : Reads k y b) : Reads 1 (Int32.bitAnd x y) (a &&& b) := by
  rw [Int32.bitAnd, h.bits, h'.bits]
  exact signed _

theorem bitOr (h : Reads j x a) (h' : Reads k y b) : Reads 1 (Int32.bitOr x y) (a ||| b) := by
  rw [Int32.bitOr, h.bits, h'.bits]
  exact signed _

theorem bitXor (h : Reads j x a) (h' : Reads k y b) : Reads 1 (Int32.bitXor x y) (a ^^^ b) := by
  rw [Int32.bitXor, h.bits, h'.bits]
  exact signed _

theorem bitNot (h : Reads k x a) : Reads 1 (Int32.bitNot x) (~~~a) := by
  rw [Int32.bitNot, h.bits]
  exact signed _

theorem shiftLeft (h : Reads k x a) (hn : n < 32) : Reads 1 (Int32.shiftLeft x n) (a <<< n) := by
  rw [Int32.shiftLeft, h.bits, Nat.mod_eq_of_lt hn]
  exact signed _

theorem shiftRightUnsigned (h : Reads k x a) (hn : n < 32) :
    Reads 1 (Int32.shiftRightUnsigned x n) (a >>> n) := by
  rw [Int32.shiftRightUnsigned, h.bits, Nat.mod_eq_of_lt hn]
  exact unsigned _

/-- `x >>> 0` -/
theorem toUint32 (h : Reads k x a) : Int32.shiftRightUnsigned x 0 = a.toNat := by
  rw [Int32.shiftRightUnsigned, h.bits]
  simp

/-- A sum of few words is exact, and reduced only when it is read. -/
theorem add (h : Reads j x a) (h' : Reads k y b) (hk : j + k ≤ 2 ^ 21) :
    Reads (j + k) (Int32.add x y) (a + b) := by
  have hbound : (x + y).natAbs ≤ (j + k) * 2 ^ 32 := by
    have hx := h.bound
    have hy := h'.bound
    have habs := Int.natAbs_add_le x y
    rw [Nat.add_mul]
    omega
  have hexact : Int32.add x y = x + y := toDouble_of_le (by omega)
  rw [hexact]
  exact ⟨by rw [Int32.bits, BitVec.ofInt_add, ← Int32.bits, ← Int32.bits, h.bits, h'.bits], hbound⟩

end Reads

end Js.Int32
