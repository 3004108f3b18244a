import PocketShell.Js.Json

/-!
# SHA-256

The hash of FIPS 180-4 on strings of bits.

* The constants are the first 32 bits of the fractional parts of the cube roots of the
  first 64 primes, and of the square roots of the first 8.
* `pad`, `word`: padding to blocks of 512 bits, and the words of a block.
* `schedule`, `round`, `compress`, `hash`: the computation.
-/

namespace Sha256

abbrev Word : Type := BitVec 32

/-! ## Constants -/

def isPrime (n : Nat) : Bool := 2 ≤ n && (List.range n).all fun d => d < 2 || n % d ≠ 0

theorem isPrime_iff {n : Nat} : isPrime n = true ↔ n.Prime := by
  rw [Nat.prime_def_lt, isPrime, Bool.and_eq_true, decide_eq_true_eq, List.all_eq_true]
  refine and_congr_right fun hn => ⟨fun h d hd hdvd => ?_, fun h d hd => ?_⟩
  · have hcase := h d (List.mem_range.mpr hd)
    rw [Bool.or_eq_true, decide_eq_true_eq, decide_eq_true_eq] at hcase
    rcases hcase with hsmall | hmod
    · have hpos := Nat.pos_of_dvd_of_pos hdvd (by omega)
      omega
    · exact absurd (Nat.mod_eq_zero_of_dvd hdvd) hmod
  · rw [Bool.or_eq_true, decide_eq_true_eq, decide_eq_true_eq]
    by_cases hsmall : d < 2
    · exact .inl hsmall
    · refine .inr fun hmod => ?_
      have hone := h d (List.mem_range.mp hd) (Nat.dvd_of_mod_eq_zero hmod)
      omega

/-- The first 64 primes. -/
def primes : List Nat := (List.range 312).filter isPrime

/-- The bits of a `k`-th root, from bit `i - 1` on down. -/
def rootFrom (k n : Nat) : Nat → Nat → Nat
  | 0, r => r
  | i + 1, r => rootFrom k n i (if (r + 2 ^ i) ^ k ≤ n then r + 2 ^ i else r)

/-- The `k`-th root of `n`, rounded down. -/
def root (k n : Nat) : Nat := rootFrom k n 48 0

theorem rootFrom_spec {k n : Nat} : ∀ {i r : Nat}, r ^ k ≤ n → n < (r + 2 ^ i) ^ k →
    rootFrom k n i r ^ k ≤ n ∧ n < (rootFrom k n i r + 1) ^ k
  | 0, _, hlow, hhigh => ⟨hlow, hhigh⟩
  | i + 1, r, hlow, hhigh => by
    rw [rootFrom]
    split
    · next hle =>
      refine rootFrom_spec hle ?_
      rwa [Nat.add_assoc, ← Nat.two_mul, ← Nat.pow_succ']
    · next hlt => exact rootFrom_spec hlow (not_le.mp hlt)

theorem root_spec {k n : Nat} (hk : k ≠ 0) (h : n < (2 ^ 48) ^ k) : root k n ^ k ≤ n ∧ n < (root k n + 1) ^ k := by
  refine rootFrom_spec ?_ ?_
  · rw [Nat.zero_pow (Nat.pos_of_ne_zero hk)]
    exact Nat.zero_le n
  · rwa [Nat.zero_add]

/-- The constants of the rounds. -/
def roundConstants : List Word := primes.map fun p => BitVec.ofNat 32 (root 3 (p * 2 ^ 96))

/-- The constant of round `t`. -/
def K (t : Nat) : Word := roundConstants.getD t 0

/-! ## Functions on words -/

def Ch (x y z : Word) : Word := (x &&& y) ^^^ (~~~x &&& z)

def Maj (x y z : Word) : Word := (x &&& y) ^^^ (x &&& z) ^^^ (y &&& z)

def bigSigma0 (x : Word) : Word := x.rotateRight 2 ^^^ x.rotateRight 13 ^^^ x.rotateRight 22

def bigSigma1 (x : Word) : Word := x.rotateRight 6 ^^^ x.rotateRight 11 ^^^ x.rotateRight 25

def smallSigma0 (x : Word) : Word := x.rotateRight 7 ^^^ x.rotateRight 18 ^^^ (x >>> 3)

def smallSigma1 (x : Word) : Word := x.rotateRight 17 ^^^ x.rotateRight 19 ^^^ (x >>> 10)

/-! ## Bits -/

/-- The last `width` bits of a number, the highest first. -/
def bitsOf : (width : Nat) → (n : Nat) → List Bool
  | 0, _ => []
  | width + 1, n => bitsOf width (n / 2) ++ [decide (n % 2 = 1)]

/-- The number that bits stand for. -/
def valueOf (bits : List Bool) : Nat := bits.foldl (fun n bit => 2 * n + bit.toNat) 0

/-- The bits of a string of bytes. -/
def message (data : List UInt8) : List Bool := data.flatMap fun byte => bitsOf 8 byte.toNat

/-- How many zeros make a message of `l` bits, its end mark and its length fill blocks. -/
def zeros (l : Nat) : Nat := (448 + 512 - (l + 1) % 512) % 512

def pad (m : List Bool) : List Bool :=
  m ++ true :: (List.replicate (zeros m.length) false ++ bitsOf 64 m.length)

/-- Word `j` of block `i`. -/
def word (bits : List Bool) (i j : Nat) : Word :=
  BitVec.ofNat 32 (valueOf ((bits.drop (512 * i + 32 * j)).take 32))

/-! ## The computation -/

/-- The working variables, or the words of a hash. -/
structure Vars (α : Type) where
  a : α
  b : α
  c : α
  d : α
  e : α
  f : α
  g : α
  h : α

def Vars.map {α β : Type} (f : α → β) (v : Vars α) : Vars β :=
  ⟨f v.a, f v.b, f v.c, f v.d, f v.e, f v.f, f v.g, f v.h⟩

def Vars.toList {α : Type} (v : Vars α) : List α := [v.a, v.b, v.c, v.d, v.e, v.f, v.g, v.h]

/-- The message schedule `W_t` of a block. -/
def schedule (M : Nat → Word) (t : Nat) : Word :=
  if t < 16 then M t
  else smallSigma1 (schedule M (t - 2)) + schedule M (t - 7) + smallSigma0 (schedule M (t - 15)) +
    schedule M (t - 16)
termination_by t

def round (k w : Word) (v : Vars Word) : Vars Word :=
  let T1 := v.h + bigSigma1 v.e + Ch v.e v.f v.g + k + w
  let T2 := bigSigma0 v.a + Maj v.a v.b v.c
  ⟨T1 + T2, v.a, v.b, v.c, v.d + T1, v.e, v.f, v.g⟩

/-- The working variables after `t` rounds. -/
def rounds (M : Nat → Word) (H : Vars Word) (t : Nat) : Vars Word :=
  (List.range t).foldl (fun v t => round (K t) (schedule M t) v) H

/-- The intermediate hash after one more block. -/
def compress (M : Nat → Word) (H : Vars Word) : Vars Word :=
  let v := rounds M H 64
  ⟨v.a + H.a, v.b + H.b, v.c + H.c, v.d + H.d, v.e + H.e, v.f + H.f, v.g + H.g, v.h + H.h⟩

/-- A square root of one of the first eight primes. -/
def H (i : Nat) : Word := BitVec.ofNat 32 (root 2 (primes.getD i 0 * 2 ^ 64))

def initial : Vars Word := ⟨H 0, H 1, H 2, H 3, H 4, H 5, H 6, H 7⟩

/-- The hash of the first `count` blocks. -/
def hashBlocks (bits : List Bool) (count : Nat) : Vars Word :=
  (List.range count).foldl (fun hash i => compress (word bits i) hash) initial

def hash (m : List Bool) : Vars Word := hashBlocks (pad m) ((pad m).length / 512)

/-- The last `width` digits to base 16. -/
def hexDigits : (width : Nat) → (n : Nat) → Js.Text
  | 0, _ => []
  | width + 1, n => hexDigits width (n / 16) ++ [Js.hexDigit (n % 16)]

/-- The digest in lower-case hexadecimal. -/
def hexDigest (data : List UInt8) : Js.Text :=
  (hash (message data)).toList.flatMap fun word => hexDigits 8 word.toNat

/-! ## Bits and bytes -/

theorem bitsOf_length (width n : Nat) : (bitsOf width n).length = width := by
  induction width generalizing n with
  | zero => rfl
  | succ width ih => rw [bitsOf, List.length_append, ih, List.length_singleton]

theorem bitsOf_mod (width n : Nat) : bitsOf width (n % 2 ^ width) = bitsOf width n := by
  induction width generalizing n with
  | zero => rfl
  | succ width ih =>
    have hhalf : n % 2 ^ (width + 1) / 2 = n / 2 % 2 ^ width := by
      rw [Nat.pow_succ', Nat.mod_mul_right_div_self]
    have hlast : n % 2 ^ (width + 1) % 2 = n % 2 := Nat.mod_mod_of_dvd n (dvd_pow_self 2 (Nat.succ_ne_zero width))
    rw [bitsOf, bitsOf, hhalf, hlast, ih]

theorem bitsOf_add (left right n : Nat) :
    bitsOf (left + right) n = bitsOf left (n / 2 ^ right) ++ bitsOf right n := by
  induction right generalizing n with
  | zero => simp [bitsOf]
  | succ right ih =>
    rw [← Nat.add_assoc, bitsOf, bitsOf, ih, Nat.div_div_eq_div_mul, ← Nat.pow_succ', List.append_assoc]

theorem valueOf_append (left right : List Bool) :
    valueOf (left ++ right) = valueOf left * 2 ^ right.length + valueOf right := by
  induction right using List.reverseRecOn with
  | nil => simp [valueOf]
  | append_singleton right bit ih =>
    unfold valueOf at ih ⊢
    rw [← List.append_assoc, List.foldl_append, ih, List.foldl_append, List.length_append,
      List.length_singleton, Nat.pow_succ]
    simp only [List.foldl_cons, List.foldl_nil]
    ring

theorem valueOf_bitsOf (width n : Nat) : valueOf (bitsOf width n) = n % 2 ^ width := by
  induction width generalizing n with
  | zero => simp [bitsOf, valueOf, Nat.mod_one]
  | succ width ih =>
    have hlast : valueOf [decide (n % 2 = 1)] = n % 2 := by
      rcases Nat.mod_two_eq_zero_or_one n with h | h <;> simp [valueOf, h]
    rw [bitsOf, valueOf_append, ih, hlast, List.length_singleton, Nat.pow_one, Nat.pow_succ',
      Nat.mod_mul]
    ring

theorem message_append (left right : List UInt8) : message (left ++ right) = message left ++ message right :=
  List.flatMap_append

theorem message_length (data : List UInt8) : (message data).length = 8 * data.length := by
  induction data with
  | nil => rfl
  | cons byte data ih =>
    rw [message, List.flatMap_cons, List.length_append, bitsOf_length, ← message, ih, List.length_cons]
    ring

theorem message_drop (data : List UInt8) (n : Nat) : (message data).drop (8 * n) = message (data.drop n) := by
  by_cases hn : n ≤ data.length
  · conv_lhs => rw [← List.take_append_drop n data, message_append]
    refine List.drop_left' ?_
    rw [message_length, List.length_take, Nat.min_eq_left hn]
  · have hlong : data.length ≤ n := Nat.le_of_not_le hn
    rw [List.drop_eq_nil_of_le hlong, List.drop_eq_nil_of_le (by rw [message_length]; omega)]
    rfl

theorem message_take (data : List UInt8) {n : Nat} (hn : n ≤ data.length) :
    (message data).take (8 * n) = message (data.take n) := by
  conv_lhs => rw [← List.take_append_drop n data, message_append]
  refine List.take_left' ?_
  rw [message_length, List.length_take, Nat.min_eq_left hn]

/-- The padded message is a whole number of blocks, by the fewest zeros. -/
theorem zeros_spec (l : Nat) :
    (l + 1 + zeros l) % 512 = 448 ∧ ∀ k, (l + 1 + k) % 512 = 448 → zeros l ≤ k := by
  unfold zeros
  constructor
  · omega
  · intro k hk
    omega

end Sha256
