import PocketShell.Js.Int32
import PocketShell.Sha256.Standard

/-!
# The digest of a link

`sha256Hex` of `linkCapability.ts` with the numbers and the typed arrays of the language,
and that it is SHA-256. A word is kept as a number that may be negative or too large until
`>>> 0`; `Js.Int32.Reads` relates it to the word of the standard.
-/

namespace PocketShell.Digest

open Js (Text)
open Js.Int32 (Reads)
open Sha256 (Word Vars)

/-! ## Typed arrays -/

abbrev Uint32Array : Type := List Word

/-- `array[i] ?? 0` -/
def load (array : Uint32Array) (i : Nat) : Int := (array[i]?.getD 0).toNat

/-- `array[i] = value` -/
def store (array : Uint32Array) (i : Nat) (value : Int) : Uint32Array := array.set i (Js.Int32.bits value)

/-- `new Uint8Array(length)`. Like what follows, `none` when it throws. -/
def newBytes (length : Int) : Option (List UInt8) :=
  if length < 0 then none else some (List.replicate length.toNat 0)

/-- `array.set(data, offset)` -/
def setBytes (array : List UInt8) (offset : Nat) (data : List UInt8) : Option (List UInt8) :=
  if array.length < offset + data.length then none
  else some (array.take offset ++ data ++ array.drop (offset + data.length))

/-- The bytes of a word, the highest first. -/
def wordBytes (word : Word) : List UInt8 :=
  [(word.toNat / 2 ^ 24).toUInt8, (word.toNat / 2 ^ 16).toUInt8, (word.toNat / 2 ^ 8).toUInt8,
    word.toNat.toUInt8]

/-- `view.setUint32(offset, value, false)` -/
def setUint32 (view : List UInt8) (offset : Nat) (value : Int) : Option (List UInt8) :=
  setBytes view offset (wordBytes (Js.Int32.bits value))

/-- `view.getUint32(offset, false)` -/
def getUint32 (view : List UInt8) (offset : Nat) : Option Int :=
  match view.drop offset with
  | b₀ :: b₁ :: b₂ :: b₃ :: _ => some (((b₀.toNat * 256 + b₁.toNat) * 256 + b₂.toNat) * 256 + b₃.toNat : Nat)
  | _ => none

/-! ## The functions of the source -/

def SHA_K : Uint32Array :=
  [0x428a2f98, 0x71374491, 0xb5c0fbcf, 0xe9b5dba5, 0x3956c25b, 0x59f111f1, 0x923f82a4, 0xab1c5ed5,
    0xd807aa98, 0x12835b01, 0x243185be, 0x550c7dc3, 0x72be5d74, 0x80deb1fe, 0x9bdc06a7, 0xc19bf174,
    0xe49b69c1, 0xefbe4786, 0x0fc19dc6, 0x240ca1cc, 0x2de92c6f, 0x4a7484aa, 0x5cb0a9dc, 0x76f988da,
    0x983e5152, 0xa831c66d, 0xb00327c8, 0xbf597fc7, 0xc6e00bf3, 0xd5a79147, 0x06ca6351, 0x14292967,
    0x27b70a85, 0x2e1b2138, 0x4d2c6dfc, 0x53380d13, 0x650a7354, 0x766a0abb, 0x81c2c92e, 0x92722c85,
    0xa2bfe8a1, 0xa81a664b, 0xc24b8b70, 0xc76c51a3, 0xd192e819, 0xd6990624, 0xf40e3585, 0x106aa070,
    0x19a4c116, 0x1e376c08, 0x2748774c, 0x34b0bcb5, 0x391c0cb3, 0x4ed8aa4a, 0x5b9cca4f, 0x682e6ff3,
    0x748f82ee, 0x78a5636f, 0x84c87814, 0x8cc70208, 0x90befffa, 0xa4506ceb, 0xbef9a3f7, 0xc67178f2]

section

open Js.Int32

def rotr (x : Int) (n : Nat) : Int :=
  shiftRightUnsigned (bitOr (shiftRightUnsigned x n) (shiftLeft x (32 - n))) 0

/-- One turn of the loop over the words 16 to 63. -/
def expand (w : Uint32Array) (i : Nat) : Uint32Array :=
  let wm15 := load w (i - 15)
  let wm2 := load w (i - 2)
  let s0 := bitXor (bitXor (rotr wm15 7) (rotr wm15 18)) (shiftRightUnsigned wm15 3)
  let s1 := bitXor (bitXor (rotr wm2 17) (rotr wm2 19)) (shiftRightUnsigned wm2 10)
  store w i (shiftRightUnsigned (add (add (add (load w (i - 16)) s0) (load w (i - 7))) s1) 0)

/-- One turn of the loop over the rounds. -/
def turn (w : Uint32Array) (v : Vars Int) (i : Nat) : Vars Int :=
  let S1 := bitXor (bitXor (rotr v.e 6) (rotr v.e 11)) (rotr v.e 25)
  let ch := bitXor (bitAnd v.e v.f) (bitAnd (bitNot v.e) v.g)
  let t1 := shiftRightUnsigned (add (add (add (add v.h S1) ch) (load SHA_K i)) (load w i)) 0
  let S0 := bitXor (bitXor (rotr v.a 2) (rotr v.a 13)) (rotr v.a 22)
  let maj := bitXor (bitXor (bitAnd v.a v.b) (bitAnd v.a v.c)) (bitAnd v.b v.c)
  let t2 := shiftRightUnsigned (add S0 maj) 0
  { h := v.g, g := v.f, f := v.e, e := shiftRightUnsigned (add v.d t1) 0, d := v.c, c := v.b, b := v.a
    a := shiftRightUnsigned (add t1 t2) 0 }

/-- `state[i] = ((state[i] ?? 0) + value) >>> 0` -/
def accumulate (state : Uint32Array) (i : Nat) (value : Int) : Uint32Array :=
  store state i (shiftRightUnsigned (add (load state i) value) 0)

/-- The words of the block that starts at a byte. -/
def readBlock (view : List UInt8) (block : Nat) (w : Uint32Array) : Option Uint32Array :=
  (List.range 16).foldlM (fun w i => (getUint32 view (block + i * 4)).map (store w i)) w

/-- One turn of the loop over the blocks: the state and the words. -/
def blockTurn (view : List UInt8) (arrays : Uint32Array × Uint32Array) (block : Nat) :
    Option (Uint32Array × Uint32Array) :=
  (readBlock view block arrays.2).map fun w =>
    let w := (List.range' 16 48).foldl expand w
    let state := arrays.1
    let v := (List.range 64).foldl (turn w)
      ⟨load state 0, load state 1, load state 2, load state 3, load state 4, load state 5, load state 6,
        load state 7⟩
    let state := accumulate state 0 v.a
    let state := accumulate state 1 v.b
    let state := accumulate state 2 v.c
    let state := accumulate state 3 v.d
    let state := accumulate state 4 v.e
    let state := accumulate state 5 v.f
    let state := accumulate state 6 v.g
    let state := accumulate state 7 v.h
    (state, w)

def initialState : Uint32Array :=
  [0x6a09e667, 0xbb67ae85, 0x3c6ef372, 0xa54ff53a, 0x510e527f, 0x9b05688c, 0x1f83d9ab, 0x5be0cd19]

/-- The padded bytes. -/
def padBytes (data : List UInt8) : Option (List UInt8) := do
  let byteLength : Int := data.length
  let padded ← newBytes (add (shiftLeft (shiftRight (add byteLength 8) 6) 6) 64)
  let padded ← setBytes padded 0 data
  let padded := padded.set data.length 0x80
  -- A quotient by a power of two is exact.
  let padded ← setUint32 padded (padded.length - 8) (mul byteLength 8 / 2 ^ 32)
  setUint32 padded (padded.length - 4) (shiftRightUnsigned (mul byteLength 8) 0)

/-- `toString(16)` of a natural number. -/
def hexText (n : Nat) : Text := if n = 0 then [0x30] else (Nat.digits 16 n).reverse.map Js.hexDigit

/-- `text.padStart(8, '0')` -/
def padStart (text : Text) : Text := List.replicate (8 - text.length) 0x30 ++ text

def sha256Hex (data : List UInt8) : Option Text := do
  let padded ← padBytes data
  let arrays ← (List.range ((padded.length + 63) / 64)).foldlM
    (fun arrays k => blockTurn padded arrays (k * 64)) (initialState, List.replicate 64 0)
  some ((List.range 8).flatMap fun i => padStart (hexText (load arrays.1 i).toNat))

end

/-! ## Words -/

variable {k n i : Nat} {x : Int} {a : Word} {w : Uint32Array} {M : Nat → Word}

theorem rotr_reads (n : Nat) (h : Reads k x a) (h0 : 0 < n) (hn : n < 32) :
    Reads 1 (rotr x n) (a.rotateRight n) := by
  have hor := (h.shiftRightUnsigned hn).bitOr (h.shiftLeft (Nat.sub_lt (by decide) h0))
  rw [rotr, hor.toUint32, BitVec.rotateRight_def, Nat.mod_eq_of_lt hn]
  exact Reads.unsigned _

/-- `>>> 0` reads the word. -/
theorem reduced_reads (h : Reads k x a) : Reads 1 (Js.Int32.shiftRightUnsigned x 0) a := by
  rw [h.toUint32]
  exact Reads.unsigned a

theorem load_reads {array : Uint32Array} (h : array[i]? = some a) : Reads 1 (load array i) a := by
  rw [load, h]
  exact Reads.unsigned a

theorem shaK_eq : SHA_K = Sha256.roundConstants := by decide +kernel

theorem initialState_eq : initialState = Sha256.initial.toList := by decide +kernel

theorem shaK_reads (h : i < 64) : Reads 1 (load SHA_K i) (Sha256.K i) := by
  have hlength : SHA_K.length = 64 := by decide
  have hi : i < SHA_K.length := by rw [hlength]; exact h
  refine load_reads ?_
  rw [List.getElem?_eq_getElem hi, Sha256.K, ← shaK_eq, List.getD_eq_getElem _ _ hi]

/-! ## The schedule -/

/-- The first `n` words of a schedule are there. -/
structure Loaded (M : Nat → Word) (n : Nat) (w : Uint32Array) : Prop where
  length : w.length = 64
  words : ∀ i < n, w[i]? = some (Sha256.schedule M i)

theorem Loaded.reads (h : Loaded M n w) (hi : i < n) : Reads 1 (load w i) (Sha256.schedule M i) :=
  load_reads (h.words i hi)

theorem Loaded.store {value : Int} (h : Loaded M n w) (hn : n < 64)
    (hvalue : Js.Int32.bits value = Sha256.schedule M n) : Loaded M (n + 1) (store w n value) where
  length := by rw [Digest.store, List.length_set, h.length]
  words := by
    intro i hi
    rw [Digest.store, List.getElem?_set]
    split
    · next heq => rw [← heq, if_pos (by rw [h.length]; exact hn), hvalue]
    · next hne => exact h.words i (by omega)

/-- A later word is the sum of the standard. -/
theorem Loaded.expand (h : Loaded M n w) (hlow : 16 ≤ n) (hn : n < 64) : Loaded M (n + 1) (expand w n) := by
  refine h.store hn ?_
  have h15 := h.reads (show n - 15 < n by omega)
  have h2 := h.reads (show n - 2 < n by omega)
  have hs0 := ((rotr_reads 7 h15 (by decide) (by decide)).bitXor
    (rotr_reads 18 h15 (by decide) (by decide))).bitXor (h15.shiftRightUnsigned (show 3 < 32 by decide))
  have hs1 := ((rotr_reads 17 h2 (by decide) (by decide)).bitXor
    (rotr_reads 19 h2 (by decide) (by decide))).bitXor (h2.shiftRightUnsigned (show 10 < 32 by decide))
  have h16 := h.reads (show n - 16 < n by omega)
  have h7 := h.reads (show n - 7 < n by omega)
  have hsum := ((h16.add hs0 (by decide)).add h7 (by decide)).add hs1 (by decide)
  refine (reduced_reads hsum).bits.trans ?_
  conv_rhs => rw [Sha256.schedule, if_neg (not_lt.mpr hlow)]
  unfold Sha256.smallSigma0 Sha256.smallSigma1
  ac_rfl

/-! ## The rounds -/

/-- The variables of the source are those of the standard as unsigned numbers. -/
def numbers (v : Vars Word) : Vars Int := v.map fun word => (word.toNat : Int)

theorem turn_eq (h : Loaded M 64 w) (hi : i < 64) (v : Vars Word) :
    turn w (numbers v) i = numbers (Sha256.round (Sha256.K i) (Sha256.schedule M i) v) := by
  have ha := Reads.unsigned v.a
  have hb := Reads.unsigned v.b
  have hc := Reads.unsigned v.c
  have hd := Reads.unsigned v.d
  have he := Reads.unsigned v.e
  have hf := Reads.unsigned v.f
  have hg := Reads.unsigned v.g
  have hS1 := ((rotr_reads 6 he (by decide) (by decide)).bitXor (rotr_reads 11 he (by decide) (by decide))).bitXor
    (rotr_reads 25 he (by decide) (by decide))
  have hch := (he.bitAnd hf).bitXor (he.bitNot.bitAnd hg)
  have ht1 := reduced_reads (((((Reads.unsigned v.h).add hS1 (by decide)).add hch (by decide)).add
    (shaK_reads hi) (by decide)).add (h.reads hi) (by decide))
  have hS0 := ((rotr_reads 2 ha (by decide) (by decide)).bitXor (rotr_reads 13 ha (by decide) (by decide))).bitXor
    (rotr_reads 22 ha (by decide) (by decide))
  have hmaj := ((ha.bitAnd hb).bitXor (ha.bitAnd hc)).bitXor (hb.bitAnd hc)
  have ht2 := reduced_reads (hS0.add hmaj (by decide))
  have hnewE := (hd.add ht1 (by decide)).toUint32
  have hnewA := (ht1.add ht2 (by decide)).toUint32
  have hsame : ∀ a e a' e' : Int, a = a' → e = e' →
      (Vars.mk a v.a.toNat v.b.toNat v.c.toNat e v.e.toNat v.f.toNat v.g.toNat : Vars Int) =
        ⟨a', v.a.toNat, v.b.toNat, v.c.toNat, e', v.e.toNat, v.f.toNat, v.g.toNat⟩ := by
    rintro a e _ _ rfl rfl
    rfl
  exact hsame _ _ _ _ hnewA hnewE

theorem rounds_succ (M : Nat → Word) (v : Vars Word) (n : Nat) :
    Sha256.rounds M v (n + 1) = Sha256.round (Sha256.K n) (Sha256.schedule M n) (Sha256.rounds M v n) := by
  unfold Sha256.rounds
  rw [List.range_succ, List.foldl_append]
  rfl

theorem turns_eq (h : Loaded M 64 w) (v : Vars Word) :
    ∀ n ≤ 64, (List.range n).foldl (turn w) (numbers v) = numbers (Sha256.rounds M v n)
  | 0, _ => rfl
  | n + 1, hn => by
    rw [List.range_succ, List.foldl_append, turns_eq h v n (by omega), rounds_succ]
    exact turn_eq h (by omega) _

/-! ## Blocks -/

variable {view : List UInt8}

theorem getUint32_eq {offset : Nat} (h : offset + 4 ≤ view.length) : getUint32 view offset =
      some ((Sha256.valueOf (((Sha256.message view).drop (8 * offset)).take 32) : Nat) : Int) := by
  have hfour : 4 ≤ (view.drop offset).length := by rw [List.length_drop]; omega
  rw [Sha256.message_drop, show 32 = 8 * 4 from rfl, Sha256.message_take _ hfour]
  unfold getUint32
  generalize view.drop offset = bytes at hfour
  rcases bytes with _ | ⟨b₀, _ | ⟨b₁, _ | ⟨b₂, _ | ⟨b₃, rest⟩⟩⟩⟩
  · exact absurd hfour (by simp)
  · exact absurd hfour (by simp)
  · exact absurd hfour (by simp)
  · exact absurd hfour (by simp)
  · -- The bits of a byte stand for the byte.
    have hvalue : Sha256.valueOf (Sha256.message [b₀, b₁, b₂, b₃]) =
        ((b₀.toNat * 256 + b₁.toNat) * 256 + b₂.toNat) * 256 + b₃.toNat := by
      have h₀ := b₀.toNat_lt
      have h₁ := b₁.toNat_lt
      have h₂ := b₂.toNat_lt
      have h₃ := b₃.toNat_lt
      simp only [Sha256.message, List.flatMap_cons, List.flatMap_nil, Sha256.valueOf_append,
        Sha256.valueOf_bitsOf, List.length_append, Sha256.bitsOf_length, List.length_nil]
      simp only [Sha256.valueOf, List.foldl_nil]
      omega
    exact congrArg some (congrArg Nat.cast hvalue.symm)

/-- The words of a block are read in order. -/
theorem readBlock_eq {block : Nat} (h : 64 * block + 64 ≤ view.length) (hw : w.length = 64) :
    ∃ w', readBlock view (block * 64) w = some w' ∧
      Loaded (Sha256.word (Sha256.message view) block) 16 w' := by
  have hread : ∀ n ≤ 16, ∃ w', (List.range n).foldlM
      (fun w i => (getUint32 view (block * 64 + i * 4)).map (store w i)) w = some w' ∧
        Loaded (Sha256.word (Sha256.message view) block) n w' := by
    intro n
    induction n with
    | zero => exact fun _ => ⟨w, rfl, hw, fun i hi => absurd hi (Nat.not_lt_zero i)⟩
    | succ n ih =>
      intro hn
      obtain ⟨w', hrun, hloaded⟩ := ih (by omega)
      have hget := @getUint32_eq view (block * 64 + n * 4) (show block * 64 + n * 4 + 4 ≤ view.length by omega)
      have hvalue : Js.Int32.bits
          ((Sha256.valueOf (((Sha256.message view).drop (8 * (block * 64 + n * 4))).take 32) : Nat) : Int) =
            Sha256.schedule (Sha256.word (Sha256.message view) block) n := by
        rw [Sha256.schedule, if_pos (by omega), Sha256.word,
          show 8 * (block * 64 + n * 4) = 512 * block + 32 * n by ring]
        simp [Js.Int32.bits]
      refine ⟨_, ?_, hloaded.store (by omega) hvalue⟩
      rw [List.range_succ, List.foldlM_append, hrun]
      simp only [Option.bind_eq_bind, Option.bind_some, List.foldlM_cons, List.foldlM_nil, hget, Option.map_some]
      rfl
  exact hread 16 (le_refl 16)

theorem expand_all (h : Loaded M 16 w) : Loaded M 64 ((List.range' 16 48).foldl expand w) := by
  have hfold : ∀ n ≤ 48, Loaded M (16 + n) ((List.range' 16 n).foldl expand w) := by
    intro n
    induction n with
    | zero => exact fun _ => h
    | succ n ih =>
      intro hn
      rw [List.range'_1_concat, List.foldl_append]
      exact (ih (by omega)).expand (by omega) (by omega)
  exact hfold 48 (le_refl 48)

theorem accumulate_eq {state : Uint32Array} {b : Word} (hstate : state[i]? = some b) (a : Word) :
    accumulate state i (a.toNat : Int) = state.set i (a + b) := by
  have hsum := (load_reads hstate).add (Reads.unsigned a) (by decide)
  rw [accumulate, store, (reduced_reads hsum).bits, BitVec.add_comm]

/-- One block of the source is one block of the standard. -/
theorem blockTurn_eq {block : Nat} (h : 64 * block + 64 ≤ view.length)
    (hw : w.length = 64) (hash : Vars Word) :
    ∃ w', w'.length = 64 ∧ blockTurn view (hash.toList, w) (block * 64) =
      some ((Sha256.compress (Sha256.word (Sha256.message view) block) hash).toList, w') := by
  obtain ⟨w', hread, hloaded⟩ := readBlock_eq h hw
  have hall := expand_all hloaded
  refine ⟨_, hall.length, ?_⟩
  have hturns := turns_eq hall hash 64 (le_refl 64)
  have hstart : (⟨load hash.toList 0, load hash.toList 1, load hash.toList 2, load hash.toList 3,
      load hash.toList 4, load hash.toList 5, load hash.toList 6, load hash.toList 7⟩ : Vars Int) =
      numbers hash := rfl
  rw [blockTurn, hread, Option.map_some]
  dsimp only
  rw [hstart, hturns]
  generalize hrounds : Sha256.rounds (Sha256.word (Sha256.message view) block) hash 64 = v
  have hcompress : (Sha256.compress (Sha256.word (Sha256.message view) block) hash).toList =
      [v.a + hash.a, v.b + hash.b, v.c + hash.c, v.d + hash.d, v.e + hash.e, v.f + hash.f, v.g + hash.g,
        v.h + hash.h] := by
    rw [Sha256.compress, hrounds]
    rfl
  rw [hcompress]
  refine congrArg some (Prod.ext ?_ rfl)
  dsimp only [numbers, Vars.map, Vars.toList]
  rw [accumulate_eq rfl, accumulate_eq rfl, accumulate_eq rfl, accumulate_eq rfl, accumulate_eq rfl,
    accumulate_eq rfl, accumulate_eq rfl, accumulate_eq rfl]
  rfl

/-- All blocks of a padded message. -/
theorem blocks_eq (hw : w.length = 64) : ∀ {count : Nat}, 64 * count ≤ view.length →
      ∃ w', w'.length = 64 ∧ (List.range count).foldlM (fun arrays k => blockTurn view arrays (k * 64))
        (initialState, w) = some ((Sha256.hashBlocks (Sha256.message view) count).toList, w')
  | 0, _ => ⟨w, hw, by rw [initialState_eq]; rfl⟩
  | count + 1, h => by
    obtain ⟨w', hlength, hrun⟩ := @blocks_eq hw count (by omega)
    obtain ⟨w'', hlength', hblock⟩ := @blockTurn_eq w' view count (by omega) hlength
      (Sha256.hashBlocks (Sha256.message view) count)
    refine ⟨w'', hlength', ?_⟩
    rw [List.range_succ, List.foldlM_append, hrun]
    simp only [Option.bind_eq_bind, Option.bind_some, List.foldlM_cons, List.foldlM_nil, hblock]
    rw [Sha256.hashBlocks, Sha256.hashBlocks, List.range_succ, List.foldl_append]
    rfl

/-! ## Padding -/

/-- The length of the padded bytes. -/
def paddedLength (length : Nat) : Nat := (length + 8) / 64 * 64 + 64

variable {length : Nat}

theorem paddedLength_eq (h : length < 2 ^ 31 - 8) :
    Js.Int32.add (Js.Int32.shiftLeft (Js.Int32.shiftRight (Js.Int32.add length 8) 6) 6) 64 =
      paddedLength length := by
  have hsum : Js.Int32.add length 8 = (length + 8 : Nat) := Js.Int32.add_natural (n := 8) (by omega)
  rw [hsum, Js.Int32.shiftRight_natural (by omega) (by decide),
    Js.Int32.shiftLeft_natural (by omega) (by decide)]
  exact Js.Int32.add_natural (n := 64) (by omega)

theorem message_wordBytes (word : Word) : Sha256.message (wordBytes word) = Sha256.bitsOf 32 word.toNat := by
  have hbyte : ∀ n : Nat, Sha256.bitsOf 8 n.toUInt8.toNat = Sha256.bitsOf 8 n := by
    intro n
    have hmod : n.toUInt8.toNat = n % 2 ^ 8 := rfl
    rw [hmod, Sha256.bitsOf_mod]
  have hsplit : ∀ n : Nat, Sha256.bitsOf 32 n = Sha256.bitsOf 8 (n / 2 ^ 24) ++ (Sha256.bitsOf 8 (n / 2 ^ 16) ++
      (Sha256.bitsOf 8 (n / 2 ^ 8) ++ Sha256.bitsOf 8 n)) := by
    intro n
    rw [show 32 = 8 + 24 from rfl, Sha256.bitsOf_add, show 24 = 8 + 16 from rfl, Sha256.bitsOf_add,
      show 16 = 8 + 8 from rfl, Sha256.bitsOf_add]
  simp only [wordBytes, Sha256.message, List.flatMap_cons, List.flatMap_nil, hbyte, List.append_nil]
  rw [hsplit]

theorem message_zeros (n : Nat) : Sha256.message (List.replicate n 0) = List.replicate (8 * n) false := by
  induction n with
  | zero => rfl
  | succ n ih =>
    rw [List.replicate_succ, Sha256.message, List.flatMap_cons, ← Sha256.message, ih, Nat.mul_add,
      Nat.add_comm, List.replicate_add]
    rfl

/-- What `set` writes in the middle of an array. -/
theorem setBytes_eq {left middle right data : List UInt8} (h : data.length = middle.length) :
    setBytes (left ++ (middle ++ right)) left.length data = some (left ++ (data ++ right)) := by
  have hroom : ¬(left ++ (middle ++ right)).length < left.length + data.length := by
    rw [List.length_append, List.length_append]
    omega
  have hdrop : (left ++ (middle ++ right)).drop (left.length + data.length) = right := by
    rw [h, ← List.append_assoc]
    exact List.drop_left' List.length_append
  rw [setBytes, if_neg hroom, List.take_left', hdrop, List.append_assoc]
  rfl

theorem setUint32_eq {left right : List UInt8} (value : Int) :
    setUint32 (left ++ (List.replicate 4 0 ++ right)) left.length value =
      some (left ++ (wordBytes (Js.Int32.bits value) ++ right)) :=
  setBytes_eq rfl

theorem bits_natural (n : Nat) : Js.Int32.bits n = BitVec.ofNat 32 n := BitVec.ofInt_natCast 32 n

theorem bits_high (h : length < 2 ^ 31 - 8) :
    Js.Int32.bits (Js.Int32.mul length 8 / 2 ^ 32) = BitVec.ofNat 32 (8 * length / 2 ^ 32) := by
  have hproduct : Js.Int32.mul length 8 = (length * 8 : Nat) := Js.Int32.mul_natural (n := 8) (by omega)
  have hquotient : ((length * 8 : Nat) : Int) / 2 ^ 32 = ((length * 8 / 2 ^ 32 : Nat) : Int) := by
    rw [Int.natCast_div, Nat.cast_pow]
    rfl
  rw [hproduct, hquotient, bits_natural, Nat.mul_comm]

theorem bits_low (h : length < 2 ^ 31 - 8) :
    Js.Int32.bits (Js.Int32.shiftRightUnsigned (Js.Int32.mul length 8) 0) = BitVec.ofNat 32 (8 * length) := by
  have hproduct : Js.Int32.mul length 8 = (length * 8 : Nat) := Js.Int32.mul_natural (n := 8) (by omega)
  have hreads : Reads 8 ((length * 8 : Nat) : Int) (BitVec.ofNat 32 (length * 8)) :=
    ⟨bits_natural _, by rw [Int.natAbs_natCast]; omega⟩
  rw [hproduct, (reduced_reads hreads).bits, Nat.mul_comm]

variable {data : List UInt8}

/-- The array with the data and the end mark. -/
theorem marked_eq {zeros : Nat} : setBytes (List.replicate (data.length + 1 + zeros + 8) 0) 0 data =
        some (data ++ List.replicate (1 + zeros + 8) 0) ∧
      (data ++ List.replicate (1 + zeros + 8) 0).set data.length 0x80 =
        (data ++ 0x80 :: List.replicate zeros 0) ++ (List.replicate 4 0 ++ (List.replicate 4 0 ++ [])) := by
  constructor
  · have hsplit : List.replicate (data.length + 1 + zeros + 8) (0 : UInt8) =
        [] ++ (List.replicate data.length 0 ++ List.replicate (1 + zeros + 8) 0) := by
      rw [List.nil_append, ← List.replicate_add]
      congr 1
      omega
    rw [hsplit]
    exact setBytes_eq List.length_replicate.symm
  · rw [List.set_append_right _ _ (le_refl _), Nat.sub_self, Nat.add_assoc, Nat.add_comm 1,
      List.replicate_succ, List.set_cons_zero, List.replicate_add, List.append_assoc, List.cons_append]
    rfl

/-- The regions of the padded bytes: the data, the end mark, the zeros and the length. -/
theorem padBytes_regions {zeros : Nat} (h : data.length < 2 ^ 31 - 8)
    (hzeros : paddedLength data.length = data.length + 1 + zeros + 8) :
    padBytes data = some (data ++ 0x80 :: (List.replicate zeros 0 ++
      (wordBytes (BitVec.ofNat 32 (8 * data.length / 2 ^ 32)) ++
        wordBytes (BitVec.ofNat 32 (8 * data.length))))) := by
  have hnew : newBytes (Js.Int32.add (Js.Int32.shiftLeft (Js.Int32.shiftRight
      (Js.Int32.add data.length 8) 6) 6) 64) = some (List.replicate (data.length + 1 + zeros + 8) 0) := by
    rw [paddedLength_eq h, newBytes, if_neg (by omega), Int.toNat_natCast, hzeros]
  obtain ⟨hset, hmark⟩ := @marked_eq data zeros
  generalize hleft : data ++ 0x80 :: List.replicate zeros (0 : UInt8) = left at hmark
  have hhigh := @setUint32_eq left (List.replicate 4 0 ++ []) (Js.Int32.mul data.length 8 / 2 ^ 32)
  rw [bits_high h] at hhigh
  have hlow := @setUint32_eq (left ++ wordBytes (BitVec.ofNat 32 (8 * data.length / 2 ^ 32))) []
    (Js.Int32.shiftRightUnsigned (Js.Int32.mul data.length 8) 0)
  rw [bits_low h, List.append_assoc] at hlow
  have hat : (left ++ (List.replicate 4 (0 : UInt8) ++ (List.replicate 4 0 ++ []))).length - 8 = left.length := by
    simp
  have hat' : (left ++ (wordBytes (BitVec.ofNat 32 (8 * data.length / 2 ^ 32)) ++
      (List.replicate 4 (0 : UInt8) ++ []))).length - 4 =
        (left ++ wordBytes (BitVec.ofNat 32 (8 * data.length / 2 ^ 32))).length := by
    rw [← List.append_assoc, List.length_append]
    exact Nat.add_sub_cancel _ 4
  unfold padBytes
  simp only [Option.bind_eq_bind]
  rw [hnew, Option.bind_some, hset, Option.bind_some, hmark, hat, hhigh, Option.bind_some, hat', hlow, ← hleft]
  simp

/-- The padded bytes are the padded message. -/
theorem padBytes_eq (h : data.length < 2 ^ 31 - 8) :
    ∃ padded, padBytes data = some padded ∧ padded.length = paddedLength data.length ∧
      Sha256.message padded = Sha256.pad (Sha256.message data) := by
  obtain ⟨zeros, hzeros⟩ : ∃ zeros, paddedLength data.length = data.length + 1 + zeros + 8 := by
    refine ⟨paddedLength data.length - data.length - 9, ?_⟩
    unfold paddedLength
    omega
  refine ⟨_, padBytes_regions h hzeros, ?_, ?_⟩
  · rw [hzeros]
    simp [wordBytes]
    omega
  · have hpadding : Sha256.zeros (8 * data.length) = 7 + 8 * zeros := by
      unfold paddedLength at hzeros
      unfold Sha256.zeros
      omega
    have hlength : Sha256.bitsOf 64 (8 * data.length) =
        Sha256.bitsOf 32 (8 * data.length / 2 ^ 32) ++ Sha256.bitsOf 32 (8 * data.length) :=
      Sha256.bitsOf_add 32 32 (8 * data.length)
    have hmark : Sha256.bitsOf 8 (0x80 : UInt8).toNat = true :: List.replicate 7 false := by decide
    rw [Sha256.pad, Sha256.message_length, hpadding, hlength, Sha256.message_append, Sha256.message,
      Sha256.message, List.flatMap_cons, ← Sha256.message, hmark, ← Sha256.message, Sha256.message_append,
      Sha256.message_append, message_zeros, message_wordBytes, message_wordBytes, BitVec.toNat_ofNat,
      BitVec.toNat_ofNat, Sha256.bitsOf_mod, Sha256.bitsOf_mod, List.replicate_add]
    simp

/-! ## Digits -/

theorem hexText_small {n : Nat} (h : n < 16) : hexText n = [Js.hexDigit n] := by
  unfold hexText
  split
  · next hzero => rw [hzero]; rfl
  · next hne => rw [Nat.digits_of_lt 16 n hne h]; rfl

theorem hexText_large {n : Nat} (h : 16 ≤ n) : hexText n = hexText (n / 16) ++ [Js.hexDigit (n % 16)] := by
  unfold hexText
  rw [if_neg (by omega), if_neg (by omega), Nat.digits_def' (by decide) (by omega), List.reverse_cons,
    List.map_append]
  rfl

theorem hexDigits_zero (width : Nat) : Sha256.hexDigits width 0 = List.replicate width 0x30 := by
  induction width with
  | zero => rfl
  | succ width ih =>
    rw [Sha256.hexDigits, Nat.zero_div, ih, List.replicate_succ']
    rfl

theorem hexText_padded : ∀ (width : Nat) {n : Nat}, n < 16 ^ (width + 1) →
    List.replicate (width + 1 - (hexText n).length) 0x30 ++ hexText n = Sha256.hexDigits (width + 1) n
  | width, n, h => by
    by_cases hsmall : n < 16
    · rw [hexText_small hsmall, Sha256.hexDigits, Nat.div_eq_of_lt hsmall, hexDigits_zero,
        Nat.mod_eq_of_lt hsmall]
      rfl
    · cases width with
      | zero => exact absurd h (by simpa using hsmall)
      | succ width =>
        have hquotient : n / 16 < 16 ^ (width + 1) := by
          rw [Nat.div_lt_iff_lt_mul (by decide), ← Nat.pow_succ]
          exact h
        rw [hexText_large (not_lt.mp hsmall), Sha256.hexDigits, ← hexText_padded width hquotient,
          List.length_append, List.length_singleton, Nat.add_sub_add_right, List.append_assoc]

theorem padStart_hexText {n : Nat} (h : n < 16 ^ 8) : padStart (hexText n) = Sha256.hexDigits 8 n :=
  hexText_padded 7 h

/-- The digest of the source is the digest of the standard. -/
theorem sha256Hex_standard (data : List UInt8) (h : data.length < 2 ^ 31 - 8) :
    sha256Hex data = some (Sha256.hexDigest data) := by
  obtain ⟨padded, hpad, hlength, hmessage⟩ := padBytes_eq h
  have hw : (List.replicate 64 0 : Uint32Array).length = 64 := List.length_replicate
  have hcount : (padded.length + 63) / 64 = (Sha256.pad (Sha256.message data)).length / 512 := by
    rw [← hmessage, Sha256.message_length, hlength, paddedLength]
    omega
  obtain ⟨w, _, hrun⟩ := @blocks_eq _ padded hw ((padded.length + 63) / 64) (by
    rw [hlength, paddedLength]
    omega)
  have hdigits : ∀ word : Word, padStart (hexText word.toNat) = Sha256.hexDigits 8 word.toNat :=
    fun word => padStart_hexText word.isLt
  rw [sha256Hex, hpad, Option.bind_eq_bind, Option.bind_some, hrun, Option.bind_eq_bind, Option.bind_some,
    hmessage, hcount, Sha256.hexDigest, Sha256.hash]
  generalize Sha256.hashBlocks (Sha256.pad (Sha256.message data))
    ((Sha256.pad (Sha256.message data)).length / 512) = v
  rw [Vars.toList]
  simp only [List.flatMap_cons, List.flatMap_nil, ← hdigits]
  rfl

/-- The digest of a short message. -/
theorem sha256Hex_standard_abc : Sha256.hexDigest [0x61, 0x62, 0x63] =
    Js.ascii "ba7816bf8f01cfea414140de5dae2223b00361a396177a9cb410ff61f20015ad" := by
  have hcode : sha256Hex [0x61, 0x62, 0x63] =
      some (Js.ascii "ba7816bf8f01cfea414140de5dae2223b00361a396177a9cb410ff61f20015ad") := by decide +kernel
  exact Option.some.inj ((sha256Hex_standard [0x61, 0x62, 0x63] (by decide)).symm.trans hcode)

end PocketShell.Digest
