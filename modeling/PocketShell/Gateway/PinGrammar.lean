import PocketShell.Gateway.HostPin
import PocketShell.SshKeys.Canonical

/-!
# The grammar of a pin

What `parseGatewayHostPin` takes is to be exact: a pin that names a key names a whole SSH public
key, every such key is taken in the documented forms, and an input with a comment after the key,
a second line, an authority marker or a private key is refused. A fingerprint is looked for
anywhere in what did not parse as a key, so that a line with an `@cert-authority` marker gives a
pin where the line has a fingerprint.

* `IsPublicKey`: an SSH public key of a type, byte for byte.
* `PinGrammar`: what is asked for an input.
* `pin_grammar`: which inputs it holds of.
* `pin_marked`: a marked line, and the pin that is made of it.
-/

namespace PocketShell.Gateway

open Js (Text Bytes ascii byte isSpace btoa atob asciiLower LowerCase Cased)
open WireReader (string positiveMpint mpintOf smallOf)
open SshKeys (sshString u32be sshMpint natBytes bigUnsigned minimalBytes isMinimal)

/-! ## 1. What a key is -/

/-- An mpint of a natural number. -/
def mpint (n : Nat) : Bytes := sshMpint (natBytes n)

/-- A name, one byte for each character. -/
def sshName (text : Text) : Bytes := sshString (text.map UInt16.toUInt8)

/-- The bytes of a coordinate of the curve. -/
def coordinateLength : GatewayHostKeyType → Option Nat
  | .nistp256 => some 32
  | .nistp384 => some 48
  | .nistp521 => some 66
  | _ => none

inductive IsPublicKey : GatewayHostKeyType → Bytes → Prop
  | ed25519 {key : Bytes} : key.length = 32 →
    IsPublicKey .ed25519 (sshName GatewayHostKeyType.ed25519.text ++ sshString key)
  | ecdsa {keyType : GatewayHostKeyType} {x y : Bytes} : coordinateLength keyType = some x.length →
    coordinateLength keyType = some y.length →
    IsPublicKey keyType (sshName keyType.text ++ (sshName keyType.curve ++ sshString (0x04 :: (x ++ y))))
  | rsa {e n : Nat} : e % 2 = 1 → 3 ≤ e → 2 ^ 2047 ≤ n →
    IsPublicKey .rsa (sshName GatewayHostKeyType.rsa.text ++ (mpint e ++ mpint n))

/-- `<type> <base64>` -/
def keyLine (keyType : GatewayHostKeyType) (blob : Bytes) : Text :=
  keyType.text ++ ascii " " ++ btoa blob

/-! ## 2. What a text has -/

/-- The line alone or behind the label, with white space around. -/
def Pasted (line input : Text) : Prop :=
  ∃ before lead after : Text, (∀ u ∈ before, isSpace u = true) ∧ (∀ u ∈ after, isSpace u = true) ∧
    (lead = [] ∨ ∃ label, Cased PINNED_HOST_KEY_LABEL label ∧ lead = label ++ ascii " ") ∧
    input = before ++ lead ++ line ++ after

/-- A key, and something after it. -/
def HasComment (text : Text) : Prop :=
  ∃ keyType blob, IsPublicKey keyType blob ∧ ∃ before gap gap' comment : Text,
    gap ≠ [] ∧ (∀ u ∈ gap, isSpace u = true) ∧ gap' ≠ [] ∧ (∀ u ∈ gap', isSpace u = true) ∧
      comment ≠ [] ∧ text = before ++ keyType.text ++ gap ++ btoa blob ++ gap' ++ comment

def HasSecondLine (text : Text) : Prop := 0x0d ∈ text ∨ 0x0a ∈ text

/-- The first field, or the first one behind the label, is the marker. -/
def HasAuthorityMarker (text : Text) : Prop :=
  ∃ lead rest : Text, (lead = [] ∨ ∃ label gap, Cased PINNED_HOST_KEY_LABEL label ∧
      (∀ u ∈ gap, isSpace u = true) ∧ lead = label ++ gap) ∧
    (∀ u ∈ rest.head?, isSpace u = true) ∧ text = lead ++ ascii "@cert-authority" ++ rest

def HasPrivateKey (text : Text) : Prop :=
  ∃ before mark after : Text, Cased (ascii "PRIVATE KEY") mark ∧ text = before ++ mark ++ after

section

variable (lower : LowerCase)

/-- What is asked of `parseGatewayHostPin` for an input. -/
structure PinGrammar (input : Text) : Prop where
  exact : ∀ keyType keyB64 line, parseGatewayHostPin lower input = some (.hostKey keyType keyB64 line) →
    ∃ blob, keyB64 = btoa blob ∧ IsPublicKey keyType blob
  accepts : ∀ keyType blob, IsPublicKey keyType blob → blob.length ≤ MAX_HOST_KEY_BLOB_BYTES →
    Pasted (keyLine keyType blob) input →
      parseGatewayHostPin lower input = some (.hostKey keyType (btoa blob) (keyLine keyType blob))
  refuses : HasComment (Js.trim input) ∨ HasSecondLine (Js.trim input) ∨ HasAuthorityMarker (Js.trim input) ∨
    HasPrivateKey (Js.trim input) → parseGatewayHostPin lower input = none
  same : ∀ pin, parseGatewayHostPin lower input = some pin →
    parseGatewayHostPin lower (gatewayHostPinText pin) = some pin

/-- A text in which a fingerprint is looked for and found. -/
structure FallsThrough (text : Text) : Prop where
  short : text.length ≤ 16384
  oneLine : ¬HasSecondLine text
  noPrivateKey : hasPrivateKey text = false
  noKey : looksLikeKey (unlabelled lower text) = false
  found : normalizeSha256Fingerprint text ≠ none

end

/-! ## 3. The wire format -/

section

variable {data rest buf bytes : Bytes}

theorem string_sshString (h : data.length < 4294967296) :
    string (sshString data ++ rest) = some (data, rest) := by
  have hbyte : ∀ n, (byte (n % 256)).toNat = n % 256 := fun n => Js.toNat_byte (Nat.mod_lt _ (by decide))
  have hlength : data.length / 16777216 % 256 * 16777216 + data.length / 65536 % 256 * 65536 +
      data.length / 256 % 256 * 256 + data.length % 256 = data.length := by
    omega
  unfold sshString u32be
  simp only [List.cons_append, List.nil_append, string, hbyte, hlength]
  rw [if_neg (by rw [List.length_append]; omega), List.take_left, List.drop_left]

theorem string_some (h : string buf = some (data, rest)) :
    buf = sshString data ++ rest ∧ data.length < 4294967296 := by
  unfold string at h
  split at h
  · next a b c d tail =>
    have := a.toNat_lt
    have := b.toNat_lt
    have := c.toNat_lt
    have := d.toNat_lt
    dsimp only at h
    obtain ⟨hlong, h⟩ := Option.ite_none_left_eq_some.mp h
    obtain ⟨rfl, rfl⟩ := Prod.mk.inj (Option.some.inj h)
    have hlength : (tail.take (a.toNat * 16777216 + b.toNat * 65536 + c.toNat * 256 + d.toNat)).length =
        a.toNat * 16777216 + b.toNat * 65536 + c.toNat * 256 + d.toNat :=
      List.length_take_of_le (Nat.not_lt.mp hlong)
    refine ⟨?_, by omega⟩
    unfold sshString u32be
    rw [hlength, List.append_assoc, List.take_append_drop, Js.byte_toNat (b := a) (by omega),
      Js.byte_toNat (b := b) (by omega), Js.byte_toNat (b := c) (by omega),
      Js.byte_toNat (b := d) (by omega)]
    rfl
  · cases h

theorem length_sshString (data : Bytes) : (sshString data).length = 4 + data.length := by
  rw [sshString, List.length_append]
  rfl

/-! ### Integers -/

/-- What is read of an integer. -/
def Mpint.ofNat (n : Nat) : Mpint :=
  ⟨Nat.size n, n % 2 = 1, if Nat.size n ≤ 32 then n else MAX_SAFE_INTEGER⟩

theorem bigUnsigned_append (a b : Bytes) :
    bigUnsigned (a ++ b) = bigUnsigned a * 256 ^ b.length + bigUnsigned b := by
  induction b using List.reverseRecOn with
  | nil => simp [bigUnsigned]
  | append_singleton b last ih =>
    have hsnoc : ∀ bytes : Bytes, bigUnsigned (bytes ++ [last]) = bigUnsigned bytes * 256 + last.toNat := by
      intro bytes
      simp [bigUnsigned]
    rw [← List.append_assoc, hsnoc, hsnoc, ih, List.length_append, List.length_singleton, pow_succ]
    ring

theorem bigUnsigned_lt (bytes : Bytes) : bigUnsigned bytes < 256 ^ bytes.length := by
  induction bytes using List.reverseRecOn with
  | nil => simp [bigUnsigned]
  | append_singleton bytes last ih =>
    have hlast : bigUnsigned [last] = last.toNat := by simp [bigUnsigned]
    have := last.toNat_lt
    rw [bigUnsigned_append, hlast, List.length_append, List.length_singleton, pow_one, pow_succ]
    omega

theorem bigUnsigned_odd (bytes : Bytes) : (bytes.getLastD 0).toNat % 2 = bigUnsigned bytes % 2 := by
  induction bytes using List.reverseRecOn with
  | nil => rfl
  | append_singleton bytes last _ =>
    have hlast : bigUnsigned [last] = last.toNat := by simp [bigUnsigned]
    rw [bigUnsigned_append, hlast, List.getLastD_concat, List.length_singleton, pow_one]
    omega

/-- The bit length of an integer is that of its first byte, and eight for each byte after it. -/
theorem size_lead {lead : UInt8} (hlead : lead ≠ 0) (rest : Bytes) :
    Nat.size (bigUnsigned (lead :: rest)) = rest.length * 8 + Nat.size lead.toNat := by
  have hsplit : bigUnsigned (lead :: rest) = lead.toNat * 256 ^ rest.length + bigUnsigned rest := by
    rw [← List.singleton_append, bigUnsigned_append]
    simp [bigUnsigned]
  have hrest := bigUnsigned_lt rest
  have hpow : 256 ^ rest.length = 2 ^ (rest.length * 8) := by
    rw [Nat.mul_comm, pow_mul]
    norm_num
  rw [hpow] at hsplit hrest
  have hpos : lead.toNat ≠ 0 := fun hzero => hlead (UInt8.toNat_inj.mp hzero)
  refine le_antisymm (Nat.size_le.mpr ?_) ?_
  · calc bigUnsigned (lead :: rest) < (lead.toNat + 1) * 2 ^ (rest.length * 8) := by
          rw [hsplit, Nat.add_mul, Nat.one_mul]
          exact Nat.add_lt_add_left hrest _
      _ ≤ 2 ^ Nat.size lead.toNat * 2 ^ (rest.length * 8) :=
          Nat.mul_le_mul_right _ (Nat.lt_size_self lead.toNat)
      _ = 2 ^ (rest.length * 8 + Nat.size lead.toNat) := by rw [← pow_add, Nat.add_comm]
  · obtain ⟨top, htop⟩ : ∃ top, Nat.size lead.toNat = top + 1 :=
      Nat.exists_eq_succ_of_ne_zero (Nat.size_pos.mpr (Nat.pos_of_ne_zero hpos)).ne'
    have hlow : 2 ^ top ≤ lead.toNat := Nat.lt_size.mp (htop ▸ Nat.lt_succ_self top)
    rw [htop, ← Nat.add_assoc]
    refine Nat.succ_le_of_lt (Nat.lt_size.mpr ?_)
    rw [hsplit, pow_add, Nat.mul_comm]
    exact (Nat.mul_le_mul_right _ hlow).trans (Nat.le_add_right _ _)

theorem isMinimal_cons {head : UInt8} {tail : Bytes} : isMinimal (head :: tail) = true ↔
    head < 0x80 ∧ (head = 0 → tail ≠ [] ∧ 0x80 ≤ tail.headD 0) := by
  cases tail with
  | nil =>
    simp only [isMinimal, Bool.and_eq_true, decide_eq_true_eq, UInt8.pos_iff_ne_zero]
    tauto
  | cons b rest =>
    simp only [isMinimal, Bool.and_eq_true, Bool.or_eq_true, decide_eq_true_eq, List.headD_cons]
    tauto

theorem dropWhile_zero {head : UInt8} {tail : Bytes} (h : isMinimal (head :: tail) = true) :
    ∃ lead rest, (head :: tail).dropWhile (fun b : UInt8 => decide (b = 0)) = lead :: rest ∧ lead ≠ 0 := by
  by_cases hhead : head = 0
  · obtain ⟨hne, hhigh⟩ := (isMinimal_cons.mp h).2 hhead
    obtain ⟨b, rest, rfl⟩ := List.exists_cons_of_ne_nil hne
    have hb : b ≠ 0 := by
      rintro rfl
      rw [List.headD_cons] at hhigh
      exact absurd hhigh (by decide)
    refine ⟨b, rest, ?_, hb⟩
    rw [List.dropWhile_cons_of_pos (by simpa using hhead), List.dropWhile_cons_of_neg (by simpa using hb)]
  · exact ⟨head, tail, List.dropWhile_cons_of_neg (by simpa using hhead), hhead⟩

theorem bigUnsigned_drop {lead : UInt8}
    (h : bytes.dropWhile (fun b : UInt8 => decide (b = 0)) = lead :: rest) :
    bigUnsigned bytes = bigUnsigned (lead :: rest) := by
  rw [← h]
  exact (SshKeys.bigUnsigned_minimal bytes).symm

/-- What is read of the bytes of a positive integer. -/
theorem mpintOf_minimal (h : isMinimal bytes = true) (hne : bytes ≠ []) :
    mpintOf bytes = some (Mpint.ofNat (bigUnsigned bytes)) := by
  obtain ⟨head, tail, rfl⟩ := List.exists_cons_of_ne_nil hne
  obtain ⟨hlow, hzero⟩ := isMinimal_cons.mp h
  obtain ⟨lead, rest, hdrop, hlead⟩ := dropWhile_zero h
  have hvalue := bigUnsigned_drop hdrop
  have hsize := size_lead hlead rest
  unfold mpintOf
  rw [if_neg (by simp [hlow]), if_neg, hdrop]
  · dsimp only
    have hsmall : rest.length * 8 + Nat.size lead.toNat ≤ 32 →
        smallOf ((lead :: rest).drop (rest.length + 1 - 4)) = bigUnsigned (lead :: rest) := by
      intro hle
      have hpos : 0 < Nat.size lead.toNat :=
        Nat.size_pos.mpr (Nat.pos_of_ne_zero fun h => hlead (UInt8.toNat_inj.mp h))
      rw [show rest.length + 1 - 4 = 0 by omega]
      rfl
    unfold Mpint.ofNat
    rw [bigUnsigned_odd, hvalue, hsize]
    congr 2
    split
    · next hle => exact hsmall hle
    · rfl
  · rintro ⟨-, hhead, hsecond⟩
    exact absurd hsecond (UInt8.not_lt.mpr (hzero hhead).2)

theorem mpintOf_some {m : Mpint} (h : mpintOf bytes = some m) : isMinimal bytes = true ∧ bytes ≠ [] := by
  unfold mpintOf at h
  obtain ⟨hhead, h⟩ := Option.ite_none_left_eq_some.mp h
  obtain ⟨hsecond, h⟩ := Option.ite_none_left_eq_some.mp h
  obtain ⟨hne, hlow⟩ := not_or.mp hhead
  obtain ⟨head, tail, rfl⟩ := List.exists_cons_of_ne_nil hne
  refine ⟨isMinimal_cons.mpr ⟨UInt8.not_le.mp hlow, fun hzero => ?_⟩, hne⟩
  have htail : tail ≠ [] := by
    rintro rfl
    simp only [List.headD_cons] at hlow
    rw [hzero] at h
    cases h
  exact ⟨htail, UInt8.not_lt.mp fun hlt =>
    hsecond ⟨Nat.succ_lt_succ (List.length_pos_of_ne_nil htail), hzero, hlt⟩⟩

/-- The bytes of an mpint. -/
theorem mpint_content {n : Nat} (hn : 0 < n) : ∃ content, mpint n = sshString content ∧
    isMinimal content = true ∧ content ≠ [] ∧ bigUnsigned content = n := by
  have hvalue : bigUnsigned (natBytes n) = n := by
    rw [SshKeys.bigUnsigned_digits, natBytes, ← List.map_reverse, List.reverse_reverse, List.map_map]
    have hdigits : (Nat.digits 256 n).map (UInt8.toNat ∘ byte) = Nat.digits 256 n := by
      refine (List.map_congr_left fun digit hdigit => ?_).trans (List.map_id _)
      exact Js.toNat_byte (Nat.digits_lt_base (by decide) hdigit)
    rw [hdigits, Nat.ofDigits_digits]
  have hdrop : (natBytes n).dropWhile (fun b : UInt8 => decide (b = 0)) = natBytes n := by
    have hminimal := SshKeys.natBytes_bigUnsigned (natBytes n)
    rw [hvalue] at hminimal
    exact hminimal.symm
  cases hbytes : natBytes n with
  | nil =>
    rw [hbytes] at hvalue
    exact absurd hvalue.symm hn.ne'
  | cons first rest =>
    rw [hbytes] at hvalue hdrop
    have hfirst : first ≠ 0 := by
      rintro rfl
      rw [List.dropWhile_cons_of_pos (by rfl)] at hdrop
      have hle := (List.dropWhile_sublist (fun b : UInt8 => decide (b = 0)) (l := rest)).length_le
      rw [hdrop, List.length_cons] at hle
      omega
    have hmpint : mpint n = sshString (if 0x80 ≤ first then 0 :: first :: rest else first :: rest) := by
      unfold mpint sshMpint
      rw [hbytes, hdrop]
    by_cases hhigh : 0x80 ≤ first
    · rw [if_pos hhigh] at hmpint
      refine ⟨_, hmpint, isMinimal_cons.mpr ⟨by decide, fun _ => ⟨List.cons_ne_nil _ _, hhigh⟩⟩,
        List.cons_ne_nil _ _, ?_⟩
      rw [← hvalue]
      simp [bigUnsigned]
    · rw [if_neg hhigh] at hmpint
      exact ⟨_, hmpint, isMinimal_cons.mpr ⟨UInt8.not_le.mp hhigh, fun hzero => absurd hzero hfirst⟩,
        List.cons_ne_nil _ _, hvalue⟩

theorem positiveMpint_mpint {n : Nat} (hn : 0 < n) (h : (mpint n).length < 4294967296) :
    positiveMpint (mpint n ++ rest) = some (Mpint.ofNat n, rest) := by
  obtain ⟨content, hcontent, hminimal, hne, rfl⟩ := mpint_content hn
  rw [hcontent, length_sshString] at h
  rw [hcontent, positiveMpint, string_sshString (by omega), Option.bind_some, mpintOf_minimal hminimal hne]
  rfl

theorem positiveMpint_some {m : Mpint} (h : positiveMpint buf = some (m, rest)) :
    ∃ n, 0 < n ∧ buf = mpint n ++ rest ∧ m = Mpint.ofNat n := by
  obtain ⟨⟨content, tail⟩, hstring, h⟩ := Option.bind_eq_some_iff.mp h
  obtain ⟨m', hm, h⟩ := Option.map_eq_some_iff.mp h
  obtain ⟨rfl, rfl⟩ := Prod.mk.inj h
  obtain ⟨hminimal, hne⟩ := mpintOf_some hm
  obtain ⟨hbuf, -⟩ := string_some hstring
  refine ⟨bigUnsigned content, ?_, ?_, ?_⟩
  · obtain ⟨head, tail', rfl⟩ := List.exists_cons_of_ne_nil hne
    obtain ⟨lead, bytes, hdrop, hlead⟩ := dropWhile_zero hminimal
    rw [bigUnsigned_drop hdrop]
    refine Nat.size_pos.mp ?_
    rw [size_lead hlead]
    exact Nat.add_pos_right _ (Nat.size_pos.mpr (Nat.pos_of_ne_zero fun h => hlead (UInt8.toNat_inj.mp h)))
  · rw [hbuf, mpint, SshKeys.sshMpint_natBytes, SshKeys.sshMpint_of_isMinimal hminimal]
  · exact Option.some.inj (hm.symm.trans (mpintOf_minimal hminimal hne))

end

/-! ### Keys -/

section

variable {keyType : GatewayHostKeyType} {blob rest bytes : Bytes} {text : Text}

theorem fromCharCodes_eq (h : fromCharCodes bytes = text) : bytes = text.map UInt16.toUInt8 := by
  rw [← h, fromCharCodes, List.map_map]
  refine ((List.map_congr_left fun b _ => ?_).trans (List.map_id _)).symm
  exact UInt8.toUInt8_toUInt16 b

theorem fromCharCodes_text (keyType : GatewayHostKeyType) :
    fromCharCodes (keyType.text.map UInt16.toUInt8) = keyType.text := by
  cases keyType <;> rfl

theorem fromCharCodes_curve (keyType : GatewayHostKeyType) :
    fromCharCodes (keyType.curve.map UInt16.toUInt8) = keyType.curve := by
  cases keyType <;> rfl

theorem ofNat_bits {n k : Nat} : (Mpint.ofNat n).bits < k + 1 ↔ n < 2 ^ k :=
  Nat.lt_succ_iff.trans Nat.size_le

theorem pos_of_two_pow_le {n k : Nat} (h : 2 ^ k ≤ n) : 0 < n :=
  Nat.lt_of_lt_of_le (Nat.two_pow_pos k) h

/-- What an exponent and a modulus are to be. -/
theorem ofNat_ok (e n : Nat) : ¬((!(Mpint.ofNat e).odd) = true ∨ (Mpint.ofNat e).small < 3) ∧
    ¬(Mpint.ofNat n).bits < 2048 ↔ e % 2 = 1 ∧ 3 ≤ e ∧ 2 ^ 2047 ≤ n := by
  have hsmall : (Mpint.ofNat e).small < 3 ↔ e < 3 := by
    show (if Nat.size e ≤ 32 then e else MAX_SAFE_INTEGER) < 3 ↔ e < 3
    split
    · exact Iff.rfl
    · next hlong =>
      have hlarge : 2 ^ 32 ≤ e := Nat.lt_size.mp (Nat.not_le.mp hlong)
      refine iff_of_false (by decide) ?_
      omega
  have hodd : ((!(Mpint.ofNat e).odd) = true) ↔ ¬e % 2 = 1 := by
    show (!decide (e % 2 = 1)) = true ↔ _
    simp
  rw [hsmall, ofNat_bits, hodd, not_or, not_not, not_lt, not_lt, and_assoc]

theorem coordinateLength_point (h : coordinateLength keyType = some n) :
    keyType.pointLength = n + n + 1 ∧ keyType ≠ .ed25519 ∧ keyType ≠ .rsa := by
  cases keyType <;> cases h <;> exact ⟨rfl, by decide, by decide⟩

theorem exists_coordinates (hed : keyType ≠ .ed25519) (hrsa : keyType ≠ .rsa) {point : Bytes}
    (hlength : point.length = keyType.pointLength) (hhead : point.head? = some 0x04) :
    ∃ x y : Bytes, point = 0x04 :: (x ++ y) ∧ coordinateLength keyType = some x.length ∧
      coordinateLength keyType = some y.length := by
  obtain ⟨rest, rfl⟩ := List.head?_eq_some_iff.mp hhead
  obtain ⟨n, hn⟩ : ∃ n, coordinateLength keyType = some n := by
    cases keyType with
    | ed25519 => exact absurd rfl hed
    | rsa => exact absurd rfl hrsa
    | nistp256 => exact ⟨32, rfl⟩
    | nistp384 => exact ⟨48, rfl⟩
    | nistp521 => exact ⟨66, rfl⟩
  have hrest : rest.length = n + n := by
    have hpoint := (coordinateLength_point hn).1
    rw [← hlength, List.length_cons] at hpoint
    omega
  refine ⟨rest.take n, rest.drop n, by rw [List.take_append_drop], ?_, ?_⟩
  · rw [hn, List.length_take, hrest, Nat.min_eq_left (Nat.le_add_right n n)]
  · rw [hn, List.length_drop, hrest, Nat.add_sub_cancel]

theorem string_whole (h : bytes.length < 4294967296) : string (sshString bytes) = some (bytes, []) := by
  have hread : string (sshString bytes ++ []) = some (bytes, []) := string_sshString h
  rwa [List.append_nil] at hread

/-! The readers are applied to a variable: on a field that is written out the kernel would compute
its length. -/

theorem ed25519Fields_read {key : Bytes} (h : string blob = some (key, rest)) :
    ed25519Fields blob = true ↔ key.length = 32 ∧ rest = [] := by
  unfold ed25519Fields
  rw [h]
  by_cases hlength : key.length = 32 <;> simp [hlength]

theorem ecdsaFields_read {name point rest' : Bytes} (hname : string blob = some (name, rest))
    (hpoint : string rest = some (point, rest')) : ecdsaFields keyType blob = true ↔
      fromCharCodes name = keyType.curve ∧ point.length = keyType.pointLength ∧
        point.head? = some 0x04 ∧ rest' = [] := by
  unfold ecdsaFields
  rw [hname]
  dsimp only
  rw [hpoint]
  by_cases hcurve : fromCharCodes name = keyType.curve <;>
    by_cases hlength : point.length = keyType.pointLength <;>
      by_cases hhead : point.head? = some 0x04 <;> simp [hcurve, hlength, hhead]

theorem rsaFields_read {e n : Nat} {rest' : Bytes} (he : positiveMpint blob = some (Mpint.ofNat e, rest))
    (hn : positiveMpint rest = some (Mpint.ofNat n, rest')) :
    rsaFields blob = true ↔ (e % 2 = 1 ∧ 3 ≤ e ∧ 2 ^ 2047 ≤ n) ∧ rest' = [] := by
  rw [← ofNat_ok]
  unfold rsaFields
  rw [he]
  dsimp only
  rw [hn]
  dsimp only
  split
  · next hbad => exact iff_of_false Bool.false_ne_true fun h => h.1.1 hbad
  · next hexponent =>
    split
    · next hbad => exact iff_of_false Bool.false_ne_true fun h => h.1.2 hbad
    · next hmodulus => exact decide_eq_true_iff.trans ⟨fun h => ⟨⟨hexponent, hmodulus⟩, h⟩, And.right⟩

theorem ed25519Fields_iff : ed25519Fields blob = true ↔ ∃ key : Bytes, key.length = 32 ∧ blob = sshString key := by
  constructor
  · intro h
    cases hkey : string blob with
    | none =>
      unfold ed25519Fields at h
      rw [hkey] at h
      cases h
    | some field =>
      obtain ⟨key, rest⟩ := field
      obtain ⟨hlength, rfl⟩ := (ed25519Fields_read hkey).mp h
      obtain ⟨hblob, -⟩ := string_some hkey
      rw [List.append_nil] at hblob
      exact ⟨key, hlength, hblob⟩
  · rintro ⟨key, hlength, rfl⟩
    have hshort : key.length < 4294967296 := by omega
    exact (ed25519Fields_read (string_whole hshort)).mpr ⟨hlength, rfl⟩

theorem ecdsaFields_iff (hlong : blob.length < 4294967296) : ecdsaFields keyType blob = true ↔
    ∃ point : Bytes, point.length = keyType.pointLength ∧ point.head? = some 0x04 ∧
      blob = sshName keyType.curve ++ sshString point := by
  constructor
  · intro h
    cases hname : string blob with
    | none =>
      unfold ecdsaFields at h
      rw [hname] at h
      cases h
    | some field =>
      obtain ⟨name, rest⟩ := field
      obtain ⟨hblob, -⟩ := string_some hname
      cases hpoint : string rest with
      | none =>
        unfold ecdsaFields at h
        rw [hname] at h
        dsimp only at h
        rw [hpoint] at h
        simp at h
      | some field =>
        obtain ⟨point, rest'⟩ := field
        obtain ⟨hcurve, hlength, hhead, rfl⟩ := (ecdsaFields_read hname hpoint).mp h
        obtain ⟨hrest, -⟩ := string_some hpoint
        rw [List.append_nil] at hrest
        refine ⟨point, hlength, hhead, ?_⟩
        rw [hblob, hrest, fromCharCodes_eq hcurve]
        rfl
  · rintro ⟨point, hlength, hhead, rfl⟩
    rw [List.length_append, length_sshString point] at hlong
    have hcurve : (keyType.curve.map UInt16.toUInt8).length ≤ 8 := by
      cases keyType <;> decide
    have hname : (keyType.curve.map UInt16.toUInt8).length < 4294967296 := by omega
    have hpoint : point.length < 4294967296 := by omega
    exact (ecdsaFields_read (string_sshString hname) (string_whole hpoint)).mpr
      ⟨fromCharCodes_curve keyType, hlength, hhead, rfl⟩

theorem rsaFields_iff (hlong : blob.length < 4294967296) : rsaFields blob = true ↔
    ∃ e n : Nat, (e % 2 = 1 ∧ 3 ≤ e ∧ 2 ^ 2047 ≤ n) ∧ blob = mpint e ++ mpint n := by
  constructor
  · intro h
    cases he : positiveMpint blob with
    | none =>
      unfold rsaFields at h
      rw [he] at h
      cases h
    | some first =>
      obtain ⟨e', rest⟩ := first
      obtain ⟨e, -, hblob, rfl⟩ := positiveMpint_some he
      cases hn : positiveMpint rest with
      | none =>
        unfold rsaFields at h
        rw [he] at h
        dsimp only at h
        rw [hn] at h
        cases h
      | some second =>
        obtain ⟨n', rest'⟩ := second
        obtain ⟨n, -, hrest, rfl⟩ := positiveMpint_some hn
        obtain ⟨hok, rfl⟩ := (rsaFields_read he hn).mp h
        rw [List.append_nil] at hrest
        exact ⟨e, n, hok, by rw [hblob, hrest]⟩
  · rintro ⟨e, n, hok, rfl⟩
    have he : 0 < e := Nat.lt_of_lt_of_le (by decide) hok.2.1
    have hn : 0 < n := pos_of_two_pow_le hok.2.2
    rw [List.length_append] at hlong
    have hexponent : (mpint e).length < 4294967296 := by omega
    have hmodulus : (mpint n).length < 4294967296 := by omega
    have hread : positiveMpint (mpint n ++ []) = some (Mpint.ofNat n, []) := positiveMpint_mpint hn hmodulus
    rw [List.append_nil] at hread
    exact (rsaFields_read (positiveMpint_mpint he hexponent) hread).mpr ⟨hok, rfl⟩

/-- What follows the type in a key. -/
theorem isPublicKey_ed25519 : IsPublicKey .ed25519 blob ↔
    ∃ key : Bytes, key.length = 32 ∧ blob = sshName GatewayHostKeyType.ed25519.text ++ sshString key := by
  constructor
  · intro h
    cases h with
    | ed25519 hlength => exact ⟨_, hlength, rfl⟩
    | ecdsa hx hy => cases hx
  · rintro ⟨key, hlength, rfl⟩
    exact .ed25519 hlength

theorem isPublicKey_rsa : IsPublicKey .rsa blob ↔ ∃ e n : Nat, (e % 2 = 1 ∧ 3 ≤ e ∧ 2 ^ 2047 ≤ n) ∧
    blob = sshName GatewayHostKeyType.rsa.text ++ (mpint e ++ mpint n) := by
  constructor
  · intro h
    cases h with
    | ecdsa hx hy => cases hx
    | rsa hodd hleast hlarge => exact ⟨_, _, ⟨hodd, hleast, hlarge⟩, rfl⟩
  · rintro ⟨e, n, ⟨hodd, hleast, hlarge⟩, rfl⟩
    exact .rsa hodd hleast hlarge

theorem isPublicKey_ecdsa (hed : keyType ≠ .ed25519) (hrsa : keyType ≠ .rsa) : IsPublicKey keyType blob ↔
    ∃ point : Bytes, (point.length = keyType.pointLength ∧ point.head? = some 0x04) ∧
      blob = sshName keyType.text ++ (sshName keyType.curve ++ sshString point) := by
  constructor
  · intro h
    cases h with
    | ed25519 => exact absurd rfl hed
    | rsa => exact absurd rfl hrsa
    | @ecdsa _ x y hx hy =>
      refine ⟨0x04 :: (x ++ y), ⟨?_, rfl⟩, rfl⟩
      have hxy : y.length = x.length := Option.some.inj (hy.symm.trans hx)
      rw [(coordinateLength_point hx).1, List.length_cons, List.length_append, hxy]
  · rintro ⟨point, ⟨hlength, hhead⟩, rfl⟩
    obtain ⟨x, y, rfl, hx, hy⟩ := exists_coordinates hed hrsa hlength hhead
    exact .ecdsa hx hy

theorem wellFormedKeyBlob_read {name : Bytes} (h : string blob = some (name, rest)) :
    wellFormedKeyBlob keyType blob = true ↔ fromCharCodes name = keyType.text ∧
      (if keyType = .ed25519 then ed25519Fields rest else if keyType = .rsa then rsaFields rest
        else ecdsaFields keyType rest) = true := by
  unfold wellFormedKeyBlob
  rw [h]
  dsimp only
  by_cases hname : fromCharCodes name = keyType.text
  · rw [if_neg (not_not.mpr hname)]
    cases keyType <;> simp [hname]
  · simp [hname]

/-- The structure check takes the keys and nothing else. -/
theorem wellFormedKeyBlob_iff (hlong : blob.length < 4294967296) :
    wellFormedKeyBlob keyType blob = true ↔ IsPublicKey keyType blob := by
  have hfields : ∀ rest : Bytes, rest.length < 4294967296 →
      ((if keyType = .ed25519 then ed25519Fields rest else if keyType = .rsa then rsaFields rest
        else ecdsaFields keyType rest) = true ↔ IsPublicKey keyType (sshName keyType.text ++ rest)) := by
    intro rest hrest
    by_cases hed : keyType = .ed25519
    · subst hed
      rw [if_pos rfl, ed25519Fields_iff, isPublicKey_ed25519]
      simp only [List.append_cancel_left_eq]
    · by_cases hrsa : keyType = .rsa
      · subst hrsa
        rw [if_neg hed, if_pos rfl, rsaFields_iff hrest, isPublicKey_rsa]
        simp only [List.append_cancel_left_eq]
      · rw [if_neg hed, if_neg hrsa, ecdsaFields_iff hrest, isPublicKey_ecdsa hed hrsa]
        simp only [List.append_cancel_left_eq, and_assoc]
  constructor
  · intro h
    cases hname : string blob with
    | none =>
      unfold wellFormedKeyBlob at h
      rw [hname] at h
      cases h
    | some field =>
      obtain ⟨name, rest⟩ := field
      obtain ⟨htype, hrest⟩ := (wellFormedKeyBlob_read hname).mp h
      have hblob : blob = sshName keyType.text ++ rest := by
        rw [(string_some hname).1, fromCharCodes_eq htype]
        rfl
      rw [hblob, List.length_append] at hlong
      rw [hblob]
      exact (hfields rest (by omega)).mp hrest
  · intro h
    obtain ⟨rest, rfl⟩ : ∃ rest, blob = sshName keyType.text ++ rest := by
      cases h with
      | ed25519 | ecdsa | rsa => exact ⟨_, rfl⟩
    rw [List.length_append] at hlong
    have hname : (keyType.text.map UInt16.toUInt8).length ≤ 19 := by
      cases keyType <;> decide
    have hshort : (keyType.text.map UInt16.toUInt8).length < 4294967296 := by omega
    exact (wellFormedKeyBlob_read (string_sshString hshort)).mpr
      ⟨fromCharCodes_text keyType, (hfields rest (by omega)).mpr h⟩

end

/-! ## 4. Key lines -/

section

variable {keyType : GatewayHostKeyType} {blob : Bytes} {line text : Text} {pin : GatewayHostPin}

theorem length_btoa (bytes : Bytes) : (btoa bytes).length % 4 = 0 ∧ 3 * (btoa bytes).length ≤ 4 * bytes.length + 8 := by
  have hsextets : ∀ bytes : Bytes, 3 * (Js.sextets bytes).length ≤ 4 * bytes.length + 2 := by
    intro bytes
    induction bytes using Js.sextets.induct with
    | case1 | case2 | case3 => simp [Js.sextets]
    | case4 a b c rest ih =>
      simp only [Js.sextets, List.length_cons]
      omega
  have hmod := Js.sextets_length bytes
  have hle := hsextets bytes
  rw [btoa, List.length_append, List.length_map, List.length_replicate]
  omega

theorem isBase64Unit_digit : ∀ n < 64, isBase64Unit (Js.base64Unit n) = true := by decide

variable {bytes : Bytes}

theorem mem_btoa : ∀ u ∈ btoa bytes, isBase64Unit u = true ∨ u = Js.padUnit := by
  intro u hu
  rcases List.mem_append.mp hu with hu | hu
  · obtain ⟨n, hn, rfl⟩ := List.mem_map.mp hu
    exact .inl (isBase64Unit_digit n (Js.sextets_lt bytes n hn))
  · exact .inr (List.eq_of_mem_replicate hu)

theorem isBase64Text_btoa (hne : bytes ≠ []) : isBase64Text (btoa bytes) = true := by
  have hdigits : ∀ u ∈ (Js.sextets bytes).map Js.base64Unit, isBase64Unit u = true := by
    intro u hu
    obtain ⟨n, hn, rfl⟩ := List.mem_map.mp hu
    exact isBase64Unit_digit n (Js.sextets_lt bytes n hn)
  have hpad : isBase64Unit Js.padUnit = false := by decide
  have hsome : (Js.sextets bytes).map Js.base64Unit ≠ [] := by
    rw [ne_eq, List.map_eq_nil_iff]
    intro hnil
    have hback := Js.octets_sextets bytes
    rw [hnil] at hback
    exact hne hback.symm
  have hpadding : ∀ n : Nat, (List.replicate n Js.padUnit).takeWhile isBase64Unit = [] ∧
      (List.replicate n Js.padUnit).dropWhile isBase64Unit = List.replicate n Js.padUnit := by
    intro n
    cases n with
    | zero => exact ⟨rfl, rfl⟩
    | succ n => simp [List.replicate_succ, hpad]
  have htake : (btoa bytes).takeWhile isBase64Unit = (Js.sextets bytes).map Js.base64Unit := by
    rw [btoa, List.takeWhile_append_of_pos hdigits, (hpadding _).1, List.append_nil]
  have hdrop : (btoa bytes).dropWhile isBase64Unit =
      List.replicate ((3 - bytes.length % 3) % 3) Js.padUnit := by
    rw [btoa, List.dropWhile_append_of_pos hdigits, (hpadding _).2]
  unfold isBase64Text
  simp only [htake, hdrop, hsome, List.length_replicate, List.all_replicate, ne_eq, not_false_eq_true,
    decide_true, Bool.true_and, ite_self, Bool.and_true, decide_eq_true_eq]
  omega

theorem mem_type : ∀ u ∈ keyType.text, u = 0x2d ∨ isBase64Unit u = true := by
  have hall : keyType.text.all (fun u => u = 0x2d || isBase64Unit u) = true := by
    cases keyType <;> rfl
  intro u hu
  simpa using List.all_eq_true.mp hall u hu

/-- What a key line is made of. -/
theorem mem_keyLine : ∀ u ∈ keyLine keyType blob, u = 0x20 ∨ u = 0x2d ∨ isBase64Unit u = true ∨ u = Js.padUnit := by
  intro u hu
  rcases List.mem_append.mp hu with hu | hu
  · rcases List.mem_append.mp hu with hu | hu
    · exact (mem_type u hu).elim (.inr ∘ .inl) (.inr ∘ .inr ∘ .inl)
    · exact .inl (List.mem_singleton.mp hu)
  · exact .inr (.inr (mem_btoa u hu))

theorem space_not_mem_btoa : (0x20 : UInt16) ∉ btoa bytes := by
  intro hu
  rcases mem_btoa _ hu with h | h
  · exact absurd h (by decide)
  · exact absurd h (by decide)

theorem space_not_mem_type : (0x20 : UInt16) ∉ keyType.text := by
  intro hu
  rcases mem_type _ hu with h | h
  · exact absurd h (by decide)
  · exact absurd h (by decide)

theorem splitOn_keyLine : (keyLine keyType blob).splitOn 0x20 = [keyType.text, btoa blob] := by
  have hline : keyLine keyType blob = [0x20].intercalate [keyType.text, btoa blob] := by
    simp [keyLine, List.intercalate, ascii]
  rw [hline]
  refine List.splitOn_intercalate 0x20 ?_ (List.cons_ne_nil _ _)
  intro piece hpiece
  rcases List.mem_cons.mp hpiece with rfl | hpiece
  · exact space_not_mem_type
  · rw [List.mem_singleton.mp hpiece]
    exact space_not_mem_btoa

theorem IsPublicKey.ne_nil (h : IsPublicKey keyType blob) : blob ≠ [] := by
  cases h <;> exact List.cons_ne_nil _ _

theorem isPrintable_base64 {u : UInt16} (h : isBase64Unit u = true) : isPrintable u = true := by
  simp only [isBase64Unit, isPrintable, Bool.or_eq_true, Bool.and_eq_true, decide_eq_true_eq,
    UInt16.le_iff_toNat_le, ← UInt16.toNat_inj, UInt16.reduceToNat] at h ⊢
  omega

/-- A line is taken when it is the line of a key that is not too long, and as that key. -/
theorem parseKeyLine_iff : parseKeyLine line = some pin ↔ ∃ keyType blob, IsPublicKey keyType blob ∧
    blob.length ≤ MAX_HOST_KEY_BLOB_BYTES ∧ line = keyLine keyType blob ∧
      pin = .hostKey keyType (btoa blob) (keyLine keyType blob) := by
  constructor
  · intro h
    unfold parseKeyLine at h
    obtain ⟨-, h⟩ := Option.ite_none_left_eq_some.mp h
    split at h
    · next name keyB64 hfields =>
      obtain ⟨-, h⟩ := Option.ite_none_left_eq_some.mp h
      split at h
      · cases h
      · next keyType htype =>
        obtain ⟨-, h⟩ := Option.ite_none_left_eq_some.mp h
        split at h
        · cases h
        · next blob hblob =>
          obtain ⟨hsame, h⟩ := Option.ite_none_left_eq_some.mp h
          obtain ⟨hok, h⟩ := Option.ite_none_left_eq_some.mp h
          obtain ⟨hshort, hkey⟩ := not_or.mp hok
          have hlong : blob.length < 4294967296 := by
            unfold MAX_HOST_KEY_BLOB_BYTES at hshort
            omega
          have hname : keyType.text = name := by simpa using List.find?_some htype
          have hb64 : btoa blob = keyB64 := not_not.mp hsame
          have hline : line = keyLine keyType blob := by
            have hback : [0x20].intercalate (line.splitOn 0x20) = line := List.intercalate_splitOn 0x20
            rw [← hback, hfields, keyLine, hname, hb64]
            simp [List.intercalate, ascii]
          refine ⟨keyType, blob, (wellFormedKeyBlob_iff hlong).mp (by simpa using hkey), Nat.not_lt.mp hshort,
            hline, ?_⟩
          rw [← Option.some.inj h, ← hb64]
          rfl
    · cases h
  · rintro ⟨keyType, blob, hkey, hshort, rfl, rfl⟩
    have hlong : blob.length < 4294967296 := by
      unfold MAX_HOST_KEY_BLOB_BYTES at hshort
      omega
    have hprintable : (keyLine keyType blob).all isPrintable = true := by
      refine List.all_eq_true.mpr fun u hu => ?_
      rcases mem_keyLine u hu with rfl | rfl | h | rfl
      · decide
      · decide
      · exact isPrintable_base64 h
      · decide
    have hblob : btoa blob ≠ [] := by
      intro hnil
      have hback := Js.atob_btoa blob
      rw [hnil] at hback
      exact hkey.ne_nil (Option.some.inj hback).symm
    have hfind : GATEWAY_HOST_KEY_TYPES.find? (·.text = keyType.text) = some keyType := by
      cases keyType <;> rfl
    unfold parseKeyLine
    rw [if_neg (by rw [hprintable]; simp [keyLine, ascii]), splitOn_keyLine]
    dsimp only
    rw [if_neg (not_or.mpr ⟨by cases keyType <;> exact List.cons_ne_nil _ _, hblob⟩), hfind]
    dsimp only
    rw [if_neg (by rw [isBase64Text_btoa hkey.ne_nil, (length_btoa blob).1]; decide), Js.atob_btoa]
    dsimp only
    rw [if_neg (not_not.mpr rfl), if_neg]
    · rfl
    · rw [(wellFormedKeyBlob_iff hlong).mpr hkey]
      exact not_or.mpr ⟨Nat.not_lt.mpr hshort, by decide⟩

end

/-! ## 5. What stands around a line -/

section

variable {a b body text line before after : Text} {u : UInt16}

theorem trim_around (ha : ∀ u ∈ a, isSpace u = true) (hb : ∀ u ∈ b, isSpace u = true)
    (hhead : ∀ u ∈ body.head?, isSpace u = false) (hlast : ∀ u ∈ body.getLast?, isSpace u = false) :
    Js.trim (a ++ body ++ b) = body := by
  have hstart : Js.trimStart (a ++ body ++ b) = Js.trimStart (body ++ b) := by
    unfold Js.trimStart
    rw [List.append_assoc, List.dropWhile_append_of_pos ha]
  unfold Js.trim
  rw [hstart]
  cases body with
  | nil =>
    have hnil : Js.trimStart ([] ++ b) = [] := List.dropWhile_eq_nil_iff.mpr hb
    rw [hnil]
    rfl
  | cons first body =>
    rw [Js.trimStart_of_head (by simpa using hhead)]
    have hrev : ∀ u ∈ b.reverse, isSpace u = true := fun u hu => hb u (List.mem_reverse.mp hu)
    have hend : Js.trimEnd (first :: body ++ b) = Js.trimEnd (first :: body) := by
      unfold Js.trimEnd
      rw [List.reverse_append, List.dropWhile_append_of_pos hrev]
    rw [hend, Js.trimEnd_of_last hlast]

theorem getLast_suffix (h : b <:+ a) (hu : u ∈ b.getLast?) : u ∈ a.getLast? := by
  obtain ⟨front, rfl⟩ := h
  rw [List.getLast?_append, Option.mem_def.mp hu]
  rfl

/-- Where the last unit is no white space, it is taken away before the text alone. -/
theorem trim_suffix (hlast : ∀ u ∈ text.getLast?, isSpace u = false) :
    ∃ gap, (∀ u ∈ gap, isSpace u = true) ∧ text = gap ++ Js.trim text := by
  refine ⟨text.takeWhile isSpace, fun u hu => List.mem_takeWhile_imp hu, ?_⟩
  have hend : Js.trim text = Js.trimStart text := by
    exact Js.trimEnd_of_last fun u hu => hlast u (getLast_suffix (List.dropWhile_suffix isSpace) hu)
  rw [hend]
  exact List.takeWhile_append_dropWhile.symm

variable {lower : LowerCase}

theorem label_ascii : ∀ u ∈ PINNED_HOST_KEY_LABEL, u < 0x80 := by
  have hall : PINNED_HOST_KEY_LABEL.all (· < 0x80) = true := rfl
  intro u hu
  simpa using List.all_eq_true.mp hall u hu

/-- What is before the line is the label and white space. -/
theorem unlabelled_split (lower : LowerCase) (hlast : ∀ u ∈ text.getLast?, isSpace u = false) :
    ∃ lead, text = lead ++ unlabelled lower text ∧
      ∀ u ∈ lead, u < 0x80 → isSpace u = true ∨ asciiLower u ∈ PINNED_HOST_KEY_LABEL := by
  unfold unlabelled
  split
  · next hlabel =>
    have hrest : ∀ u ∈ (text.drop PINNED_HOST_KEY_LABEL.length).getLast?, isSpace u = false := fun u hu =>
      hlast u (getLast_suffix (List.drop_suffix _ _) hu)
    obtain ⟨gap, hgap, hsplit⟩ := trim_suffix hrest
    refine ⟨text.take PINNED_HOST_KEY_LABEL.length ++ gap, ?_, ?_⟩
    · rw [List.append_assoc, ← hsplit, List.take_append_drop]
    · intro u hu hlow
      rcases List.mem_append.mp hu with hu | hu
      · exact .inr (LowerCase.toLowerCase_startsWith label_ascii (List.isPrefixOf_iff_prefix.mp hlabel) u hu hlow)
      · exact .inl (hgap u hu)
  · exact ⟨[], rfl, by simp⟩

/-- A unit that the label does not have is in the line, with all that follows it. -/
theorem unlabelled_from (lower : LowerCase) (hlast : ∀ u ∈ text.getLast?, isSpace u = false)
    (htext : text = before ++ u :: after)
    (hlow : u < 0x80) (hspace : isSpace u = false) (hlabel : asciiLower u ∉ PINNED_HOST_KEY_LABEL) :
    ∃ front, unlabelled lower text = front ++ u :: after := by
  obtain ⟨lead, hlead, hmem⟩ := unlabelled_split lower hlast
  have hnot : u ∉ lead := by
    intro hu
    rcases hmem u hu hlow with h | h
    · rw [hspace] at h
      cases h
    · exact hlabel h
  generalize unlabelled lower text = line at hlead ⊢
  rw [htext] at hlead
  rcases List.append_eq_append_iff.mp hlead with ⟨part, hpart, hline⟩ | ⟨part, hpart, hline⟩
  · cases part with
    | nil => exact ⟨[], hline.symm⟩
    | cons v part =>
      have hv : u = v := (List.cons.inj hline).1
      exact absurd (by simp [hpart, hv]) hnot
  · exact ⟨part, hline⟩

/-! ### What has no key line -/

variable {keyType : GatewayHostKeyType} {blob : Bytes} {pin : GatewayHostPin}

theorem isSpace_base64 (h : isBase64Unit u = true) : isSpace u = false := by
  simp only [isBase64Unit, Bool.or_eq_true, Bool.and_eq_true, decide_eq_true_eq,
    UInt16.le_iff_toNat_le, ← UInt16.toNat_inj, UInt16.reduceToNat] at h
  simp only [isSpace, Bool.or_eq_false_iff, Bool.and_eq_false_iff, decide_eq_false_iff_not,
    UInt16.le_iff_toNat_le, ← UInt16.toNat_inj, UInt16.reduceToNat]
  omega

theorem isSpace_type : ∀ u ∈ keyType.text, isSpace u = false := by
  intro u hu
  rcases mem_type u hu with rfl | h
  · rfl
  · exact isSpace_base64 h

theorem isSpace_btoa : ∀ u ∈ btoa blob, isSpace u = false := by
  intro u hu
  rcases mem_btoa u hu with h | rfl
  · exact isSpace_base64 h
  · rfl

/-- One unit of a key line is white space. -/
theorem countP_keyLine (keyType : GatewayHostKeyType) (blob : Bytes) :
    (keyLine keyType blob).countP isSpace = 1 := by
  have htype : keyType.text.countP isSpace = 0 :=
    List.countP_eq_zero.mpr fun u hu => by rw [isSpace_type u hu]; exact Bool.false_ne_true
  have hblob : (btoa blob).countP isSpace = 0 :=
    List.countP_eq_zero.mpr fun u hu => by rw [isSpace_btoa u hu]; exact Bool.false_ne_true
  rw [keyLine, List.countP_append, List.countP_append, htype, hblob]
  rfl

theorem noKeyLine_marker (hlast : ∀ u ∈ text.getLast?, isSpace u = false) (h : HasAuthorityMarker text) :
    parseKeyLine (unlabelled lower text) = none := by
  obtain ⟨lead, rest, -, -, htext⟩ := h
  have hat : text = lead ++ 0x40 :: (ascii "cert-authority" ++ rest) := by
    rw [htext, List.append_assoc]
    rfl
  obtain ⟨front, hline⟩ := unlabelled_from lower hlast hat (by decide) rfl (by decide)
  refine Option.eq_none_iff_forall_ne_some.mpr fun pin hpin => ?_
  obtain ⟨keyType, blob, -, -, hkey, -⟩ := parseKeyLine_iff.mp hpin
  have hmem : (0x40 : UInt16) ∈ keyLine keyType blob := by
    rw [← hkey, hline]
    simp
  rcases mem_keyLine _ hmem with h | h | h | h <;> exact absurd h (by decide)

theorem noKeyLine_comment (hlast : ∀ u ∈ text.getLast?, isSpace u = false) (h : HasComment text) :
    parseKeyLine (unlabelled lower text) = none := by
  obtain ⟨keyType, blob, -, before, gap, gap', comment, hgap, hspaces, hgap', hspaces', -, htext⟩ := h
  obtain ⟨start, rest, htype⟩ : ∃ start rest, keyType.text = start ++ 0x2d :: rest := by
    have hdash : (0x2d : UInt16) ∈ keyType.text := by
      cases keyType <;> decide
    exact List.append_of_mem hdash
  have hat : text = (before ++ start) ++ 0x2d :: (rest ++ gap ++ btoa blob ++ gap' ++ comment) := by
    rw [htext, htype]
    simp
  obtain ⟨front, hline⟩ := unlabelled_from lower hlast hat (by decide) rfl (by decide)
  refine Option.eq_none_iff_forall_ne_some.mpr fun pin hpin => ?_
  obtain ⟨keyType', blob', -, -, hkey, -⟩ := parseKeyLine_iff.mp hpin
  have hcount := countP_keyLine keyType' blob'
  have hfirst : 0 < gap.countP isSpace := by
    obtain ⟨u, gap, rfl⟩ := List.exists_cons_of_ne_nil hgap
    exact List.countP_pos_iff.mpr ⟨u, List.mem_cons_self, hspaces u List.mem_cons_self⟩
  have hsecond : 0 < gap'.countP isSpace := by
    obtain ⟨u, gap', rfl⟩ := List.exists_cons_of_ne_nil hgap'
    exact List.countP_pos_iff.mpr ⟨u, List.mem_cons_self, hspaces' u List.mem_cons_self⟩
  rw [← hkey, hline] at hcount
  simp only [List.countP_append, List.countP_cons] at hcount
  omega

theorem asciiLower_cases (u : UInt16) : asciiLower u = u ∨ asciiLower u = u + 0x20 ∧ 0x41 ≤ u ∧ u ≤ 0x5a := by
  unfold asciiLower
  split
  · next h => exact .inr ⟨rfl, by simpa using h⟩
  · exact .inl rfl

theorem asciiLower_space (h : asciiLower u = 0x20) : u = 0x20 := by
  rcases asciiLower_cases u with hsame | ⟨hlower, hleast, hmost⟩
  · exact hsame.symm.trans h
  · rw [hlower] at h
    have hzero : u = 0 := by simpa using h
    rw [hzero] at hleast
    exact absurd hleast (by decide)

/-- A letter has two cases. -/
theorem asciiLower_letter (upper : UInt16) (h : asciiLower u = upper + 0x20) : u = upper + 0x20 ∨ u = upper := by
  rcases asciiLower_cases u with hsame | ⟨hlower, -, -⟩
  · exact .inl (hsame.symm.trans h)
  · exact .inr ((UInt16.add_left_inj 0x20).mp (hlower.symm.trans h))

theorem asciiLower_low (h : asciiLower u < 0x80) : u < 0x80 := by
  rcases asciiLower_cases u with hsame | ⟨-, -, hmost⟩
  · rwa [hsame] at h
  · exact UInt16.lt_of_le_of_lt hmost (by decide)

/-- In a key line only the type is before a space. -/
theorem mem_type_of_space {front back : Text} (h : keyLine keyType blob = front ++ u :: back)
    (hspace : (0x20 : UInt16) ∈ back) : u ∈ keyType.text := by
  have hline : keyType.text ++ (0x20 :: btoa blob) = front ++ u :: back := by
    rw [← h, keyLine, List.append_assoc]
    rfl
  rcases List.append_eq_append_iff.mp hline with ⟨part, hfront, hpart⟩ | ⟨part, htype, hpart⟩
  · -- `u` is the space itself or after it
    cases part with
    | nil =>
      rw [← (List.cons.inj hpart).2] at hspace
      exact absurd hspace space_not_mem_btoa
    | cons v part =>
      have hmem : (0x20 : UInt16) ∈ btoa blob := by
        rw [(List.cons.inj hpart).2]
        exact List.mem_append_right _ (List.mem_cons_of_mem _ hspace)
      exact absurd hmem space_not_mem_btoa
  · cases part with
    | nil =>
      rw [(List.cons.inj hpart).2] at hspace
      exact absurd hspace space_not_mem_btoa
    | cons v part =>
      rw [htype, (List.cons.inj hpart).1]
      simp

theorem noKeyLine_private (hlast : ∀ u ∈ text.getLast?, isSpace u = false) (h : HasPrivateKey text) :
    parseKeyLine (unlabelled lower text) = none := by
  obtain ⟨before, mark, after, hmark, htext⟩ := h
  have hparts : mark.map asciiLower = ascii "pri" ++ 0x76 :: (ascii "ate" ++ 0x20 :: ascii "key") := hmark
  obtain ⟨first, second, rfl, -, hsecond⟩ := List.map_eq_append_iff.mp hparts
  obtain ⟨v, third, rfl, hv, hthird⟩ := List.map_eq_cons_iff.mp hsecond
  obtain ⟨fourth, fifth, rfl, -, hfifth⟩ := List.map_eq_append_iff.mp hthird
  obtain ⟨w, sixth, rfl, hw, -⟩ := List.map_eq_cons_iff.mp hfifth
  have hat : text = (before ++ first) ++ v :: (fourth ++ w :: sixth ++ after) := by
    rw [htext]
    simp
  have hletter : v = 0x56 + 0x20 ∨ v = 0x56 := asciiLower_letter 0x56 hv
  obtain ⟨front, hline⟩ := unlabelled_from lower hlast hat
    (by rcases hletter with rfl | rfl <;> decide) (by rcases hletter with rfl | rfl <;> rfl)
    (by rw [hv]; decide)
  refine Option.eq_none_iff_forall_ne_some.mpr fun pin hpin => ?_
  obtain ⟨keyType, blob, -, -, hkey, -⟩ := parseKeyLine_iff.mp hpin
  have hmem : v ∈ keyType.text :=
    mem_type_of_space (hkey.symm.trans hline) (by simp [asciiLower_space hw])
  rcases hletter with rfl | rfl <;> cases keyType <;> exact absurd hmem (by decide)

end

/-! ## 6. Fingerprints -/

section

variable {lower : LowerCase} {text fingerprint : Text} {u : UInt16}

theorem isBase64Unit_of_digit (h : (Js.base64Digit u).isSome = true) : isBase64Unit u = true := by
  unfold Js.base64Digit at h
  unfold isBase64Unit
  split at h
  · next hupper => rw [hupper, Bool.true_or, Bool.true_or, Bool.true_or, Bool.true_or]
  · split at h
    · next hlower => rw [hlower, Bool.or_true, Bool.true_or, Bool.true_or, Bool.true_or]
    · split at h
      · next hdigit => rw [hdigit, Bool.or_true, Bool.true_or, Bool.true_or]
      · split at h
        · next hplus => rw [decide_eq_true hplus, Bool.or_true, Bool.true_or]
        · split at h
          · next hslash => rw [decide_eq_true hslash, Bool.or_true]
          · cases h

theorem mapM_isSome {α β : Type} {f : α → Option β} {xs : List α} {ys : List β} (h : xs.mapM f = some ys) :
    ∀ x ∈ xs, (f x).isSome = true := by
  induction xs generalizing ys with
  | nil => simp
  | cons x xs ih =>
    rw [List.mapM_cons] at h
    obtain ⟨y, hy, h⟩ := Option.bind_eq_some_iff.mp h
    obtain ⟨ys', hys, -⟩ := Option.bind_eq_some_iff.mp h
    refine List.forall_mem_cons.mpr ⟨?_, ih hys⟩
    rw [hy]
    rfl

theorem isAsciiSpace_body (h : isBodyUnit u = true) : Js.isAsciiSpace u = false := by
  rw [Bool.eq_false_iff]
  intro hspace
  simp only [Js.isAsciiSpace, Bool.or_eq_true, decide_eq_true_eq] at hspace
  rcases hspace with (((rfl | rfl) | rfl) | rfl) | rfl <;> exact absurd h (by decide)

/-- What decodes has nothing but digits, but for the padding. -/
theorem isBase64Unit_of_decodes {b64 : Text} (hbody : ∀ u ∈ b64, isBodyUnit u = true) (hlength : b64.length = 43)
    (hlast : b64.getLast? ≠ some Js.padUnit) (h : sha256BodyDecodesTo32Bytes b64 = true) :
    ∀ u ∈ b64, isBase64Unit u = true := by
  have hdata : ((b64 ++ List.replicate 1 Js.padUnit).filter fun u => !Js.isAsciiSpace u) =
      b64 ++ List.replicate 1 Js.padUnit := by
    refine List.filter_eq_self.mpr fun u hu => ?_
    rcases List.mem_append.mp hu with hu | hu
    · rw [isAsciiSpace_body (hbody u hu)]
      rfl
    · rw [List.eq_of_mem_replicate hu]
      rfl
  have htext : atob (b64 ++ List.replicate 1 Js.padUnit) = (b64.mapM Js.base64Digit).map Js.octets := by
    have hdrop := Js.dropPadding_append hlast 1 (by decide)
    have hwhole : (b64 ++ List.replicate 1 Js.padUnit).length % 4 = 0 := by
      rw [List.length_append, hlength]
      rfl
    unfold atob
    simp only [hdata]
    rw [if_pos hwhole, hdrop, hlength]
    rfl
  unfold sha256BodyDecodesTo32Bytes at h
  rw [hlength] at h
  rw [show (4 - 43 % 4) % 4 = 1 by decide, htext] at h
  cases hdigits : b64.mapM Js.base64Digit with
  | none =>
    rw [hdigits] at h
    cases h
  | some digits => exact fun u hu => isBase64Unit_of_digit (mapM_isSome hdigits u hu)

theorem fingerprintAt_body {body : Text} (h : fingerprintAt text = some body) :
    ∀ u ∈ body, isBodyUnit u = true := by
  unfold fingerprintAt at h
  obtain ⟨-, h⟩ := Option.ite_none_right_eq_some.mp h
  obtain ⟨-, h⟩ := Option.ite_none_left_eq_some.mp h
  rw [← Option.some.inj h]
  exact fun u hu => List.mem_takeWhile_imp hu

/-- What a fingerprint is. -/
theorem fingerprint_shape (h : normalizeSha256Fingerprint text = some fingerprint) :
    ∃ b64 : Text, fingerprint = ascii "SHA256:" ++ b64 ∧ b64.length = 43 ∧
      (∀ u ∈ b64, isBase64Unit u = true) ∧ sha256BodyDecodesTo32Bytes b64 = true := by
  unfold normalizeSha256Fingerprint at h
  split at h
  · cases h
  · next body hbody =>
    dsimp only at h
    obtain ⟨hlength, h⟩ := Option.ite_none_left_eq_some.mp h
    obtain ⟨hdecodes, h⟩ := Option.ite_none_left_eq_some.mp h
    obtain ⟨tail, -, hat⟩ := List.exists_of_findSome?_eq_some hbody
    have hdecodes' : sha256BodyDecodesTo32Bytes (body.rdropWhile (· = Js.padUnit)) = true := by
      simpa using hdecodes
    have hunits : ∀ u ∈ body.rdropWhile (· = Js.padUnit), isBodyUnit u = true := fun u hu =>
      fingerprintAt_body hat u ((List.rdropWhile_prefix (· = Js.padUnit) body).subset hu)
    have hlast : (body.rdropWhile (· = Js.padUnit)).getLast? ≠ some Js.padUnit := by
      intro hpad
      have hsome := List.ne_nil_of_mem (List.mem_of_getLast? hpad)
      have hnot := List.rdropWhile_last_not (fun u : UInt16 => decide (u = Js.padUnit)) body hsome
      rw [List.getLast?_eq_some_getLast hsome] at hpad
      exact hnot (decide_eq_true (Option.some.inj hpad))
    exact ⟨_, (Option.some.inj h).symm, not_not.mp hlength,
      isBase64Unit_of_decodes hunits (not_not.mp hlength) hlast hdecodes', hdecodes'⟩

/-- A fingerprint is its own fingerprint. -/
theorem normalize_self {b64 : Text} (hlength : b64.length = 43) (hunits : ∀ u ∈ b64, isBase64Unit u = true)
    (hdecodes : sha256BodyDecodesTo32Bytes b64 = true) :
    normalizeSha256Fingerprint (ascii "SHA256:" ++ b64) = some (ascii "SHA256:" ++ b64) := by
  have hne : b64 ≠ [] := by
    rintro rfl
    cases hlength
  have hbody : (b64.dropWhile isSpace).takeWhile isBodyUnit = b64 := by
    have hstart : b64.dropWhile isSpace = b64 := Js.trimStart_of_head fun u hu =>
      isSpace_base64 (hunits u (List.mem_of_mem_head? hu))
    rw [hstart]
    refine List.takeWhile_eq_self_iff.mpr fun u hu => ?_
    rw [isBodyUnit, hunits u hu, Bool.true_or]
  have hat : fingerprintAt (ascii "SHA256:" ++ b64) = some b64 := by
    have htake : (ascii "SHA256:" ++ b64).take 7 = ascii "SHA256:" := List.take_left' rfl
    have hdrop : (ascii "SHA256:" ++ b64).drop 7 = b64 := List.drop_left' rfl
    unfold fingerprintAt
    rw [htake, hdrop, hbody, if_pos (by decide)]
    dsimp only
    rw [if_neg hne]
  have hpad : b64.rdropWhile (· = Js.padUnit) = b64 := by
    refine List.rdropWhile_eq_self_iff.mpr fun hsome => ?_
    have hdigit := hunits _ (List.getLast_mem hsome)
    intro hlast
    rw [of_decide_eq_true hlast] at hdigit
    cases hdigit
  have hfind : (ascii "SHA256:" ++ b64).tails.findSome? fingerprintAt = some b64 := by
    have htails : (ascii "SHA256:" ++ b64).tails =
        (ascii "SHA256:" ++ b64) :: (ascii "HA256:" ++ b64).tails := rfl
    rw [htails, List.findSome?_cons, hat]
  unfold normalizeSha256Fingerprint
  rw [hfind]
  dsimp only
  rw [hpad, if_neg (not_not.mpr hlength), hdecodes, if_neg (by decide)]

theorem hasPrivateKey_space (h : (0x20 : UInt16) ∉ text) : hasPrivateKey text = false := by
  refine List.any_eq_false.mpr fun t ht => ?_
  rw [decide_eq_true_eq]
  intro hmark
  have hspace : (0x20 : UInt16) ∈ (t.take 11).map asciiLower := by
    rw [hmark]
    decide
  obtain ⟨u, hu, hlower⟩ := List.mem_map.mp hspace
  have hmem : u ∈ text := ((List.mem_tails _ _).mp ht).subset (List.take_subset 11 t hu)
  rw [asciiLower_space hlower] at hmem
  exact h hmem

/-- A text that starts with another letter than the label is taken as it is. -/
theorem unlabelled_other {word rest : Text} (hword : ∀ u ∈ word, u < 0x80)
    (hhead : ∀ u ∈ (word.map asciiLower).head?, u ≠ 0x70) (hne : word ≠ []) :
    unlabelled lower (word ++ rest) = word ++ rest := by
  unfold unlabelled
  split
  · next hlabel =>
    obtain ⟨first, word, rfl⟩ := List.exists_cons_of_ne_nil hne
    obtain ⟨more, hmore⟩ := @LowerCase.toLowerCase_ascii lower _ rest hword
    obtain ⟨more', hmore'⟩ := List.isPrefixOf_iff_prefix.mp hlabel
    rw [← hmore] at hmore'
    have hfirst : (0x70 : UInt16) = asciiLower first := (List.cons.inj hmore').1
    exact absurd hfirst.symm (hhead _ rfl)
  · rfl

end

/-! ## 7. The grammar -/

section

variable {lower : LowerCase} {input text line : Text} {pin : GatewayHostPin} {keyType : GatewayHostKeyType}
  {blob : Bytes}

theorem hasSecondLine_iff : HasSecondLine text ↔ text.any (fun u => u = 0x0d || u = 0x0a) = true := by
  simp only [List.any_eq_true, Bool.or_eq_true, decide_eq_true_eq]
  constructor
  · rintro (h | h)
    · exact ⟨_, h, .inl rfl⟩
    · exact ⟨_, h, .inr rfl⟩
  · rintro ⟨u, hu, rfl | rfl⟩
    · exact .inl hu
    · exact .inr hu

/-- A text that is neither empty nor too long nor more than one line. -/
structure Usable (text : Text) : Prop where
  nonempty : text ≠ []
  short : text.length ≤ 16384
  oneLine : ¬HasSecondLine text

theorem parse_usable (h : Usable (Js.trim input)) : parseGatewayHostPin lower input =
    (parseKeyLine (unlabelled lower (Js.trim input))).or
      (if hasPrivateKey (Js.trim input) || looksLikeKey (unlabelled lower (Js.trim input)) then none
        else (normalizeSha256Fingerprint (Js.trim input)).map .fingerprint) := by
  unfold parseGatewayHostPin
  dsimp only
  rw [if_neg]
  · cases parseKeyLine (unlabelled lower (Js.trim input)) <;> rfl
  · rintro (hnil | hlong | hline)
    · exact h.nonempty hnil
    · exact Nat.not_lt.mpr h.short hlong
    · exact h.oneLine (hasSecondLine_iff.mpr hline)

theorem usable_of_parse (h : parseGatewayHostPin lower input = some pin) : Usable (Js.trim input) := by
  unfold parseGatewayHostPin at h
  dsimp only at h
  obtain ⟨hok, -⟩ := Option.ite_none_left_eq_some.mp h
  obtain ⟨hnil, hok⟩ := not_or.mp hok
  obtain ⟨hlong, hline⟩ := not_or.mp hok
  exact ⟨hnil, Nat.not_lt.mp hlong, fun h => hline (hasSecondLine_iff.mp h)⟩

/-- What is answered comes from a key line or from a fingerprint. -/
theorem parse_cases (h : parseGatewayHostPin lower input = some pin) :
    parseKeyLine (unlabelled lower (Js.trim input)) = some pin ∨
      parseKeyLine (unlabelled lower (Js.trim input)) = none ∧ FallsThrough lower (Js.trim input) ∧
        (normalizeSha256Fingerprint (Js.trim input)).map .fingerprint = some pin := by
  have husable := usable_of_parse h
  rw [parse_usable husable] at h
  cases hline : parseKeyLine (unlabelled lower (Js.trim input)) with
  | some pin' =>
    rw [hline] at h
    exact .inl h
  | none =>
    rw [hline, Option.none_or] at h
    obtain ⟨hplain, h⟩ := Option.ite_none_left_eq_some.mp h
    obtain ⟨hprivate, hkey⟩ := Bool.or_eq_false_iff.mp (Bool.eq_false_iff.mpr hplain)
    refine .inr ⟨rfl, ⟨husable.short, husable.oneLine, hprivate, hkey, ?_⟩, h⟩
    intro hnone
    rw [hnone] at h
    cases h

theorem parse_falls (hline : parseKeyLine (unlabelled lower (Js.trim input)) = none)
    (h : FallsThrough lower (Js.trim input)) : parseGatewayHostPin lower input ≠ none := by
  have hne : Js.trim input ≠ [] := by
    intro hnil
    have hfound := h.found
    rw [hnil] at hfound
    exact hfound rfl
  rw [parse_usable ⟨hne, h.short, h.oneLine⟩, hline, Option.none_or]
  rw [h.noPrivateKey, h.noKey, Bool.false_or, if_neg Bool.false_ne_true, ne_eq, Option.map_eq_none_iff]
  exact h.found

theorem label_of_cased {label : Text} (h : Cased PINNED_HOST_KEY_LABEL label) :
    label.map asciiLower = PINNED_HOST_KEY_LABEL ∧ label.length = PINNED_HOST_KEY_LABEL.length ∧
      ∀ u ∈ label, asciiLower u ∈ PINNED_HOST_KEY_LABEL ∧ u < 0x80 := by
  have hmap : label.map asciiLower = PINNED_HOST_KEY_LABEL := h
  refine ⟨hmap, ?_, fun u hu => ?_⟩
  · rw [← hmap, List.length_map]
  · have hmem : asciiLower u ∈ PINNED_HOST_KEY_LABEL := by
      rw [← hmap]
      exact List.mem_map_of_mem hu
    exact ⟨hmem, asciiLower_low (label_ascii _ hmem)⟩

theorem keyLine_head (keyType : GatewayHostKeyType) :
    ∃ first rest, keyType.text = first :: rest ∧ isSpace first = false ∧
    asciiLower first ≠ 0x70 := by
  cases keyType <;> exact ⟨_, _, rfl, rfl, by decide⟩

theorem keyLine_last (lead : Text) (hne : blob ≠ []) :
    ∀ u ∈ (lead ++ keyLine keyType blob).getLast?, isSpace u = false := by
  intro u hu
  have hsome : btoa blob ≠ [] := by
    intro hnil
    have hback := Js.atob_btoa blob
    rw [hnil] at hback
    exact hne (Option.some.inj hback).symm
  rw [keyLine, ← List.append_assoc, List.getLast?_append, List.getLast?_eq_some_getLast hsome,
    Option.some_or, Option.mem_some_iff] at hu
  rw [← hu]
  exact isSpace_btoa _ (List.getLast_mem hsome)

/-- The line alone or behind the label. -/
theorem unlabelled_pasted {lead : Text} (hne : blob ≠ [])
    (h : lead = [] ∨ ∃ label, Cased PINNED_HOST_KEY_LABEL label ∧ lead = label ++ ascii " ") :
    unlabelled lower (lead ++ keyLine keyType blob) = keyLine keyType blob := by
  obtain ⟨first, rest, htype, hspace, hother⟩ := keyLine_head keyType
  rcases h with rfl | ⟨label, hcased, rfl⟩
  · have hword : ∀ u ∈ keyType.text, u < 0x80 := by
      have hall : keyType.text.all (· < 0x80) = true := by cases keyType <;> rfl
      intro u hu
      simpa using List.all_eq_true.mp hall u hu
    rw [List.nil_append, keyLine, List.append_assoc]
    refine unlabelled_other hword ?_ (by rw [htype]; exact List.cons_ne_nil _ _)
    intro u hu
    rw [htype, List.map_cons, List.head?_cons, Option.mem_some_iff] at hu
    rwa [← hu]
  · obtain ⟨hmap, hlength, hunits⟩ := label_of_cased hcased
    have hprefix := @LowerCase.toLowerCase_ascii lower label (ascii " " ++ keyLine keyType blob)
      fun u hu => (hunits u hu).2
    rw [hmap] at hprefix
    unfold unlabelled
    rw [List.append_assoc, if_pos (List.isPrefixOf_iff_prefix.mpr hprefix), List.drop_left' hlength]
    have hhead : ∀ u ∈ (keyLine keyType blob).head?, isSpace u = false := by
      intro u hu
      rw [keyLine, htype, List.cons_append, List.cons_append, List.head?_cons, Option.mem_some_iff] at hu
      rwa [← hu]
    have hgap : ∀ u ∈ ascii " ", isSpace u = true := by simp [ascii, isSpace]
    have htrim := trim_around (b := []) hgap (by simp) hhead
      (fun u hu => keyLine_last [] hne u hu)
    rwa [List.append_nil] at htrim

/-- A key in a documented form is taken as that key. -/
theorem parse_pasted (hkey : IsPublicKey keyType blob) (hshort : blob.length ≤ MAX_HOST_KEY_BLOB_BYTES)
    (h : Pasted (keyLine keyType blob) input) : parseGatewayHostPin lower input =
      some (.hostKey keyType (btoa blob) (keyLine keyType blob)) := by
  obtain ⟨before, lead, after, hbefore, hafter, hlead, rfl⟩ := h
  have hne := hkey.ne_nil
  have htrim : Js.trim (before ++ lead ++ keyLine keyType blob ++ after) = lead ++ keyLine keyType blob := by
    rw [List.append_assoc before]
    refine trim_around hbefore hafter ?_ (keyLine_last lead hne)
    obtain ⟨first, rest, htype, hspace, -⟩ := keyLine_head keyType
    intro u hu
    rcases hlead with rfl | ⟨label, hcased, rfl⟩
    · rw [List.nil_append, keyLine, htype, List.cons_append, List.cons_append, List.head?_cons,
        Option.mem_some_iff] at hu
      rwa [← hu]
    · obtain ⟨hmap, -, -⟩ := label_of_cased hcased
      cases label with
      | nil => cases hmap
      | cons v label =>
        have hv : v = 0x50 + 0x20 ∨ v = 0x50 := asciiLower_letter 0x50 (List.cons.inj hmap).1
        rw [List.cons_append, List.cons_append, List.head?_cons, Option.mem_some_iff] at hu
        rw [← hu]
        rcases hv with rfl | rfl <;> rfl
  have husable : Usable (lead ++ keyLine keyType blob) := by
    refine ⟨?nonempty, ?short, ?oneLine⟩
    case nonempty =>
      obtain ⟨first, rest, htype, -, -⟩ := keyLine_head keyType
      rw [keyLine, htype]
      simp
    case short =>
      have hleadLength : lead.length ≤ 21 := by
        rcases hlead with rfl | ⟨label, hcased, rfl⟩
        · exact Nat.zero_le _
        · rw [List.length_append, (label_of_cased hcased).2.1]
          decide
      have htype : keyType.text.length ≤ 19 := by cases keyType <;> decide
      have hb64 := (length_btoa blob).2
      unfold MAX_HOST_KEY_BLOB_BYTES at hshort
      rw [keyLine, List.length_append, List.length_append, List.length_append]
      have hspace : (ascii " ").length = 1 := rfl
      omega
    case oneLine =>
      rintro (hmem | hmem)
      all_goals
        rcases List.mem_append.mp hmem with hmem | hmem
        · rcases hlead with rfl | ⟨label, hcased, rfl⟩
          · cases hmem
          · rcases List.mem_append.mp hmem with hmem | hmem
            · exact absurd ((label_of_cased hcased).2.2 _ hmem).1 (by decide)
            · exact absurd hmem (by decide)
        · rcases mem_keyLine _ hmem with h | h | h | h <;> exact absurd h (by decide)
  rw [← htrim] at husable
  rw [parse_usable husable, htrim, unlabelled_pasted hne hlead,
    parseKeyLine_iff.mpr ⟨keyType, blob, hkey, hshort, rfl, rfl⟩, Option.some_or]

theorem parse_fingerprint {fingerprint : Text} (h : normalizeSha256Fingerprint text = some fingerprint) :
    parseGatewayHostPin lower fingerprint = some (.fingerprint fingerprint) := by
  obtain ⟨b64, rfl, hlength, hunits, hdecodes⟩ := fingerprint_shape h
  have hword : ∀ u ∈ ascii "SHA256:", u < 0x80 := by
    have hall : (ascii "SHA256:").all (· < 0x80) = true := rfl
    intro u hu
    simpa using List.all_eq_true.mp hall u hu
  have hhead : ∀ u ∈ ((ascii "SHA256:").map asciiLower).head?, u ≠ 0x70 := by
    intro u hu
    have hu : asciiLower 0x53 = u := Option.some.inj hu
    rw [← hu]
    decide
  have hother : unlabelled lower (ascii "SHA256:" ++ b64) = ascii "SHA256:" ++ b64 :=
    unlabelled_other hword hhead (List.cons_ne_nil _ _)
  have hplain : ∀ u ∈ ascii "SHA256:" ++ b64, isSpace u = false := by
    intro u hu
    rcases List.mem_append.mp hu with hu | hu
    · have hall : (ascii "SHA256:").all (fun u => !isSpace u) = true := rfl
      simpa using List.all_eq_true.mp hall u hu
    · exact isSpace_base64 (hunits u hu)
  have hnospace : (0x20 : UInt16) ∉ ascii "SHA256:" ++ b64 := by
    intro hmem
    have hspace := hplain _ hmem
    cases hspace
  have htrim : Js.trim (ascii "SHA256:" ++ b64) = ascii "SHA256:" ++ b64 := Js.trim_plain hplain
  have husable : Usable (ascii "SHA256:" ++ b64) := by
    refine ⟨by simp [ascii], ?_, ?_⟩
    · rw [List.length_append, hlength]
      decide
    · rintro (hmem | hmem)
      all_goals
        have hspace := hplain _ hmem
        cases hspace
  have hline : parseKeyLine (ascii "SHA256:" ++ b64) = none := by
    refine Option.eq_none_iff_forall_ne_some.mpr fun pin hpin => ?_
    obtain ⟨keyType, blob, -, -, hkey, -⟩ := parseKeyLine_iff.mp hpin
    refine hnospace ?_
    rw [hkey, keyLine]
    simp [ascii]
  rw [← htrim] at husable
  rw [parse_usable husable, htrim, hother, hline, Option.none_or, hasPrivateKey_space hnospace,
    normalize_self hlength hunits hdecodes]
  rfl

theorem noKeyLine
    (h : HasComment (Js.trim input) ∨ HasAuthorityMarker (Js.trim input) ∨ HasPrivateKey (Js.trim input)) :
    parseKeyLine (unlabelled lower (Js.trim input)) = none := by
  have hlast := Js.trim_last input
  rcases h with h | h | h
  · exact noKeyLine_comment hlast h
  · exact noKeyLine_marker hlast h
  · exact noKeyLine_private hlast h

theorem hasPrivateKey_of (h : HasPrivateKey text) : hasPrivateKey text = true := by
  obtain ⟨before, mark, after, hmark, rfl⟩ := h
  have hlength : mark.length = 11 := by
    have hmap := congrArg List.length hmark
    rw [List.length_map] at hmap
    exact hmap
  refine List.any_eq_true.mpr ⟨mark ++ after, (List.mem_tails _ _).mpr ⟨before, by simp⟩, ?_⟩
  rw [List.take_left' hlength, decide_eq_true_eq]
  exact hmark

/-- The grammar is kept for every input but those with a marker, or a key and a comment, in which a
fingerprint is looked for and found. -/
theorem pin_grammar (lower : LowerCase) (input : Text) : PinGrammar lower input ↔
    (HasAuthorityMarker (Js.trim input) ∨ HasComment (Js.trim input) → ¬FallsThrough lower (Js.trim input)) := by
  constructor
  · intro h hbarred hfalls
    have hline : parseKeyLine (unlabelled lower (Js.trim input)) = none :=
      noKeyLine (hbarred.elim (.inr ∘ .inl) .inl)
    exact parse_falls hline hfalls (h.refuses (hbarred.elim (.inr ∘ .inr ∘ .inl) .inl))
  · intro h
    refine ⟨?exact, fun keyType blob hkey hshort hpasted => parse_pasted hkey hshort hpasted, ?refuses, ?same⟩
    case exact =>
      intro keyType keyB64 line hparse
      rcases parse_cases hparse with hline | ⟨-, -, hfingerprint⟩
      · obtain ⟨keyType', blob, hkey, -, -, hpin⟩ := parseKeyLine_iff.mp hline
        cases hpin
        exact ⟨blob, rfl, hkey⟩
      · obtain ⟨fingerprint, -, hpin⟩ := Option.map_eq_some_iff.mp hfingerprint
        cases hpin
    case refuses =>
      intro hbarred
      refine Option.eq_none_iff_forall_ne_some.mpr fun pin hparse => ?_
      have husable := usable_of_parse hparse
      rcases hbarred with hcomment | hsecond | hmarker | hprivate
      · rcases parse_cases hparse with hline | ⟨-, hfalls, -⟩
        · rw [noKeyLine (.inl hcomment)] at hline
          cases hline
        · exact h (.inr hcomment) hfalls
      · exact husable.oneLine hsecond
      · rcases parse_cases hparse with hline | ⟨-, hfalls, -⟩
        · rw [noKeyLine (.inr (.inl hmarker))] at hline
          cases hline
        · exact h (.inl hmarker) hfalls
      · rcases parse_cases hparse with hline | ⟨-, hfalls, -⟩
        · rw [noKeyLine (.inr (.inr hprivate))] at hline
          cases hline
        · have hno := hfalls.noPrivateKey
          rw [hasPrivateKey_of hprivate] at hno
          cases hno
    case same =>
      intro pin hparse
      rcases parse_cases hparse with hline | ⟨-, -, hfingerprint⟩
      · obtain ⟨keyType, blob, hkey, hshort, -, rfl⟩ := parseKeyLine_iff.mp hline
        refine parse_pasted hkey hshort ⟨[], [], [], by simp, by simp, .inl rfl, ?_⟩
        rw [List.nil_append, List.nil_append, List.append_nil]
        rfl
      · obtain ⟨fingerprint, hfound, rfl⟩ := Option.map_eq_some_iff.mp hfingerprint
        exact parse_fingerprint hfound

end

/-- A line of `known_hosts` for a certificate authority, with the fingerprint of its key. -/
def markedLine : Text := ascii "@cert-authority * SHA256:AAAAAAAAAAAAAAAAAAAAAAAAAAAAAAAAAAAAAAAAAAA"

/-- The fingerprint in a marked line is pinned. -/
theorem pin_marked : ¬PinGrammar .latin markedLine := by
  intro h
  have hmarker : HasAuthorityMarker (Js.trim markedLine) := by
    refine ⟨[], markedLine.drop 15, .inl rfl, ?_, (by decide +kernel)⟩
    intro u hu
    have hu : (0x20 : UInt16) = u := Option.some.inj hu
    rw [← hu]
    rfl
  have hparse : (parseGatewayHostPin .latin markedLine).isNone = false := by decide +kernel
  rw [h.refuses (.inr (.inr (.inl hmarker)))] at hparse
  cases hparse

end PocketShell.Gateway
