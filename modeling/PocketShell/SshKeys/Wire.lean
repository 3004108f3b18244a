import PocketShell.SshKeys.Pem

/-!
# The formats inside

`sshKeys.ts`: the fields of the SSH wire format and of DER. A reader is the bytes that are left.
-/

namespace PocketShell.SshKeys

open Js (Text Bytes ascii byte utf8)

theorem ok_bind {α β : Type} (a : α) (f : α → Outcome β) : (Except.ok a >>= f) = f a := rfl

/-- What comes out of two steps came out of the first and then of the second. -/
theorem bind_eq_ok {α β : Type} {x : Outcome α} {f : α → Outcome β} {b : β} :
    x >>= f = .ok b ↔ ∃ a, x = .ok a ∧ f a = .ok b := by
  cases x with
  | error e =>
    constructor
    · intro h
      cases h
    · rintro ⟨a, h, -⟩
      cases h
  | ok a =>
    constructor
    · intro h
      exact ⟨a, rfl, h⟩
    · rintro ⟨a', h, hb⟩
      cases h
      exact hb

/-! ## SSH wire format -/

def truncated {α : Type} : Outcome α := invalid (ascii "truncated key data")

def readU32 : Bytes → Outcome (Nat × Bytes)
  | a :: b :: c :: d :: rest =>
    .ok (((a.toNat * 256 + b.toNat) * 256 + c.toNat) * 256 + d.toNat, rest)
  | _ => truncated

def readBytes (length : Nat) (buf : Bytes) : Outcome (Bytes × Bytes) :=
  if buf.length < length then truncated else .ok (buf.take length, buf.drop length)

def readString (buf : Bytes) : Outcome (Bytes × Bytes) := do
  let length ← readU32 buf
  readBytes length.1 length.2

/-- A string, as a `TextDecoder` that is not fatal gives it. -/
def readText (buf : Bytes) : Outcome (Text × Bytes) := do
  let field ← readString buf
  return (Js.decodeText field.1, field.2)

def u32be (value : Nat) : Bytes :=
  [byte (value / 16777216 % 256), byte (value / 65536 % 256), byte (value / 256 % 256),
    byte (value % 256)]

def sshString (data : Bytes) : Bytes := u32be data.length ++ data

/-- A string of characters that are one byte each. -/
def sshText (text : Text) : Bytes := sshString (utf8 text)

/-- An mpint from an unsigned big-endian integer. -/
def sshMpint (unsigned : Bytes) : Bytes :=
  match unsigned.dropWhile (· = 0) with
  | [] => sshString []
  | first :: rest => sshString (if 0x80 ≤ first then 0 :: first :: rest else first :: rest)

def bigUnsigned (bytes : Bytes) : Nat := bytes.foldl (fun value b => value * 256 + b.toNat) 0

/-! ## DER -/

structure Der where
  tag : UInt8
  content : Bytes

def derLength (first : UInt8) (buf : Bytes) : Outcome (Nat × Bytes) :=
  if first < 0x80 then .ok (first.toNat, buf)
  else
    let count := first.toNat - 0x80
    if count = 0 ∨ 4 < count ∨ buf.length < count then invalid (ascii "bad DER length")
    else .ok (bigUnsigned (buf.take count), buf.drop count)

/-- A node and the bytes after it. -/
def readDer : Bytes → Outcome (Der × Bytes)
  | tag :: first :: rest => do
    let length ← derLength first rest
    if length.2.length < length.1 then invalid (ascii "truncated DER")
    else .ok (⟨tag, length.2.take length.1⟩, length.2.drop length.1)
  | _ => invalid (ascii "truncated DER")

/-- Every node takes two bytes at least, so that `count` can be the number of bytes. -/
def derChildrenFrom : Nat → Bytes → Outcome (List Der)
  | 0, _ => .ok []
  | count + 1, content =>
    if content = [] then .ok []
    else do
      let child ← readDer content
      let more ← derChildrenFrom count child.2
      return child.1 :: more

def derChildren (node : Der) : Outcome (List Der) := derChildrenFrom node.content.length node.content

def derRoot (buf : Bytes) (tag : UInt8) : Outcome Der := do
  let root ← readDer buf
  if root.1.tag ≠ tag ∨ root.2 ≠ [] then invalid (ascii "malformed DER") else .ok root.1

/-- The parts after the first byte; `value` is of the part that is being read. -/
def oidParts (value : Nat) : Bytes → List Nat
  | [] => []
  | b :: rest =>
    let value := value * 128 + b.toNat % 128
    if b < 0x80 then value :: oidParts 0 rest else oidParts value rest

def derOid (node : Option Der) : Outcome (List Nat) :=
  match node with
  | some ⟨0x06, first :: rest⟩ =>
    let top := min 2 (first.toNat / 40)
    .ok (top :: (first.toNat - top * 40) :: oidParts 0 rest)
  | _ => invalid (ascii "expected an OID")

def need (node : Option Der) (tag : UInt8) : Outcome Der :=
  match node with
  | some node => if node.tag = tag then .ok node else invalid (ascii "malformed key structure")
  | none => invalid (ascii "malformed key structure")

def derTlv (tag : UInt8) (content : Bytes) : Bytes :=
  let n := content.length
  let length := if n < 0x80 then [byte n] else if n < 0x100 then [0x81, byte n]
    else [0x82, byte (n / 256), byte (n % 256)]
  tag :: (length ++ content)

def oidText (oid : List Nat) : Text := Js.join (ascii ".") (oid.map Js.naturalText)

def OID_RSA : List Nat := [1, 2, 840, 113549, 1, 1, 1]

def OID_EC : List Nat := [1, 2, 840, 10045, 2, 1]

def OID_ED25519 : List Nat := [1, 3, 101, 112]

/-! ## What is written is read -/

variable {data rest buf : Bytes}

theorem readU32_u32be {value : Nat} (h : value < 4294967296) :
    readU32 (u32be value ++ rest) = .ok (value, rest) := by
  have hbyte : ∀ n, (byte (n % 256)).toNat = n % 256 := fun n => Js.toNat_byte (Nat.mod_lt _ (by decide))
  unfold u32be
  simp only [List.cons_append, List.nil_append, readU32, hbyte]
  congr 2
  omega

theorem readString_sshString (h : data.length < 4294967296) :
    readString (sshString data ++ rest) = .ok (data, rest) := by
  unfold readString sshString
  rw [List.append_assoc, readU32_u32be h, ok_bind]
  unfold readBytes
  dsimp only
  rw [if_neg (by rw [List.length_append]; omega), List.take_left, List.drop_left]

theorem readString_whole (h : data.length < 4294967296) : readString (sshString data) = .ok (data, []) := by
  have hread : readString (sshString data ++ []) = .ok (data, []) := readString_sshString h
  rwa [List.append_nil] at hread

theorem readU32_lt {value : Nat} (h : readU32 buf = .ok (value, rest)) : value < 4294967296 := by
  unfold readU32 at h
  split at h
  · next a b c d tail =>
    obtain ⟨rfl, -⟩ := Prod.mk.inj (Except.ok.inj h)
    have := a.toNat_lt
    have := b.toNat_lt
    have := c.toNat_lt
    have := d.toNat_lt
    omega
  · cases h

theorem readString_lt (h : readString buf = .ok (data, rest)) : data.length < 4294967296 := by
  obtain ⟨⟨length, tail⟩, hlength, h⟩ := bind_eq_ok.mp h
  unfold readBytes at h
  split at h
  · cases h
  · obtain ⟨rfl, -⟩ := Prod.mk.inj (Except.ok.inj h)
    refine lt_of_le_of_lt ?_ (readU32_lt hlength)
    rw [List.length_take]
    exact Nat.min_le_left _ _

end PocketShell.SshKeys
