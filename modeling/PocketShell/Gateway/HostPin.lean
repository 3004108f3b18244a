import PocketShell.Js.Base64
import PocketShell.Js.LowerCase

/-!
# The host key pin of a gateway device

`gatewayDevices.ts`: what a user pastes as the pin of a gateway's host key, an exact key line or
the fingerprint of a key. The fingerprint is that of `gatewayTransport.ts`. A reader of the wire
format is the bytes that are left.
-/

namespace PocketShell.Gateway

open Js (Text Bytes ascii isSpace btoa atob asciiLower LowerCase)

inductive GatewayHostKeyType
  | ed25519
  | nistp256
  | nistp384
  | nistp521
  | rsa
deriving DecidableEq

namespace GatewayHostKeyType

def text : GatewayHostKeyType → Text
  | ed25519 => ascii "ssh-ed25519"
  | nistp256 => ascii "ecdsa-sha2-nistp256"
  | nistp384 => ascii "ecdsa-sha2-nistp384"
  | nistp521 => ascii "ecdsa-sha2-nistp521"
  | rsa => ascii "ssh-rsa"

/-- `keyType.slice('ecdsa-sha2-'.length)` -/
def curve (keyType : GatewayHostKeyType) : Text := keyType.text.drop (ascii "ecdsa-sha2-").length

/-- The bytes of an uncompressed point of the curve. -/
def pointLength : GatewayHostKeyType → Nat
  | nistp256 => 65
  | nistp384 => 97
  | _ => 133

end GatewayHostKeyType

/-- Host-key types a pin may name. -/
def GATEWAY_HOST_KEY_TYPES : List GatewayHostKeyType :=
  [.ed25519, .nistp256, .nistp384, .nistp521, .rsa]

/-- Largest accepted public-key blob. -/
def MAX_HOST_KEY_BLOB_BYTES : Nat := 8192

/-- The label `pocketshell-link show` prints before the pinned key. -/
def PINNED_HOST_KEY_LABEL : Text := ascii "pinned ssh host key:"

inductive GatewayHostPin
  | hostKey (keyType : GatewayHostKeyType) (keyB64 line : Text)
  | fingerprint (fingerprint : Text)

/-! ## The wire format -/

/-- A positive mpint: its bit length, its low bit, and its value where 32 bits hold it. -/
structure Mpint where
  bits : Nat
  odd : Bool
  small : Nat

def MAX_SAFE_INTEGER : Nat := 9007199254740991

namespace WireReader

def string : Bytes → Option (Bytes × Bytes)
  | a :: b :: c :: d :: rest =>
    let length := a.toNat * 16777216 + b.toNat * 65536 + c.toNat * 256 + d.toNat
    if rest.length < length then none else some (rest.take length, rest.drop length)
  | _ => none

/-- The value of at most four bytes. -/
def smallOf (bytes : Bytes) : Nat := bytes.foldl (fun small b => small * 256 + b.toNat) 0

/-- What the bytes of an mpint say. -/
def mpintOf (bytes : Bytes) : Option Mpint :=
  if bytes = [] ∨ 0x80 ≤ bytes.headD 0 then none
  else if 1 < bytes.length ∧ bytes.headD 0 = 0 ∧ bytes.tail.headD 0 < 0x80 then none
  else
    match bytes.dropWhile (· = 0) with
    | [] => none
    | lead :: rest =>
      let bits := rest.length * 8 + Nat.size lead.toNat
      some {
        bits
        odd := (bytes.getLastD 0).toNat % 2 = 1
        small := if bits ≤ 32 then smallOf ((lead :: rest).drop (rest.length + 1 - 4))
          else MAX_SAFE_INTEGER }

/-- A positive, minimally encoded mpint. -/
def positiveMpint (data : Bytes) : Option (Mpint × Bytes) :=
  (string data).bind fun field => (mpintOf field.1).map fun mpint => (mpint, field.2)

end WireReader

open WireReader (string positiveMpint)

/-- `String.fromCharCode(...bytes)` -/
def fromCharCodes (bytes : Bytes) : Text := bytes.map UInt8.toUInt16

/-- The fields of a blob of the type `ssh-ed25519`, after the type. -/
def ed25519Fields (blob : Bytes) : Bool :=
  match string blob with
  | none => false
  | some (key, rest) => if key.length ≠ 32 then false else rest = []

/-- `keyType.startsWith('ecdsa-sha2-')` -/
def ecdsaFields (keyType : GatewayHostKeyType) (blob : Bytes) : Bool :=
  match string blob with
  | none => false
  | some (name, rest) =>
    if fromCharCodes name ≠ keyType.curve then false
    else
      match string rest with
      | none => false
      | some (point, rest) =>
        if point.length ≠ keyType.pointLength ∨ point.head? ≠ some 0x04 then false else rest = []

def rsaFields (blob : Bytes) : Bool :=
  match positiveMpint blob with
  | none => false
  | some (e, rest) =>
    match positiveMpint rest with
    | none => false
    | some (n, rest) =>
      if !e.odd ∨ e.small < 3 then false
      else if n.bits < 2048 then false
      else rest = []

/-- The structure check of a blob. -/
def wellFormedKeyBlob (keyType : GatewayHostKeyType) (blob : Bytes) : Bool :=
  match string blob with
  | none => false
  | some (name, rest) =>
    if fromCharCodes name ≠ keyType.text then false
    else
      match keyType with
      | .ed25519 => ed25519Fields rest
      | .nistp256 | .nistp384 | .nistp521 => ecdsaFields keyType rest
      | .rsa => rsaFields rest

/-! ## A key line -/

/-- `[\x20-\x7e]` -/
def isPrintable (unit : UInt16) : Bool := 0x20 ≤ unit && unit ≤ 0x7e

/-- `[A-Za-z0-9+/]` -/
def isBase64Unit (unit : UInt16) : Bool :=
  0x41 ≤ unit && unit ≤ 0x5a || 0x61 ≤ unit && unit ≤ 0x7a || 0x30 ≤ unit && unit ≤ 0x39 ||
    unit = 0x2b || unit = 0x2f

/-- `/^[A-Za-z0-9+/]+={0,2}$/` -/
def isBase64Text (text : Text) : Bool :=
  let padding := text.dropWhile isBase64Unit
  text.takeWhile isBase64Unit ≠ [] && padding.length ≤ 2 && padding.all (· = Js.padUnit)

def parseKeyLine (line : Text) : Option GatewayHostPin :=
  if line = [] ∨ !line.all isPrintable then none
  else
    match line.splitOn 0x20 with
    | [name, keyB64] =>
      if name = [] ∨ keyB64 = [] then none
      else
        match GATEWAY_HOST_KEY_TYPES.find? (·.text = name) with
        | none => none
        | some keyType =>
          if !isBase64Text keyB64 ∨ keyB64.length % 4 ≠ 0 then none
          else
            match atob keyB64 with
            | none => none
            | some blob =>
              if btoa blob ≠ keyB64 then none
              else if MAX_HOST_KEY_BLOB_BYTES < blob.length ∨ !wellFormedKeyBlob keyType blob then none
              else some (.hostKey keyType keyB64 (keyType.text ++ ascii " " ++ keyB64))
    | _ => none

/-! ## A fingerprint -/

/-- `[A-Za-z0-9+/=]` -/
def isBodyUnit (unit : UInt16) : Bool := isBase64Unit unit || unit = Js.padUnit

/-- `/SHA256:\s*([A-Za-z0-9+/=]+)/i` at the start of a text: what the group takes. -/
def fingerprintAt (text : Text) : Option Text :=
  if (text.take 7).map asciiLower = ascii "sha256:" then
    let body := ((text.drop 7).dropWhile isSpace).takeWhile isBodyUnit
    if body = [] then none else some body
  else none

def sha256BodyDecodesTo32Bytes (b64 : Text) : Bool :=
  match atob (b64 ++ List.replicate ((4 - b64.length % 4) % 4) Js.padUnit) with
  | none => false
  | some bytes => bytes.length = 32

/-- Normalize a user-provided SHA-256 fingerprint to the OpenSSH display form. -/
def normalizeSha256Fingerprint (input : Text) : Option Text :=
  match input.tails.findSome? fingerprintAt with
  | none => none
  | some body =>
    let b64 := body.rdropWhile (· = Js.padUnit)
    if b64.length ≠ 43 then none
    else if !sha256BodyDecodesTo32Bytes b64 then none
    else some (ascii "SHA256:" ++ b64)

/-! ## What was pasted -/

variable (lower : LowerCase)

/-- The text, or what follows the label before it. -/
def unlabelled (text : Text) : Text :=
  if PINNED_HOST_KEY_LABEL.isPrefixOf (lower.toLowerCase text) then
    Js.trim (text.drop PINNED_HOST_KEY_LABEL.length)
  else text

/-- `/PRIVATE KEY/i` -/
def hasPrivateKey (text : Text) : Bool :=
  text.tails.any fun t => (t.take 11).map asciiLower = ascii "private key"

/-- `/^(ssh-|ecdsa-)/` -/
def looksLikeKey (text : Text) : Bool :=
  (ascii "ssh-").isPrefixOf text || (ascii "ecdsa-").isPrefixOf text

/-- Parse what a user pasted as a gateway device's host-key pin. -/
def parseGatewayHostPin (input : Text) : Option GatewayHostPin :=
  let text := Js.trim input
  if text = [] ∨ 16384 < text.length ∨ text.any (fun u => u = 0x0d || u = 0x0a) then none
  else
    let labelled := unlabelled lower text
    match parseKeyLine labelled with
    | some pin => some pin
    | none =>
      -- a fingerprint never rides inside something that looks like a key line or a private key
      if hasPrivateKey text || looksLikeKey labelled then none
      else (normalizeSha256Fingerprint text).map .fingerprint

/-- The canonical text a platform's pairing store receives for a parsed pin. -/
def gatewayHostPinText : GatewayHostPin → Text
  | .hostKey _ _ line => line
  | .fingerprint fingerprint => fingerprint

end PocketShell.Gateway
