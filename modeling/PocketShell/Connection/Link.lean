import PocketShell.Connection.Controller
import PocketShell.Coop.Alone
import PocketShell.Js.Base64
import PocketShell.Link.Digest

/-!
# The link capability

`linkCapability.ts`: the key a relay link presents in place of a host key, and the dial.

* `digestText`, `canonicalRelayUrl`, `linkHostKeyFingerprint`: what the key is made of.
* `LinkCapabilityOptions.connect`: how a dial is answered.
-/

namespace PocketShell

/-! ## The key of a link -/

/-- `encoder.encode` -/
def encode (text : String) : List UInt8 := text.toUTF8.toList

/-- The characters of an ASCII text. -/
def ofAscii (text : Js.Text) : String := String.ofList (text.map fun unit => Char.ofNat unit.toNat)

/-- `sha256Hex` of a text that is shorter than those on which it throws. -/
def digestText (text : String) : String := ofAscii ((Digest.sha256Hex (encode text)).getD [])

/-- The schemes of a relay URL. -/
def relaySchemes : List String := ["wss", "ws", "https", "http"]

def stripSlashes (path : List Char) : List Char := (path.reverse.dropWhile (· = '/')).reverse

/-- The parts `(wss|ws|https?)://([^/?#]+)(/[^#]*)?` of a URL. -/
def relayParts (url : List Char) : Option (String × List Char × List Char) :=
  match relaySchemes.find? fun scheme => (scheme ++ "://").toList.isPrefixOf url with
  | none => none
  | some scheme =>
    let rest := url.drop (scheme.length + 3)
    let ends := fun c : Char => c = '/' || c = '?' || c = '#'
    let authority := rest.takeWhile fun c => !ends c
    let path :=
      match rest.dropWhile fun c => !ends c with
      | '/' :: more => '/' :: more.takeWhile (· ≠ '#')
      | _ => ['/']
    if authority.isEmpty then none else some (scheme, authority, path)

/-- Without default ports and trailing slashes. -/
def canonicalRelayUrl (toLowerCase : String → String) (relayUrl : String) : String :=
  match relayParts (trim relayUrl).toList with
  | none => trim relayUrl
  | some (scheme, authority, path) =>
    let authority := (toLowerCase (String.ofList authority)).toList
    let defaultPort := (if scheme = "wss" || scheme = "https" then ":443" else ":80").toList
    let authority :=
      if defaultPort.isSuffixOf authority then authority.take (authority.length - defaultPort.length)
      else authority
    scheme ++ "://" ++ String.ofList authority ++ String.ofList (stripSlashes path)

/-- The options of a link: where it dials, and the function of the platform that it
uses. -/
structure LinkCapabilityOptions where
  relayUrl : String
  token : String
  toLowerCase : String → String

namespace LinkCapabilityOptions

variable (link : LinkCapabilityOptions)

def linkHostKeyFingerprint : String :=
  let tokenDigest := digestText link.token
  "SHA256:" ++ digestText
    ("pocketshell-link-v1|" ++ canonicalRelayUrl link.toLowerCase link.relayUrl ++ "|" ++ tokenDigest)

def presentedKey : PresentedHostKey where
  keyType := "link-v1"
  keyB64 := ofAscii (Js.btoa (encode (digestText link.token)))
  fingerprintSha256 := link.linkHostKeyFingerprint

/-- What the relay makes of a dial. -/
inductive Relay
  | ready (connectionId : String)
  /-- An `error` frame. -/
  | refused (message code : Option String)
  /-- The socket closed or failed. -/
  | failed (detail : String)
  | timedOut

/-- `connect`, with or without another dial in flight. -/
def connect (dialling : Bool) (options : SshConnectOptions) (relay : Relay) :
    Except SshCapabilityError SshConnectResult :=
  if dialling then
    .error { message := "Another link dial is already in flight.", code := "DIAL_IN_PROGRESS" }
  else if options.expectedHostKey ≠ none ∧
      verifyHostKeyTrustPin options.expectedHostKey link.presentedKey ≠ .trusted then
    -- its `data` has the fingerprint under a name the controller does not read
    .error { message := "Link host key changed — verify the relay URL and token.",
             code := "HOST_KEY_MISMATCH" }
  else
    match relay with
    | .ready connectionId =>
      .ok {
        requestId := options.requestId
        connectionId
        generationId := options.generationId
        hostKey := ⟨some link.presentedKey.keyType, some link.presentedKey.keyB64,
          some link.presentedKey.fingerprintSha256⟩
        gatewayHostKeyVerified := false }
    | .refused message code =>
      .error { message := message.getD "relay refused the link", code := code.getD "SSH_ERROR" }
    | .failed detail => .error { message := "Link dial failed: " ++ detail, code := "CONNECTION_LOST" }
    | .timedOut => .error { message := "link dial timed out", code := "TIMED_OUT" }

end LinkCapabilityOptions

end PocketShell
