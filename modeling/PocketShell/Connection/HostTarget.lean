import PocketShell.Connection.HostKeyTrust

/-!
# Host targets and transports

What a dial is asked for (`sshCapability.ts`), the gateway marker it may carry
(`gatewayTransport.ts`), and the one transport decision every dial goes through
(`unsupportedTransport` in `sync.ts`).
-/

namespace PocketShell

/-- The characters `String.prototype.trim` strips. -/
def isTrimmed (c : Char) : Bool :=
  let n := c.toNat
  (9 ≤ n && n ≤ 13) || n = 0x20 || n = 0xA0 || n = 0x1680 || (0x2000 ≤ n && n ≤ 0x200A) ||
    n = 0x2028 || n = 0x2029 || n = 0x202F || n = 0x205F || n = 0x3000 || n = 0xFEFF

/-- `value.trim()`. -/
def trim (value : String) : String :=
  String.ofList (((value.toList.dropWhile isTrimmed).reverse.dropWhile isTrimmed).reverse)

/-- `!value.trim()`. -/
def isBlank (value : String) : Bool := value.toList.all isTrimmed

/-! ## Targets -/

/-- `SshCredential`. Of a key handle, `otherKeys` are the properties beside
`kind`, `handleId` and `passphrase`. -/
inductive SshCredential
  | privateKey (privateKeyPem : String) (passphrase : Option String)
  | password (password : String)
  | keyHandle (handleId : String) (passphrase : Option String) (otherKeys : List String)
  | linkToken (token : String)

/-- A gateway marker as it is stored: either field can be missing or not a
string. -/
structure GatewayMarker where
  serverUrl : Option String
  deviceId : Option String

/-- A link marker as it is stored. -/
structure LinkMarker where
  relayUrl : Option String
  hostId : Option String

/-- `SshHostTarget`. `link` and `gateway` are `some` when the target has the
property, whatever its value. -/
structure SshHostTarget where
  hostId : String
  hostname : String
  port : Nat
  username : String
  credential : SshCredential
  link : Option LinkMarker
  gateway : Option GatewayMarker

/-- `isKeyHandleCredential`. -/
def SshCredential.isKeyHandle : SshCredential → Bool
  | .keyHandle .. => true
  | _ => false

/-- `isValidSshKeyHandleCredential`. -/
def SshCredential.isValidKeyHandle : SshCredential → Bool
  | .keyHandle handleId _ otherKeys => !isBlank handleId && otherKeys.isEmpty
  | _ => false

/-- The host the controller keeps: without a passphrase that was for one
attempt only. -/
def hostWithoutTransientPassphrase (host : SshHostTarget) : SshHostTarget :=
  match host.credential with
  | .keyHandle handleId (some _) _ => { host with credential := .keyHandle handleId none [] }
  | _ => host

@[simp] theorem hostWithoutTransientPassphrase_hostId (host : SshHostTarget) :
    (hostWithoutTransientPassphrase host).hostId = host.hostId := by
  unfold hostWithoutTransientPassphrase
  split <;> rfl

@[simp] theorem hostWithoutTransientPassphrase_gateway (host : SshHostTarget) :
    (hostWithoutTransientPassphrase host).gateway = host.gateway := by
  unfold hostWithoutTransientPassphrase
  split <;> rfl

@[simp] theorem hostWithoutTransientPassphrase_twice (host : SshHostTarget) :
    hostWithoutTransientPassphrase (hostWithoutTransientPassphrase host) =
      hostWithoutTransientPassphrase host := by
  cases h : host.credential with
  | keyHandle handleId passphrase otherKeys =>
    cases passphrase with
    | none => simp [hostWithoutTransientPassphrase, h]
    | some _ => simp [hostWithoutTransientPassphrase, h]
  | _ => simp [hostWithoutTransientPassphrase, h]

/-- `passphrase` is `none` when the caller gives none at all. -/
def hostWithTransientPassphrase (host : SshHostTarget) (passphrase : Option (Option String)) :
    SshHostTarget :=
  match passphrase, host.credential with
  | some passphrase, .keyHandle handleId _ _ =>
    { host with credential := .keyHandle handleId passphrase [] }
  | _, _ => host

/-! ## The gateway -/

/-- `GatewayTransportTarget`: a usable route. -/
structure GatewayTransportTarget where
  serverUrl : String
  deviceId : String

/-- `DEVICE_ID_PATTERN`. -/
def isValidGatewayDeviceId (deviceId : String) : Bool :=
  match deviceId.toList with
  | [] => false
  | c :: cs =>
    c.isAlphanum && 2 ≤ cs.length && cs.length ≤ 63 &&
      cs.all fun c => c.isAlphanum || c = '.' || c = '_' || c = ':' || c = '-'

/-- `normalizeGatewayTarget`, over the URL normalization of the platform. -/
def normalizeGatewayTarget (normalizeServerUrl : String → Option String) (raw : GatewayMarker) :
    Option GatewayTransportTarget :=
  match raw.serverUrl, raw.deviceId with
  | some serverUrl, some deviceId =>
    match normalizeServerUrl serverUrl with
    | some serverUrl =>
      if isValidGatewayDeviceId (trim deviceId) then some ⟨serverUrl, trim deviceId⟩ else none
    | none => none
  | _, _ => none

/-- A present gateway marker, whatever its shape. -/
def hasGatewayMarker (host : SshHostTarget) : Bool := host.gateway.isSome

inductive TransportRefusalReason
  | gatewayUnsupported
  | gatewayInvalid
  | linkAndGateway
  | linkUnsupported
  | linkInvalid

/-- `transportRefusalMessage`. -/
def transportRefusalMessage (reason : TransportRefusalReason) (label : String) : String :=
  let who := if isBlank label then "This host" else "“" ++ label ++ "”"
  match reason with
  | .gatewayUnsupported =>
    who ++
      " is reached through the PocketShell gateway, which this device can't connect through yet. Nothing was dialled."
  | .gatewayInvalid =>
    who ++ " has a PocketShell gateway setting this version can't read. Nothing was dialled."
  | .linkAndGateway =>
    who ++ " is set up for both the PocketShell gateway and a relay link, so it is unclear which to use." ++
      " Nothing was dialled."
  | .linkUnsupported =>
    who ++
      " is reached through a PocketShell relay link, which this device can't connect through yet. Nothing was dialled."
  | .linkInvalid =>
    who ++ " has a PocketShell relay link setting this version can't read. Nothing was dialled."

/-- `isLinkTransportTarget`. -/
def isLinkTransportTarget (raw : LinkMarker) : Bool :=
  raw.relayUrl.any (!isBlank ·) && raw.hostId.any (!isBlank ·)

/-- `unsupportedTransport`: the refusal of a target on a platform with these
transports, or `none` when it may be dialled. -/
def unsupportedTransport (normalizeServerUrl : String → Option String) (host : SshHostTarget)
    (gateway link : Bool) : Option TransportRefusalReason :=
  match host.gateway with
  | some marker =>
    if !gateway then some .gatewayUnsupported
    else if host.link.isSome then some .linkAndGateway
    else if (normalizeGatewayTarget normalizeServerUrl marker).isNone then some .gatewayInvalid
    else none
  | none =>
    match host.link with
    | some marker =>
      if !link then some .linkUnsupported
      else if !isLinkTransportTarget marker then some .linkInvalid
      else none
    | none => none

/-! ## Classified gateway dial failures -/

inductive GatewayDialFailureKind
  | protocol | unauthorized | forbidden | notFound | timeout | quota | hostOffline
  | signInRequired | pairingRequired | accountChanged

structure GatewayDialFailure where
  code : String
  closeCode : Option Int
  kind : GatewayDialFailureKind
  retryable : Bool
  userMessage : String

/-- The native refusals of `GATEWAY_DIAL_MATRIX`. -/
def gatewayNativeRefusal (code : String) : Option (GatewayDialFailureKind × String) :=
  if code = "NOT_SIGNED_IN" then
    some (.signInRequired, "Sign in to your PocketShell account to connect through the gateway.")
  else if code = "GATEWAY_BROKER_SIGN_IN_REJECTED" then
    some (.signInRequired, "Your sign-in was not accepted for the gateway — sign out, sign in again, then reconnect.")
  else if code = "GATEWAY_UNPAIRED" then
    some (.pairingRequired,
      "This device is not paired with that host for this SSH key — pair it again, then reconnect.")
  else if code = "GATEWAY_ACCOUNT_CHANGED" then
    some (.accountChanged, "The signed-in account changed while connecting — reconnect as the account signed in now.")
  else none

/-- The close codes of `GATEWAY_DIAL_MATRIX`: kind, whether to retry, advice. -/
def gatewayCloseVerdict (closeCode : Int) : Option (GatewayDialFailureKind × Bool × String) :=
  if closeCode = 4400 then
    some (.protocol, false, "The gateway rejected the request — update PocketShell.")
  else if closeCode = 4401 then
    some (.unauthorized, false, "Your sign-in expired — sign in again and retry.")
  else if closeCode = 4403 then
    some (.forbidden, false, "This PocketShell account cannot reach that host.")
  else if closeCode = 4404 then
    some (.notFound, false, "That host is not registered on the gateway.")
  else if closeCode = 4408 then
    some (.timeout, true, "The gateway took too long to answer.")
  else if closeCode = 4429 then
    some (.quota, true, "Too many open sessions — close one and retry.")
  else if closeCode = 4503 then
    some (.hostOffline, true, "The host is not connected to the gateway right now — check that its agent is running.")
  else none

/-- `classifyGatewayDialFailure`. -/
def classifyGatewayDialFailure (code : String) (gatewayCloseCode : Option Int) :
    Option GatewayDialFailure :=
  match gatewayNativeRefusal code with
  | some (kind, userMessage) => some ⟨code, none, kind, false, userMessage⟩
  | none =>
    if code ≠ "GATEWAY_CLOSED" then none
    else
      match gatewayCloseCode with
      | some closeCode =>
        match gatewayCloseVerdict closeCode with
        | some (kind, retryable, userMessage) =>
          some ⟨code, some closeCode, kind, retryable, userMessage⟩
        | none => none
      | none => none

end PocketShell
