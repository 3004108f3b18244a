import PocketShell.Js.Number

/-!
# Gateway targets

`normalizeGatewayTarget`: the canonical form of the route of a host behind the
gateway. Its URL is parsed by the platform (`UrlParser`).

* `normalizeGatewayTarget_canonical`: a normalized target is normal.
-/

namespace PocketShell.SavedHosts

open Js (Text Json ascii isDigit isSpace property)

/-- What `normalizeGatewayServerUrl` reads of a `URL`. -/
structure Url where
  protocol : Text
  host : Text
  pathname : Text
  search : Text
  hash : Text

/-- `new URL(text)`, `none` when it throws. -/
abbrev UrlParser : Type := Text → Option Url

inductive Scheme
  | wss
  | ws
  | https
  | http
deriving DecidableEq

def Scheme.text : Scheme → Text
  | .wss => ascii "wss://"
  | .ws => ascii "ws://"
  | .https => ascii "https://"
  | .http => ascii "http://"

def lower (unit : UInt16) : UInt16 := if 0x41 ≤ unit && unit ≤ 0x5a then unit + 0x20 else unit

/-- What follows the scheme, in any case of its letters. -/
def Scheme.strip (scheme : Scheme) (text : Text) : Option Text :=
  if (text.take scheme.text.length).map lower = scheme.text then some (text.drop scheme.text.length)
  else none

def isDelimiter (unit : UInt16) : Bool := unit = 0x2f || unit = 0x3f || unit = 0x23

/-- `([^/?#]*)(\/)?$` -/
def authorityOf (rest : Text) : Option Text :=
  let authority := rest.takeWhile (!isDelimiter ·)
  let tail := rest.drop authority.length
  if tail = [] || tail = [0x2f] then some authority else none

/-- The match of the origin grammar. -/
def originOf (text : Text) : Option (Scheme × Text) :=
  [Scheme.wss, .ws, .https, .http].findSome? fun scheme =>
    (scheme.strip text).bind fun rest => (authorityOf rest).map (scheme, ·)

def isLetter (unit : UInt16) : Bool :=
  (0x41 ≤ unit && unit ≤ 0x5a) || (0x61 ≤ unit && unit ≤ 0x7a)

/-- `[0-9A-Fa-f:.]` -/
def isAddressUnit (unit : UInt16) : Bool :=
  isDigit unit || (0x41 ≤ unit && unit ≤ 0x46) || (0x61 ≤ unit && unit ≤ 0x66) || unit = 0x3a ||
    unit = 0x2e

/-- `[A-Za-z0-9._-]` -/
def isNameUnit (unit : UInt16) : Bool :=
  isLetter unit || isDigit unit || unit = 0x2e || unit = 0x5f || unit = 0x2d

/-- `(:[0-9]{1,5})?$` -/
def isPort : Text → Bool
  | [] => true
  | unit :: digits => unit = 0x3a && 1 ≤ digits.length && digits.length ≤ 5 && digits.all isDigit

/-- `^(\[[0-9A-Fa-f:.]+\]|[A-Za-z0-9._-]+)(:[0-9]{1,5})?$` -/
def isAuthority (text : Text) : Bool :=
  match text with
  | 0x5b :: rest =>
    rest.takeWhile isAddressUnit ≠ [] &&
      match rest.dropWhile isAddressUnit with
      | 0x5d :: port => isPort port
      | _ => false
  | _ => text.takeWhile isNameUnit ≠ [] && isPort (text.dropWhile isNameUnit)

def candidateOf (scheme : Scheme) (trimmed : Text) : Text :=
  match scheme with
  | .https => Scheme.wss.text ++ trimmed.drop Scheme.https.text.length
  | .http => Scheme.ws.text ++ trimmed.drop Scheme.http.text.length
  | _ => trimmed

/-- What is made of the URL. -/
def serverUrlOf (url : Url) : Option Text :=
  if url.protocol ≠ ascii "ws:" && url.protocol ≠ ascii "wss:" then none
  else if url.search ≠ [] || url.hash ≠ [] then none
  else if url.pathname ≠ ascii "/" && url.pathname ≠ [] then none
  else some (url.protocol ++ ascii "//" ++ url.host)

/-- `normalizeGatewayServerUrl` after the `trim`. -/
def normalizeTrimmed (parse : UrlParser) (trimmed : Text) : Option Text :=
  match originOf trimmed with
  | none => none
  | some (scheme, authority) =>
    if !isAuthority authority then none
    else (parse (candidateOf scheme trimmed)).bind serverUrlOf

def normalizeGatewayServerUrl (parse : UrlParser) (input : Text) : Option Text :=
  normalizeTrimmed parse (Js.trim input)

/-- `/^[A-Za-z0-9][A-Za-z0-9._:-]{2,63}$/` -/
def isValidGatewayDeviceId (deviceId : Text) : Bool :=
  match deviceId with
  | [] => false
  | first :: rest =>
    (isLetter first || isDigit first) && 2 ≤ rest.length && rest.length ≤ 63 &&
      rest.all fun unit => isNameUnit unit || unit = 0x3a

structure GatewayTransportTarget where
  serverUrl : Text
  deviceId : Text

variable {N : Type}

/-- `value[name]` when it is a string. -/
def textOf (name : Text) (members : List (Text × Json N)) : Option Text :=
  match (property name members).map Json.view with
  | some (.str s) => some s
  | _ => none

def serverUrlKey : Text := ascii "serverUrl"

def deviceIdKey : Text := ascii "deviceId"

/-- `normalizeGatewayTarget` once both fields are strings. -/
def normalizeFields (parse : UrlParser) (serverUrl deviceId : Text) : Option GatewayTransportTarget :=
  (normalizeGatewayServerUrl parse serverUrl).bind fun serverUrl =>
    if !isValidGatewayDeviceId (Js.trim deviceId) then none
    else some ⟨serverUrl, Js.trim deviceId⟩

def normalizeGatewayTarget (parse : UrlParser) (raw : Json N) : Option GatewayTransportTarget :=
  match raw.view with
  | .obj r _ =>
    (textOf serverUrlKey r).bind fun serverUrl =>
      (textOf deviceIdKey r).bind fun deviceId => normalizeFields parse serverUrl deviceId
  | _ => none

def GatewayTransportTarget.toJson (target : GatewayTransportTarget) : Json N :=
  .obj [(serverUrlKey, .str target.serverUrl), (deviceIdKey, .str target.deviceId)]
    (Js.once_of [serverUrlKey, deviceIdKey] rfl (by decide))

/-! ## A normalized target is normal -/

/-- The origin of a `ws` or `wss` URL is written so that it is read back, and its host
stays within the grammar its text was within. -/
def KeepsOrigins (parse : UrlParser) : Prop :=
  ∀ text scheme authority url, originOf text = some (scheme, authority) → isAuthority authority = true →
    parse text = some url → url.protocol = ascii "ws:" ∨ url.protocol = ascii "wss:" →
    isAuthority url.host = true ∧
      parse (url.protocol ++ ascii "//" ++ url.host) = some ⟨url.protocol, url.host, ascii "/", [], []⟩

/-- A unit an authority can have. -/
def isAuthorityUnit (unit : UInt16) : Bool :=
  isNameUnit unit || isAddressUnit unit || unit = 0x5b || unit = 0x5d

theorem plain_of_authority {unit : UInt16} (h : isAuthorityUnit unit = true) :
    isSpace unit = false ∧ isDelimiter unit = false := by
  simp only [isAuthorityUnit, isNameUnit, isAddressUnit, isLetter, isDigit, isSpace, isDelimiter,
    Bool.or_eq_true, Bool.and_eq_true, decide_eq_true_eq, Bool.or_eq_false_iff,
    Bool.and_eq_false_iff, decide_eq_false_iff_not, UInt16.le_iff_toNat_le, ← UInt16.toNat_inj, UInt16.reduceToNat] at *
  omega

theorem authority_port {text : Text} (h : isPort text = true) : ∀ unit ∈ text, isAuthorityUnit unit = true := by
  cases text with
  | nil => exact fun _ h => by cases h
  | cons unit digits =>
    simp only [isPort, Bool.and_eq_true, decide_eq_true_eq] at h
    obtain ⟨⟨⟨rfl, -⟩, -⟩, hdigits⟩ := h
    intro u hu
    rcases List.mem_cons.mp hu with rfl | hu
    · decide
    · have hdigit := List.all_eq_true.mp hdigits u hu
      simp [isAuthorityUnit, isNameUnit, hdigit]

theorem authority_units {text : Text} (h : isAuthority text = true) :
    text ≠ [] ∧ ∀ unit ∈ text, isAuthorityUnit unit = true := by
  unfold isAuthority at h
  split at h
  · next rest =>
    refine ⟨List.cons_ne_nil _ _, fun u hu => ?_⟩
    rcases List.mem_cons.mp hu with rfl | hu
    · decide
    rw [← List.takeWhile_append_dropWhile (p := isAddressUnit) (l := rest)] at hu
    obtain ⟨-, hport⟩ := Bool.and_eq_true_iff.mp h
    rcases List.mem_append.mp hu with hu | hu
    · have haddress := List.mem_takeWhile_imp hu
      simp [isAuthorityUnit, haddress]
    · split at hport
      · next port hdrop =>
        rw [hdrop] at hu
        rcases List.mem_cons.mp hu with rfl | hu
        · decide
        · exact authority_port hport u hu
      · cases hport
  · obtain ⟨hname, hport⟩ := Bool.and_eq_true_iff.mp h
    refine ⟨?_, fun u hu => ?_⟩
    · rintro rfl
      cases hname
    rw [← List.takeWhile_append_dropWhile (p := isNameUnit) (l := text)] at hu
    rcases List.mem_append.mp hu with hu | hu
    · have hunit := List.mem_takeWhile_imp hu
      simp [isAuthorityUnit, hunit]
    · exact authority_port hport u hu

theorem authorityOf_authority {text : Text} (h : isAuthority text = true) : authorityOf text = some text := by
  obtain ⟨-, hunits⟩ := authority_units h
  have htake : text.takeWhile (!isDelimiter ·) = text :=
    List.takeWhile_eq_self_iff.mpr fun u hu => by simp [(plain_of_authority (hunits u hu)).2]
  simp [authorityOf, htake]

theorem strip_self (scheme : Scheme) {rest : Text} : scheme.strip (scheme.text ++ rest) = some rest := by
  have hlower : scheme.text.map lower = scheme.text := by cases scheme <;> decide
  rw [Scheme.strip, List.take_left, List.drop_left, if_pos hlower]

/-- Schemes differ in their first five units. -/
theorem strip_other {scheme other : Scheme} {rest : Text} (h : other ≠ scheme) :
    other.strip (scheme.text ++ rest) = none := by
  have hfive : ∀ s : Scheme, 5 ≤ s.text.length := by
    intro s
    cases s <;> decide
  have hne : other.text.take 5 ≠ (scheme.text.take 5).map lower := by
    revert h
    cases scheme <;> cases other <;> decide
  refine if_neg fun heq => hne ?_
  rw [← heq, ← List.map_take, List.take_take, min_eq_left (hfive other),
    List.take_append_of_le_length (hfive scheme)]

/-- The origin of a text that starts with a scheme. -/
theorem originOf_scheme (scheme : Scheme) {rest : Text} :
    originOf (scheme.text ++ rest) = (authorityOf rest).map (scheme, ·) := by
  have hself : ((scheme.strip (scheme.text ++ rest)).bind fun rest => (authorityOf rest).map (scheme, ·)) =
      (authorityOf rest).map (scheme, ·) := by
    rw [strip_self]
    rfl
  have hother : ∀ other, other ≠ scheme →
      ((other.strip (scheme.text ++ rest)).bind fun rest => (authorityOf rest).map (other, ·)) = none := by
    intro other hne
    rw [strip_other hne]
    rfl
  unfold originOf
  cases scheme <;> cases h : authorityOf rest <;>
    simp [hself, hother, h]

theorem originOf_some {text authority : Text} {scheme : Scheme} (h : originOf text = some (scheme, authority)) :
    authorityOf (text.drop scheme.text.length) = some authority := by
  obtain ⟨s, -, hs⟩ := List.exists_of_findSome?_eq_some h
  obtain ⟨rest, hstrip, hrest⟩ := Option.bind_eq_some_iff.mp hs
  obtain ⟨a, ha, heq⟩ := Option.map_eq_some_iff.mp hrest
  cases heq
  unfold Scheme.strip at hstrip
  split at hstrip
  · cases hstrip
    exact ha
  · cases hstrip

/-- What is parsed has the origin that was matched. -/
theorem originOf_candidate {trimmed authority : Text} {scheme : Scheme}
    (h : originOf trimmed = some (scheme, authority)) :
    ∃ s, originOf (candidateOf scheme trimmed) = some (s, authority) := by
  have hrest := originOf_some h
  unfold candidateOf
  split
  · exact ⟨.wss, by rw [originOf_scheme, hrest]; rfl⟩
  · exact ⟨.ws, by rw [originOf_scheme, hrest]; rfl⟩
  · exact ⟨scheme, h⟩

variable {parse : UrlParser}

/-- A URL of this form is normal. -/
theorem normalize_origin (scheme : Scheme) {protocol host : Text}
    (hscheme : scheme = .ws ∨ scheme = .wss) (htext : scheme.text = protocol ++ ascii "//")
    (hprotocol : protocol = ascii "ws:" ∨ protocol = ascii "wss:") (hhost : isAuthority host = true)
    (hparse : parse (scheme.text ++ host) = some ⟨protocol, host, ascii "/", [], []⟩) :
    normalizeGatewayServerUrl parse (scheme.text ++ host) = some (scheme.text ++ host) := by
  have hschemeUnits : scheme.text.all (!isSpace ·) = true := by
    rcases hscheme with rfl | rfl <;> decide
  have hplain : ∀ unit ∈ scheme.text ++ host, isSpace unit = false := by
    intro unit hu
    rcases List.mem_append.mp hu with hu | hu
    · simpa using List.all_eq_true.mp hschemeUnits unit hu
    · exact (plain_of_authority ((authority_units hhost).2 unit hu)).1
  have horigin : originOf (scheme.text ++ host) = some (scheme, host) := by
    rw [originOf_scheme, authorityOf_authority hhost]
    rfl
  have hcandidate : candidateOf scheme (scheme.text ++ host) = scheme.text ++ host := by
    rcases hscheme with rfl | rfl <;> rfl
  unfold normalizeGatewayServerUrl normalizeTrimmed
  rw [Js.trim_plain hplain]
  simp only [horigin, hhost, hcandidate, hparse, Option.bind_some, Bool.not_true, Bool.false_eq_true,
    if_false]
  unfold serverUrlOf
  rcases hprotocol with rfl | rfl <;> simp [htext]

/-- What is normalized is normal. -/
theorem normalizeGatewayServerUrl_canonical (hparse : KeepsOrigins parse)
    {input out : Text} (h : normalizeGatewayServerUrl parse input = some out) :
    normalizeGatewayServerUrl parse out = some out := by
  unfold normalizeGatewayServerUrl normalizeTrimmed at h
  split at h
  · cases h
  next scheme authority horigin =>
  split at h
  · cases h
  next hauthority =>
  have hauthority : isAuthority authority = true := by simpa using hauthority
  obtain ⟨url, hurl, hout⟩ := Option.bind_eq_some_iff.mp h
  obtain ⟨s, hs⟩ := originOf_candidate horigin
  unfold serverUrlOf at hout
  split at hout
  · cases hout
  next hprotocol =>
  split at hout
  · cases hout
  split at hout
  · cases hout
  cases hout
  have hprotocol : url.protocol = ascii "ws:" ∨ url.protocol = ascii "wss:" := by
    simp only [Bool.and_eq_true, decide_eq_true_eq, not_and_or, not_not] at hprotocol
    exact hprotocol
  obtain ⟨hhost, hback⟩ := hparse _ s authority url hs hauthority hurl hprotocol
  rcases hprotocol with hp | hp
  · rw [hp] at hback ⊢
    exact normalize_origin .ws (.inl rfl) rfl (.inl rfl) hhost hback
  · rw [hp] at hback ⊢
    exact normalize_origin .wss (.inr rfl) rfl (.inr rfl) hhost hback

theorem textOf_mem {name value : Text} {members : List (Text × Json N)} (once : (Js.keys members).Nodup)
    (h : (name, Json.str value) ∈ members) : textOf name members = some value := by
  unfold textOf
  rw [(Js.property_eq_some once).mpr h]
  rfl

variable {target : GatewayTransportTarget}

theorem normalizeFields_canonical (hparse : KeepsOrigins parse) {serverUrl deviceId : Text}
    (h : normalizeFields parse serverUrl deviceId = some target) :
    normalizeFields parse target.serverUrl target.deviceId = some target := by
  obtain ⟨url, hurl, htarget⟩ := Option.bind_eq_some_iff.mp h
  split at htarget
  · cases htarget
  next hdevice =>
  cases htarget
  unfold normalizeFields
  rw [normalizeGatewayServerUrl_canonical hparse hurl, Option.bind_some, Js.trim_trim, if_neg hdevice]

/-- What is normalized is normal. -/
theorem normalizeGatewayTarget_canonical (hparse : KeepsOrigins parse) {raw : Json N}
    (h : normalizeGatewayTarget parse raw = some target) :
    normalizeGatewayTarget parse (target.toJson : Json N) = some target := by
  unfold normalizeGatewayTarget at h
  split at h
  · obtain ⟨serverUrl, -, h⟩ := Option.bind_eq_some_iff.mp h
    obtain ⟨deviceId, -, h⟩ := Option.bind_eq_some_iff.mp h
    have hcanonical := normalizeFields_canonical hparse h
    have once : (Js.keys [(serverUrlKey, (Json.str target.serverUrl : Json N)),
        (deviceIdKey, .str target.deviceId)]).Nodup :=
      Js.once_of [serverUrlKey, deviceIdKey] rfl (by decide)
    unfold normalizeGatewayTarget GatewayTransportTarget.toJson
    rw [Json.view_obj]
    simp only [textOf_mem once (.head _), textOf_mem once (.tail _ (.head _)), Option.bind_some]
    exact hcanonical
  · cases h

end PocketShell.SavedHosts
