import PocketShell.Js.Number
import PocketShell.Js.RegExp
import PocketShell.Js.Uri

/-!
# Redaction of diagnostic reports

`src/diagnosticReports.ts`: what every stored, shown or shared report passes through.

* `rules`, `redactDiagnosticText`: the chain of replacements for free text.
* `redactCrashReport`, `legacyCrashReport`: an imported crash report, line by line.
* `formatDiagnosticReportsForSharing`: the text of a bundle.

`Engine` stands for the parts of the language that depend on Unicode tables or on the clock's zone.
-/

namespace PocketShell.Diagnostics

open Js (Text ascii RegExp Match isSpace isWordUnit isDigit replaceAll join)

structure Engine where
  /-- How the flag `i` compares two units. -/
  canonicalize : UInt16 → UInt16
  /-- `Date.parse`, `none` for a value that is not finite. -/
  dateParse : Text → Option Int
  /-- `new Date(y, mo - 1, d, h, mi, s, ms).getTime()` in the device's zone, if it is finite. -/
  localTime : List Nat → Option Int
  toISOString : Int → Text

/-- Terms to blank wherever they appear. -/
structure RedactionOptions where
  knownTerms : List Text := []

/-! ## 1. Classes -/

/-- The other case of a letter of the Latin alphabet, which is what the flag `i` adds to a word of
the patterns below. -/
def lower (unit : UInt16) : UInt16 := if 0x41 ≤ unit && unit ≤ 0x5a then unit + 0x20 else unit

/-- A word in any case. -/
def word (s : String) : RegExp := .all ((ascii s).map fun u => .unit fun v => lower v = lower u)

/-- `[A-Za-z0-9]` -/
def isAlphanumeric (unit : UInt16) : Bool := isWordUnit unit && unit ≠ 0x5f

/-- `[a-z0-9]` -/
def isLowerAlphanumeric (unit : UInt16) : Bool := isDigit unit || 0x61 ≤ unit && unit ≤ 0x7a

def isHex (unit : UInt16) : Bool := isDigit unit || 0x61 ≤ lower unit && lower unit ≤ 0x66

def isLetter (unit : UInt16) : Bool := 0x61 ≤ lower unit && lower unit ≤ 0x7a

def quoteMark : RegExp := .inClass (ascii "\"'")

/-- `[^\s…]` -/
def noSpaceNor (units : Text) : RegExp := .unit fun u => !isSpace u && !units.contains u

/-- `"[^"]*"|'[^']*'` -/
def quoted : List RegExp :=
  [.all [.literal (ascii "\""), .star (.notInClass (ascii "\"")), .literal (ascii "\"")],
    .all [.literal (ascii "'"), .star (.notInClass (ascii "'")), .literal (ascii "'")]]

/-- Words with `[_-]?` between them. -/
def keyWords : List String → RegExp
  | [] => .empty
  | [s] => word s
  | s :: rest => .all [word s, .optional (.inClass (ascii "_-")), keyWords rest]

def SECRET_KEYS : RegExp :=
  .oneOf ([["password"], ["passphrase"], ["passwd"], ["pwd"], ["token"], ["access", "token"],
    ["refresh", "token"], ["id", "token"], ["secret"], ["client", "secret"], ["api", "key"],
    ["apikey"], ["private", "key"], ["credential"], ["cookie"], ["session", "token"]].map keyWords)

def IDENTITY_KEYS : RegExp :=
  .oneOf ([["host"], ["hostname"], ["host", "alias"], ["alias"], ["user"], ["username"], ["login"],
    ["session"], ["session", "name"], ["workspace"], ["directory"], ["cwd"], ["path"],
    ["home"]].map keyWords)

/-- File extensions that make a dotted token a file name, not a host. -/
def FILE_EXTENSIONS : List Text :=
  ["js", "mjs", "cjs", "ts", "vue", "java", "kt", "css", "html", "json", "txt", "png", "xml", "map",
    "wasm", "so", "jsonl", "log", "md", "py", "sh"].map ascii

/-! ## 2. Rules of free text -/

/-- A marker line of a key: `-----BEGIN [A-Z0-9 ]*PRIVATE KEY-----`. -/
def isMarkerUnit (unit : UInt16) : Bool := 0x41 ≤ unit && unit ≤ 0x5a || isDigit unit || unit = 0x20

def marker (side : String) : RegExp :=
  .all [.literal (ascii side), .star (.unit isMarkerUnit), .literal (ascii "PRIVATE KEY-----")]

def beginMarker : RegExp := marker "-----BEGIN "

def endMarker : RegExp := marker "-----END "

def blockRule : RegExp := .all [beginMarker, .lazyStar .any, .oneOf [endMarker, .finish]]

def blanked (v : Text) : Text :=
  if (ascii "\"").isPrefixOf v then ascii "\"[redacted]\""
  else if (ascii "'").isPrefixOf v then ascii "'[redacted]'"
  else ascii "[redacted]"

/-- `"key": value` with the quote of the key in group 1, the key in 2, what separates in 3. -/
def pair (m : Match) : Text := m.group 1 ++ m.group 2 ++ m.group 1 ++ m.group 3 ++ blanked (m.group 4)

def authorizationRule : RegExp :=
  .all [.boundary, .group 1 (.oneOf [word "authorization", word "proxy-authorization"]),
    .group 2 (.all [.optional quoteMark, .star .space, .inClass (ascii ":="), .star .space,
      .optional quoteMark]),
    .optional (.all [.oneOf [word "bearer", word "basic", word "token", word "digest"],
      .plus .space]),
    .plus (noSpaceNor (ascii "\"',;\x7d"))]

def bearerRule : RegExp :=
  .all [.boundary, .group 1 (.oneOf [word "bearer", word "basic"]), .plus .space,
    .atLeast (.unit fun u => isAlphanumeric u || (ascii "._~+/=-").contains u) 8]

def tokenRule : RegExp :=
  .all [.boundary,
    .oneOf [.all [.literal (ascii "gh"), .inClass (ascii "pousr"), .literal (ascii "_")],
      .literal (ascii "github_pat_"), .literal (ascii "glpat-"),
      .all [.literal (ascii "xox"), .inClass (ascii "abprs"), .literal (ascii "-")],
      .literal (ascii "sk-")],
    .atLeast (.unit fun u => isWordUnit u || u = 0x2d) 8]

def secretPairRule : RegExp :=
  .all [.group 1 (.optional quoteMark), .boundary, .group 2 SECRET_KEYS, .back 1,
    .group 3 (.all [.star .space, .inClass (ascii ":="), .star .space]),
    .group 4 (.oneOf (quoted ++ [.plus (noSpaceNor (ascii ",;\x7d"))]))]

def secretWordRule : RegExp :=
  .all [.boundary, .group 1 SECRET_KEYS, .group 2 (.plus .space), .notAhead (word "[redacted"),
    .plus (noSpaceNor (ascii ",;\x7d"))]

def identityRule : RegExp :=
  .all [.group 1 quoteMark, .group 2 IDENTITY_KEYS, .back 1,
    .group 3 (.all [.star .space, .literal (ascii ":"), .star .space]), .group 4 (.oneOf quoted)]

def hostPhraseRule : RegExp :=
  .all [.boundary,
    .group 1 (.oneOf [.all [word "host", .optional (word "name")], word "resolve host",
      word "connect to", word "connecting to"]),
    .group 2 (.all [.star .space, .optional (.inClass (ascii "=:")), .star .space]),
    .group 3 quoteMark, .plus (.notInClass (ascii "\"'")), .back 3]

/-- Between the typographic quotes. -/
def nameRule : RegExp :=
  .all [.inClass [0x201c, 0xab], .star (.notInClass [0x201d, 0xbb]), .inClass [0x201d, 0xbb]]

def homeRule : RegExp :=
  .all [.oneOf (["/home/", "/users/", "/var/home/", "/root/", "/Users/"].map fun s =>
      .literal (ascii s)), .plus (noSpaceNor (ascii ":)'\""))]

def tildeRule : RegExp := .all [.literal (ascii "~/"), .plus (noSpaceNor (ascii ":)'\""))]

def urlRule : RegExp :=
  .all [.boundary, .unit isLetter,
    .star (.unit fun u => isAlphanumeric u || (ascii "+.-").contains u), .literal (ascii "://"),
    .plus (noSpaceNor (ascii "/\"'<>"))]

def isAddressUnit (unit : UInt16) : Bool := isWordUnit unit || unit = 0x2d

def userRule : RegExp :=
  .all [.boundary, .plus (.unit fun u => isWordUnit u || (ascii ".+-").contains u),
    .literal (ascii "@"), .plus (.unit isAddressUnit),
    .star (.all [.literal (ascii "."), .plus (.unit isAddressUnit)]), .boundary]

def ipv4Rule : RegExp :=
  .all [.boundary, .times (.unit isDigit) 1 2,
    .times (.all [.literal (ascii "."), .times (.unit isDigit) 1 2]) 3 0,
    .optional (.all [.literal (ascii ":"), .plus (.unit isDigit)]), .boundary]

def errnoRule : RegExp :=
  .all [.boundary,
    .group 1 (.oneOf (["ECONNREFUSED", "ENOTFOUND", "EHOSTUNREACH", "ETIMEDOUT", "ECONNRESET",
      "EAI_AGAIN"].map fun s => .literal (ascii s))),
    .group 2 (.plus .space),
    .plus (.unit fun u => isAlphanumeric u || (ascii ".-").contains u),
    .optional (.group 4 (.all [.literal (ascii ":"), .plus (.unit isDigit)]))]

/-- `url.slice(0, url.indexOf('://') + 3)`. The scheme holds no colon. -/
def scheme (url : Text) : Text := url.takeWhile (· ≠ 0x3a) ++ ascii "://"

/-- The replacements that follow the one of key blocks, in their order. -/
def rules : List (RegExp × (Match → Text)) :=
  [(authorizationRule, fun m => m.group 1 ++ m.group 2 ++ ascii "[redacted]"),
    (bearerRule, fun m => m.group 1 ++ ascii " [redacted]"),
    (tokenRule, fun _ => ascii "[redacted-token]"),
    (secretPairRule, pair),
    (secretWordRule, fun m => m.group 1 ++ m.group 2 ++ ascii "[redacted]"),
    (identityRule, pair),
    (hostPhraseRule, fun m =>
      m.group 1 ++ m.group 2 ++ m.group 3 ++ ascii "<host>" ++ m.group 3),
    (nameRule, fun _ => 0x201c :: ascii "<name>" ++ [0x201d]),
    (homeRule, fun _ => ascii "<path>"),
    (tildeRule, fun _ => ascii "<path>"),
    (urlRule, fun m => scheme m.whole ++ ascii "<host>"),
    (userRule, fun _ => ascii "<user@host>"),
    (ipv4Rule, fun _ => ascii "<address>"),
    (errnoRule, fun m => m.group 1 ++ m.group 2 ++ ascii "<host>" ++ m.group 4)]

def keyRedacted : Text := ascii "<private-key-redacted>"

def redactKeyBlocks (text : Text) : Text := replaceAll blockRule (fun _ => keyRedacted) text

/-! ## 3. Addresses, host names and known terms -/

def ipv6Rule : RegExp :=
  .all [.notBehind fun u => isWordUnit u || u = 0x3a,
    .times (.seq (.times (.unit isHex) 0 4) (.literal (ascii ":"))) 2 5,
    .times (.unit isHex) 0 4,
    .optional (.seq (.literal (ascii "%")) (.plus (.unit isWordUnit))),
    .notAhead (.unit fun u => isWordUnit u || u = 0x3a)]

def ipv6Replacement (m : Match) : Text :=
  if ascii "::" <:+: m.whole ∧ m.whole.any isHex then ascii "<address>"
  else if 2 ≤ m.whole.count 0x3a ∧ m.whole.any fun u => isHex u && !isDigit u then ascii "<address>"
  else m.whole

def redactIpv6 (text : Text) : Text := replaceAll ipv6Rule ipv6Replacement text

/-- A label of a name: it neither starts nor ends with a dash. -/
def label : RegExp :=
  .seq (.unit isLowerAlphanumeric)
    (.optional (.seq (.star (.unit fun u => isLowerAlphanumeric u || u = 0x2d))
      (.unit isLowerAlphanumeric)))

def hostNameRule : RegExp :=
  .all [.boundary, label, .plus (.seq (.literal (ascii ".")) label), .boundary]

def hostNameReplacement (m : Match) : Text :=
  let last := m.whole.rtakeWhile (· ≠ 0x2e)
  let next := m.after.take 2
  if !(last.all fun u => 0x61 ≤ u && u ≤ 0x7a) || last.length < 2 || 24 < last.length then m.whole
  else if FILE_EXTENSIONS.contains last then m.whole
  else if next.head? = some 0x2e && next.tail.any (fun u => 0x41 ≤ u && u ≤ 0x5a) ||
      next.head? = some 0x28 then m.whole
  else ascii "<host>"

def redactHostNames (text : Text) : Text := replaceAll hostNameRule hostNameReplacement text

/-- `[...term]` -/
def characters : Text → List Text
  | [] => []
  | high :: low :: rest =>
    if Js.isHigh high && Js.isLow low then [high, low] :: characters rest
    else [high] :: characters (low :: rest)
  | [unit] => [[unit]]

/-- The code of a character. A half of a pair that stands alone is encoded as U+FFFD. -/
def characterCode : Text → Nat
  | [unit] => if Js.isHigh unit || Js.isLow unit then 0xfffd else unit.toNat
  | high :: low :: _ => Js.pairCode high low
  | [] => 0

def percentEncoded (char : Text) : Text :=
  (Js.utf8Code (characterCode char)).flatMap fun b =>
    [0x25, Js.hexDigit (b.toNat / 16), Js.hexDigit (b.toNat % 16)]

namespace Engine

variable (engine : Engine)

def folded (text : Text) : RegExp :=
  .all (text.map fun u => .unit fun v => engine.canonicalize v = engine.canonicalize u)

/-- Each character literal or percent-encoded, in any case. -/
def knownTermPattern (term : Text) : RegExp :=
  .all ((characters term).map fun char =>
    .oneOf [engine.folded char, engine.folded (percentEncoded char)])

def redactTerm (text term : Text) : Text :=
  if (Js.trim term).length < 3 then text
  else replaceAll (engine.knownTermPattern (Js.trim term)) (fun _ => ascii "<host>") text

/-- What follows the rule of key blocks. -/
def redactRest (text : Text) (options : RedactionOptions) : Text :=
  options.knownTerms.foldl engine.redactTerm
    (redactHostNames (redactIpv6 (rules.foldl (fun text rule => replaceAll rule.1 rule.2 text) text)))

def redactDiagnosticText (value : Text) (options : RedactionOptions) : Text :=
  engine.redactRest (redactKeyBlocks value) options

end Engine

/-! ## 4. Crash reports -/

def CONTEXT_PREFIXES : List Text :=
  ["Host:", "Hostname:", "User:", "Session:", "Directory:", "Action:"].map ascii

/-- A line without the carriage return before the line feed that ended it. -/
def dropReturn (line : Text) : Text := if line.getLast? = some 0x0d then line.dropLast else line

/-- `split(/\r?\n/)`. The last line was not ended. -/
def splitLines (text : Text) : List Text :=
  let lines := text.splitOn 0x0a
  lines.dropLast.map dropReturn ++ lines.getLast?.toList

def upToColon (text : Text) : Text := text.takeWhile (· ≠ 0x3a)

namespace Engine

variable (engine : Engine) (options : RedactionOptions)

/-- What stands for a line, given whether it follows the line `Exception`. -/
def redactLine (inException : Bool) (line : Text) : Text :=
  if line = ascii "Exception" then line
  else if inException then engine.redactDiagnosticText line options
  else if CONTEXT_PREFIXES.any (·.isPrefixOf line) then upToColon line ++ ascii ": [redacted]"
  else if (ascii "Exception summary:").isPrefixOf line then
    let value := Js.trim (line.drop (ascii "Exception summary:").length)
    ascii "Exception summary: " ++ engine.redactDiagnosticText (upToColon value) options
  else if (ascii "Top frame:").isPrefixOf line then ascii "Top frame: [redacted]"
  else engine.redactDiagnosticText line options

def redactLines (inException : Bool) : List Text → List Text
  | [] => []
  | line :: rest =>
    engine.redactLine options inException line ::
      redactLines (inException || line = ascii "Exception") rest

def redactCrashReport (report : Text) : Text :=
  Js.trimEnd (join [0x0a] (engine.redactLines options false (splitLines report))) ++ [0x0a]

end Engine

/-! ## 5. Imported reports and sharing -/

inductive DiagnosticReportSource
  | runtimeError
  | nativeCrash
  | importedCrash
  | importedHistory

def DiagnosticReportSource.text : DiagnosticReportSource → Text
  | .runtimeError => ascii "runtime-error"
  | .nativeCrash => ascii "native-crash"
  | .importedCrash => ascii "imported-crash"
  | .importedHistory => ascii "imported-history"

structure DiagnosticReport where
  id : Text
  source : DiagnosticReportSource
  /-- Epoch ms when the failure happened, or `none` when the source did not say. -/
  atMs : Option Int
  title : Text
  body : Text

def MAX_DIAGNOSTIC_REPORT_BYTES : Nat := 64 * 1024

def bounded (text : Text) : Text :=
  if text.length ≤ MAX_DIAGNOSTIC_REPORT_BYTES then text
  else text.take MAX_DIAGNOSTIC_REPORT_BYTES ++ 0x0a :: ascii "[report truncated]" ++ [0x0a]

def timestampPattern : RegExp :=
  .all [.group 1 (.times (.unit isDigit) 4 0), .group 2 (.times (.unit isDigit) 2 0),
    .group 3 (.times (.unit isDigit) 2 0), .literal (ascii "-"),
    .group 4 (.times (.unit isDigit) 2 0), .group 5 (.times (.unit isDigit) 2 0),
    .group 6 (.times (.unit isDigit) 2 0), .literal (ascii "-"),
    .group 7 (.times (.unit isDigit) 3 0)]

def generatedPattern : RegExp :=
  .all [.lineStart, .literal (ascii "Generated:"), .star .space,
    .group 1 (.plus (.unit fun u => !isSpace u))]

def summaryPattern : RegExp :=
  .all [.lineStart, .literal (ascii "Exception summary:"), .star .space,
    .group 1 (.plus (.notInClass [0x3a, 0x0d, 0x0a]))]

/-- `/^[A-Za-z_$][\w$.]*$/` -/
def isClassName (name : Text) : Bool :=
  name.head?.any (fun u => isLetter u || u = 0x5f || u = 0x24) &&
    name.tail.all fun u => isWordUnit u || u = 0x24 || u = 0x2e

def className (text : Text) : Text :=
  match Js.exec summaryPattern text with
  | none => ascii "crash"
  | some m => if isClassName (Js.trim (m.group 1)) then Js.trim (m.group 1) else ascii "crash"

namespace Engine

variable (engine : Engine) (options : RedactionOptions)

def parseLegacyCrashReportTimestamp (fileName : Text) : Option Int :=
  match Js.exec timestampPattern fileName with
  | none => none
  | some m => engine.localTime ([1, 2, 3, 4, 5, 6, 7].map fun n => Js.readNatural (m.group n))

def generatedAt (text : Text) : Option Int :=
  (Js.exec generatedPattern text).bind fun m => engine.dateParse (m.group 1)

def legacyCrashReport (id relativePath text : Text) : DiagnosticReport where
  id := id
  source := .importedCrash
  atMs := (engine.generatedAt text).or (engine.parseLegacyCrashReportTimestamp relativePath)
  title := ascii "0.5.x crash report: " ++ className text
  body := bounded (engine.redactCrashReport options text)

def reportSection (report : DiagnosticReport) : Text :=
  join [0x0a]
    [ascii "=== " ++ report.title,
      ascii "Recorded: " ++ (report.atMs.map engine.toISOString).getD (ascii "unknown"),
      ascii "Source: " ++ report.source.text,
      [],
      Js.trimEnd (engine.redactDiagnosticText report.body options)]

def formatDiagnosticReportsForSharing (reports : List DiagnosticReport) (exportedAt : Int) : Text :=
  join [0x0a]
    ([ascii "PocketShell diagnostics export (" ++ engine.toISOString exportedAt ++ ascii ")",
      ascii "Review before sharing. Host names, paths and credentials are redacted; terminal excerpts may remain.",
      []] ++ reports.map (engine.reportSection options) ++ [[]])

end Engine

end PocketShell.Diagnostics
