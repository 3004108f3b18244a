import PocketShell.Js.Number
import PocketShell.PortForward.Policy
import PocketShell.SshConfig.Core

/-!
# The scan for listening ports

`portScanner.ts` and `remotePortScan.ts`: one command prints what four listings say of the listening
sockets of a host, each after a line with its name. A second one asks where their processes run.

* `parseSsTln`, `parseSsTlnp`, `parseNetstatTlnp`: the rows of a listing.
* `mergePortScanSections`: the ports of one listing, with the processes the others know.
* `scanRemotePorts`: both commands, over any answers.
-/

namespace PocketShell.PortScan

open Js (Text ascii property assign keys)
open SshConfig (isDigit words isLineEnd)

structure RemotePort where
  port : Nat
  process : Option Text
  pid : Option Nat
  cwd : Option Text
deriving DecidableEq

/-- What a natural number is written with. -/
def isNumeralUnit (unit : UInt16) : Bool := isDigit unit || unit = 0x2e || unit = 0x2b || unit = 0x65

/-- What the language does with numbers and letters. -/
structure Platform where
  toUpperCase : Text → Text
  /-- The double nearest to a number, `none` when it is infinite. -/
  double : Nat → Option Nat
  double_exact : ∀ n ≤ 2 ^ 53, double n = some n
  double_large : ∀ n, 2 ^ 53 ≤ n → ∀ m ∈ double n, 2 ^ 53 ≤ m
  /-- `String(n)` -/
  numberText : Nat → Text
  numberText_units : ∀ n, numberText n ≠ [] ∧ (numberText n).all isNumeralUnit = true

/-! ## 1. Lines and tokens -/

def dropReturn (line : Text) : Text := if line.getLast? = some 0x0d then line.dropLast else line

/-- `split(/\r?\n/)`. The last line was not ended. -/
def linesOf (text : Text) : List Text :=
  let lines := text.splitOn 0x0a
  lines.dropLast.map dropReturn ++ lines.getLast?.toList

/-- `tokens[i] ?? ''` -/
def token (tokens : List Text) (i : Nat) : Text := (tokens[i]?).getD []

/-- `parseInt(digits, 10)`, where an infinite number is none. -/
def Platform.readNumber (platform : Platform) (digits : Text) : Option Nat := platform.double (Js.readNatural digits)

/-- A number above zero, or `null`. -/
def Platform.pidOf (platform : Platform) (digits : Text) : Option Nat := (platform.readNumber digits).filter (0 < ·)

def MAX_PORT : Nat := 65535

/-- The port of a listen address: the digits after its last colon. -/
def extractPort (platform : Platform) (addr : Text) : Option Nat :=
  if (0x3a : UInt16) ∈ addr then
    let tail := addr.rtakeWhile (· ≠ 0x3a)
    if tail ≠ [] ∧ tail.all isDigit then (platform.readNumber tail).filter (· ≤ MAX_PORT) else none
  else none

/-! ## 2. Processes -/

/-- The first name between quotation marks. -/
def quoted : Text → Option Text
  | [] => none
  | unit :: rest =>
    let name := rest.takeWhile (· ≠ 0x22)
    if unit = 0x22 ∧ name ≠ [] ∧ name.length < rest.length then some name else quoted rest

/-- What follows a number and a slash up to the end of the line. -/
def slashed (text : Text) : Option Text :=
  match text.dropWhile isDigit with
  | 0x2f :: rest => if text.takeWhile isDigit ≠ [] ∧ rest ≠ [] ∧ rest.all (!isLineEnd ·) then some rest else none
  | _ => none

def isNameEnd (unit : UInt16) : Bool := Js.isSpace unit || unit = 0x3a || unit = 0x2c

/-- The first number after `pid=`. -/
def byKeyword : Text → Option Text
  | [] => none
  | unit :: rest =>
    let digits := (rest.drop 3).takeWhile isDigit
    if (ascii "pid=").isPrefixOf (unit :: rest) ∧ digits ≠ [] then some digits else byKeyword rest

/-- A number at the start, before a slash. -/
def byPrefix (text : Text) : Option Text :=
  let digits := text.takeWhile isDigit
  if digits ≠ [] ∧ (text.dropWhile isDigit).head? = some 0x2f then some digits else none

/-- The first number after a slash, before another one or the end. -/
def byInfix : Text → Option Text
  | [] => none
  | unit :: rest =>
    let digits := rest.takeWhile isDigit
    let after := (rest.dropWhile isDigit).head?
    if unit = 0x2f ∧ digits ≠ [] ∧ (after = none ∨ after = some 0x2f) then some digits else byInfix rest

structure ProcessInfo where
  name : Option Text
  pid : Option Nat

def parseProcessInfo (platform : Platform) (blob : Text) : ProcessInfo :=
  let text := Js.trim blob
  if text = [] ∨ text = ascii "-" then ⟨none, none⟩
  else
    let name := match quoted text with
      | some name => some name
      | none => ((slashed text).map (·.takeWhile (!isNameEnd ·))).filter (· ≠ [])
    let raw := (byKeyword text).or ((byPrefix text).or (byInfix text))
    ⟨name, raw.bind platform.pidOf⟩

/-! ## 3. Listings -/

def truthy (text : Option Text) : Bool := text.any (· ≠ [])

/-- What a second row of a port adds to the first. -/
def RemotePort.fill (existing p : RemotePort) : RemotePort :=
  { existing with
    process := if !truthy existing.process && truthy p.process then p.process else existing.process
    pid := existing.pid.or p.pid
    cwd := if !truthy existing.cwd && truthy p.cwd then p.cwd else existing.cwd }

def seePort (seen : List (Nat × RemotePort)) (p : RemotePort) : List (Nat × RemotePort) :=
  match property p.port seen with
  | some existing => assign p.port (existing.fill p) seen
  | none => assign p.port p seen

def dedupe (ports : List RemotePort) : List RemotePort :=
  ((ports.foldl seePort []).map Prod.snd).mergeSort fun a b => a.port ≤ b.port

/-- The rows of a listing: `row` reads one that is not empty, or skips it. -/
def rowsOf (row : Text → Option RemotePort) (stdout : Text) : List RemotePort :=
  ((linesOf stdout).map Js.trim).filterMap fun line => if line = [] then none else row line

def isSsHeader (line : Text) : Bool := (ascii "State").isPrefixOf line || (ascii "Netid").isPrefixOf line

/-- A row of `ss`; `attributed` tells whether the processes are listed. -/
def ssRow (platform : Platform) (attributed : Bool) (line : Text) : Option RemotePort :=
  let tokens := words line
  -- The header may run its last two columns together, so that it is known by its first word.
  if isSsHeader line ∨ tokens.length < 4 then none
  else (extractPort platform (token tokens 3)).map fun port =>
    if attributed then
      let info := parseProcessInfo platform (Js.join [0x20] (tokens.drop 5))
      ⟨port, info.name, info.pid, none⟩
    else ⟨port, none, none, none⟩

def parseSsTlnp (platform : Platform) (stdout : Text) : List RemotePort := dedupe (rowsOf (ssRow platform true) stdout)

def parseSsTln (platform : Platform) (stdout : Text) : List RemotePort := dedupe (rowsOf (ssRow platform false) stdout)

/-- A row of the Unix `netstat`. The process is all that follows the state. -/
def netstatRow (platform : Platform) (line : Text) : Option RemotePort :=
  let tokens := words line
  match tokens.findIdx? fun t => platform.toUpperCase t = ascii "LISTEN" with
  | none => none
  | some listenAt =>
    if listenAt < 3 then none
    else (extractPort platform (token tokens 3)).map fun port =>
      -- The name of the program may have spaces.
      let info := parseProcessInfo platform (Js.join [0x20] (tokens.drop (listenAt + 1)))
      ⟨port, info.name, info.pid, none⟩

def parseNetstatTlnp (platform : Platform) (stdout : Text) : List RemotePort :=
  dedupe (rowsOf (netstatRow platform) stdout)

/-! ## 4. Sections -/

def isSectionUnit (unit : UInt16) : Bool := 0x41 ≤ unit && unit ≤ 0x5a || isDigit unit || unit = 0x5f

/-- The name between the brackets of a line `<<<NAME>>>`. -/
def markerOf (line : Text) : Option Text :=
  let name := (line.drop 3).rdrop 3
  if line = ascii "<<<" ++ name ++ ascii ">>>" ∧ name ≠ [] ∧ name.all isSectionUnit then some name else none

structure Sections where
  sections : List (Text × Text)
  current : Option Text
  buffer : List Text

def Sections.flush (s : Sections) : List (Text × Text) :=
  match s.current with
  | some name => assign name (Js.join [0x0a] s.buffer) s.sections
  | none => s.sections

def Sections.line (s : Sections) (rawLine : Text) : Sections :=
  match markerOf (Js.trim rawLine) with
  | some name => ⟨s.flush, some name, []⟩
  | none => if s.current.isSome then { s with buffer := s.buffer ++ [rawLine] } else s

def splitSections (stdout : Text) : List (Text × Text) :=
  ((linesOf stdout).foldl Sections.line ⟨[], none, []⟩).flush

def SECTION_SS_TLN : Text := ascii "PS_SS_TLN"

def SECTION_SS_TLNP : Text := ascii "PS_SS_TLNP"

def SECTION_NETSTAT_TLNP : Text := ascii "PS_NETSTAT_TLNP"

def SECTION_NETSTAT_TLN : Text := ascii "PS_NETSTAT_TLN"

/-- What `parse` reads of a section that is there and not empty. -/
def sectionRows (sections : List (Text × Text)) (parse : Text → List RemotePort) (name : Text) : List RemotePort :=
  match property name sections with
  | some text => if text = [] then [] else parse text
  | none => []

/-- The listings, each after the one that is asked before it. -/
def listings (platform : Platform) (sections : List (Text × Text)) : List (List RemotePort) :=
  [sectionRows sections (parseSsTln platform) SECTION_SS_TLN,
    sectionRows sections (parseNetstatTlnp platform) SECTION_NETSTAT_TLN,
    sectionRows sections (parseNetstatTlnp platform) SECTION_NETSTAT_TLNP,
    sectionRows sections (parseSsTlnp platform) SECTION_SS_TLNP]

/-- The rows that know a process, the later ones over the earlier. -/
def attributed (platform : Platform) (sections : List (Text × Text)) : List RemotePort :=
  (sectionRows sections (parseNetstatTlnp platform) SECTION_NETSTAT_TLNP ++
    sectionRows sections (parseSsTlnp platform) SECTION_SS_TLNP).filter fun row =>
      row.process.isSome || row.pid.isSome

def attribution (rows : List RemotePort) : List (Nat × RemotePort) :=
  rows.foldl (fun known row => assign row.port row known) []

def RemotePort.attribute (known : List (Nat × RemotePort)) (port : RemotePort) : RemotePort :=
  match property port.port known with
  | none => port
  | some extra => { port with process := port.process.or extra.process, pid := port.pid.or extra.pid }

def mergePortScanSections (platform : Platform) (stdout : Text) : List RemotePort :=
  let sections := splitSections stdout
  let ports := ((listings platform sections).find? (· ≠ [])).getD []
  ports.map (RemotePort.attribute (attribution (attributed platform sections)))

/-! ## 5. The scan -/

structure PortScanResult where
  ok : Bool
  ports : List RemotePort
  error : Option Text

structure SshConnectionRef where
  connectionId : Text
  generationId : Text
deriving DecidableEq

structure ExecRequest where
  connection : SshConnectionRef
  requestId : Text
  command : Text
  timeoutMs : Int
deriving DecidableEq

structure SshExecResult where
  requestId : Text
  connection : SshConnectionRef
  stdout : Text
  stderr : Text
  exitCode : Option Int
  timedOut : Bool

def failed (error : Text) : PortScanResult := ⟨false, [], some error⟩

def exitText (exitCode : Option Int) : Text :=
  match exitCode with
  | none => ascii "null"
  | some code => Js.decimal code

def parsePortScanResult (platform : Platform) (result : SshExecResult) : PortScanResult :=
  if result.timedOut then failed (ascii "port scan timed out")
  else if result.exitCode ≠ some 0 then
    failed (if Js.trim result.stderr ≠ [] then Js.trim result.stderr
      else ascii "port scan exited " ++ exitText result.exitCode)
  else if splitSections result.stdout = [] then failed (ascii "port scan produced no output")
  else ⟨true, mergePortScanSections platform result.stdout, none⟩

def PORT_LISTENER_SCAN_COMMAND : Text := Js.join [0x20]
  [ascii "echo \"<<<PS_SS_TLN>>>\"; ss -tln 2>/dev/null;",
    ascii "echo \"<<<PS_SS_TLNP>>>\"; ss -tlnp 2>/dev/null;",
    ascii "echo \"<<<PS_NETSTAT_TLNP>>>\"; netstat -tlnp 2>/dev/null;",
    ascii "echo \"<<<PS_NETSTAT_TLN>>>\"; netstat -tln 2>/dev/null;",
    ascii "true"]

/-- The loop over the numerals of processes. -/
def cwdScript (numerals : List Text) : Text :=
  ascii "for pid in " ++ Js.join [0x20] numerals ++ ascii "; do " ++
    ascii "cwd=$(readlink \"/proc/$pid/cwd\" 2>/dev/null) && " ++
    ascii "printf '%s\\t%s\\n' \"$pid\" \"$cwd\"; done; true"

/-- The query for the directories of processes, empty without any. -/
def procCwdCommand (platform : Platform) (pids : List Nat) : Text :=
  let safe := pids.filter (0 < ·)
  if safe = [] then [] else cwdScript (safe.map platform.numberText)

/-- A line `pid<TAB>cwd`: its number and its directory. -/
def cwdOf (platform : Platform) (rawLine : Text) : Option (Option Nat × Text) :=
  let line := dropReturn rawLine
  let pidText := Js.trim (line.takeWhile (· ≠ 0x09))
  let cwd := (line.dropWhile (· ≠ 0x09)).drop 1
  if pidText ≠ [] ∧ pidText.all isDigit ∧ cwd ≠ [] then some (platform.readNumber pidText, cwd) else none

/-- The lines that are read, a later one over the earlier. -/
def parseProcCwds (platform : Platform) (stdout : Text) : List (Option Nat × Text) :=
  ((linesOf stdout).filterMap (cwdOf platform)).foldl (fun known p => assign p.1 p.2 known) []

def PORT_SCAN_TIMEOUT_MS : Int := 15000

structure PortScanOptions where
  /-- What the `n`-th call of `createRequestId` returns. -/
  createRequestId : Nat → Text
  timeoutMs : Int := PORT_SCAN_TIMEOUT_MS

def mismatched : Text := ascii "port scan response belonged to a different SSH request or connection"

/-- An answer is `none` when it is to another request or over another connection. -/
def execChecked (exec : ExecRequest → Except Text SshExecResult) (request : ExecRequest) : Except Text SshExecResult :=
  match exec request with
  | .error thrown => .error thrown
  | .ok result =>
    if result.requestId = request.requestId ∧ result.connection = request.connection then .ok result
    else .error mismatched

def listenerRequest (connection : SshConnectionRef) (options : PortScanOptions) : ExecRequest :=
  ⟨connection, options.createRequestId 0, PORT_LISTENER_SCAN_COMMAND, options.timeoutMs⟩

def cwdRequest (connection : SshConnectionRef) (options : PortScanOptions) (command : Text) : ExecRequest :=
  ⟨connection, options.createRequestId 1, command, options.timeoutMs⟩

/-- The distinct processes of the rows. -/
def pidsOf (ports : List RemotePort) : List Nat := (ports.map (·.pid)).eraseDups.reduceOption.filter (0 < ·)

def RemotePort.label (cwdByPid : List (Option Nat × Text)) (port : RemotePort) : RemotePort :=
  { port with cwd := port.pid.bind fun pid => property (some pid) cwdByPid }

/-- The result, and the requests it was asked with. `exec` is what the capability answers. -/
def scanRemotePorts (platform : Platform) (exec : ExecRequest → Except Text SshExecResult)
    (connection : SshConnectionRef) (options : PortScanOptions) : PortScanResult × List ExecRequest :=
  let first := listenerRequest connection options
  match execChecked exec first with
  | .error thrown => (failed thrown, [first])
  | .ok raw =>
    let result := parsePortScanResult platform raw
    let cwdCommand := procCwdCommand platform (pidsOf result.ports)
    if !result.ok || cwdCommand = [] then (result, [first])
    else
      let second := cwdRequest connection options cwdCommand
      match execChecked exec second with
      -- Directories are labels: without them the listing stands.
      | .error _ => (result, [first, second])
      | .ok cwdResult =>
        let cwdByPid := parseProcCwds platform cwdResult.stdout
        ({ result with ports := result.ports.map (RemotePort.label cwdByPid) }, [first, second])

end PocketShell.PortScan
