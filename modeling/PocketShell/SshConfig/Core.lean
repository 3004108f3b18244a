import PocketShell.Js.Text

/-!
# The OpenSSH config reader

Lines become directives, and directives are folded into one entry for each name of a `Host` block.
A letter's lower case is the platform's `toLowerCase`.

* `parseDirectiveLine`: a key and the rest of the line.
* `buildHosts`: the fold, with `finalizeHost` for each name.
* `parsePort`, `parseForward`, `splitHostPort`: the values.
-/

namespace PocketShell.SshConfig

open Js (Text ascii isSpace)

/-! ## 1. Lines -/

structure Directive where
  key : Text
  value : Text
  line : Nat

def isLineEnd (unit : UInt16) : Bool := unit = 0x0a || unit = 0x0d || unit = 0x2028 || unit = 0x2029

/-- `Key value...` from one raw line. Blank lines and comments give none. -/
def parseDirectiveLine (toLowerCase : Text → Text) (raw : Text) (lineNo : Nat) :
    Option Directive :=
  let trimmed := Js.trim raw
  if trimmed = [] ∨ trimmed.head? = some 0x23 then none
  else
    let key := trimmed.takeWhile (!isSpace ·)
    let rest := (trimmed.dropWhile (!isSpace ·)).dropWhile isSpace
    -- The rest of the line is matched by `.`, which takes no line end.
    if rest.any isLineEnd then none
    else some ⟨toLowerCase key, Js.trim rest, lineNo⟩

/-! ## 2. Values -/

def MAX_PORT : Int := 65535

def DEFAULT_PORT : Int := 22

def LOOPBACK_HOST : Text := ascii "127.0.0.1"

def isDigit (unit : UInt16) : Bool := 0x30 ≤ unit && unit ≤ 0x39

/-- `Number.parseInt` in base ten: the digits that the text starts with. -/
def parseInt (text : Text) : Option Int :=
  let text := text.dropWhile isSpace
  let negative := text.head? = some 0x2d
  let digits := if negative ∨ text.head? = some 0x2b then text.drop 1 else text
  let digits := digits.takeWhile isDigit
  if digits = [] then none
  else
    let number := digits.foldl (fun n unit => 10 * n + (unit.toNat - 0x30 : Int)) 0
    some (if negative then -number else number)

def parsePort (value : Text) : Int :=
  match parseInt value with
  | none => DEFAULT_PORT
  | some n => if n > 0 ∧ n ≤ MAX_PORT then n else DEFAULT_PORT

/-- The nonempty pieces between white space. -/
def words (text : Text) : List Text := (text.splitOnP isSpace).filter (· ≠ [])

structure HostPort where
  host : Text
  port : Int

/-- `[::1]:8080`, `127.0.0.1:8080` or `8080`. -/
def splitHostPort (part : Text) : HostPort :=
  if part.head? = some 0x5b then
    match part.idxOf? 0x5d with
    | some close => ⟨(part.take close).drop 1, (parseInt (part.drop (close + 2))).getD 0⟩
    -- Without a bracket `close` is -1: `slice` then leaves the last unit out.
    | none => ⟨part.dropLast.drop 1, (parseInt (part.drop 1)).getD 0⟩
  else
    match part.reverse.idxOf? 0x3a with
    | none => ⟨LOOPBACK_HOST, (parseInt part).getD 0⟩
    | some fromEnd =>
      let colon := part.length - 1 - fromEnd
      let host := part.take colon
      ⟨if host = [] then LOOPBACK_HOST else host, (parseInt (part.drop (colon + 1))).getD 0⟩

inductive ForwardKind
  | «local»
  | remote
  deriving DecidableEq

structure ForwardSpec where
  kind : ForwardKind
  listenHost : Text
  listenPort : Int
  destHost : Text
  destPort : Int
  deriving DecidableEq

def parseForward (value : Text) (kind : ForwardKind) : ForwardSpec :=
  let tokens := words value
  let listen := splitHostPort (tokens.head?.getD value)
  match tokens[1]? with
  | some destPart =>
    let dest := splitHostPort destPart
    ⟨kind, listen.host, listen.port, dest.host, dest.port⟩
  | none => ⟨kind, listen.host, listen.port, [], 0⟩

/-! ## 3. The fold -/

structure HostEntry where
  name : Text
  hostname : Text
  port : Int
  user : Text
  identityFile : Option Text
  proxyJump : Option Text
  forwardAgent : Bool
  localForwards : List ForwardSpec
  remoteForwards : List ForwardSpec
  fromConfig : Bool
  deriving DecidableEq

/-- The block that is being read. -/
structure PartialHost where
  names : List Text
  hostname : Option Text := none
  port : Option Int := none
  user : Option Text := none
  identityFile : Option Text := none
  proxyJump : Option Text := none
  forwardAgent : Bool := false
  localForwards : List ForwardSpec := []
  remoteForwards : List ForwardSpec := []

def finalizeHost (p : PartialHost) (name : Text) : HostEntry where
  name
  hostname := p.hostname.getD name
  port := p.port.getD DEFAULT_PORT
  user := p.user.getD []
  identityFile := p.identityFile
  proxyJump := p.proxyJump
  forwardAgent := p.forwardAgent
  localForwards := p.localForwards
  remoteForwards := p.remoteForwards
  fromConfig := true

def isYes (toLowerCase : Text → Text) (value : Text) : Bool := toLowerCase value = ascii "yes"

/-- A directive inside a block. The many that are not modelled are ignored. -/
def PartialHost.set (toLowerCase : Text → Text) (p : PartialHost) (d : Directive) : PartialHost :=
  if d.key = ascii "hostname" then { p with hostname := some d.value }
  else if d.key = ascii "port" then { p with port := some (parsePort d.value) }
  else if d.key = ascii "user" then { p with user := some d.value }
  else if d.key = ascii "identityfile" then { p with identityFile := some d.value }
  else if d.key = ascii "proxyjump" then { p with proxyJump := some d.value }
  else if d.key = ascii "forwardagent" then { p with forwardAgent := isYes toLowerCase d.value }
  else if d.key = ascii "localforward" then
    { p with localForwards := p.localForwards ++ [parseForward d.value .local] }
  else if d.key = ascii "remoteforward" then
    { p with remoteForwards := p.remoteForwards ++ [parseForward d.value .remote] }
  else p

structure Fold where
  hosts : List HostEntry := []
  current : Option PartialHost := none

def Fold.pushCurrent (s : Fold) : Fold :=
  match s.current with
  | none => s
  | some p => { hosts := s.hosts ++ p.names.map (finalizeHost p), current := none }

def Fold.step (toLowerCase : Text → Text) (s : Fold) (d : Directive) : Fold :=
  if d.key = ascii "host" then { s.pushCurrent with current := some { names := words d.value } }
  else
    match s.current with
    -- A global option before any `Host`.
    | none => s
    | some p => { s with current := some (p.set toLowerCase d) }

def buildHosts (toLowerCase : Text → Text) (directives : List Directive) : List HostEntry :=
  (directives.foldl (Fold.step toLowerCase) {}).pushCurrent.hosts

end PocketShell.SshConfig
