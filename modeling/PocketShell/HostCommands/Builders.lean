import PocketShell.HostCommands.Quote
import PocketShell.Js.Json

/-!
# The commands that are run on a host

The builders of `projectCommands.ts`, `agentLaunch.ts` and `attachCommand.ts`, and the
login-shell wrapper of `aplexerCommands.ts`, as they compose their lines.
-/

namespace PocketShell.HostCommands

open Js (Text ascii JsNumber)
open Shell (isDigit isNameStart)

def space : Text := ascii " "

/-- The text of a number that `Number.isInteger` accepts and that is positive: digits, or
an exponent from 1e21 on. -/
def isPositiveInteger (text : Text) : Bool :=
  text ≠ ascii "0" && (text.all isDigit ||
    text.contains 0x2b && text.all fun unit => isDigit unit || unit = 0x2b || unit = 0x2e || unit = 0x65)

/-- `String(n)` for a positive integer. -/
def positiveText {N : Type} [JsNumber N] (n : N) : Option Text := (JsNumber.write n).filter isPositiveInteger

/-! ## projectCommands.ts -/

def resolveDirectoryCommand (path : Text) : Text :=
  ascii "cd -- " ++ shellQuoteRemotePath path ++ ascii " && pwd -P"

def mkdirCommand (path : Text) : Text := ascii "mkdir -p -- " ++ shellQuoteRemotePath path

/-- `none` for a socket path that is `null` or `undefined`. -/
def tmuxServerArg (socketPath : Option Text) : Text :=
  match socketPath with
  | none => []
  | some path => if path = [] then [] else ascii "-S " ++ shellQuote path ++ space

def sessionExistsCommand (name : Text) (socketPath : Option Text) : Text :=
  ascii "tmux " ++ tmuxServerArg socketPath ++ ascii "has-session -t " ++ shellQuote (ascii "=" ++ name) ++
    ascii " 2>/dev/null"

def sessionTakenAnywhereFunction : Text :=
  ascii "__ps_taken() \x7b " ++
  ascii "tmux has-session -t \"=$1\" 2>/dev/null && return 0; " ++
  ascii "for __ps_s in \"$\x7bTMUX_TMPDIR:-/tmp\x7d\"/tmux-$(id -u)/*; do " ++
  ascii "[ -S \"$__ps_s\" ] || continue; " ++
  ascii "tmux -S \"$__ps_s\" has-session -t \"=$1\" 2>/dev/null && return 0; " ++
  ascii "done; " ++
  ascii "return 1; " ++
  ascii "\x7d; "

def freeSessionNameCommand (base : Text) : Text :=
  sessionTakenAnywhereFunction ++
  (ascii "__ps_n=" ++ shellQuote base ++ ascii "; __ps_i=2; ") ++
  ascii "while __ps_taken \"$__ps_n\"; do " ++
  ascii "if [ \"$__ps_i\" -gt 200 ]; then break; fi; " ++
  (ascii "__ps_n=" ++ shellQuote base ++ ascii "-$__ps_i; ") ++
  ascii "__ps_i=$((__ps_i+1)); " ++
  ascii "done; printf '%s\\n' \"$__ps_n\""

def sessionTakenAnywhereCommand (name : Text) : Text :=
  sessionTakenAnywhereFunction ++ (ascii "__ps_taken " ++ shellQuote name)

def createSessionCommand (name cwd : Text) : Text :=
  ascii "pocketshell sessions create " ++ shellQuote name ++ ascii " -c " ++ shellQuoteRemotePath cwd

def fallbackCreateSessionCommand (name cwd : Text) : Text :=
  ascii "tmux new-session -A -d -s " ++ shellQuote name ++ ascii " -c " ++ shellQuoteRemotePath cwd

inductive Scope
  | local
  | remote

def Scope.text : Scope → Text
  | .local => ascii "local"
  | .remote => ascii "remote"

structure ReposListOptions (N : Type) where
  scope : Scope
  /-- Empty when there are none. -/
  roots : List Text
  maxDepth : Option N
  limit : Option N

variable {N : Type} [JsNumber N]

/-- `parts.push(flag, value)` when there is a value. -/
def flagged (flag : String) (value : Option Text) : List Text :=
  match value with
  | some value => [ascii flag, value]
  | none => []

def reposListFlags (options : ReposListOptions N) : List Text :=
  match options.scope with
  | .local =>
    ((options.roots.filter fun root => Js.trim root ≠ []).flatMap fun root =>
      [ascii "--root", shellQuoteRemotePath root]) ++
    flagged "--max-depth" (options.maxDepth.bind positiveText)
  | .remote => flagged "--limit" (options.limit.bind positiveText)

def reposListCommand (options : ReposListOptions N) : Text :=
  Js.join space (ascii "pocketshell repos list" :: (ascii "--" ++ options.scope.text) :: ascii "--json" ::
    reposListFlags options)

inductive Protocol
  | ssh
  | https

def Protocol.text : Protocol → Text
  | .ssh => ascii "ssh"
  | .https => ascii "https"

structure ReposCloneOptions where
  repository : Text
  root : Option Text
  folder : Option Text
  protocol : Option Protocol

/-- A text that is not blank. -/
def filled (text : Option Text) : Option Text := text.filter fun text => Js.trim text ≠ []

def reposCloneCommand (options : ReposCloneOptions) : Text :=
  Js.join space (ascii "pocketshell repos clone" :: shellQuote options.repository ::
    (flagged "--root" ((filled options.root).map shellQuoteRemotePath) ++
    (flagged "--folder" ((filled options.folder).map fun folder => shellQuote (Js.trim folder)) ++
    flagged "--protocol" (options.protocol.map Protocol.text))))

def renameSessionCommand (source target : Text) (socketPath : Option Text) : Text :=
  ascii "tmux " ++ tmuxServerArg socketPath ++ ascii "rename-session -t " ++
    shellQuote (ascii "=" ++ source) ++ ascii " -- " ++ shellQuote target

def killSessionCommand (name : Text) (socketPath : Option Text) : Text :=
  ascii "tmux " ++ tmuxServerArg socketPath ++ ascii "kill-session -t " ++ shellQuote (ascii "=" ++ name)

/-- What the probe does with a folder. -/
def probeBody : Text :=
  ascii "; do " ++
  ascii "__ps_n=$__ps_i; __ps_i=$((__ps_i+1)); " ++
  ascii "__ps_g=$(cd \"$__ps_d\" 2>/dev/null && git rev-parse --git-dir 2>/dev/null) || continue; " ++
  ascii "[ -n \"$__ps_g\" ] || continue; " ++
  ascii "__ps_c=$(cd \"$__ps_d\" 2>/dev/null && git rev-parse --git-common-dir 2>/dev/null) || continue; " ++
  ascii "[ -n \"$__ps_c\" ] || continue; " ++
  ascii "__ps_ga=$(cd \"$__ps_d\" && cd \"$__ps_g\" 2>/dev/null && pwd -P) || continue; " ++
  ascii "__ps_ca=$(cd \"$__ps_d\" && cd \"$__ps_c\" 2>/dev/null && pwd -P) || continue; " ++
  ascii "[ \"$__ps_ga\" != \"$__ps_ca\" ] || continue; " ++
  ascii "printf '%s::%s\\n' \"$__ps_n\" \"$__ps_ca\"; " ++
  ascii "done"

def gitRepoProbeCommand (paths : List Text) : Text :=
  ascii "__ps_i=0; " ++ ascii "for __ps_d in " ++ Js.join space (paths.map shellQuoteRemotePath) ++ probeBody

/-! ## agentLaunch.ts -/

structure LaunchChoice where
  kind : Text
  dir : Text
  skipPermissions : Bool
  profile : Option Text

/-- `/^[A-Za-z0-9_][A-Za-z0-9_.-]*$/` -/
def isPlainKind : Text → Bool
  | [] => false
  | first :: rest => Shell.isNameUnit first && rest.all fun unit =>
      Shell.isNameUnit unit || unit = 0x2e || unit = 0x2d

def supportsSkipPermissions (kind : Text) : Bool :=
  kind = ascii "claude" || kind = ascii "codex" || kind = ascii "antigravity"

def supportsProfiles (kind : Text) : Bool := kind = ascii "claude" || kind = ascii "codex"

/-- The profile that is passed on. -/
def profileOf (choice : LaunchChoice) : Option Text :=
  (choice.profile.map Js.trim).filter fun profile => supportsProfiles choice.kind && profile ≠ []

/-- Ordinary engine ids stay readable. -/
def kindWord (kind : Text) : Text := if isPlainKind kind then kind else shellQuote kind

def permissionFlags (choice : LaunchChoice) : List Text :=
  if supportsSkipPermissions choice.kind && !choice.skipPermissions then [ascii "--no-skip-permissions"] else []

def buildLaunchCommand (choice : LaunchChoice) : Text :=
  Js.join space (ascii "pocketshell" :: ascii "agent" :: kindWord choice.kind :: ascii "--dir" ::
    shellQuoteRemotePath choice.dir ::
    (permissionFlags choice ++ flagged "--profile" ((profileOf choice).map shellQuote)))

/-! ## attachCommand.ts -/

def userBinPath : Text :=
  Js.join (ascii ":") [ascii "$HOME/.local/bin", ascii "$HOME/bin", ascii "$HOME/.cargo/bin",
    ascii "$HOME/.local/share/uv/tools/pocketshell/bin", ascii "$HOME/.local/pipx/venvs/pocketshell/bin"]

/-- The variable that a joined terminal publishes its tty under. -/
def clientTtyVar (token : Text) : Text := ascii "PS_DESKTOP_TTY_" ++ token.filter Shell.isNameUnit

def publishClientTty (ttyVar : Text) : Text :=
  ascii "tmux set-environment -g " ++ ttyVar ++ ascii " \"$(tty)\" 2>/dev/null"

/-- What is known of the socket of a session. -/
inductive SocketHint
  /-- `undefined` -/
  | unknown
  /-- `null` -/
  | default
  | socket (path : Text)

def joinFailure : Text :=
  ascii "\\n[PocketShell] could not join session %s. " ++
  ascii "No tmux server on this host has it, and the helper (tmuxctl) could not join it either.\\n"

def handshake (ttyVar : Option Text) : Text :=
  match ttyVar.filter (· ≠ []) with
  | some ttyVar => publishClientTty ttyVar ++ ascii "; "
  | none => []

def locate (target : Text) : Text :=
  ascii "__ps_sock=; " ++
  ascii "for __ps_s in \"$\x7bTMUX_TMPDIR:-/tmp\x7d\"/tmux-$(id -u)/*; do " ++
  ascii "[ -S \"$__ps_s\" ] || continue; " ++
  (ascii "if tmux -S \"$__ps_s\" has-session -t " ++ target ++
    ascii " 2>/dev/null; then __ps_sock=$__ps_s; break; fi; done; ")

def locatedJoin (name target : Text) : Text :=
  ascii "if [ -n \"$__ps_sock\" ]; then " ++
  (ascii "tmux -S \"$__ps_sock\" attach-session -t " ++ target ++ ascii "; ") ++
  (ascii "else tmuxctl " ++ name ++ ascii "; fi")

/-- The attempt on a socket that is known. -/
def directJoin (target : Text) : SocketHint → Option Text
  | .unknown => none
  | .default => some (ascii "tmux" ++ space ++ (ascii "attach-session -t " ++ target ++ ascii " 2>/dev/null"))
  | .socket path => some (ascii "tmux -S " ++ shellQuote path ++ space ++
      (ascii "attach-session -t " ++ target ++ ascii " 2>/dev/null"))

def joinCommand (name target : Text) (socketPath : SocketHint) : Text :=
  match directJoin target socketPath with
  | some direct => ascii "(" ++ direct ++ ascii ") || (" ++ locate target ++ locatedJoin name target ++ ascii ")"
  | none => locate target ++ locatedJoin name target

def sessionAttachCommand (sessionName : Text) (ttyVar : Option Text) (socketPath : SocketHint) : Text :=
  ascii "( PATH=\"" ++ userBinPath ++ ascii ":$PATH\"; " ++ handshake ttyVar ++
    joinCommand (shellQuote sessionName) (shellQuote (ascii "=" ++ sessionName)) socketPath ++
    ascii " ) || printf '" ++ joinFailure ++ ascii "' " ++ shellQuote sessionName ++ ascii "; exit"

/-! ## aplexerCommands.ts -/

def pathAwareCommand (command : Text) : Text :=
  ascii "/bin/sh -lc 'export PATH=\"" ++ userBinPath ++ ascii ":$PATH\"; " ++
    shellEscapeInsideSingleQuotes command ++ ascii "'"

end PocketShell.HostCommands
