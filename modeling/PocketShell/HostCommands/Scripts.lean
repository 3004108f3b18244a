import PocketShell.HostCommands.Builders

/-!
# What the commands are meant to run

* `Arg`: a word of a command with the value it stands for.
* `Request`: a builder with its arguments, `Request.command` its line, and
  `Request.script` the script that is meant.
-/

namespace PocketShell.HostCommands

open Js (Text ascii JsNumber)
open Shell (Word Script Redirect expand assigned)

/-! ## Words -/

def bare (text : String) : Word := (ascii text).map .plain

/-- `"$name"` -/
def quotedParam (name : String) : Word := [.quotes, .param (ascii name) true]

/-- `$name` -/
def param (name : String) : Word := [.param (ascii name) false]

/-- Fixed text in quotes. -/
def quotedText (text : String) : Word := .quotes :: (ascii text).map .quoted

inductive Arg
  /-- A word of the template, with the parameters of the script. -/
  | fixed (word : Word)
  /-- A name or a number that needs no quotes. -/
  | name (text : Text)
  | data (value : Text)
  | path (place : Place)

/-- The word it is read as. -/
def Arg.word : Arg → Word
  | .fixed word => word
  | .name text => text.map .plain
  | .data value => dataWord value
  | .path place => place.word

/-- The fields it stands for; a name that is empty is no word. -/
def Arg.fields (env : Shell.Env) : Arg → List Text
  | .fixed word => expand env word
  | .name text => if text = [] then [] else [text]
  | .data value => [value]
  | .path place => [place.at (homeOf env)]

/-- What is assigned or redirected to. -/
inductive Value
  | fixed (word : Word)
  | data (value : Text)
  /-- A value with a word of the template after it. -/
  | followed (value : Text) (word : Word)

def Value.word : Value → Word
  | .fixed word => word
  | .data value => dataWord value
  | .followed value word => dataWord value ++ word

def Value.text (env : Shell.Env) : Value → Text
  | .fixed word => assigned env word
  | .data value => value
  | .followed value word => value ++ assigned env word

abbrev Intended : Type := Script Arg Value

def fixed (text : String) : Arg := .fixed (bare text)

def call (words : List Arg) : Intended := .simple [] words []

def assign (name : String) (value : Value) : Intended := .simple [(ascii name, value)] [] []

/-- `2>/dev/null` -/
def quiet : Redirect Value := ⟨bare "2", ascii ">", .fixed (bare "/dev/null")⟩

def quietly (words : List Arg) : Intended := .simple [] words [quiet]

/-! ## Scripts -/

/-- The sockets of the user. -/
def socketPattern : Word :=
  [.quotes, .param (ascii "TMUX_TMPDIR:-/tmp") true] ++ bare "/tmux-" ++ [.output (ascii "id -u") false] ++ bare "/*"

def isSocket : Intended := call [fixed "[", fixed "-S", .fixed (quotedParam "__ps_s"), fixed "]"]

def takenScript : Intended :=
  .function (ascii "__ps_taken") (.group
    (.seq (.both (quietly [fixed "tmux", fixed "has-session", fixed "-t", .fixed sought])
        (call [fixed "return", fixed "0"]))
      (.seq (.forIn (ascii "__ps_s") [.fixed socketPattern]
          (.seq (.either isSocket (call [fixed "continue"]))
            (.both (quietly [fixed "tmux", fixed "-S", .fixed (quotedParam "__ps_s"), fixed "has-session",
              fixed "-t", .fixed sought]) (call [fixed "return", fixed "0"]))))
        (call [fixed "return", fixed "1"]))))
where
  /-- `"=$1"` -/
  sought : Word := [.quotes, .quoted 0x3d, .param (ascii "1") true]

def freeNameScript (base : Text) : Intended :=
  .seq takenScript
  (.seq (assign "__ps_n" (.data base))
  (.seq (assign "__ps_i" (.fixed (bare "2")))
  (.seq (.whileDo (call [fixed "__ps_taken", .fixed (quotedParam "__ps_n")])
      (.seq (.ifThen (call [fixed "[", .fixed (quotedParam "__ps_i"), fixed "-gt", fixed "200", fixed "]"])
          (call [fixed "break"]))
      (.seq (assign "__ps_n" (.followed base (bare "-" ++ param "__ps_i")))
        (assign "__ps_i" (.fixed [.output (ascii "(__ps_i+1)") false])))))
    (call [fixed "printf", .fixed (quotedText "%s\\n"), .fixed (quotedParam "__ps_n")]))))

/-- `name=$(source) || continue` -/
def orContinue (command : Intended) : Intended := .either command (call [fixed "continue"])

def answer (name source : String) : Intended :=
  orContinue (assign name (.fixed [.output (ascii source) false]))

def answered (name : String) : Intended :=
  orContinue (call [fixed "[", fixed "-n", .fixed (quotedParam name), fixed "]"])

def probeScript : Intended :=
  .seq (assign "__ps_n" (.fixed (param "__ps_i")))
  (.seq (assign "__ps_i" (.fixed [.output (ascii "(__ps_i+1)") false]))
  (.seq (answer "__ps_g" "cd \"$__ps_d\" 2>/dev/null && git rev-parse --git-dir 2>/dev/null")
  (.seq (answered "__ps_g")
  (.seq (answer "__ps_c" "cd \"$__ps_d\" 2>/dev/null && git rev-parse --git-common-dir 2>/dev/null")
  (.seq (answered "__ps_c")
  (.seq (answer "__ps_ga" "cd \"$__ps_d\" && cd \"$__ps_g\" 2>/dev/null && pwd -P")
  (.seq (answer "__ps_ca" "cd \"$__ps_d\" && cd \"$__ps_c\" 2>/dev/null && pwd -P")
  (.seq (orContinue (call [fixed "[", .fixed (quotedParam "__ps_ga"), fixed "!=", .fixed (quotedParam "__ps_ca"),
      fixed "]"]))
    (call [fixed "printf", .fixed (quotedText "%s::%s\\n"), .fixed (quotedParam "__ps_n"),
      .fixed (quotedParam "__ps_ca")])))))))))

def gitRepoProbeScript (paths : List Text) : Intended :=
  .seq (assign "__ps_i" (.fixed (bare "0")))
    (.forIn (ascii "__ps_d") (paths.map fun path => .path (placeOf path)) probeScript)

/-- `"$HOME/.local/bin:…:$PATH"` -/
def userBinWord : Word :=
  .quotes :: (["/.local/bin:", "/bin:", "/.cargo/bin:", "/.local/share/uv/tools/pocketshell/bin:",
    "/.local/pipx/venvs/pocketshell/bin:"].flatMap fun below =>
      .param (ascii "HOME") true :: (ascii below).map .quoted) ++ [.param (ascii "PATH") true]

def locateScript (target : Arg) (joined : Intended) : Intended :=
  .seq (assign "__ps_sock" (.fixed []))
  (.seq (.forIn (ascii "__ps_s") [.fixed socketPattern]
      (.seq (orContinue isSocket)
        (.ifThen (quietly [fixed "tmux", fixed "-S", .fixed (quotedParam "__ps_s"), fixed "has-session", fixed "-t",
            target])
          (.seq (assign "__ps_sock" (.fixed (param "__ps_s"))) (call [fixed "break"])))))
    joined)

def locatedJoinScript (name target : Arg) : Intended :=
  .ifElse (call [fixed "[", fixed "-n", .fixed (quotedParam "__ps_sock"), fixed "]"])
    (call [fixed "tmux", fixed "-S", .fixed (quotedParam "__ps_sock"), fixed "attach-session", fixed "-t", target])
    (call [fixed "tmuxctl", name])

def sweepScript (name target : Arg) : Intended := locateScript target (locatedJoinScript name target)

/-- The direct join that a hint allows. -/
def SocketHint.server : SocketHint → Option (List Arg)
  | .unknown => none
  | .default => some []
  | .socket path => some [fixed "-S", .data path]

def joinScript (name target : Arg) (hint : SocketHint) : Intended :=
  match hint.server with
  | none => sweepScript name target
  | some server =>
    .either (.subshell (quietly (fixed "tmux" :: server ++ [fixed "attach-session", fixed "-t", target])))
      (.subshell (sweepScript name target))

def withHandshake (ttyVar : Option Text) (join : Intended) : Intended :=
  match ttyVar.filter (· ≠ []) with
  | none => join
  | some ttyVar =>
    .seq (quietly [fixed "tmux", fixed "set-environment", fixed "-g", .name ttyVar,
      .fixed [.quotes, .output (ascii "tty") true]]) join

def attachScript (sessionName : Text) (ttyVar : Option Text) (hint : SocketHint) : Intended :=
  .seq (.either
      (.subshell (.seq (assign "PATH" (.fixed userBinWord))
        (withHandshake ttyVar (joinScript (.data sessionName) (.data (ascii "=" ++ sessionName)) hint))))
      (call [fixed "printf", .fixed (.quotes :: joinFailure.map .quoted), .data sessionName]))
    (call [fixed "exit"])

def serverArgs (socketPath : Option Text) : List Arg :=
  match socketPath.filter (· ≠ []) with
  | none => []
  | some path => [fixed "-S", .data path]

variable {N : Type} [JsNumber N]

def flaggedArg (flag : String) (value : Option Arg) : List Arg :=
  match value with
  | some value => [fixed flag, value]
  | none => []

def reposListFlagArgs (options : ReposListOptions N) : List Arg :=
  match options.scope with
  | .local =>
    ((options.roots.filter fun root => Js.trim root ≠ []).flatMap fun root =>
      [fixed "--root", .path (placeOf root)]) ++
    flaggedArg "--max-depth" ((options.maxDepth.bind positiveText).map .name)
  | .remote => flaggedArg "--limit" ((options.limit.bind positiveText).map .name)

def reposListArgs (options : ReposListOptions N) : List Arg :=
  fixed "repos" :: fixed "list" :: .name (ascii "--" ++ options.scope.text) :: fixed "--json" ::
    reposListFlagArgs options

def reposCloneArgs (options : ReposCloneOptions) : List Arg :=
  fixed "repos" :: fixed "clone" :: .data options.repository ::
    (flaggedArg "--root" ((filled options.root).map fun root => .path (placeOf root)) ++
    (flaggedArg "--folder" ((filled options.folder).map fun folder => .data (Js.trim folder)) ++
    flaggedArg "--protocol" (options.protocol.map fun protocol => .name protocol.text)))

def kindArg (kind : Text) : Arg := if isPlainKind kind then .name kind else .data kind

def permissionArgs (choice : LaunchChoice) : List Arg :=
  if supportsSkipPermissions choice.kind && !choice.skipPermissions then [fixed "--no-skip-permissions"] else []

def launchArgs (choice : LaunchChoice) : List Arg :=
  fixed "agent" :: kindArg choice.kind :: fixed "--dir" :: .path (placeOf choice.dir) ::
    (permissionArgs choice ++ flaggedArg "--profile" ((profileOf choice).map .data))

/-! ## Requests -/

inductive Request (N : Type)
  | resolveDirectory (path : Text)
  | mkdir (path : Text)
  | sessionExists (name : Text) (socketPath : Option Text)
  | freeSessionName (base : Text)
  | sessionTakenAnywhere (name : Text)
  | createSession (name cwd : Text)
  | fallbackCreateSession (name cwd : Text)
  | reposList (options : ReposListOptions N)
  | reposClone (options : ReposCloneOptions)
  | renameSession (source target : Text) (socketPath : Option Text)
  | killSession (name : Text) (socketPath : Option Text)
  | gitRepoProbe (paths : List Text)
  | launch (choice : LaunchChoice)
  | attach (sessionName : Text) (ttyVar : Option Text) (socketPath : SocketHint)

/-- The line that is composed. -/
def Request.command : Request N → Text
  | .resolveDirectory path => resolveDirectoryCommand path
  | .mkdir path => mkdirCommand path
  | .sessionExists name socketPath => sessionExistsCommand name socketPath
  | .freeSessionName base => freeSessionNameCommand base
  | .sessionTakenAnywhere name => sessionTakenAnywhereCommand name
  | .createSession name cwd => createSessionCommand name cwd
  | .fallbackCreateSession name cwd => fallbackCreateSessionCommand name cwd
  | .reposList options => reposListCommand options
  | .reposClone options => reposCloneCommand options
  | .renameSession source target socketPath => renameSessionCommand source target socketPath
  | .killSession name socketPath => killSessionCommand name socketPath
  | .gitRepoProbe paths => gitRepoProbeCommand paths
  | .launch choice => buildLaunchCommand choice
  | .attach sessionName ttyVar socketPath => sessionAttachCommand sessionName ttyVar socketPath

/-- The script that is meant. -/
def Request.script : Request N → Intended
  | .resolveDirectory path =>
    .both (call [fixed "cd", fixed "--", .path (placeOf path)]) (call [fixed "pwd", fixed "-P"])
  | .mkdir path => call [fixed "mkdir", fixed "-p", fixed "--", .path (placeOf path)]
  | .sessionExists name socketPath =>
    quietly ([fixed "tmux"] ++ serverArgs socketPath ++ [fixed "has-session", fixed "-t", .data (ascii "=" ++ name)])
  | .freeSessionName base => freeNameScript base
  | .sessionTakenAnywhere name => .seq takenScript (call [fixed "__ps_taken", .data name])
  | .createSession name cwd =>
    call [fixed "pocketshell", fixed "sessions", fixed "create", .data name, fixed "-c", .path (placeOf cwd)]
  | .fallbackCreateSession name cwd =>
    call [fixed "tmux", fixed "new-session", fixed "-A", fixed "-d", fixed "-s", .data name, fixed "-c",
      .path (placeOf cwd)]
  | .reposList options => call (fixed "pocketshell" :: reposListArgs options)
  | .reposClone options => call (fixed "pocketshell" :: reposCloneArgs options)
  | .renameSession source target socketPath =>
    call ([fixed "tmux"] ++ serverArgs socketPath ++ [fixed "rename-session", fixed "-t",
      .data (ascii "=" ++ source), fixed "--", .data target])
  | .killSession name socketPath =>
    call ([fixed "tmux"] ++ serverArgs socketPath ++ [fixed "kill-session", fixed "-t", .data (ascii "=" ++ name)])
  | .gitRepoProbe paths => gitRepoProbeScript paths
  | .launch choice => call (fixed "pocketshell" :: launchArgs choice)
  | .attach sessionName ttyVar socketPath => attachScript sessionName ttyVar socketPath

/-- What the login-shell wrapper runs in front of a command. -/
def exportPath : Text := ascii "export PATH=\"" ++ userBinPath ++ ascii ":$PATH\"; "

/-- The wrapper: the command is one argument of the login shell. -/
def pathAwareScript (command : Text) : Intended :=
  call [fixed "/bin/sh", fixed "-lc", .data (exportPath ++ command)]

def exportScript : Intended := call [fixed "export", .fixed (bare "PATH=" ++ userBinWord)]

/-- The script with the words that are meant, in an environment. -/
def Request.intended (request : Request N) (env : Shell.Env) : Script (List Text) Text :=
  request.script.map (Arg.fields env) (Value.text env)

/-- The paths among the arguments. -/
def Request.paths : Request N → List Text
  | .resolveDirectory path | .mkdir path => [path]
  | .createSession _ cwd | .fallbackCreateSession _ cwd => [cwd]
  | .reposList options =>
    match options.scope with
    | .local => options.roots.filter fun root => Js.trim root ≠ []
    | .remote => []
  | .reposClone options => (filled options.root).toList
  | .gitRepoProbe paths => paths
  | .launch choice => [choice.dir]
  | _ => []

/-- The variable in front of the tty, if there is one, is not special to the shell. -/
def Request.Named : Request N → Prop
  | .attach _ ttyVar _ => ∀ name ∈ ttyVar, name.all Shell.isLiteral = true
  | _ => True

end PocketShell.HostCommands
