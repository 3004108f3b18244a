import PocketShell.HostCommands.Scripts

/-!
# How the commands are read

* `reads_request`: the line of a request is read as the script that is meant.
* `reads_pathAware`: so it is below the login-shell wrapper.
-/

namespace PocketShell.HostCommands

open Js (Text ascii JsNumber)
open Shell (Word Token Script tokens parse reads Reads ReadsWord Begins isDelimiter)

/-! ## Lines -/

def wordToken (text : String) : Token := .word (bare text)

def operator (text : String) : Token := .operator (ascii text)

theorem quote_line {value more : Text} (hmore : more.head?.any isDelimiter = true) :
    tokens (shellQuote value ++ more) = (tokens more).map (.word (dataWord value) :: ·) :=
  (begins_shellQuote value).readsWord.line hmore

theorem path_line {path more : Text} (hmore : more.head?.any isDelimiter = true) :
    tokens (shellQuoteRemotePath path ++ more) = (tokens more).map (.word (placeOf path).word :: ·) := by
  rw [shellQuoteRemotePath_text]
  exact (placeOf path).readsWord.line hmore

theorem quote_last {value : Text} : tokens (shellQuote value) = some [.word (dataWord value)] :=
  (begins_shellQuote value).readsWord.last

theorem path_last {path : Text} : tokens (shellQuoteRemotePath path) = some [.word (placeOf path).word] := by
  rw [shellQuoteRemotePath_text]
  exact (placeOf path).readsWord.last

theorem reads_parse {line : Text} {added : List Token} (h : tokens line = some added) : reads line = parse added := by
  unfold reads
  rw [h]
  rfl

/-! ## Fixed numbers of words -/

variable {N : Type} [JsNumber N]

/-- The line is read as the script that is meant. -/
def Request.IsRead (request : Request N) : Prop :=
  reads request.command = some (request.script.map Arg.word Value.word)

theorem resolveDirectory_isRead (path : Text) : (Request.resolveDirectory path : Request N).IsRead := by
  have hcd : Reads (ascii "cd -- ") [wordToken "cd", wordToken "--"] := rfl
  have hpwd : tokens (ascii " && pwd -P") = some [operator "&&", wordToken "pwd", wordToken "-P"] := rfl
  show reads (ascii "cd -- " ++ shellQuoteRemotePath path ++ ascii " && pwd -P") = _
  rw [List.append_assoc, reads_parse (by rw [hcd.line, path_line rfl, hpwd]; rfl)]
  rfl

theorem mkdir_isRead (path : Text) : (Request.mkdir path : Request N).IsRead := by
  have hmkdir : Reads (ascii "mkdir -p -- ") [wordToken "mkdir", wordToken "-p", wordToken "--"] := rfl
  show reads (ascii "mkdir -p -- " ++ shellQuoteRemotePath path) = _
  rw [reads_parse (by rw [hmkdir.line, path_last]; rfl)]
  rfl

theorem createSession_isRead (name cwd : Text) : (Request.createSession name cwd : Request N).IsRead := by
  have hcreate : Reads (ascii "pocketshell sessions create ")
      [wordToken "pocketshell", wordToken "sessions", wordToken "create"] := rfl
  have hdir : Reads (ascii " -c ") [wordToken "-c"] := rfl
  show reads (ascii "pocketshell sessions create " ++ shellQuote name ++ ascii " -c " ++ shellQuoteRemotePath cwd) = _
  rw [List.append_assoc, List.append_assoc,
    reads_parse (by rw [hcreate.line, quote_line rfl, hdir.line, path_last]; rfl)]
  rfl

theorem fallbackCreateSession_isRead (name cwd : Text) :
    (Request.fallbackCreateSession name cwd : Request N).IsRead := by
  have hcreate : Reads (ascii "tmux new-session -A -d -s ")
      [wordToken "tmux", wordToken "new-session", wordToken "-A", wordToken "-d", wordToken "-s"] := rfl
  have hdir : Reads (ascii " -c ") [wordToken "-c"] := rfl
  show reads (ascii "tmux new-session -A -d -s " ++ shellQuote name ++ ascii " -c " ++ shellQuoteRemotePath cwd) = _
  rw [List.append_assoc, List.append_assoc,
    reads_parse (by rw [hcreate.line, quote_line rfl, hdir.line, path_last]; rfl)]
  rfl

/-! ## The server of a session -/

theorem reads_tmuxServerArg (socketPath : Option Text) :
    Reads (tmuxServerArg socketPath) ((serverArgs socketPath).map fun arg => .word arg.word) := by
  have hserver : Reads (ascii "-S ") [wordToken "-S"] := rfl
  have hspace : Reads space [] := rfl
  cases socketPath with
  | none => rfl
  | some path =>
    by_cases hpath : path = []
    · subst hpath
      rfl
    · have hargs : serverArgs (some path) = [fixed "-S", .data path] := by
        have hsome : (some path).filter (· ≠ []) = some path :=
          Option.filter_eq_some_iff.mpr ⟨rfl, decide_eq_true hpath⟩
        unfold serverArgs
        rw [hsome]
      show Reads (if path = [] then [] else ascii "-S " ++ shellQuote path ++ space) _
      rw [hargs, if_neg hpath, List.append_assoc]
      exact hserver.append ((begins_shellQuote path).readsWord.then rfl hspace)

theorem serverArgs_cases (socketPath : Option Text) :
    serverArgs socketPath = [] ∨ ∃ path, serverArgs socketPath = [fixed "-S", .data path] := by
  unfold serverArgs
  split
  · exact .inl rfl
  · next path _ => exact .inr ⟨path, rfl⟩

variable {more : Text} {rest : List Token}

theorem tmux_line {socketPath : Option Text} (h : tokens more = some rest) :
    tokens (ascii "tmux " ++ (tmuxServerArg socketPath ++ more)) =
      some (wordToken "tmux" :: ((serverArgs socketPath).map fun arg => .word arg.word) ++ rest) := by
  have htmux : Reads (ascii "tmux ") [wordToken "tmux"] := rfl
  rw [htmux.line, (reads_tmuxServerArg socketPath).line, h]
  rfl

theorem sessionExists_isRead (name : Text) (socketPath : Option Text) :
    (Request.sessionExists name socketPath : Request N).IsRead := by
  have hhas : Reads (ascii "has-session -t ") [wordToken "has-session", wordToken "-t"] := rfl
  have hquiet : tokens (ascii " 2>/dev/null") =
      some [.descriptor (bare "2"), operator ">", wordToken "/dev/null"] := rfl
  show reads (ascii "tmux " ++ tmuxServerArg socketPath ++ ascii "has-session -t " ++
    shellQuote (ascii "=" ++ name) ++ ascii " 2>/dev/null") = _
  simp only [List.append_assoc]
  rw [reads_parse (tmux_line (by rw [hhas.line, quote_line rfl, hquiet]; rfl))]
  show _ = some (Script.map Arg.word Value.word (quietly ([fixed "tmux"] ++ serverArgs socketPath ++
    [fixed "has-session", fixed "-t", .data (ascii "=" ++ name)])))
  obtain h | ⟨path, h⟩ := serverArgs_cases socketPath <;> rw [h] <;> rfl

theorem renameSession_isRead (source target : Text) (socketPath : Option Text) :
    (Request.renameSession source target socketPath : Request N).IsRead := by
  have hrename : Reads (ascii "rename-session -t ") [wordToken "rename-session", wordToken "-t"] := rfl
  have hdashes : Reads (ascii " -- ") [wordToken "--"] := rfl
  show reads (ascii "tmux " ++ tmuxServerArg socketPath ++ ascii "rename-session -t " ++
    shellQuote (ascii "=" ++ source) ++ ascii " -- " ++ shellQuote target) = _
  simp only [List.append_assoc]
  rw [reads_parse (tmux_line (by rw [hrename.line, quote_line rfl, hdashes.line, quote_last]; rfl))]
  show _ = some (Script.map Arg.word Value.word (call ([fixed "tmux"] ++ serverArgs socketPath ++
    [fixed "rename-session", fixed "-t", .data (ascii "=" ++ source), fixed "--", .data target])))
  obtain h | ⟨path, h⟩ := serverArgs_cases socketPath <;> rw [h] <;> rfl

theorem killSession_isRead (name : Text) (socketPath : Option Text) :
    (Request.killSession name socketPath : Request N).IsRead := by
  have hkill : Reads (ascii "kill-session -t ") [wordToken "kill-session", wordToken "-t"] := rfl
  show reads (ascii "tmux " ++ tmuxServerArg socketPath ++ ascii "kill-session -t " ++
    shellQuote (ascii "=" ++ name)) = _
  simp only [List.append_assoc]
  rw [reads_parse (tmux_line (by rw [hkill.line, quote_last]; rfl))]
  show _ = some (Script.map Arg.word Value.word (call ([fixed "tmux"] ++ serverArgs socketPath ++
    [fixed "kill-session", fixed "-t", .data (ascii "=" ++ name)])))
  obtain h | ⟨path, h⟩ := serverArgs_cases socketPath <;> rw [h] <;> rfl

/-! ## Any number of words -/

/-- A text that is read as an argument. -/
def ReadsArg (text : Text) (arg : Arg) : Prop := ReadsWord text arg.word

theorem readsArg_name {text : Text} (h : text.all Shell.isLiteral = true) (hne : text ≠ []) :
    ReadsArg text (.name text) := (Shell.begins_literal h hne).readsWord

theorem readsArg_fixed {text : String} (h : (!(ascii text).isEmpty && (ascii text).all Shell.isLiteral) = true) :
    ReadsArg (ascii text) (fixed text) := by
  obtain ⟨hne, h⟩ := Bool.and_eq_true_iff.mp h
  exact readsArg_name h (by simpa using hne)

theorem readsArg_data (value : Text) : ReadsArg (shellQuote value) (.data value) :=
  (begins_shellQuote value).readsWord

theorem readsArg_path (value : Text) : ReadsArg (shellQuoteRemotePath value) (.path (placeOf value)) := by
  unfold ReadsArg
  rw [shellQuoteRemotePath_text]
  exact (placeOf value).readsWord

/-- Arguments with blanks between them are a simple command. -/
theorem reads_call {first : String} {texts : List Text} {args : List Arg}
    (hfirst : ReadsArg (ascii first) (fixed first)) (hreserved : Shell.isReserved (bare first) = false)
    (hassignment : Shell.assignment (bare first) = none) (h : List.Forall₂ ReadsArg texts args) :
    reads (Js.join space (ascii first :: texts)) = some ((call (fixed first :: args)).map Arg.word Value.word) := by
  have hwords : List.Forall₂ ReadsWord (ascii first :: texts) ((fixed first :: args).map Arg.word) :=
    List.Forall₂.cons hfirst (List.forall₂_map_right_iff.mpr h)
  have hlast : ∀ {text parts}, ReadsWord text parts → Shell.tokens (text ++ []) = some [.word parts] := by
    intro text parts h
    rw [List.append_nil]
    exact h.last
  have htokens := Shell.tokens_join hlast hwords (List.cons_ne_nil _ _)
  rw [List.append_nil, List.append_nil] at htokens
  show reads (Js.join [0x20] (ascii first :: texts)) = _
  rw [reads_parse htokens]
  exact Shell.parse_call hreserved hassignment _

theorem isNameUnit_literal {unit : UInt16} (h : Shell.isNameUnit unit = true) : Shell.isLiteral unit = true := by
  simp only [Shell.isNameUnit, Shell.isNameStart, Shell.isDigit, Shell.isLiteral, Shell.isBlank,
    Shell.isOperator, Shell.singleQuote, Shell.doubleQuote, Shell.backslash, Shell.dollar, Shell.backquote,
    Bool.and_eq_true, Bool.or_eq_true, decide_eq_true_eq, Bool.not_eq_true', Bool.or_eq_false_iff,
    decide_eq_false_iff_not, UInt16.le_iff_toNat_le, ← UInt16.toNat_inj, UInt16.reduceToNat] at *
  omega

theorem isPositiveInteger_literal {text : Text} (h : isPositiveInteger text = true) :
    text.all Shell.isLiteral = true := by
  have hdigit : ∀ unit, Shell.isDigit unit = true → Shell.isLiteral unit = true :=
    fun unit hunit => isNameUnit_literal (by simp [Shell.isNameUnit, hunit])
  have hother : ∀ unit, (Shell.isDigit unit || unit = 0x2b || unit = 0x2e || unit = 0x65) = true →
      Shell.isLiteral unit = true := by
    intro unit hunit
    simp only [Bool.or_eq_true, decide_eq_true_eq] at hunit
    obtain ((hunit | rfl) | rfl) | rfl := hunit
    · exact hdigit unit hunit
    all_goals decide
  unfold isPositiveInteger at h
  rw [Bool.and_eq_true, Bool.or_eq_true, Bool.and_eq_true] at h
  obtain ⟨-, h | ⟨-, h⟩⟩ := h
  · exact List.all_eq_true.mpr fun unit hunit => hdigit unit (List.all_eq_true.mp h unit hunit)
  · exact List.all_eq_true.mpr fun unit hunit => hother unit (List.all_eq_true.mp h unit hunit)

theorem readsArg_positive {n : Option N} {text : Text} (h : n.bind positiveText = some text) :
    ReadsArg text (.name text) := by
  obtain ⟨n, -, h⟩ := Option.bind_eq_some_iff.mp h
  obtain ⟨hwrite, hpositive⟩ := Option.filter_eq_some_iff.mp h
  refine readsArg_name (isPositiveInteger_literal hpositive) ?_
  rintro rfl
  exact absurd (JsNumber.write_isNumber n [] hwrite) (by decide)

theorem flagged_reads {α : Type} {flag : String} {value : Option α} {text : α → Text} {arg : α → Arg}
    (hflag : ReadsArg (ascii flag) (fixed flag)) (h : ∀ a, value = some a → ReadsArg (text a) (arg a)) :
    List.Forall₂ ReadsArg (flagged flag (value.map text)) (flaggedArg flag (value.map arg)) := by
  cases value with
  | none => exact .nil
  | some a => exact .cons hflag (.cons (h a rfl) .nil)

theorem join_split (first second : Text) (rest : List Text) :
    Js.join space ((first ++ space ++ second) :: rest) = Js.join space (first :: second :: rest) := by
  cases rest <;> simp [Js.join, List.intercalate]

theorem reads_pocketshell {texts : List Text} {args : List Arg} (h : List.Forall₂ ReadsArg texts args) :
    reads (Js.join space (ascii "pocketshell" :: texts)) =
      some ((call (fixed "pocketshell" :: args)).map Arg.word Value.word) :=
  reads_call (readsArg_fixed rfl) rfl rfl h

theorem roots_read (roots : List Text) : List.Forall₂ ReadsArg
    (roots.flatMap fun root => [ascii "--root", shellQuoteRemotePath root])
    (roots.flatMap fun root => [fixed "--root", .path (placeOf root)]) := by
  have hflag : ReadsArg (ascii "--root") (fixed "--root") :=
    readsArg_fixed rfl
  induction roots with
  | nil => exact .nil
  | cons root roots ih => exact .cons hflag (.cons (readsArg_path root) ih)

theorem reposListFlags_read (options : ReposListOptions N) :
    List.Forall₂ ReadsArg (reposListFlags options) (reposListFlagArgs options) := by
  have hdepth : ReadsArg (ascii "--max-depth") (fixed "--max-depth") :=
    readsArg_fixed rfl
  have hlimit : ReadsArg (ascii "--limit") (fixed "--limit") :=
    readsArg_fixed rfl
  have hid : ∀ value : Option Text, flagged "--max-depth" value = flagged "--max-depth" (value.map id) :=
    fun value => by rw [Option.map_id_apply]
  have hid' : ∀ value : Option Text, flagged "--limit" value = flagged "--limit" (value.map id) :=
    fun value => by rw [Option.map_id_apply]
  unfold reposListFlags reposListFlagArgs
  cases options.scope with
  | «local» =>
    rw [hid]
    exact List.rel_append (roots_read _) (flagged_reads hdepth fun text h => readsArg_positive h)
  | remote =>
    rw [hid']
    exact flagged_reads hlimit fun text h => readsArg_positive h

theorem reposList_isRead (options : ReposListOptions N) : (Request.reposList options).IsRead := by
  have hrepos : ReadsArg (ascii "repos") (fixed "repos") := readsArg_fixed rfl
  have hlist : ReadsArg (ascii "list") (fixed "list") := readsArg_fixed rfl
  have hjson : ReadsArg (ascii "--json") (fixed "--json") := readsArg_fixed rfl
  have hscope : ReadsArg (ascii "--" ++ options.scope.text) (.name (ascii "--" ++ options.scope.text)) := by
    refine readsArg_name ?_ ?_ <;> cases options.scope <;> decide
  have hthree : ascii "pocketshell repos list" =
      (ascii "pocketshell" ++ space ++ ascii "repos") ++ space ++ ascii "list" := rfl
  show reads (reposListCommand options) = some ((call (fixed "pocketshell" :: reposListArgs options)).map _ _)
  unfold reposListCommand
  rw [hthree, join_split, join_split]
  exact reads_pocketshell
    (.cons hrepos (.cons hlist (.cons hscope (.cons hjson (reposListFlags_read options)))))

theorem reposClone_isRead (options : ReposCloneOptions) : (Request.reposClone options : Request N).IsRead := by
  have hrepos : ReadsArg (ascii "repos") (fixed "repos") := readsArg_fixed rfl
  have hclone : ReadsArg (ascii "clone") (fixed "clone") := readsArg_fixed rfl
  have hroot : ReadsArg (ascii "--root") (fixed "--root") := readsArg_fixed rfl
  have hfolder : ReadsArg (ascii "--folder") (fixed "--folder") :=
    readsArg_fixed rfl
  have hprotocol : ReadsArg (ascii "--protocol") (fixed "--protocol") :=
    readsArg_fixed rfl
  have hname : ∀ protocol : Protocol, ReadsArg protocol.text (.name protocol.text) := by
    intro protocol
    refine readsArg_name ?_ ?_ <;> cases protocol <;> decide
  have hthree : ascii "pocketshell repos clone" =
      (ascii "pocketshell" ++ space ++ ascii "repos") ++ space ++ ascii "clone" := rfl
  show reads (reposCloneCommand options) = some ((call (fixed "pocketshell" :: reposCloneArgs options)).map _ _)
  unfold reposCloneCommand
  rw [hthree, join_split, join_split]
  refine reads_pocketshell (.cons hrepos (.cons hclone (.cons (readsArg_data _)
    (List.rel_append ?_ (List.rel_append ?_ ?_)))))
  · exact flagged_reads hroot fun root _ => readsArg_path root
  · exact flagged_reads hfolder fun folder _ => readsArg_data _
  · exact flagged_reads hprotocol fun protocol _ => hname protocol

theorem isPlainKind_literal {kind : Text} (h : isPlainKind kind = true) :
    kind.all Shell.isLiteral = true ∧ kind ≠ [] := by
  cases kind with
  | nil => cases h
  | cons first rest =>
    obtain ⟨hfirst, hrest⟩ := Bool.and_eq_true_iff.mp h
    refine ⟨?_, List.cons_ne_nil _ _⟩
    rw [List.all_cons, Bool.and_eq_true]
    refine ⟨isNameUnit_literal hfirst, List.all_eq_true.mpr fun unit hunit => ?_⟩
    have hunit := List.all_eq_true.mp hrest unit hunit
    simp only [Bool.or_eq_true, decide_eq_true_eq] at hunit
    obtain (hunit | rfl) | rfl := hunit
    · exact isNameUnit_literal hunit
    all_goals decide

theorem kind_read (kind : Text) : ReadsArg (kindWord kind) (kindArg kind) := by
  unfold kindWord kindArg
  split
  · next h =>
    obtain ⟨hliteral, hne⟩ := isPlainKind_literal h
    exact readsArg_name hliteral hne
  · exact readsArg_data kind

theorem permissions_read (choice : LaunchChoice) :
    List.Forall₂ ReadsArg (permissionFlags choice) (permissionArgs choice) := by
  unfold permissionFlags permissionArgs
  split
  · exact .cons (readsArg_fixed rfl) .nil
  · exact .nil

theorem launch_isRead (choice : LaunchChoice) : (Request.launch choice : Request N).IsRead := by
  have hagent : ReadsArg (ascii "agent") (fixed "agent") := readsArg_fixed rfl
  have hdir : ReadsArg (ascii "--dir") (fixed "--dir") := readsArg_fixed rfl
  have hprofile : ReadsArg (ascii "--profile") (fixed "--profile") :=
    readsArg_fixed rfl
  exact reads_pocketshell (.cons hagent (.cons (kind_read choice.kind) (.cons hdir
    (.cons (readsArg_path choice.dir)
      (List.rel_append (permissions_read choice) (flagged_reads hprofile fun profile _ => readsArg_data profile))))))

/-! ## Scripts -/

def words (texts : List String) : List Token := texts.map wordToken

def paramToken (name : String) : Token := .word (quotedParam name)

/-- The function that looks for a session on every server. -/
def takenTokens : List Token :=
  [wordToken "__ps_taken", operator "(", operator ")", wordToken "\x7b"] ++ words ["tmux", "has-session", "-t"] ++
  [.word takenScript.sought, .descriptor (bare "2"), operator ">", wordToken "/dev/null", operator "&&"] ++
  words ["return", "0"] ++ [operator ";"] ++ words ["for", "__ps_s", "in"] ++ [.word socketPattern, operator ";"] ++
  words ["do", "[", "-S"] ++ [paramToken "__ps_s", wordToken "]", operator "||", wordToken "continue", operator ";"] ++
  words ["tmux", "-S"] ++ [paramToken "__ps_s"] ++ words ["has-session", "-t"] ++
  [.word takenScript.sought, .descriptor (bare "2"), operator ">", wordToken "/dev/null", operator "&&"] ++
  words ["return", "0"] ++ [operator ";", wordToken "done", operator ";"] ++ words ["return", "1"] ++
  [operator ";", wordToken "\x7d", operator ";"]

theorem reads_taken : Reads sessionTakenAnywhereFunction takenTokens := by
  unfold Reads
  decide +kernel

theorem sessionTakenAnywhere_isRead (name : Text) : (Request.sessionTakenAnywhere name : Request N).IsRead := by
  have htaken : Reads (ascii "__ps_taken ") [wordToken "__ps_taken"] := rfl
  show reads (sessionTakenAnywhereFunction ++ (ascii "__ps_taken " ++ shellQuote name)) = _
  rw [reads_parse (by rw [reads_taken.line, htaken.line, quote_last]; rfl)]
  rfl

/-- A value that is assigned. -/
theorem begins_assigned (base : Text) :
    Begins (ascii "__ps_n=" ++ shellQuote base) (bare "__ps_n=" ++ dataWord base) := by
  have hname : Shell.run Shell.start (ascii "__ps_n=") = ⟨[], some (bare "__ps_n="), .plain⟩ := rfl
  unfold Begins
  rw [Shell.run_append, hname, run_shellQuote rfl]
  rfl

theorem readsWord_numbered (base : Text) : ReadsWord (ascii "__ps_n=" ++ shellQuote base ++ ascii "-$__ps_i")
    (bare "__ps_n=" ++ (dataWord base ++ (bare "-" ++ HostCommands.param "__ps_i"))) := by
  have hrun : Shell.run Shell.start (ascii "__ps_n=" ++ shellQuote base ++ ascii "-$__ps_i") =
      ⟨[], some (bare "__ps_n=" ++ dataWord base ++ bare "-"), .name false (ascii "__ps_i")⟩ := by
    rw [Shell.run_append, begins_assigned]
    rfl
  have h := Shell.readsWord_name _ hrun
  rwa [Option.getD_some, List.append_assoc, List.append_assoc] at h

theorem freeSessionName_isRead (base : Text) : (Request.freeSessionName base : Request N).IsRead := by
  have hfirst : Reads (ascii "; __ps_i=2; ") [operator ";", wordToken "__ps_i=2", operator ";"] := rfl
  have hwhile : Reads (ascii "while __ps_taken \"$__ps_n\"; do ")
      (words ["while", "__ps_taken"] ++ [paramToken "__ps_n", operator ";", wordToken "do"]) := rfl
  have hif : Reads (ascii "if [ \"$__ps_i\" -gt 200 ]; then break; fi; ")
      (words ["if", "["] ++ [paramToken "__ps_i"] ++ words ["-gt", "200", "]"] ++
        [operator ";"] ++ words ["then", "break"] ++ [operator ";", wordToken "fi", operator ";"]) := rfl
  have hcount : Reads (ascii "; __ps_i=$((__ps_i+1)); ")
      [operator ";", .word (bare "__ps_i=" ++ [.output (ascii "(__ps_i+1)") false]), operator ";"] := rfl
  have hprint : tokens (ascii "done; printf '%s\\n' \"$__ps_n\"") =
      some [wordToken "done", operator ";", wordToken "printf", .word (quotedText "%s\\n"), paramToken "__ps_n"] := rfl
  have hline : freeSessionNameCommand base = sessionTakenAnywhereFunction ++
      ((ascii "__ps_n=" ++ shellQuote base) ++ (ascii "; __ps_i=2; " ++
      (ascii "while __ps_taken \"$__ps_n\"; do " ++ (ascii "if [ \"$__ps_i\" -gt 200 ]; then break; fi; " ++
      ((ascii "__ps_n=" ++ shellQuote base ++ ascii "-$__ps_i") ++ (ascii "; __ps_i=$((__ps_i+1)); " ++
      ascii "done; printf '%s\\n' \"$__ps_n\"")))))) := by
    have hsplit : ascii "-$__ps_i; " ++ ascii "__ps_i=$((__ps_i+1)); " =
        ascii "-$__ps_i" ++ ascii "; __ps_i=$((__ps_i+1)); " := rfl
    simp only [freeSessionNameCommand, List.append_assoc]
    rw [← List.append_assoc (ascii "-$__ps_i; "), hsplit]
    simp only [List.append_assoc]
  show reads (freeSessionNameCommand base) = _
  rw [hline, reads_parse (by
    rw [reads_taken.line, (begins_assigned base).readsWord.line rfl, hfirst.line, hwhile.line, hif.line,
      (readsWord_numbered base).line rfl, hcount.line, hprint]
    rfl)]
  rfl

/-! ## The repositories of folders -/

def orContinueTokens : List Token := [operator "||", wordToken "continue", operator ";"]

def answerTokens (name source : String) : List Token :=
  .word (bare (name ++ "=") ++ [.output (ascii source) false]) :: orContinueTokens

def answeredTokens (name : String) : List Token :=
  words ["[", "-n"] ++ [paramToken name, wordToken "]"] ++ orContinueTokens

def probeTokens : List Token :=
  [wordToken "do", .word (bare "__ps_n=" ++ HostCommands.param "__ps_i"), operator ";",
    .word (bare "__ps_i=" ++ [.output (ascii "(__ps_i+1)") false]), operator ";"] ++
  answerTokens "__ps_g" "cd \"$__ps_d\" 2>/dev/null && git rev-parse --git-dir 2>/dev/null" ++
  answeredTokens "__ps_g" ++
  answerTokens "__ps_c" "cd \"$__ps_d\" 2>/dev/null && git rev-parse --git-common-dir 2>/dev/null" ++
  answeredTokens "__ps_c" ++
  answerTokens "__ps_ga" "cd \"$__ps_d\" && cd \"$__ps_g\" 2>/dev/null && pwd -P" ++
  answerTokens "__ps_ca" "cd \"$__ps_d\" && cd \"$__ps_c\" 2>/dev/null && pwd -P" ++
  [wordToken "[", paramToken "__ps_ga", wordToken "!=", paramToken "__ps_ca", wordToken "]"] ++ orContinueTokens ++
  [wordToken "printf", .word (quotedText "%s::%s\\n"), paramToken "__ps_n", paramToken "__ps_ca", operator ";",
    wordToken "done"]

theorem probeBody_tokens : tokens probeBody = some (operator ";" :: probeTokens) := by
  have hdo : Reads (ascii "; do ") [operator ";", wordToken "do"] := rfl
  have hcount : Reads (ascii "__ps_n=$__ps_i; __ps_i=$((__ps_i+1)); ")
      [.word (bare "__ps_n=" ++ HostCommands.param "__ps_i"), operator ";",
        .word (bare "__ps_i=" ++ [.output (ascii "(__ps_i+1)") false]), operator ";"] := rfl
  have hgit : Reads (ascii "__ps_g=$(cd \"$__ps_d\" 2>/dev/null && git rev-parse --git-dir 2>/dev/null) || continue; ")
      (answerTokens "__ps_g" "cd \"$__ps_d\" 2>/dev/null && git rev-parse --git-dir 2>/dev/null") := by
    unfold Reads
    decide +kernel
  have hgit' : Reads (ascii "[ -n \"$__ps_g\" ] || continue; ") (answeredTokens "__ps_g") := rfl
  have hcommon : Reads
      (ascii "__ps_c=$(cd \"$__ps_d\" 2>/dev/null && git rev-parse --git-common-dir 2>/dev/null) || continue; ")
      (answerTokens "__ps_c" "cd \"$__ps_d\" 2>/dev/null && git rev-parse --git-common-dir 2>/dev/null") := by
    unfold Reads
    decide +kernel
  have hcommon' : Reads (ascii "[ -n \"$__ps_c\" ] || continue; ") (answeredTokens "__ps_c") := rfl
  have hpath : Reads (ascii "__ps_ga=$(cd \"$__ps_d\" && cd \"$__ps_g\" 2>/dev/null && pwd -P) || continue; ")
      (answerTokens "__ps_ga" "cd \"$__ps_d\" && cd \"$__ps_g\" 2>/dev/null && pwd -P") := by
    unfold Reads
    decide +kernel
  have hpath' : Reads (ascii "__ps_ca=$(cd \"$__ps_d\" && cd \"$__ps_c\" 2>/dev/null && pwd -P) || continue; ")
      (answerTokens "__ps_ca" "cd \"$__ps_d\" && cd \"$__ps_c\" 2>/dev/null && pwd -P") := by
    unfold Reads
    decide +kernel
  have hsame : Reads (ascii "[ \"$__ps_ga\" != \"$__ps_ca\" ] || continue; ")
      ([wordToken "[", paramToken "__ps_ga", wordToken "!=", paramToken "__ps_ca", wordToken "]"] ++
        orContinueTokens) := rfl
  have hprint : Reads (ascii "printf '%s::%s\\n' \"$__ps_n\" \"$__ps_ca\"; ")
      [wordToken "printf", .word (quotedText "%s::%s\\n"), paramToken "__ps_n", paramToken "__ps_ca",
        operator ";"] := rfl
  have hdone : tokens (ascii "done") = some [wordToken "done"] := rfl
  unfold probeBody
  simp only [List.append_assoc]
  rw [hdo.line, hcount.line, hgit.line, hgit'.line, hcommon.line, hcommon'.line, hpath.line, hpath'.line, hsame.line,
    hprint.line, hdone]
  rfl

/-- The paths, and the loop over them. -/
theorem paths_line (paths : List Text) : tokens (Js.join space (paths.map shellQuoteRemotePath) ++ probeBody) =
    some ((paths.map fun path => (placeOf path).word).map .word ++ operator ";" :: probeTokens) := by
  by_cases hpaths : paths = []
  · subst hpaths
    exact probeBody_tokens
  · have hwords : List.Forall₂ ReadsWord (paths.map shellQuoteRemotePath)
        (paths.map fun path => (placeOf path).word) := by
      refine List.forall₂_map_left_iff.mpr (List.forall₂_map_right_iff.mpr (List.forall₂_same.mpr ?_))
      exact fun path _ => readsArg_path path
    exact Shell.tokens_join (fun h => by rw [h.line rfl, probeBody_tokens]; rfl) hwords (by simpa using hpaths)

theorem probeTokens_parsed (fuel : Nat) :
    Shell.parseDo (fuel + 40) probeTokens = some (probeScript.map Arg.word Value.word, []) := rfl

theorem gitRepoProbe_isRead (paths : List Text) : (Request.gitRepoProbe paths : Request N).IsRead := by
  have hcount : Reads (ascii "__ps_i=0; ") [wordToken "__ps_i=0", operator ";"] := rfl
  have hfor : Reads (ascii "for __ps_d in ") (words ["for", "__ps_d", "in"]) := rfl
  have hline : gitRepoProbeCommand paths = ascii "__ps_i=0; " ++ (ascii "for __ps_d in " ++
      (Js.join space (paths.map shellQuoteRemotePath) ++ probeBody)) := by
    simp only [gitRepoProbeCommand, List.append_assoc]
  show reads (gitRepoProbeCommand paths) = _
  have hloop : ∀ fuel, Shell.parseCommand (fuel + 42) (words ["for", "__ps_d", "in"] ++
      ((paths.map fun path => (placeOf path).word).map .word ++ operator ";" :: probeTokens)) =
      some (.forIn (ascii "__ps_d") (paths.map fun path => (placeOf path).word)
        (probeScript.map Arg.word Value.word), []) :=
    fun fuel => Shell.parseFor_words rfl (probeTokens_parsed fuel)
  have hscript : (gitRepoProbeScript paths).map Arg.word Value.word =
      .seq ((assign "__ps_i" (.fixed (bare "0"))).map Arg.word Value.word) (.forIn (ascii "__ps_d")
        (paths.map fun path => (placeOf path).word) (probeScript.map Arg.word Value.word)) := by
    simp only [gitRepoProbeScript, Script.map, List.map_map]
    rfl
  rw [hline, reads_parse (by rw [hcount.line, hfor.line, paths_line]; rfl)]
  show _ = some ((gitRepoProbeScript paths).map Arg.word Value.word)
  rw [hscript]
  unfold parse
  rw [Shell.parseList_seq rfl rfl (Shell.parseList_command (hloop _))]
  rfl

/-! ## Joining a session -/

def quietTokens : List Token := [.descriptor (bare "2"), operator ">", wordToken "/dev/null"]

def locateTokens (target : Word) : List Token :=
  [wordToken "__ps_sock=", operator ";"] ++ words ["for", "__ps_s", "in"] ++ [.word socketPattern, operator ";"] ++
  words ["do", "[", "-S"] ++ [paramToken "__ps_s", wordToken "]"] ++ orContinueTokens ++
  words ["if", "tmux", "-S"] ++ [paramToken "__ps_s"] ++ words ["has-session", "-t"] ++ [.word target] ++
  quietTokens ++ [operator ";", wordToken "then", .word (bare "__ps_sock=" ++ HostCommands.param "__ps_s"),
    operator ";", wordToken "break", operator ";", wordToken "fi", operator ";", wordToken "done", operator ";"]

def locatedJoinTokens (name target : Word) : List Token :=
  words ["if", "[", "-n"] ++ [paramToken "__ps_sock", wordToken "]", operator ";"] ++
  words ["then", "tmux", "-S"] ++ [paramToken "__ps_sock"] ++ words ["attach-session", "-t"] ++
  [.word target, operator ";"] ++ words ["else", "tmuxctl"] ++ [.word name, operator ";", wordToken "fi"]

theorem reads_locate (value : Text) : Reads (locate (shellQuote value)) (locateTokens (dataWord value)) := by
  have hnone : Reads (ascii "__ps_sock=; ") [wordToken "__ps_sock=", operator ";"] := rfl
  have hloop : Reads (ascii "for __ps_s in \"$\x7bTMUX_TMPDIR:-/tmp\x7d\"/tmux-$(id -u)/*; do ")
      (words ["for", "__ps_s", "in"] ++ [.word socketPattern, operator ";", wordToken "do"]) := rfl
  have hcheck : Reads (ascii "[ -S \"$__ps_s\" ] || continue; ")
      (words ["[", "-S"] ++ [paramToken "__ps_s", wordToken "]"] ++ orContinueTokens) := rfl
  have hhas : Reads (ascii "if tmux -S \"$__ps_s\" has-session -t ")
      (words ["if", "tmux", "-S"] ++ [paramToken "__ps_s"] ++ words ["has-session", "-t"]) := rfl
  have hfound : Reads (ascii " 2>/dev/null; then __ps_sock=$__ps_s; break; fi; done; ")
      (quietTokens ++ [operator ";", wordToken "then", .word (bare "__ps_sock=" ++ HostCommands.param "__ps_s"),
        operator ";", wordToken "break", operator ";", wordToken "fi", operator ";", wordToken "done",
        operator ";"]) := rfl
  have h := hnone.append (hloop.append (hcheck.append
    (hhas.append ((begins_shellQuote value).readsWord.then rfl hfound))))
  unfold locate
  simp only [List.append_assoc]
  exact h

/-- A located join with the rest of the line. -/
theorem locatedJoin_line (name target : Text) (hmore : more.head?.any isDelimiter = true) :
    tokens (locatedJoin (shellQuote name) (shellQuote target) ++ more) =
      (tokens more).map (locatedJoinTokens (dataWord name) (dataWord target) ++ ·) := by
  have hcheck : Reads (ascii "if [ -n \"$__ps_sock\" ]; then ")
      (words ["if", "[", "-n"] ++ [paramToken "__ps_sock", wordToken "]", operator ";", wordToken "then"]) := rfl
  have hjoin : Reads (ascii "tmux -S \"$__ps_sock\" attach-session -t ")
      (words ["tmux", "-S"] ++ [paramToken "__ps_sock"] ++ words ["attach-session", "-t"]) := rfl
  have hsemicolon : Reads (ascii "; ") [operator ";"] := rfl
  have helse : Reads (ascii "else tmuxctl ") (words ["else", "tmuxctl"]) := rfl
  have hfi : ReadsWord (ascii "fi") (bare "fi") := (Shell.begins_literal rfl (by decide)).readsWord
  have htext : locatedJoin (shellQuote name) (shellQuote target) ++ more =
      ascii "if [ -n \"$__ps_sock\" ]; then " ++ (ascii "tmux -S \"$__ps_sock\" attach-session -t " ++
      (shellQuote target ++ (ascii "; " ++ (ascii "else tmuxctl " ++ (shellQuote name ++
      (ascii "; " ++ (ascii "fi" ++ more))))))) := by
    have hend : ascii "; fi" = ascii "; " ++ ascii "fi" := rfl
    simp only [locatedJoin, hend, List.append_assoc]
  rw [htext, hcheck.line, hjoin.line, quote_line rfl, hsemicolon.line, helse.line, quote_line rfl, hsemicolon.line,
    hfi.line hmore]
  cases tokens more <;> rfl

/-- The tokens of an attempt on a socket that is known. -/
def directTokens (target : Word) : SocketHint → Option (List Token)
  | .unknown => none
  | .default => some (words ["tmux", "attach-session", "-t"] ++ [.word target] ++ quietTokens)
  | .socket path => some (words ["tmux", "-S"] ++ [.word (dataWord path)] ++ words ["attach-session", "-t"] ++
      [.word target] ++ quietTokens)

def joinTokens (name target : Word) (hint : SocketHint) : List Token :=
  match directTokens target hint with
  | some direct => [operator "("] ++ direct ++ [operator ")", operator "||", operator "("] ++
      locateTokens target ++ locatedJoinTokens name target ++ [operator ")"]
  | none => locateTokens target ++ locatedJoinTokens name target

theorem open_line (more : Text) : tokens (ascii "(" ++ more) = (tokens more).map (operator "(" :: ·) :=
  Shell.paren_line (.inl rfl)

theorem close_line (more : Text) : tokens (ascii ")" ++ more) = (tokens more).map (operator ")" :: ·) :=
  Shell.paren_line (.inr rfl)

theorem sweep_line (name target : Text) (hmore : more.head?.any isDelimiter = true) :
    tokens (locate (shellQuote target) ++ (locatedJoin (shellQuote name) (shellQuote target) ++ more)) =
      (tokens more).map (locateTokens (dataWord target) ++
        locatedJoinTokens (dataWord name) (dataWord target) ++ ·) := by
  rw [(reads_locate target).line, locatedJoin_line name target hmore, Option.map_map]
  congr 1

/-- The second attempt, in parentheses. -/
theorem otherwise_line (name target : Text) (h : tokens more = some rest) :
    tokens (ascii " 2>/dev/null" ++ (ascii ") || (" ++ (locate (shellQuote target) ++
      (locatedJoin (shellQuote name) (shellQuote target) ++ (ascii ")" ++ more))))) =
      some (quietTokens ++ [operator ")", operator "||", operator "("] ++ locateTokens (dataWord target) ++
        locatedJoinTokens (dataWord name) (dataWord target) ++ [operator ")"] ++ rest) := by
  have hquiet : Reads (ascii " 2>/dev/null) || ") (quietTokens ++ [operator ")", operator "||"]) := rfl
  have htext : ∀ rest : Text, ascii " 2>/dev/null" ++ (ascii ") || (" ++ rest) =
      ascii " 2>/dev/null) || " ++ (ascii "(" ++ rest) := fun _ => rfl
  rw [htext, hquiet.line, open_line, sweep_line name target rfl, close_line, h]
  simp only [Option.map_some, List.append_assoc, List.cons_append, List.nil_append]

theorem join_line (name target : Text) (hint : SocketHint)
    (hmore : more.head?.any isDelimiter = true) (h : tokens more = some rest) :
    tokens (joinCommand (shellQuote name) (shellQuote target) hint ++ more) =
      some (joinTokens (dataWord name) (dataWord target) hint ++ rest) := by
  have hattach : Reads (ascii "attach-session -t ") (words ["attach-session", "-t"]) := rfl
  have hspace : Reads space [] := rfl
  cases hint with
  | unknown =>
    show tokens (locate _ ++ locatedJoin _ _ ++ more) = some (locateTokens _ ++ locatedJoinTokens _ _ ++ rest)
    rw [List.append_assoc, sweep_line name target hmore, h]
    rfl
  | default =>
    have htmux : ReadsWord (ascii "tmux") (bare "tmux") := (Shell.begins_literal rfl (by decide)).readsWord
    show tokens (ascii "(" ++ (ascii "tmux" ++ space ++ (ascii "attach-session -t " ++ shellQuote target ++
      ascii " 2>/dev/null")) ++ ascii ") || (" ++ locate _ ++ locatedJoin _ _ ++ ascii ")" ++ more) = _
    simp only [List.append_assoc]
    rw [open_line, htmux.line rfl, hspace.line, hattach.line, quote_line rfl, otherwise_line name target h]
    simp only [joinTokens, directTokens, Option.map_some, List.append_assoc, List.cons_append, List.nil_append]
    rfl
  | socket path =>
    have htmux : Reads (ascii "tmux -S ") (words ["tmux", "-S"]) := rfl
    show tokens (ascii "(" ++ (ascii "tmux -S " ++ shellQuote path ++ space ++ (ascii "attach-session -t " ++
      shellQuote target ++ ascii " 2>/dev/null")) ++ ascii ") || (" ++ locate _ ++ locatedJoin _ _ ++
      ascii ")" ++ more) = _
    simp only [List.append_assoc]
    rw [open_line, htmux.line, quote_line rfl, hspace.line, hattach.line, quote_line rfl,
      otherwise_line name target h]
    simp only [joinTokens, directTokens, Option.map_some, List.append_assoc, List.cons_append, List.nil_append]

/-! ### The whole command -/

def handshakeTokens (ttyVar : Option Text) : List Token :=
  match ttyVar.filter (· ≠ []) with
  | some ttyVar => words ["tmux", "set-environment", "-g"] ++
      [.word (ttyVar.map .plain), .word [.quotes, .output (ascii "tty") true]] ++ quietTokens ++ [operator ";"]
  | none => []

theorem reads_handshake {ttyVar : Option Text} (h : ∀ name ∈ ttyVar, name.all Shell.isLiteral = true) :
    Reads (handshake ttyVar) (handshakeTokens ttyVar) := by
  have hset : Reads (ascii "tmux set-environment -g ") (words ["tmux", "set-environment", "-g"]) := rfl
  have htty : Reads (ascii " \"$(tty)\" 2>/dev/null" ++ ascii "; ")
      ([.word [.quotes, .output (ascii "tty") true]] ++ quietTokens ++ [operator ";"]) := rfl
  unfold handshake handshakeTokens
  cases hname : ttyVar.filter (· ≠ []) with
  | none => rfl
  | some name =>
    obtain ⟨hmem, hne⟩ := Option.filter_eq_some_iff.mp hname
    have hword := (Shell.begins_literal (h name hmem) (of_decide_eq_true hne)).readsWord
    have hread := hset.append (hword.then rfl htty)
    unfold publishClientTty
    simp only [List.append_assoc] at hread ⊢
    exact hread

theorem attach_isRead (sessionName : Text) {ttyVar : Option Text} (hint : SocketHint)
    (h : ∀ name ∈ ttyVar, name.all Shell.isLiteral = true) :
    (Request.attach sessionName ttyVar hint : Request N).IsRead := by
  have hpath : Reads (ascii "( PATH=\"" ++ userBinPath ++ ascii ":$PATH\"; ")
      [operator "(", .word (bare "PATH=" ++ userBinWord), operator ";"] := by
    unfold Reads
    decide +kernel
  have hprint : Reads (ascii " ) || printf '" ++ joinFailure ++ ascii "' ")
      [operator ")", operator "||", wordToken "printf", .word (.quotes :: joinFailure.map .quoted)] := by
    unfold Reads
    decide +kernel
  have hexit : tokens (ascii "; exit") = some [operator ";", wordToken "exit"] := rfl
  have hfailed : tokens (ascii " ) || printf '" ++ joinFailure ++ ascii "' " ++
      (shellQuote sessionName ++ ascii "; exit")) =
      some ([operator ")", operator "||", wordToken "printf", .word (.quotes :: joinFailure.map .quoted)] ++
        [.word (dataWord sessionName), operator ";", wordToken "exit"]) := by
    rw [hprint.line, quote_line rfl, hexit]
    rfl
  have htext : sessionAttachCommand sessionName ttyVar hint =
      ascii "( PATH=\"" ++ userBinPath ++ ascii ":$PATH\"; " ++ (handshake ttyVar ++
      (joinCommand (shellQuote sessionName) (shellQuote (ascii "=" ++ sessionName)) hint ++
      (ascii " ) || printf '" ++ joinFailure ++ ascii "' " ++ (shellQuote sessionName ++ ascii "; exit")))) := by
    simp only [sessionAttachCommand, List.append_assoc]
  show reads (sessionAttachCommand sessionName ttyVar hint) = some ((attachScript sessionName ttyVar hint).map _ _)
  rw [htext, reads_parse (by
    rw [hpath.line, (reads_handshake h).line, join_line _ _ hint rfl hfailed]
    rfl)]
  unfold handshakeTokens attachScript withHandshake
  cases ttyVar.filter (· ≠ []) with
  | none => cases hint <;> rfl
  | some name => cases hint <;> rfl

/-! ## The login shell -/

/-- Every line is read as the script that is meant. -/
theorem request_isRead (request : Request N) (h : request.Named) : request.IsRead := by
  cases request with
  | resolveDirectory path => exact resolveDirectory_isRead path
  | mkdir path => exact mkdir_isRead path
  | sessionExists name socketPath => exact sessionExists_isRead name socketPath
  | freeSessionName base => exact freeSessionName_isRead base
  | sessionTakenAnywhere name => exact sessionTakenAnywhere_isRead name
  | createSession name cwd => exact createSession_isRead name cwd
  | fallbackCreateSession name cwd => exact fallbackCreateSession_isRead name cwd
  | reposList options => exact reposList_isRead options
  | reposClone options => exact reposClone_isRead options
  | renameSession source target socketPath => exact renameSession_isRead source target socketPath
  | killSession name socketPath => exact killSession_isRead name socketPath
  | gitRepoProbe paths => exact gitRepoProbe_isRead paths
  | launch choice => exact launch_isRead choice
  | attach sessionName ttyVar socketPath => exact attach_isRead sessionName socketPath h

/-- The wrapper quotes a second time what its text and the command are. -/
theorem pathAware_quote (command : Text) :
    pathAwareCommand command = ascii "/bin/sh -lc " ++ shellQuote (exportPath ++ command) := by
  have hexport : shellEscapeInsideSingleQuotes exportPath = exportPath := by decide +kernel
  have hopen : ascii "/bin/sh -lc 'export PATH=\"" =
      ascii "/bin/sh -lc " ++ (ascii "'" ++ ascii "export PATH=\"") := rfl
  have hescape : shellEscapeInsideSingleQuotes (exportPath ++ command) =
      exportPath ++ shellEscapeInsideSingleQuotes command := by
    unfold shellEscapeInsideSingleQuotes at hexport ⊢
    rw [List.flatMap_append, hexport]
  unfold pathAwareCommand shellQuote
  rw [hescape, hopen]
  simp only [exportPath, List.append_assoc]

theorem reads_pathAware (command : Text) :
    reads (pathAwareCommand command) = some ((pathAwareScript command).map Arg.word Value.word) := by
  have hshell : Reads (ascii "/bin/sh -lc ") (words ["/bin/sh", "-lc"]) := rfl
  rw [pathAware_quote, reads_parse (by rw [hshell.line, quote_last]; rfl)]
  rfl

/-- What the login shell is given is the command after its own. -/
theorem reads_exported {command : Text} {script : Script Word Word} (h : reads command = some script) :
    reads (exportPath ++ command) = some (.seq (exportScript.map Arg.word Value.word) script) := by
  have hexport : Reads exportPath [wordToken "export", .word (bare "PATH=" ++ userBinWord), operator ";"] := by
    unfold Reads
    decide +kernel
  obtain ⟨added, htokens, hparse⟩ := Option.bind_eq_some_iff.mp h
  rw [reads_parse (by rw [hexport.line, htokens]; rfl)]
  refine Shell.parse_seq (fun fuel => ?_) (by simp only [List.length_append, List.length_cons]; omega) hparse
  exact Shell.parseCommand_call rfl rfl [bare "PATH=" ++ userBinWord] rfl fuel

end PocketShell.HostCommands
