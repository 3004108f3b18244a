import PocketShell.HostCommands.Reading
import PocketShell.Js.Number

/-!
# What the host commands run

* `path_mem`: the words of a script that are paths.
* `request_runs`: a request runs the script that is meant, with the words that are meant,
  exactly when the home directory is not split in it.
* `commands_run`: the quoting, the requests and the login-shell wrapper together.
-/

namespace PocketShell.HostCommands

open Js (Text ascii JsNumber)
open Shell (Word Script expand assigned reads isIfs)

/-! ## Words -/

section

variable (env : Shell.Env)

theorem assigned_plain (text : Text) : assigned env (text.map .plain) = text := by
  induction text with
  | nil => rfl
  | cons unit rest ih =>
    show unit :: assigned env (rest.map .plain) = _
    rw [ih]

theorem expand_plain (text : Text) : expand env (text.map .plain) = if text = [] then [] else [text] := by
  split
  · next h =>
    subst h
    rfl
  · next h =>
    have hwhole : ∀ unit, Shell.Piece.char unit true ∉ (text.map Shell.Part.plain).flatMap (Shell.Part.expand env) := by
      intro unit hmem
      obtain ⟨part, hpart, hpiece⟩ := List.mem_flatMap.mp hmem
      obtain ⟨c, -, rfl⟩ := List.mem_map.mp hpart
      cases List.mem_singleton.mp hpiece
    have hpieces : (text.map Shell.Part.plain).flatMap (Shell.Part.expand env) ≠ [] := by
      simpa [Shell.Part.expand] using List.exists_mem_of_ne_nil text h
    rw [Shell.expand_whole hpieces hwhole, assigned_plain]

theorem Value.assigned_word (value : Value) : assigned env value.word = value.text env := by
  cases value with
  | fixed word => rfl
  | data value => exact assigned_dataWord env value
  | followed value word =>
    show assigned env (dataWord value ++ word) = _
    rw [assigned_append, assigned_dataWord]
    rfl

/-- Only a path can be split. -/
theorem Arg.expand_word (arg : Arg) (hne : homeOf env ≠ []) :
    expand env arg.word = arg.fields env ↔ ∀ place, arg = .path place → place.Whole (homeOf env) := by
  cases arg with
  | fixed word => exact iff_of_true rfl fun _ h => by cases h
  | name text => exact iff_of_true (expand_plain env text) fun _ h => by cases h
  | data value => exact iff_of_true (expand_dataWord env value) fun _ h => by cases h
  | path place =>
    refine (place.expand_word env hne).trans ⟨fun h _ hplace => ?_, fun h => h place rfl⟩
    cases hplace
    exact h

end

/-! ## Paths -/

variable {N : Type} [JsNumber N]

variable {place : Place}

theorem path_flagged {α : Type} {flag : String} {value : Option α} {arg : α → Arg} :
    .path place ∈ flaggedArg flag (value.map arg) ↔ ∃ a, value = some a ∧ .path place = arg a := by
  cases value with
  | none => simp [flaggedArg]
  | some a => simp [flaggedArg, fixed]

theorem words_call (words : List Arg) : (call words).words = words := rfl

theorem path_serverArgs {socketPath : Option Text} : .path place ∉ serverArgs socketPath := by
  unfold serverArgs
  split <;> simp [fixed]

theorem path_attach {sessionName : Text} {ttyVar : Option Text} {hint : SocketHint} :
    .path place ∉ (attachScript sessionName ttyVar hint).words := by
  unfold attachScript withHandshake joinScript
  cases ttyVar.filter (· ≠ []) <;> cases hint <;>
    simp [SocketHint.server, sweepScript, locateScript, locatedJoinScript, orContinue, isSocket, Script.words, call,
      quietly, assign, fixed]

/-- The words of a script that are paths. -/
theorem path_mem (request : Request N) (place : Place) :
    .path place ∈ request.script.words ↔ ∃ path ∈ request.paths, place = placeOf path := by
  cases request with
  | attach sessionName ttyVar hint => exact iff_of_false path_attach (by simp [Request.paths])
  | resolveDirectory path => simp [Request.script, Request.paths, Script.words, call, fixed]
  | mkdir path => simp [Request.script, Request.paths, words_call, fixed]
  | sessionExists name socketPath =>
    simp [Request.script, Request.paths, quietly, Script.words, fixed, path_serverArgs]
  | freeSessionName base =>
    simp [Request.script, Request.paths, freeNameScript, takenScript, isSocket, quietly, call, assign, Script.words,
      fixed]
  | sessionTakenAnywhere name =>
    simp [Request.script, Request.paths, takenScript, isSocket, quietly, call, Script.words, fixed]
  | createSession name cwd => simp [Request.script, Request.paths, words_call, fixed]
  | fallbackCreateSession name cwd => simp [Request.script, Request.paths, words_call, fixed]
  | renameSession source target socketPath =>
    simp [Request.script, Request.paths, words_call, fixed, path_serverArgs]
  | killSession name socketPath => simp [Request.script, Request.paths, words_call, fixed, path_serverArgs]
  | gitRepoProbe paths =>
    simp [Request.script, Request.paths, gitRepoProbeScript, probeScript, answer, answered, orContinue, call, assign,
      Script.words, fixed, eq_comm]
  | launch choice =>
    have hkind : ¬ Arg.path place = kindArg choice.kind := by
      unfold kindArg
      split <;> simp
    have hpermissions : .path place ∉ permissionArgs choice := by
      unfold permissionArgs
      split <;> simp [fixed]
    simp [Request.script, Request.paths, words_call, launchArgs, fixed, hkind, hpermissions, path_flagged]
  | reposClone options =>
    simp [Request.script, Request.paths, words_call, reposCloneArgs, fixed, path_flagged]
  | reposList options =>
    have hnumber : ∀ flag (text : Option Text), .path place ∉ flaggedArg flag (text.map .name) :=
      fun flag text h => by
        obtain ⟨_, -, h⟩ := path_flagged.mp h
        cases h
    unfold Request.script Request.paths
    simp only [words_call, reposListArgs, reposListFlagArgs]
    cases options.scope with
    | «local» =>
      simp only [List.mem_cons, fixed, reduceCtorEq, false_or, List.mem_append, hnumber, or_false, List.mem_flatMap,
        Arg.path.injEq, List.not_mem_nil]
    | remote =>
      simp only [List.mem_cons, fixed, reduceCtorEq, false_or, hnumber, List.not_mem_nil, false_and, exists_false]

/-! ## Requests -/

theorem map_expanded (env : Shell.Env) (script : Intended) : (script.map Arg.word Value.word).expanded env =
    script.map (fun arg => expand env arg.word) (fun value => assigned env value.word) :=
  Script.map_map _ _ _ _ script

/-- A request runs the script that is meant exactly when no home directory is split in it. -/
theorem request_runs (request : Request N) (hnamed : request.Named) (env : Shell.Env) (hhome : homeOf env ≠ []) :
    (reads request.command).map (Script.expanded env) = some (request.intended env) ↔
      ∀ path ∈ request.paths, (placeOf path).Whole (homeOf env) := by
  rw [request_isRead request hnamed, Option.map_some, map_expanded, Option.some.injEq, Request.intended,
    Script.map_eq_map]
  simp only [Arg.expand_word env _ hhome, Value.assigned_word, implies_true, and_true]
  constructor
  · intro h path hpath
    exact h _ ((path_mem request _).mpr ⟨path, hpath, rfl⟩) _ rfl
  · rintro h arg harg place rfl
    obtain ⟨path, hpath, rfl⟩ := (path_mem request place).mp harg
    exact h path hpath

/-- The script of the login shell, with the words that are meant. -/
def Request.exported (request : Request N) (env : Shell.Env) : Script (List Text) Text :=
  .seq (exportScript.map (Arg.fields env) (Value.text env)) (request.intended env)

/-- Below the login-shell wrapper it is the same. -/
theorem request_exported (request : Request N) (hnamed : request.Named) (env : Shell.Env) (hhome : homeOf env ≠ []) :
    (reads (exportPath ++ request.command)).map (Script.expanded env) = some (request.exported env) ↔
      ∀ path ∈ request.paths, (placeOf path).Whole (homeOf env) := by
  have hread := request_isRead request hnamed
  rw [← request_runs request hnamed env hhome, reads_exported hread, hread]
  simp only [Option.map_some, Option.some.injEq, Script.expanded, Script.map, Request.exported, Script.seq.injEq]
  exact ⟨fun h => h.2, fun h => ⟨rfl, h⟩⟩

theorem pathAware_runs (command : Text) (env : Shell.Env) :
    (reads (pathAwareCommand command)).map (Script.expanded env) =
      some ((pathAwareScript command).map (Arg.fields env) (Value.text env)) := by
  rw [reads_pathAware, Option.map_some, map_expanded]
  refine congrArg some (Script.map_eq_map.mpr ⟨fun arg harg => ?_, fun value _ => Value.assigned_word env value⟩)
  simp only [pathAwareScript, words_call, List.mem_cons, List.not_mem_nil, or_false] at harg
  obtain rfl | rfl | rfl := harg
  · rfl
  · rfl
  · exact expand_dataWord env _

/-! ## The whole -/

theorem commands_run (env : Shell.Env) (hhome : (homeOf env).head? = some 0x2f) :
    (∀ value, Shell.fieldsOf env (shellQuote value) = some [value]) ∧
      (∀ path, Shell.fieldsOf env (shellQuoteRemotePath path) = some [(placeOf path).at (homeOf env)] ↔
        (placeOf path).Whole (homeOf env)) ∧
      (∀ request : Request N, request.Named →
        ((reads request.command).map (Script.expanded env) = some (request.intended env) ↔
          ∀ path ∈ request.paths, (placeOf path).Whole (homeOf env))) ∧
      (∀ command, (reads (pathAwareCommand command)).map (Script.expanded env) =
        some ((pathAwareScript command).map (Arg.fields env) (Value.text env))) ∧
      ∀ request : Request N, request.Named →
        ((reads (exportPath ++ request.command)).map (Script.expanded env) = some (request.exported env) ↔
          ∀ path ∈ request.paths, (placeOf path).Whole (homeOf env)) := by
  have hne : homeOf env ≠ [] := by
    intro h
    rw [h] at hhome
    cases hhome
  refine ⟨fun value => ?_, fun path => ?_, fun request h => request_runs request h env hne,
    fun command => pathAware_runs command env, fun request h => request_exported request h env hne⟩
  · rw [(begins_shellQuote value).readsWord.fields, expand_dataWord]
  · rw [shellQuoteRemotePath_text, (placeOf path).readsWord.fields, Option.some.injEq]
    exact (placeOf path).expand_word env hne

omit [JsNumber N] in
/-- What `clientTtyVar` returns can stand in a command. -/
theorem clientTtyVar_named (token sessionName : Text) (hint : SocketHint) :
    (Request.attach sessionName (some (clientTtyVar token)) hint : Request N).Named := by
  rintro name ⟨⟩
  rw [clientTtyVar, List.all_append, Bool.and_eq_true]
  refine ⟨rfl, List.all_eq_true.mpr fun unit hunit => isNameUnit_literal ?_⟩
  exact (List.mem_filter.mp hunit).2

/-- A home directory with a blank in its name. -/
def blankHome : Shell.Env := ⟨fun _ => ascii "/home/my user", fun _ => []⟩

/-- The path of a new session becomes two words. -/
theorem path_splits : (homeOf blankHome).head? = some 0x2f ∧
    Shell.fieldsOf blankHome (shellQuoteRemotePath (ascii "~/git")) = some [ascii "/home/my", ascii "user/git"] ∧
    (reads (createSessionCommand (ascii "git") (ascii "~/git"))).map (Script.expanded blankHome) ≠
      some ((Request.createSession (ascii "git") (ascii "~/git") : Request Js.Numeral).intended blankHome) := by
  decide +kernel

/-- An attach with a quote in the name of the session, and one in the path of its socket. -/
def attachQuoted : Request Js.Numeral :=
  .attach (ascii "it's") (some (clientTtyVar (ascii "a-b"))) (.socket (ascii "/tmp/o'k"))

theorem commands_run_blank : Shell.fieldsOf blankHome (shellQuote (ascii "it's")) = some [ascii "it's"] ∧
    (reads attachQuoted.command).map (Script.expanded blankHome) = some (attachQuoted.intended blankHome) ∧
    (reads (exportPath ++ attachQuoted.command)).map (Script.expanded blankHome) =
      some (attachQuoted.exported blankHome) := by
  have hnamed : attachQuoted.Named := clientTtyVar_named _ _ _
  have hwhole : ∀ path ∈ attachQuoted.paths, (placeOf path).Whole (homeOf blankHome) := fun _ h => by cases h
  obtain ⟨hquote, -, hrun, -, hexported⟩ := commands_run (N := Js.Numeral) blankHome rfl
  exact ⟨hquote _, (hrun attachQuoted hnamed).mpr hwhole, (hexported attachQuoted hnamed).mpr hwhole⟩

end PocketShell.HostCommands
