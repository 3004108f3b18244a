import PocketShell.Shell.Words

/-!
# Commands of the POSIX shell

* `Script`: simple commands, lists, subshells, groups, `if`, `while`, `for`, functions.
* `parse`, `reads`: the script of a list of tokens, and of a line.
* `Script.expanded`: the script with its words expanded.
* `map_eq_map`: two readings of a script agree exactly when they agree on every word.

Pipelines, background lists, `case`, `until` and redirected compound commands are not
read: `parse` is `none` on them.
-/

namespace Shell

open Js (Text ascii)

structure Redirect (V : Type) where
  /-- Empty for the default descriptor. -/
  descriptor : Word
  operator : Text
  target : V
deriving DecidableEq

/-- A script over words `W`, and values `V` where fields are not split. -/
inductive Script (W V : Type)
  | simple (assignments : List (Text × V)) (words : List W) (redirects : List (Redirect V))
  | subshell (body : Script W V)
  | group (body : Script W V)
  | function (name : Text) (body : Script W V)
  | both (first second : Script W V)
  | either (first second : Script W V)
  | seq (first second : Script W V)
  | ifThen (condition body : Script W V)
  | ifElse (condition body otherwise : Script W V)
  | whileDo (condition body : Script W V)
  | forIn (name : Text) (words : List W) (body : Script W V)
deriving DecidableEq

/-! ## Reading -/

abbrev Parsed : Type := Script Word Word × List Token

/-- The text of a word that is not quoted and expands nothing. -/
def literal (word : Word) : Option Text :=
  word.mapM fun part =>
    match part with
    | .plain unit => some unit
    | _ => none

def isWord (text : String) (word : Word) : Bool := literal word = some (ascii text)

def reserved : List String :=
  ["if", "then", "else", "elif", "fi", "for", "while", "until", "do", "done", "case", "esac", "\x7b", "\x7d", "!"]

def isReserved (word : Word) : Bool := reserved.any (isWord · word)

/-- The words that end a list. -/
def closing : List String := ["then", "else", "elif", "fi", "do", "done", "\x7d"]

def endsList : List Token → Bool
  | [] => true
  | .operator op :: _ => op = ascii ")"
  | .word word :: _ => closing.any (isWord · word)
  | _ => false

def expectWord (text : String) : List Token → Option (List Token)
  | .word word :: rest => if isWord text word then some rest else none
  | _ => none

def expectOperator (op : String) : List Token → Option (List Token)
  | .operator text :: rest => if text = ascii op then some rest else none
  | _ => none

/-- `name=value`, with the name so far. -/
def assignmentFrom (name : Text) : Word → Option (Text × Word)
  | .plain unit :: rest =>
    if unit = 0x3d && !name.isEmpty then some (name, rest)
    else if isNameStart unit || isDigit unit && !name.isEmpty then assignmentFrom (name ++ [unit]) rest
    else none
  | _ => none

def assignment (word : Word) : Option (Text × Word) := assignmentFrom [] word

def redirections : List Text := ["<", ">", ">>", "<>", ">|", ">&", "<&"].map ascii

structure Simple where
  assignments : List (Text × Word)
  words : List Word
  redirects : List (Redirect Word)

def Simple.addWord (command : Simple) (word : Word) : Simple :=
  if command.words.isEmpty then
    match assignment word with
    | some binding => { command with assignments := command.assignments ++ [binding] }
    | none => { command with words := [word] }
  else { command with words := command.words ++ [word] }

def Simple.addRedirect (command : Simple) (redirect : Redirect Word) : Simple :=
  { command with redirects := command.redirects ++ [redirect] }

def collect (command : Simple) : List Token → Simple × List Token
  | .word word :: rest => collect (command.addWord word) rest
  | .descriptor digits :: .operator op :: .word word :: rest =>
    if redirections.contains op then collect (command.addRedirect ⟨digits, op, word⟩) rest
    else (command, .descriptor digits :: .operator op :: .word word :: rest)
  | .operator op :: .word word :: rest =>
    if redirections.contains op then collect (command.addRedirect ⟨[], op, word⟩) rest
    else (command, .operator op :: .word word :: rest)
  | rest => (command, rest)

def Simple.parsed (result : Simple × List Token) : Option Parsed :=
  if result.1.assignments.isEmpty && result.1.words.isEmpty && result.1.redirects.isEmpty then none
  else some (.simple result.1.assignments result.1.words result.1.redirects, result.2)

def parseSimple (tokens : List Token) : Option Parsed := Simple.parsed (collect ⟨[], [], []⟩ tokens)

/-- The words up to the next operator. -/
def takeWords : List Token → List Word × List Token
  | .word word :: rest => (word :: (takeWords rest).1, (takeWords rest).2)
  | rest => ([], rest)

mutual

def parseList : Nat → List Token → Option Parsed
  | 0, _ => none
  | fuel + 1, tokens => do
    let (first, rest) ← parseAndOr fuel tokens
    match expectOperator ";" rest with
    | none => some (first, rest)
    | some more =>
      if endsList more then some (first, more)
      else do
        let (others, left) ← parseList fuel more
        some (.seq first others, left)

def parseAndOr : Nat → List Token → Option Parsed
  | 0, _ => none
  | fuel + 1, tokens => do
    let (first, rest) ← parseCommand fuel tokens
    parseMore fuel first rest

def parseMore : Nat → Script Word Word → List Token → Option Parsed
  | 0, _, _ => none
  | fuel + 1, first, tokens =>
    match expectOperator "&&" tokens with
    | some rest => do
      let (second, left) ← parseCommand fuel rest
      parseMore fuel (.both first second) left
    | none =>
      match expectOperator "||" tokens with
      | some rest => do
        let (second, left) ← parseCommand fuel rest
        parseMore fuel (.either first second) left
      | none => some (first, tokens)

def parseCommand : Nat → List Token → Option Parsed
  | 0, _ => none
  | fuel + 1, .operator op :: rest =>
    if op = ascii "(" then do
      let (body, left) ← parseList fuel rest
      let left ← expectOperator ")" left
      some (.subshell body, left)
    else parseSimple (.operator op :: rest)
  | fuel + 1, .word word :: rest =>
    if isWord "\x7b" word then do
      let (body, left) ← parseList fuel rest
      let left ← expectWord "\x7d" left
      some (.group body, left)
    else if isWord "if" word then parseIf fuel rest
    else if isWord "while" word then do
      let (condition, left) ← parseList fuel rest
      let (body, left) ← parseDo fuel left
      some (.whileDo condition body, left)
    else if isWord "for" word then parseFor fuel rest
    else if isReserved word then none
    else
      match expectOperator "(" rest with
      | some more => do
        let name ← literal word
        let left ← expectOperator ")" more
        let (body, left) ← parseCommand fuel left
        some (.function name body, left)
      | none => parseSimple (.word word :: rest)
  | _ + 1, tokens => parseSimple tokens

def parseIf : Nat → List Token → Option Parsed
  | 0, _ => none
  | fuel + 1, tokens => do
    let (condition, left) ← parseList fuel tokens
    let left ← expectWord "then" left
    let (body, left) ← parseList fuel left
    match expectWord "else" left with
    | none => do
      let left ← expectWord "fi" left
      some (.ifThen condition body, left)
    | some left => do
      let (otherwise, left) ← parseList fuel left
      let left ← expectWord "fi" left
      some (.ifElse condition body otherwise, left)

def parseDo : Nat → List Token → Option Parsed
  | 0, _ => none
  | fuel + 1, tokens => do
    let left ← expectWord "do" tokens
    let (body, left) ← parseList fuel left
    let left ← expectWord "done" left
    some (body, left)

def parseFor : Nat → List Token → Option Parsed
  | 0, _ => none
  | fuel + 1, .word word :: tokens => do
    let name ← literal word
    let items ← expectWord "in" tokens
    let left ← expectOperator ";" (takeWords items).2
    let (body, left) ← parseDo fuel left
    some (.forIn name (takeWords items).1 body, left)
  | _ + 1, _ => none

end

/-- Every nesting takes a token, so there is fuel enough. -/
def parse (tokens : List Token) : Option (Script Word Word) := do
  let (script, rest) ← parseList (6 * tokens.length + 64) tokens
  if rest.isEmpty then some script else none

/-- The script of a line. -/
def reads (line : Text) : Option (Script Word Word) := (tokens line).bind parse

/-! ## What a script says -/

def Redirect.map {V V' : Type} (g : V → V') (redirect : Redirect V) : Redirect V' :=
  ⟨redirect.descriptor, redirect.operator, g redirect.target⟩

namespace Script

variable {W V W' V' : Type}

def map (f : W → W') (g : V → V') : Script W V → Script W' V'
  | .simple assignments words redirects =>
    .simple (assignments.map (Prod.map id g)) (words.map f) (redirects.map (Redirect.map g))
  | .subshell body => .subshell (body.map f g)
  | .group body => .group (body.map f g)
  | .function name body => .function name (body.map f g)
  | .both first second => .both (first.map f g) (second.map f g)
  | .either first second => .either (first.map f g) (second.map f g)
  | .seq first second => .seq (first.map f g) (second.map f g)
  | .ifThen condition body => .ifThen (condition.map f g) (body.map f g)
  | .ifElse condition body otherwise => .ifElse (condition.map f g) (body.map f g) (otherwise.map f g)
  | .whileDo condition body => .whileDo (condition.map f g) (body.map f g)
  | .forIn name words body => .forIn name (words.map f) (body.map f g)

/-- The words whose fields are split. -/
def words : Script W V → List W
  | .simple _ words _ => words
  | .subshell body | .group body | .function _ body => body.words
  | .both first second | .either first second | .seq first second => first.words ++ second.words
  | .ifThen condition body | .whileDo condition body => condition.words ++ body.words
  | .ifElse condition body otherwise => condition.words ++ (body.words ++ otherwise.words)
  | .forIn _ words body => words ++ body.words

/-- The values of assignments and the targets of redirections. -/
def values : Script W V → List V
  | .simple assignments _ redirects => assignments.map Prod.snd ++ redirects.map Redirect.target
  | .subshell body | .group body | .function _ body | .forIn _ _ body => body.values
  | .both first second | .either first second | .seq first second => first.values ++ second.values
  | .ifThen condition body | .whileDo condition body => condition.values ++ body.values
  | .ifElse condition body otherwise => condition.values ++ (body.values ++ otherwise.values)

/-- The script with the fields of every word, as it runs in an environment. -/
def expanded (env : Env) (script : Script Word Word) : Script (List Text) Text :=
  script.map (expand env) (assigned env)

theorem map_map {W'' V'' : Type} (f : W → W') (g : V → V') (f' : W' → W'') (g' : V' → V'')
    (script : Script W V) : (script.map f g).map f' g' = script.map (f' ∘ f) (g' ∘ g) := by
  induction script with
  | simple assignments words redirects =>
    simp only [map, List.map_map]
    rfl
  | forIn name words body ih => simp only [map, List.map_map, ih]
  | _ => simp only [map, *]

variable {g g' : V → V'}

theorem map_assignments_eq {assignments : List (Text × V)} :
    assignments.map (Prod.map id g) = assignments.map (Prod.map id g') ↔
      ∀ v ∈ assignments.map Prod.snd, g v = g' v := by
  simp only [List.map_inj_left, List.forall_mem_map, Prod.map, id, Prod.mk.injEq, true_and]

theorem map_redirects_eq {redirects : List (Redirect V)} :
    redirects.map (Redirect.map g) = redirects.map (Redirect.map g') ↔
      ∀ v ∈ redirects.map Redirect.target, g v = g' v := by
  simp [List.map_inj_left, Redirect.map]

/-- Two readings of a script agree exactly when they agree on every word. -/
theorem map_eq_map {f f' : W → W'} {script : Script W V} : script.map f g = script.map f' g' ↔
      (∀ w ∈ script.words, f w = f' w) ∧ ∀ v ∈ script.values, g v = g' v := by
  induction script with
  | simple assignments words redirects =>
    simp only [map, Script.words, values, Script.simple.injEq, map_assignments_eq, map_redirects_eq]
    simp only [List.map_inj_left, List.mem_append, or_imp, forall_and]
    tauto
  | forIn name words body ih =>
    simp only [map, Script.words, values, Script.forIn.injEq, ih, List.map_inj_left, List.mem_append, or_imp,
      forall_and]
    tauto
  | subshell body ih => simp only [map, Script.words, values, Script.subshell.injEq, ih]
  | group body ih => simp only [map, Script.words, values, Script.group.injEq, ih]
  | function name body ih => simp only [map, Script.words, values, Script.function.injEq, ih, true_and]
  | both first second ih ih' =>
    simp only [map, Script.words, values, Script.both.injEq, ih, ih', List.mem_append, or_imp, forall_and]
    tauto
  | either first second ih ih' =>
    simp only [map, Script.words, values, Script.either.injEq, ih, ih', List.mem_append, or_imp, forall_and]
    tauto
  | seq first second ih ih' =>
    simp only [map, Script.words, values, Script.seq.injEq, ih, ih', List.mem_append, or_imp, forall_and]
    tauto
  | ifThen condition body ih ih' =>
    simp only [map, Script.words, values, Script.ifThen.injEq, ih, ih', List.mem_append, or_imp, forall_and]
    tauto
  | ifElse condition body otherwise ih ih' ih'' =>
    simp only [map, Script.words, values, Script.ifElse.injEq, ih, ih', ih'', List.mem_append, or_imp, forall_and]
    tauto
  | whileDo condition body ih ih' =>
    simp only [map, Script.words, values, Script.whileDo.injEq, ih, ih', List.mem_append, or_imp, forall_and]
    tauto

end Script

/-! ## Lines of one simple command -/

theorem collect_words {command : Simple} (h : command.words ≠ []) (words : List Word) (rest : List Token) :
    collect command (words.map .word ++ rest) =
      collect { command with words := command.words ++ words } rest := by
  induction words generalizing command with
  | nil => simp
  | cons word words ih =>
    have hadd : command.addWord word = { command with words := command.words ++ [word] } := by
      unfold Simple.addWord
      rw [if_neg (by simpa using h)]
    show collect (command.addWord word) (words.map .word ++ rest) = _
    rw [hadd, ih (by simp)]
    simp

/-- What ends a simple command. -/
def endsCommand : List Token → Bool
  | [] => true
  | .operator op :: _ => !redirections.contains op && op ≠ ascii "("
  | _ => false

variable {rest : List Token}

theorem collect_end (h : endsCommand rest = true) (command : Simple) :
    collect command rest = (command, rest) := by
  unfold endsCommand at h
  split at h
  · rfl
  · next op more =>
    obtain ⟨hop, -⟩ := Bool.and_eq_true_iff.mp h
    have hop : op ∉ redirections := by simpa using hop
    cases more with
    | nil => rfl
    | cons token more => cases token <;> simp [collect, hop]
  · cases h

variable {first : Word}

theorem collect_call (h : assignment first = none) (words : List Word)
    (hrest : endsCommand rest = true) :
    collect ⟨[], [], []⟩ (.word first :: (words.map .word ++ rest)) = (⟨[], first :: words, []⟩, rest) := by
  have hadd : Simple.addWord ⟨[], [], []⟩ first = ⟨[], [first], []⟩ := by
    simp [Simple.addWord, h]
  show collect (Simple.addWord ⟨[], [], []⟩ first) (words.map .word ++ rest) = _
  rw [hadd, collect_words (List.cons_ne_nil _ _), collect_end hrest]
  rfl

theorem parseCommand_call (hreserved : isReserved first = false) (h : assignment first = none)
    (words : List Word) (hrest : endsCommand rest = true) (fuel : Nat) :
    parseCommand (fuel + 1) (.word first :: (words.map .word ++ rest)) =
      some (.simple [] (first :: words) [], rest) := by
  have hword : ∀ text ∈ reserved, isWord text first = false := by
    simpa [isReserved] using hreserved
  have hnext : expectOperator "(" (words.map .word ++ rest) = none := by
    cases words with
    | cons word words => rfl
    | nil =>
      unfold endsCommand at hrest
      split at hrest
      · rfl
      · obtain ⟨-, hop⟩ := Bool.and_eq_true_iff.mp hrest
        exact if_neg (of_decide_eq_true hop)
      · cases hrest
  rw [parseCommand, hword _ (by decide), hword _ (by decide), hword _ (by decide), hword _ (by decide), hreserved,
    hnext]
  show Simple.parsed (collect ⟨[], [], []⟩ (.word first :: (words.map .word ++ rest))) = _
  rw [collect_call h words hrest]
  rfl

variable {tokens : List Token} {script : Script Word Word}

theorem parseList_command {fuel : Nat}
    (h : parseCommand (fuel + 1) tokens = some (script, [])) : parseList (fuel + 3) tokens = some (script, []) := by
  have hmore : parseAndOr (fuel + 2) tokens = some (script, []) := by
    rw [parseAndOr, h]
    rfl
  rw [parseList, hmore]
  rfl

/-- Words that begin with the name of a program are a simple command. -/
theorem parse_call (hreserved : isReserved first = false) (h : assignment first = none)
    (words : List Word) : parse ((first :: words).map .word) = some (.simple [] (first :: words) []) := by
  have hcommand : ∀ fuel, parseCommand (fuel + 1) (.word first :: (words.map .word ++ [])) =
      some (.simple [] (first :: words) [], []) := parseCommand_call hreserved h words rfl
  simp only [List.append_nil] at hcommand
  unfold parse
  rw [List.map_cons, parseList_command (hcommand _)]
  rfl

/-! ## Lists and loops -/

theorem parseList_seq {tokens more left : List Token} {first others : Script Word Word} {fuel : Nat}
    (h : parseCommand (fuel + 1) tokens = some (first, .operator (ascii ";") :: more))
    (hmore : endsList more = false) (h' : parseList (fuel + 2) more = some (others, left)) :
    parseList (fuel + 3) tokens = some (.seq first others, left) := by
  have hfirst : parseAndOr (fuel + 2) tokens = some (first, .operator (ascii ";") :: more) := by
    rw [parseAndOr, h]
    rfl
  have hsemicolon : expectOperator ";" (.operator (ascii ";") :: more) = some more := rfl
  rw [parseList, hfirst]
  simp only [bind, Option.bind, hsemicolon, hmore, h']
  rfl

theorem takeWords_operator (words : List Word) (op : Text) (rest : List Token) :
    takeWords (words.map .word ++ .operator op :: rest) = (words, .operator op :: rest) := by
  induction words with
  | nil => rfl
  | cons word words ih =>
    rw [List.map_cons, List.cons_append, takeWords, ih]

theorem parseFor_words {name : Word} {text : Text} {words : List Word} {body left : List Token}
    {fuel : Nat} (hname : literal name = some text)
    (hbody : parseDo fuel body = some (script, left)) :
    parseFor (fuel + 1) (.word name :: .word ((ascii "in").map .plain) ::
      (words.map .word ++ .operator (ascii ";") :: body)) = some (.forIn text words script, left) := by
  have hin : ∀ more, expectWord "in" (.word ((ascii "in").map .plain) :: more) = some more := fun _ => rfl
  have hsemicolon : expectOperator ";" (.operator (ascii ";") :: body) = some body := rfl
  rw [parseFor, hname]
  simp only [hin, takeWords_operator, hsemicolon, hbody, bind, Option.bind]

/-! ## Fuel -/

/-- More fuel reads the same. -/
structure Grows (fuel : Nat) : Prop where
  list : ∀ {tokens r}, parseList fuel tokens = some r → parseList (fuel + 1) tokens = some r
  andOr : ∀ {tokens r}, parseAndOr fuel tokens = some r → parseAndOr (fuel + 1) tokens = some r
  more : ∀ {first tokens r}, parseMore fuel first tokens = some r → parseMore (fuel + 1) first tokens = some r
  command : ∀ {tokens r}, parseCommand fuel tokens = some r → parseCommand (fuel + 1) tokens = some r
  conditional : ∀ {tokens r}, parseIf fuel tokens = some r → parseIf (fuel + 1) tokens = some r
  loop : ∀ {tokens r}, parseDo fuel tokens = some r → parseDo (fuel + 1) tokens = some r
  each : ∀ {tokens r}, parseFor fuel tokens = some r → parseFor (fuel + 1) tokens = some r

theorem bind_grows {α β : Type} {x y : Option α} {f g : α → Option β} {r : β} (h : x >>= f = some r)
    (hx : ∀ a, x = some a → y = some a) (hf : ∀ a, f a = some r → g a = some r) : y >>= g = some r := by
  obtain ⟨a, ha, h⟩ := Option.bind_eq_some_iff.mp h
  exact Option.bind_eq_some_iff.mpr ⟨a, hx a ha, hf a h⟩

theorem grows (fuel : Nat) : Grows fuel := by
  induction fuel with
  | zero =>
    constructor <;> exact fun h => by cases h
  | succ fuel ih =>
    constructor
    case list =>
      intro tokens r h
      rw [parseList] at h ⊢
      refine bind_grows h (fun a => ih.andOr) fun a h => ?_
      cases hop : expectOperator ";" a.2 with
      | none => simpa only [hop] using h
      | some rest =>
        simp only [hop] at h ⊢
        split
        · simpa only [*, if_true] using h
        · next hends =>
          rw [if_neg hends] at h
          exact bind_grows h (fun a => ih.list) fun a h => h
    case andOr =>
      intro tokens r h
      rw [parseAndOr] at h ⊢
      exact bind_grows h (fun a => ih.command) fun a => ih.more
    case more =>
      intro first tokens r h
      rw [parseMore] at h ⊢
      cases hand : expectOperator "&&" tokens with
      | some rest =>
        simp only [hand] at h ⊢
        exact bind_grows h (fun a => ih.command) fun a => ih.more
      | none =>
        simp only [hand] at h ⊢
        cases hor : expectOperator "||" tokens with
        | some rest =>
          simp only [hor] at h ⊢
          exact bind_grows h (fun a => ih.command) fun a => ih.more
        | none => simpa only [hor] using h
    case command =>
      intro tokens r h
      cases tokens with
      | nil => exact h
      | cons token rest =>
        cases token with
        | descriptor digits => exact h
        | operator op =>
          rw [parseCommand] at h ⊢
          split
          · next hop =>
            rw [if_pos hop] at h
            exact bind_grows h (fun a => ih.list) fun a h => h
          · next hop => rwa [if_neg hop] at h
        | word parts =>
          rw [parseCommand] at h ⊢
          split
          · next hword =>
            rw [if_pos hword] at h
            exact bind_grows h (fun a => ih.list) fun a h => h
          next hword =>
          rw [if_neg hword] at h
          split
          · next hword =>
            rw [if_pos hword] at h
            exact ih.conditional h
          next hword =>
          rw [if_neg hword] at h
          split
          · next hword =>
            rw [if_pos hword] at h
            exact bind_grows h (fun a => ih.list) fun a h => bind_grows h (fun a => ih.loop) fun a h => h
          next hword =>
          rw [if_neg hword] at h
          split
          · next hword =>
            rw [if_pos hword] at h
            exact ih.each h
          next hword =>
          rw [if_neg hword] at h
          split
          · next hword =>
            rw [if_pos hword] at h
            cases h
          next hword =>
          rw [if_neg hword] at h
          cases hopen : expectOperator "(" rest with
          | none => simpa only [hopen] using h
          | some more =>
            simp only [hopen] at h ⊢
            refine bind_grows h (fun a h => h) fun name h => ?_
            refine bind_grows h (fun a h => h) fun left h => ?_
            exact bind_grows h (fun a => ih.command) fun a h => h
    case conditional =>
      intro tokens r h
      rw [parseIf] at h ⊢
      refine bind_grows h (fun a => ih.list) fun condition h => ?_
      refine bind_grows h (fun a h => h) fun left h => ?_
      refine bind_grows h (fun a => ih.list) fun body h => ?_
      cases helse : expectWord "else" body.2 with
      | none => simpa only [helse] using h
      | some left =>
        simp only [helse] at h ⊢
        exact bind_grows h (fun a => ih.list) fun a h => h
    case loop =>
      intro tokens r h
      rw [parseDo] at h ⊢
      refine bind_grows h (fun a h => h) fun a h => ?_
      exact bind_grows h (fun a => ih.list) fun a h => h
    case each =>
      intro tokens r h
      cases tokens with
      | nil => cases h
      | cons token rest =>
        cases token with
        | word parts =>
          rw [parseFor] at h ⊢
          refine bind_grows h (fun a h => h) fun name h => ?_
          refine bind_grows h (fun a h => h) fun items h => ?_
          refine bind_grows h (fun a h => h) fun left h => ?_
          exact bind_grows h (fun a => ih.loop) fun a h => h
        | _ => cases h

theorem parseList_grows {fuel more : Nat} (h : fuel ≤ more) {r : Parsed}
    (hr : parseList fuel tokens = some r) : parseList more tokens = some r := by
  induction h with
  | refl => exact hr
  | step _ ih => exact (grows _).list ih

/-- What ends a list begins none. -/
theorem parse_begins (h : parse tokens = some script) : endsList tokens = false := by
  by_contra hends
  rw [Bool.not_eq_false] at hends
  have hnone : ∀ fuel, parseCommand (fuel + 1) tokens = none := by
    intro fuel
    unfold endsList at hends
    split at hends
    · rfl
    · next op rest =>
      cases of_decide_eq_true hends
      rw [parseCommand, if_neg (by decide)]
      cases rest with
      | nil => rfl
      | cons token rest => cases token <;> rfl
    · next word rest =>
      obtain ⟨text, htext, hword⟩ := List.any_eq_true.mp hends
      have hliteral : literal word = some (ascii text) := of_decide_eq_true hword
      have hclosing : ∀ text ∈ closing, text ∈ reserved ∧
          ∀ text' ∈ ["\x7b", "if", "while", "for"], ascii text ≠ ascii text' := by decide
      obtain ⟨hmem, hne⟩ := hclosing text htext
      have hother : ∀ text' ∈ ["\x7b", "if", "while", "for"], isWord text' word = false := by
        intro text' htext'
        unfold isWord
        rw [hliteral]
        exact decide_eq_false fun h => hne text' htext' (Option.some.inj h)
      have hreserved : isReserved word = true := List.any_eq_true.mpr ⟨text, hmem, hword⟩
      rw [parseCommand, hother _ (by decide), hother _ (by decide), hother _ (by decide), hother _ (by decide),
        hreserved]
      rfl
    · cases hends
  have hlist : parseList (6 * tokens.length + 64) tokens = none := by
    rw [parseList, parseAndOr, hnone]
    rfl
  unfold parse at h
  rw [hlist] at h
  cases h

/-- A command in front of a script. -/
theorem parse_seq {tokens more : List Token} {first script : Script Word Word}
    (hfirst : ∀ fuel, parseCommand (fuel + 1) tokens = some (first, .operator (ascii ";") :: more))
    (hlength : more.length < tokens.length) (h : parse more = some script) :
    parse tokens = some (.seq first script) := by
  have hbegins := parse_begins h
  unfold parse at h ⊢
  obtain ⟨⟨others, rest⟩, hothers, h⟩ := Option.bind_eq_some_iff.mp h
  have hgrown := parseList_grows (show 6 * more.length + 64 ≤ 6 * tokens.length + 61 + 2 by omega) hothers
  have h : (if rest.isEmpty then some others else none) = some script := h
  rw [parseList_seq (hfirst _) hbegins hgrown]
  show (if rest.isEmpty then some (Script.seq first others) else none) = _
  by_cases hrest : rest.isEmpty
  · rw [if_pos hrest] at h ⊢
    cases h
    rfl
  · rw [if_neg hrest] at h
    cases h

end Shell
