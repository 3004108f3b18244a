import PocketShell.Js.Text

/-!
# Words of the POSIX shell

* `tokens`: how a line is cut into words and operators.
* `expand`: what a word becomes (parameter expansion, field splitting with the default
  `IFS`, quote removal).
* `Reads`, `ReadsWord`: what a piece of a line adds to the tokens, wherever it stands.

Lines are read as far as they have no comment, here-document, backquote, tilde prefix or
unquoted newline: on any other line `tokens` is `none`.
-/

namespace Shell

open Js (Text ascii)

/-! ## Words -/

inductive Part
  /-- Not quoted. -/
  | plain (unit : UInt16)
  /-- In quotes, or after a backslash. -/
  | quoted (unit : UInt16)
  /-- Quotes were opened here. -/
  | quotes
  /-- `$name` or `$` with an expression in braces. -/
  | param (expression : Text) (inQuotes : Bool)
  /-- `$(source)`; it is arithmetic when `source` is in parentheses. -/
  | output (source : Text) (inQuotes : Bool)
deriving DecidableEq

abbrev Word : Type := List Part

inductive Token
  | word (parts : Word)
  /-- The digits in front of a redirection. -/
  | descriptor (digits : Word)
  | operator (text : Text)
deriving DecidableEq

/-! ## Reading a line -/

def singleQuote : UInt16 := 0x27
def doubleQuote : UInt16 := 0x22
def backslash : UInt16 := 0x5c
def dollar : UInt16 := 0x24
def backquote : UInt16 := 0x60

def isBlank (unit : UInt16) : Bool := unit = 0x20 || unit = 0x09

/-- `|`, `&`, `;`, `<`, `>`, `(`, `)` -/
def isOperator (unit : UInt16) : Bool :=
  unit = 0x7c || unit = 0x26 || unit = 0x3b || unit = 0x3c || unit = 0x3e || unit = 0x28 || unit = 0x29

/-- The operators of two units. -/
def pairs : List Text := ["&&", "||", ";;", ">>", "<&", ">&", "<>", ">|"].map ascii

def isDigit (unit : UInt16) : Bool := 0x30 ≤ unit && unit ≤ 0x39

def isNameStart (unit : UInt16) : Bool :=
  0x41 ≤ unit && unit ≤ 0x5a || 0x61 ≤ unit && unit ≤ 0x7a || unit = 0x5f

def isNameUnit (unit : UInt16) : Bool := isNameStart unit || isDigit unit

/-- The quotes inside a `$(…)`. -/
inductive Inner
  | none
  | single
  | double
deriving DecidableEq

inductive Mode
  | plain
  | escape
  | single
  | double
  | escapeDouble
  | dollar (inQuotes : Bool)
  | name (inQuotes : Bool) (text : Text)
  | brace (inQuotes : Bool) (text : Text)
  | parens (inQuotes : Bool) (depth : Nat) (inner : Inner) (text : Text)
  | operator (unit : UInt16)
  | unsupported
deriving DecidableEq

structure State where
  tokens : List Token
  word : Option Word
  mode : Mode
deriving DecidableEq

def State.add (s : State) (part : Part) : State := { s with word := some (s.word.getD [] ++ [part]) }

def State.push (s : State) (token : Token) : State := { s with tokens := s.tokens ++ [token] }

def State.to (s : State) (mode : Mode) : State := { s with mode := mode }

def State.endWord (s : State) : State :=
  match s.word with
  | none => s
  | some parts => { s.push (.word parts) with word := none }

def isDescriptor (parts : Word) : Bool :=
  parts.all fun part =>
    match part with
    | .plain unit => isDigit unit
    | _ => false

/-- The word in front of an operator; digits in front of `<` or `>` are a descriptor. -/
def State.endBefore (s : State) (unit : UInt16) : State :=
  match s.word with
  | none => s
  | some parts =>
    if (unit = 0x3c || unit = 0x3e) && isDescriptor parts then
      { s.push (.descriptor parts) with word := none }
    else s.endWord

/-- Units that start a comment or a tilde prefix where a word starts, and newlines. -/
def State.refuses (s : State) (unit : UInt16) : Bool :=
  unit = backquote || unit = 0x0a || unit = 0x7e || unit = 0x23 && s.word = none

def State.unquoted (s : State) (unit : UInt16) : State :=
  if unit = singleQuote then (s.add .quotes).to .single
  else if unit = doubleQuote then (s.add .quotes).to .double
  else if unit = backslash then s.to .escape
  else if unit = dollar then s.to (.dollar false)
  else if isBlank unit then s.endWord.to .plain
  else if isOperator unit then (s.endBefore unit).to (.operator unit)
  else if s.refuses unit then s.to .unsupported
  else (s.add (.plain unit)).to .plain

def State.inDouble (s : State) (unit : UInt16) : State :=
  if unit = doubleQuote then s.to .plain
  else if unit = backslash then s.to .escapeDouble
  else if unit = dollar then s.to (.dollar true)
  else if unit = backquote then s.to .unsupported
  else (s.add (.quoted unit)).to .double

/-- Go on in or outside double quotes. -/
def State.goOn (s : State) (inQuotes : Bool) (unit : UInt16) : State :=
  if inQuotes then s.inDouble unit else s.unquoted unit

def State.back (s : State) (inQuotes : Bool) : State := s.to (if inQuotes then .double else .plain)

/-- A dollar that expands nothing. -/
def State.addDollar (s : State) (inQuotes : Bool) : State :=
  s.add (if inQuotes then .quoted dollar else .plain dollar)

/-- A unit of the source of `$(…)`. -/
def State.inParens (s : State) (inQuotes : Bool) (depth : Nat) (inner : Inner) (text : Text)
    (unit : UInt16) : State :=
  let more := text ++ [unit]
  match inner with
  | .single => s.to (.parens inQuotes depth (if unit = singleQuote then .none else .single) more)
  | .double =>
    if unit = doubleQuote then s.to (.parens inQuotes depth .none more)
    else if unit = backslash || unit = backquote || unit = 0x28 || unit = 0x29 then s.to .unsupported
    else s.to (.parens inQuotes depth .double more)
  | .none =>
    if unit = singleQuote then s.to (.parens inQuotes depth .single more)
    else if unit = doubleQuote then s.to (.parens inQuotes depth .double more)
    else if unit = 0x28 then s.to (.parens inQuotes (depth + 1) .none more)
    else if unit = 0x29 then
      match depth with
      | 0 => (s.add (.output text inQuotes)).back inQuotes
      | depth + 1 => s.to (.parens inQuotes depth .none more)
    else if unit = backslash || unit = backquote || unit = 0x23 then s.to .unsupported
    else s.to (.parens inQuotes depth .none more)

def step (s : State) (unit : UInt16) : State :=
  match s.mode with
  | .plain => s.unquoted unit
  | .escape => if unit = 0x0a then s.to .unsupported else (s.add (.quoted unit)).to .plain
  | .single => if unit = singleQuote then s.to .plain else s.add (.quoted unit)
  | .double => s.inDouble unit
  | .escapeDouble =>
    if unit = dollar || unit = backquote || unit = doubleQuote || unit = backslash then
      (s.add (.quoted unit)).to .double
    else if unit = 0x0a then s.to .unsupported
    else ((s.add (.quoted backslash)).add (.quoted unit)).to .double
  | .dollar inQuotes =>
    if isNameStart unit then s.to (.name inQuotes [unit])
    else if unit = 0x7b then s.to (.brace inQuotes [])
    else if unit = 0x28 then s.to (.parens inQuotes 0 .none [])
    else if isDigit unit || (ascii "@*#?-$!").contains unit then
      (s.add (.param [unit] inQuotes)).back inQuotes
    else (s.addDollar inQuotes).goOn inQuotes unit
  | .name inQuotes text =>
    if isNameUnit unit then s.to (.name inQuotes (text ++ [unit]))
    else (s.add (.param text inQuotes)).goOn inQuotes unit
  | .brace inQuotes text =>
    if unit = 0x7d then (s.add (.param text inQuotes)).back inQuotes
    else if unit = singleQuote || unit = doubleQuote || unit = backslash || unit = dollar ||
        unit = backquote || unit = 0x7b then s.to .unsupported
    else s.to (.brace inQuotes (text ++ [unit]))
  | .parens inQuotes depth inner text => s.inParens inQuotes depth inner text unit
  | .operator first =>
    if [first, unit] = ascii "<<" then s.to .unsupported
    else if pairs.contains [first, unit] then (s.push (.operator [first, unit])).to .plain
    else (s.push (.operator [first])).unquoted unit
  | .unsupported => s

def run (s : State) (text : Text) : State := text.foldl step s

def start : State := ⟨[], none, .plain⟩

/-- The tokens at the end of a line; quotes and substitutions have to be closed. -/
def State.finish (s : State) : Option (List Token) :=
  match s.mode with
  | .plain => some s.endWord.tokens
  | .dollar false => some (s.addDollar false).endWord.tokens
  | .name false text => some (s.add (.param text false)).endWord.tokens
  | .operator unit => some (s.push (.operator [unit])).tokens
  | _ => none

def tokens (line : Text) : Option (List Token) := (run start line).finish

/-! ## Expanding a word -/

/-- The parameters, and what command substitutions print. -/
structure Env where
  param : Text → Text
  output : Text → Text

/-- What a part of a word expands to: units, with those that fields are split at marked. -/
inductive Piece
  | char (unit : UInt16) (splits : Bool)
  | quotes

/-- Space, tab and newline. -/
def isIfs (unit : UInt16) : Bool := unit = 0x20 || unit = 0x09 || unit = 0x0a

def Part.expand (env : Env) : Part → List Piece
  | .plain unit => [.char unit false]
  | .quoted unit => [.char unit false]
  | .quotes => [.quotes]
  | .param expression inQuotes => (env.param expression).map fun unit => .char unit (!inQuotes && isIfs unit)
  | .output source inQuotes => (env.output source).map fun unit => .char unit (!inQuotes && isIfs unit)

/-- Field splitting: `field` is the field that was begun. -/
def fieldsFrom (field : Option Text) : List Piece → List Text
  | [] => field.toList
  | .quotes :: rest => fieldsFrom (some (field.getD [])) rest
  | .char unit splits :: rest =>
    if splits then field.toList ++ fieldsFrom none rest
    else fieldsFrom (some (field.getD [] ++ [unit])) rest

/-- The fields of a word. -/
def expand (env : Env) (word : Word) : List Text := fieldsFrom none (word.flatMap (Part.expand env))

def Token.word? : Token → Option Word
  | .word parts => some parts
  | _ => none

/-- The fields of a line that has only words. -/
def fieldsOf (env : Env) (line : Text) : Option (List Text) :=
  ((tokens line).bind fun tokens => tokens.mapM Token.word?).map fun words => words.flatMap (expand env)

def Piece.text : Piece → Text
  | .char unit _ => [unit]
  | .quotes => []

/-- The value of a word where fields are not split: in an assignment or a redirection. -/
def assigned (env : Env) (word : Word) : Text := (word.flatMap (Part.expand env)).flatMap Piece.text

/-! ## Pieces of a line -/

/-- The state with earlier tokens in front. -/
def State.after (earlier : List Token) (s : State) : State := { s with tokens := earlier ++ s.tokens }

section

variable {s : State} {earlier : List Token}

@[simp] theorem after_mode : (s.after earlier).mode = s.mode := rfl

@[simp] theorem after_word : (s.after earlier).word = s.word := rfl

@[simp] theorem add_after {part : Part} : (s.after earlier).add part = (s.add part).after earlier := rfl

@[simp] theorem to_after {mode : Mode} : (s.after earlier).to mode = (s.to mode).after earlier := rfl

variable {inQuotes : Bool}

@[simp] theorem back_after : (s.after earlier).back inQuotes = (s.back inQuotes).after earlier := rfl

@[simp] theorem addDollar_after :
    (s.after earlier).addDollar inQuotes = (s.addDollar inQuotes).after earlier := rfl

variable {unit : UInt16}

@[simp] theorem refuses_after : (s.after earlier).refuses unit = s.refuses unit := rfl

@[simp] theorem push_after {token : Token} : (s.after earlier).push token = (s.push token).after earlier := by
  unfold State.push State.after
  rw [List.append_assoc]

@[simp] theorem endWord_after : (s.after earlier).endWord = s.endWord.after earlier := by
  unfold State.endWord
  rw [after_word]
  cases s.word with
  | none => rfl
  | some parts =>
    simp only [push_after]
    rfl

@[simp] theorem endBefore_after :
    (s.after earlier).endBefore unit = (s.endBefore unit).after earlier := by
  unfold State.endBefore
  rw [after_word]
  cases s.word with
  | none => rfl
  | some parts =>
    simp only [push_after, endWord_after]
    split <;> rfl

@[simp] theorem unquoted_after : (s.after earlier).unquoted unit = (s.unquoted unit).after earlier := by
  unfold State.unquoted
  rw [refuses_after]
  simp only [add_after, to_after, endWord_after, endBefore_after]
  split_ifs <;> rfl

@[simp] theorem inDouble_after : (s.after earlier).inDouble unit = (s.inDouble unit).after earlier := by
  unfold State.inDouble
  simp only [add_after, to_after]
  split_ifs <;> rfl

@[simp] theorem goOn_after :
    (s.after earlier).goOn inQuotes unit = (s.goOn inQuotes unit).after earlier := by
  unfold State.goOn
  split
  · exact inDouble_after
  · exact unquoted_after

@[simp] theorem inParens_after {depth : Nat} {inner : Inner} {text : Text} :
    (s.after earlier).inParens inQuotes depth inner text unit =
      (s.inParens inQuotes depth inner text unit).after earlier := by
  unfold State.inParens
  cases inner with
  | single => rfl
  | double =>
    simp only [to_after]
    split_ifs <;> rfl
  | none =>
    simp only [to_after, add_after, back_after]
    cases depth <;> split_ifs <;> rfl

theorem step_after : step (s.after earlier) unit = (step s unit).after earlier := by
  unfold step
  rw [after_mode]
  cases s.mode <;> simp only [unquoted_after, inDouble_after, goOn_after, inParens_after, add_after, to_after,
    back_after, addDollar_after, push_after] <;> split_ifs <;> rfl

/-- Earlier tokens do not matter. -/
theorem run_after (s : State) (earlier : List Token) (text : Text) :
    run (s.after earlier) text = (run s text).after earlier := by
  induction text generalizing s with
  | nil => rfl
  | cons unit rest ih =>
    show run (step (s.after earlier) unit) rest = _
    rw [step_after, ih]
    rfl

end

theorem run_append (s : State) (first second : Text) : run s (first ++ second) = run (run s first) second :=
  List.foldl_append

/-- Between tokens, the text adds these ones, and nothing is left open. -/
def Reads (text : Text) (added : List Token) : Prop := run start text = ⟨added, none, .plain⟩

/-- Between tokens, the text begins a word that can go on. -/
def Begins (text : Text) (word : Word) : Prop := run start text = ⟨[], some word, .plain⟩

/-- What separates words. -/
def isDelimiter (unit : UInt16) : Bool := isBlank unit || isOperator unit && unit ≠ 0x3c && unit ≠ 0x3e

/-- Between tokens, the text is a word when it ends there. -/
structure ReadsWord (text : Text) (word : Word) : Prop where
  goesOn : ∀ unit, isDelimiter unit = true → step (run start text) unit = step ⟨[.word word], none, .plain⟩ unit
  ends : (run start text).finish = some [.word word]

section

variable {text more : Text} {added : List Token} {parts : Word}

theorem Reads.between (h : Reads text added) (earlier : List Token) :
    run ⟨earlier, none, .plain⟩ text = ⟨earlier ++ added, none, .plain⟩ := by
  have hrun := run_after start earlier text
  rw [h] at hrun
  simpa [State.after, start] using hrun

theorem Reads.append {after : List Token} (h : Reads text added) (h' : Reads more after) :
    Reads (text ++ more) (added ++ after) := by
  unfold Reads
  rw [run_append, h]
  exact h'.between added

theorem finish_after {s : State} {earlier : List Token} :
    (s.after earlier).finish = s.finish.map (earlier ++ ·) := by
  unfold State.finish
  rw [after_mode]
  split <;> simp only [endWord_after, addDollar_after, add_after, push_after, Option.map_some,
    Option.map_none] <;> rfl

/-- The rest of a line is read on its own. -/
theorem Reads.line (h : Reads text added) :
    tokens (text ++ more) = (tokens more).map (added ++ ·) := by
  have hstart : (⟨added, none, .plain⟩ : State) = start.after added := by
    simp [start, State.after]
  unfold Shell.tokens
  rw [run_append, h, hstart, run_after, finish_after]

theorem delimiter_cases {unit : UInt16} (h : isDelimiter unit = true) :
    unit = 0x20 ∨ unit = 0x09 ∨ unit = 0x7c ∨ unit = 0x26 ∨ unit = 0x3b ∨ unit = 0x28 ∨ unit = 0x29 := by
  simp only [isDelimiter, isBlank, isOperator, Bool.or_eq_true, Bool.and_eq_true, decide_eq_true_eq] at h
  tauto

theorem Begins.readsWord (h : Begins text parts) : ReadsWord text parts where
  goesOn := by
    intro unit hunit
    rw [h]
    rcases delimiter_cases hunit with rfl | rfl | rfl | rfl | rfl | rfl | rfl <;> rfl
  ends := by
    rw [h]
    rfl

/-- A word that ends in a parameter. -/
theorem readsWord_name (before : Option Word) {name : Text}
    (h : run start text = ⟨[], before, .name false name⟩) :
    ReadsWord text (before.getD [] ++ [.param name false]) where
  goesOn := by
    intro unit hunit
    rw [h]
    rcases delimiter_cases hunit with rfl | rfl | rfl | rfl | rfl | rfl | rfl <;> rfl
  ends := by
    rw [h]
    rfl

/-- A word with what comes after it. -/
theorem ReadsWord.then (h : ReadsWord text parts) (hmore : more.head?.any isDelimiter = true)
    (h' : Reads more added) : Reads (text ++ more) (.word parts :: added) := by
  cases more with
  | nil => cases hmore
  | cons unit rest =>
    unfold Reads
    rw [run_append]
    show run (step (run start text) unit) rest = _
    rw [h.goesOn unit hmore]
    exact h'.between [.word parts]

/-- A word with the rest of the line. -/
theorem ReadsWord.line (h : ReadsWord text parts) (hmore : more.head?.any isDelimiter = true) :
    tokens (text ++ more) = (tokens more).map (.word parts :: ·) := by
  cases more with
  | nil => cases hmore
  | cons unit rest =>
    have hstart : (⟨[.word parts], none, .plain⟩ : State) = start.after [.word parts] := rfl
    unfold Shell.tokens
    rw [run_append]
    show (run (step (run start text) unit) rest).finish = _
    rw [h.goesOn unit hmore]
    show (run ⟨[.word parts], none, .plain⟩ (unit :: rest)).finish = _
    rw [hstart, run_after, finish_after]
    rfl

/-- A parenthesis is an operator of its own. -/
theorem paren_line {unit : UInt16} (h : unit = 0x28 ∨ unit = 0x29) :
    tokens (unit :: more) = (tokens more).map (.operator [unit] :: ·) := by
  have hopen : step start unit = ⟨[], none, .operator unit⟩ := by
    rcases h with rfl | rfl <;> rfl
  cases more with
  | nil =>
    show (step start unit).finish = _
    rw [hopen]
    rfl
  | cons next rest =>
    have hstart : (⟨[.operator [unit]], none, .plain⟩ : State) = start.after [.operator [unit]] := rfl
    have hpair : pairs.contains [unit, next] = false := by
      rcases h with rfl | rfl <;> simp [pairs, ascii]
    have hhere : [unit, next] ≠ ascii "<<" := by
      rcases h with rfl | rfl <;> simp [ascii]
    have hstep : step ⟨[], none, .operator unit⟩ next = step ⟨[.operator [unit]], none, .plain⟩ next := by
      show (if [unit, next] = ascii "<<" then _ else if pairs.contains [unit, next] then _ else _) = _
      rw [if_neg hhere, hpair]
      rfl
    unfold Shell.tokens
    show (run (step (step start unit) next) rest).finish = _
    rw [hopen, hstep]
    show (run ⟨[.operator [unit]], none, .plain⟩ (next :: rest)).finish = _
    rw [hstart, run_after, finish_after]
    rfl

theorem ReadsWord.last (h : ReadsWord text parts) : tokens text = some [.word parts] := h.ends

theorem ReadsWord.fields (h : ReadsWord text parts) (env : Env) : fieldsOf env text = some (expand env parts) := by
  have hwords : (tokens text).bind (fun tokens => tokens.mapM Token.word?) = some [parts] := by
    rw [h.last]
    rfl
  unfold fieldsOf
  rw [hwords]
  simp

/-- Words with blanks between them; `hlast` says what follows the last one. -/
theorem tokens_join {rest : List Token}
    (hlast : ∀ {text parts}, ReadsWord text parts → tokens (text ++ more) = some (.word parts :: rest))
    {texts : List Text} {words : List Word} (h : List.Forall₂ ReadsWord texts words) (hne : texts ≠ []) :
    tokens (Js.join [0x20] texts ++ more) = some (words.map .word ++ rest) := by
  have hspace : Reads [0x20] [] := rfl
  induction h with
  | nil => exact absurd rfl hne
  | @cons text word texts words hword hwords ih =>
    cases hwords with
    | nil =>
      have hjoin : Js.join [0x20] [text] = text := by simp [Js.join]
      rw [hjoin]
      exact hlast hword
    | @cons next _ texts _ hnext hrest =>
      have hjoin : Js.join [0x20] (text :: next :: texts) ++ more =
          text ++ ([0x20] ++ (Js.join [0x20] (next :: texts) ++ more)) := by
        simp [Js.join, List.intercalate]
      rw [hjoin, hword.line rfl, hspace.line, ih (List.cons_ne_nil _ _)]
      rfl

end

/-! ## Words without special units -/

/-- Not special to the shell, wherever it stands in a word. -/
def isLiteral (unit : UInt16) : Bool :=
  !(unit = singleQuote || unit = doubleQuote || unit = backslash || unit = dollar || isBlank unit ||
    isOperator unit || unit = backquote || unit = 0x0a || unit = 0x7e || unit = 0x23)

theorem step_literal {s : State} {unit : UInt16} (h : isLiteral unit = true) (hs : s.mode = .plain) :
    step s unit = (s.add (.plain unit)).to .plain := by
  unfold isLiteral at h
  simp only [Bool.not_eq_true', Bool.or_eq_false_iff, decide_eq_false_iff_not] at h
  obtain ⟨⟨⟨⟨⟨⟨⟨⟨⟨hsingle, hdouble⟩, hbackslash⟩, hdollar⟩, hblank⟩, hoperator⟩, hback⟩, hnewline⟩, htilde⟩, hhash⟩ := h
  have hrefuses : s.refuses unit = false := by simp [State.refuses, hback, hnewline, htilde, hhash]
  unfold step
  rw [hs]
  show s.unquoted unit = _
  unfold State.unquoted
  rw [if_neg hsingle, if_neg hdouble, if_neg hbackslash, if_neg hdollar, hblank, hoperator, hrefuses]
  rfl

theorem run_literal {text : Text} (h : text.all isLiteral = true) {tokens : List Token} {parts : Word} :
    run ⟨tokens, some parts, .plain⟩ text = ⟨tokens, some (parts ++ text.map .plain), .plain⟩ := by
  induction text generalizing parts with
  | nil => simp [run]
  | cons unit rest ih =>
    rw [List.all_cons, Bool.and_eq_true] at h
    obtain ⟨hunit, hrest⟩ := h
    show run (step ⟨tokens, some parts, .plain⟩ unit) rest = _
    rw [step_literal hunit rfl]
    show run ⟨tokens, some (parts ++ [.plain unit]), .plain⟩ rest = _
    rw [ih hrest, List.append_assoc]
    rfl

theorem begins_literal {text : Text} (h : text.all isLiteral = true) (hne : text ≠ []) :
    Begins text (text.map .plain) := by
  cases text with
  | nil => exact absurd rfl hne
  | cons unit rest =>
    rw [List.all_cons, Bool.and_eq_true] at h
    obtain ⟨hunit, hrest⟩ := h
    show run (step start unit) rest = _
    rw [step_literal hunit rfl]
    exact run_literal hrest

/-! ## Fields -/

/-- What field splitting leaves of a piece. -/
def Piece.kept : Piece → Text
  | .char unit splits => if splits then [] else [unit]
  | .quotes => []

/-- Without splitting there is one field. -/
theorem fieldsFrom_whole {pieces : List Piece} (h : ∀ unit, .char unit true ∉ pieces) (field : Text) :
    fieldsFrom (some field) pieces = [field ++ pieces.flatMap Piece.text] := by
  induction pieces generalizing field with
  | nil => simp [fieldsFrom]
  | cons piece rest ih =>
    have hrest : ∀ unit, .char unit true ∉ rest := fun unit hmem => h unit (List.mem_cons_of_mem _ hmem)
    cases piece with
    | quotes => exact ih hrest field
    | char unit splits =>
      cases splits with
      | true => exact absurd List.mem_cons_self (h unit)
      | false =>
        show fieldsFrom (some (field ++ [unit])) rest = _
        rw [ih hrest, List.append_assoc]
        rfl

/-- Only units that fields are split at are lost. -/
theorem fieldsFrom_flatten (field : Option Text) (pieces : List Piece) :
    (fieldsFrom field pieces).flatten = field.getD [] ++ pieces.flatMap Piece.kept := by
  induction pieces generalizing field with
  | nil => cases field <;> simp [fieldsFrom]
  | cons piece rest ih =>
    cases piece with
    | quotes =>
      show (fieldsFrom (some (field.getD [])) rest).flatten = _
      rw [ih]
      rfl
    | char unit splits =>
      cases splits with
      | true =>
        show (field.toList ++ fieldsFrom none rest).flatten = _
        rw [List.flatten_append, ih]
        cases field <;> simp [Piece.kept]
      | false =>
        show (fieldsFrom (some (field.getD [] ++ [unit])) rest).flatten = _
        rw [ih]
        simp [Piece.kept]

theorem kept_le (pieces : List Piece) :
    (pieces.flatMap Piece.kept).length ≤ (pieces.flatMap Piece.text).length := by
  rw [List.length_flatMap, List.length_flatMap]
  refine List.sum_le_sum fun piece _ => ?_
  cases piece with
  | quotes => exact Nat.le_refl _
  | char unit splits => cases splits <;> simp [Piece.kept, Piece.text]

/-- Nothing is lost only where nothing is split. -/
theorem whole_of_kept {pieces : List Piece} (h : pieces.flatMap Piece.kept = pieces.flatMap Piece.text) :
    ∀ unit, .char unit true ∉ pieces := by
  intro unit hmem
  obtain ⟨before, after, rfl⟩ := List.append_of_mem hmem
  have hlength := congrArg List.length h
  have hbefore := kept_le before
  have hafter := kept_le after
  simp only [List.flatMap_append, List.flatMap_cons, List.length_append, Piece.kept, Piece.text, if_true,
    List.length_nil, List.length_singleton] at hlength
  omega

section

variable {env : Env} {word : Word}

theorem expand_whole (hne : word.flatMap (Part.expand env) ≠ [])
    (h : ∀ unit, .char unit true ∉ word.flatMap (Part.expand env)) :
    expand env word = [assigned env word] := by
  unfold expand assigned
  cases hpieces : word.flatMap (Part.expand env) with
  | nil => exact absurd hpieces hne
  | cons piece rest =>
    rw [hpieces] at h
    have hrest : ∀ unit, .char unit true ∉ rest := fun unit hmem => h unit (List.mem_cons_of_mem _ hmem)
    cases piece with
    | quotes => exact fieldsFrom_whole hrest []
    | char unit splits =>
      cases splits with
      | true => exact absurd List.mem_cons_self (h unit)
      | false => exact fieldsFrom_whole hrest [unit]

theorem whole_of_expand (h : expand env word = [assigned env word]) :
    ∀ unit, .char unit true ∉ word.flatMap (Part.expand env) := by
  have hflatten := fieldsFrom_flatten none (word.flatMap (Part.expand env))
  unfold expand at h
  rw [h] at hflatten
  refine whole_of_kept ?_
  simpa [assigned] using hflatten.symm

end

end Shell
