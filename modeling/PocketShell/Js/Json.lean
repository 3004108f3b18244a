import PocketShell.Js.Object
import PocketShell.Js.Text

/-!
# JSON

* `Raw`, `Json`: the values that JSON has, the second with every object key once.
* `JSON.stringify`, `JSON.parse`: between values and their text, by way of tokens.
* `written`: the value that is read of the text of another.
-/

namespace Js

/-! ## Numbers -/

/-- How far the literal of a number has been read. -/
inductive NumberState
  | start
  | minus
  | zero
  | whole
  | point
  | fraction
  | exponent
  | sign
  | digits

def isDigit (unit : UInt16) : Bool := 0x30 ≤ unit && unit ≤ 0x39

namespace NumberState

def first (unit : UInt16) : Option NumberState :=
  if unit = 0x30 then some .zero else if isDigit unit then some .whole else none

def afterFraction (unit : UInt16) : Option NumberState :=
  if unit = 0x65 || unit = 0x45 then some .exponent else none

def afterWhole (unit : UInt16) : Option NumberState :=
  if unit = 0x2e then some .point else afterFraction unit

def step (unit : UInt16) : NumberState → Option NumberState
  | .start => if unit = 0x2d then some .minus else first unit
  | .minus => first unit
  | .zero => afterWhole unit
  | .whole => if isDigit unit then some .whole else afterWhole unit
  | .point => if isDigit unit then some .fraction else none
  | .fraction => if isDigit unit then some .fraction else afterFraction unit
  | .exponent =>
    if unit = 0x2b || unit = 0x2d then some .sign else if isDigit unit then some .digits else none
  | .sign => if isDigit unit then some .digits else none
  | .digits => if isDigit unit then some .digits else none

def accepts : NumberState → Bool
  | .zero | .whole | .fraction | .digits => true
  | _ => false

end NumberState

/-- `text` is a number of the grammar. -/
def isNumber (text : Text) : Bool :=
  (text.foldlM (fun state unit => NumberState.step unit state) NumberState.start).any
    NumberState.accepts

/-- The numbers of the language: the value of a literal, and how a finite number is
written. -/
class JsNumber (N : Type) where
  read : Text → N
  write : N → Option Text
  write_isNumber : ∀ n text, write n = some text → isNumber text = true

/-! ## Values -/

inductive Raw (N : Type) : Type
  | null
  | bool (b : Bool)
  | num (n : N)
  | str (s : Text)
  | arr (items : List (Raw N))
  | obj (members : List (Text × Raw N))

variable {N : Type}

mutual

/-- Every object in the value has every key once. -/
def Raw.Wf : Raw N → Prop
  | .arr items => WfItems items
  | .obj members => (keys members).Nodup ∧ WfMembers members
  | _ => True
termination_by structural v => v

def WfItems : List (Raw N) → Prop
  | [] => True
  | v :: rest => v.Wf ∧ WfItems rest
termination_by structural items => items

def WfMembers : List (Text × Raw N) → Prop
  | [] => True
  | (_, v) :: rest => v.Wf ∧ WfMembers rest
termination_by structural members => members

end

/-- A value as the language builds them. -/
abbrev Json (N : Type) : Type := {v : Raw N // v.Wf}

theorem wfItems_iff {items : List (Raw N)} : WfItems items ↔ ∀ v ∈ items, v.Wf := by
  induction items with
  | nil => simp [WfItems]
  | cons v rest ih => rw [WfItems, ih, List.forall_mem_cons]

theorem wfMembers_iff {members : List (Text × Raw N)} : WfMembers members ↔ ∀ p ∈ members, p.2.Wf := by
  induction members with
  | nil => simp [WfMembers]
  | cons p rest ih =>
    obtain ⟨key, v⟩ := p
    rw [WfMembers, ih, List.forall_mem_cons]

/-! ## Tokens -/

inductive Token
  | openBrace
  | closeBrace
  | openBracket
  | closeBracket
  | comma
  | colon
  | null
  | true
  | false
  | num (literal : Text)
  | str (s : Text)
deriving DecidableEq

def hexDigit (n : Nat) : UInt16 := (if n < 10 then 0x30 + n else 0x57 + n).toUInt16

def hexEscape (unit : UInt16) : Text :=
  let n := unit.toNat
  [0x5c, 0x75, hexDigit (n / 4096), hexDigit (n / 256 % 16), hexDigit (n / 16 % 16), hexDigit (n % 16)]

def isHigh (unit : UInt16) : Bool := 0xd800 ≤ unit && unit ≤ 0xdbff

def isLow (unit : UInt16) : Bool := 0xdc00 ≤ unit && unit ≤ 0xdfff

/-- A unit that is not part of a surrogate pair. -/
def escapeUnit (unit : UInt16) : Text :=
  if unit = 0x08 then [0x5c, 0x62]
  else if unit = 0x09 then [0x5c, 0x74]
  else if unit = 0x0a then [0x5c, 0x6e]
  else if unit = 0x0c then [0x5c, 0x66]
  else if unit = 0x0d then [0x5c, 0x72]
  else if unit = 0x22 then [0x5c, 0x22]
  else if unit = 0x5c then [0x5c, 0x5c]
  else if unit < 0x20 || isHigh unit || isLow unit then hexEscape unit
  else [unit]

def escapeUnits : Text → Text
  | [] => []
  | [unit] => escapeUnit unit
  | unit :: next :: rest =>
    if isHigh unit && isLow next then unit :: next :: escapeUnits rest
    else escapeUnit unit ++ escapeUnits (next :: rest)

def quote (s : Text) : Text := 0x22 :: (escapeUnits s ++ [0x22])

def nullWord : Text := [0x6e, 0x75, 0x6c, 0x6c]

def trueWord : Text := [0x74, 0x72, 0x75, 0x65]

def falseWord : Text := [0x66, 0x61, 0x6c, 0x73, 0x65]

def Token.text : Token → Text
  | .openBrace => [0x7b]
  | .closeBrace => [0x7d]
  | .openBracket => [0x5b]
  | .closeBracket => [0x5d]
  | .comma => [0x2c]
  | .colon => [0x3a]
  | .null => nullWord
  | .true => trueWord
  | .false => falseWord
  | .num literal => literal
  | .str s => quote s

def render (tokens : List Token) : Text := tokens.flatMap Token.text

/-! ## Reading tokens -/

inductive LexState
  | idle
  | word (letters : Text)
  | number (literal : Text)
  | string (s : Text)
  | escape (s : Text)
  /-- After `\u`, with `count` digits read. -/
  | hex (s : Text) (count value : Nat)
deriving DecidableEq

def isLetter (unit : UInt16) : Bool := 0x61 ≤ unit && unit ≤ 0x7a

def isNumberUnit (unit : UInt16) : Bool :=
  isDigit unit || unit = 0x2b || unit = 0x2d || unit = 0x2e || unit = 0x45 || unit = 0x65

def hexValue (unit : UInt16) : Option Nat :=
  if isDigit unit then some (unit.toNat - 0x30)
  else if 0x61 ≤ unit && unit ≤ 0x66 then some (unit.toNat - 0x57)
  else if 0x41 ≤ unit && unit ≤ 0x46 then some (unit.toNat - 0x37)
  else none

/-- The unit that a backslash and `unit` stand for. -/
def unescape (unit : UInt16) : Option UInt16 :=
  if unit = 0x22 || unit = 0x5c || unit = 0x2f then some unit
  else if unit = 0x62 then some 0x08
  else if unit = 0x66 then some 0x0c
  else if unit = 0x6e then some 0x0a
  else if unit = 0x72 then some 0x0d
  else if unit = 0x74 then some 0x09
  else none

def wordToken (letters : Text) : Option Token :=
  if letters = nullWord then some .null
  else if letters = trueWord then some .true
  else if letters = falseWord then some .false
  else none

def punctuation (unit : UInt16) : Option Token :=
  if unit = 0x7b then some .openBrace
  else if unit = 0x7d then some .closeBrace
  else if unit = 0x5b then some .openBracket
  else if unit = 0x5d then some .closeBracket
  else if unit = 0x2c then some .comma
  else if unit = 0x3a then some .colon
  else none

/-- The step between two tokens. -/
def LexState.idleStep (unit : UInt16) : Option (List Token × LexState) :=
  match punctuation unit with
  | some token => some ([token], .idle)
  | none =>
    if unit = 0x20 || unit = 0x09 || unit = 0x0a || unit = 0x0d then some ([], .idle)
    else if unit = 0x22 then some ([], .string [])
    else if unit = 0x2d || isDigit unit then some ([], .number [unit])
    else if isLetter unit then some ([], .word [unit])
    else none

/-- The tokens that end before `unit` or with it, and the state after it. -/
def LexState.step (unit : UInt16) : LexState → Option (List Token × LexState)
  | .idle => LexState.idleStep unit
  | .word letters =>
    if isLetter unit then some ([], .word (letters ++ [unit]))
    else do
      let token ← wordToken letters
      let (tokens, state) ← LexState.idleStep unit
      return (token :: tokens, state)
  | .number literal =>
    if isNumberUnit unit then some ([], .number (literal ++ [unit]))
    else if isNumber literal then do
      let (tokens, state) ← LexState.idleStep unit
      return (.num literal :: tokens, state)
    else none
  | .string s =>
    if unit = 0x22 then some ([.str s], .idle)
    else if unit = 0x5c then some ([], .escape s)
    else if unit < 0x20 then none
    else some ([], .string (s ++ [unit]))
  | .escape s =>
    if unit = 0x75 then some ([], .hex s 0 0)
    else do
      let unit ← unescape unit
      return ([], .string (s ++ [unit]))
  | .hex s count value => do
    let digit ← hexValue unit
    let value := 16 * value + digit
    return ([], if count = 3 then .string (s ++ [value.toUInt16]) else .hex s (count + 1) value)

def LexState.finish : LexState → Option (List Token)
  | .idle => some []
  | .word letters => (wordToken letters).map ([·])
  | .number literal => if isNumber literal then some [.num literal] else none
  | _ => none

def lexFrom (state : LexState) : Text → Option (List Token)
  | [] => state.finish
  | unit :: rest =>
    match state.step unit with
    | none => none
    | some (tokens, state) => (lexFrom state rest).map (tokens ++ ·)

def lex (text : Text) : Option (List Token) := lexFrom .idle text

/-! ## Values from tokens -/

/-- A value that is being read, inside of which the next one stands. -/
inductive Frame (N : Type)
  | arr (items : List (Raw N))
  | obj (members : List (Text × Raw N)) (key : Text)

inductive Expect (N : Type)
  | value
  /-- After the bracket that opens an array. -/
  | first
  /-- After the brace that opens an object. -/
  | firstKey
  | key
  | colon
  /-- After a value inside of another one. -/
  | more
  | done (v : Raw N)

structure Machine (N : Type) where
  stack : List (Frame N)
  expect : Expect N

/-- The next value has been read. -/
def feed (v : Raw N) : List (Frame N) → Machine N
  | [] => ⟨[], .done v⟩
  | .arr items :: stack => ⟨.arr (items ++ [v]) :: stack, .more⟩
  | .obj members key :: stack => ⟨.obj (assign key v members) key :: stack, .more⟩

variable [JsNumber N]

/-- A token that starts a value. -/
def Machine.begin (stack : List (Frame N)) : Token → Option (Machine N)
  | .null => some (feed .null stack)
  | .true => some (feed (.bool true) stack)
  | .false => some (feed (.bool false) stack)
  | .num literal => some (feed (.num (JsNumber.read literal)) stack)
  | .str s => some (feed (.str s) stack)
  | .openBracket => some ⟨.arr [] :: stack, .first⟩
  | .openBrace => some ⟨.obj [] [] :: stack, .firstKey⟩
  | _ => none

def Machine.step (m : Machine N) (token : Token) : Option (Machine N) :=
  match m.expect, token, m.stack with
  | .first, .closeBracket, .arr items :: stack => some (feed (.arr items) stack)
  | .value, token, stack | .first, token, stack => Machine.begin stack token
  | .firstKey, .closeBrace, .obj members _ :: stack => some (feed (.obj members) stack)
  | .firstKey, .str s, .obj members _ :: stack | .key, .str s, .obj members _ :: stack =>
    some ⟨.obj members s :: stack, .colon⟩
  | .colon, .colon, stack => some ⟨stack, .value⟩
  | .more, .comma, .arr items :: stack => some ⟨.arr items :: stack, .value⟩
  | .more, .comma, .obj members key :: stack => some ⟨.obj members key :: stack, .key⟩
  | .more, .closeBracket, .arr items :: stack => some (feed (.arr items) stack)
  | .more, .closeBrace, .obj members _ :: stack => some (feed (.obj members) stack)
  | _, _, _ => none

def readTokens (tokens : List Token) : Option (Raw N) :=
  match tokens.foldlM Machine.step (⟨[], .value⟩ : Machine N) with
  | some ⟨_, .done v⟩ => some v
  | _ => none

/-! ## Text of values -/

mutual

def Raw.tokens : Raw N → List Token
  | .null => [.null]
  | .bool true => [.true]
  | .bool false => [.false]
  | .num n =>
    match JsNumber.write n with
    | some literal => [.num literal]
    | none => [.null]
  | .str s => [.str s]
  | .arr items => .openBracket :: (itemTokens [] items ++ [.closeBracket])
  | .obj members => .openBrace :: (memberTokens [] members ++ [.closeBrace])
termination_by structural v => v

/-- `before` stands before the first item. -/
def itemTokens (before : List Token) : List (Raw N) → List Token
  | [] => []
  | v :: rest => before ++ (v.tokens ++ itemTokens [.comma] rest)
termination_by structural items => items

def memberTokens (before : List Token) : List (Text × Raw N) → List Token
  | [] => []
  | (key, v) :: rest => before ++ .str key :: .colon :: (v.tokens ++ memberTokens [.comma] rest)
termination_by structural members => members

end

mutual

/-- What is read of a value as it is written. -/
def Raw.written : Raw N → Raw N
  | .null => .null
  | .bool b => .bool b
  | .num n =>
    match JsNumber.write n with
    | some literal => .num (JsNumber.read literal)
    | none => .null
  | .str s => .str s
  | .arr items => .arr (writtenItems items)
  | .obj members => .obj (writtenMembers members)
termination_by structural v => v

def writtenItems : List (Raw N) → List (Raw N)
  | [] => []
  | v :: rest => v.written :: writtenItems rest
termination_by structural items => items

def writtenMembers : List (Text × Raw N) → List (Text × Raw N)
  | [] => []
  | (key, v) :: rest => (key, v.written) :: writtenMembers rest
termination_by structural members => members

end

end Js
