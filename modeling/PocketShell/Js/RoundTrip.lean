import PocketShell.Js.Json

/-!
# JSON round trip

* `lex_render`: the tokens of a text that was written are those it was written from.
* `readTokens_tokens`: the value of the tokens of `v` is `v.written`.
* `JSON.parse_stringify`: both together.
-/

namespace Js

variable {N : Type} {unit : UInt16} {text rest s : Text} {token : Token} {tokens : List Token}

/-! ## Strings -/

theorem hexValue_hexDigit : ∀ n < 16, hexValue (hexDigit n) = some n := by decide

/-- What a lexer that stands in the string `s` makes of `text`. -/
theorem lexFrom_cons {state state' : LexState} (h : state.step unit = some (tokens, state')) :
    lexFrom state (unit :: rest) = (lexFrom state' rest).map (tokens ++ ·) := by
  rw [lexFrom, h]

variable {state : LexState}

theorem lexFrom_step : lexFrom state (unit :: rest) =
    (state.step unit).bind fun p => (lexFrom p.2 rest).map (p.1 ++ ·) := by
  rw [lexFrom]
  cases state.step unit <;> rfl

theorem lexFrom_silent (state' : LexState) (h : state.step unit = some ([], state')) :
    lexFrom state (unit :: rest) = lexFrom state' rest := by
  rw [lexFrom_cons h]
  simp

theorem lex_hex {count value digit : Nat} (h : hexValue unit = some digit) :
    lexFrom (.hex s count value) (unit :: rest) =
      lexFrom (if count = 3 then .string (s ++ [(16 * value + digit).toUInt16])
        else .hex s (count + 1) (16 * value + digit)) rest := by
  refine lexFrom_silent _ ?_
  simp only [LexState.step, h]
  rfl

theorem lex_hexEscape : lexFrom (.string s) (hexEscape unit ++ rest) =
    lexFrom (.string (s ++ [unit])) rest := by
  have hlt : unit.toNat < 65536 := unit.toNat_lt
  have hv : 16 * (16 * (16 * (16 * 0 + unit.toNat / 4096) + unit.toNat / 256 % 16) +
      unit.toNat / 16 % 16) + unit.toNat % 16 = unit.toNat := by omega
  simp only [hexEscape, List.cons_append, List.nil_append]
  rw [lexFrom_silent (.escape s) rfl, lexFrom_silent (.hex s 0 0) rfl,
    lex_hex (hexValue_hexDigit _ (by omega)), if_neg (by decide),
    lex_hex (hexValue_hexDigit _ (by omega)), if_neg (by decide),
    lex_hex (hexValue_hexDigit _ (by omega)), if_neg (by decide),
    lex_hex (hexValue_hexDigit _ (by omega)), if_pos rfl, hv]
  rw [show unit.toNat.toUInt16 = unit from UInt16.ofNat_toNat]

theorem lex_escape {escaped : UInt16} (h : unescape unit = some escaped) (hu : unit ≠ 0x75) :
    lexFrom (.string s) (0x5c :: unit :: rest) = lexFrom (.string (s ++ [escaped])) rest := by
  rw [lexFrom_silent (.escape s) rfl]
  refine lexFrom_silent _ ?_
  simp only [LexState.step, if_neg hu, h]
  rfl

theorem lex_plain (h : unit ≠ 0x22) (h' : unit ≠ 0x5c) (h'' : ¬ unit < 0x20) :
    lexFrom (.string s) (unit :: rest) = lexFrom (.string (s ++ [unit])) rest := by
  refine lexFrom_silent _ ?_
  simp only [LexState.step, if_neg h, if_neg h', if_neg h'']

theorem lex_escapeUnit : lexFrom (.string s) (escapeUnit unit ++ rest) =
    lexFrom (.string (s ++ [unit])) rest := by
  unfold escapeUnit
  split
  · next h =>
    subst h
    exact lex_escape rfl (by decide)
  split
  · next h =>
    subst h
    exact lex_escape rfl (by decide)
  split
  · next h =>
    subst h
    exact lex_escape rfl (by decide)
  split
  · next h =>
    subst h
    exact lex_escape rfl (by decide)
  split
  · next h =>
    subst h
    exact lex_escape rfl (by decide)
  split
  · next h =>
    subst h
    exact lex_escape rfl (by decide)
  split
  · next h =>
    subst h
    exact lex_escape rfl (by decide)
  split
  · exact lex_hexEscape
  · next hq hb hs =>
    rw [Bool.or_eq_true, Bool.or_eq_true, not_or, not_or, decide_eq_true_eq] at hs
    exact lex_plain hq hb hs.1.1

theorem lex_pair {next : UInt16} (h : isHigh unit = true) (h' : isLow next = true) :
    lexFrom (.string s) (unit :: next :: rest) = lexFrom (.string (s ++ [unit, next])) rest := by
  simp only [isHigh, isLow, Bool.and_eq_true, decide_eq_true_eq, UInt16.le_iff_toNat_le] at h h'
  have hp : ∀ u : UInt16, 0xd800 ≤ u.toNat → u ≠ 0x22 ∧ u ≠ 0x5c ∧ ¬ u < 0x20 := by
    intro u hu
    refine ⟨fun he => ?_, fun he => ?_, fun hlt => ?_⟩
    · rw [he] at hu
      revert hu
      decide
    · rw [he] at hu
      revert hu
      decide
    · have hlt' : u.toNat < 0x20 := UInt16.lt_iff_toNat_lt.mp hlt
      omega
  obtain ⟨h₁, h₂, h₃⟩ := hp unit h.1
  obtain ⟨h₁', h₂', h₃'⟩ := hp next (Nat.le_trans (by decide) h'.1)
  rw [lex_plain h₁ h₂ h₃, lex_plain h₁' h₂' h₃', List.append_assoc]
  rfl

theorem lex_escapeUnits (units : Text) : ∀ s, lexFrom (.string s) (escapeUnits units ++ rest) =
    lexFrom (.string (s ++ units)) rest := by
  fun_induction escapeUnits units with
  | case1 => simp
  | case2 unit => exact fun s => lex_escapeUnit
  | case3 unit next rest h ih =>
    intro s
    rw [Bool.and_eq_true] at h
    rw [List.cons_append, List.cons_append, lex_pair h.1 h.2, ih, List.append_assoc]
    rfl
  | case4 unit next rest h ih =>
    intro s
    rw [List.append_assoc, lex_escapeUnit, ih, List.append_assoc]
    rfl

theorem lex_quote : lexFrom .idle (quote s ++ rest) = (lexFrom .idle rest).map (.str s :: ·) := by
  rw [quote, List.cons_append, lexFrom_silent (.string []) rfl, List.append_assoc,
    lex_escapeUnits, List.nil_append, List.singleton_append]
  have hstep : LexState.step 0x22 (.string s) = some ([.str s], .idle) := rfl
  exact lexFrom_cons hstep

/-! ## Numbers and words -/

theorem step_other {state : NumberState} (h : isNumberUnit unit = false) : state.step unit = none := by
  simp only [isNumberUnit, Bool.or_eq_false_iff, decide_eq_false_iff_not] at h
  obtain ⟨⟨⟨⟨⟨hd, h₁⟩, h₂⟩, h₃⟩, h₄⟩, h₅⟩ := h
  have hz : unit ≠ 0x30 := by
    rintro rfl
    cases hd
  cases state <;>
    simp [NumberState.step, NumberState.first, NumberState.afterWhole, NumberState.afterFraction,
      hd, hz, h₁, h₂, h₃, h₄, h₅]

variable {literal : Text}

theorem foldlM_units : ∀ {state state' : NumberState},
    literal.foldlM (fun state unit => NumberState.step unit state) state = some state' →
      ∀ unit ∈ literal, isNumberUnit unit = true := by
  induction literal with
  | nil => exact fun _ _ h => nomatch h
  | cons unit literal ih =>
    intro state state' h
    rw [List.foldlM_cons] at h
    obtain ⟨next, hstep, hrest⟩ := Option.bind_eq_some_iff.mp h
    refine List.forall_mem_cons.mpr ⟨?_, ih hrest⟩
    by_contra hne
    rw [step_other (Bool.eq_false_iff.mpr hne)] at hstep
    cases hstep

/-- A number is a digit or a minus sign, and more units of a number. -/
theorem isNumber_cons (h : isNumber literal = true) :
    ∃ first more, literal = first :: more ∧ (first = 0x2d ∨ isDigit first = true) ∧
      ∀ unit ∈ more, isNumberUnit unit = true := by
  obtain ⟨state, hfold, hacc⟩ := (Option.any_eq_true _ _).mp h
  cases literal with
  | nil =>
    cases hfold
    cases hacc
  | cons first more =>
    refine ⟨first, more, rfl, ?_, (List.forall_mem_cons.mp (foldlM_units hfold)).2⟩
    rw [List.foldlM_cons] at hfold
    obtain ⟨next, hstep, _⟩ := Option.bind_eq_some_iff.mp hfold
    by_contra hne
    obtain ⟨hm, hd⟩ := not_or.mp hne
    have hz : first ≠ 0x30 := by
      rintro rfl
      exact hd rfl
    simp [NumberState.step, NumberState.first, hm, hd, hz] at hstep

/-- What can follow a number or a word. -/
def ends (unit : UInt16) : Bool := !isNumberUnit unit && !isLetter unit

/-- Units of one kind are gathered. -/
theorem lex_while {state : Text → LexState} {takes : UInt16 → Bool} {units : Text}
    (hstep : ∀ s unit, takes unit = true → (state s).step unit = some ([], state (s ++ [unit])))
    (hunits : ∀ unit ∈ units, takes unit = true) :
    ∀ s, lexFrom (state s) (units ++ rest) = lexFrom (state (s ++ units)) rest := by
  induction units with
  | nil => simp
  | cons unit units ih =>
    obtain ⟨hu, hmore⟩ := List.forall_mem_cons.mp hunits
    intro s
    rw [List.cons_append, lexFrom_silent _ (hstep s unit hu), ih hmore, List.append_assoc]
    rfl

theorem lex_units (hunits : ∀ unit ∈ literal, isNumberUnit unit = true) :
    ∀ s, lexFrom (.number s) (literal ++ rest) = lexFrom (.number (s ++ literal)) rest :=
  lex_while (fun _ _ hu => by rw [LexState.step, if_pos hu]) hunits

theorem lex_first (h : isNumber literal = true) :
    lexFrom .idle (literal ++ rest) = lexFrom (.number literal) rest := by
  obtain ⟨first, more, rfl, hf, hmore⟩ := isNumber_cons h
  rw [List.cons_append, lexFrom_silent (.number [first]), lex_units hmore]
  · rfl
  · rcases hf with rfl | hd
    · rfl
    · have hne : ∀ unit, isDigit unit = false → first ≠ unit := by
        rintro unit hf rfl
        rw [hd] at hf
        cases hf
      simp [LexState.step, LexState.idleStep, punctuation, hd, hne 0x7b rfl, hne 0x7d rfl,
        hne 0x5b rfl, hne 0x5d rfl, hne 0x2c rfl, hne 0x3a rfl, hne 0x20 rfl, hne 0x09 rfl,
        hne 0x0a rfl, hne 0x0d rfl, hne 0x22 rfl]

/-- The token ends where the next one begins. -/
theorem lex_next (h : state.step unit =
      (LexState.idleStep unit).map fun p => (token :: p.1, p.2)) :
    lexFrom state (unit :: rest) = (lexFrom .idle (unit :: rest)).map (token :: ·) := by
  rw [lexFrom_step, lexFrom_step, h]
  have hi : LexState.idle.step unit = LexState.idleStep unit := rfl
  rw [hi]
  cases LexState.idleStep unit with
  | none => rfl
  | some p => simp [Option.map_map, Function.comp_def]

variable {letters : Text}

theorem word_next (h : wordToken letters = some token) (hu : ends unit = true) :
    lexFrom (.word letters) (unit :: rest) = (lexFrom .idle (unit :: rest)).map (token :: ·) := by
  refine lex_next ?_
  have hl : isLetter unit = false := by
    rw [ends, Bool.and_eq_true] at hu
    simpa using hu.2
  rw [LexState.step, hl, h]
  cases LexState.idleStep unit <;> rfl

theorem number_next (h : isNumber literal = true) (hu : ends unit = true) :
    lexFrom (.number literal) (unit :: rest) =
      (lexFrom .idle (unit :: rest)).map (.num literal :: ·) := by
  refine lex_next ?_
  have hn : isNumberUnit unit = false := by
    rw [ends, Bool.and_eq_true] at hu
    simpa using hu.1
  rw [LexState.step, hn, h]
  cases LexState.idleStep unit <;> rfl

/-! ## Written tokens -/

/-- A token whose text does not show where it ends. -/
def Token.bare : Token → Bool
  | .null | .true | .false | .num _ => Bool.true
  | _ => Bool.false

def Token.Valid : Token → Prop
  | .num literal => isNumber literal = Bool.true
  | _ => True

theorem lex_letters (h : ∀ unit ∈ letters, isLetter unit = true) :
    ∀ word, lexFrom (.word word) (letters ++ rest) = lexFrom (.word (word ++ letters)) rest :=
  lex_while (fun _ _ hu => by rw [LexState.step, if_pos hu]) h

theorem lex_word (unit : UInt16) (h : wordToken (unit :: letters) = some token)
    (hu : LexState.idleStep unit = some ([], .word [unit]))
    (hl : letters.all isLetter = true) :
    lexFrom .idle (unit :: letters) = some [token] ∧ ∀ next rest, ends next = true →
      lexFrom .idle (unit :: letters ++ next :: rest) =
        (lexFrom .idle (next :: rest)).map (token :: ·) := by
  have hstart : ∀ rest, lexFrom .idle (unit :: letters ++ rest) = lexFrom (.word (unit :: letters)) rest := by
    intro rest
    have hstep : LexState.idle.step unit = some ([], .word [unit]) := hu
    rw [List.cons_append, lexFrom_silent _ hstep, lex_letters (List.all_eq_true.mp hl)]
    rfl
  refine ⟨?_, fun next rest hn => (hstart _).trans (word_next h hn)⟩
  have hs := hstart []
  rw [List.append_nil] at hs
  rw [hs, lexFrom, LexState.finish, h]
  rfl

theorem lex_bare (h : token.bare = true) (hv : token.Valid) :
    lexFrom .idle token.text = some [token] ∧ ∀ unit rest, ends unit = true →
      lexFrom .idle (token.text ++ unit :: rest) =
        (lexFrom .idle (unit :: rest)).map (token :: ·) := by
  cases token with
  | null => exact lex_word 0x6e (by decide) (by decide) (by decide)
  | true => exact lex_word 0x74 (by decide) (by decide) (by decide)
  | false => exact lex_word 0x66 (by decide) (by decide) (by decide)
  | num literal =>
    refine ⟨?_, fun unit rest hu => (lex_first hv).trans (number_next hv hu)⟩
    have hs : lexFrom .idle (literal ++ []) = lexFrom (.number literal) [] := lex_first hv
    rw [List.append_nil] at hs
    show lexFrom .idle literal = _
    rw [hs, lexFrom, LexState.finish]
    exact if_pos hv
  | _ => cases h

theorem lex_punctuation (h : punctuation unit = some token) :
    lexFrom .idle ([unit] ++ rest) = (lexFrom .idle rest).map (token :: ·) := by
  have hstep : LexState.idle.step unit = some ([token], .idle) := by
    rw [LexState.step, LexState.idleStep, h]
  exact lexFrom_cons hstep

theorem lex_closed (h : token.bare = false) :
    lexFrom .idle (token.text ++ rest) = (lexFrom .idle rest).map (token :: ·) := by
  cases token with
  | str s => exact lex_quote
  | null | true | false | num => cases h
  | _ => exact lex_punctuation rfl

theorem closed_text (h : token.bare = false) : ∃ unit more, token.text = unit :: more ∧ ends unit = true := by
  cases token with
  | null | true | false | num => cases h
  | _ => exact ⟨_, _, rfl, rfl⟩

/-- No two tokens that run into each other. -/
def Spaced (tokens : List Token) : Prop :=
  tokens.IsChain fun a b => a.bare = false ∨ b.bare = false

theorem lex_render (hv : ∀ token ∈ tokens, token.Valid) (hs : Spaced tokens) :
    lex (render tokens) = some tokens := by
  show lexFrom .idle (render tokens) = some tokens
  induction tokens with
  | nil => rfl
  | cons token tokens ih =>
    obtain ⟨ht, hv⟩ := List.forall_mem_cons.mp hv
    have ih := ih hv (List.IsChain.tail hs)
    rw [render, List.flatMap_cons]
    cases hb : token.bare with
    | false =>
      rw [lex_closed hb]
      show (lexFrom .idle (render tokens)).map _ = _
      rw [ih]
      rfl
    | true =>
      cases tokens with
      | nil => rw [List.flatMap_nil, List.append_nil, (lex_bare hb ht).1]
      | cons next tokens =>
        have hn : next.bare = false :=
          ((List.isChain_cons_cons.mp hs).1).resolve_left (by rw [hb]; nofun)
        obtain ⟨unit, more, hu, hends⟩ := closed_text hn
        rw [render, List.flatMap_cons, hu, List.cons_append] at ih
        rw [List.flatMap_cons, hu, List.cons_append, (lex_bare hb ht).2 _ _ hends, ih]
        rfl

/-! ## Values -/

variable [JsNumber N]

/-- Where a value may stand. -/
def Expect.Starts : Expect N → Prop
  | .value | .first => True
  | _ => False

variable {stack : List (Frame N)}

theorem step_start {expect : Expect N} {m : Machine N} (he : expect.Starts)
    (h : Machine.begin stack token = some m) : Machine.step ⟨stack, expect⟩ token = some m := by
  cases expect with
  | value => exact h
  | first =>
    rw [← h]
    cases token with
    | closeBracket => cases h
    | _ => rfl
  | _ => cases he

theorem run_cons {m m' : Machine N} (h : m.step token = some m') :
    (token :: tokens).foldlM Machine.step m = tokens.foldlM Machine.step m' := by
  rw [List.foldlM_cons, h]
  rfl

mutual

theorem run_tokens : ∀ (v : Raw N), v.Wf → ∀ (stack : List (Frame N)) (expect : Expect N) (rest : List Token),
    expect.Starts → (v.tokens ++ rest).foldlM Machine.step ⟨stack, expect⟩ =
      rest.foldlM Machine.step (feed v.written stack)
  | .null, _, _, _, _, he => run_cons (step_start he rfl)
  | .bool true, _, _, _, _, he => run_cons (step_start he rfl)
  | .bool false, _, _, _, _, he => run_cons (step_start he rfl)
  | .num n, _, _, _, _, he => by
    rw [Raw.tokens, Raw.written]
    cases JsNumber.write n with
    | none => exact run_cons (step_start he rfl)
    | some literal => exact run_cons (step_start he rfl)
  | .str s, _, _, _, _, he => run_cons (step_start he rfl)
  | .arr items, hwf, stack, _, rest, he => by
    rw [Raw.tokens, Raw.written, List.cons_append, List.append_assoc,
      run_cons (step_start he rfl)]
    cases items with
    | nil => exact run_cons rfl
    | cons v items =>
      rw [Raw.Wf, WfItems] at hwf
      rw [itemTokens, List.nil_append, List.append_assoc,
        run_tokens v hwf.1 (.arr [] :: stack) .first _ trivial]
      exact run_items items hwf.2 [v.written] stack rest
  | .obj members, hwf, stack, _, rest, he => by
    rw [Raw.tokens, Raw.written, List.cons_append, List.append_assoc,
      run_cons (step_start he rfl)]
    cases members with
    | nil => exact run_cons rfl
    | cons p members =>
      obtain ⟨key, v⟩ := p
      rw [Raw.Wf, WfMembers] at hwf
      rw [memberTokens, List.nil_append, List.cons_append, List.cons_append, List.append_assoc,
        run_cons rfl, run_cons rfl, run_tokens v hwf.2.1 (.obj [] key :: stack) .value _ trivial]
      exact run_members members hwf.2.2 [(key, v.written)] key stack rest hwf.1
termination_by structural v => v

theorem run_items : ∀ (items : List (Raw N)), WfItems items →
    ∀ (acc : List (Raw N)) (stack : List (Frame N)) (rest : List Token),
    (itemTokens [.comma] items ++ ([Token.closeBracket] ++ rest)).foldlM Machine.step
        ⟨.arr acc :: stack, .more⟩ =
      rest.foldlM Machine.step (feed (.arr (acc ++ writtenItems items)) stack)
  | [], _, acc, stack, rest => by
    rw [itemTokens, writtenItems, List.append_nil]
    exact run_cons rfl
  | v :: items, hwf, acc, stack, rest => by
    rw [WfItems] at hwf
    rw [itemTokens, List.append_assoc, List.append_assoc, List.singleton_append, run_cons rfl,
      run_tokens v hwf.1 (.arr acc :: stack) .value _ trivial, feed,
      run_items items hwf.2, List.append_assoc, writtenItems]
    rfl
termination_by structural items => items

theorem run_members : ∀ (members : List (Text × Raw N)), WfMembers members →
    ∀ (acc : List (Text × Raw N)) (key : Text) (stack : List (Frame N)) (rest : List Token),
    (keys acc ++ keys members).Nodup →
    (memberTokens [.comma] members ++ ([Token.closeBrace] ++ rest)).foldlM Machine.step
        ⟨.obj acc key :: stack, .more⟩ =
      rest.foldlM Machine.step (feed (.obj (acc ++ writtenMembers members)) stack)
  | [], _, acc, _, stack, rest, _ => by
    rw [memberTokens, writtenMembers, List.append_nil]
    exact run_cons rfl
  | (key', v) :: members, hwf, acc, key, stack, rest, hnew => by
    rw [WfMembers] at hwf
    have hk : key' ∉ keys acc := fun h =>
      List.disjoint_of_nodup_append hnew h List.mem_cons_self
    rw [memberTokens, List.append_assoc, List.singleton_append, run_cons rfl, List.cons_append,
      List.cons_append, List.append_assoc, run_cons rfl, run_cons rfl,
      run_tokens v hwf.1 (.obj acc key' :: stack) .value _ trivial, feed, assign_new hk,
      run_members members hwf.2 _ key' stack rest, List.append_assoc, writtenMembers]
    · rfl
    · rw [keys, List.map_append, List.append_assoc]
      exact hnew
termination_by structural members => members

end

theorem readTokens_tokens {v : Raw N} (h : v.Wf) : readTokens v.tokens = some v.written := by
  have hrun := run_tokens v h [] .value [] trivial
  rw [List.append_nil] at hrun
  rw [readTokens, hrun]
  rfl

/-! ### Their text -/

theorem spaced_closed (h : token.bare = false) (hs : Spaced tokens) : Spaced (token :: tokens) := by
  cases tokens with
  | nil => exact .singleton _
  | cons next tokens => exact List.isChain_cons_cons.mpr ⟨.inl h, hs⟩

theorem spaced_append {a b : List Token} (ha : Spaced a) (hb : Spaced b)
    (h : ∀ token ∈ b.head?, token.bare = false) : Spaced (a ++ b) :=
  List.isChain_append.mpr ⟨ha, hb, fun _ _ y hy => .inr (h y hy)⟩

/-- What follows a value inside of another one. -/
def Tail (tokens : List Token) : Prop :=
  Spaced tokens ∧ (∀ token ∈ tokens, token.Valid) ∧ ∀ token ∈ tokens.head?, token.bare = false

theorem tail_cons (hb : token.bare = false) (hv : token.Valid) (hs : Spaced tokens)
    (ht : ∀ token ∈ tokens, token.Valid) : Tail (token :: tokens) := by
  refine ⟨spaced_closed hb hs, List.forall_mem_cons.mpr ⟨hv, ht⟩, fun t h => ?_⟩
  rw [List.head?_cons] at h
  cases h
  exact hb

/-- The tokens of a value, and what follows it. -/
theorem tail_append {a b : List Token} (ha : Spaced a ∧ ∀ token ∈ a, token.Valid) (hb : Tail b) :
    Spaced (a ++ b) ∧ ∀ token ∈ a ++ b, token.Valid :=
  ⟨spaced_append ha.1 hb.1 hb.2.2, List.forall_mem_append.mpr ⟨ha.2, hb.2.1⟩⟩

theorem single (hv : token.Valid) : Spaced [token] ∧ ∀ t ∈ [token], t.Valid :=
  ⟨.singleton _, List.forall_mem_singleton.mpr hv⟩

mutual

theorem tokens_fit : ∀ v : Raw N, Spaced v.tokens ∧ ∀ token ∈ v.tokens, token.Valid
  | .null => single trivial
  | .bool true => single trivial
  | .bool false => single trivial
  | .num n => by
    rw [Raw.tokens]
    cases h : JsNumber.write n with
    | none => exact single trivial
    | some literal => exact single (JsNumber.write_isNumber n literal h)
  | .str s => single trivial
  | .arr items => by
    rw [Raw.tokens]
    cases items with
    | nil =>
      have h : Spaced [.closeBracket] ∧ ∀ t ∈ [Token.closeBracket], t.Valid := single trivial
      have ht : Tail [.openBracket, .closeBracket] := tail_cons rfl trivial h.1 h.2
      exact ⟨ht.1, ht.2.1⟩
    | cons v items =>
      rw [itemTokens, List.nil_append, List.append_assoc]
      have h := tail_append (tokens_fit v) (items_fit items)
      have ht : Tail (.openBracket :: (v.tokens ++ (itemTokens [.comma] items ++ [.closeBracket]))) :=
        tail_cons rfl trivial h.1 h.2
      exact ⟨ht.1, ht.2.1⟩
  | .obj members => by
    rw [Raw.tokens]
    cases members with
    | nil =>
      have h : Spaced [.closeBrace] ∧ ∀ t ∈ [Token.closeBrace], t.Valid := single trivial
      have ht : Tail [.openBrace, .closeBrace] := tail_cons rfl trivial h.1 h.2
      exact ⟨ht.1, ht.2.1⟩
    | cons p members =>
      obtain ⟨key, v⟩ := p
      rw [memberTokens, List.nil_append, List.cons_append, List.cons_append, List.append_assoc]
      have h := tail_append (tokens_fit v) (members_fit members)
      have hc : Tail (.colon :: (v.tokens ++ (memberTokens [.comma] members ++ [.closeBrace]))) :=
        tail_cons rfl trivial h.1 h.2
      have hk : Tail (.str key :: .colon :: (v.tokens ++ (memberTokens [.comma] members ++ [.closeBrace]))) :=
        tail_cons rfl trivial hc.1 hc.2.1
      have ht : Tail (.openBrace :: .str key :: .colon ::
          (v.tokens ++ (memberTokens [.comma] members ++ [.closeBrace]))) :=
        tail_cons rfl trivial hk.1 hk.2.1
      exact ⟨ht.1, ht.2.1⟩
termination_by structural v => v

theorem items_fit : ∀ items : List (Raw N), Tail (itemTokens [.comma] items ++ [.closeBracket])
  | [] => tail_cons rfl trivial .nil nofun
  | v :: items => by
    rw [itemTokens, List.append_assoc, List.append_assoc]
    have h := tail_append (tokens_fit v) (items_fit items)
    exact tail_cons rfl trivial h.1 h.2
termination_by structural items => items

theorem members_fit : ∀ members : List (Text × Raw N),
    Tail (memberTokens [.comma] members ++ [.closeBrace])
  | [] => tail_cons rfl trivial .nil nofun
  | (key, v) :: members => by
    rw [memberTokens, List.singleton_append, List.cons_append, List.cons_append, List.cons_append,
      List.append_assoc]
    have h := tail_append (tokens_fit v) (members_fit members)
    have hc : Tail (.colon :: (v.tokens ++ (memberTokens [.comma] members ++ [.closeBrace]))) :=
      tail_cons rfl trivial h.1 h.2
    have hk : Tail (.str key :: .colon :: (v.tokens ++ (memberTokens [.comma] members ++ [.closeBrace]))) :=
      tail_cons rfl trivial hc.1 hc.2.1
    exact tail_cons rfl trivial hk.1 hk.2.1
termination_by structural members => members

end

/-! ### Well-formed values -/

theorem keys_written {members : List (Text × Raw N)} : keys (writtenMembers members) = keys members := by
  induction members with
  | nil => rfl
  | cons p members ih =>
    obtain ⟨key, v⟩ := p
    rw [writtenMembers, keys, List.map_cons]
    exact congrArg (key :: ·) ih

mutual

theorem written_wf : ∀ v : Raw N, v.Wf → v.written.Wf
  | .null, _ => trivial
  | .bool _, _ => trivial
  | .num n, _ => by
    rw [Raw.written]
    cases JsNumber.write n <;> exact trivial
  | .str _, _ => trivial
  | .arr items, h => writtenItems_wf items h
  | .obj members, h => ⟨by rw [keys_written]; exact h.1, writtenMembers_wf members h.2⟩
termination_by structural v => v

theorem writtenItems_wf : ∀ items : List (Raw N), WfItems items → WfItems (writtenItems items)
  | [], _ => trivial
  | v :: items, h => ⟨written_wf v h.1, writtenItems_wf items h.2⟩
termination_by structural items => items

theorem writtenMembers_wf : ∀ members : List (Text × Raw N), WfMembers members →
    WfMembers (writtenMembers members)
  | [], _ => trivial
  | (_, v) :: members, h => ⟨written_wf v h.1, writtenMembers_wf members h.2⟩
termination_by structural members => members

end

def Frame.Wf : Frame N → Prop
  | .arr items => WfItems items
  | .obj members _ => (keys members).Nodup ∧ WfMembers members

structure Machine.Wf (m : Machine N) : Prop where
  stack : ∀ frame ∈ m.stack, frame.Wf
  done : ∀ v, m.expect = .done v → v.Wf

omit [JsNumber N] in
theorem feed_wf {v : Raw N} (hv : v.Wf) (hs : ∀ frame ∈ stack, frame.Wf) : (feed v stack).Wf := by
  cases stack with
  | nil => exact ⟨nofun, fun _ h => by cases h; exact hv⟩
  | cons frame stack =>
    obtain ⟨hf, hrest⟩ := List.forall_mem_cons.mp hs
    cases frame with
    | arr items =>
      refine ⟨List.forall_mem_cons.mpr ⟨?_, hrest⟩, nofun⟩
      exact wfItems_iff.mpr (List.forall_mem_append.mpr
        ⟨wfItems_iff.mp hf, List.forall_mem_singleton.mpr hv⟩)
    | obj members key =>
      refine ⟨List.forall_mem_cons.mpr ⟨⟨nodup_assign hf.1, wfMembers_iff.mpr fun p hp => ?_⟩,
        hrest⟩, nofun⟩
      rcases mem_assign hp with rfl | hp
      · exact hv
      · exact wfMembers_iff.mp hf.2 p hp

theorem begin_wf {m : Machine N} (hs : ∀ frame ∈ stack, frame.Wf)
    (h : Machine.begin stack token = some m) : m.Wf := by
  cases token with
  | openBracket =>
    cases h
    exact ⟨List.forall_mem_cons.mpr ⟨trivial, hs⟩, nofun⟩
  | openBrace =>
    cases h
    exact ⟨List.forall_mem_cons.mpr ⟨⟨List.nodup_nil, trivial⟩, hs⟩, nofun⟩
  | null | true | false | num | str => cases h; exact feed_wf trivial hs
  | _ => cases h

theorem step_wf {m m' : Machine N} (hm : m.Wf) (h : m.step token = some m') : m'.Wf := by
  have top : ∀ {frame stack}, m.stack = frame :: stack → frame.Wf ∧ ∀ frame ∈ stack, frame.Wf :=
    fun he => List.forall_mem_cons.mp (he ▸ hm.stack)
  unfold Machine.step at h
  split at h
  · next he =>
    cases h
    exact feed_wf (top he).1 (top he).2
  · exact begin_wf hm.stack h
  · exact begin_wf hm.stack h
  · next he =>
    cases h
    exact feed_wf (top he).1 (top he).2
  · next he =>
    cases h
    exact ⟨List.forall_mem_cons.mpr ⟨(top he).1, (top he).2⟩, nofun⟩
  · next he =>
    cases h
    exact ⟨List.forall_mem_cons.mpr ⟨(top he).1, (top he).2⟩, nofun⟩
  · cases h
    exact ⟨hm.stack, nofun⟩
  · next he =>
    cases h
    exact ⟨List.forall_mem_cons.mpr (top he), nofun⟩
  · next he =>
    cases h
    exact ⟨List.forall_mem_cons.mpr (top he), nofun⟩
  · next he =>
    cases h
    exact feed_wf (top he).1 (top he).2
  · next he =>
    cases h
    exact feed_wf (top he).1 (top he).2
  · cases h

theorem run_wf : ∀ {m m' : Machine N}, m.Wf → tokens.foldlM Machine.step m = some m' → m'.Wf := by
  induction tokens with
  | nil =>
    intro m m' hm h
    cases h
    exact hm
  | cons token tokens ih =>
    intro m m' hm h
    rw [List.foldlM_cons] at h
    obtain ⟨next, hstep, hrest⟩ := Option.bind_eq_some_iff.mp h
    exact ih (step_wf hm hstep) hrest

theorem readTokens_wf {v : Raw N} (h : readTokens tokens = some v) : v.Wf := by
  unfold readTokens at h
  split at h
  · next hrun =>
    cases h
    exact (run_wf ⟨fun _ h => (by cases h), fun _ h => (by cases h)⟩ hrun).done _ rfl
  · cases h

/-! ## JSON -/

namespace Json

/-- What is read of a value as it is written: a number that has no literal is lost. -/
def written (v : Json N) : Json N := ⟨v.1.written, written_wf v.1 v.2⟩

end Json

namespace JSON

def stringify (v : Json N) : Text := render v.1.tokens

def parse (text : Text) : Option (Json N) :=
  ((lex text).bind readTokens).pmap Subtype.mk fun _ h => by
    obtain ⟨tokens, _, hread⟩ := Option.bind_eq_some_iff.mp h
    exact readTokens_wf hread

theorem parse_stringify (v : Json N) : parse (stringify v) = some v.written := by
  have hlex : lex (stringify v) = some v.1.tokens := lex_render (tokens_fit v.1).2 (tokens_fit v.1).1
  have hread : (lex (stringify v)).bind readTokens = some v.1.written := by
    rw [hlex]
    exact readTokens_tokens v.2
  rw [parse]
  simp only [hread]
  rfl

end JSON

end Js
