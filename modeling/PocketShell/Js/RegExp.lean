import PocketShell.Js.Text

/-!
# Regular expressions

The backtracking matcher of the language, on code units and with no flag but `g` and `m`: classes,
greedy and lazy repetition, groups, back references and the assertions that look at one place.

* `RegExp`, `RegExp.run`: the matcher, with what is to match after it as a continuation.
* `replaceAll`, `exec`: every match from left to right, and the first one.
* `Exact`, `exact_literal`, `exact_star`: expressions that can end in one place only.
* `replaceAll_find`, `exec_find`: replacing and searching by where such an expression ends.
* `replaceAll_short`: a text shorter than any match is not replaced.
-/

namespace Js

/-! ## 1. The matcher -/

/-- `\w` -/
def isWordUnit (unit : UInt16) : Bool :=
  0x30 ≤ unit && unit ≤ 0x39 || 0x41 ≤ unit && unit ≤ 0x5a || 0x61 ≤ unit && unit ≤ 0x7a ||
    unit = 0x5f

def isLineEnd (unit : UInt16) : Bool :=
  unit = 0x0a || unit = 0x0d || unit = 0x2028 || unit = 0x2029

inductive RegExp
  | empty
  | unit (p : UInt16 → Bool)
  | seq (a b : RegExp)
  | alt (a b : RegExp)
  | star (a : RegExp)
  | lazyStar (a : RegExp)
  | group (n : Nat) (a : RegExp)
  | back (n : Nat)
  | notAhead (a : RegExp)
  | notBehind (p : UInt16 → Bool)
  | boundary
  | lineStart
  | finish

/-- A place in the text: the units before it, the nearest first, those after it, and what the
groups have captured, the latest first. -/
structure Cursor where
  before : Text
  rest : Text
  groups : List (Nat × Text)

namespace Cursor

/-- `n` units on. -/
def skip (c : Cursor) (n : Nat) : Cursor :=
  { c with before := (c.rest.take n).reverse ++ c.before, rest := c.rest.drop n }

def captured (c : Cursor) (n : Nat) : Option Text := (c.groups.find? (·.1 = n)).map Prod.snd

/-- One side of the place is part of a word. -/
def atBoundary (c : Cursor) : Bool := c.before.head?.any isWordUnit != c.rest.head?.any isWordUnit

def atLineStart (c : Cursor) : Bool := c.before.head?.all isLineEnd

end Cursor

/-- What is to match next. -/
abbrev Continuation : Type := Cursor → Option Cursor

/-- Rounds of a greedy repetition. A round that takes nothing fails. -/
def greedyRounds (round : Continuation → Continuation) (k : Continuation) : Nat → Continuation
  | 0, c => k c
  | n + 1, c =>
    (round (fun c' => if c'.rest.length < c.rest.length then greedyRounds round k n c' else none)
      c).or (k c)

/-- Rounds of a lazy repetition. -/
def lazyRounds (round : Continuation → Continuation) (k : Continuation) : Nat → Continuation
  | 0, c => k c
  | n + 1, c =>
    (k c).or
      (round (fun c' => if c'.rest.length < c.rest.length then lazyRounds round k n c' else none) c)

namespace RegExp

/-- The numbers of the groups inside. -/
def numbers : RegExp → List Nat
  | .seq a b => a.numbers ++ b.numbers
  | .alt a b => a.numbers ++ b.numbers
  | .star a => a.numbers
  | .lazyStar a => a.numbers
  | .group n a => n :: a.numbers
  | _ => []

/-- A round of a repetition forgets what the groups inside it have captured. -/
def forget (r : RegExp) (c : Cursor) : Cursor :=
  { c with groups := c.groups.filter fun g => !r.numbers.contains g.1 }

def run : RegExp → Continuation → Continuation
  | .empty, k, c => k c
  | .unit p, k, c =>
    match c.rest with
    | [] => none
    | u :: _ => if p u then k (c.skip 1) else none
  | .seq a b, k, c => a.run (b.run k) c
  | .alt a b, k, c => (a.run k c).or (b.run k c)
  | .star a, k, c => greedyRounds (fun k' c' => a.run k' (a.forget c')) k c.rest.length c
  | .lazyStar a, k, c => lazyRounds (fun k' c' => a.run k' (a.forget c')) k c.rest.length c
  | .group n a, k, c =>
    a.run (fun c' => k { c' with
      groups := (n, c.rest.take (c.rest.length - c'.rest.length)) :: c'.groups }) c
  | .back n, k, c =>
    match c.captured n with
    | none => k c
    | some text => if text.isPrefixOf c.rest then k (c.skip text.length) else none
  | .notAhead a, k, c => if (a.run some c).isSome then none else k c
  | .notBehind p, k, c => if c.before.head?.any p then none else k c
  | .boundary, k, c => if c.atBoundary then k c else none
  | .lineStart, k, c => if c.atLineStart then k c else none
  | .finish, k, c => if c.rest = [] then k c else none

/-- A word as it stands. -/
def literal (text : Text) : RegExp := text.foldr (fun u r => .seq (.unit (· = u)) r) .empty

/-- One of some expressions, the first that matches. -/
def oneOf : List RegExp → RegExp
  | [] => .notAhead .empty
  | [r] => r
  | r :: rest => .alt r (oneOf rest)

def all (rs : List RegExp) : RegExp := rs.foldr .seq .empty

/-- `r?` -/
def optional (r : RegExp) : RegExp := .alt r .empty

/-- `r+` -/
def plus (r : RegExp) : RegExp := .seq r (.star r)

/-- `[…]` -/
def inClass (units : Text) : RegExp := .unit units.contains

/-- `[^…]` -/
def notInClass (units : Text) : RegExp := .unit fun u => !units.contains u

def space : RegExp := .unit isSpace

/-- `[\s\S]` -/
def any : RegExp := .unit fun _ => true

/-- `r{0,n}` -/
def upTo (r : RegExp) : Nat → RegExp
  | 0 => .empty
  | n + 1 => optional (.seq r (upTo r n))

/-- `r{n,m}`, with `m - n` as the second count. -/
def times (r : RegExp) (n more : Nat) : RegExp := (.seq r ·)^[n] (upTo r more)

/-- `r{n,}` -/
def atLeast (r : RegExp) (n : Nat) : RegExp := .seq (times r n 0) (.star r)

end RegExp

/-! ## 2. Replacing -/

/-- A match: what it took, what the groups captured, and what follows it. -/
structure Match where
  whole : Text
  groups : List (Nat × Text)
  after : Text

/-- `$n`, empty where the group took no part. -/
def Match.group (m : Match) (n : Nat) : Text :=
  ((m.groups.find? (·.1 = n)).map Prod.snd).getD []

/-- The match that ends at `stop`. -/
def matchTo (rest : Text) (stop : Cursor) : Match :=
  ⟨rest.take (rest.length - stop.rest.length), stop.groups, stop.rest⟩

/-- Replace the matches in `rest`. `fuel` starts above its length. -/
def replaceFrom (r : RegExp) (f : Match → Text) : Nat → Text → Text → Text
  | 0, _, rest => rest
  | fuel + 1, before, rest =>
    match r.run some ⟨before, rest, []⟩, rest with
    | some stop, [] => f (matchTo [] stop)
    | none, [] => []
    | some stop, u :: tail =>
      if stop.rest.length < (u :: tail).length then
        f (matchTo (u :: tail) stop) ++ replaceFrom r f fuel stop.before stop.rest
      else f (matchTo (u :: tail) stop) ++ u :: replaceFrom r f fuel (u :: before) tail
    | none, u :: tail => u :: replaceFrom r f fuel (u :: before) tail

/-- `text.replace(r, f)` with the flag `g`. -/
def replaceAll (r : RegExp) (f : Match → Text) (text : Text) : Text :=
  replaceFrom r f (text.length + 1) [] text

/-- The first match at or after a place. -/
def execFrom (r : RegExp) (before : Text) : Text → Option Match
  | [] => (r.run some ⟨before, [], []⟩).map (matchTo [])
  | u :: tail =>
    ((r.run some ⟨before, u :: tail, []⟩).map (matchTo (u :: tail))).or
      (execFrom r (u :: before) tail)

/-- `r.exec(text)` -/
def exec (r : RegExp) (text : Text) : Option Match := execFrom r [] text

/-! ## 3. Expressions with one length -/

/-- At each place `r` can take one length only, and `len` gives it. -/
def Exact (r : RegExp) (len : Text → Option Nat) : Prop :=
  ∀ k c, r.run k c = (len c.rest).bind fun n => k (c.skip n)

def unitLength (p : UInt16 → Bool) (t : Text) : Option Nat := if t.head?.any p then some 1 else none

def literalLength (word t : Text) : Option Nat :=
  if word.isPrefixOf t then some word.length else none

def seqLength (la lb : Text → Option Nat) (t : Text) : Option Nat :=
  (la t).bind fun n => (lb (t.drop n)).map (n + ·)

/-- As many units of the class as possible, and then `lb`. -/
def starLength (p : UInt16 → Bool) (lb : Text → Option Nat) : Text → Option Nat
  | [] => lb []
  | u :: t => (if p u then (starLength p lb t).map (1 + ·) else none).or (lb (u :: t))

@[simp] theorem Cursor.skip_zero (c : Cursor) : c.skip 0 = c := rfl

theorem Cursor.skip_skip (c : Cursor) (m n : Nat) : (c.skip m).skip n = c.skip (m + n) := by
  simp [Cursor.skip, List.take_add, List.drop_drop]

theorem exact_unit (p : UInt16 → Bool) : Exact (.unit p) (unitLength p) := by
  rintro k ⟨before, rest, groups⟩
  cases rest with
  | nil => rfl
  | cons u t => cases hp : p u <;> simp [RegExp.run, unitLength, hp]

variable {a b : RegExp}

theorem Exact.seq {la lb : Text → Option Nat} (ha : Exact a la) (hb : Exact b lb) :
    Exact (.seq a b) (seqLength la lb) := by
  intro k c
  rw [RegExp.run, ha]
  cases hn : la c.rest with
  | none => simp [seqLength, hn]
  | some n =>
    show b.run k (c.skip n) = _
    rw [hb]
    have hrest : (c.skip n).rest = c.rest.drop n := rfl
    cases hm : lb (c.rest.drop n) with
    | none => simp [seqLength, hn, hm, hrest]
    | some m => simp [seqLength, hn, hm, hrest, Cursor.skip_skip]

theorem exact_literal (word : Text) : Exact (.literal word) (literalLength word) := by
  induction word with
  | nil => exact fun k c => by simp [RegExp.literal, RegExp.run, literalLength]
  | cons u word ih =>
    intro k c
    have hseq := (exact_unit (· = u)).seq ih k c
    rw [show RegExp.literal (u :: word) = .seq (.unit (· = u)) (.literal word) from rfl, hseq]
    congr 1
    cases hrest : c.rest with
    | nil => rfl
    | cons v t =>
      by_cases hv : v = u
      · subst hv
        by_cases hw : word <+: t <;>
          simp [seqLength, unitLength, literalLength, List.isPrefixOf, hw, Nat.add_comm]
      · have hv' : ¬ u = v := fun h => hv h.symm
        simp [seqLength, unitLength, literalLength, List.isPrefixOf, hv, hv']

variable {p : UInt16 → Bool}

theorem run_star_cons {k : Continuation} {before t : Text} {u : UInt16} {groups : List (Nat × Text)} :
    (RegExp.star (.unit p)).run k ⟨before, u :: t, groups⟩ =
      (if p u then (RegExp.star (.unit p)).run k ⟨u :: before, t, groups⟩ else none).or
        (k ⟨before, u :: t, groups⟩) := by
  have hforget : ∀ c : Cursor, RegExp.forget (.unit p) c = c := by
    intro c
    simp [RegExp.forget, RegExp.numbers]
  cases hp : p u <;>
    simp [RegExp.run, greedyRounds, hforget, hp, Cursor.skip]

theorem exact_star {b : RegExp} {lb : Text → Option Nat} (hb : Exact b lb)
    (hdisjoint : ∀ u t, p u = true → starLength p lb t ≠ none → lb (u :: t) = none) :
    Exact (.seq (.star (.unit p)) b) (starLength p lb) := by
  rintro k ⟨before, rest, groups⟩
  induction rest generalizing before with
  | nil =>
    show b.run k _ = _
    rw [hb]
    rfl
  | cons u t ih =>
    rw [RegExp.run, run_star_cons]
    have htail := ih (u :: before)
    rw [RegExp.run] at htail
    rw [htail, hb]
    cases hp : p u with
    | false => simp [starLength, hp]
    | true =>
      cases hstar : starLength p lb t with
      | none => simp [starLength, hp, hstar]
      | some n =>
        have hnone := hdisjoint u t hp (by simp [hstar])
        simp [starLength, hp, hstar, hnone, Cursor.skip, Nat.add_comm 1 n]

variable {d : UInt16}

/-- A class, and then a word whose first unit outside the class stands after `inner`: the word can
begin at one place only. -/
theorem word_disjoint {inner : Text} (rest : Text)
    (hinner : ∀ u ∈ inner, p u = true) (hd : p d = false) :
    ∀ u t, p u = true → starLength p (literalLength (inner ++ d :: rest)) t ≠ none →
      literalLength (inner ++ d :: rest) (u :: t) = none := by
  have hlead : ∀ t, literalLength (inner ++ d :: rest) t ≠ none →
      (t.takeWhile p).length = inner.length := by
    intro t h
    have hprefix : inner ++ d :: rest <+: t := by
      by_contra hno
      exact h (by simp [literalLength, hno])
    obtain ⟨more, rfl⟩ := hprefix
    rw [List.append_assoc, List.takeWhile_append_of_pos hinner]
    simp [hd]
  have hstar : ∀ t, starLength p (literalLength (inner ++ d :: rest)) t ≠ none →
      inner.length ≤ (t.takeWhile p).length := by
    intro t
    induction t with
    | nil => exact fun h => (hlead [] h).ge
    | cons u t ih =>
      intro h
      by_cases hword : literalLength (inner ++ d :: rest) (u :: t) = none
      · cases hp : p u with
        | false => simp [starLength, hp, hword] at h
        | true =>
          have htail := ih fun hnone => h (by simp [starLength, hp, hword, hnone])
          simp only [List.takeWhile_cons, hp, if_true, List.length_cons]
          exact Nat.le_succ_of_le htail
      · exact (hlead _ hword).ge
  intro u t hp h
  by_contra hword
  have hle := hstar t h
  have heq := hlead _ hword
  simp only [List.takeWhile_cons, hp, if_true, List.length_cons] at heq
  omega

/-! ## 4. Expressions that stay on a line -/

/-- `len` takes something, and passes neither the end of the text nor a unit `d`. -/
structure Stops (d : UInt16) (len : Text → Option Nat) : Prop where
  pos : ∀ t n, len t = some n → 0 < n
  within : ∀ t n, len t = some n → n ≤ t.length
  ends : ∀ a z : Text, z.head?.all (· = d) → len (a ++ z) = len a

variable {len : Text → Option Nat}

theorem Stops.nil (hl : Stops d len) : len [] = none := by
  cases hn : len [] with
  | none => rfl
  | some n => exact absurd (hl.within [] n hn) (Nat.not_le.mpr (hl.pos [] n hn))

theorem stops_literal {word : Text} (hword : word ≠ []) (hd : d ∉ word) :
    Stops d (literalLength word) where
  pos t n h := by
    unfold literalLength at h
    split at h
    · cases h
      exact List.length_pos_of_ne_nil hword
    · simp at h
  within t n h := by
    unfold literalLength at h
    split at h
    next hprefix =>
      cases h
      exact (List.isPrefixOf_iff_prefix.mp hprefix).length_le
    next => simp at h
  ends a z hz := by
    have hprefix : word.isPrefixOf (a ++ z) = word.isPrefixOf a := by
      clear hword
      induction word generalizing a with
      | nil => simp
      | cons u word ih =>
        have hu : ¬ u = d := fun h => hd (h ▸ List.mem_cons_self)
        cases a with
        | nil =>
          cases z with
          | nil => rfl
          | cons v z =>
            have hv : v = d := by simpa using hz
            simp [List.isPrefixOf, hv, hu]
        | cons v a =>
          simp only [List.cons_append, List.isPrefixOf_cons_cons]
          rw [ih (fun h => hd (List.mem_cons_of_mem _ h)) a]
    simp only [literalLength, hprefix]

theorem Stops.seq {la lb : Text → Option Nat} (ha : Stops d la) (hb : Stops d lb) :
    Stops d (seqLength la lb) where
  pos t n h := by
    obtain ⟨m, hm, hrest⟩ := Option.bind_eq_some_iff.mp h
    obtain ⟨k, -, rfl⟩ := Option.map_eq_some_iff.mp hrest
    exact Nat.add_pos_left (ha.pos t m hm) k
  within t n h := by
    obtain ⟨m, hm, hrest⟩ := Option.bind_eq_some_iff.mp h
    obtain ⟨k, hk, rfl⟩ := Option.map_eq_some_iff.mp hrest
    have hleft := ha.within t m hm
    have hright := hb.within _ k hk
    rw [List.length_drop] at hright
    omega
  ends a z hz := by
    unfold seqLength
    rw [ha.ends a z hz]
    cases hn : la a with
    | none => rfl
    | some n =>
      show ((lb _).map _) = ((lb _).map _)
      rw [List.drop_append_of_le_length (ha.within a n hn), hb.ends _ z hz]

theorem stops_star {lb : Text → Option Nat} (hp : p d = false)
    (hb : Stops d lb) : Stops d (starLength p lb) where
  pos t n h := by
    induction t generalizing n with
    | nil => exact hb.pos [] n h
    | cons u t ih =>
      rw [starLength, Option.or_eq_some_iff] at h
      rcases h with h | ⟨-, h⟩
      · split at h
        · obtain ⟨m, -, rfl⟩ := Option.map_eq_some_iff.mp h
          exact Nat.add_pos_left Nat.one_pos m
        · simp at h
      · exact hb.pos _ n h
  within t n h := by
    induction t generalizing n with
    | nil => exact hb.within [] n h
    | cons u t ih =>
      rw [starLength, Option.or_eq_some_iff] at h
      rcases h with h | ⟨-, h⟩
      · split at h
        · obtain ⟨m, hm, rfl⟩ := Option.map_eq_some_iff.mp h
          have hle := ih m hm
          rw [List.length_cons]
          omega
        · simp at h
      · exact hb.within _ n h
  ends a z hz := by
    induction a with
    | nil =>
      cases z with
      | nil => rfl
      | cons v z =>
        have hv : v = d := by simpa using hz
        have hlb := hb.ends [] (v :: z) hz
        rw [List.nil_append] at hlb ⊢
        simp [starLength, hv ▸ hp, hlb]
    | cons u a ih =>
      rw [List.cons_append, starLength, starLength, ih]
      congr 1
      exact hb.ends (u :: a) z hz

/-! ## 5. The first match, and replacing every match -/

/-- What follows the first place where `len` matches. -/
def findAfter (len : Text → Option Nat) : Text → Option Text
  | [] => (len []).map (List.drop · [])
  | u :: t => ((len (u :: t)).map (List.drop · (u :: t))).or (findAfter len t)

/-- The match of an expression with one length does not depend on what is before it. -/
theorem exec_find {r : RegExp} (hr : Exact r len) (text : Text) :
    (exec r text).map Match.after = findAfter len text := by
  have hfrom : ∀ before, (execFrom r before text).map Match.after = findAfter len text := by
    induction text with
    | nil =>
      intro before
      rw [execFrom, hr, findAfter]
      cases len [] <;> rfl
    | cons u t ih =>
      intro before
      rw [execFrom, hr, findAfter, ← ih (u :: before)]
      cases len (u :: t) <;> rfl
  exact hfrom []

/-- A line feed ends the search of what stays on a line. -/
theorem findAfter_append (hl : Stops d len) {z : Text} (hz : z.head?.all (· = d)) (a : Text) :
    findAfter len (a ++ z) = ((findAfter len a).map (· ++ z)).or (findAfter len z) := by
  induction a with
  | nil => simp [findAfter, hl.nil]
  | cons u a ih =>
    rw [List.cons_append, findAfter, findAfter, ih]
    have hends := hl.ends (u :: a) z hz
    rw [List.cons_append] at hends
    rw [hends]
    cases hn : len (u :: a) with
    | none => rfl
    | some n =>
      have hdrop : (u :: (a ++ z)).drop n = (u :: a).drop n ++ z :=
        List.drop_append_of_le_length (hl.within (u :: a) n hn)
      simp [hdrop]

theorem findAfter_less (hl : Stops d len) {t rest : Text}
    (h : findAfter len t = some rest) : rest.length < t.length := by
  induction t with
  | nil => simp [findAfter, hl.nil] at h
  | cons u t ih =>
    rcases Option.or_eq_some_iff.mp h with h | ⟨-, h⟩
    · obtain ⟨n, hn, rfl⟩ := Option.map_eq_some_iff.mp h
      have hpos := hl.pos _ n hn
      rw [List.length_drop, List.length_cons]
      omega
    · exact Nat.lt_succ_of_lt (ih h)

/-- `[\s\S]*?` up to the first match of `r`, or to the end of the text. -/
theorem run_until {r : RegExp} (hr : Exact r len) (c : Cursor) :
    ((RegExp.lazyStar .any).run ((RegExp.oneOf [r, .finish]).run some) c).map Cursor.rest =
      some ((findAfter len c.rest).getD []) := by
  obtain ⟨before, rest, groups⟩ := c
  have hforget : ∀ c : Cursor, RegExp.forget .any c = c := by
    intro c
    simp [RegExp.forget, RegExp.any, RegExp.numbers]
  have htry : ∀ c : Cursor, (RegExp.oneOf [r, .finish]).run some c =
      ((len c.rest).map c.skip).or (if c.rest = [] then some c else none) := by
    intro c
    show (r.run some c).or _ = _
    rw [hr]
    cases len c.rest <;> rfl
  induction rest generalizing before with
  | nil =>
    show ((RegExp.oneOf [r, .finish]).run some _).map _ = _
    rw [htry]
    cases hn : len [] <;> simp [findAfter, hn, Cursor.skip]
  | cons u t ih =>
    have hnext := ih (u :: before)
    simp only [RegExp.run, List.length_cons, lazyRounds, hforget] at hnext ⊢
    have htry' := htry ⟨before, u :: t, groups⟩
    rw [htry']
    cases hn : len (u :: t) with
    | some n => simp [findAfter, hn, Cursor.skip]
    | none =>
      simp only [findAfter, hn]
      simpa [RegExp.any, RegExp.run, Cursor.skip] using hnext

/-- Replacing by one token, where `find` tells what follows a match at the start of a text. -/
def replaceBy (find : Text → Option Text) (token : Text) : Nat → Text → Text
  | 0, rest => rest
  | _ + 1, [] => []
  | fuel + 1, u :: t =>
    match find (u :: t) with
    | some rest => token ++ replaceBy find token fuel rest
    | none => u :: replaceBy find token fuel t

section Replace

variable {find : Text → Option Text} {token : Text}
  (hless : ∀ t rest, find t = some rest → rest.length < t.length)

include hless

theorem replaceFrom_find {r : RegExp}
    (hfind : ∀ before rest, (r.run some ⟨before, rest, []⟩).map Cursor.rest = find rest) :
    ∀ fuel before rest, replaceFrom r (fun _ => token) fuel before rest =
      replaceBy find token fuel rest := by
  intro fuel
  induction fuel with
  | zero => exact fun _ _ => rfl
  | succ fuel ih =>
    intro before rest
    have hrun := hfind before rest
    cases rest with
    | nil =>
      cases hstop : r.run some ⟨before, [], []⟩ with
      | none => simp [replaceFrom, replaceBy, hstop]
      | some stop =>
        rw [hstop] at hrun
        exact absurd (hless [] stop.rest hrun.symm) (by simp)
    | cons u t =>
      cases hstop : r.run some ⟨before, u :: t, []⟩ with
      | none =>
        rw [hstop] at hrun
        simp [replaceFrom, replaceBy, hstop, ← hrun, ih]
      | some stop =>
        rw [hstop] at hrun
        have hlt := hless (u :: t) stop.rest hrun.symm
        rw [List.length_cons] at hlt
        simp [replaceFrom, replaceBy, hstop, ← hrun, hlt, ih]

/-- Enough fuel is enough. -/
theorem replaceBy_fuel : ∀ {fuel fuel' : Nat} {rest : Text}, rest.length < fuel → rest.length < fuel' →
    replaceBy find token fuel rest = replaceBy find token fuel' rest := by
  intro fuel
  induction fuel with
  | zero => exact fun h => absurd h (Nat.not_lt_zero _)
  | succ fuel ih =>
    intro fuel' rest h h'
    obtain ⟨fuel', rfl⟩ := Nat.exists_eq_succ_of_ne_zero (Nat.ne_zero_of_lt h')
    cases rest with
    | nil => rfl
    | cons u t =>
      rw [List.length_cons] at h h'
      cases hf : find (u :: t) with
      | none =>
        simp only [replaceBy, hf]
        rw [ih (by omega) (Nat.succ_lt_succ_iff.mp h')]
      | some rest =>
        have hlt := hless _ _ hf
        rw [List.length_cons] at hlt
        simp only [replaceBy, hf]
        rw [ih (by omega) (show rest.length < fuel' by omega)]

theorem replaceAll_find {r : RegExp}
    (hfind : ∀ before rest, (r.run some ⟨before, rest, []⟩).map Cursor.rest = find rest)
    (text : Text) :
    replaceAll r (fun _ => token) text = replaceBy find token (text.length + 1) text :=
  replaceFrom_find hless hfind _ _ _

end Replace

/-! ## 6. How much an expression takes -/

/-- Every match of `r` takes at least `n` units. -/
def Takes (n : Nat) (r : RegExp) : Prop :=
  ∀ k c stop, r.run k c = some stop → ∃ c', k c' = some stop ∧ c'.rest.length + n ≤ c.rest.length

theorem takes_unit (p : UInt16 → Bool) : Takes 1 (.unit p) := by
  rintro k ⟨before, rest, groups⟩ stop h
  cases rest with
  | nil => exact absurd h (by simp [RegExp.run])
  | cons u t =>
    simp only [RegExp.run] at h
    split at h
    · exact ⟨_, h, by simp [Cursor.skip]⟩
    · exact absurd h (by simp)

theorem Takes.seq {m n : Nat} (ha : Takes m a) (hb : Takes n b) : Takes (m + n) (.seq a b) := by
  intro k c stop h
  obtain ⟨c', hc', hle⟩ := ha _ _ _ h
  obtain ⟨c'', hc'', hle'⟩ := hb _ _ _ hc'
  exact ⟨c'', hc'', by omega⟩

theorem Takes.alt {n : Nat} (ha : Takes n a) (hb : Takes n b) : Takes n (.alt a b) := by
  intro k c stop h
  rcases Option.or_eq_some_iff.mp h with h | ⟨-, h⟩
  · exact ha _ _ _ h
  · exact hb _ _ _ h

theorem takes_all (rs : List RegExp) (h : ∀ r ∈ rs, Takes 1 r) : Takes rs.length (.all rs) := by
  induction rs with
  | nil => exact fun k c stop hrun => ⟨c, hrun, by simp⟩
  | cons r rs ih =>
    have htail := ih fun r' hr => h r' (List.mem_cons_of_mem _ hr)
    have hseq := (h r List.mem_cons_self).seq htail
    rwa [Nat.add_comm] at hseq

/-- A text that is too short stays as it is. -/
theorem replaceAll_short {n : Nat} {r : RegExp} (hr : Takes n r) (f : Match → Text) {text : Text}
    (hlen : text.length < n) : replaceAll r f text = text := by
  have hfrom : ∀ fuel before rest, rest.length < n → replaceFrom r f fuel before rest = rest := by
    intro fuel
    induction fuel with
    | zero => exact fun _ _ _ => rfl
    | succ fuel ih =>
      intro before rest hrest
      have hnone : r.run some ⟨before, rest, []⟩ = none := by
        cases hstop : r.run some ⟨before, rest, []⟩ with
        | none => rfl
        | some stop =>
          obtain ⟨c', -, hle⟩ := hr _ _ _ hstop
          exact absurd hle (by simp only; omega)
      cases rest with
      | nil => simp [replaceFrom, hnone]
      | cons u t =>
        rw [List.length_cons] at hrest
        simp [replaceFrom, hnone, ih (u :: before) t (by omega)]
  exact hfrom _ _ _ hlen

end Js
