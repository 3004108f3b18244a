import PocketShell.KeyVault.Format

/-!
# PEM files

`parsePem` and `emitPem` of `sshKeys.ts`: what is emitted is parsed to the same label and bytes
(`parsePem_emitPem`).
-/

namespace PocketShell.SshKeys

open Js (Text Bytes ascii join isSpace padUnit)
open KeyVault (toB64 fromB64 isB64Unit)

inductive KeyErrorKind
  | unsupported
  | invalid
  | wrongPassphrase
deriving DecidableEq

/-- What is thrown: a `KeyError`, or an error of the platform. -/
inductive Thrown
  | key (kind : KeyErrorKind) (message : Text)
  | other
deriving DecidableEq

abbrev Outcome (α : Type) : Type := Except Thrown α

def invalid {α : Type} (message : Text) : Outcome α := .error (.key .invalid message)

def unsupported {α : Type} (message : Text) : Outcome α := .error (.key .unsupported message)

/-! ## Matching -/

def DASHES : Text := ascii "-----"

def BEGIN : Text := ascii "-----BEGIN "

def END : Text := ascii "-----END "

/-- What follows a literal. -/
def literal : Text → Text → Option Text
  | [], rest => some rest
  | _ :: _, [] => none
  | u :: marker, v :: rest => if u = v then literal marker rest else none

/-- A literal occurs. -/
def contains (marker : Text) : Text → Bool
  | [] => (literal marker []).isSome
  | u :: rest => (literal marker (u :: rest)).isSome || contains marker rest

/-- `[A-Z0-9 ]` -/
def isLabelUnit (unit : UInt16) : Bool :=
  0x41 ≤ unit && unit ≤ 0x5a || 0x30 ≤ unit && unit ≤ 0x39 || unit = 0x20

def dropReturn : Text → Text
  | 0x0d :: rest => rest
  | text => text

def dropFeed : Text → Text
  | 0x0a :: rest => rest
  | text => text

/-- `\r?\n` -/
def newline (text : Text) : Option Text := literal [0x0a] (dropReturn text)

/-- `\r?\n?` and the marker, which starts with neither. -/
def closes (marker text : Text) : Bool := (literal marker (dropFeed (dropReturn text))).isSome

/-- The shortest text after which the marker closes it. -/
def upTo (marker : Text) : Text → Option Text
  | [] => if closes marker [] then some [] else none
  | u :: rest => if closes marker (u :: rest) then some [] else (upTo marker rest).map (u :: ·)

def endMarker (label : Text) : Text := END ++ label ++ DASHES

/-- The label and the inside of a file that starts here. -/
def pemAt (text : Text) : Option (Text × Text) := do
  let rest ← literal BEGIN text
  let label := rest.takeWhile isLabelUnit
  let rest ← literal DASHES (rest.dropWhile isLabelUnit)
  let rest ← newline rest
  if label = [] then none else (upTo (endMarker label) rest).map (label, ·)

/-- The first file in the text. -/
def findPem : Text → Option (Text × Text)
  | [] => none
  | u :: rest =>
    match pemAt (u :: rest) with
    | some found => some found
    | none => findPem rest

/-! ## The inside -/

structure Pem where
  label : Text
  /-- As they stand; a later one is over an earlier one of its name. -/
  headers : List (Text × Text)
  body : Bytes
deriving DecidableEq

/-- `pem.headers[name]` -/
def Pem.header (pem : Pem) (name : Text) : Option Text :=
  (pem.headers.filter (·.1 = name)).getLast?.map Prod.snd

/-- `[A-Za-z-]` -/
def isHeaderUnit (unit : UInt16) : Bool :=
  0x41 ≤ unit && unit ≤ 0x5a || 0x61 ≤ unit && unit ≤ 0x7a || unit = 0x2d

/-- What `.` does not match. -/
def isTerminator (unit : UInt16) : Bool :=
  unit = 0x0a || unit = 0x0d || unit = 0x2028 || unit = 0x2029

/-- `^([A-Za-z-]+):(.*)` with the rest of the line as it stands. -/
def headerStart (line : Text) : Option (Text × Text) :=
  let name := line.takeWhile isHeaderUnit
  if name = [] then none
  else (literal (ascii ":") (line.dropWhile isHeaderUnit)).map (name, ·)

/-- `^([A-Za-z-]+):\s*(.*)$` -/
def headerOf (line : Text) : Option (Text × Text) := do
  let (name, rest) ← headerStart line
  let value := rest.dropWhile isSpace
  if value.any isTerminator then none else some (name, value)

/-- The headers up to a blank line, and the lines from there on. -/
def readHeaders : List Text → Outcome (List (Text × Text) × List Text)
  | [] => .ok ([], [])
  | line :: rest =>
    if line = [] then .ok ([], line :: rest)
    else
      match headerOf line with
      | none => invalid (ascii "malformed PEM header")
      | some header => do
        let (headers, body) ← readHeaders rest
        return (header :: headers, body)

/-- The split takes the return before a feed with it, which else is trimmed. -/
def linesOf (inside : Text) : List Text := (inside.splitOn 0x0a).map Js.trim

/-- `^[A-Za-z0-9+/]*={0,2}$` -/
def isBase64Text (text : Text) : Bool :=
  let pads := text.dropWhile isB64Unit
  pads.length ≤ 2 && pads.all (· = padUnit)

def readBody (label : Text) (headers : List (Text × Text)) (lines : List Text) : Outcome Pem :=
  let b64 := lines.flatten
  if isBase64Text b64 then
    match fromB64 b64 with
    | none => invalid (ascii "malformed PEM body")
    | some body => .ok ⟨label, headers, body⟩
  else invalid (ascii "malformed PEM body")

def parsePem (text : Text) : Outcome Pem :=
  match findPem text with
  | none => invalid (ascii "not a PEM private key")
  | some (label, inside) =>
    let lines := linesOf inside
    if lines.any fun line => (headerStart line).isSome then do
      let (headers, body) ← readHeaders lines
      readBody label headers body
    else readBody label [] lines

/-! ## Emitting -/

def OPENSSH_LABEL : Text := ascii "OPENSSH PRIVATE KEY"

/-- Pieces of `width` units; as many as there are units are enough. -/
def piecesFrom (width : Nat) : Nat → Text → List Text
  | 0, _ => []
  | count + 1, text =>
    if text = [] then [] else text.take width :: piecesFrom width count (text.drop width)

def wrapped (width : Nat) (text : Text) : List Text := piecesFrom width text.length text

def lineWidth (label : Text) : Nat := if label = OPENSSH_LABEL then 70 else 64

def emitPem (label : Text) (body : Bytes) : Text :=
  BEGIN ++ (label ++ (DASHES ++ (0x0a :: (join [0x0a] (wrapped (lineWidth label) (toB64 body)) ++
    (0x0a :: (endMarker label ++ [0x0a]))))))

/-! ## What is emitted is parsed -/

theorem literal_append (marker rest : Text) : literal marker (marker ++ rest) = some rest := by
  induction marker with
  | nil => rfl
  | cons u marker ih => rw [List.cons_append, literal, if_pos rfl, ih]

theorem pieces_flatten {width : Nat} (h : 0 < width) (count : Nat) :
    ∀ text : Text, text.length ≤ count → (piecesFrom width count text).flatten = text := by
  induction count with
  | zero =>
    intro text hlength
    rw [List.eq_nil_of_length_eq_zero (Nat.le_zero.mp hlength)]
    rfl
  | succ count ih =>
    intro text hlength
    rw [piecesFrom]
    split
    · next hnil => exact hnil.symm
    · next hne =>
      have hpos : 0 < text.length := List.length_pos_iff.mpr hne
      have hshort : (text.drop width).length ≤ count := by
        rw [List.length_drop]
        omega
      rw [List.flatten_cons, ih _ hshort, List.take_append_drop]

theorem pieces_mem {width : Nat} (h : 0 < width) (count : Nat) :
    ∀ text : Text, ∀ piece ∈ piecesFrom width count text,
      piece ≠ [] ∧ ∀ unit ∈ piece, unit ∈ text := by
  induction count with
  | zero =>
    intro text piece hpiece
    cases hpiece
  | succ count ih =>
    intro text piece hpiece
    rw [piecesFrom] at hpiece
    split at hpiece
    · cases hpiece
    · next hne =>
      rcases List.mem_cons.mp hpiece with rfl | hpiece
      · refine ⟨?_, fun unit hunit => List.mem_of_mem_take hunit⟩
        rw [Ne, List.take_eq_nil_iff]
        exact not_or.mpr ⟨h.ne', hne⟩
      · obtain ⟨hpiece, hunits⟩ := ih _ piece hpiece
        exact ⟨hpiece, fun unit hunit => List.mem_of_mem_drop (hunits unit hunit)⟩

/-- A unit of base64 or of its padding. -/
def isBodyUnit (unit : UInt16) : Bool := isB64Unit unit || unit = padUnit

theorem b64Unit_base64 : ∀ n < 64, isB64Unit (Js.base64Unit n) = true := by decide

theorem toB64_split (body : Bytes) : ∃ units pads : Text, toB64 body = units ++ pads ∧
    (∀ unit ∈ units, isB64Unit unit = true) ∧ pads.length ≤ 2 ∧ ∀ unit ∈ pads, unit = padUnit := by
  refine ⟨_, _, rfl, fun unit hunit => ?_, ?_, fun unit => List.eq_of_mem_replicate⟩
  · obtain ⟨n, hn, rfl⟩ := List.mem_map.mp hunit
    exact b64Unit_base64 n (Js.sextets_lt body n hn)
  · rw [List.length_replicate]
    omega

theorem toB64_units (body : Bytes) : ∀ unit ∈ toB64 body, isBodyUnit unit = true := by
  obtain ⟨units, pads, heq, hunits, -, hpads⟩ := toB64_split body
  intro unit hunit
  rw [heq] at hunit
  unfold isBodyUnit
  rcases List.mem_append.mp hunit with hunit | hunit
  · rw [hunits unit hunit]
    rfl
  · rw [hpads unit hunit]
    rfl

theorem isBase64Text_toB64 (body : Bytes) : isBase64Text (toB64 body) = true := by
  obtain ⟨units, pads, heq, hunits, hlength, hpads⟩ := toB64_split body
  have hdrop : (toB64 body).dropWhile isB64Unit = pads := by
    rw [heq, List.dropWhile_append_of_pos hunits]
    cases pads with
    | nil => rfl
    | cons unit pads =>
      rw [hpads unit List.mem_cons_self]
      rfl
  unfold isBase64Text
  rw [hdrop]
  refine Bool.and_eq_true_iff.mpr ⟨decide_eq_true hlength, List.all_eq_true.mpr fun unit hunit => ?_⟩
  exact decide_eq_true (hpads unit hunit)

theorem bodyUnit_ne {unit v : UInt16} (h : isBodyUnit unit = true) (hv : isBodyUnit v = false) :
    unit ≠ v := by
  rintro rfl
  rw [h] at hv
  cases hv

theorem bodyUnit_not_space {unit : UInt16} (h : isBodyUnit unit = true) : isSpace unit = false := by
  simp only [isBodyUnit, isB64Unit, padUnit, Bool.or_eq_true, Bool.and_eq_true, decide_eq_true_eq,
    UInt16.le_iff_toNat_le, ← UInt16.toNat_inj] at h
  simp only [isSpace, Bool.or_eq_false_iff, Bool.and_eq_false_iff, decide_eq_false_iff_not,
    UInt16.le_iff_toNat_le, ← UInt16.toNat_inj]
  simp at h ⊢
  omega

theorem dropReturn_cons {unit : UInt16} {rest : Text} (h : unit ≠ 0x0d) :
    dropReturn (unit :: rest) = unit :: rest := by
  unfold dropReturn
  split
  · next heq =>
    cases heq
    exact absurd rfl h
  · rfl

theorem dropFeed_cons {unit : UInt16} {rest : Text} (h : unit ≠ 0x0a) :
    dropFeed (unit :: rest) = unit :: rest := by
  unfold dropFeed
  split
  · next heq =>
    cases heq
    exact absurd rfl h
  · rfl

section

variable {label rest tail : Text} {unit : UInt16}

theorem literal_endMarker (h : unit ≠ 0x2d) : literal (endMarker label) (unit :: rest) = none := by
  show (if (0x2d : UInt16) = unit then _ else none) = none
  rw [if_neg h.symm]

theorem closes_unit (h : isBodyUnit unit = true) : closes (endMarker label) (unit :: rest) = false := by
  unfold closes
  rw [dropReturn_cons (bodyUnit_ne h rfl), dropFeed_cons (bodyUnit_ne h rfl),
    literal_endMarker (bodyUnit_ne h rfl)]
  rfl

theorem closes_feed (h : isBodyUnit unit = true) :
    closes (endMarker label) (0x0a :: unit :: rest) = false := by
  show (literal (endMarker label) (unit :: rest)).isSome = false
  rw [literal_endMarker (bodyUnit_ne h rfl)]
  rfl

theorem closes_end : closes (endMarker label) (0x0a :: (endMarker label ++ tail)) = true := by
  show (literal (endMarker label) (endMarker label ++ tail)).isSome = true
  rw [literal_append]
  rfl

/-- Lines of base64: after every feed there is a unit of the next line. -/
def solid : Text → Bool
  | [] => true
  | u :: rest =>
    if u = 0x0a then rest.head?.any isBodyUnit && solid rest else isBodyUnit u && solid rest

theorem upTo_solid {content : Text} (h : solid content = true) :
    upTo (endMarker label) (content ++ 0x0a :: (endMarker label ++ tail)) = some content := by
  induction content with
  | nil => rw [List.nil_append, upTo, closes_end, if_pos rfl]
  | cons u content ih =>
    rw [solid] at h
    have hopen : closes (endMarker label)
        (u :: (content ++ 0x0a :: (endMarker label ++ tail))) = false ∧ solid content = true := by
      split at h
      · next hfeed =>
        obtain ⟨hhead, hsolid⟩ := Bool.and_eq_true_iff.mp h
        cases content with
        | nil => cases hhead
        | cons v content =>
          rw [hfeed]
          exact ⟨closes_feed hhead, hsolid⟩
      · obtain ⟨hunit, hsolid⟩ := Bool.and_eq_true_iff.mp h
        exact ⟨closes_unit hunit, hsolid⟩
    rw [List.cons_append, upTo, hopen.1, ih hopen.2]
    rfl

theorem solid_append {line content : Text} (hline : ∀ unit ∈ line, isBodyUnit unit = true)
    (h : solid content = true) : solid (line ++ content) = true := by
  induction line with
  | nil => exact h
  | cons u line ih =>
    obtain ⟨hu, hrest⟩ := List.forall_mem_cons.mp hline
    rw [List.cons_append, solid, if_neg (bodyUnit_ne hu rfl), hu, ih hrest]
    rfl

/-- What is known of the lines that are emitted. -/
def Plain (lines : List Text) : Prop :=
  ∀ line ∈ lines, line ≠ [] ∧ ∀ unit ∈ line, isBodyUnit unit = true

theorem solid_join {lines : List Text} (h : Plain lines) : solid (join [0x0a] lines) = true := by
  induction lines with
  | nil => rfl
  | cons line lines ih =>
    obtain ⟨⟨-, hline⟩, hrest⟩ := List.forall_mem_cons.mp h
    cases lines with
    | nil =>
      have hjoin : join [0x0a] [line] = line ++ [] := by simp [join]
      rw [hjoin]
      exact solid_append hline rfl
    | cons next lines =>
      obtain ⟨⟨hne, hnext⟩, -⟩ := List.forall_mem_cons.mp hrest
      have hjoin : join [0x0a] (line :: next :: lines) =
          line ++ (0x0a :: join [0x0a] (next :: lines)) := by
        simp [join, List.intercalate_cons_cons]
      have hhead : (join [0x0a] (next :: lines)).head?.any isBodyUnit = true := by
        obtain ⟨v, more, rfl⟩ := List.exists_cons_of_ne_nil hne
        cases lines <;> simp [join, List.intercalate_cons_cons, hnext v List.mem_cons_self]
      rw [hjoin]
      refine solid_append hline ?_
      rw [solid, if_pos rfl, hhead, ih hrest]
      rfl

theorem plain_wrapped (label : Text) (body : Bytes) :
    Plain (wrapped (lineWidth label) (toB64 body)) := by
  have hwidth : 0 < lineWidth label := by
    unfold lineWidth
    split <;> decide
  intro line hline
  obtain ⟨hne, hunits⟩ := pieces_mem hwidth _ _ line hline
  exact ⟨hne, fun unit hunit => toB64_units body unit (hunits unit hunit)⟩

theorem findPem_of {text : Text} {found : Text × Text} (h : pemAt text = some found) :
    findPem text = some found := by
  cases text with
  | nil => cases h
  | cons u rest => rw [findPem, h]

theorem findPem_emitPem (hne : label ≠ []) (hlabel : ∀ unit ∈ label, isLabelUnit unit = true)
    (body : Bytes) : findPem (emitPem label body) =
      some (label, join [0x0a] (wrapped (lineWidth label) (toB64 body))) := by
  refine findPem_of ?_
  have hdashes : ∀ rest : Text, (label ++ (DASHES ++ rest)).takeWhile isLabelUnit = label ∧
      (label ++ (DASHES ++ rest)).dropWhile isLabelUnit = DASHES ++ rest := fun rest => by
    rw [List.takeWhile_append_of_pos hlabel, List.dropWhile_append_of_pos hlabel]
    exact ⟨List.append_nil _, rfl⟩
  unfold pemAt emitPem
  simp only [literal_append, Option.bind_eq_bind, Option.bind_some, hdashes]
  have hnewline : ∀ rest : Text, newline (0x0a :: rest) = some rest := fun _ => rfl
  simp only [hnewline, Option.bind_some]
  rw [if_neg hne, upTo_solid (solid_join (plain_wrapped label body))]
  rfl

theorem headerStart_plain {line : Text} (h : ∀ unit ∈ line, isBodyUnit unit = true) :
    headerStart line = none := by
  unfold headerStart
  dsimp only
  split
  · rfl
  · cases hdrop : line.dropWhile isHeaderUnit with
    | nil => rfl
    | cons u rest =>
      have hu : isBodyUnit u = true :=
        h u ((List.dropWhile_suffix _).subset (hdrop ▸ List.mem_cons_self))
      show ((if (0x3a : UInt16) = u then _ else none).map _) = none
      rw [if_neg (bodyUnit_ne hu rfl).symm]
      rfl

theorem linesOf_join {lines : List Text} (h : Plain lines) :
    (linesOf (join [0x0a] lines)).flatten = lines.flatten ∧
      ∀ line ∈ linesOf (join [0x0a] lines), ∀ unit ∈ line, isBodyUnit unit = true := by
  cases lines with
  | nil =>
    refine ⟨rfl, fun line hline unit hunit => ?_⟩
    obtain rfl : line = [] := List.mem_singleton.mp hline
    cases hunit
  | cons line lines =>
    have hsplit : (join [0x0a] (line :: lines)).splitOn 0x0a = line :: lines :=
      List.splitOn_intercalate 0x0a (fun other hother hmem =>
        bodyUnit_ne ((h other hother).2 _ hmem) rfl rfl) (List.cons_ne_nil _ _)
    have htrim : (line :: lines).map Js.trim = line :: lines :=
      (List.map_congr_left fun other hother => Js.trim_plain fun unit hunit =>
        bodyUnit_not_space ((h other hother).2 unit hunit)).trans (List.map_id _)
    unfold linesOf
    rw [hsplit, htrim]
    exact ⟨rfl, fun other hother => (h other hother).2⟩

end

/-- What is emitted is parsed to its label and bytes. -/
theorem parsePem_emitPem {label : Text} (hne : label ≠ [])
    (hlabel : ∀ unit ∈ label, isLabelUnit unit = true) (body : Bytes) :
    parsePem (emitPem label body) = .ok ⟨label, [], body⟩ := by
  obtain ⟨hflatten, hlines⟩ := linesOf_join (plain_wrapped label body)
  have hwidth : 0 < lineWidth label := by
    unfold lineWidth
    split <;> decide
  have hnone : ((linesOf (join [0x0a] (wrapped (lineWidth label) (toB64 body)))).any
      fun line => (headerStart line).isSome) = false :=
    List.any_eq_false.mpr fun line hline => by
      rw [headerStart_plain (hlines line hline)]
      decide
  unfold parsePem
  rw [findPem_emitPem hne hlabel body]
  dsimp only
  rw [hnone, if_neg (by decide)]
  unfold readBody
  rw [hflatten, wrapped, pieces_flatten hwidth _ _ le_rfl, if_pos (isBase64Text_toB64 body)]
  have hbytes : fromB64 (toB64 body) = some body := Js.atob_btoa body
  rw [hbytes]

end PocketShell.SshKeys
