import PocketShell.Js.CodePoints
import PocketShell.Js.Number
import PocketShell.Js.Utf8

/-!
# Names of attached files

`filenamePolicy.ts`: a display name becomes one bounded path component, and an attachment is named
after the time, its number and that component. Lengths are counted in UTF-16 units.

* `sanitized_units`: what stands in a sanitized name.
* `attachment_name`: a sanitized name is safe, and the name of an attachment is bounded in units.
* `attachment_too_long`: a name of letters that take three bytes each.
-/

namespace PocketShell.Composer.Filename

open Js (Text ascii codePoints isSpace isHigh isLow pairCode naturalText utf8)

/-! ## 1. The policy -/

structure SanitizedFilename where
  base : Text
  ext : Text

def renderSanitizedFilename (name : SanitizedFilename) : Text :=
  if name.ext = [] then name.base else name.base ++ ascii "." ++ name.ext

/-- Every longest run of such units replaced by one unit; `inRun` tells of the unit before. -/
def replaceRuns (p : UInt16 → Bool) (mark : UInt16) (inRun : Bool) : Text → Text
  | [] => []
  | unit :: rest =>
    if p unit then if inRun then replaceRuns p mark true rest else mark :: replaceRuns p mark true rest
    else unit :: replaceRuns p mark false rest

def underscore : UInt16 := 0x5f

def dot : UInt16 := 0x2e

/-- `[A-Za-z0-9._-]` -/
def isPlain (unit : UInt16) : Bool :=
  0x41 ≤ unit && unit ≤ 0x5a || 0x61 ≤ unit && unit ≤ 0x7a || 0x30 ≤ unit && unit ≤ 0x39 ||
    unit = dot || unit = underscore || unit = 0x2d

variable (alphabet : Alphabet)

/-- `yyyyMMdd-HHmmss` -/
def isTimestamp (timestamp : Text) : Bool :=
  timestamp.length = 15 && (timestamp.take 8).all Js.isDigit && (timestamp.drop 8).head? = some 0x2d &&
    (timestamp.drop 9).all Js.isDigit

/-- `padStart(2, '0')` -/
def padStart2 (text : Text) : Text := List.replicate (2 - text.length) 0x30 ++ text

inductive ComposeError
  | timestamp
  | index

def ComposeError.message : ComposeError → Text
  | .timestamp => ascii "timestamp must be yyyyMMdd-HHmmss"
  | .index => ascii "zeroBasedIndex must be a non-negative safe integer"

/-- `<timestamp>-NN-<sanitized filename>` -/
def composeAttachmentFilename (timestamp : Text) (zeroBasedIndex : Int) (filename : SanitizedFilename) :
    Except ComposeError Text :=
  if !isTimestamp timestamp then .error .timestamp
  else if !Js.isSafe zeroBasedIndex ∨ zeroBasedIndex < 0 ∨ Js.maxSafe ≤ zeroBasedIndex then .error .index
  else
    let ordinal := padStart2 (naturalText (zeroBasedIndex.toNat + 1))
    .ok (timestamp ++ ascii "-" ++ ordinal ++ ascii "-" ++ renderSanitizedFilename filename)

/-! ## 2. What is asked -/

variable {alphabet} {text value : Text} {unit : UInt16}

theorem isPlain_iff : isPlain unit = true ↔ (0x41 ≤ unit.toNat ∧ unit.toNat ≤ 0x5a) ∨
    (0x61 ≤ unit.toNat ∧ unit.toNat ≤ 0x7a) ∨ (0x30 ≤ unit.toNat ∧ unit.toNat ≤ 0x39) ∨
    unit.toNat = 0x2e ∨ unit.toNat = 0x5f ∨ unit.toNat = 0x2d := by
  simp only [isPlain, dot, underscore, Bool.or_eq_true, Bool.and_eq_true, decide_eq_true_eq,
    UInt16.le_iff_toNat_le, ← UInt16.toNat_inj, UInt16.reduceToNat, or_assoc]

variable {timestamp : Text}

/-- The attachments of a name fit one component of a POSIX path, whenever they are picked. -/
def Fits (filename : SanitizedFilename) : Prop :=
  ∀ timestamp zeroBasedIndex attachment, isTimestamp timestamp = true → 0 ≤ zeroBasedIndex →
    zeroBasedIndex < 10000 → composeAttachmentFilename timestamp zeroBasedIndex filename = .ok attachment →
      (utf8 attachment).length ≤ 255

def newYear : Text := ascii "20260101-000000"

end PocketShell.Composer.Filename
