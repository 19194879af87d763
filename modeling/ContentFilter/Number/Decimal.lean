import ContentFilter.Limit
import ContentFilter.Number.Binary64
import ContentFilter.Text.Digit

/-! # Decimal numerals

* `Decimal`: a signed whole number times a power of ten, with `Decimal.toBinary64`, the nearest
  double-precision number.
* `Decimal.ofParts`: the value of a numeral cut into its digits before and after the point and its
  exponent.
* `Numeral.int?`, `Numeral.real?`: numerals as people type them, with white space around them, any
  decimal digits, and single underscores between digits.
-/

set_option autoImplicit false

namespace ContentFilter

open Text

/-- The number `coefficient` times ten to the power `exponent`, with a sign. -/
structure Decimal where
  negative : Bool
  coefficient : Nat
  exponent : Int
  deriving DecidableEq, Repr

namespace Decimal

/-- The value of a numeral from its digits before and after the point. -/
def ofParts (negative : Bool) (whole fraction : Text) (exponent : Int) : Decimal :=
  ⟨negative, natOfDigits (whole ++ fraction), exponent - fraction.length⟩

/-- Ten to this power is beyond every finite number, and its inverse below half the smallest one. -/
def magnitudeLimit : Int := 400

def toBinary64 (d : Decimal) : Binary64 :=
  let magnitude := d.exponent + (ofNat d.coefficient).length
  if d.coefficient = 0 then .finite d.negative 0
  else if magnitudeLimit < magnitude then .infinite d.negative
  else if magnitude < -magnitudeLimit then .finite d.negative 0
  else if 0 ≤ d.exponent then
    Binary64.round d.negative
      (d.coefficient * Nat.pow 10 d.exponent.toNat * Binary64.unitsPerOne) 1
  else
    Binary64.round d.negative (d.coefficient * Binary64.unitsPerOne)
      (Nat.pow 10 (-d.exponent).toNat)

end Decimal

namespace Numeral

/-! ## Preparation -/

/-- Writes every decimal digit in ASCII. -/
def plainDigits (t : Text) : Text :=
  t.map fun c => match digitValue? c with
    | some d => Nat.digitChar d
    | none => c

/-- Takes out the underscores; each has to stand between two digits. `afterDigit` tells whether the
character before is a digit. -/
def dropUnderscores? (afterDigit : Bool) : Text → Option Text
  | [] => some []
  | '_' :: c :: cs =>
    if afterDigit && c.isDigit then (dropUnderscores? true cs).map (c :: ·) else none
  | c :: cs => if c = '_' then none else (dropUnderscores? c.isDigit cs).map (c :: ·)

/-- A sign and the rest of a numeral; true for a minus sign. -/
def signed : Text → Bool × Text
  | '-' :: cs => (true, cs)
  | '+' :: cs => (false, cs)
  | cs => (false, cs)

/-- A numeral without the white space around it, its digits in ASCII and its underscores taken out. -/
def prepare? (t : Text) : Option Text := dropUnderscores? false (plainDigits (strip t))

/-! ## Integers -/

/-- The value of an integer numeral: one sign at most, then digits, not more than a whole number can
have. -/
def int? (t : Text) : Option Int := do
  let (negative, digits) := signed (← prepare? t)
  if digits.isEmpty || !digits.all Char.isDigit then none
  else
    let n : Int ← (Limit.wholeNumber digits).toOption
    some (if negative then -n else n)

/-! ## Reals -/

/-- The value of an exponent part, from its `e` on; no part counts as zero. -/
def exponent? : Text → Option Int
  | [] => some 0
  | c :: cs =>
    let (negative, digits) := signed cs
    if (c = 'e' || c = 'E') && !digits.isEmpty && digits.all Char.isDigit then
      let n : Int := natOfDigits digits
      some (if negative then -n else n)
    else none

/-- The value of an unsigned decimal numeral: digits with at most one point among or beside them,
then an exponent or nothing. -/
def decimal? (negative : Bool) (t : Text) : Option Decimal := do
  let whole := t.takeWhile Char.isDigit
  let rest := t.dropWhile Char.isDigit
  let (fraction, rest) := match rest with
    | '.' :: cs => (cs.takeWhile Char.isDigit, cs.dropWhile Char.isDigit)
    | _ => ([], rest)
  if whole.isEmpty && fraction.isEmpty then none
  else
    let exponent ← exponent? rest
    some (Decimal.ofParts negative whole fraction exponent)

/-- The value of a real numeral: a sign, then a decimal numeral, or one of the words `inf`,
`infinity` and `nan` in any case. -/
def real? (t : Text) : Option Binary64 := do
  let (negative, rest) := signed (← prepare? t)
  let word := rest.map Char.toLower
  if word = "inf".toList || word = "infinity".toList then some (.infinite negative)
  else if word = "nan".toList then some .nan
  else (decimal? negative rest).map Decimal.toBinary64

end Numeral

end ContentFilter
