import ContentFilter.Number.Decimal

/-! # The shortest numeral of a number

A number is written with the fewest significant digits that read back to it and, of those numerals,
with the one nearest to it. Numbers from 10⁻⁴ to below 10¹⁶ are written positionally with at least
one digit after the point, all others with an exponent of a sign and at least two digits.

* `Binary64.shortest`: the digits, as a decimal.
* `Binary64.toText`: the numeral.
-/

set_option autoImplicit false

namespace ContentFilter.Binary64

open Text

/-! ## Digits -/

/-- The first `k`, counting up from the given one, for which the number of units times ten to the
power `k` reaches one. -/
def firstDecimalPlace (units : Nat) : (k fuel : Nat) → Nat
  | k, 0 => k
  | k, fuel + 1 => if unitsPerOne ≤ units * Nat.pow 10 k then k else firstDecimalPlace units (k + 1) fuel

/-- The exponent of the largest power of ten that is at most the number. -/
def decimalExponent (units : Nat) : Int :=
  if unitsPerOne ≤ units then ((ofNat (units / unitsPerOne)).length : Int) - 1
  else -(firstDecimalPlace units 1 400 : Int)

def readsBack (units : Nat) (d : Decimal) : Bool := d.toBinary64 = .finite false units

/-- The numeral on the grid of multiples of ten to the power `place` that reads back to the number;
of its two neighbours there the nearer one, if both do. -/
def onGrid? (units : Nat) (place : Int) : Option Decimal :=
  let num := if 0 ≤ place then units else units * Nat.pow 10 (-place).toNat
  let den := if 0 ≤ place then unitsPerOne * Nat.pow 10 place.toNat else unitsPerOne
  let below : Decimal := ⟨false, num / den, place⟩
  let above : Decimal := ⟨false, num / den + 1, place⟩
  let near := if roundHalfEven num den = num / den then below else above
  let far := if roundHalfEven num den = num / den then above else below
  if readsBack units near then some near
  else if readsBack units far then some far
  else none

/-- The first grid with a numeral that reads back, from `digits` significant digits on. When none of
the `fuel` grids has one, the number is written out in full. -/
def shortestFrom (units : Nat) : (digits fuel : Nat) → Decimal
  | _, 0 => ⟨false, units * Nat.pow 5 1074, -1074⟩
  | digits, fuel + 1 =>
    match onGrid? units (decimalExponent units - digits + 1) with
    | some d => d
    | none => shortestFrom units (digits + 1) fuel

/-- The shortest decimal that reads back to a positive number. -/
def shortest (units : Nat) : Decimal := shortestFrom units 1 17

/-! ## Numerals -/

/-- An exponent with its sign and at least two digits. -/
def exponentText (e : Int) : Text :=
  let digits := ofNat e.natAbs
  (if e < 0 then '-' else '+') :: (if digits.length < 2 then '0' :: digits else digits)

/-- The numeral of the number whose significant digits are given, the first of them counting ten to
the power `e`. -/
def numeral (digits : Text) (e : Int) : Text :=
  if -4 ≤ e && e < 16 then
    if e < 0 then "0.".toList ++ List.replicate (-e - 1).toNat '0' ++ digits
    else
      let n := e.toNat + 1
      let whole := digits.take n ++ List.replicate (n - digits.length) '0'
      let fraction := digits.drop n
      whole ++ '.' :: (if fraction.isEmpty then ['0'] else fraction)
  else
    let fraction := digits.drop 1
    digits.take 1 ++ (if fraction.isEmpty then [] else '.' :: fraction) ++ 'e' :: exponentText e

def unitsText (units : Nat) : Text :=
  if units = 0 then "0.0".toList
  else
    let d := shortest units
    let digits := ofNat d.coefficient
    numeral (dropEndWhile (· = '0') digits) (d.exponent + digits.length - 1)

/-- The shortest numeral that reads back to the number. -/
def toText : Binary64 → Text
  | .finite negative units => (if negative then ['-'] else []) ++ unitsText units
  | .infinite false => "inf".toList
  | .infinite true => "-inf".toList
  | .nan => "nan".toList

end ContentFilter.Binary64
