/-! # Double-precision numbers

A finite binary64 number is a whole number of units of 2⁻¹⁰⁷⁴, the distance between the smallest
ones, so every operation is exact arithmetic on natural numbers followed by one rounding.

* `Binary64`: the type; zeros carry a sign.
* `Binary64.round`: the number nearest to a quotient of units, a half going to the even neighbour.
* `Binary64.add`, `Binary64.sub`, `Binary64.mul`, `Binary64.lt`, `Binary64.le`: arithmetic and order.
* `Binary64.ofInt`, `Binary64.floor`, `Binary64.ofPowerOfTwo?`: whole numbers and powers of two.
-/

set_option autoImplicit false

namespace ContentFilter

/-- A double-precision number. A finite one is `units` times 2⁻¹⁰⁷⁴, with a sign. -/
inductive Binary64 where
  | finite (negative : Bool) (units : Nat)
  | infinite (negative : Bool)
  | nan
  deriving DecidableEq, Repr

namespace Binary64

def unitsPerOne : Nat := Nat.pow 2 1074

/-- Finite numbers have fewer units than this. -/
def unitsLimit : Nat := Nat.pow 2 2098

def zero : Binary64 := .finite false 0

instance : Inhabited Binary64 := ⟨zero⟩

/-! ## Rounding -/

/-- The whole number nearest to `num / den`; a half goes to the even neighbour. -/
def roundHalfEven (num den : Nat) : Nat :=
  let q := num / den
  let r := num % den
  if 2 * r < den then q
  else if den < 2 * r then q + 1
  else if q % 2 = 0 then q else q + 1

/-- The spacing, as a power of two of units, of the numbers around `units`: 53 binary digits are
kept. -/
def spacing (units : Nat) : Nat := units.log2 - 52

/-- The number nearest to `num / den` units, infinite when that is beyond every finite number. -/
def round (negative : Bool) (num den : Nat) : Binary64 :=
  let step := Nat.pow 2 (spacing (num / den))
  let units := roundHalfEven num (den * step) * step
  if units < unitsLimit then .finite negative units else .infinite negative

/-! ## Whole numbers and powers of two -/

def ofInt (n : Int) : Binary64 := round (n < 0) (n.natAbs * unitsPerOne) 1

def isInfinite : Binary64 → Bool
  | .infinite _ => true
  | _ => false

def signedUnits (negative : Bool) (units : Nat) : Int := if negative then -units else units

/-- The greatest whole number that is not above a finite number; zero for the others. -/
def floor : Binary64 → Int
  | .finite s u => (signedUnits s u).fdiv unitsPerOne
  | _ => 0

/-- The power of two with the given exponent; none when it, or the exponent itself, is beyond every
finite number. -/
def ofPowerOfTwo? (exponent : Int) : Option Binary64 :=
  if 1024 ≤ exponent || (ofInt exponent).isInfinite then none
  else if exponent < -1074 then some zero
  else some (.finite false (Nat.pow 2 (exponent + 1074).toNat))

/-! ## Arithmetic -/

def neg : Binary64 → Binary64
  | .finite s u => .finite (!s) u
  | .infinite s => .infinite (!s)
  | .nan => .nan

/-- The sum. Infinities of opposite signs have none, and a sum of zero is negative only when both
summands are. -/
def add : Binary64 → Binary64 → Binary64
  | .nan, _ => .nan
  | _, .nan => .nan
  | .infinite s, .infinite t => if s = t then .infinite s else .nan
  | .infinite s, .finite _ _ => .infinite s
  | .finite _ _, .infinite t => .infinite t
  | .finite s u, .finite t v =>
    let sum := signedUnits s u + signedUnits t v
    if sum = 0 then .finite (s && t) 0 else round (sum < 0) sum.natAbs 1

def sub (a b : Binary64) : Binary64 := add a b.neg

/-- The product. An infinity times zero has none. -/
def mul : Binary64 → Binary64 → Binary64
  | .nan, _ => .nan
  | _, .nan => .nan
  | .infinite s, .infinite t => .infinite (s != t)
  | .infinite s, .finite t v => if v = 0 then .nan else .infinite (s != t)
  | .finite s u, .infinite t => if u = 0 then .nan else .infinite (s != t)
  | .finite s u, .finite t v => round (s != t) (u * v) unitsPerOne

/-! ## Order -/

/-- Whether the first number is less than the second; nothing holds of a NaN. -/
def lt : Binary64 → Binary64 → Bool
  | .nan, _ => false
  | _, .nan => false
  | .infinite s, .infinite t => s && !t
  | .infinite s, .finite _ _ => s
  | .finite _ _, .infinite t => !t
  | .finite s u, .finite t v => signedUnits s u < signedUnits t v

def le : Binary64 → Binary64 → Bool
  | .nan, _ => false
  | _, .nan => false
  | .infinite s, .infinite t => s || !t
  | .infinite s, .finite _ _ => s
  | .finite _ _, .infinite t => !t
  | .finite s u, .finite t v => signedUnits s u ≤ signedUnits t v

/-- The second number when it is less than the first, otherwise the first. -/
def min (a b : Binary64) : Binary64 := if b.lt a then b else a

end Binary64

end ContentFilter
