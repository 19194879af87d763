import ContentFilter.Number.Binary64

/-! # Points in time

The time of a change is kept as a whole number of nanoseconds since the epoch. A time in seconds is
cut down to the nanosecond before it; read back in seconds it is the sum of its whole seconds and of
its nanoseconds, each rounded on its own, so it need not be the number that was given.

* `Timestamp`: the type.
* `Timestamp.ofSeconds`, `Timestamp.toSeconds`: from seconds, and back.
* `Timestamp.clamp`: the nearest time that can be kept.
-/

set_option autoImplicit false

namespace ContentFilter

/-- A number of nanoseconds since the epoch. -/
structure Timestamp where
  nanoseconds : Int
  deriving DecidableEq, Repr

namespace Timestamp

open Binary64

inductive Fault where
  | notANumber
  | outOfRange
  deriving DecidableEq, Repr

def epoch : Timestamp := ⟨0⟩

def perSecond : Nat := 1000000000

/-! ## Seconds -/

/-- A time has fewer whole seconds than this before the epoch, and after it. -/
def secondLimit : Nat := Nat.pow 2 63

/-- The time for a number of seconds. The whole seconds are taken apart first; what is left is turned
into nanoseconds with one rounding and then cut down. -/
def ofSeconds : Binary64 → Except Fault Timestamp
  | .nan => .error .notANumber
  | .infinite _ => .error .outOfRange
  | .finite negative units =>
    let seconds := signedUnits negative (units / unitsPerOne)
    if seconds < -secondLimit || secondLimit ≤ seconds then .error .outOfRange
    else
      let rest := (Binary64.finite negative (units % unitsPerOne)).mul (ofInt perSecond)
      .ok ⟨seconds * perSecond + rest.floor⟩

/-- The number nearest to the seconds in a nanosecond. -/
def secondsPerNanosecond : Binary64 := round false unitsPerOne perSecond

def toSeconds (t : Timestamp) : Binary64 :=
  (ofInt (t.nanoseconds.fdiv perSecond)).add
    (secondsPerNanosecond.mul (ofInt (t.nanoseconds.fmod perSecond)))

/-! ## Bounds -/

/-- The first second that can be kept. -/
def firstSecond : Int := -2147483648

def lastSecond : Int := 15032385535

/-- The nearest time that can be kept; of the first and of the last second only the start can. -/
def clamp (t : Timestamp) : Timestamp :=
  let second := t.nanoseconds.fdiv perSecond
  if second ≤ firstSecond then ⟨firstSecond * perSecond⟩
  else if lastSecond ≤ second then ⟨lastSecond * perSecond⟩
  else t

end Timestamp

end ContentFilter
