import ContentFilter.Failure

/-! # Limits of readers

A reader gives up on a text that is within its notation but asks for more than can be held. That is
no fault of the notation: it is not reported as one, and what would be done about a text in the
wrong notation is not done.

* `Limit`: what has gone beyond its bounds.
* `Limit.toFailure`: a limit as a failure.
* `Limit.wholeNumber`: the value of digits, of which there is a greatest number.
-/

set_option autoImplicit false

namespace ContentFilter

open Text

/-- What has gone beyond its bounds: the number of digits of a whole number, the count of a
repetition, or the depth of nesting. -/
inductive Limit where
  | digits (number : Nat)
  | repetition
  | nesting
  deriving DecidableEq, Repr

namespace Limit

def digitLimit : Nat := 4300

def kind : Limit → Text
  | digits _ => "ValueError".toList
  | repetition => "OverflowError".toList
  | nesting => "RecursionError".toList

def message : Limit → Text
  | digits n => "Exceeds the limit (".toList ++ ofNat digitLimit ++
      " digits) for integer string conversion: value has ".toList ++ ofNat n ++
      " digits; use sys.set_int_max_str_digits() to increase the limit".toList
  | repetition => "the repetition number is too large".toList
  | nesting => "maximum recursion depth exceeded".toList

def toFailure (l : Limit) : Failure := ⟨l.kind, l.message⟩

/-- The value of digits, leading zeros included in their number. -/
def wholeNumber (digits : Text) : Except Limit Nat :=
  if digitLimit < digits.length then .error (.digits digits.length) else .ok (natOfDigits digits)

end Limit

end ContentFilter
