import ContentFilter.Text.Basic

/-! # Hexadecimal numerals

* `Text.hexDigit`, `Text.hexValue?`: one digit and its value; digits are written in lower case and
  read in either.
* `Text.hexOfBytes`, `Text.bytesOfHex?`: a sequence of bytes as pairs of digits, and back.
-/

set_option autoImplicit false

namespace ContentFilter

/-- A sequence of bytes. -/
abbrev Bytes := List UInt8

namespace Text

def hexDigit (n : Nat) : Char := Nat.digitChar n

def hexValue? (c : Char) : Option Nat :=
  let n := c.toNat
  if 0x30 ≤ n && n ≤ 0x39 then some (n - 0x30)
  else if 0x61 ≤ n && n ≤ 0x66 then some (n - 0x57)
  else if 0x41 ≤ n && n ≤ 0x46 then some (n - 0x37)
  else none

def hexOfBytes (bytes : Bytes) : Text :=
  bytes.flatMap fun b => [hexDigit (b.toNat / 16), hexDigit (b.toNat % 16)]

def bytesOfHex? : Text → Option Bytes
  | [] => some []
  | [_] => none
  | a :: b :: cs => do
    let high ← hexValue? a
    let low ← hexValue? b
    let rest ← bytesOfHex? cs
    pure (UInt8.ofNat (16 * high + low) :: rest)

end Text

end ContentFilter
