import ContentFilter.Text.Hex
import ContentFilter.Text.Visible

/-! # Quoted texts

A quoted text stands between apostrophes, or between quotation marks when it has an apostrophe and
no quotation mark in it. The closing mark and the backslash are escaped, and so are characters that
are not visible.

* `Text.numericEscape`: the escape for a character by its number.
* `Text.quoted`: the quoted form of a text.
-/

set_option autoImplicit false

namespace ContentFilter.Text

/-- The last `width` hexadecimal digits of a number. -/
def hexDigits : (width : Nat) → Nat → Text
  | 0, _ => []
  | width + 1, n => hexDigits width (n / 16) ++ [hexDigit (n % 16)]

def numericEscape (n : Nat) : Text :=
  if n < 0x100 then '\\' :: 'x' :: hexDigits 2 n
  else if n < 0x10000 then '\\' :: 'u' :: hexDigits 4 n
  else '\\' :: 'U' :: hexDigits 8 n

def quotedChar (mark c : Char) : Text :=
  if c = mark || c = '\\' then ['\\', c]
  else if c = '\n' then ['\\', 'n']
  else if c = '\r' then ['\\', 'r']
  else if c = '\t' then ['\\', 't']
  else if isVisible c then [c]
  else numericEscape c.toNat

def markFor (t : Text) : Char := if t.contains '\'' && !t.contains '"' then '"' else '\''

def quoted (t : Text) : Text := markFor t :: (t.flatMap (quotedChar (markFor t)) ++ [markFor t])

end ContentFilter.Text
