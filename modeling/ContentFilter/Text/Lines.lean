import ContentFilter.Text.Basic

/-! # Lines

A line ends at a line feed, a carriage return, the two together, or one of the characters U+000B,
U+000C, U+001C to U+001E, U+0085, U+2028 and U+2029. `Text.lines` gives the lines of a text without
their ends; an end that closes the text opens no further line.
-/

set_option autoImplicit false

namespace ContentFilter.Text

def isLineEnd (c : Char) : Bool :=
  let n := c.toNat
  (0x0A ≤ n && n ≤ 0x0D) || (0x1C ≤ n && n ≤ 0x1E) || n = 0x85 || n = 0x2028 || n = 0x2029

/-- The lines from here on, where `line` holds the characters of the current one in reverse order. -/
def linesFrom (line : Text) : Text → List Text
  | [] => if line.isEmpty then [] else [line.reverse]
  | '\r' :: '\n' :: cs => line.reverse :: linesFrom [] cs
  | c :: cs => if isLineEnd c then line.reverse :: linesFrom [] cs else linesFrom (c :: line) cs

def lines (t : Text) : List Text := linesFrom [] t

end ContentFilter.Text
