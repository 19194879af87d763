import ContentFilter.Text.Basic

/-! # White space

White space is the class of characters with the Unicode property White_Space together with the four
information separators U+001C to U+001F.

* `Text.isBlank`: the class.
* `Text.strip`, `Text.stripStart`: a text without the white space around it, or before it.
* `Text.words`: the maximal runs of other characters.
-/

set_option autoImplicit false

namespace ContentFilter.Text

/-- White space outside ASCII, as closed ranges of code points. -/
def blankRanges : List (Nat × Nat) :=
  [(0x85, 0x85), (0xA0, 0xA0), (0x1680, 0x1680), (0x2000, 0x200A), (0x2028, 0x2029),
   (0x202F, 0x202F), (0x205F, 0x205F), (0x3000, 0x3000)]

def inRanges (ranges : List (Nat × Nat)) (n : Nat) : Bool :=
  ranges.any fun r => r.1 ≤ n && n ≤ r.2

/-- White space: tab to carriage return, the separators U+001C to U+001F, the space, and
`blankRanges`. -/
def isBlank (c : Char) : Bool :=
  let n := c.toNat
  if n < 0x80 then (0x09 ≤ n && n ≤ 0x0D) || (0x1C ≤ n && n ≤ 0x20)
  else inRanges blankRanges n

def stripStart (t : Text) : Text := t.dropWhile isBlank

def strip (t : Text) : Text := dropAroundWhile isBlank t

/-- The pieces between single white-space characters, empty ones included. -/
def blankPieces : Text → List Text
  | [] => [[]]
  | c :: cs =>
    if isBlank c then [] :: blankPieces cs
    else match blankPieces cs with
      | [] => [[c]]
      | piece :: pieces => (c :: piece) :: pieces

/-- The maximal runs of characters that are not white space, in order. -/
def words (t : Text) : List Text := (blankPieces t).filter fun w => !w.isEmpty

end ContentFilter.Text
