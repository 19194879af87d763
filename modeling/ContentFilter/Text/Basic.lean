/-! # Texts as lists of characters

A text is the list of its Unicode scalar values. This module holds the cutting and joining of
texts that every other module uses:

* `Text.split` and `Text.join`: the pieces between the occurrences of one character, and back.
* `Text.dropEndWhile`: a text without its longest tail of characters of one kind.
* `Text.before`, `Text.afterLast`: the part before the first, or after the last, character of a kind.
* `Text.occursIn`: whether one text is a contiguous part of another.
* `Text.ofNat`, `Text.ofInt`: decimal numerals.
-/

set_option autoImplicit false

namespace ContentFilter

/-- A text is the list of its Unicode scalar values. A string in which half of a surrogate pair stands
alone is no text. -/
abbrev Text := List Char

namespace Text

/-! ## Cutting -/

/-- The pieces of a text between the occurrences of one character; there is always at least one. -/
def split (sep : Char) : Text → List Text
  | [] => [[]]
  | c :: cs =>
    if c = sep then [] :: split sep cs
    else match split sep cs with
      | [] => [[c]]
      | piece :: pieces => (c :: piece) :: pieces

theorem split_ne_nil (sep : Char) (t : Text) : split sep t ≠ [] := by
  cases t with
  | nil => simp [split]
  | cons c cs =>
    unfold split
    split
    · simp
    · split <;> simp

/-- The pieces, with a separator between neighbours. -/
def join (sep : Text) (pieces : List Text) : Text := sep.intercalate pieces

/-- A text without its longest tail of characters that satisfy `p`. -/
def dropEndWhile (p : Char → Bool) (t : Text) : Text := (t.reverse.dropWhile p).reverse

/-- A text without its longest head and tail of characters that satisfy `p`. -/
def dropAroundWhile (p : Char → Bool) (t : Text) : Text := dropEndWhile p (t.dropWhile p)

/-- The part before the first character that satisfies `p`; all of the text when there is none. -/
def before (p : Char → Bool) (t : Text) : Text := t.takeWhile fun c => !p c

/-- The part after the first character that satisfies `p`, when there is such a character. -/
def after? (p : Char → Bool) : Text → Option Text
  | [] => none
  | c :: cs => if p c then some cs else after? p cs

/-- The part after the last character that satisfies `p`; all of the text when there is none. -/
def afterLast (p : Char → Bool) (t : Text) : Text := (t.reverse.takeWhile fun c => !p c).reverse

/-! ## Searching -/

def startsWith (t head : Text) : Bool := head.isPrefixOf t

def endsWith (t tail : Text) : Bool := tail.isSuffixOf t

def occursIn (needle : Text) : Text → Bool
  | [] => needle.isEmpty
  | c :: cs => needle.isPrefixOf (c :: cs) || occursIn needle cs

/-! ## Numerals -/

def ofNat (n : Nat) : Text := Nat.toDigits 10 n

def ofInt : Int → Text
  | .ofNat n => ofNat n
  | .negSucc n => '-' :: ofNat (n + 1)

def natOfDigits (digits : Text) : Nat := Nat.ofDigitChars 10 digits 0

end Text

end ContentFilter
