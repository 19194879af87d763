import ContentFilter.Text.Basic

/-! # Punycode

Punycode writes a text with letters, digits and hyphens: first its ASCII characters and a hyphen,
then, for each other character, how far to advance through pairs of a code point and a place. The
advance is a numeral whose digits have variable weights, least significant first, adapted after each
character to how large the last advance was.

Only the notation is read. Registries take fewer names than it can write: a label with a pictograph,
say, is decoded here and is not a name that anyone can register.

* `Punycode.decode?`: the text that a lower-case Punycode text stands for.
-/

set_option autoImplicit false

namespace ContentFilter.Punycode

def base : Nat := 36

/-- The value of a digit: letters count from 0, digits from 26. -/
def digitValue? (c : Char) : Option Nat :=
  if 'a' ≤ c && c ≤ 'z' then some (c.toNat - 'a'.toNat)
  else if '0' ≤ c && c ≤ '9' then some (26 + (c.toNat - '0'.toNat))
  else none

/-- The value from which on a digit at `place` is not the last one of its numeral. -/
def threshold (bias place : Nat) : Nat :=
  if base * place ≤ bias then 1 else min 26 (base * place - bias)

/-- The value of a numeral from `place` on, where a digit has the given weight, and what follows. -/
def readAdvance (bias : Nat) : (place weight : Nat) → Text → Option (Nat × Text)
  | _, _, [] => none
  | place, weight, c :: cs => do
    let d ← digitValue? c
    let t := threshold bias place
    if d < t then pure (d * weight, cs)
    else
      let (n, rest) ← readAdvance bias (place + 1) (weight * (base - t)) cs
      pure (d * weight + n, rest)

/-- Divides until at most 455 is left, and counts the divisions. -/
def reduce : (fuel delta count : Nat) → Nat × Nat
  | 0, delta, count => (delta, count)
  | fuel + 1, delta, count =>
    if 455 < delta then reduce fuel (delta / 35) (count + 1) else (delta, count)

/-- The bias after an advance by `delta` to the first or a later of `size` characters. -/
def adapt (first : Bool) (delta size : Nat) : Nat :=
  let damped := if first then delta / 700 else delta / 2
  let (rest, count) := reduce damped (damped + damped / size) 0
  base * count + 36 * rest / (rest + 38)

/-- Puts the characters that the rest of the text describes into `text`. -/
def insertAll : (fuel point place bias : Nat) → (first : Bool) → (text rest : Text) → Option Text
  | 0, _, _, _, _, _, _ => none
  | fuel + 1, point, place, bias, first, text, rest =>
    if rest.isEmpty then some text
    else do
      let (delta, rest) ← readAdvance bias 1 1 rest
      let size := text.length + 1
      let point := point + (place + delta) / size
      let place := (place + delta) % size
      if Nat.isValidChar point then
        insertAll fuel point (place + 1) (adapt first delta size) false
          (text.take place ++ Char.ofNat point :: text.drop place) rest
      else none

/-- The text that a Punycode text stands for. The last hyphen ends the ASCII characters, of which
there is at least one before it, and something has to follow it. -/
def decode? (t : Text) : Option Text :=
  let plain := if t.contains '-' then Text.dropEndWhile (· != '-') t else []
  let rest := Text.afterLast (· = '-') t
  if rest.isEmpty || plain = ['-'] then none
  else insertAll (t.length + 1) 128 0 72 true plain.dropLast rest

end ContentFilter.Punycode
