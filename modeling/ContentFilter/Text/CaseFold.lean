import ContentFilter.Text.Lower

/-! # Comparing characters without regard to case

Two characters are the same letter when their folded forms agree. The folded form is the lower-case
form, the dotted capital I counting as a plain one, and of small letters that share a capital it is
the first.

* `Text.fold`: the folded form of a character.
* `Text.sameLetter`: equality of folded forms.
* `Text.foldVariants`: the characters with one folded form, so that a range of characters can be
  searched without regard to case.
-/

set_option autoImplicit false

namespace ContentFilter.Text

/-- The sets of small letters that have a capital in common, each in ascending order. -/
def sharedCapitals : List (List Nat) :=
  [[0x69, 0x131], [0x73, 0x17F], [0xB5, 0x3BC], [0x345, 0x3B9, 0x1FBE], [0x390, 0x1FD3], [0x3B0,
   0x1FE3], [0x3B2, 0x3D0], [0x3B5, 0x3F5], [0x3B8, 0x3D1], [0x3BA, 0x3F0], [0x3C0, 0x3D6],
   [0x3C1, 0x3F1], [0x3C2, 0x3C3], [0x3C6, 0x3D5], [0x432, 0x1C80], [0x434, 0x1C81], [0x43E,
   0x1C82], [0x441, 0x1C83], [0x442, 0x1C84, 0x1C85], [0x44A, 0x1C86], [0x463, 0x1C87], [0x1C88,
   0xA64B], [0x1E61, 0x1E9B], [0xFB05, 0xFB06]]

/-- The set of small letters that share a capital with this one, when there is one. -/
def sharedWith? (n : Nat) : Option (List Nat) := sharedCapitals.find? fun s => s.contains n

/-- The folded form of a character. -/
def fold (c : Char) : Char :=
  if c.toNat < 0x80 then c.toLower
  else if c.toNat = 0x130 then 'i'
  else
    let small := lowerChar c
    match sharedWith? small.toNat with
    | some (n :: _) => Char.ofNat n
    | _ => small

/-- Whether two characters are the same letter up to case. -/
def sameLetter (a b : Char) : Bool := fold a = fold b

/-- The code points outside ASCII whose lower-case form is the given one. -/
def farCapitalsOf (n : Nat) : List Nat :=
  lowerRuns.filterMap fun r =>
    let m := Int.toNat (n - r.shift)
    if r.contains m then some m else none

/-- The code points whose lower-case form is the given one. In ASCII only the small k has a capital
outside, the sign for a kelvin, and the small i the capital with a dot. -/
def capitalsOf (n : Nat) : List Nat :=
  if n < 0x80 then
    (if 0x61 ≤ n && n ≤ 0x7A then [n - 0x20] else []) ++ (if n = 0x69 then [0x130] else []) ++
      (if n = 0x6B then [0x212A] else [])
  else farCapitalsOf n

/-- The code points that fold to the folded form of `c`. -/
def foldVariants (c : Char) : List Nat :=
  let n := (fold c).toNat
  let smalls := match sharedWith? n with
    | some s => s
    | none => [n]
  smalls.flatMap fun m => m :: capitalsOf m

end ContentFilter.Text
