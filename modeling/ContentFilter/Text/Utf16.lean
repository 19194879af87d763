import ContentFilter.Text.Blank

/-! # Unicode strings

A Unicode string is a sequence of code units of UTF-16. A character beyond U+FFFF is two units, the
halves of a surrogate pair; either half can stand alone too, as it can in a string of JSON. A text is a
string in which no half stands alone.

* `CodeUnit.points`: the code points of code units, with `Char.codeUnits`, the units of a character.
* `Utf16`: the type of Unicode strings, in the order of their code points.
* `UnicodeString`: what texts and Unicode strings have in common.
* `UnicodeString.ofText_injective`: different texts are different strings.
-/

set_option autoImplicit false

namespace ContentFilter

open Std Text

/-! ## Code units -/

/-- A code unit of UTF-16. -/
abbrev CodeUnit := UInt16

namespace CodeUnit

/-- Whether a code unit is the first half of a surrogate pair. -/
def isHighHalf (u : CodeUnit) : Bool := 0xD800 ≤ u.toNat && u.toNat < 0xDC00

def isLowHalf (u : CodeUnit) : Bool := 0xDC00 ≤ u.toNat && u.toNat < 0xE000

def pointOfPair (high low : CodeUnit) : Nat :=
  0x10000 + 0x400 * (high.toNat - 0xD800) + (low.toNat - 0xDC00)

/-- The code points of code units: two halves of a pair side by side are one, any other unit is one by
itself. -/
def points : List CodeUnit → List Nat
  | [] => []
  | [u] => [u.toNat]
  | u :: v :: us =>
    if isHighHalf u && isLowHalf v then pointOfPair u v :: points us
    else u.toNat :: points (v :: us)

/-- The code units of a code point. -/
def ofPoint (n : Nat) : List CodeUnit :=
  if n < 0x10000 then [.ofNat n]
  else [.ofNat (0xD800 + (n - 0x10000) / 0x400), .ofNat (0xDC00 + (n - 0x10000) % 0x400)]

/-- The code units of a text. -/
def ofText (t : Text) : List CodeUnit := t.flatMap fun c => ofPoint c.toNat

/-- The character with a code point; a half that stands alone has none, and U+FFFD takes its place. -/
def charOfPoint (n : Nat) : Char :=
  if 0xD800 ≤ n && n < 0xE000 then '\uFFFD' else Char.ofNat n

/-! ### Code points and back -/

theorem toNat_ofNat {n : Nat} (h : n < 0x10000) : (UInt16.ofNat n).toNat = n :=
  UInt16.toNat_ofNat_of_lt h

theorem ofPoint_toNat (u : CodeUnit) : ofPoint u.toNat = [u] := by
  rw [ofPoint, if_pos u.toNat_lt, UInt16.ofNat_toNat]

theorem points_cons_of_not_highHalf {u : CodeUnit} (h : isHighHalf u = false) (us : List CodeUnit) :
    points (u :: us) = u.toNat :: points us := by
  cases us with
  | nil => rfl
  | cons v us => rw [points, h, Bool.false_and, if_neg Bool.false_ne_true]

theorem toNat_char (c : Char) : c.toNat < 0x110000 ∧ ¬ (0xD800 ≤ c.toNat ∧ c.toNat < 0xE000) := by
  have hc := c.valid
  simp only [Char.toNat, UInt32.isValidChar, Nat.isValidChar] at *
  omega

/-- The code units of a character are read as its code point. -/
theorem points_ofPoint_append (c : Char) (us : List CodeUnit) :
    points (ofPoint c.toNat ++ us) = c.toNat :: points us := by
  obtain ⟨hlt, hhalf⟩ := toNat_char c
  unfold ofPoint
  split
  next hsmall =>
    have hunit : (UInt16.ofNat c.toNat).toNat = c.toNat := toNat_ofNat hsmall
    have hhigh : isHighHalf (.ofNat c.toNat) = false := by
      simp only [isHighHalf, hunit, Bool.and_eq_false_iff, decide_eq_false_iff_not]
      omega
    rw [List.singleton_append, points_cons_of_not_highHalf hhigh, hunit]
  next hlarge =>
    have hhigh : (UInt16.ofNat (0xD800 + (c.toNat - 0x10000) / 0x400)).toNat =
        0xD800 + (c.toNat - 0x10000) / 0x400 := toNat_ofNat (by omega)
    have hlow : (UInt16.ofNat (0xDC00 + (c.toNat - 0x10000) % 0x400)).toNat =
        0xDC00 + (c.toNat - 0x10000) % 0x400 := toNat_ofNat (by omega)
    have hpair : isHighHalf (.ofNat (0xD800 + (c.toNat - 0x10000) / 0x400)) &&
        isLowHalf (.ofNat (0xDC00 + (c.toNat - 0x10000) % 0x400)) := by
      simp only [isHighHalf, isLowHalf, hhigh, hlow, Bool.and_eq_true, decide_eq_true_eq]
      omega
    have hpoint : pointOfPair (.ofNat (0xD800 + (c.toNat - 0x10000) / 0x400))
        (.ofNat (0xDC00 + (c.toNat - 0x10000) % 0x400)) = c.toNat := by
      unfold pointOfPair
      omega
    rw [List.cons_append, List.singleton_append, points, if_pos hpair, hpoint]

theorem points_ofText (t : Text) : points (ofText t) = t.map Char.toNat := by
  induction t with
  | nil => rfl
  | cons c cs ih => rw [ofText, List.flatMap_cons, points_ofPoint_append, ← ofText, ih, List.map_cons]

theorem charOfPoint_toNat (c : Char) : charOfPoint c.toNat = c := by
  have hhalf := (toNat_char c).2
  have hfalse : (0xD800 ≤ c.toNat && c.toNat < 0xE000) = false := by simpa using hhalf
  rw [charOfPoint, hfalse, if_neg Bool.false_ne_true, Char.ofNat_toNat]

theorem map_charOfPoint_points_ofText (t : Text) : (points (ofText t)).map charOfPoint = t := by
  rw [points_ofText, List.map_map]
  exact (List.map_congr_left fun c _ => charOfPoint_toNat c).trans (List.map_id t)

/-- Code units are determined by their code points. -/
theorem flatMap_ofPoint_points (us : List CodeUnit) : (points us).flatMap ofPoint = us := by
  induction us using points.induct with
  | case1 => rfl
  | case2 u => rw [points, List.flatMap_singleton, ofPoint_toNat]
  | case3 u v us hpair ih =>
    simp only [isHighHalf, isLowHalf, Bool.and_eq_true, decide_eq_true_eq] at hpair
    have hlarge : ¬ pointOfPair u v < 0x10000 := by
      unfold pointOfPair
      omega
    have hhigh : 0xD800 + (pointOfPair u v - 0x10000) / 0x400 = u.toNat := by
      unfold pointOfPair
      omega
    have hlow : 0xDC00 + (pointOfPair u v - 0x10000) % 0x400 = v.toNat := by
      unfold pointOfPair
      omega
    have hboth : ofPoint (pointOfPair u v) = [u, v] := by
      rw [ofPoint, if_neg hlarge, hhigh, hlow, UInt16.ofNat_toNat, UInt16.ofNat_toNat]
    have hpoints : points (u :: v :: us) = pointOfPair u v :: points us := by
      rw [points, if_pos (by simpa [isHighHalf, isLowHalf] using hpair)]
    rw [hpoints, List.flatMap_cons, ih, hboth]
    rfl
  | case4 u v us hpair ih =>
    have hpoints : points (u :: v :: us) = u.toNat :: points (v :: us) := by
      rw [points, if_neg hpair]
    rw [hpoints, List.flatMap_cons, ih, ofPoint_toNat]
    rfl

end CodeUnit

/-! ## Unicode strings -/

/-- A Unicode string: any sequence of code units. Two halves of a pair side by side are one character;
no JSON text denotes them apart. -/
@[ext]
structure Utf16 where
  units : List CodeUnit
  deriving DecidableEq

namespace Utf16

def points (s : Utf16) : List Nat := CodeUnit.points s.units

theorem points_injective {s t : Utf16} (h : s.points = t.points) : s = t := by
  have hunits := congrArg (List.flatMap CodeUnit.ofPoint) h
  rw [points, points, CodeUnit.flatMap_ofPoint_points, CodeUnit.flatMap_ofPoint_points] at hunits
  exact Utf16.ext hunits

/-- Strings are in the order of their code points. -/
instance : Ord Utf16 := ⟨fun s t => compare s.points t.points⟩

instance : TransOrd Utf16 where
  eq_swap := OrientedOrd.eq_swap (α := List Nat)
  isLE_trans h h' := TransOrd.isLE_trans (α := List Nat) h h'

instance : LawfulEqOrd Utf16 where
  compare_self := ReflOrd.compare_self (α := List Nat)
  eq_of_compare h := points_injective (LawfulEqOrd.eq_of_compare (α := List Nat) h)

end Utf16

/-- A type of strings that are sequences of code units and that texts can be read as. -/
class UnicodeString (S : Type) where
  units : S → List CodeUnit
  /-- The string of code units, as far as there is one. -/
  ofUnits : List CodeUnit → S
  ofText : Text → S
  /-- Whether a string has nothing but white space in it. -/
  isBlank : S → Bool
  ofUnits_units (s : S) : ofUnits (units s) = s
  units_ofText (t : Text) : units (ofText t) = CodeUnit.ofText t

namespace UnicodeString

/-- In a text U+FFFD takes the place of a half that stands alone. -/
instance : UnicodeString Text where
  units := CodeUnit.ofText
  ofUnits us := (CodeUnit.points us).map CodeUnit.charOfPoint
  ofText t := t
  isBlank t := (strip t).isEmpty
  ofUnits_units := CodeUnit.map_charOfPoint_points_ofText
  units_ofText _ := rfl

instance : UnicodeString Utf16 where
  units := Utf16.units
  ofUnits := Utf16.mk
  ofText t := ⟨CodeUnit.ofText t⟩
  isBlank s := s.units.all fun u => Text.isBlank (CodeUnit.charOfPoint u.toNat)
  ofUnits_units _ := rfl
  units_ofText _ := rfl

@[simp] theorem ofText_eq (t : Text) : (ofText t : Text) = t := rfl

@[simp] theorem isBlank_eq (t : Text) : isBlank t = (strip t).isEmpty := rfl

variable {S : Type} [UnicodeString S]

theorem ofText_injective {t u : Text} (h : (ofText t : S) = ofText u) : t = u := by
  have hunits : CodeUnit.ofText t = CodeUnit.ofText u := by
    rw [← units_ofText (S := S), h, units_ofText]
  rw [← CodeUnit.map_charOfPoint_points_ofText t, hunits, CodeUnit.map_charOfPoint_points_ofText]

theorem ofText_ne {t u : Text} (h : t ≠ u) : (ofText t : S) ≠ ofText u := fun heq =>
  h (ofText_injective heq)

/-- What is looked up by its name, among things with different names, is found by this name alone. -/
theorem find?_ofText_eq_some_iff [DecidableEq S] {α : Type} {name : α → Text} {members : List α}
    (hall : ∀ a, a ∈ members) (hinj : ∀ {a b}, name a = name b → a = b) {s : S} {a : α} :
    (members.find? fun b => ofText (name b) = s) = some a ↔ s = ofText (name a) := by
  constructor
  · intro h
    have hname := List.find?_some h
    exact (of_decide_eq_true hname).symm
  · rintro rfl
    obtain ⟨b, hb⟩ : ∃ b, (members.find? fun b => (ofText (name b) : S) = ofText (name a)) = some b :=
      Option.isSome_iff_exists.1 (List.find?_isSome.2 ⟨a, hall a, decide_eq_true rfl⟩)
    have hname := List.find?_some hb
    rw [hb, hinj (ofText_injective (of_decide_eq_true hname))]

end UnicodeString

end ContentFilter
