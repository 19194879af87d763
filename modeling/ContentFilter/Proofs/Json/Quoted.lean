import Mathlib.Data.List.Basic
import Mathlib.Tactic.Common
import ContentFilter.Json.Parser
import ContentFilter.Json.Printer

/-! # Reading back strings

* `Json.readUnits_escapeUnit`: the escape of a code unit is read as that unit.
* `Json.readString_escape`: the escapes of a string are undone.
-/

set_option autoImplicit false

namespace ContentFilter.Json

open Text UnicodeString

/-! ## Code units -/

theorem hexValue?_hexDigit : ∀ n < 16, hexValue? (hexDigit n) = some n := by decide

theorem unit?_hexDigits (u : CodeUnit) :
    unit? (hexDigit (u.toNat / 4096 % 16)) (hexDigit (u.toNat / 256 % 16))
      (hexDigit (u.toNat / 16 % 16)) (hexDigit (u.toNat % 16)) = some u := by
  have hmod : ∀ m : Nat, m % 16 < 16 := fun m => Nat.mod_lt m (by decide)
  have hlt : u.toNat < 0x10000 := u.toNat_lt
  have hvalue : 4096 * (u.toNat / 4096 % 16) + 256 * (u.toNat / 256 % 16) +
      16 * (u.toNat / 16 % 16) + u.toNat % 16 = u.toNat := by
    omega
  simp only [unit?, hexValue?_hexDigit _ (hmod _), Option.pure_def, Option.bind_eq_bind,
    Option.bind_some, hvalue, UInt16.ofNat_toNat]

theorem toNat_ofNat_of_lt : ∀ n < 0x7F, (Char.ofNat n).toNat = n := by decide +kernel

/-- Puts a code unit before those that have been read. -/
def withFirst (u : CodeUnit) (r : List CodeUnit × Text) : List CodeUnit × Text := (u :: r.1, r.2)

/-! ## Strings -/

theorem readUnits_hexEscape (u : CodeUnit) (cs : Text) :
    readUnits (hexEscape u.toNat ++ cs) = (readUnits cs).map (withFirst u) := by
  simp only [hexEscape, List.cons_append, List.nil_append, readUnits, unit?_hexDigits u]
  cases readUnits cs <;> rfl

/-- A character that is one code unit, by its short escape. -/
theorem readUnits_short {u : CodeUnit} {e c : Char} (he : shortEscape? e = some c)
    (hc : u.toNat = c.toNat) (cs : Text) :
    readUnits ('\\' :: e :: cs) = (readUnits cs).map (withFirst u) := by
  rw [readUnits]
  · rw [he, Option.bind_eq_bind, Option.bind_some, ← hc, CodeUnit.ofPoint_toNat]
    cases readUnits cs <;> rfl
  · rintro _ _ _ _ _ rfl _
    have hnone : shortEscape? 'u' = none := rfl
    rw [hnone] at he
    cases he

/-- A character that is one code unit, as it is. -/
theorem readUnits_plain {u : CodeUnit} {c : Char} (hq : c ≠ '"') (hb : c ≠ '\\')
    (hlarge : 0x20 ≤ c.toNat) (hc : u.toNat = c.toNat) (cs : Text) :
    readUnits (c :: cs) = (readUnits cs).map (withFirst u) := by
  rw [readUnits]
  · rw [if_neg (Nat.not_lt.2 hlarge), ← hc, CodeUnit.ofPoint_toNat]
    cases readUnits cs <;> rfl
  all_goals
    intros
    simp_all

theorem readUnits_escapeUnit (u : CodeUnit) (cs : Text) :
    readUnits (escapeUnit u ++ cs) = (readUnits cs).map (withFirst u) := by
  unfold escapeUnit
  dsimp only
  split_ifs with hquote hslash hplain h8 h9 hA hC hD
  · exact readUnits_short (c := '"') rfl hquote cs
  · exact readUnits_short (c := '\\') rfl hslash cs
  · simp only [Bool.and_eq_true, decide_eq_true_eq] at hplain
    have hchar : u.toNat = (Char.ofNat u.toNat).toNat := (toNat_ofNat_of_lt _ (by omega)).symm
    refine readUnits_plain ?_ ?_ (by omega) hchar cs
    · exact fun h => hquote (hchar.trans (congrArg Char.toNat h))
    · exact fun h => hslash (hchar.trans (congrArg Char.toNat h))
  · exact readUnits_short (c := Char.ofNat 0x08) rfl h8 cs
  · exact readUnits_short (c := '\t') rfl h9 cs
  · exact readUnits_short (c := '\n') rfl hA cs
  · exact readUnits_short (c := Char.ofNat 0x0C) rfl hC cs
  · exact readUnits_short (c := '\r') rfl hD cs
  · exact readUnits_hexEscape u cs

theorem readUnits_escape (us : List CodeUnit) (rest : Text) :
    readUnits (us.flatMap escapeUnit ++ '"' :: rest) = some (us, rest) := by
  induction us with
  | nil => rfl
  | cons u us ih =>
    rw [List.flatMap_cons, List.append_assoc, readUnits_escapeUnit, ih]
    rfl

/-- The escapes of a string are undone, and what follows its closing quote is left. -/
theorem readString_escape {S : Type} [UnicodeString S] (s : S) (rest : Text) :
    readString ((units s).flatMap escapeUnit ++ '"' :: rest) = some (s, rest) := by
  rw [readString, readUnits_escape, Option.map_some, ofUnits_units]

end ContentFilter.Json
