import Mathlib.Data.List.Basic
import Mathlib.Tactic.Common
import ContentFilter.Text.Utf8

/-! # Texts survive UTF-8

* `Text.decodeUtf8From_encodeChar`: one character.
* `Text.decodeUtf8?_encodeUtf8`: a text is read from its bytes as it was.
-/

set_option autoImplicit false

namespace ContentFilter.Text

/-! ## One character -/

theorem toNat_tailByte (n : Nat) : (tailByte n).toNat = 0x80 + n % 64 := by
  rw [tailByte, UInt8.toNat_ofNat']
  omega

theorem tailByte_inPlace (n : Nat) :
    ((tailByte n).toNat < 0x80 || 0xC0 ≤ (tailByte n).toNat) = false := by
  simp only [toNat_tailByte, Bool.or_eq_false_iff, decide_eq_false_iff_not]
  omega

/-- A byte in the middle of a character adds its six bits. -/
theorem decodeUtf8From_tailByte {owed : Nat} (howed : owed ≠ 0) (value least n : Nat)
    (bytes : Bytes) : decodeUtf8From (owed + 1) value least (tailByte n :: bytes) =
      decodeUtf8From owed (64 * value + n % 64) least bytes := by
  have hbits : (tailByte n).toNat - 0x80 = n % 64 := by
    rw [toNat_tailByte]
    omega
  rw [decodeUtf8From]
  simp only [tailByte_inPlace, hbits, Bool.false_eq_true, if_false, if_neg howed]

/-- The last byte of a character completes it, if no shorter sequence would have done. -/
theorem decodeUtf8From_lastByte {c : Char} {value least : Nat} (hleast : least ≤ c.toNat)
    (hvalue : value = c.toNat / 64) (bytes : Bytes) :
    decodeUtf8From 1 value least (tailByte c.toNat :: bytes) =
      (decodeUtf8From 0 0 0 bytes).map (c :: ·) := by
  have hbits : 64 * value + ((tailByte c.toNat).toNat - 0x80) = c.toNat := by
    rw [toNat_tailByte]
    omega
  have hvalid : (least ≤ c.toNat && Nat.isValidChar c.toNat) = true := by
    simp only [Bool.and_eq_true, decide_eq_true_eq]
    exact ⟨hleast, c.valid⟩
  rw [decodeUtf8From]
  simp only [tailByte_inPlace, hbits, hvalid, Bool.false_eq_true, if_false, if_true,
    Char.ofNat_toNat]

/-- The bytes of a character are read as that character. -/
theorem decodeUtf8From_encodeChar (c : Char) (bytes : Bytes) :
    decodeUtf8From 0 0 0 (encodeChar c ++ bytes) = (decodeUtf8From 0 0 0 bytes).map (c :: ·) := by
  have hrange : c.toNat < 0xD800 ∨ (0xDFFF < c.toNat ∧ c.toNat < 0x110000) := c.valid
  have hlead : ∀ n < 0x100, (UInt8.ofNat n).toNat = n := fun n hn => by
    rw [UInt8.toNat_ofNat']
    omega
  simp only [encodeChar]
  -- one case for each length of a sequence
  split_ifs with hone htwo hthree
  · rw [List.singleton_append, decodeUtf8From, hlead _ (by omega), if_pos hone, Char.ofNat_toNat]
  · rw [List.cons_append, List.singleton_append, decodeUtf8From, hlead _ (by omega)]
    rw [if_neg (by omega), if_neg (by omega), if_pos (by omega)]
    exact decodeUtf8From_lastByte (by omega) (by omega) bytes
  · rw [List.cons_append, List.cons_append, List.singleton_append, decodeUtf8From,
      hlead _ (by omega)]
    rw [if_neg (by omega), if_neg (by omega), if_neg (by omega), if_pos (by omega)]
    rw [decodeUtf8From_tailByte (by decide)]
    exact decodeUtf8From_lastByte (by omega) (by omega) bytes
  · rw [List.cons_append, List.cons_append, List.cons_append, List.singleton_append,
      decodeUtf8From, hlead _ (by omega)]
    rw [if_neg (by omega), if_neg (by omega), if_neg (by omega), if_neg (by omega),
      if_pos (by omega)]
    rw [decodeUtf8From_tailByte (by decide), decodeUtf8From_tailByte (by decide)]
    exact decodeUtf8From_lastByte (by omega) (by omega) bytes

/-! ## Texts -/

/-- A text is read from its bytes as it was. -/
theorem decodeUtf8?_encodeUtf8 (t : Text) : decodeUtf8? (encodeUtf8 t) = some t := by
  unfold decodeUtf8? encodeUtf8
  induction t with
  | nil => rfl
  | cons c t ih => rw [List.flatMap_cons, decodeUtf8From_encodeChar, ih, Option.map_some]

end ContentFilter.Text
