import Mathlib.Algebra.Ring.Nat
import Mathlib.Data.List.Basic
import Mathlib.Tactic.Common
import ContentFilter.Text.Basic

/-! # The digits of whole numbers

* `Text.natOfDigits_ofNat`, `Text.natOfDigits_append_zeros`, `Text.natOfDigits_zeros_append`: the value
  of digits, and of digits with zeros on one side.
* `Text.natOfDigits_lt`, `Text.length_ofNat_le_iff`: the number of digits bounds the value.
* `Text.ofNat_eq_cons`: the digits of a positive number start with another digit than zero.
-/

set_option autoImplicit false

namespace ContentFilter.Text

/-! ## Values -/

theorem natOfDigits_ofNat (n : Nat) : natOfDigits (ofNat n) = n := Nat.ofDigitChars_ten_toDigits

theorem natOfDigits_append_zeros (t : Text) (k : Nat) :
    natOfDigits (t ++ List.replicate k '0') = natOfDigits t * 10 ^ k := by
  rw [natOfDigits, Nat.ofDigitChars_append, Nat.ofDigitChars_replicate_zero, Nat.mul_comm]
  rfl

theorem natOfDigits_zeros_append (k : Nat) (t : Text) :
    natOfDigits (List.replicate k '0' ++ t) = natOfDigits t := by
  rw [natOfDigits, Nat.ofDigitChars_append, Nat.ofDigitChars_replicate_zero, Nat.mul_zero]
  rfl

/-! ## Numbers of digits -/

theorem length_ofNat_le_iff {n m : Nat} (hm : 0 < m) : (ofNat n).length ≤ m ↔ n < 10 ^ m :=
  Nat.length_toDigits_le_iff (by decide) hm

theorem length_ofNat_pos (n : Nat) : 0 < (ofNat n).length := Nat.length_toDigits_pos

theorem value_lt_ten {c : Char} (hc : c.isDigit) : c.toNat - '0'.toNat < 10 := by
  have hrange : 48 ≤ c.val ∧ c.val ≤ 57 := by simpa [Char.isDigit] using hc
  have hle : c.toNat ≤ 57 := hrange.2
  have hzero : '0'.toNat = 48 := rfl
  omega

theorem natOfDigits_lt {t : Text} (ht : ∀ c ∈ t, c.isDigit) : natOfDigits t < 10 ^ t.length := by
  induction t with
  | nil => exact Nat.one_pos
  | cons c t ih =>
    have hc : c.toNat - '0'.toNat ≤ 9 := Nat.le_of_lt_succ (value_lt_ten (ht c (by simp)))
    have hrest : Nat.ofDigitChars 10 t 0 < 10 ^ t.length := ih fun d hd => ht d (by simp [hd])
    rw [natOfDigits, Nat.ofDigitChars_cons, Nat.ofDigitChars_eq_ofDigitChars_zero, List.length_cons,
      Nat.mul_zero, Nat.zero_add]
    calc 10 ^ t.length * (c.toNat - '0'.toNat) + Nat.ofDigitChars 10 t 0
        < 10 ^ t.length * (c.toNat - '0'.toNat) + 10 ^ t.length := by omega
      _ ≤ 10 ^ t.length * 9 + 10 ^ t.length :=
        Nat.add_le_add_right (Nat.mul_le_mul_left _ hc) _
      _ = 10 ^ (t.length + 1) := by rw [Nat.pow_succ]; omega

/-- The digits of the value are at most as many. -/
theorem length_ofNat_natOfDigits {t : Text} (ht : ∀ c ∈ t, c.isDigit) (hne : t ≠ []) :
    (ofNat (natOfDigits t)).length ≤ t.length :=
  (length_ofNat_le_iff (List.length_pos_iff.2 hne)).2 (natOfDigits_lt ht)

/-! ## Digits -/

theorem isDigit_of_mem_ofNat {n : Nat} {c : Char} (hc : c ∈ ofNat n) : c.isDigit :=
  Nat.isDigit_of_mem_toDigits (by decide) (by decide) hc

/-- The digits of a positive number start with another digit than zero. -/
theorem ofNat_eq_cons {n : Nat} (hn : 0 < n) : ∃ d ds, ofNat n = d :: ds ∧ d ≠ '0' := by
  induction n using Nat.strongRecOn with
  | ind n ih =>
    by_cases hbase : n < 10
    · have hfirst : ∀ k < 10, 0 < k → Nat.digitChar k ≠ '0' := by decide
      exact ⟨_, [], Nat.toDigits_of_lt_base hbase, hfirst n hbase hn⟩
    · obtain ⟨d, ds, hds, hd⟩ := ih (n / 10) (by omega) (by omega)
      refine ⟨d, ds ++ [Nat.digitChar (n % 10)], ?_, hd⟩
      rw [ofNat, Nat.toDigits_of_base_le (by decide) (by omega), ← ofNat, hds, List.cons_append]

theorem ne_of_isDigit {c d : Char} (hd : d.isDigit) (hc : c.isDigit = false) : c ≠ d := by
  rintro rfl
  exact absurd hd (by simp [hc])

end ContentFilter.Text
