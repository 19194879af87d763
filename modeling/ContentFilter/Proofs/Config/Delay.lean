import ContentFilter.Config

/-! # Delays

The delay after an attempt is the first delay times a power of two, up to a bound. The power exists
as a double-precision number for each of the first 1024 attempts.

* `Binary64.ofPowerOfTwo?_of_lt`: those powers.
* `Config.delay`: the delay after an attempt, with `Config.backoff?_of_lt`.
-/

set_option autoImplicit false

namespace ContentFilter

namespace Binary64

theorem roundHalfEven_le (num den : Nat) : roundHalfEven num den ≤ num / den + 1 := by
  unfold roundHalfEven
  dsimp only
  split
  · omega
  · split
    · omega
    · split <;> omega

theorem pow_spacing_le (units : Nat) : Nat.pow 2 (spacing units) ≤ units + 1 := by
  by_cases hunits : units = 0
  · subst hunits
    decide
  · have hlog : Nat.pow 2 units.log2 ≤ units := Nat.log2_self_le hunits
    have hle : Nat.pow 2 (spacing units) ≤ Nat.pow 2 units.log2 :=
      Nat.pow_le_pow_right (by decide) (Nat.sub_le _ _)
    omega

/-- Rounding at most doubles a number of units. -/
theorem isInfinite_round (negative : Bool) {num : Nat} (h : 2 * num + 1 < unitsLimit) :
    (round negative num 1).isInfinite = false := by
  have hunits : roundHalfEven num (Nat.pow 2 (spacing num)) * Nat.pow 2 (spacing num) <
      unitsLimit := by
    generalize hstep : Nat.pow 2 (spacing num) = step
    have hspacing : step ≤ num + 1 := hstep ▸ pow_spacing_le num
    calc roundHalfEven num step * step
        ≤ (num / step + 1) * step := Nat.mul_le_mul_right _ (roundHalfEven_le _ _)
      _ = num / step * step + step := Nat.succ_mul _ _
      _ ≤ num + (num + 1) := Nat.add_le_add (Nat.div_mul_le_self _ _) hspacing
      _ < unitsLimit := by omega
  simp only [round, Nat.div_one, Nat.one_mul, hunits, if_true]
  rfl

theorem isInfinite_ofInt_of_lt {n : Nat} (h : n < 1024) : (ofInt n).isInfinite = false := by
  have hroom : 2 * (1024 * unitsPerOne) + 1 < unitsLimit := by decide +kernel
  have hle : n * unitsPerOne ≤ 1024 * unitsPerOne := Nat.mul_le_mul_right _ (Nat.le_of_lt h)
  exact isInfinite_round _ (by rw [Int.natAbs_natCast]; omega)

theorem ofPowerOfTwo?_of_lt {n : Nat} (h : n < 1024) :
    ofPowerOfTwo? n = some (.finite false (Nat.pow 2 (n + 1074))) := by
  have hle : ¬ (1024 : Int) ≤ n := by omega
  have hneg : ¬ (n : Int) < -1074 := by omega
  have hexp : ((n : Int) + 1074).toNat = n + 1074 := by omega
  simp [ofPowerOfTwo?, isInfinite_ofInt_of_lt h, hle, hneg, hexp]

end Binary64

namespace Config

/-- The delay after an attempt: the first delay times a power of two, up to the bound. -/
def delay (c : Config) (attempt : Nat) : Binary64 :=
  c.backoffMax.min (c.backoffBase.mul (.finite false (Nat.pow 2 (attempt + 1074))))

theorem backoff?_of_lt (c : Config) {attempt : Nat} (h : attempt < 1024) :
    c.backoff? attempt = some (c.delay attempt) := by
  simp [backoff?, delay, Binary64.ofPowerOfTwo?_of_lt h]

end Config

end ContentFilter
