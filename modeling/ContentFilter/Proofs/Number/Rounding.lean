import Mathlib.Algebra.Ring.Nat
import Mathlib.Data.Nat.Log
import Mathlib.Tactic.Common
import ContentFilter.Proofs.Config.Delay

/-! # Rounding

A quotient is rounded to a multiple of the spacing around it. The result is a number with 53 binary
digits at most, and such a number is rounded to itself.

* `Binary64.round_mul_right`: only the value of a quotient counts.
* `Binary64.Representable`, `Binary64.WellFormed`: the numbers with at most 53 binary digits below the
  limit.
* `Binary64.round_of_representable`: they are rounded to themselves.
* `Binary64.representable_of_round`: they are what is rounded to.
-/

set_option autoImplicit false

namespace ContentFilter.Binary64

/-! ## Quotients -/

theorem roundHalfEven_mul_right {k : Nat} (hk : 0 < k) (num den : Nat) :
    roundHalfEven (num * k) (den * k) = roundHalfEven num den := by
  have hbelow : 2 * (num % den * k) < den * k ↔ 2 * (num % den) < den := by
    rw [← Nat.mul_assoc]
    exact Nat.mul_lt_mul_right hk
  have habove : den * k < 2 * (num % den * k) ↔ den < 2 * (num % den) := by
    rw [← Nat.mul_assoc]
    exact Nat.mul_lt_mul_right hk
  simp only [roundHalfEven, Nat.mul_div_mul_right num den hk, Nat.mul_mod_mul_right, hbelow, habove]

theorem roundHalfEven_mul_self {den : Nat} (hden : 0 < den) (n : Nat) :
    roundHalfEven (n * den) den = n := by
  simp [roundHalfEven, Nat.mul_div_cancel n hden, hden]

/-- Only the value of a quotient counts. -/
theorem round_mul_right (negative : Bool) {k : Nat} (hk : 0 < k) (num den : Nat) :
    round negative (num * k) (den * k) = round negative num den := by
  have hstep : ∀ step, den * k * step = den * step * k := fun step => Nat.mul_right_comm den k step
  simp only [round, Nat.mul_div_mul_right num den hk, hstep, roundHalfEven_mul_right hk]

/-! ## Numbers with 53 binary digits -/

/-- A number of units is that of a finite number: it is a multiple of the spacing around it. -/
def Representable (units : Nat) : Prop := units < unitsLimit ∧ 2 ^ spacing units ∣ units

/-- The numbers that can be held in double precision. -/
def WellFormed (x : Binary64) : Prop := ∀ negative units, x = finite negative units → Representable units

/-- Numbers with 53 binary digits are rounded to themselves. -/
theorem round_of_representable (negative : Bool) {units : Nat} (h : Representable units) :
    round negative units 1 = .finite negative units := by
  obtain ⟨hlt, n, hn⟩ := h
  have hround : roundHalfEven units (2 ^ spacing units) * 2 ^ spacing units = units := by
    have hself := roundHalfEven_mul_self (Nat.two_pow_pos (spacing units)) n
    rw [Nat.mul_comm, ← hn] at hself
    rw [hself, Nat.mul_comm, ← hn]
  simp only [round, Nat.div_one, Nat.one_mul, Nat.pow_eq, hround, if_pos hlt]

theorem lt_pow_spacing (units : Nat) : units < 2 ^ (53 + spacing units) := by
  have hlog : units < 2 ^ (units.log2 + 1) := Nat.lt_log2_self
  refine hlog.trans_le (Nat.pow_le_pow_right (by decide) ?_)
  rw [spacing]
  omega

/-- A number of multiples of a power of two, with at most 53 binary digits. -/
theorem pow_spacing_dvd {n e : Nat} (hn : n ≤ 2 ^ 53) : 2 ^ spacing (n * 2 ^ e) ∣ n * 2 ^ e := by
  rcases Nat.eq_zero_or_pos n with rfl | hpos
  · simp
  rcases Nat.lt_or_eq_of_le hn with hlt | rfl
  · have hlog : (n * 2 ^ e).log2 < 53 + e := by
      rw [Nat.log2_lt (Nat.mul_ne_zero hpos.ne' (Nat.two_pow_pos e).ne'), Nat.pow_add]
      exact Nat.mul_lt_mul_of_pos_right hlt (Nat.two_pow_pos e)
    have hspacing : spacing (n * 2 ^ e) ≤ e := by
      rw [spacing]
      omega
    exact Nat.dvd_trans (Nat.pow_dvd_pow 2 hspacing) (Nat.dvd_mul_left _ n)
  · -- the power of two itself has one binary digit
    rw [← Nat.pow_add, spacing, Nat.log2_two_pow]
    exact Nat.pow_dvd_pow 2 (Nat.sub_le _ _)

/-- What a quotient is rounded to has at most 53 binary digits. -/
theorem representable_of_round {negative s : Bool} {num den units : Nat}
    (h : round negative num den = .finite s units) : s = negative ∧ Representable units := by
  have hmultiple : roundHalfEven num (den * 2 ^ spacing (num / den)) ≤ 2 ^ 53 := by
    have hbelow : num / (den * 2 ^ spacing (num / den)) < 2 ^ 53 := by
      rw [← Nat.div_div_eq_div_mul, Nat.div_lt_iff_lt_mul (Nat.two_pow_pos _), ← Nat.pow_add]
      exact lt_pow_spacing _
    exact (roundHalfEven_le _ _).trans hbelow
  unfold round at h
  dsimp only at h
  split at h
  next hlt =>
    rw [Nat.pow_eq] at h hlt
    obtain ⟨rfl, rfl⟩ := Binary64.finite.inj h
    exact ⟨rfl, hlt, pow_spacing_dvd hmultiple⟩
  · cases h

theorem wellFormed_round (negative : Bool) (num den : Nat) : (round negative num den).WellFormed :=
  fun _ _ h => (representable_of_round h).2

end ContentFilter.Binary64
