import ContentFilter.Number.Shortest
import ContentFilter.Proofs.Number.Rounding
import ContentFilter.Proofs.Text.Digit

/-! # Decimals and the numbers nearest to them

Only the value of a decimal counts for the number that is nearest to it. The decimal that is chosen to
write a number down reads back to that number.

* `Decimal.toBinary64_mul_pow`: zeros at the end of the coefficient count in the exponent.
* `Decimal.toBinary64_negative`: the sign goes to the number.
* `Binary64.toBinary64_shortest`: the shortest decimal of a number reads back to it.
-/

set_option autoImplicit false

namespace ContentFilter

open Text

/-! ## Signs -/

namespace Binary64

/-- A number with another sign. -/
def withSign (negative : Bool) : Binary64 → Binary64
  | finite _ units => finite negative units
  | infinite _ => infinite negative
  | nan => nan

theorem round_negative (negative : Bool) (num den : Nat) :
    round negative num den = (round false num den).withSign negative := by
  simp only [round]
  split <;> rfl

theorem wellFormed_zero (negative : Bool) : (finite negative 0).WellFormed := by
  rintro s units ⟨⟩
  exact ⟨by decide +kernel, Nat.dvd_zero _⟩

theorem wellFormed_infinite (negative : Bool) : (infinite negative).WellFormed := nofun

end Binary64

namespace Decimal

open Binary64

theorem toBinary64_negative (negative : Bool) (c : Nat) (e : Int) :
    toBinary64 ⟨negative, c, e⟩ = (toBinary64 ⟨false, c, e⟩).withSign negative := by
  simp only [toBinary64]
  split
  · rfl
  · split
    · rfl
    · split
      · rfl
      · split <;> exact round_negative negative _ _

/-! ## Values -/

theorem length_ofNat_mul_pow {c : Nat} (hc : 0 < c) (k : Nat) :
    (ofNat (c * 10 ^ k)).length = (ofNat c).length + k := by
  have hlength := length_ofNat_pos c
  have hten : 0 < 10 ^ k := Nat.pow_pos (by decide)
  apply Nat.le_antisymm
  · rw [length_ofNat_le_iff (by omega), Nat.pow_add]
    exact Nat.mul_lt_mul_of_pos_right ((length_ofNat_le_iff hlength).1 le_rfl) hten
  · generalize hproduct : (ofNat (c * 10 ^ k)).length = length
    have hbound : c * 10 ^ k < 10 ^ length := by
      rw [← length_ofNat_le_iff (hproduct ▸ length_ofNat_pos _), hproduct]
    have hk : k < length := by
      rw [← Nat.pow_lt_pow_iff_right (a := 10) (by decide)]
      exact (Nat.le_mul_of_pos_left _ hc).trans_lt hbound
    obtain ⟨m, rfl⟩ : ∃ m, length = m + k := ⟨length - k, by omega⟩
    rw [Nat.pow_add] at hbound
    have hm : (ofNat c).length ≤ m :=
      (length_ofNat_le_iff (by omega)).2 (Nat.lt_of_mul_lt_mul_right hbound)
    omega

/-- The number nearest to a coefficient times a power of ten of any size. -/
def nearest (negative : Bool) (c : Nat) (e : Int) : Binary64 :=
  if 0 ≤ e then round negative (c * Nat.pow 10 e.toNat * unitsPerOne) 1
  else round negative (c * unitsPerOne) (Nat.pow 10 (-e).toNat)

theorem toBinary64_eq (negative : Bool) (c : Nat) (e : Int) : toBinary64 ⟨negative, c, e⟩ =
    if c = 0 then .finite negative 0
    else if magnitudeLimit < e + (ofNat c).length then .infinite negative
    else if e + (ofNat c).length < -magnitudeLimit then .finite negative 0
    else nearest negative c e := rfl

/-- The exponent can be written with any denominator that makes it whole. -/
theorem nearest_eq_round (negative : Bool) (c : Nat) {e : Int} {n : Nat} (h : 0 ≤ e + n) :
    nearest negative c e =
      round negative (c * 10 ^ (e + n).toNat * unitsPerOne) (10 ^ n) := by
  have hten : ∀ m, 0 < 10 ^ m := fun m => Nat.pow_pos (by decide)
  unfold nearest
  split
  next he =>
    have hsum : (e + n).toNat = e.toNat + n := by omega
    have hscale := round_mul_right negative (hten n) (c * 10 ^ e.toNat * unitsPerOne) 1
    rw [Nat.one_mul] at hscale
    rw [Nat.pow_eq, ← hscale, hsum, Nat.pow_add, ← Nat.mul_assoc c,
      Nat.mul_right_comm _ (10 ^ n)]
  next he =>
    obtain ⟨m, hm⟩ : ∃ m, n = (-e).toNat + m := ⟨n - (-e).toNat, by omega⟩
    have hsum : (e + n).toNat = m := by omega
    have hscale := round_mul_right negative (hten m) (c * unitsPerOne) (10 ^ (-e).toNat)
    rw [Nat.pow_eq, ← hscale, hsum, hm, Nat.pow_add, Nat.mul_right_comm]

/-- Only the value of a decimal counts. -/
theorem toBinary64_mul_pow (negative : Bool) (c k : Nat) (e : Int) :
    toBinary64 ⟨negative, c * 10 ^ k, e⟩ = toBinary64 ⟨negative, c, e + k⟩ := by
  rw [toBinary64_eq, toBinary64_eq]
  rcases Nat.eq_zero_or_pos c with rfl | hc
  · simp
  have hne : c * 10 ^ k ≠ 0 := Nat.mul_ne_zero hc.ne' (Nat.pow_pos (by decide)).ne'
  have hmagnitude : e + ((ofNat (c * 10 ^ k)).length : Int) = e + k + (ofNat c).length := by
    rw [length_ofNat_mul_pow hc]
    omega
  have hnearest : nearest negative (c * 10 ^ k) e = nearest negative c (e + k) := by
    have hsum : (e + k + e.natAbs).toNat = k + (e + e.natAbs).toNat := by omega
    rw [nearest_eq_round negative _ (n := e.natAbs) (by omega),
      nearest_eq_round negative c (n := e.natAbs) (by omega), hsum, Nat.pow_add, Nat.mul_assoc c]
  rw [if_neg hne, if_neg hc.ne', hmagnitude, hnearest]

/-- The number nearest to a decimal has at most 53 binary digits. -/
theorem wellFormed_toBinary64 (d : Decimal) : d.toBinary64.WellFormed := by
  obtain ⟨s, c, e⟩ := d
  rw [toBinary64_eq]
  split
  · exact wellFormed_zero s
  · split
    · exact wellFormed_infinite s
    · split
      · exact wellFormed_zero s
      · unfold nearest
        split <;> apply wellFormed_round

end Decimal

/-! ## The shortest decimal -/

namespace Binary64

variable {units : Nat}

theorem readsBack_of_chosen {near far d : Decimal}
    (h : (if readsBack units near then some near
      else if readsBack units far then some far else none) = some d) :
    readsBack units d = true := by
  split at h
  next hnear => rwa [← Option.some.inj h]
  · split at h
    next hfar => rwa [← Option.some.inj h]
    · cases h

theorem toBinary64_of_onGrid? {place : Int} {d : Decimal} (h : onGrid? units place = some d) :
    d.toBinary64 = .finite false units := by
  rw [onGrid?] at h
  exact of_decide_eq_true (readsBack_of_chosen h)

/-- The power of five that makes whole units of a power of ten has more than 700 digits, and with the
most units there are at most 1400. -/
theorem five_pow_bounds : 0 < Nat.pow 10 1074 ∧
    Nat.pow 5 1074 * unitsPerOne = Nat.pow 10 1074 ∧ 10 ^ 700 ≤ Nat.pow 5 1074 ∧
    unitsLimit * Nat.pow 5 1074 ≤ 10 ^ 1400 := by
  decide +kernel

/-- Units written out in full, with a power of five in place of the power of two below them. -/
theorem toBinary64_written_out (h : Representable units) (hpos : 0 < units) :
    Decimal.toBinary64 ⟨false, units * Nat.pow 5 1074, -1074⟩ = .finite false units := by
  have hexp : (- -1074 : Int).toNat = 1074 := by decide
  obtain ⟨hten, hproduct, hlong, hshort⟩ := five_pow_bounds
  generalize Nat.pow 5 1074 = five at *
  have hfive : 0 < five := by
    rw [Nat.pos_iff_ne_zero]
    rintro rfl
    omega
  have hlow : 700 < (ofNat (units * five)).length := by
    rw [← Nat.not_le, length_ofNat_le_iff (by decide), Nat.not_lt]
    exact hlong.trans (Nat.le_mul_of_pos_left _ hpos)
  have hhigh : (ofNat (units * five)).length ≤ 1400 := by
    rw [length_ofNat_le_iff (by decide)]
    exact (Nat.mul_lt_mul_of_pos_right h.1 hfive).trans_le hshort
  rw [Decimal.toBinary64_eq, Decimal.nearest, hexp]
  generalize Nat.pow 10 1074 = ten at hten hproduct ⊢
  have hscale := round_mul_right false hten units 1
  rw [Nat.one_mul, round_of_representable false h] at hscale
  rw [if_neg (Nat.mul_pos hpos hfive).ne', if_neg, if_neg, if_neg (by decide), Nat.mul_assoc,
    hproduct, hscale]
  · rw [Decimal.magnitudeLimit]
    omega
  · rw [Decimal.magnitudeLimit]
    omega

theorem shortestFrom_zero (digits : Nat) :
    shortestFrom units digits 0 = ⟨false, units * Nat.pow 5 1074, -1074⟩ := by
  -- the equations of the function are not used here: they would evaluate the power of five
  delta shortestFrom
  rfl

theorem shortestFrom_of_some {digits : Nat} {d : Decimal}
    (h : onGrid? units (decimalExponent units - digits + 1) = some d) (fuel : Nat) :
    shortestFrom units digits (fuel + 1) = d := by
  delta shortestFrom
  simp only [shortestFrom._f, h]

theorem shortestFrom_of_none {digits : Nat}
    (h : onGrid? units (decimalExponent units - digits + 1) = none) (fuel : Nat) :
    shortestFrom units digits (fuel + 1) = shortestFrom units (digits + 1) fuel := by
  delta shortestFrom
  simp only [shortestFrom._f, h]

/-- The shortest decimal of a number reads back to it. -/
theorem toBinary64_shortest (h : Representable units) (hpos : 0 < units) :
    (shortest units).toBinary64 = .finite false units := by
  suffices hfrom : ∀ fuel digits, (shortestFrom units digits fuel).toBinary64 =
      .finite false units from hfrom 17 1
  intro fuel
  induction fuel with
  | zero =>
    intro digits
    rw [shortestFrom_zero, toBinary64_written_out h hpos]
  | succ fuel ih =>
    intro digits
    cases hgrid : onGrid? units (decimalExponent units - digits + 1) with
    | some d => rw [shortestFrom_of_some hgrid, toBinary64_of_onGrid? hgrid]
    | none => rw [shortestFrom_of_none hgrid, ih]

end Binary64

end ContentFilter
