import ContentFilter.Proofs.Number.Rounding

/-! # The order of double-precision numbers

Rounding keeps the order: of two quotients the greater one is not rounded to the smaller number. So
multiplying a number that is not negative by a greater factor does not make less of it.

* `Binary64.IsFinite`: finite numbers.
* `Binary64.le_of_lt`, `Binary64.lt_of_le_of_lt`, `Binary64.min_le_left`, `Binary64.min_mono`: the
  order.
* `Binary64.nearestUnits_mono`: rounding keeps it.
* `Binary64.mul_mono`, `Binary64.zero_le_mul`: products.
-/

set_option autoImplicit false

namespace ContentFilter.Binary64

/-! ## Order -/

def IsFinite (x : Binary64) : Prop := ∃ negative units, x = .finite negative units

variable {a b x y : Binary64}

theorem le_of_lt (h : a.lt b = true) : a.le b = true := by
  cases a <;> cases b <;> simp_all [lt, le, Int.le_of_lt]

theorem IsFinite.le_refl (h : a.IsFinite) : a.le a = true := by
  obtain ⟨s, u, rfl⟩ := h
  simp [le]

/-- A finite number that is not less than another one is at least the other one. -/
theorem IsFinite.le_of_not_lt (ha : a.IsFinite) (hb : b.IsFinite) (h : a.lt b = false) :
    b.le a = true := by
  obtain ⟨s, u, rfl⟩ := ha
  obtain ⟨t, v, rfl⟩ := hb
  simpa [lt, le] using h

theorem lt_of_le_of_lt {c : Binary64} (hab : a.le b = true) (hbc : b.lt c = true) :
    a.lt c = true := by
  cases a <;> cases b <;> cases c <;> simp_all [lt, le]
  omega

theorem le_min (hy : x.le y = true) (hb : x.le b = true) : x.le (b.min y) = true := by
  rw [min]
  split
  · exact hy
  · exact hb

theorem min_le_left (hb : b.IsFinite) : (b.min x).le b = true := by
  rw [min]
  split
  next hlt => exact le_of_lt hlt
  next => exact hb.le_refl

/-- What stands in for numbers beyond a bound grows with them. -/
theorem min_mono (hb : b.IsFinite) (h : x.le y = true) : (b.min x).le (b.min y) = true := by
  by_cases hx : x.lt b = true
  · have hmin : b.min x = x := if_pos hx
    rw [hmin]
    exact le_min h (le_of_lt hx)
  · have hy : ¬ y.lt b = true := fun hy => hx (lt_of_le_of_lt h hy)
    have hmin : b.min x = b := if_neg hx
    have hmin' : b.min y = b := if_neg hy
    rw [hmin, hmin']
    exact hb.le_refl

/-! ## Rounding -/

theorem le_roundHalfEven (num den : Nat) : num / den ≤ roundHalfEven num den := by
  unfold roundHalfEven
  dsimp only
  split_ifs <;> omega

theorem roundHalfEven_mono {num num' : Nat} (h : num ≤ num') (den : Nat) :
    roundHalfEven num den ≤ roundHalfEven num' den := by
  have hdiv : num / den ≤ num' / den := Nat.div_le_div_right h
  rcases Nat.lt_or_eq_of_le hdiv with hlt | heq
  · calc roundHalfEven num den
        ≤ num / den + 1 := roundHalfEven_le num den
      _ ≤ num' / den := hlt
      _ ≤ roundHalfEven num' den := le_roundHalfEven num' den
  · have hmod : num % den ≤ num' % den := by
      have hnum := Nat.div_add_mod num den
      have hnum' := Nat.div_add_mod num' den
      rw [← heq] at hnum'
      omega
    unfold roundHalfEven
    dsimp only
    rw [← heq]
    split_ifs <;> omega

/-- The multiple of the spacing that is nearest to a quotient. -/
def nearestUnits (num den : Nat) : Nat :=
  roundHalfEven num (den * 2 ^ spacing (num / den)) * 2 ^ spacing (num / den)

theorem round_eq (negative : Bool) (num den : Nat) : round negative num den =
    if nearestUnits num den < unitsLimit then .finite negative (nearestUnits num den)
    else .infinite negative := rfl

theorem spacing_mono {m n : Nat} (h : m ≤ n) : spacing m ≤ spacing n := by
  have hlog : m.log2 ≤ n.log2 := by
    rcases Nat.eq_zero_or_pos m with rfl | hpos
    · exact Nat.zero_le _
    · rw [Nat.le_log2 (by omega)]
      exact (Nat.log2_self_le hpos.ne').trans h
  exact Nat.sub_le_sub_right hlog 52

/-- Where numbers are spaced out they have 53 binary digits. -/
theorem pow_le_of_spacing_pos {units : Nat} (h : 0 < spacing units) :
    2 ^ (52 + spacing units) ≤ units := by
  have hlog : 52 + spacing units = units.log2 := by
    unfold spacing at h ⊢
    omega
  rw [hlog]
  refine Nat.log2_self_le ?_
  rintro rfl
  exact absurd h (by decide)

/-- Rounding keeps the order. Between numbers that are spaced alike this is rounding to whole
numbers; otherwise a power of two lies between what they are rounded to. -/
theorem nearestUnits_mono {num num' : Nat} (h : num ≤ num') (den : Nat) :
    nearestUnits num den ≤ nearestUnits num' den := by
  have hdiv : num / den ≤ num' / den := Nat.div_le_div_right h
  unfold nearestUnits
  rcases Nat.lt_or_eq_of_le (spacing_mono hdiv) with hlt | heq
  · generalize he : spacing (num / den) = e at hlt
    generalize hf : spacing (num' / den) = f at hlt
    have hbelow : num / (den * 2 ^ e) < 2 ^ 53 := by
      rw [← Nat.div_div_eq_div_mul, Nat.div_lt_iff_lt_mul (Nat.two_pow_pos e), ← Nat.pow_add, ← he]
      exact lt_pow_spacing _
    have habove : 2 ^ 52 ≤ num' / (den * 2 ^ f) := by
      rw [← Nat.div_div_eq_div_mul, Nat.le_div_iff_mul_le (Nat.two_pow_pos f), ← Nat.pow_add, ← hf]
      exact pow_le_of_spacing_pos (by omega)
    calc roundHalfEven num (den * 2 ^ e) * 2 ^ e
        ≤ 2 ^ 53 * 2 ^ e := Nat.mul_le_mul_right _ ((roundHalfEven_le _ _).trans hbelow)
      _ = 2 ^ 52 * 2 ^ (e + 1) := by
          rw [← Nat.pow_add, ← Nat.pow_add, Nat.add_comm e 1, ← Nat.add_assoc]
      _ ≤ 2 ^ 52 * 2 ^ f := Nat.mul_le_mul_left _ (Nat.pow_le_pow_right (by decide) hlt)
      _ ≤ roundHalfEven num' (den * 2 ^ f) * 2 ^ f :=
          Nat.mul_le_mul_right _ (habove.trans (le_roundHalfEven _ _))
  · rw [heq]
    exact Nat.mul_le_mul_right _ (roundHalfEven_mono h _)

theorem round_mono {num num' : Nat} (h : num ≤ num') (den : Nat) :
    (round false num den).le (round false num' den) = true := by
  have hunits := nearestUnits_mono h den
  rw [round_eq, round_eq]
  split_ifs
  · simpa [le, signedUnits] using hunits
  · rfl
  · omega
  · rfl

theorem zero_le_round (num den : Nat) : zero.le (round false num den) = true := by
  rw [round_eq]
  split_ifs
  · simp [zero, le, signedUnits]
  · rfl

theorem round_zero (negative : Bool) (den : Nat) : round negative 0 den = .finite negative 0 := by
  have hunits : nearestUnits 0 den = 0 := by simp [nearestUnits, roundHalfEven]
  rw [round_eq, hunits, if_pos (by decide +kernel)]

/-! ## Products -/

/-- A finite number that is not negative is a number of units, or a zero with a sign. -/
theorem IsFinite.of_not_negative (ha : a.IsFinite) (h : a.lt zero = false) :
    ∃ negative units, a = .finite negative units ∧ (negative = false ∨ units = 0) := by
  obtain ⟨s, u, rfl⟩ := ha
  refine ⟨s, u, rfl, ?_⟩
  cases s with
  | false => exact .inl rfl
  | true =>
    have hle : u ≤ 0 := by simpa [zero, lt, signedUnits] using h
    exact .inr (Nat.le_zero.1 hle)

/-- A greater factor does not make a number that is not negative smaller. -/
theorem mul_mono (ha : a.IsFinite) (h : a.lt zero = false) {v w : Nat} (hvw : v ≤ w) :
    (a.mul (.finite false v)).le (a.mul (.finite false w)) = true := by
  obtain ⟨s, u, rfl, hs⟩ := ha.of_not_negative h
  simp only [mul, Bool.bne_false]
  rcases hs with rfl | rfl
  · exact round_mono (Nat.mul_le_mul_left u hvw) unitsPerOne
  · simp [round_zero, le]

theorem zero_le_mul (ha : a.IsFinite) (h : a.lt zero = false) (v : Nat) :
    zero.le (a.mul (.finite false v)) = true := by
  obtain ⟨s, u, rfl, hs⟩ := ha.of_not_negative h
  simp only [mul, Bool.bne_false]
  rcases hs with rfl | rfl
  · exact zero_le_round _ _
  · cases s <;> simp [round_zero, le, zero, signedUnits]

end ContentFilter.Binary64
