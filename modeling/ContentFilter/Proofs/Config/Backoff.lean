import ContentFilter.Proofs.Number.Order

/-! # Delays within their bound

The delays of a configuration grow with the attempts and stay between zero and the bound. There is a
delay after each of the first 1024 attempts, and none after later ones: the factor is computed
before the bound is looked at, and it is beyond every number by then.

* `Settings.check_bounds`: what has been checked of the delays.
* `Config.backoff?_eq_none_iff`: the attempts that have no delay.
* `Config.WaitsWithin`: an attempt that has a delay as it should be.
* `Config.waits_within_bound_iff`: the attempts, and the configurations, for which there is one.
* `Config.no_delay_after_many`: an attempt without a delay.
-/

set_option autoImplicit false

namespace ContentFilter

/-! ## Configurations -/

theorem Settings.check_bounds {s : Settings} {c : Config} (h : s.check = .ok c) :
    c.backoffBase.lt .zero = false ∧ c.backoffMax.lt .zero = false := by
  unfold check at h
  simp only [bind, Except.bind] at h
  -- six other values are checked before the delays
  iterate 6
    split at h
    · cases h
  split at h
  · cases h
  next hdelays =>
    split at h
    · cases h
    · obtain rfl := Except.ok.inj h
      simpa using hdelays

namespace Config

/-! ## Delays -/

variable {c : Config}

theorem backoff?_eq_none_iff {attempt : Nat} : c.backoff? attempt = none ↔ 1024 ≤ attempt := by
  constructor
  · intro h
    by_contra hlt
    rw [backoff?_of_lt c (by omega)] at h
    cases h
  · intro h
    have hlate : (1024 : Int) ≤ attempt := by omega
    simp [backoff?, Binary64.ofPowerOfTwo?, hlate]

/-- After an attempt there is a delay, between zero and the bound, which is at least every earlier
one. -/
def WaitsWithin (c : Config) (attempt : Nat) : Prop :=
  ∃ d, c.backoff? attempt = some d ∧ Binary64.zero.le d = true ∧ d.le c.backoffMax = true ∧
    ∀ earlier ≤ attempt, ∃ e, c.backoff? earlier = some e ∧ e.le d = true

/-- Delays that have been checked and are finite. -/
structure Bounded (c : Config) : Prop where
  base : c.backoffBase.IsFinite
  max : c.backoffMax.IsFinite
  base_not_negative : c.backoffBase.lt .zero = false
  max_not_negative : c.backoffMax.lt .zero = false

theorem Bounded.zero_le_delay (h : c.Bounded) (attempt : Nat) :
    Binary64.zero.le (c.delay attempt) = true :=
  Binary64.le_min (Binary64.zero_le_mul h.base h.base_not_negative _)
    (h.max.le_of_not_lt ⟨false, 0, rfl⟩ h.max_not_negative)

theorem Bounded.delay_le_max (h : c.Bounded) (attempt : Nat) :
    (c.delay attempt).le c.backoffMax = true := Binary64.min_le_left h.max

theorem Bounded.delay_mono (h : c.Bounded) {earlier attempt : Nat} (hle : earlier ≤ attempt) :
    (c.delay earlier).le (c.delay attempt) = true := by
  refine Binary64.min_mono h.max (Binary64.mul_mono h.base h.base_not_negative ?_)
  exact Nat.pow_le_pow_right (by decide) (Nat.add_le_add_right hle 1074)

theorem Bounded.waitsWithin_iff (h : c.Bounded) {attempt : Nat} :
    c.WaitsWithin attempt ↔ attempt < 1024 := by
  constructor
  · rintro ⟨d, hd, -⟩
    by_contra hlate
    rw [backoff?_eq_none_iff.2 (Nat.le_of_not_lt hlate)] at hd
    cases hd
  · intro hlt
    refine ⟨c.delay attempt, backoff?_of_lt c hlt, h.zero_le_delay _, h.delay_le_max _, ?_⟩
    intro earlier hle
    exact ⟨c.delay earlier, backoff?_of_lt c (by omega), h.delay_mono hle⟩

/-- With finite delays there is a delay after each of the first 1024 attempts, between zero and the
bound and never less than before; after every later attempt there is none. So all attempts behind
which there is another one have their delay exactly for at most 1025 attempts. -/
theorem waits_within_bound_iff {s : Settings} (hc : s.check = .ok c)
    (hbase : c.backoffBase.IsFinite) (hmax : c.backoffMax.IsFinite) :
    (∀ attempt : Nat, c.WaitsWithin attempt ↔ attempt < 1024) ∧
      (∀ attempt : Nat, c.backoff? attempt = none ↔ 1024 ≤ attempt) ∧
      ((∀ attempt : Nat, attempt + 1 < c.maxAttempts → c.WaitsWithin attempt) ↔
        c.maxAttempts ≤ 1025) := by
  obtain ⟨hbase_not, hmax_not⟩ := Settings.check_bounds hc
  have h : c.Bounded := ⟨hbase, hmax, hbase_not, hmax_not⟩
  refine ⟨fun attempt => h.waitsWithin_iff, fun attempt => backoff?_eq_none_iff, ?_⟩
  constructor
  · intro hall
    by_contra hmany
    have hlast := h.waitsWithin_iff.1 (hall 1024 (by omega))
    omega
  · intro hfew attempt hattempt
    exact h.waitsWithin_iff.2 (by omega)

/-- Values with more attempts than there are delays. -/
def manyAttempts : Settings := { maxAttempts := 1026 }

theorem check_manyAttempts : ∃ c, manyAttempts.check = .ok c ∧ c.maxAttempts = 1026 ∧
    c.backoffBase.IsFinite ∧ c.backoffMax.IsFinite := by
  have hchecked : (manyAttempts.check.toOption.map fun c =>
      (c.maxAttempts, c.backoffBase, c.backoffMax)) =
        some (1026, .finite false Binary64.unitsPerOne,
          .finite false (30 * Binary64.unitsPerOne)) := by
    decide +kernel
  cases hc : manyAttempts.check with
  | error f =>
    rw [hc] at hchecked
    cases hchecked
  | ok c =>
    rw [hc] at hchecked
    obtain ⟨hattempts, hbase, hmax⟩ := by simpa [Except.toOption] using hchecked
    exact ⟨c, rfl, hattempts, ⟨_, _, hbase⟩, ⟨_, _, hmax⟩⟩

theorem waits_within_bound_manyAttempts :
    ∃ c, manyAttempts.check = .ok c ∧ c.backoffBase.IsFinite ∧ c.backoffMax.IsFinite ∧
      (∀ attempt : Nat, c.WaitsWithin attempt ↔ attempt < 1024) ∧
      (∀ attempt : Nat, c.backoff? attempt = none ↔ 1024 ≤ attempt) ∧
      ((∀ attempt : Nat, attempt + 1 < c.maxAttempts → c.WaitsWithin attempt) ↔
        c.maxAttempts ≤ 1025) := by
  obtain ⟨c, hc, -, hbase, hmax⟩ := check_manyAttempts
  exact ⟨c, hc, hbase, hmax, waits_within_bound_iff hc hbase hmax⟩

/-- There is no delay after the attempt with number 1024, behind which there is another one. -/
theorem no_delay_after_many :
    ∃ c, manyAttempts.check = .ok c ∧ c.backoffBase.IsFinite ∧ c.backoffMax.IsFinite ∧
      1024 + 1 < c.maxAttempts ∧ c.backoff? 1024 = none := by
  obtain ⟨c, hc, hattempts, hbase, hmax⟩ := check_manyAttempts
  refine ⟨c, hc, hbase, hmax, ?_, backoff?_eq_none_iff.2 (Nat.le_refl 1024)⟩
  rw [hattempts]
  decide

end Config

end ContentFilter
