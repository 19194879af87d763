import ContentFilter.Text.Alphanumeric
import ContentFilter.Text.Digit
import ContentFilter.Text.Lower
import Mathlib.Tactic.Common

/-! # Texts without capitals

Small characters are their own lower-case form wherever they stand. White space is small. Digits are
small and not white space, and so are the ASCII characters behind the space that are no capitals.

* `Text.IsSmall`: such a character.
* `Text.lower_eq_self`, `Text.mem_lower`: a text of such characters does not change, and they stay
  in every text.
* `Text.isSmall_of_mem_lower`, `Text.lower_lower`: lower-case forms are small.
* `Text.isSmall_of_isBlank`, `Text.isBlank_of_isAlphanumeric`: white space.
* `Text.isDigit_iff`, `Text.digitRanges_apart`: which code points are digits, and what they are not.
-/

set_option autoImplicit false

namespace ContentFilter.Text

/-! ## Small characters -/

/-- A character that is its own lower-case form in every text. -/
def IsSmall (c : Char) : Prop := lowerChar c = c ∧ c.toNat ≠ 0x130 ∧ c.toNat ≠ 0x3A3

theorem lower_eq_self {t : Text} (h : ∀ c ∈ t, IsSmall c) : lower t = t := by
  have hfrom : ∀ seen, lowerFrom seen t = t := by
    induction t with
    | nil => exact fun _ => rfl
    | cons c cs ih =>
      intro seen
      obtain ⟨⟨hself, hdotted, hsigma⟩, hcs⟩ := List.forall_mem_cons.mp h
      rw [lowerFrom, if_neg hdotted, if_neg hsigma, hself, ih hcs]
  exact hfrom []

theorem mem_lower {c : Char} (hc : IsSmall c) {t : Text} (h : c ∈ t) : c ∈ lower t := by
  have hfrom : ∀ seen, c ∈ lowerFrom seen t := by
    induction t with
    | nil => exact absurd h List.not_mem_nil
    | cons d ds ih =>
      intro seen
      rw [lowerFrom]
      rcases List.mem_cons.mp h with rfl | hds
      · rw [if_neg hc.2.1, if_neg hc.2.2, hc.1]
        exact List.mem_cons_self
      · split_ifs <;> simp [ih hds]
  exact hfrom []

theorem lower_ne_nil {t : Text} (h : t ≠ []) : lower t ≠ [] := by
  cases t with
  | nil => exact absurd rfl h
  | cons c cs =>
    rw [lower, lowerFrom]
    split_ifs <;> simp

/-! ## Characters of ASCII -/

theorem toLower_eq_self {c : Char} (h : ¬ ('A' ≤ c ∧ c ≤ 'Z')) : c.toLower = c := by
  delta Char.toLower
  rw [dif_neg]
  simpa [Char.le_def] using h

theorem isSmall_of_ascii {c : Char} (hc : c.toNat < 0x80) (h : ¬ ('A' ≤ c ∧ c ≤ 'Z')) :
    IsSmall c := by
  refine ⟨?_, by omega, by omega⟩
  rw [lowerChar, if_pos hc]
  exact toLower_eq_self h

/-- The lower-case forms of ASCII characters are small. -/
theorem isSmall_toLower {c : Char} (hc : c.toNat < 0x80) : IsSmall c.toLower := by
  have hall : ∀ n < 0x80, (Char.ofNat n).toLower.toNat < 0x80 ∧
      ¬ ('A' ≤ (Char.ofNat n).toLower ∧ (Char.ofNat n).toLower ≤ 'Z') := by
    decide +kernel
  obtain ⟨hascii, hsmall⟩ := hall c.toNat hc
  rw [Char.ofNat_toNat] at hascii hsmall
  exact isSmall_of_ascii hascii hsmall

/-! ## Characters outside ASCII -/

/-- The characters that are in no run are small, the two exceptions apart. -/
theorem isSmall_of_not_contains {c : Char} (hfar : 0x80 ≤ c.toNat)
    (hruns : ∀ l ∈ lowerRuns, l.contains c.toNat = false) (hdotted : c.toNat ≠ 0x130)
    (hsigma : c.toNat ≠ 0x3A3) : IsSmall c := by
  refine ⟨?_, hdotted, hsigma⟩
  have hnone : (lowerRuns.find? fun l => l.contains c.toNat) = none :=
    List.find?_eq_none.mpr fun l hl => by simp [hruns l hl]
  rw [lowerChar, if_neg (by omega), hnone]

/-- The characters of a range without capitals are small. -/
theorem isSmall_of_range {c : Char} {r : Nat × Nat}
    (hruns : ∀ l ∈ lowerRuns, r.2 < l.first ∨ l.last < r.1)
    (hothers : ∀ n ∈ [0x130, 0x3A3], r.2 < n ∨ n < r.1) (hfar : 0x80 ≤ c.toNat)
    (hlow : r.1 ≤ c.toNat) (hhigh : c.toNat ≤ r.2) : IsSmall c := by
  have hdotted := hothers 0x130 (by simp)
  have hsigma := hothers 0x3A3 (by simp)
  refine isSmall_of_not_contains hfar (fun l hl => ?_) (by omega) (by omega)
  rw [Bool.eq_false_iff]
  intro hcontains
  simp only [LowerRun.contains, Bool.and_eq_true, decide_eq_true_eq] at hcontains
  have := hruns l hl
  omega

/-! ## Runs -/

theorem lowerRuns_above : ∀ r ∈ lowerRuns, 0x80 ≤ r.first ∧ 0x40 < (r.first : Int) + r.shift ∧
    ((r.last : Int) + r.shift < 0xD800 ∨
      0xE000 ≤ (r.first : Int) + r.shift ∧ (r.last : Int) + r.shift < 0x110000) := by
  decide +kernel

theorem toNat_ofNat_shift {r : LowerRun} (hr : r ∈ lowerRuns) {n : Nat} (hn : r.contains n = true) :
    ((Char.ofNat (Int.toNat (n + r.shift))).toNat : Int) = n + r.shift := by
  obtain ⟨-, hlow, hvalid⟩ := lowerRuns_above r hr
  simp only [LowerRun.contains, Bool.and_eq_true, decide_eq_true_eq] at hn
  have hchar : (Char.ofNat (Int.toNat (n + r.shift))).toNat = Int.toNat (n + r.shift) := by
    rw [Char.ofNat, dif_pos]
    · rfl
    · unfold Nat.isValidChar
      omega
  omega

/-- Whether the lower-case forms of a run are clear of a run: they lie below it, above it, or
between its characters. -/
def LowerRun.clears (r l : LowerRun) : Bool :=
  (Int.toNat (r.last + r.shift)).blt l.first || l.last.blt (Int.toNat (r.first + r.shift)) ||
    (l.stride = 2 && (r.stride = 2 || r.first = r.last) && (r.first + r.shift - l.first) % 2 = 1)

/-- Lower-case forms are no capitals. -/
theorem lowerRuns_clear : (lowerRuns.all fun r => lowerRuns.all r.clears) = true := by
  decide +kernel

/-- The sign for a kelvin is the only capital outside ASCII whose lower-case form is inside. -/
theorem lowerRuns_others : ∀ r ∈ lowerRuns,
    (0x80 ≤ r.first + r.shift ∨ r.first = r.last ∧ r.first + r.shift = 0x6B) ∧
      ∀ n ∈ [(0x130 : Int), 0x3A3], r.last + r.shift < n ∨ n < r.first + r.shift := by
  decide +kernel

theorem LowerRun.not_contains_of_clears {r l : LowerRun} (h : r.clears l = true) {n m : Nat}
    (hn : r.contains n = true) (hm : (m : Int) = n + r.shift) : l.contains m = false := by
  rw [Bool.eq_false_iff]
  intro hl
  simp only [contains, Bool.and_eq_true, decide_eq_true_eq] at hn hl
  simp only [clears, Nat.blt_eq, Bool.or_eq_true, Bool.and_eq_true, decide_eq_true_eq] at h
  rcases h with (hbelow | habove) | ⟨⟨hstride, hown⟩, hodd⟩
  · omega
  · omega
  · rw [hstride] at hl
    rcases hown with hown | hown
    · rw [hown] at hn
      omega
    · omega

theorem isSmall_ofNat_shift {r : LowerRun} (hr : r ∈ lowerRuns) {n : Nat}
    (hn : r.contains n = true) : IsSmall (Char.ofNat (Int.toNat (n + r.shift))) := by
  have hshift := toNat_ofNat_shift hr hn
  obtain ⟨hfar, hothers⟩ := lowerRuns_others r hr
  have hdotted := hothers 0x130 (by simp)
  have hsigma := hothers 0x3A3 (by simp)
  have hbounds : r.first ≤ n ∧ n ≤ r.last := by
    simp only [LowerRun.contains, Bool.and_eq_true, decide_eq_true_eq] at hn
    exact hn.1
  rcases hfar with hfar | ⟨hone, hkelvin⟩
  · refine isSmall_of_not_contains (by omega) (fun l hl => ?_) (by omega) (by omega)
    have hclear : r.clears l = true :=
      List.all_eq_true.mp (List.all_eq_true.mp lowerRuns_clear r hr) l hl
    exact LowerRun.not_contains_of_clears hclear hn hshift
  · refine isSmall_of_ascii (by omega) fun hcapital => ?_
    have hZ : (Char.ofNat (Int.toNat (n + r.shift))).toNat ≤ 'Z'.toNat := hcapital.2
    have : 'Z'.toNat = 0x5A := rfl
    omega

/-! ## Lower-case forms -/

theorem isSmall_lowerChar {c : Char} (hdotted : c.toNat ≠ 0x130) (hsigma : c.toNat ≠ 0x3A3) :
    IsSmall (lowerChar c) := by
  by_cases hascii : c.toNat < 0x80
  · rw [lowerChar, if_pos hascii]
    exact isSmall_toLower hascii
  · cases hfind : lowerRuns.find? fun r => r.contains c.toNat with
    | none =>
      have hself : lowerChar c = c := by rw [lowerChar, if_neg hascii, hfind]
      rw [hself]
      exact ⟨hself, hdotted, hsigma⟩
    | some r =>
      have hrun : r.contains c.toNat = true := by simpa using List.find?_some hfind
      rw [lowerChar, if_neg hascii, hfind]
      exact isSmall_ofNat_shift (List.mem_of_find?_eq_some hfind) hrun

/-- What the two exceptions become outside ASCII is small. -/
theorem isSmall_of_exception {c : Char} (h : c.toNat ∈ [0x307, 0x3C2, 0x3C3]) : IsSmall c := by
  have hruns : ∀ l ∈ lowerRuns, ∀ n ∈ [0x307, 0x3C2, 0x3C3], l.contains n = false := by
    decide +kernel
  have hvalue : c.toNat = 0x307 ∨ c.toNat = 0x3C2 ∨ c.toNat = 0x3C3 := by simpa using h
  exact isSmall_of_not_contains (by omega) (fun l hl => hruns l hl _ h) (by omega) (by omega)

theorem isSmall_of_mem_lower {t : Text} : ∀ c ∈ lower t, IsSmall c := by
  have hfrom : ∀ seen, ∀ c ∈ lowerFrom seen t, IsSmall c := by
    induction t with
    | nil => exact fun _ _ hc => absurd hc List.not_mem_nil
    | cons d ds ih =>
      intro seen
      have hrest := ih (d :: seen)
      rw [lowerFrom]
      split_ifs with hdotted hsigma
      · have hi : IsSmall 'i' := isSmall_of_ascii (by decide) (by decide)
        have hmark : IsSmall (Char.ofNat 0x307) := isSmall_of_exception (by decide)
        exact List.forall_mem_cons.mpr ⟨hi, List.forall_mem_cons.mpr ⟨hmark, hrest⟩⟩
      · exact List.forall_mem_cons.mpr ⟨isSmall_of_exception (by decide), hrest⟩
      · exact List.forall_mem_cons.mpr ⟨isSmall_of_exception (by decide), hrest⟩
      · exact List.forall_mem_cons.mpr ⟨isSmall_lowerChar hdotted hsigma, hrest⟩
  exact hfrom []

theorem lower_lower (t : Text) : lower (lower t) = lower t := lower_eq_self isSmall_of_mem_lower

/-! ## White space -/

theorem isBlank_iff (c : Char) : isBlank c = true ↔
    ((0x09 ≤ c.toNat ∧ c.toNat ≤ 0x0D) ∨ (0x1C ≤ c.toNat ∧ c.toNat ≤ 0x20)) ∨
      ∃ b ∈ blankRanges, 0x80 ≤ c.toNat ∧ b.1 ≤ c.toNat ∧ c.toNat ≤ b.2 := by
  unfold isBlank
  by_cases hascii : c.toNat < 0x80
  · simp only [if_pos hascii, Bool.or_eq_true, Bool.and_eq_true, decide_eq_true_eq]
    refine (or_iff_left ?_).symm
    rintro ⟨b, -, hfar, -⟩
    omega
  · simp only [if_neg hascii, inRanges, List.any_eq_true, Bool.and_eq_true, decide_eq_true_eq]
    constructor
    · rintro ⟨b, hb, hin⟩
      exact .inr ⟨b, hb, by omega, hin⟩
    · rintro (h | ⟨b, hb, -, hin⟩)
      · omega
      · exact ⟨b, hb, hin⟩

/-- There are no capitals among the white space outside ASCII. -/
theorem blankRanges_apart : ∀ b ∈ blankRanges,
    (∀ l ∈ lowerRuns, b.2 < l.first ∨ l.last < b.1) ∧ ∀ n ∈ [0x130, 0x3A3], b.2 < n ∨ n < b.1 := by
  decide +kernel

theorem isSmall_of_isBlank {c : Char} (h : isBlank c = true) : IsSmall c := by
  rcases (isBlank_iff c).mp h with hascii | ⟨b, hb, hfar, hlow, hhigh⟩
  · refine isSmall_of_ascii (by omega) fun hcapital => ?_
    have hA : 'A'.toNat ≤ c.toNat := hcapital.1
    have : 'A'.toNat = 0x41 := rfl
    omega
  · obtain ⟨hruns, hothers⟩ := blankRanges_apart b hb
    exact isSmall_of_range hruns hothers hfar hlow hhigh

theorem alphanumericRanges_apart :
    ∀ r ∈ alphanumericRanges, ∀ b ∈ blankRanges, r.2 < b.1 ∨ b.2 < r.1 := by
  decide +kernel

theorem isBlank_of_isAlphanumeric {c : Char} (h : isAlphanumeric c = true) : isBlank c = false := by
  rw [Bool.eq_false_iff, ne_eq, isBlank_iff]
  unfold isAlphanumeric at h
  by_cases hascii : c.toNat < 0x80
  · rw [if_pos hascii] at h
    delta Char.isAlphanum Char.isAlpha Char.isUpper Char.isLower Char.isDigit at h
    have hval : c.val.toNat = c.toNat := rfl
    simp [UInt32.le_iff_toNat_le] at h
    rintro (hblank | ⟨b, -, hfar, -⟩) <;> omega
  · simp only [if_neg hascii, inRanges, List.any_eq_true, Bool.and_eq_true,
      decide_eq_true_eq] at h
    obtain ⟨r, hr, hin⟩ := h
    rintro (hblank | ⟨b, hb, -, hblank⟩)
    · omega
    · have := alphanumericRanges_apart r hr b hb
      omega

/-! ## Digits -/

theorem isDigit_iff (c : Char) : isDigit c = true ↔ (0x30 ≤ c.toNat ∧ c.toNat ≤ 0x39) ∨
    ∃ r ∈ decimalRanges ++ otherDigitRanges, 0x80 ≤ c.toNat ∧ r.1 ≤ c.toNat ∧ c.toNat ≤ r.2 := by
  unfold isDigit
  by_cases hascii : c.toNat < 0x80
  · have hval : c.val.toNat = c.toNat := rfl
    rw [if_pos hascii]
    delta Char.isDigit
    simp only [Bool.and_eq_true, decide_eq_true_eq, ge_iff_le, UInt32.le_iff_toNat_le, hval]
    constructor
    · exact .inl
    · rintro (h | ⟨r, -, hfar, -⟩)
      · exact h
      · omega
  · rw [if_neg hascii]
    simp only [inRanges, Bool.or_eq_true, List.any_eq_true, Bool.and_eq_true, decide_eq_true_eq,
      List.mem_append]
    constructor
    · rintro (⟨r, hr, hin⟩ | ⟨r, hr, hin⟩)
      · exact .inr ⟨r, .inl hr, by omega, hin⟩
      · exact .inr ⟨r, .inr hr, by omega, hin⟩
    · rintro (h | ⟨r, hr | hr, -, hin⟩)
      · omega
      · exact .inl ⟨r, hr, hin⟩
      · exact .inr ⟨r, hr, hin⟩

/-- The digits outside ASCII are neither capitals nor white space. -/
theorem digitRanges_apart : ∀ r ∈ decimalRanges ++ otherDigitRanges,
    (∀ l ∈ lowerRuns, r.2 < l.first ∨ l.last < r.1) ∧ (∀ b ∈ blankRanges, r.2 < b.1 ∨ b.2 < r.1) ∧
      ∀ n ∈ [0x130, 0x3A3, 0x3002, 0xFF0E, 0xFF61], r.2 < n ∨ n < r.1 := by
  decide +kernel

theorem isSmall_of_isDigit {c : Char} (h : isDigit c = true) : IsSmall c := by
  rcases (isDigit_iff c).mp h with hascii | ⟨r, hr, hfar, hlow, hhigh⟩
  · refine isSmall_of_ascii (by omega) fun hcapital => ?_
    have hA : 'A'.toNat ≤ c.toNat := hcapital.1
    have : 'A'.toNat = 0x41 := rfl
    omega
  · obtain ⟨hruns, -, hothers⟩ := digitRanges_apart r hr
    have hcapitals : ∀ n ∈ [0x130, 0x3A3], r.2 < n ∨ n < r.1 := fun n hn =>
      hothers n ((List.prefix_append [0x130, 0x3A3] _).subset hn)
    exact isSmall_of_range hruns hcapitals hfar hlow hhigh

theorem isDigit_of_isDecimal {c : Char} (h : isDecimal c = true) : isDigit c = true := by
  unfold isDecimal at h
  unfold isDigit
  split
  next hascii => rwa [if_pos hascii] at h
  next hascii =>
    rw [if_neg hascii] at h
    rw [h, Bool.true_or]

theorem isBlank_of_isDigit {c : Char} (h : isDigit c = true) : isBlank c = false := by
  rw [Bool.eq_false_iff, ne_eq, isBlank_iff]
  rcases (isDigit_iff c).mp h with hascii | ⟨r, hr, hfar, hlow, hhigh⟩
  · rintro (hblank | ⟨b, -, hfar, -⟩) <;> omega
  · rintro (hblank | ⟨b, hb, -, hblank⟩)
    · omega
    · have := (digitRanges_apart r hr).2.1 b hb
      omega

end ContentFilter.Text
