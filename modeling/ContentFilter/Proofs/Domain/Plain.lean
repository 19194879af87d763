import ContentFilter.Proofs.Domain.Tails
import ContentFilter.Proofs.Text.Lower

/-! # Plain names

A plain name is made of small letters, digits, hyphens and dots. It does not start with a dot, and
in normal form it does not end in one, or in a line feed.

* `Domain.IsPlainChar`, `Domain.mem_of_isPlain`: what plain names are made of.
* `Domain.IsPlainName`: the plain names in normal form.
-/

set_option autoImplicit false

namespace ContentFilter.Domain

open Text

/-! ## Characters -/

/-- A character of a plain name. -/
def IsPlainChar (c : Char) : Prop := isLabelChar c = true ∨ c = '-' ∨ c = '.'

instance (c : Char) : Decidable (IsPlainChar c) := inferInstanceAs (Decidable (_ ∨ _))

theorem isLabelChar_iff (c : Char) : isLabelChar c = true ↔
    (0x61 ≤ c.toNat ∧ c.toNat ≤ 0x7A) ∨ (0x30 ≤ c.toNat ∧ c.toNat ≤ 0x39) := by
  simp only [isLabelChar, Bool.or_eq_true, Bool.and_eq_true, decide_eq_true_eq, Char.le_def,
    UInt32.le_iff_toNat_le]
  rfl

/-- Plain names have characters of ASCII in them, and no capitals. -/
theorem IsPlainChar.ascii {c : Char} (h : IsPlainChar c) :
    c.toNat < 0x80 ∧ ¬ ('A' ≤ c ∧ c ≤ 'Z') := by
  rcases h with h | rfl | rfl
  · simp only [Char.le_def, UInt32.le_iff_toNat_le]
    have hval : c.val.toNat = c.toNat := rfl
    have hA : 'A'.val.toNat = 0x41 := rfl
    have hZ : 'Z'.val.toNat = 0x5A := rfl
    rw [isLabelChar_iff] at h
    omega
  · decide
  · decide

theorem IsPlainChar.isBlank_eq {c : Char} (h : IsPlainChar c) : isBlank c = false := by
  rcases h with h | rfl | rfl
  · rw [isLabelChar_iff] at h
    rw [Bool.eq_false_iff, ne_eq, isBlank_iff]
    rintro (hblank | ⟨b, -, hfar, -⟩) <;> omega
  · decide
  · decide

/-! ## One pass over a name -/

/-- The characters that complete a name. A line feed can only be the last one. -/
theorem mem_of_completes {length : Nat} {afterHyphen : Bool} {t : Text}
    (h : completes length afterHyphen t = true) :
    ∀ c ∈ t, IsPlainChar c ∨ c = '\n' ∧ t.getLast? = some '\n' := by
  induction t generalizing length afterHyphen with
  | nil => simp
  | cons d ds ih =>
    have hlater : (∀ c ∈ ds, IsPlainChar c ∨ c = '\n' ∧ ds.getLast? = some '\n') →
        ∀ c ∈ ds, IsPlainChar c ∨ c = '\n' ∧ (d :: ds).getLast? = some '\n' := by
      intro hds c hc
      refine (hds c hc).imp_right (.imp_right fun hlast => ?_)
      rw [List.getLast?_cons, hlast]
      rfl
    rw [completes] at h
    split_ifs at h with hdot hlabel hhyphen
    · rw [Bool.and_eq_true] at h
      exact List.forall_mem_cons.mpr ⟨.inl (.inr (.inr hdot)), hlater (ih h.2)⟩
    · rw [Bool.and_eq_true] at h
      exact List.forall_mem_cons.mpr ⟨.inl (.inl hlabel), hlater (ih h.2)⟩
    · rw [Bool.and_eq_true] at h
      exact List.forall_mem_cons.mpr ⟨.inl (.inr (.inl hhyphen)), hlater (ih h.2)⟩
    · simp only [Bool.and_eq_true, decide_eq_true_eq, List.isEmpty_iff] at h
      obtain ⟨⟨⟨rfl, rfl⟩, -⟩, -⟩ := h
      simp

theorem mem_of_isPlain {t : Text} (h : isPlain t = true) : ∀ c ∈ t, IsPlainChar c ∨ c = '\n' :=
  fun c hc => (mem_of_completes h c hc).imp_right And.left

theorem lower_of_isPlain {t : Text} (h : isPlain t = true) : lower t = t := by
  refine lower_eq_self fun c hc => ?_
  rcases mem_of_isPlain h c hc with hplain | rfl
  · exact isSmall_of_ascii hplain.ascii.1 hplain.ascii.2
  · exact isSmall_of_ascii (by decide) (by decide)

/-! ## Plain names in normal form -/

/-- A plain name in normal form. -/
def IsPlainName (t : Text) : Prop := isPlain t = true ∧ normalize t = t

instance (t : Text) : Decidable (IsPlainName t) := inferInstanceAs (Decidable (_ ∧ _))

namespace IsPlainName

variable {t : Text}

/-- There is no white space around a plain name in normal form. -/
theorem strip_eq (h : IsPlainName t) : strip t = t := by
  have hend : (normalize t).Sublist (strip t) := by
    rw [normalize, lower_of_isPlain h.1]
    exact dropEndWhile_sublist _ _
  rw [h.2] at hend
  exact (dropAroundWhile_sublist _ t).eq_of_length_le hend.length_le

theorem isPlainChar (h : IsPlainName t) {c : Char} (hc : c ∈ t) : IsPlainChar c := by
  rcases mem_of_completes h.1 c hc with hplain | ⟨-, hlast⟩
  · exact hplain
  · rw [← h.strip_eq] at hlast
    exact absurd (getLast?_dropEndWhile hlast) (by decide)

theorem notMem (h : IsPlainName t) {c : Char} (hc : ¬ IsPlainChar c) : c ∉ t :=
  fun hmem => hc (h.isPlainChar hmem)

theorem ne_nil (h : IsPlainName t) : t ≠ [] := by
  rintro rfl
  exact absurd h.1 (by decide)

theorem head?_ne_dot (h : IsPlainName t) : t.head? ≠ some '.' := by
  intro hhead
  obtain ⟨u, rfl⟩ := List.head?_eq_some_iff.mp hhead
  exact absurd h.1 (by simp [isPlain, completes])

end IsPlainName

end ContentFilter.Domain
