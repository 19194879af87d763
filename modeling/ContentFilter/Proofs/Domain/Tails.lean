import ContentFilter.Domain.Basic
import ContentFilter.Proofs.Text.Cut

/-! # The names that cover a host

A name covers a host when it is the host itself, or when the host ends with a dot and the name. A
host that is a number is covered by itself alone. The candidates of a host are the names that cover
it.

* `Domain.OfDigits`, `Domain.Covers`: numbers, and what covers a host.
* `Domain.mem_tail_tailsOf_labels`: the names above a name are those that it ends with behind a dot.
* `Domain.mem_candidates`: the candidates of a host.
-/

set_option autoImplicit false

namespace ContentFilter

open Text

namespace Domain

/-! ## Cutting at dots -/

theorem labels_ne_nil (t : Text) : labels t ≠ [] := split_ne_nil '.' t

theorem labels_append_dot (a b : Text) : labels (a ++ '.' :: b) = labels a ++ labels b := by
  simp only [labels, split_eq_splitOn]
  exact List.splitOnP_append_cons a b rfl

theorem ofLabels_labels (t : Text) : ofLabels (labels t) = t := by
  rw [ofLabels, join, labels, split_eq_splitOn]
  exact List.intercalate_splitOn '.'

theorem ofLabels_append {as bs : List Text} (ha : as ≠ []) (hb : bs ≠ []) :
    ofLabels (as ++ bs) = ofLabels as ++ '.' :: ofLabels bs := by
  induction as with
  | nil => exact absurd rfl ha
  | cons a as ih =>
    cases as with
    | nil => exact (List.intercalate_cons_of_ne_nil hb).trans (by simp [ofLabels, join])
    | cons a' as =>
      have hrest := ih (List.cons_ne_nil a' as)
      simp only [ofLabels, join, List.cons_append] at hrest ⊢
      rw [List.intercalate_cons_cons, List.intercalate_cons_cons, hrest]
      simp only [List.append_assoc]

/-! ## Names above a name -/

theorem mem_tailsOf {d : Text} {ls : List Text} :
    d ∈ tailsOf ls ↔ ∃ before rest, ls = before ++ rest ∧ rest ≠ [] ∧ d = ofLabels rest := by
  induction ls with
  | nil => simp [tailsOf]
  | cons l ls ih =>
    rw [tailsOf, List.mem_cons, ih]
    constructor
    · rintro (rfl | ⟨before, rest, rfl, hrest, rfl⟩)
      · exact ⟨[], l :: ls, rfl, List.cons_ne_nil l ls, rfl⟩
      · exact ⟨l :: before, rest, rfl, hrest, rfl⟩
    · rintro ⟨before, rest, hls, hrest, rfl⟩
      cases before with
      | nil => exact .inl (by rw [hls, List.nil_append])
      | cons b before =>
        obtain ⟨-, rfl⟩ := List.cons.inj hls
        exact .inr ⟨before, rest, rfl, hrest, rfl⟩

theorem tailsOf_labels (n : Text) : tailsOf (labels n) = n :: (tailsOf (labels n)).tail := by
  cases hls : labels n with
  | nil => exact absurd hls (labels_ne_nil n)
  | cons l ls => rw [tailsOf, ← hls, ofLabels_labels, List.tail_cons]

/-- The names above a name, be they long or short, are those that it ends with behind a dot. -/
theorem mem_tail_tailsOf_labels {d n : Text} :
    d ∈ (tailsOf (labels n)).tail ↔ '.' :: d <:+ n := by
  cases hls : labels n with
  | nil => exact absurd hls (labels_ne_nil n)
  | cons l ls =>
    rw [tailsOf, List.tail_cons, mem_tailsOf]
    constructor
    · rintro ⟨before, rest, rfl, hrest, rfl⟩
      refine ⟨ofLabels (l :: before), ?_⟩
      rw [← ofLabels_append (List.cons_ne_nil l before) hrest, List.cons_append, ← hls,
        ofLabels_labels]
    · rintro ⟨above, rfl⟩
      rw [labels_append_dot] at hls
      cases habove : labels above with
      | nil => exact absurd habove (labels_ne_nil above)
      | cons a as =>
        rw [habove, List.cons_append] at hls
        obtain ⟨-, rfl⟩ := List.cons.inj hls
        exact ⟨as, labels d, rfl, labels_ne_nil d, (ofLabels_labels d).symm⟩

/-! ## Numbers -/

/-- Made of digits and dots only. -/
def OfDigits (t : Text) : Prop := ∀ c ∈ t, isDigit c = true ∨ c = '.'

instance (t : Text) : Decidable (OfDigits t) :=
  List.decidableBAll (fun c => isDigit c = true ∨ c = '.') t

theorem isNumeric_iff {t : Text} : isNumeric t = true ↔ OfDigits t ∧ ∃ c ∈ t, c ≠ '.' := by
  simp only [isNumeric, allDigits, Bool.and_eq_true, Bool.not_eq_true', List.all_eq_true,
    List.isEmpty_eq_false_iff, List.mem_filter, bne_iff_ne, ne_eq, List.filter_eq_nil_iff, OfDigits]
  constructor
  · rintro ⟨hsome, hall⟩
    refine ⟨fun c hc => ?_, by simpa using hsome⟩
    by_cases hdot : c = '.'
    · exact .inr hdot
    · exact .inl (hall c ⟨hc, hdot⟩)
  · rintro ⟨hall, c, hc, hdot⟩
    exact ⟨fun hnone => hnone c hc hdot, fun d hd => (hall d hd.1).resolve_right hd.2⟩

theorem OfDigits.notMem {t : Text} (ht : OfDigits t) {c : Char} (hdigit : isDigit c = false)
    (hdot : c ≠ '.') : c ∉ t := by
  intro hc
  rcases ht c hc with h | h
  · exact absurd h (by simp [hdigit])
  · exact hdot h

theorem OfDigits.of_suffix {d n : Text} (h : OfDigits n) (hd : d <:+ n) : OfDigits d :=
  fun c hc => h c (hd.subset hc)

/-! ## Normal form -/

theorem getLast?_normalize (t : Text) : (normalize t).getLast? ≠ some '.' := by
  intro h
  have hdot := getLast?_dropEndWhile h
  exact absurd hdot (by decide)

/-- A name in normal form has a character that is no dot. -/
theorem exists_mem_normalize {t : Text} (h : normalize t ≠ []) : ∃ c ∈ normalize t, c ≠ '.' := by
  refine ⟨(normalize t).getLast h, List.getLast_mem h, fun hdot => ?_⟩
  exact getLast?_normalize t ((List.getLast?_eq_some_getLast h).trans (congrArg some hdot))

theorem isNumeric_normalize_iff {t : Text} (h : normalize t ≠ []) :
    isNumeric (normalize t) = true ↔ OfDigits (normalize t) := by
  rw [isNumeric_iff]
  exact and_iff_left (exists_mem_normalize h)

/-! ## Candidates -/

/-- A name covers itself, and every name that ends with a dot and the name and is not a number. -/
def Covers (d n : Text) : Prop := n = d ∨ ¬ OfDigits n ∧ '.' :: d <:+ n

instance (d n : Text) : Decidable (Covers d n) := inferInstanceAs (Decidable (_ ∨ _))

theorem Covers.trans {k d n : Text} (hkd : Covers k d) (hdn : Covers d n) : Covers k n := by
  rcases hdn with rfl | ⟨hn, hd⟩
  · exact hkd
  · rcases hkd with rfl | ⟨-, hk⟩
    · exact .inr ⟨hn, hd⟩
    · exact .inr ⟨hn, hk.trans ((List.suffix_cons '.' d).trans hd)⟩

/-- The candidates of a host are the names that cover it. -/
theorem mem_candidates {d host : Text} :
    d ∈ candidates host ↔ normalize host ≠ [] ∧ Covers d (normalize host) := by
  unfold candidates
  by_cases hempty : normalize host = []
  · simp [hempty]
  rw [if_neg (by simpa using hempty), and_iff_right hempty, tails, Covers]
  by_cases hnumber : OfDigits (normalize host)
  · rw [if_pos ((isNumeric_normalize_iff hempty).mpr hnumber), List.mem_singleton, eq_comm]
    simp [hnumber]
  · rw [if_neg (mt (isNumeric_normalize_iff hempty).mp hnumber), tailsOf_labels, List.mem_cons,
      mem_tail_tailsOf_labels, eq_comm, and_iff_right hnumber]

end Domain

end ContentFilter
