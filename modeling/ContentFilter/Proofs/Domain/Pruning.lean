import ContentFilter.Domain.SuffixTable
import ContentFilter.Proofs.Domain.Tails
import Mathlib.Data.List.Basic

/-! # What pruning keeps

Pruning leaves out a name that another one of the list covers. The other one may itself be left out,
but going up from name to name ends, so what is kept covers all that the list covers.

* `SuffixRules.distinctNames_eq`: the names of a list, each once.
* `SuffixRules.Shadows`, `SuffixRules.mem_prune_iff`: the names that are left out, and those kept.
* `SuffixRules.exists_kept_suffix`, `SuffixRules.exists_kept_covers`: what is kept is above the
  rest.
* `SuffixRules.prune_leaves_out_redundant`: pruning leaves out what is redundant and nothing else.
-/

set_option autoImplicit false

namespace ContentFilter.SuffixRules

open Text Domain

/-! ## The names of a list -/

/-- The names of a list are the first occurrences of what counts. -/
theorem foldl_distinct_eq (names found : List Text) :
    names.foldl (fun found n =>
        if n.isEmpty || isLocal n || found.contains n then found else found ++ [n]) found =
      found ++
        ((names.filter fun n => n ≠ [] ∧ n ∉ localNames).removeAll found).eraseDups := by
  induction names generalizing found with
  | nil => simp
  | cons m names ih =>
    rw [List.foldl_cons, ih]
    by_cases hcounts : m ≠ [] ∧ m ∉ localNames
    · have hlisted : (m.isEmpty || isLocal m) = false := by simp [hcounts, isLocal]
      rw [List.filter_cons_of_pos (by simpa using hcounts), List.cons_removeAll, hlisted,
        Bool.false_or]
      cases hfound : found.contains m with
      | true => rfl
      | false =>
        have hlater : ∀ l : List Text,
            (l.removeAll found).filter (fun n => !n == m) = l.removeAll (found ++ [m]) := by
          intro l
          rw [List.removeAll, List.removeAll, List.filter_filter]
          refine List.filter_congr fun n _ => ?_
          by_cases hnm : n = m <;> simp [hnm]
        rw [if_neg Bool.false_ne_true, if_pos rfl, List.eraseDups_cons, hlater,
          List.append_assoc, List.singleton_append]
    · have hskipped : (m.isEmpty || isLocal m) = true := by
        simpa [isLocal, Classical.or_iff_not_imp_left] using hcounts
      rw [List.filter_cons_of_neg (by simpa using hcounts), hskipped, Bool.true_or, if_pos rfl]

theorem distinctNames_eq (names : List Text) : distinctNames names =
    ((names.map normalize).filter fun n => n ≠ [] ∧ n ∉ localNames).eraseDups := by
  rw [distinctNames, foldl_distinct_eq, List.nil_append]
  simp [List.removeAll]

theorem mem_distinctNames {names : List Text} {n : Text} :
    n ∈ distinctNames names ↔ n ∈ names.map normalize ∧ n ≠ [] ∧ isLocal n = false := by
  rw [distinctNames_eq, List.mem_eraseDups, List.mem_filter, decide_eq_true_eq, isLocal,
    ← Bool.not_eq_true, List.contains_iff_mem]

theorem mem_prune {s : SuffixRules} {names : List Text} {n : Text} :
    n ∈ (s.prune names).1 ↔
      n ∈ distinctNames names ∧ ∀ p ∈ s.parents n, p ∉ distinctNames names := by
  simp [prune, List.mem_filter]

/-! ## Names above a name -/

theorem labels_ofLabels {ls : List Text} (hne : ls ≠ []) (h : ∀ l ∈ ls, '.' ∉ l) :
    labels (ofLabels ls) = ls := split_join hne h

/-- The names above a name, the longest first, are cut off where they get too short. -/
theorem mem_take_tailsOf {ls : List Text} (h : ∀ l ∈ ls, '.' ∉ l) {size : Nat} {p : Text} :
    p ∈ (tailsOf ls).take (ls.length + 1 - size) ↔ p ∈ tailsOf ls ∧ size ≤ (labels p).length := by
  induction ls with
  | nil => simp [tailsOf]
  | cons l ls ih =>
    have hself := labels_ofLabels (List.cons_ne_nil l ls) h
    have hrest := ih fun m hm => h m (List.mem_cons_of_mem l hm)
    rw [tailsOf, List.length_cons, List.mem_cons]
    by_cases hsize : size ≤ ls.length + 1
    · obtain ⟨k, hk⟩ : ∃ k, ls.length + 1 + 1 - size = k + 1 := ⟨ls.length + 1 - size, by omega⟩
      obtain rfl : k = ls.length + 1 - size := by omega
      rw [hk, List.take_succ_cons, List.mem_cons, hrest]
      constructor
      · rintro (rfl | ⟨hmem, hlong⟩)
        · exact ⟨.inl rfl, by rw [hself]; exact hsize⟩
        · exact ⟨.inr hmem, hlong⟩
      · rintro ⟨rfl | hmem, hlong⟩
        · exact .inl rfl
        · exact .inr ⟨hmem, hlong⟩
    · have hnone : ls.length + 1 + 1 - size = 0 := by omega
      have hnone' : ls.length + 1 - size = 0 := by omega
      rw [hnone', List.take_zero] at hrest
      rw [hnone, List.take_zero]
      refine iff_of_false List.not_mem_nil ?_
      rintro ⟨rfl | hmem, hlong⟩
      · rw [hself, List.length_cons] at hlong
        omega
      · exact absurd (hrest.mpr ⟨hmem, hlong⟩) List.not_mem_nil

/-- A name makes another one redundant that ends with a dot and the name, as long as it has as many
labels as the registered name of the other one, or two if that has none. Numbers without a
registered name are never redundant. -/
def Shadows (s : SuffixRules) (p n : Text) : Prop :=
  '.' :: p <:+ n ∧ s.floor n ≤ (labels p).length ∧ ¬ (OfDigits n ∧ s.registered? n = none)

instance (s : SuffixRules) (p n : Text) : Decidable (s.Shadows p n) :=
  inferInstanceAs (Decidable (_ ∧ _ ∧ ¬ (_ ∧ _)))

/-- What a name in normal form is looked up by are the names that make it redundant. -/
theorem mem_parents_normalize {s : SuffixRules} {p t : Text} (hsome : normalize t ≠ []) :
    p ∈ s.parents (normalize t) ↔ s.Shadows p (normalize t) := by
  have hnumber : ((s.registered? (normalize t)).isNone && isNumeric (normalize t)) = true ↔
      OfDigits (normalize t) ∧ s.registered? (normalize t) = none := by
    rw [Bool.and_eq_true, Option.isNone_iff_eq_none, isNumeric_normalize_iff hsome, and_comm]
  unfold parents Shadows
  split
  next h => exact iff_of_false List.not_mem_nil fun hp => hp.2.2 (hnumber.mp h)
  next h =>
    rw [and_iff_left (mt hnumber.mpr h), ← mem_tail_tailsOf_labels]
    have hdots : ∀ l ∈ labels (normalize t), '.' ∉ l := fun l hl hdot =>
      (mem_of_mem_split hl '.' hdot).2 rfl
    cases hls : labels (normalize t) with
    | nil => exact absurd hls (labels_ne_nil _)
    | cons l ls =>
      rw [hls] at hdots
      exact mem_take_tailsOf fun m hm => hdots m (List.mem_cons_of_mem l hm)

/-! ## Pruning -/

/-- A name is kept when no name of the list makes it redundant. -/
theorem mem_prune_iff {s : SuffixRules} {names : List Text} {n : Text} :
    n ∈ (s.prune names).1 ↔
      n ∈ distinctNames names ∧ ∀ p ∈ distinctNames names, ¬ s.Shadows p n := by
  rw [mem_prune]
  refine and_congr_right fun hn => ?_
  obtain ⟨hmem, hsome, -⟩ := mem_distinctNames.mp hn
  obtain ⟨t, -, rfl⟩ := List.mem_map.mp hmem
  constructor
  · exact fun h p hp hshadows => h p ((mem_parents_normalize hsome).mpr hshadows) hp
  · exact fun h p hparent hp => h p hp ((mem_parents_normalize hsome).mp hparent)

theorem prune_fst (s : SuffixRules) (names : List Text) : (s.prune names).1 =
    (distinctNames names).filter fun n => ∀ p ∈ distinctNames names, ¬ s.Shadows p n := by
  refine List.filter_congr fun n hn => ?_
  have hkept : n ∈ (s.prune names).1 ↔ _ := mem_prune_iff
  rw [and_iff_right hn, prune, List.mem_filter, and_iff_right hn] at hkept
  rw [Bool.eq_iff_iff, decide_eq_true_eq]
  exact hkept

theorem length_prune (s : SuffixRules) (names : List Text) :
    (s.prune names).1.length + (s.prune names).2 = (distinctNames names).length := by
  rw [prune, Nat.add_comm]
  exact (List.length_eq_length_filter_add _).symm

/-- A name that is left out ends with a dot and one that is kept. Going up from name to name ends,
since every name above is shorter. -/
theorem exists_kept_suffix {s : SuffixRules} {names : List Text} {n : Text}
    (hn : n ∈ distinctNames names) (hout : n ∉ (s.prune names).1) :
    ∃ k ∈ (s.prune names).1, '.' :: k <:+ n := by
  induction hlength : n.length using Nat.strongRecOn generalizing n with
  | ind size ih =>
    subst hlength
    rw [mem_prune_iff, and_iff_right hn] at hout
    push Not at hout
    obtain ⟨p, hp, hsuffix, -⟩ := hout
    by_cases hkept : p ∈ (s.prune names).1
    · exact ⟨p, hkept, hsuffix⟩
    · obtain ⟨k, hk, hkp⟩ := ih p.length hsuffix.length_le hp hkept rfl
      exact ⟨k, hk, hkp.trans ((List.suffix_cons '.' p).trans hsuffix)⟩

/-- Every name of a list is covered by one that is kept. -/
theorem exists_kept_covers {s : SuffixRules} (hs : ∀ n, OfDigits n → s.registered? n = none)
    {names : List Text} {n : Text} (hn : n ∈ distinctNames names) :
    ∃ k ∈ (s.prune names).1, Covers k n := by
  by_cases hkept : n ∈ (s.prune names).1
  · exact ⟨n, hkept, .inl rfl⟩
  · obtain ⟨k, hk, hsuffix⟩ := exists_kept_suffix hn hkept
    rw [mem_prune_iff, and_iff_right hn] at hkept
    push Not at hkept
    obtain ⟨p, -, -, -, hnumber⟩ := hkept
    exact ⟨k, hk, .inr ⟨fun hdigits => hnumber ⟨hdigits, hs n hdigits⟩, hsuffix⟩⟩

/-- Pruning leaves out the redundant names and no others, whatever the suffixes are. Those left out
are counted, and each of them has a kept name above it; a name that is shorter than the registered
name of another one never has it left out. -/
theorem prune_leaves_out_redundant (s : SuffixRules) (names : List Text) :
    let listed := distinctNames names
    let kept := (s.prune names).1
    listed = ((names.map normalize).filter fun n => n ≠ [] ∧ n ∉ localNames).eraseDups ∧
      kept = listed.filter (fun n => ∀ p ∈ listed, ¬ s.Shadows p n) ∧
      kept.length + (s.prune names).2 = listed.length ∧
      (∀ n ∈ listed, n ∉ kept → ∃ k ∈ kept, '.' :: k <:+ n) ∧
      ∀ n ∈ listed, (∀ p ∈ listed, '.' :: p <:+ n → (labels p).length < s.floor n) → n ∈ kept := by
  intro listed kept
  refine ⟨distinctNames_eq names, prune_fst s names, length_prune s names,
    fun n hn hout => exists_kept_suffix hn hout, ?_⟩
  intro n hn hshort
  refine mem_prune_iff.mpr ⟨hn, fun p hp hshadows => ?_⟩
  exact absurd hshadows.2.1 (Nat.not_le.mpr (hshort p hp hshadows.1))

/-- A suffix under which names are registered leaves them alone. -/
example : bundled.prune (["ads.co.uk", "x.ads.co.uk", "co.uk"].map String.toList) =
    (["ads.co.uk", "co.uk"].map String.toList, 1) := by decide +kernel

end ContentFilter.SuffixRules
