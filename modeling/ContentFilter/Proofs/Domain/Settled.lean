import ContentFilter.Proofs.Domain.Pruning
import ContentFilter.Proofs.Text.Lower
import Mathlib.Data.List.Induction
import Mathlib.Data.List.Nodup

/-! # Names in normal form

White space is taken off a name before the dots behind it. White space in front of these dots stays,
and only a second pass takes it off. All else that is asked of a name is settled by one pass.
Pruning a list a second time changes nothing but such names.

* `Domain.EndsBlank`, `Domain.endsBlank_normalize_iff`: white space that is left.
* `Domain.IsNormalForm`, `Domain.IsNormalForm.normalize_eq_self_iff`: the names that one pass
  settles.
* `SuffixRules.prune_eq_self_iff`, `SuffixRules.prune_kept_iff`: the lists that pruning settles.
-/

set_option autoImplicit false

namespace ContentFilter

open Text

namespace Domain

/-! ## White space that is left -/

def EndsBlank (d : Text) : Prop := ∃ c ∈ d.getLast?, isBlank c = true

instance (d : Text) : Decidable (EndsBlank d) :=
  inferInstanceAs (Decidable (∃ c ∈ d.getLast?, _))

theorem not_endsBlank_iff {d : Text} :
    ¬ EndsBlank d ↔ ∀ c, d.getLast? = some c → isBlank c = false := by
  simp only [EndsBlank, Option.mem_def, not_exists, not_and, Bool.not_eq_true]

/-- White space is left where it stands in front of the dots at the end. -/
theorem endsBlank_normalize_iff {t : Text} : EndsBlank (normalize t) ↔
    ∃ front b dots, strip (lower t) = front ++ b :: dots ∧ isBlank b = true ∧
      ∀ c ∈ dots, c = '.' := by
  constructor
  · rintro ⟨b, hlast, hb⟩
    obtain ⟨front, hfront⟩ := List.getLast?_eq_some_iff.mp hlast
    obtain ⟨dots, hstrip, hdots⟩ := exists_eq_dropEndWhile_append (· = '.') (strip (lower t))
    rw [← normalize, hfront, List.append_assoc, List.singleton_append] at hstrip
    exact ⟨front, b, dots, hstrip, hb, fun c hc => of_decide_eq_true (hdots c hc)⟩
  · rintro ⟨front, b, dots, hstrip, hb, hdots⟩
    have hdot : decide (b = '.') = false := by
      refine decide_eq_false ?_
      rintro rfl
      exact absurd hb (by decide)
    have hnone : dropEndWhile (· = '.') dots = [] :=
      dropEndWhile_append (fun c hc => decide_eq_true (hdots c hc)) []
    refine ⟨b, ?_, hb⟩
    rw [normalize, hstrip, dropEndWhile_append_cons hdot, hnone]
    exact List.getLast?_concat

/-! ## Normal forms -/

/-- A name in the form in which names are compared. -/
def IsNormalForm (d : Text) : Prop := ∃ t, normalize t = d

theorem isNormalForm_normalize (t : Text) : IsNormalForm (normalize t) := ⟨t, rfl⟩

theorem lower_normalize (t : Text) : lower (normalize t) = normalize t := by
  have hsub : (normalize t).Sublist (lower t) :=
    (dropEndWhile_sublist _ _).trans (dropAroundWhile_sublist _ _)
  exact lower_eq_self fun c hc => isSmall_of_mem_lower c (hsub.subset hc)

theorem head?_normalize {t : Text} {c : Char} (h : (normalize t).head? = some c) :
    isBlank c = false := by
  obtain ⟨cs, hcs⟩ := List.head?_eq_some_iff.mp h
  obtain ⟨dots, hstrip, -⟩ := exists_eq_dropEndWhile_append (· = '.') (strip (lower t))
  rw [← normalize, hcs, List.cons_append] at hstrip
  have hhead : (strip (lower t)).head? = some c := by rw [hstrip, List.head?_cons]
  exact head?_dropAroundWhile hhead

/-- A second pass changes exactly the names with white space left at their end. -/
theorem IsNormalForm.normalize_eq_self_iff {d : Text} (h : IsNormalForm d) :
    normalize d = d ↔ ¬ EndsBlank d := by
  obtain ⟨t, rfl⟩ := h
  rw [not_endsBlank_iff]
  constructor
  · intro hself
    have hshorter : (normalize t).Sublist (strip (normalize t)) := by
      have hdots := dropEndWhile_sublist (· = '.') (strip (lower (normalize t)))
      rwa [← normalize, hself, lower_normalize] at hdots
    have hstrip : strip (normalize t) = normalize t :=
      (dropAroundWhile_sublist isBlank (normalize t)).antisymm hshorter
    rw [← hstrip]
    exact fun c => getLast?_dropEndWhile
  · intro hlast
    have hstrip : strip (normalize t) = normalize t :=
      dropAroundWhile_eq_self_of_ends (fun _ => head?_normalize) hlast
    have hdots : dropEndWhile (· = '.') (normalize t) = normalize t :=
      dropEndWhile_eq_self fun c hc => decide_eq_false fun hdot =>
        getLast?_normalize t (hdot ▸ hc)
    calc normalize (normalize t)
        = dropEndWhile (· = '.') (strip (lower (normalize t))) := rfl
      _ = normalize t := by rw [lower_normalize, hstrip, hdots]

end Domain

/-! ## First occurrences -/

section

variable {α : Type} [BEq α] [LawfulBEq α]

theorem eraseDups_concat (l : List α) (a : α) :
    (l ++ [a]).eraseDups = if a ∈ l then l.eraseDups else l.eraseDups ++ [a] := by
  rw [List.eraseDups_append]
  by_cases ha : a ∈ l <;> simp [List.removeAll, ha, List.eraseDups_cons]

theorem nodup_eraseDups (l : List α) : l.eraseDups.Nodup := by
  induction l using List.reverseRecOn with
  | nil => exact List.nodup_nil
  | append_singleton l a ih =>
    rw [eraseDups_concat]
    split
    · exact ih
    next ha =>
      rw [List.nodup_append_comm, List.singleton_append, List.nodup_cons]
      exact ⟨mt List.mem_eraseDups.mp ha, ih⟩

theorem eraseDups_sublist (l : List α) : l.eraseDups.Sublist l := by
  induction l using List.reverseRecOn with
  | nil => exact List.Sublist.slnil
  | append_singleton l a ih =>
    rw [eraseDups_concat]
    split
    · exact ih.trans (List.sublist_append_left l [a])
    · exact ih.append_right [a]

theorem eraseDups_eq_self {l : List α} (h : l.Nodup) : l.eraseDups = l := by
  induction l using List.reverseRecOn with
  | nil => rfl
  | append_singleton l a ih =>
    obtain ⟨hl, -, hdisjoint⟩ := List.nodup_append.mp h
    have ha : a ∉ l := fun hmem => hdisjoint a hmem a (List.mem_singleton_self a) rfl
    rw [eraseDups_concat, if_neg ha, ih hl]

end

namespace SuffixRules

open Domain

/-! ## Pruning twice -/

theorem nodup_distinctNames (names : List Text) : (distinctNames names).Nodup := by
  rw [distinctNames_eq]
  exact nodup_eraseDups _

theorem distinctNames_sublist (names : List Text) :
    (distinctNames names).Sublist (names.map normalize) := by
  rw [distinctNames_eq]
  exact (eraseDups_sublist _).trans List.filter_sublist

/-- The lists that are made of their own names. -/
theorem distinctNames_eq_self_iff {ds : List Text} : distinctNames ds = ds ↔
    ds.Nodup ∧ ∀ d ∈ ds, normalize d = d ∧ d ≠ [] ∧ d ∉ localNames := by
  constructor
  · intro hself
    have hmap : ds = ds.map normalize := by
      have hsub := distinctNames_sublist ds
      rw [hself] at hsub
      exact hsub.eq_of_length (List.length_map normalize).symm
    have hnormal : ∀ d ∈ ds, normalize d = d :=
      List.map_inj_left.mp (hmap.symm.trans (List.map_id ds).symm)
    refine ⟨hself ▸ nodup_distinctNames ds, fun d hd => ⟨hnormal d hd, ?_⟩⟩
    have hcounts := (mem_distinctNames.mp (hself.symm ▸ hd)).2
    simpa [isLocal] using hcounts
  · rintro ⟨hnodup, hall⟩
    have hmap : ds.map normalize = ds :=
      (List.map_congr_left fun d hd => (hall d hd).1).trans (List.map_id ds)
    have hcount : (ds.filter fun d => d ≠ [] ∧ d ∉ localNames) = ds :=
      List.filter_eq_self.mpr fun d hd => decide_eq_true (hall d hd).2
    rw [distinctNames_eq, hmap, hcount, eraseDups_eq_self hnodup]

/-- The lists that pruning leaves as they are. -/
theorem prune_eq_self_iff {s : SuffixRules} {ds : List Text} : s.prune ds = (ds, 0) ↔
    distinctNames ds = ds ∧ ∀ d ∈ ds, ∀ p ∈ ds, ¬ s.Shadows p d := by
  have hlength := length_prune s ds
  constructor
  · intro hself
    have hkept := prune_fst s ds
    rw [hself] at hlength hkept
    have hdistinct : distinctNames ds = ds := by
      have hsub : ds.Sublist (distinctNames ds) := by
        have hfilter := List.filter_sublist (l := distinctNames ds)
          (p := fun n => ∀ p ∈ distinctNames ds, ¬ s.Shadows p n)
        rwa [← hkept] at hfilter
      exact (hsub.eq_of_length hlength).symm
    rw [hdistinct] at hkept
    exact ⟨hdistinct, fun d hd => of_decide_eq_true (List.filter_eq_self.mp hkept.symm d hd)⟩
  · rintro ⟨hdistinct, hclear⟩
    have hkept : (s.prune ds).1 = ds := by
      rw [prune_fst, hdistinct]
      exact List.filter_eq_self.mpr fun d hd => decide_eq_true (hclear d hd)
    rw [hkept, hdistinct] at hlength
    exact Prod.ext hkept (by omega)

theorem isNormalForm_of_mem_prune {s : SuffixRules} {names : List Text} {d : Text}
    (h : d ∈ (s.prune names).1) : IsNormalForm d := by
  obtain ⟨t, -, ht⟩ := List.mem_map.mp (mem_distinctNames.mp (mem_prune.mp h).1).1
  exact ⟨t, ht⟩

/-- What pruning keeps is pruned no further, unless white space is left at the end of a name. -/
theorem prune_kept_iff (s : SuffixRules) (names : List Text) :
    s.prune (s.prune names).1 = ((s.prune names).1, 0) ↔
      ∀ d ∈ (s.prune names).1, ¬ EndsBlank d := by
  have hlisted : ∀ d ∈ (s.prune names).1, d ∈ distinctNames names := fun d hd =>
    (mem_prune.mp hd).1
  have hnodup : (s.prune names).1.Nodup := by
    rw [prune_fst]
    exact (nodup_distinctNames names).filter _
  have hclear : ∀ d ∈ (s.prune names).1, ∀ p ∈ (s.prune names).1, ¬ s.Shadows p d :=
    fun d hd p hp => (mem_prune_iff.mp hd).2 p (hlisted p hp)
  have hcounts : ∀ d ∈ (s.prune names).1, d ≠ [] ∧ d ∉ localNames := fun d hd => by
    simpa [isLocal] using (mem_distinctNames.mp (hlisted d hd)).2
  rw [prune_eq_self_iff, and_iff_left hclear, distinctNames_eq_self_iff, and_iff_right hnodup]
  refine forall₂_congr fun d hd => ?_
  rw [and_iff_left (hcounts d hd), (isNormalForm_of_mem_prune hd).normalize_eq_self_iff]

end SuffixRules

end ContentFilter
