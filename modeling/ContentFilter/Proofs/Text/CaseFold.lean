import ContentFilter.Proofs.Text.Cut
import ContentFilter.Proofs.Text.Lower
import ContentFilter.Text.CaseFold
import Mathlib.Data.List.Forall2
import Mathlib.Tactic.Common

/-! # Characters without case

A character below the letters of ASCII is the same letter as no other character.

* `Text.IsMark`: such a character.
* `Text.sameLetter_mark`: what it is compared with has to be the character itself.
* `Text.mem_foldVariants_mark`: nor do others stand for it in a set.
* `Text.SameLetters`: texts that are the same up to case.
-/

set_option autoImplicit false

namespace ContentFilter.Text

/-! ## Marks -/

/-- A character below the letters of ASCII; zero, which stands for no character, is left out. -/
def IsMark (c : Char) : Prop := 0 < c.toNat ∧ c.toNat ≤ 0x40

instance (c : Char) : Decidable (IsMark c) := inferInstanceAs (Decidable (_ ∧ _))

/-! ## Tables -/

theorem sharedCapitals_above : ∀ s ∈ sharedCapitals, ∀ n ∈ s,
    0x40 < n ∧ 0x40 < (Char.ofNat n).toNat := by
  decide +kernel

theorem sharedWith?_above {n : Nat} {s : List Nat} (h : sharedWith? n = some s) :
    ∀ m ∈ s, 0x40 < m ∧ 0x40 < (Char.ofNat m).toNat :=
  sharedCapitals_above s (List.mem_of_find?_eq_some h)

theorem sharedWith?_mark {n : Nat} (hn : n ≤ 0x40) : sharedWith? n = none := by
  rw [sharedWith?, List.find?_eq_none]
  intro s hs hcontains
  have hlow := (sharedCapitals_above s hs n (by simpa using hcontains)).1
  omega

/-! ## Lower case -/

theorem toLower_above {c : Char} (hc : 0x40 < c.toNat) : 0x40 < c.toLower.toNat := by
  delta Char.toLower
  split
  next h =>
    show 0x40 < (c.val + 32).toNat
    have hval : c.val.toNat = c.toNat := rfl
    have hhigh : c.val.toNat ≤ 90 := by simpa using UInt32.le_iff_toNat_le.mp h.2
    rw [UInt32.toNat_add]
    simp
    omega
  · exact hc

theorem toLower_eq_mark {c p : Char} (hp : p.toNat ≤ 0x40) : c.toLower = p ↔ c = p := by
  by_cases hc : 0x40 < c.toNat
  · have habove := toLower_above hc
    constructor <;> rintro rfl <;> omega
  · delta Char.toLower
    rw [dif_neg]
    rintro ⟨hlow, -⟩
    have hval : c.val.toNat = c.toNat := rfl
    have : 65 ≤ c.val.toNat := by simpa using UInt32.le_iff_toNat_le.mp hlow
    omega

/-- The small letters of what lies outside ASCII are no marks. -/
theorem lowerChar_above {c : Char} (hc : 0x80 ≤ c.toNat) : 0x40 < (lowerChar c).toNat := by
  rw [lowerChar, if_neg (by omega)]
  split
  next r hfind =>
    have hrun : r.contains c.toNat = true := by simpa using List.find?_some hfind
    have hr := List.mem_of_find?_eq_some hfind
    have hshift := toNat_ofNat_shift hr hrun
    have hlow := (lowerRuns_above r hr).2.1
    simp only [LowerRun.contains, Bool.and_eq_true, decide_eq_true_eq] at hrun
    omega
  · omega

theorem lowerChar_eq_mark {c p : Char} (hp : p.toNat ≤ 0x40) (h : lowerChar c = p) : c = p := by
  by_cases hc : c.toNat < 0x80
  · rw [lowerChar, if_pos hc] at h
    exact (toLower_eq_mark hp).mp h
  · have habove := lowerChar_above (c := c) (by omega)
    rw [h] at habove
    omega

theorem mem_of_mem_lowerFrom {p : Char} (hp : p.toNat ≤ 0x40) {seen t : Text}
    (h : p ∈ lowerFrom seen t) : p ∈ t := by
  have hnever : ∀ c : Char, 0x40 < c.toNat → p ≠ c := by
    rintro c hc rfl
    omega
  induction t generalizing seen with
  | nil => exact h
  | cons c cs ih =>
    rw [lowerFrom] at h
    split_ifs at h
    · rcases List.mem_cons.mp h with heq | h
      · exact absurd heq (hnever 'i' (by decide))
      rcases List.mem_cons.mp h with heq | h
      · exact absurd heq (hnever (Char.ofNat 0x307) (by decide))
      · exact List.mem_cons_of_mem c (ih h)
    · rcases List.mem_cons.mp h with heq | h
      · exact absurd heq (hnever (Char.ofNat 0x3C2) (by decide))
      · exact List.mem_cons_of_mem c (ih h)
    · rcases List.mem_cons.mp h with heq | h
      · exact absurd heq (hnever (Char.ofNat 0x3C3) (by decide))
      · exact List.mem_cons_of_mem c (ih h)
    · rcases List.mem_cons.mp h with heq | h
      · exact List.mem_cons.mpr (.inl (lowerChar_eq_mark hp heq.symm).symm)
      · exact List.mem_cons_of_mem c (ih h)

/-- The marks of a text in lower case have been in it before. -/
theorem mem_of_mem_lower {p : Char} (hp : p.toNat ≤ 0x40) {t : Text} (h : p ∈ lower t) : p ∈ t :=
  mem_of_mem_lowerFrom hp h

theorem fold_above {c : Char} (hc : 0x80 ≤ c.toNat) : 0x40 < (fold c).toNat := by
  rw [fold, if_neg (by omega)]
  split
  · decide
  · dsimp only
    split
    next n ns hshared => exact (sharedWith?_above hshared n (by simp)).2
    next => exact lowerChar_above hc

/-- Only a mark itself folds to it. -/
theorem fold_eq_mark {c p : Char} (hp : IsMark p) : fold c = p ↔ c = p := by
  by_cases hc : c.toNat < 0x80
  · rw [fold, if_pos hc]
    exact toLower_eq_mark hp.2
  · have habove := fold_above (c := c) (by omega)
    constructor
    · rintro rfl
      exact absurd hp.2 (by omega)
    · rintro rfl
      exact absurd hp.2 (by omega)

theorem sameLetter_mark {c p : Char} (hp : IsMark p) : sameLetter p c = true ↔ c = p := by
  have hself : fold p = p := (fold_eq_mark hp).mpr rfl
  rw [sameLetter, decide_eq_true_eq, hself, eq_comm]
  exact fold_eq_mark hp

theorem sameLetter_comm (c d : Char) : sameLetter c d = sameLetter d c := by
  simp only [sameLetter, eq_comm]

/-! ## Sets -/

theorem capitalsOf_above (n : Nat) : ∀ m ∈ capitalsOf n, 0x40 < m := by
  intro m hm
  unfold capitalsOf at hm
  split at hm
  · simp only [List.mem_append, List.mem_ite_nil_right, List.mem_singleton, Bool.and_eq_true,
      decide_eq_true_eq] at hm
    omega
  · simp only [farCapitalsOf, List.mem_filterMap, Option.ite_none_right_eq_some,
      Option.some.injEq] at hm
    obtain ⟨r, hr, hcontains, rfl⟩ := hm
    have hfirst := (lowerRuns_above r hr).1
    simp only [LowerRun.contains, Bool.and_eq_true, decide_eq_true_eq] at hcontains
    omega

theorem mem_foldVariants_mark {c p : Char} (hp : IsMark p) :
    p.toNat ∈ foldVariants c ↔ c = p := by
  have hshared : sharedWith? p.toNat = none := sharedWith?_mark hp.2
  rw [foldVariants, List.mem_flatMap]
  constructor
  · rintro ⟨m, hm, hmem⟩
    have hself : p.toNat = m := by
      rcases List.mem_cons.mp hmem with heq | hcapital
      · exact heq
      · exact absurd (capitalsOf_above m _ hcapital) (by have := hp.2; omega)
    split at hm
    next s hs => exact absurd (sharedWith?_above hs m hm).1 (by have := hp.2; omega)
    next =>
      have hfolded : m = (fold c).toNat := List.mem_singleton.mp hm
      have hfold : fold c = p := Char.toNat_inj.mp (hfolded.symm.trans hself.symm)
      exact (fold_eq_mark hp).mp hfold
  · rintro rfl
    refine ⟨c.toNat, ?_, List.mem_cons_self⟩
    rw [(fold_eq_mark hp).mpr rfl, hshared]
    exact List.mem_singleton_self _

/-! ## Texts -/

def SameLetters : Text → Text → Prop := List.Forall₂ fun c d => sameLetter c d = true

theorem sameLetters_of_eq {t part : Text} (h : part = t) : SameLetters t part :=
  h ▸ List.forall₂_same.mpr fun _ _ => decide_eq_true rfl

/-- A mark that is not in a text is not in texts that are the same up to case. -/
theorem notMem_of_sameLetters {t part : Text} (h : SameLetters t part) {c : Char} (hmark : IsMark c)
    (hc : c ∉ t) : c ∉ part := by
  induction h with
  | nil => exact List.not_mem_nil
  | @cons a b t part hletter _ ih =>
    rw [List.mem_cons, not_or] at hc ⊢
    refine ⟨fun heq => hc.1 ?_, ih hc.2⟩
    rw [← heq, sameLetter_comm, sameLetter_mark hmark] at hletter
    exact hletter.symm

theorem sameLetters_singleton {c : Char} {t : Text} :
    SameLetters [c] t ↔ ∃ d, t = [d] ∧ sameLetter c d = true := by
  rw [SameLetters, List.forall₂_cons_left_iff]
  constructor
  · rintro ⟨d, rest, hd, hrest, rfl⟩
    rw [List.forall₂_nil_left_iff] at hrest
    exact ⟨d, by rw [hrest], hd⟩
  · rintro ⟨d, rfl, hd⟩
    exact ⟨d, [], hd, .nil, rfl⟩

theorem sameLetters_append {first second t : Text} :
    SameLetters (first ++ second) t ↔
      ∃ p q, t = p ++ q ∧ SameLetters first p ∧ SameLetters second q := by
  constructor
  · intro h
    have htake := List.forall₂_take first.length h
    have hdrop := List.forall₂_drop first.length h
    rw [List.take_left] at htake
    rw [List.drop_left] at hdrop
    exact ⟨_, _, (List.take_append_drop first.length t).symm, htake, hdrop⟩
  · rintro ⟨p, q, rfl, hp, hq⟩
    exact List.rel_append hp hq

end ContentFilter.Text
