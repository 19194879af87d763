import ContentFilter.Text.Blank
import Mathlib.Data.List.TakeWhile
import Mathlib.Tactic.Common

/-! # What is left of a text that is cut

* `Text.forall_mem_of_all`, `Text.startsWith_eq_false`: what depends on the characters of a text.
* `Text.split_eq_splitOn`, `Text.mem_of_mem_split`: the pieces of a text.
* `Text.split_join`, `Text.split_append`: the pieces of a text that is put together.
* `Text.eq_of_append_cons_eq`: a text is cut at a character in one way.
* `Text.words_append_cons`, `Text.words_eq_singleton`: the words of a text that is put together.
* `Text.mem_dropAroundWhile`, `Text.strip_strip_ne_nil`: what is left of a text without its ends.
* `Text.dropAroundWhile_eq_self`, `Text.strip_strip`, `Text.before_eq_self`,
  `Text.afterLast_eq_self`: texts of which nothing is cut off.
* `Text.before_append`, `Text.after?_append_cons`, `Text.afterLast_append_cons`: a text that is put
  together at a mark is cut there.
-/

set_option autoImplicit false

namespace ContentFilter.Text

/-- What holds of characters is tried on those of a text only, not on all there are. -/
theorem forall_mem_of_all {p : Char → Prop} [DecidablePred p] {t : Text}
    (h : t.all (fun c => p c) = true) : ∀ c ∈ t, p c := by
  simpa only [List.all_eq_true, decide_eq_true_eq] using h

/-- A text does not start with characters that are not in it. -/
theorem startsWith_eq_false {t head : Text} {c : Char} (hhead : c ∈ head) (ht : c ∉ t) :
    startsWith t head = false := by
  rw [startsWith, Bool.eq_false_iff, ne_eq, List.isPrefixOf_iff_prefix]
  exact fun hstarts => ht (hstarts.subset hhead)

theorem startsWith_cons_of_ne {c d : Char} (h : c ≠ d) (t head : Text) :
    startsWith (c :: t) (d :: head) = false := by
  simp [startsWith, List.isPrefixOf, h.symm]

/-! ## Pieces -/

theorem join_cons_cons (sep a b : Text) (pieces : List Text) :
    join sep (a :: b :: pieces) = a ++ (sep ++ join sep (b :: pieces)) := by
  rw [join, List.intercalate_cons_cons, List.append_assoc]
  rfl

theorem join_singleton (sep piece : Text) : join sep [piece] = piece := List.intercalate_singleton

theorem join_cons_eq_append (sep p : Text) (pieces : List Text) :
    ∃ tail, join sep (p :: pieces) = p ++ tail := by
  cases pieces with
  | nil => exact ⟨[], by simp [join]⟩
  | cons q qs => exact ⟨_, join_cons_cons sep p q qs⟩

theorem mem_of_mem_join {sep c : Char} {pieces : List Text} (h : c ∈ join [sep] pieces) :
    c = sep ∨ ∃ piece ∈ pieces, c ∈ piece := by
  induction pieces with
  | nil => exact absurd h List.not_mem_nil
  | cons p pieces ih =>
    cases pieces with
    | nil =>
      rw [join_singleton] at h
      exact .inr ⟨p, List.mem_cons_self, h⟩
    | cons q qs =>
      rw [join_cons_cons, List.singleton_append, List.mem_append, List.mem_cons] at h
      rcases h with hp | hsep | hrest
      · exact .inr ⟨p, List.mem_cons_self, hp⟩
      · exact .inl hsep
      · refine (ih hrest).imp_right ?_
        rintro ⟨piece, hpiece, hc⟩
        exact ⟨piece, List.mem_cons_of_mem p hpiece, hc⟩

theorem split_eq_splitOn (sep : Char) (t : Text) : split sep t = t.splitOn sep := by
  induction t with
  | nil => rfl
  | cons c cs ih =>
    rw [split, ih, List.splitOn_cons_eq_if_modifyHead]
    by_cases hc : c = sep
    · rw [if_pos hc, if_pos (beq_iff_eq.mpr hc)]
    · rw [if_neg hc, if_neg (by simpa using hc)]
      cases hpieces : cs.splitOn sep with
      | nil => exact absurd hpieces (List.splitOn_ne_nil sep cs)
      | cons piece pieces => rfl

/-- A piece has characters of the text in it, and no separators. -/
theorem mem_of_mem_split {sep : Char} {t piece : Text} (h : piece ∈ split sep t) :
    ∀ c ∈ piece, c ∈ t ∧ c ≠ sep := by
  induction t generalizing piece with
  | nil =>
    obtain rfl := List.mem_singleton.mp h
    exact fun c hc => absurd hc List.not_mem_nil
  | cons d cs ih =>
    have hold : ∀ piece ∈ split sep cs, ∀ c ∈ piece, c ∈ d :: cs ∧ c ≠ sep :=
      fun piece hpiece c hc => (ih hpiece c hc).imp_left (List.mem_cons_of_mem d)
    rw [split] at h
    by_cases hd : d = sep
    · rw [if_pos hd, List.mem_cons] at h
      rcases h with rfl | h
      · exact fun c hc => absurd hc List.not_mem_nil
      · exact hold piece h
    · rw [if_neg hd] at h
      cases hsplit : split sep cs with
      | nil => exact absurd hsplit (split_ne_nil sep cs)
      | cons first others =>
        rw [hsplit] at h hold
        rcases List.mem_cons.mp h with rfl | h
        · intro c hc
          rcases List.mem_cons.mp hc with rfl | hc
          · exact ⟨List.mem_cons_self, hd⟩
          · exact hold first List.mem_cons_self c hc
        · exact hold piece (List.mem_cons_of_mem first h)

theorem split_of_notMem {sep : Char} {t : Text} (h : sep ∉ t) : split sep t = [t] := by
  rw [split_eq_splitOn, List.splitOn_eq_singleton h]

/-- Pieces without separators in them come back from the text that they make. -/
theorem split_join {sep : Char} {pieces : List Text} (hne : pieces ≠ [])
    (h : ∀ piece ∈ pieces, sep ∉ piece) : split sep (join [sep] pieces) = pieces := by
  rw [split_eq_splitOn, join]
  exact List.splitOn_intercalate sep h hne

/-- What stands behind a text without a separator in it belongs to the last piece. -/
theorem split_append {sep : Char} {u : Text} (hu : sep ∉ u) (t : Text) :
    ∃ init last, split sep t = init ++ [last] ∧ split sep (t ++ u) = init ++ [last ++ u] := by
  induction t with
  | nil => exact ⟨[], [], rfl, split_of_notMem hu⟩
  | cons c cs ih =>
    obtain ⟨init, last, hsplit, happend⟩ := ih
    rw [List.cons_append, split, split]
    by_cases hc : c = sep
    · rw [if_pos hc, if_pos hc, hsplit, happend]
      exact ⟨[] :: init, last, rfl, rfl⟩
    · rw [if_neg hc, if_neg hc, hsplit, happend]
      cases init with
      | nil => exact ⟨[], c :: last, rfl, rfl⟩
      | cons piece pieces => exact ⟨(c :: piece) :: pieces, last, rfl, rfl⟩

/-- Two cuts of a text at characters that do not stand before them are the same. -/
theorem eq_of_append_cons_eq {xs ys : Text} {x y : Char} {xs' ys' : Text} (hx : y ∉ xs)
    (hy : x ∉ ys) (h : xs ++ x :: xs' = ys ++ y :: ys') : xs = ys ∧ x = y ∧ xs' = ys' := by
  induction xs generalizing ys with
  | nil =>
    cases ys with
    | nil =>
      obtain ⟨rfl, rfl⟩ := List.cons.inj h
      exact ⟨rfl, rfl, rfl⟩
    | cons b ys =>
      obtain ⟨rfl, -⟩ := List.cons.inj h
      exact absurd List.mem_cons_self hy
  | cons a xs ih =>
    cases ys with
    | nil =>
      obtain ⟨rfl, -⟩ := List.cons.inj h
      exact absurd List.mem_cons_self hx
    | cons b ys =>
      obtain ⟨rfl, htail⟩ := List.cons.inj h
      rw [List.mem_cons, not_or] at hx hy
      obtain ⟨rfl, hrest⟩ := ih hx.2 hy.2 htail
      exact ⟨rfl, hrest⟩

/-! ## Words -/

theorem blankPieces_ne_nil (t : Text) : blankPieces t ≠ [] := by
  cases t with
  | nil => simp [blankPieces]
  | cons c cs =>
    unfold blankPieces
    split
    · simp
    · split <;> simp

theorem blankPieces_append_cons {c : Char} (hc : isBlank c = true) (t u : Text) :
    blankPieces (t ++ c :: u) = blankPieces t ++ blankPieces u := by
  induction t with
  | nil =>
    show blankPieces (c :: u) = [] :: blankPieces u
    rw [blankPieces, if_pos hc]
  | cons d ds ih =>
    rw [List.cons_append, blankPieces, blankPieces, ih]
    split
    · rfl
    · cases hpieces : blankPieces ds with
      | nil => exact absurd hpieces (blankPieces_ne_nil ds)
      | cons piece pieces => rfl

/-- Words are cut at white space. -/
theorem words_append_cons {c : Char} (hc : isBlank c = true) (t u : Text) :
    words (t ++ c :: u) = words t ++ words u := by
  rw [words, blankPieces_append_cons hc, List.filter_append]
  rfl

theorem words_stripStart (t : Text) : words (stripStart t) = words t := by
  induction t with
  | nil => rfl
  | cons c cs ih =>
    cases hc : isBlank c with
    | true =>
      have hcut := words_append_cons hc [] cs
      rw [List.nil_append] at hcut
      rw [stripStart, List.dropWhile_cons_of_pos hc, hcut]
      exact ih
    | false => rw [stripStart, List.dropWhile_cons_of_neg (by simp [hc])]

theorem words_append {u : Text} (hu : ∀ c ∈ u, isBlank c = true) (t : Text) :
    words (u ++ t) = words t := by
  rw [← words_stripStart, stripStart, List.dropWhile_append_of_pos hu, ← stripStart,
    words_stripStart]

theorem words_eq_singleton {t : Text} (hne : t ≠ []) (h : ∀ c ∈ t, isBlank c = false) :
    words t = [t] := by
  have hpieces : blankPieces t = [t] := by
    clear hne
    induction t with
    | nil => rfl
    | cons c cs ih =>
      obtain ⟨hc, hcs⟩ := List.forall_mem_cons.mp h
      rw [blankPieces, hc, if_neg Bool.false_ne_true, ih hcs]
  rw [words, hpieces, List.filter_cons_of_pos (by simpa using hne), List.filter_nil]

/-! ## Texts without their ends -/

theorem mem_dropWhile_of_not {p : Char → Bool} {t : Text} {c : Char} (hmem : c ∈ t)
    (hkept : p c = false) : c ∈ t.dropWhile p := by
  rw [← List.takeWhile_append_dropWhile (p := p) (l := t), List.mem_append] at hmem
  rcases hmem with htaken | hleft
  · have hp : p c = true := List.mem_takeWhile_imp htaken
    exact absurd hp (by simp [hkept])
  · exact hleft

/-- A character that is not of the kind that is dropped stays. -/
theorem mem_dropAroundWhile {p : Char → Bool} {t : Text} {c : Char} (hmem : c ∈ t)
    (hkept : p c = false) : c ∈ dropAroundWhile p t := by
  have hleft : c ∈ (t.dropWhile p).reverse := List.mem_reverse.mpr (mem_dropWhile_of_not hmem hkept)
  exact List.mem_reverse.mpr (mem_dropWhile_of_not hleft hkept)

theorem dropEndWhile_sublist (p : Char → Bool) (t : Text) : (dropEndWhile p t).Sublist t := by
  simpa [dropEndWhile] using (List.dropWhile_sublist p (l := t.reverse)).reverse

theorem dropAroundWhile_sublist (p : Char → Bool) (t : Text) : (dropAroundWhile p t).Sublist t :=
  (dropEndWhile_sublist p _).trans (List.dropWhile_sublist p)

/-- What is left of a text without its ends starts with a character of another kind. -/
theorem exists_mem_of_dropAroundWhile_ne_nil {p : Char → Bool} {t : Text}
    (h : dropAroundWhile p t ≠ []) : ∃ c ∈ dropAroundWhile p t, p c = false := by
  by_contra hall
  have hblank : ∀ c ∈ t.dropWhile p, p c = true := by
    intro c hc
    by_contra hkept
    have hkept' : p c = false := by simpa using hkept
    exact hall ⟨c, List.mem_reverse.mpr
      (mem_dropWhile_of_not (List.mem_reverse.mpr hc) hkept'), hkept'⟩
  apply h
  simpa [dropAroundWhile, dropEndWhile] using hblank

theorem strip_strip_ne_nil {t : Text} (h : strip t ≠ []) : strip (strip t) ≠ [] := by
  obtain ⟨c, hc, hkept⟩ := exists_mem_of_dropAroundWhile_ne_nil h
  exact List.ne_nil_of_mem (mem_dropAroundWhile hc hkept)

theorem getLast?_dropEndWhile {p : Char → Bool} {t : Text} {c : Char}
    (h : (dropEndWhile p t).getLast? = some c) : p c = false := by
  rw [dropEndWhile, List.getLast?_reverse] at h
  have hhead := List.head?_dropWhile_not p t.reverse
  rw [h] at hhead
  simpa using hhead

/-- Nothing is dropped before a character of another kind. -/
theorem dropEndWhile_append_cons {p : Char → Bool} {c : Char} (hc : p c = false) (t u : Text) :
    dropEndWhile p (t ++ c :: u) = t ++ c :: dropEndWhile p u := by
  have hreverse : (t ++ c :: u).reverse = u.reverse ++ c :: t.reverse := by simp
  have hkept : (c :: t.reverse).dropWhile p = c :: t.reverse :=
    List.dropWhile_cons_of_neg (by simp [hc])
  rw [dropEndWhile, dropEndWhile, hreverse, List.dropWhile_append]
  split
  next hall =>
    rw [hkept, List.isEmpty_iff.mp hall]
    simp
  · simp

theorem dropEndWhile_append {p : Char → Bool} {u : Text} (hu : ∀ c ∈ u, p c = true) (t : Text) :
    dropEndWhile p (t ++ u) = dropEndWhile p t := by
  rw [dropEndWhile, List.reverse_append,
    List.dropWhile_append_of_pos fun c hc => hu c (List.mem_reverse.mp hc)]
  rfl

theorem dropAroundWhile_append {p : Char → Bool} {u : Text} (hu : ∀ c ∈ u, p c = true) (t : Text) :
    dropAroundWhile p (t ++ u) = dropAroundWhile p t := by
  rw [dropAroundWhile, List.dropWhile_append]
  split
  next hall =>
    have hnone : u.dropWhile p = [] := List.dropWhile_eq_nil_iff.mpr hu
    rw [hnone, dropAroundWhile, List.isEmpty_iff.mp hall]
  · rw [dropEndWhile_append hu]
    rfl

/-- A text is what is left of it and a tail of characters that are dropped. -/
theorem exists_eq_dropEndWhile_append (p : Char → Bool) (t : Text) :
    ∃ u, t = dropEndWhile p t ++ u ∧ ∀ c ∈ u, p c = true := by
  refine ⟨(t.reverse.takeWhile p).reverse, ?_, fun c hc => ?_⟩
  · rw [dropEndWhile, ← List.reverse_append, List.takeWhile_append_dropWhile, List.reverse_reverse]
  · exact List.mem_takeWhile_imp (List.mem_reverse.mp hc)

theorem head?_dropAroundWhile {p : Char → Bool} {t : Text} {c : Char}
    (h : (dropAroundWhile p t).head? = some c) : p c = false := by
  obtain ⟨cs, hcs⟩ := List.head?_eq_some_iff.mp h
  obtain ⟨u, hu, -⟩ := exists_eq_dropEndWhile_append p (t.dropWhile p)
  rw [dropAroundWhile] at hcs
  have hhead := List.head?_dropWhile_not p t
  rw [hu, hcs] at hhead
  simpa using hhead

/-- Nothing is dropped before a character of another kind, if the text starts with one. -/
theorem dropAroundWhile_append_cons {p : Char → Bool} {t : Text} {c : Char}
    (ht : ∀ d, t.head? = some d → p d = false) (hc : p c = false) (u : Text) :
    dropAroundWhile p (t ++ c :: u) = t ++ c :: dropEndWhile p u := by
  have hstart : (t ++ c :: u).dropWhile p = t ++ c :: u := by
    cases t with
    | nil => exact List.dropWhile_cons_of_neg (by simp [hc])
    | cons d ds => exact List.dropWhile_cons_of_neg (by simp [ht d rfl])
  rw [dropAroundWhile, hstart, dropEndWhile_append_cons hc]

/-! ## Texts that stay as they are -/

theorem dropEndWhile_eq_self {p : Char → Bool} {t : Text}
    (h : ∀ c, t.getLast? = some c → p c = false) : dropEndWhile p t = t := by
  have hhead : t.reverse.dropWhile p = t.reverse := by
    cases hrev : t.reverse with
    | nil => rfl
    | cons c cs =>
      have hlast : t.getLast? = some c := by rw [List.getLast?_eq_head?_reverse, hrev]; rfl
      exact List.dropWhile_cons_of_neg (by simp [h c hlast])
  rw [dropEndWhile, hhead, List.reverse_reverse]

/-- Nothing is dropped around a text whose ends are of another kind. -/
theorem dropAroundWhile_eq_self_of_ends {p : Char → Bool} {t : Text}
    (hhead : ∀ c, t.head? = some c → p c = false) (hlast : ∀ c, t.getLast? = some c → p c = false) :
    dropAroundWhile p t = t := by
  have hstart : t.dropWhile p = t := by
    cases t with
    | nil => rfl
    | cons c cs => exact List.dropWhile_cons_of_neg (by simp [hhead c rfl])
  rw [dropAroundWhile, hstart, dropEndWhile_eq_self hlast]

theorem dropAroundWhile_eq_self {p : Char → Bool} {t : Text} (h : ∀ c ∈ t, p c = false) :
    dropAroundWhile p t = t :=
  dropAroundWhile_eq_self_of_ends (fun c hc => h c (List.mem_of_head? hc))
    fun c hc => h c (List.mem_of_getLast? hc)

theorem strip_strip (t : Text) : strip (strip t) = strip t :=
  dropAroundWhile_eq_self_of_ends (fun _ => head?_dropAroundWhile) fun _ => getLast?_dropEndWhile

theorem strip_eq_self {t : Text} (h : ∀ c ∈ t, isBlank c = false) : strip t = t :=
  dropAroundWhile_eq_self h

theorem before_eq_self {p : Char → Bool} {t : Text} (h : ∀ c ∈ t, p c = false) :
    before p t = t := by
  rw [before, List.takeWhile_eq_self_iff]
  exact fun c hc => by simp [h c hc]

theorem afterLast_eq_self {p : Char → Bool} {t : Text} (h : ∀ c ∈ t, p c = false) :
    afterLast p t = t := by
  have hall : t.reverse.takeWhile (fun c => !p c) = t.reverse := by
    rw [List.takeWhile_eq_self_iff]
    exact fun c hc => by simp [h c (List.mem_reverse.mp hc)]
  rw [afterLast, hall, List.reverse_reverse]

/-! ## Cutting at a mark -/

section

variable {p : Char → Bool} {t u : Text}

/-- The characters of a kind in front end where a text follows that starts with another one. -/
theorem takeWhile_append_eq (ht : ∀ c ∈ t, p c = true)
    (hu : ∀ c, u.head? = some c → p c = false) : (t ++ u).takeWhile p = t := by
  rw [List.takeWhile_append_of_pos ht]
  cases u with
  | nil => simp
  | cons m u => rw [List.takeWhile_cons_of_neg (by simp [hu m rfl]), List.append_nil]

theorem dropWhile_append_eq (ht : ∀ c ∈ t, p c = true)
    (hu : ∀ c, u.head? = some c → p c = false) : (t ++ u).dropWhile p = u := by
  rw [List.dropWhile_append_of_pos ht]
  cases u with
  | nil => rfl
  | cons m u => exact List.dropWhile_cons_of_neg (by simp [hu m rfl])

theorem before_append (ht : ∀ c ∈ t, p c = false) (hu : ∀ c, u.head? = some c → p c = true) :
    before p (t ++ u) = t :=
  takeWhile_append_eq (fun c hc => by simp [ht c hc]) fun c hc => by simp [hu c hc]

/-- The rest starts at the first mark. -/
theorem dropWhile_not_append (ht : ∀ c ∈ t, p c = false)
    (hu : ∀ c, u.head? = some c → p c = true) : (t ++ u).dropWhile (fun c => !p c) = u :=
  dropWhile_append_eq (fun c hc => by simp [ht c hc]) fun c hc => by simp [hu c hc]

theorem after?_eq_none (ht : ∀ c ∈ t, p c = false) : after? p t = none := by
  induction t with
  | nil => rfl
  | cons c cs ih =>
    obtain ⟨hc, hcs⟩ := List.forall_mem_cons.mp ht
    rw [after?, hc, if_neg Bool.false_ne_true, ih hcs]

theorem after?_append_cons (ht : ∀ c ∈ t, p c = false) {m : Char} (hm : p m = true) (u : Text) :
    after? p (t ++ m :: u) = some u := by
  induction t with
  | nil => exact if_pos hm
  | cons c cs ih =>
    obtain ⟨hc, hcs⟩ := List.forall_mem_cons.mp ht
    rw [List.cons_append, after?, hc, if_neg Bool.false_ne_true, ih hcs]

/-- What stands before the last mark may have marks in it. -/
theorem afterLast_append_cons {m : Char} (hm : p m = true) (hu : ∀ c ∈ u, p c = false) (t : Text) :
    afterLast p (t ++ m :: u) = u := by
  have hreverse : (t ++ m :: u).reverse = u.reverse ++ m :: t.reverse := by simp
  have hcut : before p (u.reverse ++ m :: t.reverse) = u.reverse := by
    refine before_append (fun c hc => hu c (List.mem_reverse.mp hc)) ?_
    rintro c ⟨⟩
    exact hm
  rw [afterLast, hreverse, ← before, hcut, List.reverse_reverse]

end

end ContentFilter.Text
