import ContentFilter.Proofs.Rule.Syntax

/-! # Regular expressions

A regular expression stands between slashes. A line that is one is not supported, unless a dollar
sign cuts the closing slash off: then what stands before the dollar sign is read as a pattern. In an
exception every expression is read as a pattern.

* `exists_cut_or_dollarsEscaped`: every text is cut at a dollar sign or has them all escaped.
* `Line.slashed`, `Line.KeepsSlash`: texts between slashes, and those that are not cut.
* `Line.ofText_slashed_eq`, `Line.ofText_exception_slashed`: what lines with such texts are read as.
* `Line.ofText_slashed`: when they are not supported, and when they hold a network rule.
-/

set_option autoImplicit false

namespace ContentFilter

open Text

/-! ## The last dollar sign -/

/-- A backslash escapes the dollar sign behind it. -/
theorem DollarsEscaped.escape {t : Text} (h : DollarsEscaped t) :
    DollarsEscaped ('\\' :: '$' :: t) := by
  rintro (_ | ⟨c, _ | ⟨d, u⟩⟩) v hsplit
  · cases hsplit
  · obtain ⟨rfl, -⟩ := List.cons.inj hsplit
    rfl
  · obtain ⟨rfl, htail⟩ := List.cons.inj hsplit
    obtain ⟨rfl, hrest⟩ := List.cons.inj htail
    have hlast := h u v hrest
    rw [List.getLast?_cons, List.getLast?_cons, hlast]
    rfl

/-- The last dollar sign that is not escaped, if there is one. -/
theorem exists_cut_or_dollarsEscaped (t : Text) : DollarsEscaped t ∨
    ∃ head options, t = head ++ '$' :: options ∧ head.getLast? ≠ some '\\' ∧
      DollarsEscaped options := by
  induction t with
  | nil => exact .inl (dollarsEscaped_of_notMem List.not_mem_nil)
  | cons c cs ih =>
    have hnil : DollarsEscaped [] := dollarsEscaped_of_notMem List.not_mem_nil
    rcases ih with hescaped | ⟨head, options, rfl, hhead, hoptions⟩
    · by_cases hc : c = '$'
      · exact .inr ⟨[], cs, by rw [hc, List.nil_append], by simp, hescaped⟩
      · exact .inl (hnil.append_cons hescaped hc)
    · cases head with
      | cons d ds => exact .inr ⟨c :: d :: ds, options, rfl, by simpa using hhead, hoptions⟩
      | nil =>
        by_cases hc : c = '\\'
        · exact .inl (hc ▸ hoptions.escape)
        · exact .inr ⟨[c], options, rfl, by simpa using hc, hoptions⟩

namespace Line

/-! ## Texts between slashes -/

/-- A text between slashes, which is how regular expressions are written. -/
def slashed (b : Text) : Text := '/' :: (b ++ ['/'])

/-- No dollar sign cuts the closing slash off: all are escaped, or what stands before the last one
that is not is an expression of its own. -/
def KeepsSlash (b : Text) : Prop :=
  DollarsEscaped b ∨ ∃ u v, b = u ++ '/' :: '$' :: v ∧ u ≠ [] ∧ DollarsEscaped v

variable {b : Text}

theorem dollarsEscaped_slashed (h : DollarsEscaped b) : DollarsEscaped (slashed b) := by
  have hnil : DollarsEscaped [] := dollarsEscaped_of_notMem List.not_mem_nil
  exact hnil.append_cons (h.append_cons hnil (by decide)) (by decide)

/-- A text between slashes is cut where the text is. -/
theorem splitModifiers_slashed {u v : Text} (hu : u.getLast? ≠ some '\\') (hv : DollarsEscaped v) :
    splitModifiers (slashed (u ++ '$' :: v)) = ('/' :: u, some (v ++ ['/'])) := by
  have hnil : DollarsEscaped [] := dollarsEscaped_of_notMem List.not_mem_nil
  have hlast : ('/' :: u).getLast? ≠ some '\\' := by
    cases u with
    | nil => decide
    | cons c cs => simpa using hu
  have htext : slashed (u ++ '$' :: v) = '/' :: u ++ '$' :: (v ++ ['/']) := by simp [slashed]
  rw [htext, splitModifiers_append hlast (hv.append_cons hnil (by decide))]

theorem isRegexPattern_cons_iff {u : Text} :
    isRegexPattern ('/' :: u) = true ↔ ∃ w, w ≠ [] ∧ u = w ++ ['/'] := by
  simp only [isRegexPattern, Bool.and_eq_true, decide_eq_true_eq, startsWith, endsWith,
    List.isSuffixOf_iff_suffix]
  constructor
  · rintro ⟨⟨hlength, -⟩, head, hhead⟩
    cases head with
    | nil =>
      rw [← hhead] at hlength
      exact absurd hlength (by decide)
    | cons c w =>
      obtain ⟨rfl, rfl⟩ := List.cons.inj hhead
      refine ⟨w, ?_, rfl⟩
      rintro rfl
      exact absurd hlength (by decide)
  · rintro ⟨w, hw, rfl⟩
    have hlength : 0 < w.length := List.length_pos_iff.mpr hw
    refine ⟨⟨?_, rfl⟩, '/' :: w, rfl⟩
    rw [List.length_cons, List.length_append, List.length_singleton]
    omega

/-- A line is taken for a regular expression exactly when no dollar sign cuts its closing slash
off. -/
theorem isRegexPattern_slashed_iff (hne : b ≠ []) :
    isRegexPattern (splitModifiers (slashed b)).1 = true ↔ KeepsSlash b := by
  constructor
  · intro hregex
    rcases exists_cut_or_dollarsEscaped b with hescaped | ⟨u, v, rfl, hu, hv⟩
    · exact .inl hescaped
    · rw [splitModifiers_slashed hu hv, isRegexPattern_cons_iff] at hregex
      obtain ⟨w, hw, rfl⟩ := hregex
      exact .inr ⟨w, v, by simp, hw, hv⟩
  · rintro (hescaped | ⟨u, v, rfl, hu, hv⟩)
    · rw [splitModifiers_eq_self (dollarsEscaped_slashed hescaped)]
      exact isRegexPattern_cons_iff.mpr ⟨b, hne, rfl⟩
    · have htext : u ++ '/' :: '$' :: v = (u ++ ['/']) ++ '$' :: v := by simp
      rw [htext, splitModifiers_slashed (by simp) hv]
      exact isRegexPattern_cons_iff.mpr ⟨u, hu, rfl⟩

/-! ## Lines with texts between slashes -/

/-- A character that stands in no marker makes none behind a text. -/
theorem markerHere?_concat {t : Text} (h : markerHere? t = none) {c : Char} (hnumber : c ≠ '#')
    (hmarker : isMarkerChar c = false) : markerHere? (t ++ [c]) = none := by
  cases t with
  | nil =>
    rw [List.nil_append, markerHere?]
    rintro cs ⟨⟩
    exact hnumber rfl
  | cons d ds =>
    by_cases hd : d = '#'
    · subst hd
      rw [markerHere?] at h
      rw [List.cons_append, markerHere?, List.dropWhile_append]
      cases hrest : ds.dropWhile isMarkerChar with
      | nil => simp [hmarker, hnumber]
      | cons e es =>
        have he : e ≠ '#' := by
          rintro rfl
          simp [hrest] at h
        simp [he]
    · rw [List.cons_append, markerHere?]
      rintro cs ⟨⟩
      exact hd rfl

theorem cosmeticMarker?_concat {t : Text} (h : cosmeticMarker? t = none) {c : Char}
    (hnumber : c ≠ '#') (hmarker : isMarkerChar c = false) : cosmeticMarker? (t ++ [c]) = none := by
  induction t with
  | nil =>
    have hhere : markerHere? [c] = none := markerHere?_concat (t := []) rfl hnumber hmarker
    rw [List.nil_append, cosmeticMarker?, hhere]
    rfl
  | cons d ds ih =>
    rw [cosmeticMarker?] at h
    split at h
    · cases h
    next hhere =>
    rw [Option.map_eq_none_iff] at h
    have hthere := markerHere?_concat hhere hnumber hmarker
    rw [List.cons_append] at hthere
    rw [List.cons_append, cosmeticMarker?, hthere, ih h]
    rfl

variable {floor : Nat}

theorem isBlank_of_mem_slashed (hblank : ∀ c ∈ b, isBlank c = false) :
    ∀ c ∈ slashed b, isBlank c = false := by
  intro c hc
  rw [slashed, List.mem_cons, List.mem_append, List.mem_singleton] at hc
  rcases hc with rfl | hmem | rfl
  · decide
  · exact hblank c hmem
  · decide

/-- A text between slashes is not supported, unless it is cut. -/
theorem ofText_slashed_eq (hblank : ∀ c ∈ b, isBlank c = false) (hmarker : cosmeticMarker? b = none) :
    ofText floor (slashed b) =
      if isRegexPattern (splitModifiers (slashed b)).1 then .rules (.unsupported (slashed b)) [] 0
      else ofNetwork floor false (slashed b) := by
  have hstrip : strip (slashed b) = slashed b := strip_eq_self (isBlank_of_mem_slashed hblank)
  have hcosmetic : cosmeticMarker? (slashed b) = none := by
    rw [slashed, cosmeticMarker?, cosmeticMarker?_concat hmarker (by decide) (by decide)]
    rfl
  have hhosts : hostsNames? (slashed b) = none := by
    refine hostsNames?_eq_none fun hopens => ?_
    obtain ⟨-, c, hc, -⟩ :=
      (opensHosts_append_cons (c := '/') (by decide) (by decide) [] (b ++ ['/'])).mp hopens
    cases hc
  have hrule : ofText floor (slashed b) = ofRule floor (slashed b) :=
    ofText_eq_ofRule hstrip (by decide)
  have hblock : startsWith (slashed b) "@@".toList = false := rfl
  rw [hrule, ofRule, hblock, if_neg Bool.false_ne_true, hcosmetic, hhosts]

/-- In an exception a text between slashes is read as a pattern. -/
theorem ofText_exception_slashed (hblank : ∀ c ∈ b, isBlank c = false) :
    ofText floor ("@@".toList ++ slashed b) = ofNetwork floor true (slashed b) := by
  have hstrip : strip ("@@".toList ++ slashed b) = "@@".toList ++ slashed b := by
    refine strip_eq_self fun c hc => ?_
    rcases List.mem_append.mp hc with hmark | hmem
    · exact forall_mem_of_all (t := "@@".toList) (p := fun c => isBlank c = false) (by decide) c hmark
    · exact isBlank_of_mem_slashed hblank c hmem
  have hmark : isException ("@@".toList ++ slashed b) ≠ false := by
    simp [isException, startsWith, List.isPrefixOf]
  have hnetwork : IsNetwork ("@@".toList ++ slashed b) :=
    ⟨List.cons_ne_nil _ _, rfl, rfl, fun h => absurd h hmark, fun h => absurd h hmark,
      fun h => absurd h hmark⟩
  rw [ofText_eq_ofNetwork (hstrip.symm ▸ hnetwork), hstrip]
  rfl

/-! ## What such lines come to -/

theorem exists_mem_ofNetwork_iff {isException : Bool} {t : Text} :
    (∃ r, .network r ∈ (ofNetwork floor isException t).toRules) ↔
      floor ≤ NetworkRule.significantLength (networkRule isException t).pattern := by
  rw [ofNetwork_eq]
  split
  next hshort => simp [toRules, Nat.not_le.mpr hshort]
  next hlong => simp [toRules, Nat.le_of_not_lt hlong]

theorem reason_ofNetwork_ne (floor : Nat) (isException : Bool) (t : Text) :
    (ofNetwork floor isException t).reason ≠ "unsupported".toList := by
  rw [ofNetwork_eq]
  split
  · exact (by decide : "rejected".toList ≠ "unsupported".toList)
  · exact (by decide : "network".toList ≠ "unsupported".toList)

/-- A text between slashes that is not cut is a pattern with the slashes. -/
theorem networkRule_slashed (h : DollarsEscaped b) (isException : Bool) :
    networkRule isException (slashed b) = { pattern := slashed b, isException := isException } := by
  have hlast : ∀ c, c ≠ '/' → (slashed b).getLast? ≠ some c := by
    intro c hc
    rw [slashed, ← List.cons_append, List.getLast?_concat]
    exact fun h => hc (Option.some.inj h).symm
  have hanchor : NetworkRule.readAnchor (slashed b) = (.anywhere, slashed b) :=
    NetworkRule.readAnchor_append (a := .anywhere) (by simp) rfl
  have hbar := NetworkRule.takeLast_append (hlast '|' (by decide)) false
  have hseparator := NetworkRule.takeLast_append (hlast '^' (by decide)) false
  rw [if_neg Bool.false_ne_true, List.append_nil] at hbar hseparator
  have hself := splitModifiers_eq_self (dollarsEscaped_slashed h)
  rw [networkRule, modifiersOf, hself, NetworkRule.ofPattern, hanchor]
  simp only [hbar, hseparator]

/-- Where a text between slashes is not supported, and where it holds a network rule. As a line of
its own it is a regular expression unless a dollar sign cuts its closing slash off; then it is read
as a network rule, and so is every exception, that of an expression without modifiers with the
slashes in its pattern. -/
theorem ofText_slashed (floor : Nat) {b : Text} (hne : b ≠ []) (hblank : ∀ c ∈ b, isBlank c = false)
    (hmarker : cosmeticMarker? b = none) :
    ((ofText floor (slashed b)).reason = "unsupported".toList ↔ KeepsSlash b) ∧
      ((∃ r, .network r ∈ (ofText floor (slashed b)).toRules) ↔ ¬ KeepsSlash b ∧
        floor ≤ NetworkRule.significantLength (networkRule false (slashed b)).pattern) ∧
      (ofText floor ("@@".toList ++ slashed b)).reason ≠ "unsupported".toList ∧
      ((∃ r, .network r ∈ (ofText floor ("@@".toList ++ slashed b)).toRules) ↔
        floor ≤ NetworkRule.significantLength (networkRule true (slashed b)).pattern) ∧
      (DollarsEscaped b →
        networkRule true (slashed b) = { pattern := slashed b, isException := true }) := by
  rw [ofText_exception_slashed hblank, ofText_slashed_eq hblank hmarker,
    ← isRegexPattern_slashed_iff hne]
  refine ⟨?_, ?_, reason_ofNetwork_ne _ _ _, exists_mem_ofNetwork_iff,
    fun h => networkRule_slashed h true⟩
  · split
    next hregex => exact iff_of_true rfl hregex
    next hregex => exact iff_of_false (reason_ofNetwork_ne _ _ _) hregex
  · split
    next hregex => simp [toRules, hregex]
    next hregex => rw [exists_mem_ofNetwork_iff, and_iff_right hregex]

/-- A body with a dollar sign behind which no slash is missing. -/
def bannerBody : Text := "banner\\d+/$script,3p".toList

theorem ofText_slashed_bannerBody :
    bannerBody ≠ [] ∧ (∀ c ∈ bannerBody, isBlank c = false) ∧ cosmeticMarker? bannerBody = none ∧
      (ofText 3 "/banner\\d+/$script,3p/".toList).reason = "unsupported".toList ∧
      (¬ ∃ r, .network r ∈ (ofText 3 "/banner\\d+/$script,3p/".toList).toRules) ∧
      ∃ r, .network r ∈ (ofText 3 "@@/banner\\d+/$script,3p/".toList).toRules := by
  have hne : bannerBody ≠ [] := by decide
  have hblank : ∀ c ∈ bannerBody, isBlank c = false := forall_mem_of_all (by decide)
  have hmarker : cosmeticMarker? bannerBody = none := by decide
  have hkeeps : KeepsSlash bannerBody :=
    .inr ⟨"banner\\d+".toList, "script,3p".toList, rfl, by decide,
      dollarsEscaped_of_notMem (by decide)⟩
  have hlong : 3 ≤ NetworkRule.significantLength
      (networkRule true (slashed bannerBody)).pattern := by
    decide +kernel
  obtain ⟨hreason, hnetwork, -, hexception, -⟩ := ofText_slashed 3 hne hblank hmarker
  exact ⟨hne, hblank, hmarker, hreason.mpr hkeeps, fun h => (hnetwork.mp h).1 hkeeps,
    hexception.mpr hlong⟩

/-- An expression that ends in a dollar sign is read as a pattern without its closing slash, and
that of an exception as a pattern with its slashes. -/
theorem expression_read_as_pattern :
    (∀ b ∈ ["ads".toList, "ads$".toList],
        b ≠ [] ∧ (∀ c ∈ b, isBlank c = false) ∧ cosmeticMarker? b = none) ∧
      ofText 3 "/ads$/".toList = .rules (.network { pattern := "/ads".toList }) [] 1 ∧
      ofText 3 "@@/ads/".toList =
        .rules (.network { pattern := "/ads/".toList, isException := true }) [] 0 :=
  ⟨List.forall_mem_cons.mpr ⟨⟨by decide, forall_mem_of_all (by decide), by decide⟩,
      List.forall_mem_singleton.mpr ⟨by decide, forall_mem_of_all (by decide), by decide⟩⟩,
    by decide +kernel, by decide +kernel⟩

end Line

end ContentFilter
