import ContentFilter.Proofs.Pattern.UrlFilter

/-! # Patterns that end in a backslash

A backslash makes the character behind it a literal. Where a pattern ends in a backslash that is not
itself behind one, it is written as it is: it then turns what the rule adds behind the pattern into
a literal, and when the rule adds nothing the expression cannot be read.

* `Pattern.toRegex_of_incomplete`: the expression for such a pattern.
* `NetworkRule.dangles`: rules whose expression ends in a lone backslash.
* `NetworkRule.parse_urlFilter_of_not_dangles`, `NetworkRule.parse_urlFilter_of_dangles`: the
  expressions of all other rules can be read, and theirs cannot.
-/

set_option autoImplicit false

namespace ContentFilter

open Text Regex Pattern

/-! ## Reading up to a fault -/

namespace Regex

section

variable {depth : Nat}

theorem readSequence_backslash (fuel : Nat) :
    readSequence fuel depth ['\\'] = .error .malformed := by
  cases fuel with
  | zero => rfl
  | succ fuel => cases fuel <;> rfl

/-- A fault behind items is found when they have been read. -/
theorem Spells.readSequence_error {t rest : Text} {items : List Regex} {e : Regex.Fault}
    (h : Spells depth t items) (hmark : mark? rest = .ok none)
    (hrest : ∀ fuel, readSequence fuel depth rest = .error e) :
    ∀ fuel, 3 * t.length < fuel → readSequence fuel depth (t ++ rest) = .error e := by
  induction h with
  | nil => exact fun fuel _ => hrest fuel
  | @cons t behind r items first others ih =>
    intro fuel hfuel
    obtain ⟨c, cs, hopens, -⟩ := first.opens
    have hpos : 0 < t.length := by simp [hopens]
    rw [List.length_append] at hfuel
    obtain ⟨fuel, rfl⟩ : ∃ k, fuel = k + 1 := ⟨fuel - 1, by omega⟩
    have hbehind : mark? (behind ++ rest) = .ok none := others.mark?_append hmark
    rw [List.append_assoc, first.read fuel _ (by omega) hbehind, ih fuel (by omega)]
    rfl

theorem Spells.parse_append_backslash {t : Text} {items : List Regex}
    (h : Spells nestingLimit t items) : Regex.parse (t ++ ['\\']) = .error .malformed := by
  have hread := h.readSequence_error rfl readSequence_backslash
    (3 * (t ++ ['\\']).length + 2) (by rw [List.length_append]; omega)
  simp only [Regex.parse, readAlternatives, hread, bind, Except.bind]

end

end Regex

/-! ## Incomplete patterns -/

namespace Pattern

/-- What is incomplete ends in a backslash, and what stands before it is complete. -/
theorem toRegex_of_incomplete {t : Text} (ht : isComplete t = false) :
    ∃ p, isComplete p = true ∧ toRegex t = toRegex p ++ ['\\'] := by
  induction t using toRegex.induct with
  | case1 => exact absurd ht (by decide)
  | case2 c cs ih =>
    rw [isComplete] at ht
    obtain ⟨p, hp, hregex⟩ := ih ht
    exact ⟨'\\' :: c :: p, hp, by rw [toRegex, toRegex, hregex, List.append_assoc]⟩
  | case3 c cs hescape ih =>
    by_cases hc : c = '\\'
    · -- a backslash that is not before a character is the last one
      subst hc
      cases cs with
      | nil => exact ⟨[], rfl, rfl⟩
      | cons d ds => exact absurd rfl (hescape d ds rfl)
    · have hnext : ∀ (rest : Text) (d : Char) (ds : Text), c = '\\' → rest = d :: ds → False :=
        fun _ _ _ heq _ => hc heq
      have hrest : isComplete cs = false := by
        rw [isComplete] at ht
        · simpa [hc] using ht
        · exact hescape
      obtain ⟨p, hp, hregex⟩ := ih hrest
      refine ⟨c :: p, ?_, ?_⟩
      · rw [isComplete]
        · simp [hc, hp]
        · exact hnext p
      · rw [toRegex, toRegex, hregex, List.append_assoc]
        · exact hnext p
        · exact hescape

/-! ## What stands behind a pattern -/

/-- What a rule adds behind its pattern. -/
def closing (rule : NetworkRule) : Text :=
  (if rule.separator then separators else []) ++ (if rule.endAnchored then ['$'] else [])

theorem urlFilter_eq (rule : NetworkRule) :
    rule.urlFilter = opening rule.anchor ++ toRegex rule.pattern ++ closing rule := by
  rw [NetworkRule.urlFilter, closing]
  simp only [List.append_assoc]

section

variable {depth : Nat}

/-- A separator whose bracket is a literal. -/
theorem spells_escaped_separators :
    Spells depth ('\\' :: separators)
      [.char '[', .char '/', .iterate .greedy 0 (some 1) (.char ':'), .char ']'] := by
  have hopen : Reads depth ['\\', '['] (.char '[') := (item_escaped rfl).reads
  have hslash : Reads depth ['/'] (.char '/') := (item_plain (by decide)).reads
  have hcolon : Reads depth ([':'] ++ ['?']) (.iterate .greedy 0 (some 1) (.char ':')) :=
    (item_plain (by decide)).repeated rfl fun rest => rfl
  have hclose : Spells depth [']'] [.char ']'] := (item_plain (by decide)).spells
  exact .cons hopen (.cons hslash (.cons hcolon hclose))

/-- What a rule adds behind a pattern is read also behind a lone backslash. -/
theorem exists_spells_escaped_closing {rule : NetworkRule}
    (h : rule.separator = true ∨ rule.endAnchored = true) :
    ∃ items, Spells depth ('\\' :: closing rule) items := by
  rw [closing]
  cases hseparator : rule.separator with
  | true =>
    cases rule.endAnchored with
    | true => exact ⟨_, spells_escaped_separators.append item_finish.spells⟩
    | false => exact ⟨_, spells_escaped_separators⟩
  | false =>
    rw [h.resolve_left (by simp [hseparator])]
    exact ⟨_, (item_escaped rfl).spells⟩

end

end Pattern

/-! ## Rules -/

namespace NetworkRule

/-- Whether the pattern of a rule ends in a backslash that is not behind one, and the rule adds
nothing behind it. -/
def dangles (r : NetworkRule) : Bool := !isComplete r.pattern && !r.separator && !r.endAnchored

/-- The expression for a rule that does not dangle can be read. -/
theorem parse_urlFilter_of_not_dangles {rule : NetworkRule} (h : rule.dangles = false) :
    ∃ re, Regex.parse rule.urlFilter = .ok re := by
  cases hcomplete : isComplete rule.pattern with
  | true => exact ⟨_, (spells_urlFilter hcomplete).parse⟩
  | false =>
    have hclosing : rule.separator = true ∨ rule.endAnchored = true := by
      simpa [dangles, hcomplete, Classical.or_iff_not_imp_left] using h
    obtain ⟨p, hp, hregex⟩ := toRegex_of_incomplete hcomplete
    obtain ⟨items, hitems⟩ : ∃ items, Spells nestingLimit ('\\' :: closing rule) items :=
      exists_spells_escaped_closing hclosing
    have hall := ((spells_opening rule.anchor).append (spells_toRegex hp)).append hitems
    have htext : rule.urlFilter =
        opening rule.anchor ++ toRegex p ++ '\\' :: closing rule := by
      rw [urlFilter_eq, hregex]
      simp only [List.append_assoc, List.singleton_append]
    rw [htext]
    exact ⟨_, hall.parse⟩

/-- The expression for a rule that dangles cannot be read: it ends in a lone backslash. -/
theorem parse_urlFilter_of_dangles {rule : NetworkRule} (h : rule.dangles = true) :
    Regex.parse rule.urlFilter = .error .malformed := by
  simp only [dangles, Bool.and_eq_true, Bool.not_eq_true'] at h
  obtain ⟨⟨hcomplete, hseparator⟩, hend⟩ := h
  obtain ⟨p, hp, hregex⟩ := toRegex_of_incomplete hcomplete
  have htext : rule.urlFilter = opening rule.anchor ++ toRegex p ++ ['\\'] := by
    rw [urlFilter_eq, closing, hseparator, hend, hregex]
    simp
  rw [htext]
  exact ((spells_opening rule.anchor).append (spells_toRegex hp)).parse_append_backslash

end NetworkRule

end ContentFilter
