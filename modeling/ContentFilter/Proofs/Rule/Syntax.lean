import ContentFilter.Proofs.Rule.Line
import ContentFilter.Proofs.Text.CaseFold
import Mathlib.Data.List.Forall2

/-! # The syntax of network rules

A network rule is written with anchors around its pattern and its modifiers behind a dollar sign.
Whatever names, case and order they are written in, the line is read as that rule.

* `Modifier.Written`: the ways to write a modifier.
* `NetworkRule.text`: the text of a rule, with `NetworkRule.Modified` for its modifiers.
* `NetworkRule.ofText_text`: the line is read as the rule.
-/

set_option autoImplicit false

namespace ContentFilter

open Text

/-! ## Words -/

/-- A character that keeps a word apart from others. -/
def IsReserved (c : Char) : Prop := isBlank c = true ∨ c ∈ [',', '$', '#']

instance (c : Char) : Decidable (IsReserved c) := inferInstanceAs (Decidable (_ ∨ _))

theorem isSmall_of_isReserved {c : Char} (h : IsReserved c) : IsSmall c := by
  have hmarks : ∀ d ∈ [',', '$', '#'], d.toNat < 0x80 ∧ ¬ ('A' ≤ d ∧ d ≤ 'Z') :=
    forall_mem_of_all (by decide)
  rcases h with hblank | hmark
  · exact isSmall_of_isBlank hblank
  · exact isSmall_of_ascii (hmarks c hmark).1 (hmarks c hmark).2

theorem not_isReserved_of_lower {t : Text} (h : ∀ c ∈ lower t, ¬ IsReserved c) :
    ∀ c ∈ t, ¬ IsReserved c :=
  fun c hc hreserved => h c (mem_lower (isSmall_of_isReserved hreserved) hc) hreserved

theorem not_isReserved_of_isPlainChar {c : Char} (h : Domain.IsPlainChar c) : ¬ IsReserved c := by
  rintro (hblank | hmark)
  · exact absurd hblank (by simp [h.isBlank_eq])
  · have hmarks : ∀ d ∈ [',', '$', '#'], ¬ Domain.IsPlainChar d := forall_mem_of_all (by decide)
    exact hmarks c hmark h

namespace Modifier

/-- The names in lower case of the modifiers without domains. -/
def names : List Text := partyNames.map Prod.fst ++ resourceNames.map Prod.fst

/-- The ways to write a modifier: a name of a table in any case, or a list of plain domains. What is
written with any other name of letters, digits, hyphens and underscores is no modifier. -/
inductive Written : Text → Option Modifier → Prop
  | party {word : Text} {p : Party} (h : (lower word, p) ∈ partyNames) :
      Written word (some (.party p))
  | resource {word : Text} {t : ResourceType} (h : (lower word, t) ∈ resourceNames) :
      Written word (some (.resource t))
  | domains {word t : Text} {s : DomainScope} (h : lower word = domainsMark ++ t)
      (hlists : s.Lists '|' t) : Written word (some (.domains s))
  | unknown {word : Text} (hne : word ≠ [])
      (hchars : ∀ c ∈ word, isAlphanumeric c = true ∨ c = '-' ∨ c = '_')
      (hname : lower word ∉ names) : Written word none

theorem not_isReserved_names :
    ∀ n ∈ domainsMark :: names, n ≠ [] ∧ ∀ c ∈ n, ¬ IsReserved c := by
  have hall : ∀ n ∈ domainsMark :: names, n ≠ [] ∧ n.all (fun c => ¬ IsReserved c) = true := by
    decide
  exact fun n hn => (hall n hn).imp_right forall_mem_of_all

theorem partyNames_read : ∀ e ∈ partyNames,
    startsWith e.1 domainsMark = false ∧ partyNames.lookup e.1 = some e.2 := by
  decide

theorem resourceNames_read : ∀ e ∈ resourceNames, startsWith e.1 domainsMark = false ∧
    partyNames.lookup e.1 = none ∧ resourceNames.lookup e.1 = some e.2 := by
  decide

namespace Written

variable {word : Text} {o : Option Modifier}

theorem not_isReserved (h : Written word o) : ∀ c ∈ word, ¬ IsReserved c := by
  cases h with
  | party h =>
    have hname : lower word ∈ names := List.mem_append_left _ (List.mem_map_of_mem h)
    exact not_isReserved_of_lower (not_isReserved_names _ (List.mem_cons_of_mem _ hname)).2
  | resource h =>
    have hname : lower word ∈ names := List.mem_append_right _ (List.mem_map_of_mem h)
    exact not_isReserved_of_lower (not_isReserved_names _ (List.mem_cons_of_mem _ hname)).2
  | domains h hlists =>
    refine not_isReserved_of_lower fun c hc => ?_
    rw [h, List.mem_append] at hc
    rcases hc with hmark | hlist
    · exact (not_isReserved_names domainsMark List.mem_cons_self).2 c hmark
    · rcases hlists.mem hlist with rfl | rfl | hplain
      · decide
      · decide
      · exact not_isReserved_of_isPlainChar hplain
  | unknown hne hchars hname =>
    rintro c hc (hblank | hmark)
    · rcases hchars c hc with halphanumeric | rfl | rfl
      · exact absurd hblank (by simp [isBlank_of_isAlphanumeric halphanumeric])
      · exact absurd hblank (by decide)
      · exact absurd hblank (by decide)
    · have hmarks : ∀ d ∈ [',', '$', '#'],
          ¬ (isAlphanumeric d = true ∨ d = '-' ∨ d = '_') := forall_mem_of_all (by decide)
      exact hmarks c hmark (hchars c hc)

theorem ne_nil (h : Written word o) : lower word ≠ [] := by
  cases h with
  | party h =>
    have hname : lower word ∈ names := List.mem_append_left _ (List.mem_map_of_mem h)
    exact (not_isReserved_names _ (List.mem_cons_of_mem _ hname)).1
  | resource h =>
    have hname : lower word ∈ names := List.mem_append_right _ (List.mem_map_of_mem h)
    exact (not_isReserved_names _ (List.mem_cons_of_mem _ hname)).1
  | domains h hlists =>
    rw [h]
    exact List.append_ne_nil_of_left_ne_nil (not_isReserved_names _ List.mem_cons_self).1 _
  | unknown hne => exact lower_ne_nil hne

theorem ofName?_eq (h : Written word o) : ofName? (lower word) = o := by
  cases h with
  | party h =>
    obtain ⟨hmark, hlookup⟩ := partyNames_read _ h
    rw [ofName?, hmark, hlookup]
    rfl
  | resource h =>
    obtain ⟨hmark, hparty, hlookup⟩ := resourceNames_read _ h
    rw [ofName?, hmark, hparty, hlookup]
    rfl
  | domains h hlists => rw [h, ofName?_domains hlists]
  | unknown hne hchars hname =>
    have hmark : startsWith (lower word) domainsMark = false := by
      refine startsWith_eq_false (c := '=') (by decide) fun hmem => ?_
      exact absurd (hchars '=' (mem_of_mem_lower (by decide) hmem)) (by decide)
    have hnone : ∀ {α : Type} (table : List (Text × α)), lower word ∉ table.map Prod.fst →
        table.lookup (lower word) = none := by
      intro α table htable
      rw [List.lookup_eq_none_iff]
      intro e he
      rw [bne_iff_ne]
      exact fun heq => htable (heq ▸ List.mem_map_of_mem he)
    rw [names, List.mem_append, not_or] at hname
    rw [ofName?, hmark, hnone _ hname.1, hnone _ hname.2]
    rfl

/-- A word is read as what is written with it. -/
theorem read?_eq (h : Written word o) : read? word = some o := by
  have hstrip : strip word = word := strip_eq_self fun c hc => by
    simpa [IsReserved] using mt Or.inl (h.not_isReserved c hc)
  have hsome : (lower word).isEmpty = false := by simpa using h.ne_nil
  rw [read?, hstrip, hsome, h.ofName?_eq]
  rfl

end Written

end Modifier

/-! ## Rules -/

namespace NetworkRule

/-- Modifiers come to the resource types, the party and the domains of a rule. At most one of them
is about the party and at most one about domains. -/
structure Modified (r : NetworkRule) (os : List (Option Modifier)) : Prop where
  resourceTypes : ∀ t, t ∈ r.resourceTypes ↔ t ∈ os.filterMap Modifier.resource?
  party : os.filterMap Modifier.party? = [] ∧ r.party = .any ∨
    os.filterMap Modifier.party? = [r.party]
  scope : os.filterMap Modifier.scope? = [] ∧ r.scope = {} ∨
    os.filterMap Modifier.scope? = [r.scope]

def anchorText : Anchor → Text
  | .anywhere => []
  | .start => ['|']
  | .domain => ['|', '|']

/-- A pattern between its anchors. -/
def patternText (r : NetworkRule) : Text :=
  anchorText r.anchor ++ (r.pattern ++ (if r.separator then ['^'] else []) ++
    if r.endAnchored then ['|'] else [])

/-- Words behind a dollar sign. -/
def modifiersText : List Text → Text
  | [] => []
  | words => '$' :: join [','] words

/-- The text of a rule with words for its modifiers. -/
def text (r : NetworkRule) (words : List Text) : Text :=
  (if r.isException then "@@".toList else []) ++ (r.patternText ++ modifiersText words)

/-- The characters that do not stand in plain patterns, white space aside. -/
def patternMarks : Text := ['$', '#', '\\', '!', '[', '@']

/-- A pattern in which nothing can be taken for a part of the syntax around it. -/
structure IsPlainPattern (pattern : Text) : Prop where
  chars : ∀ c ∈ pattern, isBlank c = false ∧ c ∉ patternMarks
  head : pattern.head? ≠ some '|'
  label : startsWith pattern "*.".toList = false
  last : pattern.getLast? ≠ some '|' ∧ pattern.getLast? ≠ some '^'

/-! ## Patterns between anchors -/

theorem takeLast_append {c : Char} {t : Text} (h : t.getLast? ≠ some c) (b : Bool) :
    takeLast c (t ++ if b then [c] else []) = (b, t) := by
  cases b with
  | true =>
    have hends : endsWith (t ++ [c]) [c] = true := by
      rw [endsWith, List.isSuffixOf_iff_suffix]
      exact List.suffix_append t [c]
    rw [if_pos rfl, takeLast, hends, if_pos rfl, List.dropLast_concat]
  | false =>
    have hends : endsWith t [c] = false := by
      rw [endsWith, Bool.eq_false_iff, ne_eq, List.isSuffixOf_iff_suffix]
      rintro ⟨u, rfl⟩
      exact h List.getLast?_concat
    rw [if_neg Bool.false_ne_true, List.append_nil, takeLast, hends, if_neg Bool.false_ne_true]

theorem readAnchor_append {a : Anchor} {t : Text} (hhead : t.head? ≠ some '|')
    (hlabel : startsWith t "*.".toList = false) : readAnchor (anchorText a ++ t) = (a, t) := by
  have hbar : ∀ cs, t ≠ '|' :: cs := by
    rintro cs rfl
    exact hhead rfl
  have hstar : ∀ cs, t ≠ '*' :: '.' :: cs := by
    rintro cs rfl
    exact absurd hlabel (by simp [startsWith])
  cases a with
  | domain =>
    rw [anchorText, List.cons_append, List.cons_append, List.nil_append, readAnchor]
    exact hstar
  | start =>
    rw [anchorText, List.cons_append, List.nil_append, readAnchor]
    · rintro cs rfl
      exact hbar _ rfl
    · exact hbar
  | anywhere =>
    rw [anchorText, List.nil_append, readAnchor]
    · exact fun cs => hbar _
    · exact fun cs => hbar _
    · exact hbar

variable {r : NetworkRule} {floor : Nat}

theorem pattern_ne_nil (hlong : 1 ≤ significantLength r.pattern) : r.pattern ≠ [] := by
  intro hnil
  rw [hnil] at hlong
  exact absurd hlong (by decide)

/-- Nothing behind a pattern that is more than a star makes it start with a wildcard label. -/
theorem startsWith_append_eq_false {pattern : Text} (hlong : 1 ≤ significantLength pattern)
    (hlabel : startsWith pattern "*.".toList = false) (t : Text) :
    startsWith (pattern ++ t) "*.".toList = false := by
  cases pattern with
  | nil => exact absurd hlong (by decide)
  | cons c cs =>
    cases cs with
    | nil =>
      have hstar : c ≠ '*' := by
        rintro rfl
        exact absurd hlong (by decide)
      simp [startsWith, List.isPrefixOf, hstar.symm]
    | cons d ds => exact hlabel

/-- The pattern of a rule comes back from between its anchors. -/
theorem ofPattern_patternText (hpattern : IsPlainPattern r.pattern)
    (hlong : 1 ≤ significantLength r.pattern) :
    ofPattern r.patternText =
      { pattern := r.pattern, anchor := r.anchor, endAnchored := r.endAnchored,
        separator := r.separator } := by
  have hbar : (r.pattern ++ if r.separator then ['^'] else []).getLast? ≠ some '|' := by
    cases r.separator with
    | true => simp
    | false => simpa using hpattern.last.1
  have hanchor := readAnchor_append (a := r.anchor)
    (t := r.pattern ++ (if r.separator then ['^'] else []) ++ if r.endAnchored then ['|'] else [])
    (by
      rw [List.append_assoc, List.head?_append_of_ne_nil _ (pattern_ne_nil hlong)]
      exact hpattern.head)
    (by
      rw [List.append_assoc]
      exact startsWith_append_eq_false hlong hpattern.label _)
  rw [ofPattern, patternText, hanchor]
  simp only [takeLast_append hbar, takeLast_append hpattern.last.2]

/-! ## Lines -/

theorem mem_patternText {c : Char} (h : c ∈ r.patternText) : c = '|' ∨ c = '^' ∨ c ∈ r.pattern := by
  have hanchor : ∀ a, c ∈ anchorText a → c = '|' := by
    intro a hc
    cases a <;> simp_all [anchorText]
  simp only [patternText, List.mem_append, List.mem_ite_nil_right, List.mem_singleton] at h
  rcases h with h | (h | ⟨-, h⟩) | ⟨-, h⟩
  · exact .inl (hanchor _ h)
  · exact .inr (.inr h)
  · exact .inr (.inl h)
  · exact .inl h

/-- A pattern and its anchors have neither marks nor white space in them. -/
theorem IsPlainPattern.text (h : IsPlainPattern r.pattern) {c : Char} (hc : c ∈ r.patternText) :
    isBlank c = false ∧ c ∉ patternMarks := by
  rcases mem_patternText hc with rfl | rfl | hmem
  · decide
  · decide
  · exact h.chars c hmem

variable {words : List Text} {os : List (Option Modifier)}

theorem not_isReserved_of_mem (hwords : List.Forall₂ Modifier.Written words os) :
    ∀ word ∈ words, ∀ c ∈ word, ¬ IsReserved c := by
  induction hwords with
  | nil => nofun
  | cons hword _ ih => exact List.forall_mem_cons.mpr ⟨hword.not_isReserved, ih⟩

theorem filterMap_read? (hwords : List.Forall₂ Modifier.Written words os) :
    words.filterMap Modifier.read? = os := by
  induction hwords with
  | nil => rfl
  | cons hword _ ih => rw [List.filterMap_cons_some hword.read?_eq, ih]

theorem mem_modifiersText (hwords : List.Forall₂ Modifier.Written words os) {c : Char}
    (hc : c ∈ modifiersText words) : c = '$' ∨ c = ',' ∨ ¬ IsReserved c := by
  cases words with
  | nil => exact absurd hc List.not_mem_nil
  | cons word words =>
    refine (List.mem_cons.mp hc).imp_right fun hc => (mem_of_mem_join hc).imp_right ?_
    rintro ⟨piece, hpiece, hmem⟩
    exact not_isReserved_of_mem hwords piece hpiece c hmem

/-- A rule is cut between its pattern and its modifiers, and these come to what is written. -/
theorem splitModifiers_text (hpattern : IsPlainPattern r.pattern)
    (hwords : List.Forall₂ Modifier.Written words os) :
    (splitModifiers (r.patternText ++ modifiersText words)).1 = r.patternText ∧
      Line.modifiersOf (r.patternText ++ modifiersText words) = os.foldl Modifiers.note {} := by
  have hdollar : '$' ∉ r.patternText := fun hc => absurd (hpattern.text hc).2 (by decide)
  have hescape : r.patternText.getLast? ≠ some '\\' := fun hlast =>
    absurd (hpattern.text (List.mem_of_getLast? hlast)).2 (by decide)
  cases hwords with
  | nil =>
    rw [modifiersText, List.append_nil, Line.modifiersOf,
      splitModifiers_eq_self (dollarsEscaped_of_notMem hdollar)]
    exact ⟨rfl, rfl⟩
  | @cons word o words os hword hrest =>
    have hall := not_isReserved_of_mem (.cons hword hrest)
    have hescaped : DollarsEscaped (join [','] (word :: words)) :=
      dollarsEscaped_join fun piece hpiece =>
        dollarsEscaped_of_notMem fun hc => absurd (hall piece hpiece _ hc) (by decide)
    have hpieces : split ',' (join [','] (word :: words)) = word :: words :=
      split_join (by simp) fun piece hpiece hc => absurd (hall piece hpiece _ hc) (by decide)
    have htext : modifiersText (word :: words) = '$' :: join [','] (word :: words) := rfl
    rw [htext, Line.modifiersOf, splitModifiers_append hescape hescaped]
    refine ⟨rfl, ?_⟩
    show (split ',' (join [','] (word :: words))).foldl Modifiers.add {} = _
    rw [hpieces, Modifiers.foldl_add, filterMap_read? (.cons hword hrest)]

/-- The text of a pattern is no regular expression, unless the pattern has the slashes of one and
stands alone. -/
theorem isRegexPattern_patternText
    (hregex : r.anchor = .anywhere → r.separator = false → r.endAnchored = false →
      ¬ (startsWith r.pattern ['/'] = true ∧ endsWith r.pattern ['/'] = true)) :
    Line.isRegexPattern r.patternText = false := by
  have hends : ∀ t c, c ≠ '/' → endsWith (t ++ [c]) ['/'] = false := by
    intro t c hc
    rw [endsWith, Bool.eq_false_iff, ne_eq, List.isSuffixOf_iff_suffix]
    rintro ⟨u, hu⟩
    exact hc (List.append_inj' hu rfl |>.2 |> List.cons.inj |>.1 |>.symm)
  unfold Line.isRegexPattern patternText
  cases hend : r.endAnchored with
  | true => rw [if_pos rfl, ← List.append_assoc, hends _ _ (by decide), Bool.and_false]
  | false =>
    rw [if_neg Bool.false_ne_true, List.append_nil]
    cases hseparator : r.separator with
    | true => rw [if_pos rfl, ← List.append_assoc, hends _ _ (by decide), Bool.and_false]
    | false =>
      rw [if_neg Bool.false_ne_true, List.append_nil]
      cases hanchor : r.anchor with
      | domain => simp [anchorText, startsWith, List.isPrefixOf]
      | start => simp [anchorText, startsWith, List.isPrefixOf]
      | anywhere =>
        have hnone := hregex hanchor hseparator hend
        rw [anchorText, List.nil_append, Bool.and_assoc]
        simp_all

theorem networkRule_text (hpattern : IsPlainPattern r.pattern)
    (hlong : 1 ≤ significantLength r.pattern) (hwords : List.Forall₂ Modifier.Written words os)
    (hmodified : r.Modified os) :
    Line.networkRule r.isException (r.patternText ++ modifiersText words) = r := by
  obtain ⟨hcut, hmodifiers⟩ := splitModifiers_text hpattern hwords
  have htypes : (os.foldl Modifiers.note {}).resourceTypes = r.resourceTypes := by
    refine SortedSet.ext fun t => ?_
    have hnone : t ∉ ({} : Modifiers).resourceTypes := SortedSet.not_mem_empty t
    rw [Modifiers.mem_resourceTypes_foldl, hmodified.resourceTypes, or_iff_right hnone]
  have hparty : (os.foldl Modifiers.note {}).party = r.party := by
    rw [Modifiers.party_foldl]
    rcases hmodified.party with ⟨hnone, hany⟩ | hone
    · rw [hnone, hany]
      rfl
    · rw [hone]
      rfl
  have hscope : (os.foldl Modifiers.note {}).scope = r.scope := by
    rw [Modifiers.scope_foldl]
    rcases hmodified.scope with ⟨hnone, hall⟩ | hone
    · rw [hnone, hall]
      rfl
    · rw [hone]
      rfl
  rw [Line.networkRule, hcut, hmodifiers, ofPattern_patternText hpattern hlong, htypes, hparty,
    hscope]

theorem patternText_eq_cons (hpattern : IsPlainPattern r.pattern)
    (hlong : 1 ≤ significantLength r.pattern) :
    ∃ c cs, r.patternText = c :: cs ∧ c ∉ patternMarks := by
  cases htext : r.patternText with
  | nil =>
    have hnil : r.pattern = [] := by
      simp only [patternText, List.append_eq_nil_iff] at htext
      exact htext.2.1.1
    exact absurd hnil (pattern_ne_nil hlong)
  | cons c cs =>
    exact ⟨c, cs, rfl, (hpattern.text (htext ▸ List.mem_cons_self)).2⟩

/-- A rule without the mark of an exception is its pattern with its modifiers. -/
theorem body_text (hpattern : IsPlainPattern r.pattern) (hlong : 1 ≤ significantLength r.pattern)
    (words : List Text) : Line.isException (r.text words) = r.isException ∧
      Line.body (r.text words) = r.patternText ++ modifiersText words := by
  unfold Line.body
  cases hexception : r.isException with
  | true =>
    have htext : r.text words = '@' :: '@' :: (r.patternText ++ modifiersText words) := by
      rw [text, hexception]
      rfl
    have hmark : Line.isException (r.text words) = true := by
      rw [htext]
      rfl
    rw [hmark, if_pos rfl, htext]
    exact ⟨rfl, rfl⟩
  | false =>
    obtain ⟨c, cs, hcons, hc⟩ := patternText_eq_cons hpattern hlong
    have htext : r.text words = r.patternText ++ modifiersText words := by
      rw [text, hexception]
      rfl
    have hat : '@' ≠ c := by
      rintro rfl
      exact absurd hc (by decide)
    have hmark : Line.isException (r.text words) = false := by
      rw [htext, hcons]
      simp [Line.isException, startsWith, List.isPrefixOf, hat]
    rw [hmark, if_neg Bool.false_ne_true, htext]
    exact ⟨rfl, rfl⟩

theorem mem_text (hpattern : IsPlainPattern r.pattern)
    (hwords : List.Forall₂ Modifier.Written words os) {c : Char} (hc : c ∈ r.text words) :
    isBlank c = false ∧ c ≠ '#' := by
  rw [text, List.mem_append, List.mem_append] at hc
  rcases hc with hmark | hmem | hmem
  · have hat : c = '@' := by
      cases hexception : r.isException <;> simp_all
    subst hat
    decide
  · obtain ⟨hblank, hmarks⟩ := hpattern.text hmem
    refine ⟨hblank, ?_⟩
    rintro rfl
    exact absurd hmarks (by decide)
  · rcases mem_modifiersText hwords hmem with rfl | rfl | hreserved
    · decide
    · decide
    · rw [IsReserved, not_or, Bool.not_eq_true] at hreserved
      refine ⟨hreserved.1, ?_⟩
      rintro rfl
      exact absurd hreserved.2 (by decide)

/-- The text of a rule is read as a network rule. -/
theorem isNetwork_text (hpattern : IsPlainPattern r.pattern)
    (hlong : 1 ≤ significantLength r.pattern)
    (hregex : r.isException = false → Line.isRegexPattern r.patternText = false)
    (hwords : List.Forall₂ Modifier.Written words os) : Line.IsNetwork (r.text words) := by
  obtain ⟨hmark, hbody⟩ := body_text hpattern hlong words
  obtain ⟨c, cs, hcons, hc⟩ : ∃ c cs, r.text words = c :: cs ∧ c ∉ ['!', '#', '['] := by
    obtain ⟨d, ds, hd, hdmarks⟩ := patternText_eq_cons hpattern hlong
    rw [text, hd]
    cases r.isException with
    | true => exact ⟨'@', _, rfl, by decide⟩
    | false =>
      refine ⟨d, _, rfl, fun hmem => hdmarks ?_⟩
      have hmarks : ∀ m ∈ ['!', '#', '['], m ∈ patternMarks := forall_mem_of_all (by decide)
      exact hmarks d hmem
  simp only [List.mem_cons, List.not_mem_nil, or_false, not_or] at hc
  obtain ⟨hbang, hhash, hbracket⟩ := hc
  constructor
  case ne_nil => simp [hcons]
  case comment =>
    simp [hcons, startsWith, List.isPrefixOf, hhash, Ne.symm hbang, Ne.symm hhash]
  case header => simp [hcons, startsWith, List.isPrefixOf, Ne.symm hbracket]
  case cosmetic =>
    exact fun _ => Line.cosmeticMarker?_eq_none fun hmem => (mem_text hpattern hwords hmem).2 rfl
  case hosts =>
    refine fun _ => Line.hostsNames?_eq_none ?_
    rintro ⟨-, d, hd, hblank⟩
    have hmem : d ∈ r.text words := (List.dropWhile_sublist _).subset (List.mem_of_head? hd)
    exact absurd hblank (by simp [(mem_text hpattern hwords hmem).1])
  case regex =>
    intro hnone
    rw [Line.body, hnone, if_neg Bool.false_ne_true] at hbody
    rw [hbody, (splitModifiers_text hpattern hwords).1]
    exact hregex (hmark ▸ hnone)

/-! ## Words for every rule -/

open Modifier

theorem exists_written_resource {t : ResourceType} (h : t ≠ .svgDocument) :
    ∃ word, Written word (some (.resource t)) := by
  have hnames : ∀ u ∈ ResourceType.all, u ≠ .svgDocument →
      ∃ e ∈ resourceNames, lower e.1 = e.1 ∧ e.2 = u := by
    decide
  have hall : t ∈ ResourceType.all := by cases t <;> decide
  obtain ⟨e, he, hlower, rfl⟩ := hnames t hall h
  exact ⟨e.1, .resource (hlower.symm ▸ he)⟩

/-- Resource types with names can be written one after the other. -/
theorem exists_written_resources {ts : List ResourceType} (h : .svgDocument ∉ ts) :
    ∃ words, List.Forall₂ Written words (ts.map fun t => some (.resource t)) := by
  induction ts with
  | nil => exact ⟨[], .nil⟩
  | cons t ts ih =>
    rw [List.mem_cons, not_or] at h
    obtain ⟨word, hword⟩ := exists_written_resource (Ne.symm h.1)
    obtain ⟨words, hwords⟩ := ih h.2
    exact ⟨word :: words, .cons hword hwords⟩

/-- What is said about a party; nothing where it is anyone's. -/
def partyModifiers (p : Party) : List (Option Modifier) :=
  if p = .any then [] else [some (.party p)]

theorem exists_written_party (p : Party) :
    ∃ words, List.Forall₂ Written words (partyModifiers p) := by
  cases p with
  | any => exact ⟨[], .nil⟩
  | first => exact ⟨["first-party".toList], .cons (.party (by decide)) .nil⟩
  | third => exact ⟨["third-party".toList], .cons (.party (by decide)) .nil⟩

/-- The domains of a scope can be written one after the other. -/
theorem exists_written_domains {s : DomainScope}
    (hincluded : ∀ d ∈ s.included, Domain.IsPlainName d)
    (hexcluded : ∀ d ∈ s.excluded, Domain.IsPlainName d) :
    ∃ word, Written word (some (.domains s)) := by
  let entries : List (Bool × Text) :=
    s.included.toList.map (false, ·) ++ s.excluded.toList.map (true, ·)
  have hlists : s.Lists '|' (join ['|'] (entries.map DomainScope.entryText)) := by
    refine ⟨entries, rfl, fun e he => ?_, fun d => ?_, fun d => ?_⟩
    · rcases List.mem_append.mp he with hmem | hmem
      · obtain ⟨d, hd, rfl⟩ := List.mem_map.mp hmem
        exact hincluded d hd
      · obtain ⟨d, hd, rfl⟩ := List.mem_map.mp hmem
        exact hexcluded d hd
    · simp [entries, SortedSet.mem_toList]
    · simp [entries, SortedSet.mem_toList]
  have hascii : ∀ c ∈ domainsMark ++ ['|', '~'], c.toNat < 0x80 ∧ ¬ ('A' ≤ c ∧ c ≤ 'Z') :=
    forall_mem_of_all (by decide)
  have hlower : lower (domainsMark ++ join ['|'] (entries.map DomainScope.entryText)) =
      domainsMark ++ join ['|'] (entries.map DomainScope.entryText) := by
    refine lower_eq_self fun c hc => ?_
    have hcases : c ∈ domainsMark ++ ['|', '~'] ∨ Domain.IsPlainChar c := by
      rcases List.mem_append.mp hc with hmark | hlist
      · exact .inl (List.mem_append_left _ hmark)
      · rcases hlists.mem hlist with rfl | rfl | hplain
        · exact .inl (by decide)
        · exact .inl (by decide)
        · exact .inr hplain
    rcases hcases with hmark | hplain
    · exact isSmall_of_ascii (hascii c hmark).1 (hascii c hmark).2
    · exact isSmall_of_ascii hplain.ascii.1 hplain.ascii.2
  exact ⟨_, .domains hlower hlists⟩

/-- The modifiers of a rule can be written, if its domains are plain and none of its resource types
is without a name. -/
theorem exists_written (hsvg : .svgDocument ∉ r.resourceTypes)
    (hincluded : ∀ d ∈ r.scope.included, Domain.IsPlainName d)
    (hexcluded : ∀ d ∈ r.scope.excluded, Domain.IsPlainName d) :
    ∃ words os, List.Forall₂ Written words os ∧ r.Modified os := by
  obtain ⟨resources, hresources⟩ := exists_written_resources hsvg
  obtain ⟨parties, hparties⟩ := exists_written_party r.party
  obtain ⟨word, hword⟩ := exists_written_domains hincluded hexcluded
  refine ⟨_, _, List.rel_append hresources (List.rel_append hparties (.cons hword .nil)), ?_⟩
  have htypes : (r.resourceTypes.toList.map fun t => some (Modifier.resource t)).filterMap
      resource? = r.resourceTypes.toList := by
    simp [List.filterMap_map, Function.comp_def, resource?]
  unfold partyModifiers
  constructor
  case resourceTypes =>
    intro t
    rw [List.filterMap_append, htypes]
    split_ifs <;> simp [resource?, SortedSet.mem_toList]
  case party =>
    split_ifs with hany
    · exact .inl ⟨by simp [party?, Function.comp_def], hany⟩
    · exact .inr (by simp [party?, Function.comp_def])
  case scope =>
    split_ifs <;> exact .inr (by simp [List.filterMap_cons, scope?, Function.comp_def])

/-! ## The rule of a line -/

/-- A rule can be written, and it comes back from each of its texts, with the number of the words
that are no modifiers. -/
theorem ofText_text (hfloor : 1 ≤ floor) (hpattern : IsPlainPattern r.pattern)
    (hlong : floor ≤ significantLength r.pattern)
    (hregex : r.isException = false → r.anchor = .anywhere → r.separator = false →
      r.endAnchored = false →
        ¬ (startsWith r.pattern ['/'] = true ∧ endsWith r.pattern ['/'] = true))
    (hsvg : .svgDocument ∉ r.resourceTypes)
    (hincluded : ∀ d ∈ r.scope.included, Domain.IsPlainName d)
    (hexcluded : ∀ d ∈ r.scope.excluded, Domain.IsPlainName d) :
    (∃ words os, List.Forall₂ Modifier.Written words os ∧ r.Modified os) ∧
      ∀ words os, List.Forall₂ Modifier.Written words os → r.Modified os →
        Line.ofText floor (r.text words) = .rules (.network r) [] (os.countP Option.isNone) ∧
        (Line.ofText floor (r.text words)).reason = "network".toList := by
  refine ⟨exists_written hsvg hincluded hexcluded, fun words os hwords hmodified => ?_⟩
  have hone : 1 ≤ significantLength r.pattern := hfloor.trans hlong
  have hstrip : strip (r.text words) = r.text words :=
    strip_eq_self fun c hc => (mem_text hpattern hwords hc).1
  have hnetwork : Line.IsNetwork (r.text words) := isNetwork_text hpattern hone
    (fun hblock => isRegexPattern_patternText (hregex hblock)) hwords
  obtain ⟨hmark, hbody⟩ := body_text hpattern hone words
  have hline : Line.ofText floor (r.text words) =
      .rules (.network r) [] (os.countP Option.isNone) := by
    rw [Line.ofText_eq_ofNetwork (hstrip.symm ▸ hnetwork), hstrip, hmark, hbody, Line.ofNetwork_eq,
      networkRule_text hpattern hone hwords hmodified, if_neg (Nat.not_lt.mpr hlong),
      (splitModifiers_text hpattern hwords).2, Modifiers.ignored_foldl, Nat.zero_add]
  rw [hline]
  exact ⟨rfl, rfl⟩

/-- The pages of a shop without those of its blog. -/
def shopPages : DomainScope :=
  ⟨SortedSet.ofList ["shop.example".toList], SortedSet.ofList ["blog.shop.example".toList]⟩

theorem lists_shopPages : shopPages.Lists '|' "~blog.shop.example|shop.example".toList := by
  refine ⟨[(true, "blog.shop.example".toList), (false, "shop.example".toList)], by decide,
    by decide +kernel, fun d => ?_, fun d => ?_⟩
  · exact SortedSet.mem_ofList.trans (by simp)
  · exact SortedSet.mem_ofList.trans (by simp)

/-- A rule with all its parts. -/
def shopRule : NetworkRule where
  pattern := "ads.example/p*th".toList
  resourceTypes := SortedSet.ofList [.raw, .script]
  party := .third
  scope := shopPages
  anchor := .domain
  endAnchored := true
  separator := true

/-- Words for its modifiers, a name that is not known among them. -/
def shopWords : List Text :=
  ["XHR", "Script", "pop-Under_2", "ping", "dOmain=~blog.shop.example|shop.example", "~1P"].map
    String.toList

def shopModifiers : List (Option Modifier) :=
  [some (.resource .raw), some (.resource .script), none, some (.resource .raw),
    some (.domains shopPages), some (.party .third)]

theorem written_shopWords : List.Forall₂ Modifier.Written shopWords shopModifiers := by
  have hunknown : Modifier.Written "pop-Under_2".toList none :=
    .unknown (by decide) (forall_mem_of_all (by decide)) (by decide)
  exact .cons (.resource (by decide)) (.cons (.resource (by decide)) (.cons hunknown
    (.cons (.resource (by decide)) (.cons (.domains (by decide) lists_shopPages)
      (.cons (.party (by decide)) .nil)))))

theorem ofText_text_shopRule :
    1 ≤ 3 ∧ IsPlainPattern shopRule.pattern ∧ 3 ≤ significantLength shopRule.pattern ∧
      shopRule.anchor ≠ .anywhere ∧ .svgDocument ∉ shopRule.resourceTypes ∧
      (∀ d ∈ shopRule.scope.included, Domain.IsPlainName d) ∧
      (∀ d ∈ shopRule.scope.excluded, Domain.IsPlainName d) ∧
      List.Forall₂ Modifier.Written shopWords shopModifiers ∧ shopRule.Modified shopModifiers ∧
      Line.ofText 3 ("||ads.example/p*th^|$XHR,Script,pop-Under_2,ping," ++
        "dOmain=~blog.shop.example|shop.example,~1P").toList = .rules (.network shopRule) [] 1 := by
  have hpattern : IsPlainPattern shopRule.pattern :=
    ⟨forall_mem_of_all (by decide +kernel), by decide, by decide, by decide⟩
  have hlong : 3 ≤ significantLength shopRule.pattern := by decide
  have hanchor : shopRule.anchor ≠ .anywhere := by decide
  have hsvg : .svgDocument ∉ shopRule.resourceTypes := by decide +kernel
  obtain ⟨hincluded, hexcluded⟩ := lists_shopPages.isPlainName
  have hmodified : shopRule.Modified shopModifiers := by
    refine ⟨fun t => ?_, .inr rfl, .inr rfl⟩
    cases t <;> decide +kernel
  have htext : shopRule.text shopWords = ("||ads.example/p*th^|$XHR,Script,pop-Under_2,ping," ++
      "dOmain=~blog.shop.example|shop.example,~1P").toList := by
    decide +kernel
  have hread := (ofText_text (by decide) hpattern hlong (fun _ hany => absurd hany hanchor) hsvg
    hincluded hexcluded).2 shopWords shopModifiers written_shopWords hmodified
  exact ⟨by decide, hpattern, hlong, hanchor, hsvg, hincluded, hexcluded, written_shopWords,
    hmodified, htext ▸ hread.1⟩

end NetworkRule

end ContentFilter
