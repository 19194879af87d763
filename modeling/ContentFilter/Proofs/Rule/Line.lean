import ContentFilter.Proofs.Rule.Modifier
import ContentFilter.Proofs.Rule.Pattern

/-! # Lines that are network rules

What is neither blank, a comment, a header, a cosmetic rule nor an entry of a hosts file is read as
a network rule, unless its pattern is a regular expression.

* `Line.OpensHosts`, `Line.hostsNames?_eq_none`: entries of hosts files.
* `Line.cosmeticMarker?_eq_none`, `Line.cosmeticMarker?_append`: cosmetic markers.
* `Line.networkRule`, `Line.ofNetwork_eq`: the network rule that a text spells.
* `Line.ofText_eq_ofRule`: the lines that are read as a rule.
* `Line.IsNetwork`, `Line.ofText_eq_ofNetwork`: the lines that are read as one.
-/

set_option autoImplicit false

namespace ContentFilter.Line

open Text

/-! ## Hosts files -/

/-- A line opens like an entry of a hosts file, with a blocking address and white space. -/
def OpensHosts (l : Text) : Prop :=
  isBlocking (l.takeWhile isAddressChar) = true ∧
    ∃ c, (l.dropWhile isAddressChar).head? = some c ∧ isBlank c = true

theorem hostsNames?_eq_none {l : Text} (h : ¬ OpensHosts l) : hostsNames? l = none := by
  unfold hostsNames?
  dsimp only
  split
  next hnames =>
    simp only [Bool.and_eq_true, bne_iff_ne, ne_eq] at hnames
    refine absurd ⟨hnames.1.1.1, ?_⟩ h
    -- names that differ from the rest of the line stand behind white space
    cases hrest : l.dropWhile isAddressChar with
    | nil => simp [hrest, stripStart] at hnames
    | cons c cs =>
      refine ⟨c, rfl, ?_⟩
      by_contra hblank
      refine hnames.1.1.2 ?_
      rw [hrest, stripStart, List.dropWhile_cons_of_neg hblank]
  · rfl

/-- A line that opens like an entry of a hosts file and has something else in it is one. -/
theorem not_opensHosts {l : Text} (hnone : hostsNames? l = none) (hline : '\n' ∉ l) {c : Char}
    (hc : c ∈ l) (haddress : isAddressChar c = false) (hblank : isBlank c = false) :
    ¬ OpensHosts l := by
  rintro ⟨hblocking, d, hd, hspace⟩
  have hrest : c ∈ l.dropWhile isAddressChar := mem_dropWhile_of_not hc haddress
  have hname : c ∈ stripStart (l.dropWhile isAddressChar) := mem_dropWhile_of_not hrest hblank
  have hfeed : '\n' ∉ stripStart (l.dropWhile isAddressChar) := fun hmem =>
    hline ((List.dropWhile_sublist _).subset ((List.dropWhile_sublist _).subset hmem))
  have hne : stripStart (l.dropWhile isAddressChar) ≠ l.dropWhile isAddressChar := by
    intro heq
    have hfirst := List.head?_dropWhile_not isBlank (l.dropWhile isAddressChar)
    rw [stripStart] at heq
    rw [heq, hd] at hfirst
    simp [hspace] at hfirst
  have hsome : (stripStart (l.dropWhile isAddressChar)).isEmpty = false := by
    simpa using List.ne_nil_of_mem hname
  unfold hostsNames? at hnone
  simp [hblocking, hne, hsome, hfeed] at hnone

/-- Nothing behind a character that belongs to no address makes a line open like such an entry. -/
theorem opensHosts_append_cons {c : Char} (haddress : isAddressChar c = false)
    (hblank : isBlank c = false) (t u : Text) : OpensHosts (t ++ c :: u) ↔ OpensHosts t := by
  have htake : (t ++ c :: u).takeWhile isAddressChar = t.takeWhile isAddressChar := by
    rw [List.takeWhile_append, List.takeWhile_cons_of_neg (by simp [haddress]), List.append_nil]
    split
    next hall => exact ((List.takeWhile_prefix isAddressChar).eq_of_length hall).symm
    · rfl
  unfold OpensHosts
  rw [htake, List.dropWhile_append, List.dropWhile_cons_of_neg (by simp [haddress])]
  cases t.dropWhile isAddressChar with
  | nil => simp [hblank]
  | cons d ds => simp

/-! ## Cosmetic markers -/

theorem cosmeticMarker?_eq_none {t : Text} (h : '#' ∉ t) : cosmeticMarker? t = none := by
  induction t with
  | nil => rfl
  | cons c cs ih =>
    rw [List.mem_cons, not_or] at h
    have hhere : markerHere? (c :: cs) = none := by
      rw [markerHere?]
      rintro ds ⟨rfl, -⟩
      exact h.1 rfl
    rw [cosmeticMarker?, hhere, ih h.2]
    rfl

theorem cosmeticMarker?_append {t : Text} (h : '#' ∉ t) (u : Text) :
    cosmeticMarker? (t ++ '#' :: '#' :: u) = some (t, [], u) := by
  induction t with
  | nil => rfl
  | cons c cs ih =>
    rw [List.mem_cons, not_or] at h
    have hhere : markerHere? (c :: (cs ++ '#' :: '#' :: u)) = none := by
      rw [markerHere?]
      rintro ds ⟨rfl, -⟩
      exact h.1 rfl
    rw [List.cons_append, cosmeticMarker?, hhere, ih h.2]
    rfl

/-- A marker stays one whatever stands behind it. -/
theorem markerHere?_append {t : Text} {r : Text × Text} (h : markerHere? t = some r) (u : Text) :
    (markerHere? (t ++ u)).isSome = true := by
  cases t with
  | nil => cases h
  | cons c cs =>
    by_cases hc : c = '#'
    · subst hc
      rw [markerHere?] at h
      split at h
      next rest hrest =>
        have hopen : (cs ++ u).dropWhile isMarkerChar = '#' :: (rest ++ u) := by
          rw [List.dropWhile_append, hrest]
          rfl
        rw [List.cons_append, markerHere?, hopen]
        rfl
      · cases h
    · rw [markerHere?] at h
      · cases h
      · rintro ds ⟨rfl, -⟩
        exact hc rfl

theorem cosmeticMarker?_eq_none_of_append {t u : Text} (h : cosmeticMarker? (t ++ u) = none) :
    cosmeticMarker? t = none := by
  induction t with
  | nil => rfl
  | cons c cs ih =>
    rw [List.cons_append, cosmeticMarker?] at h
    split at h
    · cases h
    next hhere =>
      rw [Option.map_eq_none_iff] at h
      have hnone : markerHere? (c :: cs) = none := by
        cases hsome : markerHere? (c :: cs) with
        | none => rfl
        | some r =>
          have hopen := markerHere?_append hsome u
          rw [List.cons_append, hhere] at hopen
          cases hopen
      rw [cosmeticMarker?, hnone, ih h]
      rfl

/-! ## Network rules -/

/-- The modifiers of a rule. -/
def modifiersOf (t : Text) : Modifiers :=
  match (splitModifiers t).2 with
  | some names => Modifiers.ofText names
  | none => {}

/-- The network rule that a text spells. -/
def networkRule (isException : Bool) (t : Text) : NetworkRule :=
  { NetworkRule.ofPattern (splitModifiers t).1 with
    isException := isException
    resourceTypes := (modifiersOf t).resourceTypes
    party := (modifiersOf t).party
    scope := (modifiersOf t).scope }

theorem ofNetwork_eq (floor : Nat) (isException : Bool) (t : Text) :
    ofNetwork floor isException t =
      if NetworkRule.significantLength (networkRule isException t).pattern < floor then
        .rejected (modifiersOf t).ignored
      else .rules (.network (networkRule isException t)) [] (modifiersOf t).ignored := rfl

/-! ## Lines -/

/-- A line that opens neither a comment nor a header is read as a rule. -/
theorem ofText_eq_ofRule {floor : Nat} {t u : Text} {c : Char} (hline : strip t = c :: u)
    (hc : c ∉ ['!', '#', '[']) : ofText floor t = ofRule floor (c :: u) := by
  simp only [List.mem_cons, List.not_mem_nil, or_false, not_or] at hc
  obtain ⟨hbang, hnumber, hbracket⟩ := hc
  have hcomment : (startsWith (c :: u) ['!'] || c :: u = ['#'] || startsWith (c :: u) ['#', ' ']) =
      false := by
    simp [startsWith_cons_of_ne hbang, startsWith_cons_of_ne hnumber, hnumber]
  rw [ofText, hline]
  simp only [hcomment, startsWith_cons_of_ne hbracket, List.isEmpty_cons, Bool.false_eq_true,
    if_false]

def isException (l : Text) : Bool := startsWith l "@@".toList

/-- A line without the mark of an exception. -/
def body (l : Text) : Text := if isException l then l.drop 2 else l

/-- A line without white space around it that is read as a network rule, well or badly. -/
structure IsNetwork (l : Text) : Prop where
  ne_nil : l ≠ []
  comment : (startsWith l ['!'] || l = ['#'] || startsWith l ['#', ' ']) = false
  header : startsWith l ['['] = false
  cosmetic : isException l = false → cosmeticMarker? l = none
  hosts : isException l = false → hostsNames? l = none
  regex : isException l = false → isRegexPattern (splitModifiers l).1 = false

theorem ofText_eq_ofNetwork {floor : Nat} {t : Text} (h : IsNetwork (strip t)) :
    ofText floor t = ofNetwork floor (isException (strip t)) (body (strip t)) := by
  have hsome : (strip t).isEmpty = false := by simpa using h.ne_nil
  rw [ofText]
  simp only [hsome, h.comment, h.header, Bool.false_eq_true, if_false]
  rw [ofRule, body]
  cases hmark : isException (strip t) with
  | true =>
    rw [isException] at hmark
    rw [hmark, if_pos rfl, if_pos rfl]
  | false =>
    have hcosmetic := h.cosmetic hmark
    have hhosts := h.hosts hmark
    have hregex := h.regex hmark
    rw [isException] at hmark
    simp only [hmark, hcosmetic, hhosts, hregex, Bool.false_eq_true, if_false]

/-- A line that holds a network rule, and is no entry of a hosts file, is read as one. -/
theorem isNetwork_of_ofText {floor : Nat} {t : Text} {r : NetworkRule} {others : List Rule}
    {ignored : Nat} (h : ofText floor t = .rules (.network r) others ignored)
    (hhosts : hostsNames? (strip t) = none) : IsNetwork (strip t) := by
  rw [ofText] at h
  split at h
  · cases h
  next hsome =>
  split at h
  · cases h
  next hcomment =>
  split at h
  · cases h
  next hheader =>
  have hkind : isException (strip t) = false → cosmeticMarker? (strip t) = none ∧
      isRegexPattern (splitModifiers (strip t)).1 = false := by
    intro hmark
    rw [isException] at hmark
    rw [ofRule, hmark, if_neg Bool.false_ne_true, hhosts] at h
    split at h
    next domains marker selector _ =>
      have hmem : Rule.network r ∈ (ofCosmetic (strip t) domains marker selector).toRules := by
        rw [h, toRules]
        exact List.mem_cons_self
      exact absurd hmem not_mem_ofCosmetic
    next hcosmetic =>
      refine ⟨hcosmetic, ?_⟩
      by_contra hregex
      rw [Bool.not_eq_false] at hregex
      simp [hregex] at h
  exact ⟨by simpa using hsome, by simpa using hcomment, by simpa using hheader,
    fun hmark => (hkind hmark).1, fun _ => hhosts, fun hmark => (hkind hmark).2⟩

end ContentFilter.Line
