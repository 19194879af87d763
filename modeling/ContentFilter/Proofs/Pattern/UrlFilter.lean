import ContentFilter.Proofs.Pattern.Token

/-! # The regular expression for a network rule

A network rule accepts a URL when its pattern matches a part of it and what stands around that part
is as the flags of the rule ask. The regular expression for the rule finds something in a URL exactly
when the rule accepts it.

* `NetworkRule.Accepts`: the URLs that a rule accepts.
* `Pattern.spells_urlFilter`: the items from which the expression is put together.
* `NetworkRule.search_urlFilter_iff_accepts`: the expression and the rule agree.
-/

set_option autoImplicit false

namespace ContentFilter

open Text Regex Pattern

/-! ## Accepted URLs -/

/-- The schemes, up to case. -/
def Pattern.IsScheme (t : Text) : Prop :=
  SameLetters "http://".toList t ∨ SameLetters "https://".toList t

/-- One or more characters that are no slashes, and a dot behind them. -/
def Pattern.IsLabels (t : Text) : Prop := ∃ labels, t = labels ++ ['.'] ∧ labels ≠ [] ∧ '/' ∉ labels

/-- What can stand before the part of a URL that a pattern matches. -/
def Anchor.Admits : Anchor → Text → Prop
  | .anywhere, _ => True
  | .start, before => before = []
  | .domain, before => ∃ scheme labels, before = scheme ++ labels ∧ IsScheme scheme ∧
      (labels = [] ∨ IsLabels labels)

/-- A separator, where one is asked for. -/
def Pattern.IsGap (separator : Bool) (t : Text) : Prop :=
  if separator then ∃ d, t = [d] ∧ IsSeparator d else t = []

/-- A rule accepts a URL when its tokens match a part of it that starts where the anchor admits it,
has a separator behind it if the rule asks for one, and ends the URL if the rule asks for that. -/
def NetworkRule.Accepts (rule : NetworkRule) (url : Text) : Prop :=
  ∃ before part gap after, url = before ++ part ++ gap ++ after ∧ rule.anchor.Admits before ∧
    Matches (tokens rule.pattern) part ∧ IsGap rule.separator gap ∧
      (rule.endAnchored = true → after = [])

namespace Pattern

/-! ## Items -/

def schemeItems : List Regex :=
  "http".toList.map .char ++ ([.iterate .greedy 0 (some 1) (.char 's')] ++ "://".toList.map .char)

def labelItems : List Regex := [.iterate .greedy 1 none (.set true [('/', '/')]), .char '.']

/-- What an anchor has in front of a pattern, besides the start of the URL. -/
def leadItems : Anchor → List Regex
  | .domain => schemeItems ++ [.iterate .greedy 0 (some 1) (chain labelItems)]
  | _ => []

def isBound (a : Anchor) : Bool := a != .anywhere

/-- The items between the ends of the expression for a rule. -/
def innerItems (rule : NetworkRule) : List Regex :=
  leadItems rule.anchor ++
    ((tokens rule.pattern).map Token.regex ++ if rule.separator then [separatorSet] else [])

section

variable {depth : Nat}

theorem spells_plain {t : Text} (ht : ∀ c ∈ t, c ∉ marks) : Spells depth t (t.map .char) := by
  induction t with
  | nil => exact .nil
  | cons c cs ih =>
    have hc : Reads depth [c] (.char c) := (item_plain (ht c (by simp))).reads
    exact .cons hc (ih fun d hd => ht d (by simp [hd]))

theorem spells_labels : Spells depth "[^/]+\\.".toList labelItems := by
  have hrun : Reads depth (['[', '^', '/', ']'] ++ ['+']) (.iterate .greedy 1 none _) :=
    item_noSlash.repeated rfl fun rest => rfl
  have hdot : Reads depth ['\\', '.'] (.char '.') := (item_escaped rfl).reads
  exact .cons hrun hdot.spells

theorem spells_scheme : Spells depth "https?://".toList schemeItems := by
  have hhttp : Spells depth "http".toList ("http".toList.map .char) :=
    spells_plain (forall_mem_of_all (by decide))
  have hletter : Reads depth (['s'] ++ ['?']) (.iterate .greedy 0 (some 1) (.char 's')) :=
    (item_plain (by decide)).repeated rfl fun rest => rfl
  have hslashes : Spells depth "://".toList ("://".toList.map .char) :=
    spells_plain (forall_mem_of_all (by decide))
  exact hhttp.append (hletter.spells.append hslashes)

/-- What stands before a pattern is written as the start of the URL, a scheme and labels, or
less. -/
theorem spells_opening (a : Anchor) :
    Spells (depth + 1) (opening a) ((if isBound a then [start] else []) ++ leadItems a) := by
  have hstart : Spells (depth + 1) ['^'] [start] := item_start.spells
  cases a with
  | anywhere => exact .nil
  | start => exact hstart
  | domain =>
    have hlabels : Reads (depth + 1) ("([^/]+\\.)".toList ++ ['?'])
        (.iterate .greedy 0 (some 1) (chain labelItems)) :=
      spells_labels.group.repeated rfl fun rest => rfl
    exact hstart.append (spells_scheme.append hlabels.spells)

theorem spells_urlFilter {rule : NetworkRule} (hrule : isComplete rule.pattern = true) :
    Spells (depth + 1) rule.urlFilter
      (anchored (isBound rule.anchor) rule.endAnchored (innerItems rule)) := by
  have hseparator : Spells (depth + 1) (if rule.separator then separators else [])
      (if rule.separator then [separatorSet] else []) := by
    split
    · exact item_separatorText.spells
    · exact .nil
  have hfinish : Spells (depth + 1) (if rule.endAnchored then ['$'] else [])
      (if rule.endAnchored then [finish] else []) := by
    split
    · exact item_finish.spells
    · exact .nil
  have hall := (((spells_opening rule.anchor).append (spells_toRegex hrule)).append
    hseparator).append hfinish
  rw [anchored, innerItems, NetworkRule.urlFilter]
  simpa only [List.append_assoc] using hall

end

/-! ## What the items take -/

/-- What an anchor has in front of a pattern. -/
def IsLead : Anchor → Text → Prop
  | .domain, t => ∃ scheme labels, t = scheme ++ labels ∧ IsScheme scheme ∧
      (labels = [] ∨ IsLabels labels)
  | _, t => t = []

theorem admits_iff (a : Anchor) (t : Text) :
    a.Admits t ↔ ∃ before lead, t = before ++ lead ∧ (isBound a = true → before = []) ∧
      IsLead a lead := by
  cases a with
  | anywhere =>
    constructor
    · intro _
      exact ⟨t, [], (List.append_nil t).symm, nofun, rfl⟩
    · intro _
      trivial
  | start =>
    constructor
    · rintro rfl
      exact ⟨[], [], rfl, fun _ => rfl, rfl⟩
    · rintro ⟨before, lead, rfl, hbefore, rfl⟩
      rw [hbefore rfl]
      rfl
  | domain =>
    constructor
    · intro ht
      exact ⟨[], t, rfl, fun _ => rfl, ht⟩
    · rintro ⟨before, lead, rfl, hbefore, hlead⟩
      rw [hbefore rfl]
      exact hlead

section

variable {size : Nat}

theorem takes_letter (c : Char) : Takes size (run size (.char c)) (SameLetters [c]) :=
  (takes_step (sameLetter c)).congr fun _ _ => sameLetters_singleton.symm

theorem takes_scheme : Takes size (run size (chain schemeItems)) IsScheme := by
  have hletter : Takes size (run size (.iterate .greedy 0 (some 1) (.char 's')))
      fun part => part = [] ∨ SameLetters ['s'] part := by
    refine takes_optional (takes_letter 's') fun part hpart => ?_
    rintro rfl
    exact absurd hpart nofun
  refine (takes_chain_append (takes_letters _) (takes_chain_append (takes_chain_singleton hletter)
    (takes_letters _))).congr fun part _ => ?_
  rw [IsScheme, show "http://".toList = "http".toList ++ "://".toList from rfl,
    show "https://".toList = "http".toList ++ (['s'] ++ "://".toList) from rfl]
  simp only [sameLetters_append]
  constructor
  · rintro ⟨p, _, rfl, hp, q, r, rfl, rfl | hq, hr⟩
    · exact .inl ⟨p, r, rfl, hp, hr⟩
    · exact .inr ⟨p, q ++ r, rfl, hp, q, r, rfl, hq, hr⟩
  · rintro (⟨p, r, rfl, hp, hr⟩ | ⟨p, _, rfl, hp, q, r, rfl, hq, hr⟩)
    · exact ⟨p, r, rfl, hp, [], r, rfl, .inl rfl, hr⟩
    · exact ⟨p, q ++ r, rfl, hp, q, r, rfl, .inr hq, hr⟩

theorem takes_labels : Takes size (run size (chain labelItems)) IsLabels := by
  have hslash : ∀ d, (inSet [('/', '/')] d != true) = true ↔ d ≠ '/' := by
    intro d
    have hset : inSet (['/'].map fun c => (c, c)) d = true ↔ d ∈ ['/'] :=
      inSet_marks (forall_mem_of_all (by decide)) d
    rw [bne_iff_ne, ne_eq, show [('/', '/')] = ['/'].map fun c => (c, c) from rfl, hset,
      List.mem_singleton]
  refine (takes_seq (takes_many _ rfl 1) (takes_chain_singleton (takes_letter '.'))).congr
    fun part _ => ?_
  constructor
  · rintro ⟨p, q, rfl, ⟨hlength, hp⟩, hq⟩
    obtain ⟨d, rfl, hd⟩ := sameLetters_singleton.mp hq
    obtain rfl := (sameLetter_mark (by decide)).mp hd
    refine ⟨p, rfl, List.length_pos_iff.mp hlength, fun hmem => ?_⟩
    exact (hslash _).mp (hp _ hmem) rfl
  · rintro ⟨p, rfl, hp, hslashes⟩
    refine ⟨p, ['.'], rfl, ⟨List.length_pos_iff.mpr hp, fun d hd => (hslash d).mpr ?_⟩, ?_⟩
    · rintro rfl
      exact hslashes hd
    · exact sameLetters_singleton.mpr ⟨'.', rfl, rfl⟩

theorem takes_lead (a : Anchor) : Takes size (run size (chain (leadItems a))) (IsLead a) := by
  cases a with
  | anywhere => exact takes_empty
  | start => exact takes_empty
  | domain =>
    refine takes_chain_append takes_scheme (takes_chain_singleton (takes_optional takes_labels ?_))
    rintro _ ⟨labels, rfl, -, -⟩
    exact List.append_ne_nil_of_right_ne_nil _ (List.cons_ne_nil _ _)

theorem takes_gap (separator : Bool) :
    Takes size (run size (chain (if separator then [separatorSet] else []))) (IsGap separator) := by
  cases separator with
  | false => exact takes_empty
  | true => exact takes_chain_singleton takes_separatorSet

theorem takes_inner (rule : NetworkRule) :
    Takes size (run size (chain (innerItems rule))) fun t => ∃ lead rest, t = lead ++ rest ∧
      IsLead rule.anchor lead ∧ ∃ part gap, rest = part ++ gap ∧
        Matches (tokens rule.pattern) part ∧ IsGap rule.separator gap :=
  takes_chain_append (takes_lead _) (takes_chain_append (takes_tokens _) (takes_gap _))

end

end Pattern

/-! ## The expression finds what the rule accepts -/

/-- The items for a rule find something in a URL exactly when the rule accepts the URL. -/
theorem Pattern.search_items_iff_accepts (rule : NetworkRule) {url : Text} (hline : '\n' ∉ url) :
    (chain (anchored (isBound rule.anchor) rule.endAnchored (innerItems rule))).search url = true ↔
      rule.Accepts url := by
  -- What an anchor has in front of a pattern is part of what the expression finds, and of what
  -- stands before the part that the pattern matches.
  rw [search_anchored_iff (takes_inner rule) hline, NetworkRule.Accepts]
  constructor
  · rintro ⟨before, _, after, rfl, hbefore, hinner, hafter⟩
    obtain ⟨lead, _, rfl, hlead, part, gap, rfl, hpart, hgap⟩ := hinner
    have hadmits : rule.anchor.Admits (before ++ lead) :=
      (admits_iff rule.anchor _).mpr ⟨before, lead, rfl, hbefore, hlead⟩
    exact ⟨before ++ lead, part, gap, after, by simp only [List.append_assoc], hadmits, hpart, hgap,
      hafter⟩
  · rintro ⟨start, part, gap, after, rfl, hadmits, hpart, hgap, hafter⟩
    obtain ⟨before, lead, rfl, hbefore, hlead⟩ := (admits_iff rule.anchor start).mp hadmits
    exact ⟨before, lead ++ (part ++ gap), after, by simp only [List.append_assoc], hbefore,
      ⟨lead, _, rfl, hlead, part, gap, rfl, hpart, hgap⟩, hafter⟩

/-- The expression for a rule can be read, and it finds something in a URL exactly when the rule
accepts the URL. -/
theorem NetworkRule.search_urlFilter_iff_accepts (rule : NetworkRule) {url : Text}
    (hrule : isComplete rule.pattern = true) (hline : '\n' ∉ url) :
    ∃ re, Regex.parse rule.urlFilter = .ok re ∧ (re.search url = true ↔ rule.Accepts url) := by
  have hread : Spells nestingLimit rule.urlFilter _ := spells_urlFilter hrule
  exact ⟨_, hread.parse, search_items_iff_accepts rule hline⟩

/-- A rule with every flag, whose pattern has every kind of token. -/
def bannerRule : NetworkRule :=
  { pattern := "ads.*/\\d+^img".toList, anchor := .domain, endAnchored := true, separator := true }

/-- A URL with labels before the part that the pattern matches. -/
def bannerUrl : Text := "https://cdn.ads.example/d+?IMG/".toList

theorem accepts_bannerRule :
    isComplete bannerRule.pattern = true ∧ '\n' ∉ bannerUrl ∧ bannerRule.Accepts bannerUrl := by
  have hrule : isComplete bannerRule.pattern = true := by decide
  have hline : '\n' ∉ bannerUrl := by decide
  obtain ⟨re, hread, hsearch⟩ := NetworkRule.search_urlFilter_iff_accepts bannerRule hrule hline
  have hfound : (Regex.parse bannerRule.urlFilter).toOption.any (·.search bannerUrl) = true := by
    decide +kernel
  rw [hread] at hfound
  exact ⟨hrule, hline, hsearch.mp hfound⟩

end ContentFilter
