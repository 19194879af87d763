import ContentFilter.Proofs.Record.Lossless
import ContentFilter.Proofs.Rule.Removal
import ContentFilter.Proofs.RuleList.FilterText

/-! # Rules that are confined to pages

A rule says on the pages of which domains it holds. This means the same from its line to what is
decided by the list that is compiled from it: a domain stands for itself and all below it, and the
domains that are left out go before those that are let in.

* `Domain.IsWithin`, `DomainScope.Admits`: the pages that a scope admits.
* `Trigger.admitsDomain_iff`: what becomes of a scope in a record.
* `RuleList.ofLine`: the list for the rules of a line.
* `RuleList.ofLine_iff_admits`: what such a list hides and blocks.
-/

set_option autoImplicit false

namespace ContentFilter

open Text

/-! ## Pages -/

/-- A host is a domain itself, or ends with a dot and the domain. -/
def Domain.IsWithin (host d : Text) : Prop := host = d ∨ '.' :: d <:+ host

instance (host d : Text) : Decidable (Domain.IsWithin host d) :=
  inferInstanceAs (Decidable (_ ∨ _))

/-- A page is let in by some domain, unless none is named, and left out by no domain. -/
def DomainScope.Admits (s : DomainScope) (host : Text) : Prop :=
  (s.included = ∅ ∨ ∃ d ∈ s.included, Domain.IsWithin host d) ∧
    ¬ ∃ d ∈ s.excluded, Domain.IsWithin host d

instance (s : DomainScope) (host : Text) : Decidable (s.Admits host) :=
  inferInstanceAs (Decidable ((_ ∨ ∃ d ∈ s.included.toList, Domain.IsWithin host d) ∧
    ¬ ∃ d ∈ s.excluded.toList, Domain.IsWithin host d))

/-! ## Scopes in records -/

section

variable {host : Text} {s : DomainScope}

theorem markerCovers_iff {d : Text} (hd : Domain.IsPlainName d) :
    markerCovers host ('*' :: d) = true ↔ Domain.IsWithin host d := by
  have hlower : lower ('*' :: d) = '*' :: d := by
    refine lower_eq_self (List.forall_mem_cons.mpr ⟨isSmall_of_ascii (by decide) (by decide), ?_⟩)
    intro c hc
    have hplain := (hd.isPlainChar hc).ascii
    exact isSmall_of_ascii hplain.1 hplain.2
  have hbase : d.dropWhile (· = '.') = d := by
    obtain ⟨c, cs, rfl⟩ := List.exists_cons_of_ne_nil hd.ne_nil
    have hc : c ≠ '.' := fun heq => hd.head?_ne_dot (congrArg some heq)
    exact List.dropWhile_cons_of_neg (by simpa using hc)
  rw [markerCovers, hlower]
  simp only [hbase, Bool.or_eq_true, decide_eq_true_eq, endsWith, List.isSuffixOf_iff_suffix,
    Domain.IsWithin]

theorem mem_withSubdomains {domains : SortedSet Text} {m : Text} :
    m ∈ Record.withSubdomains domains ↔ ∃ d ∈ domains, '*' :: d = m := by
  rw [Record.withSubdomains, SortedSet.map, SortedSet.mem_ofList, List.mem_map]
  rfl

theorem domainMatches_withSubdomains_iff {domains : SortedSet Text}
    (hdomains : ∀ d ∈ domains, Domain.IsPlainName d) (hhost : Domain.IsPlainName host) :
    domainMatches host (Record.withSubdomains domains).toList = true ↔
      ∃ d ∈ domains, Domain.IsWithin host d := by
  rw [domainMatches, Domain.lower_of_isPlain hhost.1, List.any_eq_true]
  constructor
  · rintro ⟨m, hm, hcovers⟩
    obtain ⟨d, hd, rfl⟩ := mem_withSubdomains.mp hm
    exact ⟨d, hd, (markerCovers_iff (hdomains d hd)).mp hcovers⟩
  · rintro ⟨d, hd, hwithin⟩
    exact ⟨_, mem_withSubdomains.mpr ⟨d, hd, rfl⟩, (markerCovers_iff (hdomains d hd)).mpr hwithin⟩

theorem isEmpty_withSubdomains_iff {domains : SortedSet Text} :
    (Record.withSubdomains domains).isEmpty = true ↔ domains = ∅ := by
  rw [SortedSet.isEmpty, List.isEmpty_iff, List.eq_nil_iff_forall_not_mem]
  constructor
  · intro hnone
    refine SortedSet.ext fun d => iff_of_false (fun hd => ?_) (SortedSet.not_mem_empty d)
    exact hnone _ (mem_withSubdomains.mpr ⟨d, hd, rfl⟩)
  · rintro rfl m hm
    obtain ⟨d, hd, -⟩ := mem_withSubdomains.mp hm
    exact SortedSet.not_mem_empty d hd

/-- A trigger with the domains of a scope holds on the pages that the scope admits. -/
theorem Trigger.admitsDomain_iff {t : Trigger}
    (hif : t.ifDomains = Record.withSubdomains s.included)
    (hunless : t.unlessDomains = Record.withSubdomains s.excluded)
    (hincluded : ∀ d ∈ s.included, Domain.IsPlainName d)
    (hexcluded : ∀ d ∈ s.excluded, Domain.IsPlainName d) (hhost : Domain.IsPlainName host) :
    t.admitsDomain (some host) = true ↔ s.Admits host := by
  rw [admitsDomain, hif, hunless, Bool.and_eq_true, Bool.or_eq_true, Bool.not_eq_true',
    ← Bool.not_eq_true, isEmpty_withSubdomains_iff, Option.any_some, Option.any_some,
    domainMatches_withSubdomains_iff hincluded hhost,
    domainMatches_withSubdomains_iff hexcluded hhost, DomainScope.Admits]

end

/-! ## Lists with one rule -/

/-- The rule for a record whose expression is read as `re`. -/
def Record.compiled (r : Record) (re : Regex) : CompiledRule := ⟨re.search, r.trigger, r.action⟩

namespace RuleList

/-- The list for the rules of a line, which are written as records and read again. -/
def ofLine (floor : Nat) (limit : Int) (name line : Text) : Except Fault RuleList :=
  compile limit name
    (Record.listToText ((Line.ofText floor line).toRules.filterMap (Record.ofRule? floor)))

variable {floor : Nat} {limit : Int} {name : Text} {r : Record}

theorem compile_singleton_iff (hwell : r.WellFormed) (hlimit : 1 ≤ limit) {list : RuleList} :
    compile limit name (Record.listToText [r]) = .ok list ↔
      ∃ re, Regex.parse r.trigger.urlFilter = .ok re ∧ list = ⟨name, [r.compiled re]⟩ := by
  have hall : ∀ s ∈ [r], s.WellFormed := fun s hs => List.mem_singleton.mp hs ▸ hwell
  rw [compile_listToText hall (by simpa using hlimit), compileRules, compileRule, Regex.reader]
  cases Regex.parse r.trigger.urlFilter with
  | ok re => simp [compileRules, bind, Except.bind, Except.map, Record.compiled, eq_comm]
  | error e => cases e <;> simp [bind, Except.bind, Except.map]

theorem blocks_singleton_iff {c : CompiledRule} {q : Request} :
    (RuleList.mk name [c]).blocks q = true ↔ c.blocks q = true := by
  rw [blocks, List.foldl_cons, List.foldl_nil, CompiledRule.decide_eq_true_iff]
  simp

end RuleList

/-! ## Cosmetic rules -/

theorem Line.ofText_cosmetic {floor : Nat} {s : DomainScope} {domains selector : Text}
    (hne : selector ≠ []) (hstrip : strip selector = selector) (hlists : s.Lists ',' domains) :
    ofText floor (domains ++ '#' :: '#' :: selector) = .rules (.cosmetic ⟨selector, s⟩) [] 0 := by
  have hmarks : ∀ c ∈ domains, isBlank c = false ∧ c ∉ ['#', '!', '[', '@'] := by
    intro c hc
    rcases hlists.mem hc with rfl | rfl | hplain
    · decide
    · decide
    · have hothers : ∀ m ∈ ['#', '!', '[', '@'], ¬ Domain.IsPlainChar m :=
        forall_mem_of_all (by decide)
      exact ⟨hplain.isBlank_eq, fun hmem => hothers c hmem hplain⟩
  have hlast : dropEndWhile isBlank selector = selector := by
    refine dropEndWhile_eq_self fun c hc => ?_
    rw [← hstrip] at hc
    exact getLast?_dropEndWhile hc
  have hline : strip (domains ++ '#' :: '#' :: selector) = domains ++ '#' :: '#' :: selector := by
    rw [strip, dropAroundWhile_append_cons (fun c hc => (hmarks c (List.mem_of_head? hc)).1)
      (by decide), ← List.nil_append ('#' :: selector), dropEndWhile_append_cons (by decide), hlast]
  have hnumber : '#' ∉ domains := fun hc => absurd (hmarks _ hc).2 (by decide)
  have hsome : selector.isEmpty = false := by simpa using hne
  have hkind : (domains ++ '#' :: '#' :: selector).isEmpty = false ∧
      (startsWith (domains ++ '#' :: '#' :: selector) ['!'] ||
        domains ++ '#' :: '#' :: selector = ['#'] ||
        startsWith (domains ++ '#' :: '#' :: selector) ['#', ' ']) = false ∧
      startsWith (domains ++ '#' :: '#' :: selector) ['['] = false ∧
      startsWith (domains ++ '#' :: '#' :: selector) "@@".toList = false := by
    cases domains with
    | nil => simp [startsWith, List.isPrefixOf]
    | cons c cs =>
      have hc := (hmarks c List.mem_cons_self).2
      simp only [List.mem_cons, List.not_mem_nil, or_false, not_or] at hc
      simp [startsWith, List.isPrefixOf, hc, Ne.symm]
  rw [ofText, hline]
  simp only [hkind, Bool.false_eq_true, if_false]
  rw [ofRule, hkind.2.2.2, if_neg Bool.false_ne_true, cosmeticMarker?_append hnumber]
  show ofCosmetic _ domains [] selector = _
  rw [ofCosmetic, hstrip, hsome, DomainScope.ofText_of_lists (by decide) (by decide) hlists]
  rfl

namespace RuleList

variable {floor : Nat} {limit : Int} {name host : Text} {s : DomainScope}

/-- The list for a cosmetic rule hides its selector on the pages that the scope admits. -/
theorem hideSelectors_ofLine (hlimit : 1 ≤ limit) (hhost : Domain.IsPlainName host)
    {domains selector : Text} (hne : selector ≠ []) (hstrip : strip selector = selector)
    (hlists : s.Lists ',' domains) :
    ∃ list, ofLine floor limit name (domains ++ '#' :: '#' :: selector) = .ok list ∧
      ∀ url, list.hideSelectors url (some host) = if s.Admits host then [selector] else [] := by
  have hrecords : (Line.rules (.cosmetic ⟨selector, s⟩) [] 0).toRules.filterMap
      (Record.ofRule? floor) = [Record.ofSelector selector s] := by
    simp [Line.toRules, Record.ofRule?, hstrip, hne]
  have hwell : (Record.ofSelector selector s).WellFormed :=
    Record.wellFormed_ofSelector s (by rwa [hstrip])
  obtain ⟨re, hre, hsearch⟩ := Record.exists_search_everyUrl
  rw [ofLine, Line.ofText_cosmetic hne hstrip hlists, hrecords]
  refine ⟨_, (compile_singleton_iff hwell hlimit).mpr ⟨re, hre, rfl⟩, fun url => ?_⟩
  obtain ⟨hincluded, hexcluded⟩ := hlists.isPlainName
  have hadmits : (Record.ofSelector selector s).trigger.admitsDomain (some host) = true ↔
      s.Admits host := Trigger.admitsDomain_iff rfl rfl hincluded hexcluded hhost
  have happlies : ((Record.ofSelector selector s).compiled re).applies
      { url := url, topDomain := some host } = true ↔ s.Admits host := by
    rw [← hadmits, CompiledRule.applies]
    simp only [Record.compiled, hsearch, Bool.and_true]
    rfl
  have hhidden : ((Record.ofSelector selector s).compiled re).hidden?
      { url := url, topDomain := some host } =
        if s.Admits host then some selector else none := by
    have hsome : selector.isEmpty = false := by simpa using hne
    show (if (!selector.isEmpty && CompiledRule.applies _ _) = true then some selector
      else none) = _
    simp only [hsome, Bool.not_false, Bool.true_and, happlies]
  rw [hideSelectors, List.filterMap_cons, hhidden, List.filterMap_nil]
  split_ifs <;> rfl

/-! ## Network rules -/

/-- The list for a line with a network rule has that rule, if its expression can be read. -/
theorem ofLine_eq_ok_iff (hfloor : 1 ≤ floor) (hlimit : 1 ≤ limit) {line : Text} {r : NetworkRule}
    {ignored : Nat} (h : Line.ofText floor line = .rules (.network r) [] ignored)
    {list : RuleList} :
    ofLine floor limit name line = .ok list ↔ ∃ re, Regex.parse r.urlFilter = .ok re ∧
      list = ⟨name, [(Record.ofNetwork r).compiled re]⟩ := by
  have hlong : floor ≤ NetworkRule.significantLength r.pattern :=
    Line.floor_le_significantLength (by rw [h]; exact List.mem_singleton_self _)
  have hpattern : r.pattern ≠ [] := by
    have hlength := hlong.trans (NetworkRule.significantLength_le r.pattern)
    exact List.ne_nil_of_length_pos (by omega)
  have hrecords : (Line.rules (.network r) [] ignored).toRules.filterMap (Record.ofRule? floor) =
      [Record.ofNetwork r] := by
    simp [Line.toRules, Record.ofRule?, Nat.not_lt.mpr hlong]
  rw [ofLine, h, hrecords, compile_singleton_iff (Record.wellFormed_ofNetwork hpattern) hlimit]
  rfl

/-- The list for a line with a network rule decides as the record for it, if the rule does not
dangle. -/
theorem exists_ofLine (hfloor : 1 ≤ floor) (hlimit : 1 ≤ limit) {line : Text} {r : NetworkRule}
    {ignored : Nat} (h : Line.ofText floor line = .rules (.network r) [] ignored)
    (hdangles : r.dangles = false) :
    ∃ list, ofLine floor limit name line = .ok list ∧
      ∀ q, list.blocks q = (Record.ofNetwork r).blocks Regex.reader q := by
  obtain ⟨re, hre⟩ := NetworkRule.parse_urlFilter_of_not_dangles hdangles
  have hread : (Record.ofNetwork r).rule? Regex.reader =
      some ((Record.ofNetwork r).compiled re) := by
    have hfilter : Regex.parse (Record.ofNetwork r).trigger.urlFilter = .ok re := hre
    exact Record.rule?_of_read (by rw [Regex.reader, hfilter])
  refine ⟨_, (ofLine_eq_ok_iff hfloor hlimit h).mpr ⟨re, hre, rfl⟩, fun q => ?_⟩
  rw [Bool.eq_iff_iff, blocks_singleton_iff, Record.blocks, hread, Option.any_some]

/-- A rule blocks on the pages that its scope admits what it would block on any page. -/
theorem blocks_ofNetwork_iff {r : NetworkRule}
    (hincluded : ∀ d ∈ r.scope.included, Domain.IsPlainName d)
    (hexcluded : ∀ d ∈ r.scope.excluded, Domain.IsPlainName d) (hhost : Domain.IsPlainName host)
    {q : Request} (hpage : q.topDomain = some host) (re : Regex) :
    ((Record.ofNetwork r).compiled re).blocks q = true ↔
      ((Record.ofNetwork { r with scope := {} }).compiled re).blocks q = true ∧
        r.scope.Admits host := by
  have hadmits : (Record.ofNetwork r).trigger.admitsDomain q.topDomain = true ↔
      r.scope.Admits host := by
    rw [hpage]
    exact Trigger.admitsDomain_iff rfl rfl hincluded hexcluded hhost
  have hall :
      (Record.ofNetwork { r with scope := {} }).trigger.admitsDomain q.topDomain = true := by
    rw [hpage]
    rfl
  have happlies : ((Record.ofNetwork r).compiled re).applies q = true ↔
      ((Record.ofNetwork { r with scope := {} }).compiled re).applies q = true ∧
        r.scope.Admits host := by
    rw [← hadmits]
    simp only [CompiledRule.applies, Record.compiled, Trigger.admits, Bool.and_eq_true, hall,
      and_true]
    exact and_right_comm
  rw [CompiledRule.blocks, CompiledRule.blocks, Bool.and_eq_true, Bool.and_eq_true, happlies,
    and_assoc]
  rfl

/-! ## From the line to the decision -/

/-- A scope means the same from its text to what a list decides. With it, a cosmetic rule hides its
selector on the pages that the scope admits, and on no others. A network rule blocks on these pages
what its line without the domains blocks, and nothing on others. -/
theorem ofLine_iff_admits (hfloor : 1 ≤ floor) (hlimit : 1 ≤ limit) (name : Text)
    (hhost : Domain.IsPlainName host) (s : DomainScope) :
    (∀ domains selector : Text, s.Lists ',' domains → selector ≠ [] → strip selector = selector →
      ∃ list, ofLine floor limit name (domains ++ '#' :: '#' :: selector) = .ok list ∧
        ∀ url, list.hideSelectors url (some host) = if s.Admits host then [selector] else []) ∧
      ∀ (line head : Text) (left : List Text) (entry : Text) (right : List Text) (r : NetworkRule)
        (more : List Rule) (ignored : Nat) (list : RuleList),
        Line.Confined line head left entry right s →
        Line.ofText floor line = .rules (.network r) more ignored →
        ofLine floor limit name line = .ok list →
        ∀ shorter, Line.Freed head (left ++ right) shorter →
          ∃ freed, ofLine floor limit name shorter = .ok freed ∧
            ∀ q : Request, q.topDomain = some host →
              (list.blocks q = true ↔ freed.blocks q = true ∧ s.Admits host) := by
  refine ⟨fun domains selector hlists hne hstrip =>
    hideSelectors_ofLine hlimit hhost hne hstrip hlists, ?_⟩
  intro line head left entry right r more ignored list hline hrule hlist shorter hfreed
  obtain ⟨hscope, rfl, hshorter⟩ := Line.ofText_of_freed hfloor hline hrule hfreed
  obtain ⟨t, -, hlists⟩ := hline.domains
  obtain ⟨hincluded, hexcluded⟩ := hlists.isPlainName
  obtain ⟨re, hre, rfl⟩ := (ofLine_eq_ok_iff hfloor hlimit hrule).mp hlist
  refine ⟨_, (ofLine_eq_ok_iff hfloor hlimit hshorter).mpr ⟨re, hre, rfl⟩, fun q hpage => ?_⟩
  subst hscope
  rw [blocks_singleton_iff, blocks_singleton_iff]
  exact blocks_ofNetwork_iff hincluded hexcluded hhost hpage re

/-- The pages of a site and of another one, without those of the archive of the first. -/
def newsPages : DomainScope :=
  ⟨SortedSet.ofList ["news.example".toList, "blog.example".toList],
    SortedSet.ofList ["archive.news.example".toList]⟩

def newsEntries : List (Bool × Text) :=
  [(false, "news.example".toList), (true, "archive.news.example".toList),
    (false, "blog.example".toList)]

theorem lists_newsPages (sep : Char) :
    newsPages.Lists sep (join [sep] (newsEntries.map DomainScope.entryText)) := by
  refine ⟨newsEntries, rfl, by decide +kernel, fun d => ?_, fun d => ?_⟩
  · exact SortedSet.mem_ofList.trans (by simp [newsEntries])
  · exact SortedSet.mem_ofList.trans (by simp [newsEntries])

def newsLine : Text :=
  "||ads.example^$Script,domain=news.example|~archive.news.example|blog.example ,3p".toList

theorem confined_newsLine : Line.Confined newsLine "||ads.example^".toList ["Script".toList]
    "domain=news.example|~archive.news.example|blog.example ".toList ["3p".toList] newsPages where
  text := by decide +kernel
  feed := by decide +kernel
  hosts := by decide +kernel
  cut := by decide
  entries := by
    have hnone : ∀ e ∈ ["Script", "domain=news.example|~archive.news.example|blog.example ",
        "3p"].map String.toList, ',' ∉ e ∧ '$' ∉ e := by decide +kernel
    exact fun e he => (hnone e he).imp_right dollarsEscaped_of_notMem
  domains := ⟨_, by decide +kernel, lists_newsPages '|'⟩
  others := by decide +kernel

def newsRule : NetworkRule where
  pattern := "ads.example".toList
  resourceTypes := SortedSet.ofList [.script]
  party := .third
  scope := newsPages
  anchor := .domain
  separator := true

theorem ofLine_iff_admits_newsPages :
    1 ≤ 3 ∧ 1 ≤ defaultLimit ∧ Domain.IsPlainName "eu.news.example".toList ∧
      newsPages.Admits "eu.news.example".toList ∧
      Line.ofText 3 newsLine = .rules (.network newsRule) [] 0 ∧
      (∃ list, ofLine 3 defaultLimit "x".toList
          "news.example,~archive.news.example,blog.example###ad > b".toList = .ok list ∧
        ∀ url, list.hideSelectors url (some "eu.news.example".toList) = ["#ad > b".toList]) ∧
      ∃ list freed, ofLine 3 defaultLimit "x".toList newsLine = .ok list ∧
        ofLine 3 defaultLimit "x".toList "||ads.example^$Script,3p".toList = .ok freed ∧
        ∀ q : Request, q.topDomain = some "eu.news.example".toList →
          (list.blocks q = true ↔ freed.blocks q = true) := by
  have hfloor : 1 ≤ 3 := by decide
  have hlimit : 1 ≤ defaultLimit := by decide
  have hhost : Domain.IsPlainName "eu.news.example".toList := by decide +kernel
  have hadmits : newsPages.Admits "eu.news.example".toList := by decide +kernel
  have hrule : Line.ofText 3 newsLine = .rules (.network newsRule) [] 0 := by decide +kernel
  obtain ⟨list, hlist, -⟩ : ∃ list, ofLine 3 defaultLimit "x".toList newsLine = .ok list ∧ _ :=
    exists_ofLine hfloor hlimit hrule (by decide)
  obtain ⟨hhides, hblocks⟩ := ofLine_iff_admits hfloor hlimit "x".toList hhost newsPages
  obtain ⟨hider, hhider, hhidden⟩ := hhides _ "#ad > b".toList (lists_newsPages ',') (by decide)
    (by decide +kernel)
  obtain ⟨freed, hfreed, hsame⟩ := hblocks _ _ _ _ _ _ _ _ _ confined_newsLine hrule hlist _
    (.modifier (.inr (by decide +kernel)))
  have hcosmetic : join [','] (newsEntries.map DomainScope.entryText) ++ '#' :: '#' ::
      "#ad > b".toList = "news.example,~archive.news.example,blog.example###ad > b".toList := by
    decide
  have hshorter : "||ads.example^".toList ++
      '$' :: join [','] (["Script".toList] ++ ["3p".toList]) =
        "||ads.example^$Script,3p".toList := by
    decide
  rw [hcosmetic] at hhider
  rw [hshorter] at hfreed
  refine ⟨hfloor, hlimit, hhost, hadmits, hrule, ⟨hider, hhider, fun url => ?_⟩, list, freed, hlist,
    hfreed, fun q hpage => ?_⟩
  · rw [hhidden url, if_pos hadmits]
  · rw [hsame q hpage, and_iff_left hadmits]

/-- A rule for a single site whose pattern ends with a number sign. -/
def numberRule : NetworkRule where
  pattern := "abc#".toList
  scope := ⟨SortedSet.ofList ["news.example".toList], ∅⟩

theorem confined_numberRule : Line.Confined "abc#$domain=news.example,#b".toList "abc#".toList []
    "domain=news.example".toList ["#b".toList] numberRule.scope where
  text := by decide
  feed := by decide
  hosts := by decide
  cut := by decide
  entries := by
    have hnone : ∀ e ∈ ["domain=news.example".toList, "#b".toList], ',' ∉ e ∧ '$' ∉ e := by decide
    exact fun e he => (hnone e he).imp_right dollarsEscaped_of_notMem
  domains := by
    refine ⟨"news.example".toList, by decide, [(false, "news.example".toList)], by decide,
      by decide +kernel, fun d => ?_, fun d => ?_⟩
    · exact SortedSet.mem_ofList.trans (by simp)
    · exact iff_of_false (SortedSet.not_mem_empty d) (by simp)
  others := by decide

def numberRequest : Request where
  url := "http://abc#".toList
  topDomain := some "news.example".toList

/-- Without its domains a line can turn out to have a cosmetic marker, and then nothing is blocked.
When the dollar sign goes with the domains, the pattern can lose what stands behind another dollar
sign, or the white space at its end, and then more is blocked. -/
theorem freed_line_decides_otherwise :
    Domain.IsPlainName "news.example".toList ∧ numberRule.scope.Admits "news.example".toList ∧
      Line.Confined "abc#$domain=news.example,#b".toList "abc#".toList []
        "domain=news.example".toList ["#b".toList] numberRule.scope ∧
      Line.ofText 3 "abc#$domain=news.example,#b".toList = .rules (.network numberRule) [] 1 ∧
      (∃ list freed, ofLine 3 defaultLimit "x".toList "abc#$domain=news.example,#b".toList =
          .ok list ∧ ofLine 3 defaultLimit "x".toList "abc#$#b".toList = .ok freed ∧
        list.blocks numberRequest = true ∧ freed.blocks numberRequest = false) ∧
      (∃ list freed, ofLine 3 defaultLimit "x".toList "abc$d$domain=news.example".toList =
          .ok list ∧ ofLine 3 defaultLimit "x".toList "abc$d".toList = .ok freed ∧
        list.blocks numberRequest = false ∧ freed.blocks numberRequest = true) ∧
      ∃ list freed, ofLine 3 defaultLimit "x".toList "abc $domain=news.example".toList = .ok list ∧
        ofLine 3 defaultLimit "x".toList "abc".toList = .ok freed ∧
        list.blocks numberRequest = false ∧ freed.blocks numberRequest = true := by
  have hlists : ∀ (line : Text) (r : NetworkRule) (ignored : Nat) (blocked : Bool),
      Line.ofText 3 line = .rules (.network r) [] ignored → r.dangles = false →
        (Record.ofNetwork r).blocks Regex.reader numberRequest = blocked →
          ∃ list, ofLine 3 defaultLimit "x".toList line = .ok list ∧
            list.blocks numberRequest = blocked := by
    intro line r ignored blocked hrule hdangles hblocked
    obtain ⟨list, hlist, hsame⟩ : ∃ list, ofLine 3 defaultLimit "x".toList line = .ok list ∧ _ :=
      exists_ofLine (by decide) (by decide) hrule hdangles
    exact ⟨list, hlist, by rw [hsame, hblocked]⟩
  have hnumber : Line.ofText 3 "abc#$domain=news.example,#b".toList =
      .rules (.network numberRule) [] 1 := by decide +kernel
  obtain ⟨number, hnumberList, hnumberBlocks⟩ := hlists _ _ _ true hnumber (by decide)
    (by decide +kernel)
  have hmarker : ofLine 3 defaultLimit "x".toList "abc#$#b".toList = .ok ⟨"x".toList, []⟩ := by
    have hrecords : (Line.ofText 3 "abc#$#b".toList).toRules.filterMap (Record.ofRule? 3) = [] := by
      decide +kernel
    have hnone : ∀ r ∈ ([] : List Record), r.WellFormed ∧ r.Compiles Regex.reader := nofun
    rw [ofLine, hrecords]
    exact compile_records (fun r hr => (hnone r hr).1) (fun r hr => (hnone r hr).2) (by decide) _
  obtain ⟨dollar, hdollar, hdollarBlocks⟩ := hlists "abc$d$domain=news.example".toList
    { numberRule with pattern := "abc$d".toList } 0 false (by decide +kernel) (by decide)
    (by decide +kernel)
  obtain ⟨cut, hcut, hcutBlocks⟩ := hlists "abc$d".toList { pattern := "abc".toList } 1 true
    (by decide +kernel) (by decide) (by decide +kernel)
  obtain ⟨blank, hblank, hblankBlocks⟩ := hlists "abc $domain=news.example".toList
    { numberRule with pattern := "abc ".toList } 0 false (by decide +kernel) (by decide)
    (by decide +kernel)
  obtain ⟨plain, hplain, hplainBlocks⟩ := hlists "abc".toList { pattern := "abc".toList } 0 true
    (by decide +kernel) (by decide) (by decide +kernel)
  exact ⟨by decide +kernel, by decide +kernel, confined_numberRule, hnumber,
    ⟨number, _, hnumberList, hmarker, hnumberBlocks, rfl⟩,
    ⟨dollar, cut, hdollar, hcut, hdollarBlocks, hcutBlocks⟩,
    blank, plain, hblank, hplain, hblankBlocks, hplainBlocks⟩

end RuleList

end ContentFilter
