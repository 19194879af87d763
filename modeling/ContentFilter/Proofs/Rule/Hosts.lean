import ContentFilter.Proofs.Rule.Syntax

/-! # Entries of hosts files

An entry of a hosts file sends names to an address at which nothing answers. It comes to the rules
of the lines `||name^` for its names, those aside that are not plain or by which a machine calls
itself. The two ways of writing are read by different paths: one by words, the other by anchors.

* `HostsEntry`: the entries, with `HostsEntry.text` for their lines.
* `HostsEntry.ofText_eq_ofHosts`: an entry is read by its names.
* `Line.ofText_domainText`: the line for one name.
* `HostsEntry.toRules_eq_domainLines`: an entry comes to the lines for its names.
-/

set_option autoImplicit false

namespace ContentFilter

open Text

/-! ## Addresses -/

namespace Line

/-- The addresses at which nothing answers, in the usual forms or made of digits and dots. -/
def IsSink (address : Text) : Prop :=
  address ∈ blockingAddresses ∨ (∀ c ∈ address, isDecimal c = true ∨ c = '.') ∧
    (startsWith address "0.".toList = true ∨ startsWith address "127.".toList = true)

theorem isBlank_of_isAddressChar {c : Char} (h : isAddressChar c = true) : isBlank c = false := by
  simp only [isAddressChar, Bool.or_eq_true, Bool.and_eq_true, decide_eq_true_eq] at h
  have hletter : 0x41 ≤ c.toNat → c.toNat ≤ 0x66 → isBlank c = false := by
    intro hlow hhigh
    rw [Bool.eq_false_iff, ne_eq, isBlank_iff]
    rintro (hblank | ⟨b, -, hfar, -⟩) <;> omega
  rcases h with (((hdecimal | rfl) | rfl) | ⟨hlow, hhigh⟩) | ⟨hlow, hhigh⟩
  · exact isBlank_of_isDigit (isDigit_of_isDecimal hdecimal)
  · decide
  · decide
  · exact hletter (Nat.le_trans (by decide) hlow) hhigh
  · exact hletter hlow (Nat.le_trans hhigh (by decide))

theorem IsSink.isAddressChar {address : Text} (h : IsSink address) :
    ∀ c ∈ address, isAddressChar c = true := by
  rcases h with hmem | ⟨hchars, -⟩
  · have hall : ∀ a ∈ blockingAddresses, a.all Line.isAddressChar = true := by decide
    exact List.all_eq_true.mp (hall address hmem)
  · intro c hc
    rcases hchars c hc with hdecimal | rfl
    · simp [Line.isAddressChar, hdecimal]
    · decide

theorem IsSink.isBlocking {address : Text} (h : IsSink address) : isBlocking address = true := by
  rcases h with hmem | ⟨-, hzero | hloop⟩
  · rw [Line.isBlocking, List.contains_iff_mem.mpr hmem, Bool.true_or, Bool.true_or]
  · rw [Line.isBlocking, hzero, Bool.or_true, Bool.true_or]
  · rw [Line.isBlocking, hloop, Bool.or_true]

theorem IsSink.eq_cons {address : Text} (h : IsSink address) : ∃ c cs, address = c :: cs := by
  cases address with
  | nil =>
    rcases h with hmem | ⟨-, hzero | hloop⟩
    · exact absurd hmem (by decide)
    · exact absurd hzero (by decide)
    · exact absurd hloop (by decide)
  | cons c cs => exact ⟨c, cs, rfl⟩

end Line

/-! ## Names behind white space -/

/-- Names, each behind its white space. -/
def spacedText (names : List (Text × Text)) : Text := names.flatMap fun n => n.1 ++ n.2

/-- The words behind a text are the names that are written there. -/
theorem words_append_spacedText {names : List (Text × Text)}
    (hgaps : ∀ n ∈ names, n.1 ≠ [] ∧ ∀ c ∈ n.1, isBlank c = true)
    (htokens : ∀ n ∈ names, n.2 ≠ [] ∧ ∀ c ∈ n.2, isBlank c = false) (t : Text) :
    words (t ++ spacedText names) = words t ++ names.map Prod.snd := by
  -- for any text in front, so that a name can come to stand there
  induction names generalizing t with
  | nil => simp [spacedText]
  | cons n ns ih =>
    obtain ⟨hgap, hgaps⟩ := List.forall_mem_cons.mp hgaps
    obtain ⟨htoken, htokens⟩ := List.forall_mem_cons.mp htokens
    obtain ⟨c, cs, hcons⟩ := List.exists_cons_of_ne_nil hgap.1
    have hblank : isBlank c = true ∧ ∀ d ∈ cs, isBlank d = true := by
      have hall := hgap.2
      rwa [hcons, List.forall_mem_cons] at hall
    have htext : t ++ spacedText (n :: ns) = t ++ c :: (cs ++ (n.2 ++ spacedText ns)) := by
      simp [spacedText, hcons]
    rw [htext, words_append_cons hblank.1, words_append hblank.2, ih hgaps htokens,
      words_eq_singleton htoken.1 htoken.2, List.map_cons, List.singleton_append]

/-! ## Entries -/

/-- An entry of a hosts file: an address and names, each with the white space before it. -/
structure HostsEntry where
  address : Text
  names : List (Text × Text)
  isSink : Line.IsSink address
  names_ne_nil : names ≠ []
  gaps : ∀ n ∈ names, n.1 ≠ [] ∧ ∀ c ∈ n.1, c = ' ' ∨ c = '\t'
  tokens : ∀ n ∈ names, n.2 ≠ [] ∧ ∀ c ∈ n.2, isBlank c = false

namespace HostsEntry

variable (e : HostsEntry)

def text : Text := e.address ++ spacedText e.names

/-- The domains that an entry is about: the plain names before a comment, in normal form, those by
which a machine calls itself aside. -/
def domains : List Text :=
  (((e.names.map Prod.snd).takeWhile fun n => !startsWith n ['#']).map Domain.normalize).filter
    fun d => !Domain.isLocal d && Domain.isPlain d

theorem isBlank_gap {n : Text × Text} (hn : n ∈ e.names) : ∀ c ∈ n.1, isBlank c = true := by
  intro c hc
  rcases (e.gaps n hn).2 c hc with rfl | rfl <;> decide

theorem exists_spacedText_eq_cons : ∃ c cs, spacedText e.names = c :: cs ∧ isBlank c = true := by
  obtain ⟨n, ns, hnames⟩ := List.exists_cons_of_ne_nil e.names_ne_nil
  have hn : n ∈ e.names := hnames ▸ List.mem_cons_self
  obtain ⟨c, cs, hgap⟩ := List.exists_cons_of_ne_nil (e.gaps n hn).1
  refine ⟨c, cs ++ (n.2 ++ spacedText ns), by simp [spacedText, hnames, hgap], ?_⟩
  exact e.isBlank_gap hn c (hgap ▸ List.mem_cons_self)

theorem mem_spacedText {c : Char} (h : c ∈ spacedText e.names) :
    c = ' ' ∨ c = '\t' ∨ isBlank c = false := by
  obtain ⟨n, hn, hc⟩ := List.mem_flatMap.mp h
  rcases List.mem_append.mp hc with hgap | htoken
  · exact ((e.gaps n hn).2 c hgap).imp_right .inl
  · exact .inr (.inr ((e.tokens n hn).2 c htoken))

/-- A line that holds an entry ends with a name. -/
theorem getLast?_text {c : Char} (h : e.text.getLast? = some c) : isBlank c = false := by
  obtain ⟨ns, n, hnames⟩ := (List.eq_nil_or_concat' e.names).resolve_left e.names_ne_nil
  obtain ⟨hne, htoken⟩ := e.tokens n (by simp [hnames])
  have htext : e.text = e.address ++ spacedText ns ++ n.1 ++ n.2 := by
    simp [text, hnames, spacedText]
  rw [htext, List.getLast?_append_of_ne_nil _ hne] at h
  exact htoken c (List.mem_of_getLast? h)

/-- The names of an entry stand behind its address. -/
theorem hostsNames?_text : Line.hostsNames? e.text = some (e.names.map Prod.snd) := by
  obtain ⟨c, cs, hcons, hblank⟩ := e.exists_spacedText_eq_cons
  have haddress : Line.isAddressChar c = false := by
    by_contra hchar
    rw [Bool.not_eq_false] at hchar
    exact absurd hblank (by simp [Line.isBlank_of_isAddressChar hchar])
  have hgap : ∀ d, (spacedText e.names).head? = some d → Line.isAddressChar d = false := by
    rw [hcons]
    rintro d ⟨⟩
    exact haddress
  have htake : e.text.takeWhile Line.isAddressChar = e.address :=
    takeWhile_append_eq e.isSink.isAddressChar hgap
  have hdrop : e.text.dropWhile Line.isAddressChar = spacedText e.names :=
    dropWhile_append_eq e.isSink.isAddressChar hgap
  have hwords : words (stripStart (spacedText e.names)) = e.names.map Prod.snd := by
    have hall := words_append_spacedText (fun n hn => ⟨(e.gaps n hn).1, e.isBlank_gap hn⟩)
      e.tokens []
    rw [words_stripStart]
    exact hall
  have hne : stripStart (spacedText e.names) ≠ spacedText e.names := by
    intro heq
    have hhead := List.head?_dropWhile_not isBlank (spacedText e.names)
    rw [← stripStart, heq, hcons] at hhead
    simp [hblank] at hhead
  have hsome : stripStart (spacedText e.names) ≠ [] := by
    intro hnil
    rw [hnil] at hwords
    exact e.names_ne_nil (List.map_eq_nil_iff.mp hwords.symm)
  have hfeed : '\n' ∉ stripStart (spacedText e.names) := by
    intro hmem
    rcases e.mem_spacedText ((List.dropWhile_sublist _).subset hmem) with h | h | h
    all_goals exact absurd h (by decide)
  unfold Line.hostsNames?
  simp [htake, hdrop, hwords, e.isSink.isBlocking, hne, hsome, hfeed]

/-- A line that holds an entry, and no cosmetic rule, is read by the names of the entry. -/
theorem ofText_eq_ofHosts (hmarker : Line.cosmeticMarker? e.text = none) (floor : Nat) :
    Line.ofText floor e.text = Line.ofHosts floor (e.names.map Prod.snd) := by
  obtain ⟨c, cs, hcons⟩ := e.isSink.eq_cons
  have hchar : Line.isAddressChar c = true := e.isSink.isAddressChar c (hcons ▸ List.mem_cons_self)
  have htext : e.text = c :: (cs ++ spacedText e.names) := by rw [text, hcons, List.cons_append]
  have hstrip : strip e.text = e.text := by
    refine dropAroundWhile_eq_self_of_ends (fun d hd => ?_) fun d => e.getLast?_text
    rw [htext] at hd
    obtain rfl := Option.some.inj hd
    exact Line.isBlank_of_isAddressChar hchar
  have hmarks : c ∉ ['@', '!', '#', '['] := by
    have hall : ∀ d ∈ ['@', '!', '#', '['], Line.isAddressChar d = false :=
      forall_mem_of_all (by decide)
    intro hmem
    exact absurd hchar (by simp [hall c hmem])
  have hexception : startsWith e.text "@@".toList = false := by
    rw [htext]
    exact startsWith_cons_of_ne (List.ne_of_not_mem_cons hmarks) _ _
  have hrule : Line.ofText floor e.text = Line.ofRule floor e.text := by
    rw [Line.ofText_eq_ofRule (hstrip.trans htext) (List.not_mem_of_not_mem_cons hmarks), ← htext]
  rw [hrule, Line.ofRule, hexception, if_neg Bool.false_ne_true, hmarker, e.hostsNames?_text]

end HostsEntry

/-! ## Lines for one name -/

theorem Domain.isPlainName_normalize {t : Text} (hblank : ∀ c ∈ t, isBlank c = false)
    (hplain : isPlain (normalize t) = true) : IsPlainName (normalize t) := by
  refine ⟨hplain, ?_⟩
  have hchars : ∀ c ∈ normalize t, isBlank c = false := by
    intro c hc
    rcases mem_of_isPlain hplain c hc with hchar | rfl
    · exact hchar.isBlank_eq
    · -- a line feed in the name would come from one in the text
      have hlower : '\n' ∈ lower t := (dropAroundWhile_sublist isBlank _).subset
        ((dropEndWhile_sublist _ _).subset hc)
      exact hblank _ (mem_of_mem_lower (by decide) hlower)
  conv_lhs => rw [normalize, lower_of_isPlain hplain, strip_eq_self hchars]
  refine dropEndWhile_eq_self fun c hlast => ?_
  rw [decide_eq_false_iff_not]
  rintro rfl
  exact getLast?_normalize t hlast

namespace Line

/-- The line that blocks a domain and all below it. -/
def domainText (domain : Text) : Text := "||".toList ++ domain ++ ['^']

variable {d : Text}

theorem isPlainPattern_of_isPlainName (hd : Domain.IsPlainName d) :
    NetworkRule.IsPlainPattern d := by
  have hmarks : ∀ c ∈ '|' :: '^' :: '*' :: NetworkRule.patternMarks, c ∉ d := by
    have hall : ∀ c ∈ '|' :: '^' :: '*' :: NetworkRule.patternMarks, ¬ Domain.IsPlainChar c :=
      forall_mem_of_all (by decide)
    exact fun c hc => hd.notMem (hall c hc)
  constructor
  case chars =>
    refine fun c hc => ⟨(hd.isPlainChar hc).isBlank_eq, fun hmark => hmarks c ?_ hc⟩
    exact .tail _ (.tail _ (.tail _ hmark))
  case head => exact fun h => hmarks '|' (by decide) (List.mem_of_head? h)
  case label => exact startsWith_eq_false (c := '*') (by decide) (hmarks '*' (by decide))
  case last =>
    exact ⟨fun h => hmarks '|' (by decide) (List.mem_of_getLast? h),
      fun h => hmarks '^' (by decide) (List.mem_of_getLast? h)⟩

/-- The line that blocks a plain name holds the rule that does so, unless the name is too short. -/
theorem ofText_domainText (hd : Domain.IsPlainName d) (floor : Nat) :
    ofText floor (domainText d) =
      if d.length < floor then .rejected 0
      else .rules (.network (NetworkRule.forDomain d)) [] 0 := by
  have htext : domainText d = (NetworkRule.forDomain d).text [] := by
    simp [domainText, NetworkRule.text, NetworkRule.patternText, NetworkRule.forDomain,
      NetworkRule.anchorText, NetworkRule.modifiersText]
  have hpattern : NetworkRule.IsPlainPattern (NetworkRule.forDomain d).pattern :=
    isPlainPattern_of_isPlainName hd
  have hlong : 1 ≤ NetworkRule.significantLength (NetworkRule.forDomain d).pattern := by
    rw [NetworkRule.forDomain, NetworkRule.significantLength_of_isPlain hd.1]
    exact List.length_pos_of_ne_nil hd.ne_nil
  have hmodified : (NetworkRule.forDomain d).Modified [] := by
    constructor
    case resourceTypes => exact fun t => iff_of_false (SortedSet.not_mem_empty t) List.not_mem_nil
    case party => exact .inl ⟨rfl, rfl⟩
    case scope => exact .inl ⟨rfl, rfl⟩
  have hnetwork : IsNetwork (domainText d) := by
    rw [htext]
    refine NetworkRule.isNetwork_text hpattern hlong (fun _ => ?_) .nil
    exact NetworkRule.isRegexPattern_patternText fun hanywhere =>
      absurd hanywhere (by simp [NetworkRule.forDomain])
  have hstrip : strip (domainText d) = domainText d := by
    rw [htext]
    exact strip_eq_self fun c hc => (NetworkRule.mem_text hpattern .nil hc).1
  obtain ⟨hmark, hbody⟩ := NetworkRule.body_text hpattern hlong []
  have hrule := NetworkRule.networkRule_text hpattern hlong .nil hmodified
  have hmodifiers := (NetworkRule.splitModifiers_text hpattern .nil).2
  rw [ofText_eq_ofNetwork (by rwa [hstrip]), hstrip, htext, hmark, hbody, ofNetwork_eq, hrule,
    hmodifiers]
  show (if NetworkRule.significantLength d < floor then Line.rejected 0 else _) = _
  rw [NetworkRule.significantLength_of_isPlain hd.1]
  rfl

theorem toRules_ofText_domainText (hd : Domain.IsPlainName d) (floor : Nat) :
    (ofText floor (domainText d)).toRules =
      if floor ≤ d.length then [.network (NetworkRule.forDomain d)] else [] := by
  rw [ofText_domainText hd]
  split_ifs with hshort hlong hlong
  · omega
  · rfl
  · rfl
  · omega

/-- An entry of a hosts file is rejected when there is no rule in it. -/
theorem reason_ofHosts_iff (floor : Nat) (names : List Text) :
    (ofHosts floor names).reason = "rejected".toList ↔ (ofHosts floor names).toRules = [] := by
  have hforms : ofHosts floor names = .rejected 0 ∨
      ∃ rule others, ofHosts floor names = .rules rule others 0 := by
    unfold ofHosts
    dsimp only
    split
    · exact .inl rfl
    next rule others _ => exact .inr ⟨rule, others, rfl⟩
  rcases hforms with hnone | ⟨rule, others, hsome⟩
  · rw [hnone]
    exact iff_of_true rfl rfl
  · rw [hsome]
    refine iff_of_false ?_ (List.cons_ne_nil rule others)
    cases rule with
    | network => exact (by decide : "network".toList ≠ "rejected".toList)
    | cosmetic => exact (by decide : "cosmetic".toList ≠ "rejected".toList)
    | unsupported => exact (by decide : "unsupported".toList ≠ "rejected".toList)

end Line

/-! ## The two ways of writing -/

namespace HostsEntry

variable (e : HostsEntry)

theorem isPlainName_of_mem_domains {d : Text} (h : d ∈ e.domains) : Domain.IsPlainName d := by
  obtain ⟨hd, hblockable⟩ := List.mem_filter.mp h
  obtain ⟨name, hname, rfl⟩ := List.mem_map.mp hd
  obtain ⟨n, hn, rfl⟩ := List.mem_map.mp ((List.takeWhile_prefix _).subset hname)
  exact Domain.isPlainName_normalize (e.tokens n hn).2 (Bool.and_eq_true _ _ ▸ hblockable).2

/-- The names of an entry are held to the least length one by one. -/
theorem toRules_ofHosts_names (floor : Nat) :
    (Line.ofHosts floor (e.names.map Prod.snd)).toRules =
      (e.domains.filter fun d => floor ≤ d.length).map
        fun d => .network (NetworkRule.forDomain d) := by
  rw [Line.toRules_ofHosts, domains, List.filter_filter]
  congr 1
  refine List.filter_congr fun d _ => ?_
  rw [Line.isBlockable, Bool.and_comm]

/-- An entry of a hosts file comes to the rules of the lines for its domains, one after the other,
and is rejected when there are none. -/
theorem toRules_eq_domainLines (hmarker : Line.cosmeticMarker? e.text = none) (floor : Nat) :
    (Line.ofText floor e.text).toRules = e.domains.filterMap
      (fun d => (Line.ofText floor (Line.domainText d)).toRules.head?) ∧
    ((Line.ofText floor e.text).reason = "rejected".toList ↔
      (Line.ofText floor e.text).toRules = []) := by
  rw [e.ofText_eq_ofHosts hmarker]
  refine ⟨?_, Line.reason_ofHosts_iff floor _⟩
  calc (Line.ofHosts floor (e.names.map Prod.snd)).toRules
      = (e.domains.filter fun d => floor ≤ d.length).map
          fun d => .network (NetworkRule.forDomain d) := e.toRules_ofHosts_names floor
    _ = e.domains.filterMap fun d =>
          if floor ≤ d.length then some (.network (NetworkRule.forDomain d)) else none := by
        rw [← List.filterMap_eq_map, List.filterMap_filter]
        simp only [decide_eq_true_eq, Function.comp_apply]
    _ = e.domains.filterMap fun d => (Line.ofText floor (Line.domainText d)).toRules.head? := by
        refine List.filterMap_congr fun d hd => ?_
        rw [Line.toRules_ofText_domainText (e.isPlainName_of_mem_domains hd)]
        split_ifs <;> rfl

def adsNames : List (Text × Text) :=
  [(" ", "Ads.Example."), ("\t ", "localhost"), (" ", "ad"), (" ", "tracker.example"),
    ("\t", "#spare"), (" ", "house.example")].map fun n => (n.1.toList, n.2.toList)

/-- An entry with two domains, among names that are local, too short, or behind a comment. -/
def adsEntry : HostsEntry where
  address := "0.0.0.0".toList
  names := adsNames
  isSink := .inl (by decide)
  names_ne_nil := by decide
  gaps := by
    have hall : ∀ n ∈ adsNames, n.1 ≠ [] ∧ n.1.all (fun c => c = ' ' ∨ c = '\t') = true := by decide
    exact fun n hn => (hall n hn).imp_right forall_mem_of_all
  tokens := by
    have hall : ∀ n ∈ adsNames, n.2 ≠ [] ∧ n.2.all (fun c => isBlank c = false) = true := by decide
    exact fun n hn => (hall n hn).imp_right forall_mem_of_all

theorem toRules_eq_domainLines_ads :
    adsEntry.text =
      "0.0.0.0 Ads.Example.\t localhost ad tracker.example\t#spare house.example".toList ∧
    Line.cosmeticMarker? adsEntry.text = none ∧
    adsEntry.domains = ["ads.example".toList, "ad".toList, "tracker.example".toList] ∧
    (Line.ofText 3 adsEntry.text).toRules =
      [.network (.forDomain "ads.example".toList), .network (.forDomain "tracker.example".toList)] ∧
    (Line.ofText 16 adsEntry.text).reason = "rejected".toList := by
  have hmarker : Line.cosmeticMarker? adsEntry.text = none := by decide +kernel
  have hdomains : adsEntry.domains =
      ["ads.example".toList, "ad".toList, "tracker.example".toList] := by decide +kernel
  obtain ⟨hrules, -⟩ := toRules_eq_domainLines adsEntry hmarker 3
  obtain ⟨hnone, hreason⟩ := toRules_eq_domainLines adsEntry hmarker 16
  rw [hdomains] at hrules hnone
  refine ⟨by decide +kernel, hmarker, hdomains, ?_, hreason.mpr ?_⟩
  · rw [hrules]
    decide +kernel
  · rw [hnone]
    decide +kernel

end HostsEntry

end ContentFilter
