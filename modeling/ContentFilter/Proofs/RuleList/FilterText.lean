import ContentFilter.Proofs.Pattern.Dangling
import ContentFilter.Proofs.Record.Lossless
import ContentFilter.Proofs.RuleList.Decision

/-! # Filter texts as rule lists

The records for a filter text always survive being written as JSON. They make a rule list unless a
rule of the text ends in a lone backslash: its regular expression cannot be read, and the whole
chunk is refused for it.

* `Record.compiles_ofNetwork_iff`, `Record.compiles_ofSelector`: records whose expression can be
  read.
* `RuleList.compileRules_cases`: a list is refused for its first record whose expression cannot be
  read.
* `RuleList.compile_convert_iff`: which filter texts make a rule list.
-/

set_option autoImplicit false

namespace ContentFilter

open Text Pattern

/-! ## Records whose expression can be read -/

namespace Record

theorem compiles_of_parse {r : Record} {re : Regex} (h : Regex.parse r.trigger.urlFilter = .ok re) :
    r.Compiles Regex.reader := ⟨re.search, by rw [Regex.reader, h]⟩

theorem not_compiles_of_read {read : FilterReader} {r : Record} {e : FilterFault}
    (h : read r.trigger.urlFilter = .error e) : ¬ r.Compiles read := by
  rintro ⟨finds, hfinds⟩
  exact nomatch hfinds.symm.trans h

/-- The expression of the records for selectors finds something in every URL. -/
theorem exists_search_everyUrl :
    ∃ re, Regex.parse everyUrl = .ok re ∧ ∀ url, re.search url = true := by
  -- it is the expression for a wildcard
  have htext : everyUrl = toRegex ['*'] := by decide
  have hread : Regex.Spells Regex.nestingLimit everyUrl _ := htext ▸ spells_toRegex rfl
  refine ⟨_, hread.parse, fun url => (Regex.search_iff _ url).mpr ⟨[], url, rfl, ?_⟩⟩
  exact (Regex.rounds_step_isSome (fun d => d != '\n') some url 0 (url.length + 1) 0
    (Nat.lt_succ_self _)).mpr ⟨[], url, rfl, ⟨Nat.zero_le _, nofun⟩, rfl⟩

theorem compiles_ofSelector (selector : Text) (scope : DomainScope) :
    (ofSelector selector scope).Compiles Regex.reader := by
  obtain ⟨re, hre, -⟩ := exists_search_everyUrl
  exact compiles_of_parse hre

/-- The expression for a rule that dangles is found to be malformed. -/
theorem read_ofNetwork_of_dangles (rule : NetworkRule) (h : rule.dangles = true) :
    ∃ reason, Regex.reader (ofNetwork rule).trigger.urlFilter = .error (.malformed reason) := by
  have hfilter : Regex.parse (ofNetwork rule).trigger.urlFilter = .error .malformed :=
    NetworkRule.parse_urlFilter_of_dangles h
  exact ⟨_, by rw [Regex.reader, hfilter]⟩

/-- The expression for a network rule can be read exactly when the rule does not dangle. -/
theorem compiles_ofNetwork_iff {rule : NetworkRule} :
    (ofNetwork rule).Compiles Regex.reader ↔ rule.dangles = false := by
  constructor
  · intro hcompiles
    by_contra hdangles
    obtain ⟨reason, hreason⟩ := read_ofNetwork_of_dangles rule (by simpa using hdangles)
    exact not_compiles_of_read hreason hcompiles
  · intro hdangles
    obtain ⟨re, hre⟩ := NetworkRule.parse_urlFilter_of_not_dangles hdangles
    exact compiles_of_parse hre

/-- The expression of a record that comes from a rule can be read, unless the rule dangles. -/
theorem compiles_or_dangles {floor : Nat} {rule : Rule} {r : Record}
    (h : ofRule? floor rule = some r) :
    r.Compiles Regex.reader ∨ ∃ n, rule = .network n ∧ r = ofNetwork n ∧ n.dangles = true := by
  cases rule with
  | network n =>
    simp only [ofRule?, Option.ite_none_left_eq_some] at h
    obtain rfl := Option.some.inj h.2
    cases hn : n.dangles with
    | false => exact .inl (compiles_ofNetwork_iff.mpr hn)
    | true => exact .inr ⟨n, rfl, rfl, hn⟩
  | cosmetic c =>
    simp only [ofRule?, Option.ite_none_left_eq_some] at h
    obtain rfl := Option.some.inj h.2
    exact .inl (compiles_ofSelector _ _)
  | unsupported line => exact absurd h (by simp [ofRule?])

end Record

/-! ## The first record that cannot be read -/

namespace RuleList

/-- A list whose regular expressions are all read or malformed is refused for the first malformed
one. -/
theorem compileRules_cases {read : FilterReader} {rs : List Record}
    (h : ∀ r ∈ rs, r.Compiles read ∨
      ∃ reason, read r.trigger.urlFilter = .error (.malformed reason)) (index : Nat) :
    (∀ r ∈ rs, r.Compiles read) ∨ ∃ before r after reason, rs = before ++ r :: after ∧
      (∀ b ∈ before, b.Compiles read) ∧ ¬ r.Compiles read ∧
        compileRules read index rs = .error (.badFilter (index + before.length) reason) := by
  induction rs generalizing index with
  | nil => exact .inl nofun
  | cons r rs ih =>
    obtain ⟨hr, hrs⟩ := List.forall_mem_cons.mp h
    rcases hr with hread | ⟨reason, hbad⟩
    · rcases ih hrs (index + 1) with hall | ⟨before, s, after, reason, rfl, hbefore, hs, hfault⟩
      · exact .inl (List.forall_mem_cons.mpr ⟨hread, hall⟩)
      · refine .inr ⟨r :: before, s, after, reason, rfl, ?_, hs, ?_⟩
        · exact List.forall_mem_cons.mpr ⟨hread, hbefore⟩
        · obtain ⟨c, hc⟩ := hread.exists_rule?
          rw [compileRules, compileRule_eq hc, hfault, List.length_cons, Nat.add_right_comm index 1]
          rfl
    · refine .inr ⟨[], r, rs, reason, rfl, nofun, Record.not_compiles_of_read hbad, ?_⟩
      rw [compileRules, compileRule, hbad]
      rfl

end RuleList

/-! ## Filter texts -/

namespace FilterList

variable {floor : Nat} {t : Text}

theorem mem_convert {r : Record} : r ∈ (convert floor t).1 ↔
    ∃ rule ∈ rules floor (lines t), Record.ofRule? floor rule = some r := by
  simp [convert, List.mem_filterMap]

theorem floor_le_significantLength {rule : NetworkRule}
    (h : .network rule ∈ rules floor (lines t)) :
    floor ≤ NetworkRule.significantLength rule.pattern := by
  obtain ⟨line, -, hline⟩ := List.mem_flatMap.mp h
  exact Line.floor_le_significantLength hline

theorem ofNetwork_mem_convert {rule : NetworkRule} (h : .network rule ∈ rules floor (lines t)) :
    Record.ofNetwork rule ∈ (convert floor t).1 :=
  mem_convert.mpr ⟨_, h, if_neg (Nat.not_lt.mpr (floor_le_significantLength h))⟩

theorem wellFormed_of_mem_convert (hfloor : 1 ≤ floor) {r : Record} (h : r ∈ (convert floor t).1) :
    r.WellFormed := by
  obtain ⟨rule, hrule, hr⟩ := mem_convert.mp h
  refine Record.wellFormed_of_ofRule? (fun n hn => ?_) hr
  subst hn
  have hlength : floor ≤ n.pattern.length :=
    (floor_le_significantLength hrule).trans (NetworkRule.significantLength_le n.pattern)
  exact List.ne_nil_of_length_pos (by omega)

/-- The expression of a record for a filter text can be read, unless the record comes from a rule
that dangles. -/
theorem compiles_or_dangles {r : Record} (h : r ∈ (convert floor t).1) :
    r.Compiles Regex.reader ∨ ∃ rule, .network rule ∈ rules floor (lines t) ∧
      r = Record.ofNetwork rule ∧ rule.dangles = true := by
  obtain ⟨rule, hrule, hr⟩ := mem_convert.mp h
  refine (Record.compiles_or_dangles hr).imp_right ?_
  rintro ⟨n, rfl, hn⟩
  exact ⟨n, hrule, hn⟩

end FilterList

namespace RuleList

/-- The records for a filter text are read from their JSON text as they were written, and they make
a rule list exactly when no rule of the text dangles. Otherwise the list is refused for the record
of a rule that dangles, the first one whose regular expression cannot be read. -/
theorem compile_convert_iff {floor : Nat} (hfloor : 1 ≤ floor) {t : Text} {records : List Record}
    {skipped : Nat} (hrecords : FilterList.convert floor t = (records, skipped)) {limit : Int}
    (hlimit : records.length ≤ limit) (name : Text) :
    Record.listOfText (Record.listToText records) = .ok (records, 0) ∧
      ((∃ list, compile limit name (Record.listToText records) = .ok list) ↔
        ∀ rule, .network rule ∈ FilterList.rules floor (lines t) → rule.dangles = false) ∧
      ∀ fault, compile limit name (Record.listToText records) = .error fault →
        ∃ before rule after reason, records = before ++ Record.ofNetwork rule :: after ∧
          (∀ b ∈ before, b.Compiles Regex.reader) ∧ rule.dangles = true ∧
            fault = .badFilter before.length reason := by
  obtain rfl : (FilterList.convert floor t).1 = records := congrArg Prod.fst hrecords
  have hwell : ∀ r ∈ (FilterList.convert floor t).1, r.WellFormed := fun r hr =>
    FilterList.wellFormed_of_mem_convert hfloor hr
  refine ⟨Record.listOfText_listToText hwell, ?_⟩
  rw [compile_listToText hwell hlimit]
  have hread : ∀ r ∈ (FilterList.convert floor t).1,
      r.Compiles Regex.reader ∨
        ∃ reason, Regex.reader r.trigger.urlFilter = .error (.malformed reason) := by
    intro r hr
    refine (FilterList.compiles_or_dangles hr).imp_right ?_
    rintro ⟨rule, -, rfl, hdangles⟩
    exact Record.read_ofNetwork_of_dangles _ hdangles
  rcases compileRules_cases hread 0 with
    hall | ⟨before, r, after, reason, hsplit, hbefore, hr, hfault⟩
  · rw [compileRules_eq hall]
    refine ⟨⟨fun _ rule hrule => ?_, fun _ => ⟨_, rfl⟩⟩, nofun⟩
    exact Record.compiles_ofNetwork_iff.mp (hall _ (FilterList.ofNetwork_mem_convert hrule))
  · have hmem : r ∈ (FilterList.convert floor t).1 := by simp [hsplit]
    obtain ⟨rule, hrule, rfl, hdangles⟩ := (FilterList.compiles_or_dangles hmem).resolve_left hr
    rw [hfault, Nat.zero_add]
    refine ⟨⟨nofun, fun hnone => absurd (hnone rule hrule) (by simp [hdangles])⟩, ?_⟩
    rintro fault ⟨⟩
    exact ⟨before, rule, after, reason, hsplit, hbefore, hdangles, rfl⟩

/-- A filter text in which backslashes stand before a separator and before one another. -/
def escapedMarks : Text :=
  "||ads.example^\nads\\^\n##.ad\n0.0.0.0 b.example\nads\\\\".toList

theorem compile_convert_escapedMarks :
    1 ≤ Record.defaultFloor ∧
      FilterList.convert Record.defaultFloor escapedMarks =
        ((FilterList.convert Record.defaultFloor escapedMarks).1, 0) ∧
      ((FilterList.convert Record.defaultFloor escapedMarks).1.length : Int) ≤ defaultLimit ∧
      ∃ list, compile defaultLimit "x".toList
        (Record.listToText (FilterList.convert Record.defaultFloor escapedMarks).1) = .ok list := by
  have hfloor : 1 ≤ Record.defaultFloor := by decide
  have hnone : (FilterList.convert Record.defaultFloor escapedMarks).2 = 0 := by decide +kernel
  have hconvert : FilterList.convert Record.defaultFloor escapedMarks =
      ((FilterList.convert Record.defaultFloor escapedMarks).1, 0) := Prod.ext rfl hnone
  have hlimit : ((FilterList.convert Record.defaultFloor escapedMarks).1.length : Int) ≤
      defaultLimit := by decide +kernel
  have hrules : (FilterList.rules Record.defaultFloor (lines escapedMarks)).all fun rule =>
      match rule with
      | .network n => !n.dangles
      | _ => true := by
    decide +kernel
  refine ⟨hfloor, hconvert, hlimit, (compile_convert_iff hfloor hconvert hlimit _).2.1.mpr ?_⟩
  exact fun rule hrule => by simpa using List.all_eq_true.mp hrules _ hrule

/-- A line that ends in a lone backslash has the whole chunk refused, the rule of another line with
it. -/
theorem lone_backslash_refused :
    (FilterList.convert Record.defaultFloor "shop/ads\nads\\".toList).1.length = 2 ∧
      ∃ reason, compile defaultLimit "x".toList
        (Record.listToText (FilterList.convert Record.defaultFloor "shop/ads\nads\\".toList).1) =
          .error (.badFilter 1 reason) := by
  have hrecords : (FilterList.convert Record.defaultFloor "shop/ads\nads\\".toList).1 =
      [Record.ofNetwork { pattern := "shop/ads".toList },
        Record.ofNetwork { pattern := "ads\\".toList }] := by
    decide +kernel
  have hwell : ∀ r ∈ [Record.ofNetwork { pattern := "shop/ads".toList },
      Record.ofNetwork { pattern := "ads\\".toList }], r.WellFormed := by
    intro r hr
    rcases List.mem_pair.mp hr with rfl | rfl
    · exact Record.wellFormed_ofNetwork (by decide)
    · exact Record.wellFormed_ofNetwork (by decide)
  have hread : (Record.ofNetwork { pattern := "shop/ads".toList }).Compiles Regex.reader :=
    Record.compiles_ofNetwork_iff.mpr (by decide)
  obtain ⟨c, hc⟩ := hread.exists_rule?
  obtain ⟨reason, hbad⟩ :=
    Record.read_ofNetwork_of_dangles { pattern := "ads\\".toList } (by decide)
  rw [hrecords, compile_listToText hwell (by decide)]
  refine ⟨rfl, reason, ?_⟩
  rw [compileRules, compileRule_eq hc, compileRules, compileRule, hbad]
  rfl

end RuleList

end ContentFilter
