import ContentFilter.Proofs.Matcher.Coverage
import ContentFilter.Proofs.Pattern.Domain
import ContentFilter.Proofs.Record.Lossless
import ContentFilter.Proofs.RuleList.Decision

/-! # Two layers over one table of domains

The domains of a table that pruning keeps are looked up by the fallback, and a rule list is compiled
from their blocking records. Both decide alike about every web address that others request.

* `Record.blocks_blockingDomain_iff`: what the record for a domain blocks.
* `RuleList.blocks_records_iff_exists`: lists without exceptions.
* `Matcher.blocks_eq_matchesDomain`: the rule list and the fallback decide alike.
-/

set_option autoImplicit false

namespace ContentFilter

open Text Domain

/-! ## The record for a domain -/

namespace Record

/-- The record that blocks what others request from a domain. -/
def blockingDomain (d : Text) : Record := ofNetwork { NetworkRule.forDomain d with party := .third }

section

variable {d : Text}

theorem blockingDomain?_eq (hd : IsPlainName d) (hlong : defaultFloor ≤ d.length) :
    blockingDomain? d = some (blockingDomain d) := by
  have hlength : NetworkRule.significantLength d = d.length :=
    NetworkRule.significantLength_of_isPlain hd.1
  exact if_neg (Nat.not_lt.mpr (hlength ▸ hlong))

/-- A list of domains that are long enough has a record for each of them. -/
theorem filterMap_blockingDomain? {ds : List Text}
    (hds : ∀ d ∈ ds, IsPlainName d ∧ defaultFloor ≤ d.length) :
    ds.filterMap blockingDomain? = ds.map blockingDomain := by
  induction ds with
  | nil => rfl
  | cons d ds ih =>
    obtain ⟨hd, hrest⟩ := List.forall_mem_cons.mp hds
    rw [List.filterMap_cons_some (blockingDomain?_eq hd.1 hd.2), ih hrest, List.map_cons]

theorem wellFormed_blockingDomain (hd : IsPlainName d) : (blockingDomain d).WellFormed :=
  wellFormed_ofNetwork hd.ne_nil

theorem admits_blockingDomain (d : Text) {q : Request} (hq : q.thirdParty = some true) :
    (blockingDomain d).trigger.admits q = true := by
  have htype : (blockingDomain d).trigger.admitsType q.resourceType = true := by
    cases q.resourceType <;> rfl
  have hparty : (blockingDomain d).trigger.admitsParty q.thirdParty = true := by
    rw [hq]
    rfl
  have hdomain : (blockingDomain d).trigger.admitsDomain q.topDomain = true := by
    cases q.topDomain <;> rfl
  rw [Trigger.admits, htype, hparty, hdomain]
  rfl

/-- The record for a domain can be read, and it blocks the addresses of the domain and of all names
that end with a dot and the domain. -/
theorem blocks_blockingDomain_iff (hd : IsPlainName d) :
    (blockingDomain d).Compiles Regex.reader ∧ ∀ {host : Text} {q : Request}, IsPlainName host →
      Url.IsWeb host q.url → q.thirdParty = some true →
        ((blockingDomain d).blocks Regex.reader q = true ↔ host = d ∨ '.' :: d <:+ host) := by
  obtain ⟨re, hread, hsearch⟩ := Pattern.search_forDomain_iff hd
  have hparse : Regex.parse (blockingDomain d).trigger.urlFilter = .ok re := hread
  have hfilter : Regex.reader (blockingDomain d).trigger.urlFilter = .ok re.search := by
    rw [Regex.reader, hparse]
  refine ⟨⟨_, hfilter⟩, fun {host q} hhost hurl hq => ?_⟩
  rw [blocks, rule?_of_read hfilter, Option.any_some, CompiledRule.blocks, CompiledRule.applies,
    admits_blockingDomain d hq, Bool.true_and]
  simpa [blockingDomain, ofNetwork, NetworkRule.forDomain] using hsearch hhost hurl

end

theorem exempts_eq_false {read : FilterReader} {r : Record} (h : r.action.kind = .block)
    (q : Request) : r.exempts read q = false := by
  unfold exempts rule?
  split
  · simp [CompiledRule.exempts, h]
  · rfl

end Record

/-- A list without exceptions blocks what one of its records blocks. -/
theorem RuleList.blocks_records_iff_exists {read : FilterReader} {rs : List Record}
    (hcompiles : ∀ r ∈ rs, r.Compiles read) (hblock : ∀ r ∈ rs, r.action.kind = .block)
    (name : Text) (q : Request) :
    (RuleList.mk name (rs.filterMap (Record.rule? read))).blocks q = true ↔
      ∃ r ∈ rs, r.blocks read q = true := by
  rw [blocks_records_iff hcompiles]
  constructor
  · rintro ⟨i, r, hr, hblocks, -⟩
    exact ⟨r, List.mem_of_getElem? hr, hblocks⟩
  · rintro ⟨r, hr, hblocks⟩
    obtain ⟨i, hi⟩ := List.mem_iff_getElem?.mp hr
    exact ⟨i, r, hi, hblocks, fun j e _ he =>
      Record.exempts_eq_false (hblock e (List.mem_of_getElem? he)) q⟩

/-! ## Both layers -/

namespace Matcher

open SuffixRules

/-- Pruning names in normal form keeps some of them. -/
theorem mem_of_mem_prune {s : SuffixRules} {table : List Text} (htable : ∀ d ∈ table, IsPlainName d)
    {k : Text} (hk : k ∈ (s.prune table).1) : k ∈ table := by
  obtain ⟨d, hd, hnormal⟩ := List.mem_map.mp (mem_distinctNames.mp (mem_prune.mp hk).1).1
  rwa [← hnormal, (htable d hd).2]

theorem covers_iff {d n : Text} (hd : ¬ OfDigits d) : Covers d n ↔ n = d ∨ '.' :: d <:+ n := by
  refine or_congr_right (and_iff_right_of_imp fun hsuffix hn => hd ?_)
  exact (hn.of_suffix hsuffix).of_suffix (List.suffix_cons '.' d)

/-- The rule list for the domains of a table and the fallback for the table decide alike about every
web address that others request. -/
theorem blocks_eq_matchesDomain (s : SuffixRules) {table : List Text}
    (hplain : ∀ d ∈ table, IsPlainName d) (hlong : ∀ d ∈ table, 3 ≤ d.length)
    (hnumber : ∀ d ∈ table, ¬ OfDigits d) {limit : Int} (hlimit : (s.prune table).1.length ≤ limit)
    (name : Text) (keywords : List Text) :
    ∃ list, RuleList.compile limit name
        (Record.listToText ((s.prune table).1.filterMap Record.blockingDomain?)) = .ok list ∧
      ∀ (host : Text) (q : Request), IsPlainName host → Url.IsWeb host q.url →
        q.thirdParty = some true →
          list.blocks q = (ofTables s table keywords).matchesDomain host := by
  have hkept : ∀ k ∈ (s.prune table).1, k ∈ table := fun k hk => mem_of_mem_prune hplain hk
  have hrecords : (s.prune table).1.filterMap Record.blockingDomain? =
      (s.prune table).1.map Record.blockingDomain :=
    Record.filterMap_blockingDomain? fun k hk => ⟨hplain k (hkept k hk), hlong k (hkept k hk)⟩
  have hwell : ∀ r ∈ (s.prune table).1.map Record.blockingDomain, r.WellFormed :=
    List.forall_mem_map.mpr fun k hk => Record.wellFormed_blockingDomain (hplain k (hkept k hk))
  have hcompiles : ∀ r ∈ (s.prune table).1.map Record.blockingDomain, r.Compiles Regex.reader :=
    List.forall_mem_map.mpr fun k hk => (Record.blocks_blockingDomain_iff (hplain k (hkept k hk))).1
  have hblock : ∀ r ∈ (s.prune table).1.map Record.blockingDomain, r.action.kind = .block :=
    List.forall_mem_map.mpr fun _ _ => rfl
  rw [hrecords]
  refine ⟨_, RuleList.compile_records hwell hcompiles (by simpa using hlimit) name, ?_⟩
  intro host q hhost hurl hq
  -- either side is about a domain that is kept
  rw [Bool.eq_iff_iff, RuleList.blocks_records_iff_exists hcompiles hblock,
    matchesDomain_ofTables_iff_kept, hhost.2, and_iff_right hhost.ne_nil]
  simp only [List.mem_map, exists_exists_and_eq_and]
  refine exists_congr fun k => and_congr_right fun hk => ?_
  have hblocks := (Record.blocks_blockingDomain_iff (hplain k (hkept k hk))).2 hhost hurl hq
  rw [hblocks, covers_iff (hnumber k (hkept k hk))]

/-- A table in which one domain covers another one, and which has a suffix in it. -/
def trackerTable : List Text :=
  ["b.ads.example.com", "ads.example.com", "co.uk", "4d.10"].map String.toList

/-- A web address with a port, and with a line feed in its path. -/
def trackerRequest : Request :=
  { url := "https://x.b.ads.example.com:8080/a\nb/".toList, thirdParty := some true }

/-- A web address with a listed domain in its path, on a host that only looks like a listed one. -/
def harmlessRequest : Request :=
  { url := "http://bads.example.com/http://co.uk/".toList, thirdParty := some true }

theorem blocks_eq_matchesDomain_trackerTable :
    (∀ d ∈ trackerTable, IsPlainName d) ∧ (∀ d ∈ trackerTable, 3 ≤ d.length) ∧
      (∀ d ∈ trackerTable, ¬ OfDigits d) ∧
      ((SuffixRules.bundled.prune trackerTable).1.length : Int) ≤ RuleList.defaultLimit ∧
      Url.IsWeb "x.b.ads.example.com".toList trackerRequest.url ∧
      Url.IsWeb "bads.example.com".toList harmlessRequest.url ∧
      ∃ list, RuleList.compile RuleList.defaultLimit "x".toList (Record.listToText
          ((SuffixRules.bundled.prune trackerTable).1.filterMap Record.blockingDomain?)) =
            .ok list ∧
        list.blocks trackerRequest = true ∧ list.blocks harmlessRequest = false := by
  have hplain : ∀ d ∈ trackerTable, IsPlainName d := by decide +kernel
  have hlong : ∀ d ∈ trackerTable, 3 ≤ d.length := by decide +kernel
  have hnumber : ∀ d ∈ trackerTable, ¬ OfDigits d := by decide +kernel
  have hlimit : ((SuffixRules.bundled.prune trackerTable).1.length : Int) ≤
      RuleList.defaultLimit := by decide +kernel
  have htracker : Url.IsWeb "x.b.ads.example.com".toList trackerRequest.url :=
    ⟨"https://".toList, ":8080".toList, "/a\nb/".toList, by decide, .inr rfl,
      .inr ⟨"8080".toList, rfl, forall_mem_of_all (by decide)⟩, rfl⟩
  have hharmless : Url.IsWeb "bads.example.com".toList harmlessRequest.url :=
    ⟨"http://".toList, [], "/http://co.uk/".toList, by decide, .inl rfl, .inl rfl, rfl⟩
  obtain ⟨list, hcompile, hagree⟩ :=
    blocks_eq_matchesDomain SuffixRules.bundled hplain hlong hnumber hlimit "x".toList []
  refine ⟨hplain, hlong, hnumber, hlimit, htracker, hharmless, list, hcompile, ?_, ?_⟩
  · rw [hagree _ trackerRequest (by decide +kernel) htracker rfl]
    decide +kernel
  · rw [hagree _ harmlessRequest (by decide +kernel) hharmless rfl]
    decide +kernel

end Matcher

end ContentFilter
