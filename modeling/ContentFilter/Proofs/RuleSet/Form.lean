import ContentFilter.Proofs.Record.Payload
import ContentFilter.Proofs.RuleList.FilterText
import ContentFilter.Proofs.RuleSet.Contents

/-! # The form of a list does not matter

A list may be downloaded as a filter text or as the JSON text of its records, and a filter text may
also be one of the tables. The rules count in the same way, whichever it is.

* `RuleSet.build_congr`: a rule set depends on what its entries can be trusted for, and on nothing
  else of them.
* `RuleSet.build_filterText`: the same rules in each of the three forms.
-/

set_option autoImplicit false

namespace ContentFilter.RuleSet

open Text

/-! ## Entries -/

theorem build_congr (config : Config) (tables : Tables) {entries others : List Entry}
    (h : entries.map trusted? = others.map trusted?) :
    build config tables entries = build config tables others := by
  have hvalid : ∀ es : List Entry, es.filterMap trusted? = (es.map trusted?).filterMap id := by
    intro es
    rw [List.filterMap_map]
    rfl
  have hdropped : ∀ es : List Entry, (es.filter fun e => (trusted? e).isNone).length =
      ((es.map trusted?).filter Option.isNone).length := by
    intro es
    rw [List.filter_map, List.length_map]
    rfl
  simp only [build, hvalid, hdropped, h]

theorem trusted?_record {r : Record} (h : r.WellFormed) : trusted? (.record r) = some r := by
  have husable : r.isUsable = true := by simpa [Record.isUsable] using h.urlFilter
  rw [trusted?, if_pos husable]

theorem filterMap_trusted?_records {rs : List Record} (h : ∀ r ∈ rs, r.WellFormed) :
    (rs.map Entry.record).filterMap trusted? = rs := by
  have hsome : ∀ r ∈ rs, (trusted? ∘ Entry.record) r = some r := fun r hr =>
    trusted?_record (h r hr)
  rw [List.filterMap_map, List.filterMap_congr hsome]
  exact List.filterMap_some

/-- A record and its value are trusted for the same. -/
theorem trusted?_raw_toJson {r : Record} (h : r.WellFormed) :
    trusted? (.raw r.toJson) = trusted? (.record r) := by
  have husable : r.isUsable = true := by simpa [Record.isUsable] using h.urlFilter
  rw [trusted?_record h, trusted?, Record.ofJson?_toJson h, Option.filter_some_pos husable]

/-! ## Tables -/

/-- Behind the filter texts of tables that have nothing else, one more counts with its records. -/
theorem tableRecords_append_text (floor : Nat) {tables : Tables}
    (hdomains : tables.blockedDomains = []) (hpaths : tables.pathRecords = [])
    (hhides : tables.hideRecords = []) (t : Text) :
    tableRecords floor { tables with filterTexts := tables.filterTexts ++ [t] } =
      tableRecords floor tables ++ (FilterList.convert floor t).1 := by
  have hprune : (tables.suffixes.prune []).1 = [] := rfl
  simp only [tableRecords, rulesOf, FilterList.convert, hdomains, hpaths, hhides, hprune,
    List.flatMap_append, List.flatMap_singleton, List.filterMap_append, List.filterMap_map,
    List.filterMap_nil, List.append_nil, Function.id_comp]

/-! ## Forms -/

variable (config : Config) (tables : Tables)

/-- A filter text is built into the same rule set, counts included, as the JSON text of its records.
Where the tables have filter texts alone, it gives the records that the tables give when it is the
last of their texts. -/
theorem build_filterText {t : Text} (hmark : t.head? ≠ some '\uFEFF')
    (hlist : Payload.opensArray t = false) {entries : List Entry}
    (hread : Payload.decode config.minPatternLength (encodeUtf8 t) = .ok entries) :
    (∃ values, Payload.decode config.minPatternLength (encodeUtf8 (Record.listToText
          (FilterList.convert config.minPatternLength t).1)) = .ok values ∧
        build config tables entries = build config tables values) ∧
      (tables.blockedDomains = [] → tables.pathRecords = [] → tables.hideRecords = [] →
        (build config tables entries).chunks.flatMap Chunk.records =
          (build config { tables with filterTexts := tables.filterTexts ++ [t] }
            []).embedded.flatMap Chunk.records) := by
  obtain ⟨hsome, rfl⟩ := Payload.decode_filterText hmark hlist hread
  have hwell : ∀ r ∈ (FilterList.convert config.minPatternLength t).1, r.WellFormed := fun r hr =>
    FilterList.wellFormed_of_mem_convert config.minPatternLength_pos hr
  constructor
  · refine ⟨_, Payload.decode_listToText _ hsome, build_congr config tables ?_⟩
    rw [List.map_map, List.map_map]
    exact List.map_congr_left fun r hr => (trusted?_raw_toJson (hwell r hr)).symm
  · intro hdomains hpaths hhides
    rw [chunks, List.flatMap_append, records_downloaded_build, filterMap_trusted?_records hwell,
      records_embedded_build, records_embedded_build, candidates_eq, candidates_eq,
      tableRecords_append_text _ hdomains hpaths hhides, fresh_nil_append]

/-- A list that repeats a rule of the tables, and hides elements by a name beyond ASCII. -/
def bannerList : Text := "! Banners\nads\n||ads.example^$third-party\n##.werbung-für-dich".toList

theorem build_filterText_bannerList :
    bannerList.head? ≠ some '\uFEFF' ∧ Payload.opensArray bannerList = false ∧
      ∃ entries values,
        Payload.decode wholeChunks.minPatternLength (encodeUtf8 bannerList) = .ok entries ∧
        Payload.decode wholeChunks.minPatternLength (encodeUtf8 (Record.listToText
          (FilterList.convert wholeChunks.minPatternLength bannerList).1)) = .ok values ∧
        build wholeChunks repeatedAds entries = build wholeChunks repeatedAds values ∧
        (build wholeChunks repeatedAds entries).chunks.flatMap Chunk.records =
          (build wholeChunks { repeatedAds with
            filterTexts := repeatedAds.filterTexts ++ [bannerList] } []).embedded.flatMap
              Chunk.records := by
  have hmark : bannerList.head? ≠ some '\uFEFF' := by decide
  have hlist : Payload.opensArray bannerList = false := by decide +kernel
  have hread : (Payload.decode wholeChunks.minPatternLength
      (encodeUtf8 bannerList)).toOption.isSome = true := by
    decide +kernel
  cases hentries : Payload.decode wholeChunks.minPatternLength (encodeUtf8 bannerList) with
  | error fault => simp [hentries, Except.toOption] at hread
  | ok entries =>
    obtain ⟨⟨values, hvalues, hsame⟩, htables⟩ :=
      build_filterText wholeChunks repeatedAds hmark hlist hentries
    exact ⟨hmark, hlist, entries, values, rfl, hvalues, hsame, htables rfl rfl rfl⟩

end ContentFilter.RuleSet
