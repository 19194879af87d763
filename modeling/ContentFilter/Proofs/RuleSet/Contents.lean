import ContentFilter.Proofs.RuleSet.Repeats
import Mathlib.Data.Finset.Card

/-! # What a rule set holds

A rule set holds every record of the tables and every trusted record that was downloaded, each once
and where it comes first, the tables before all else. Its counts say how many records these are and
how many were left out.

* `RuleSet.tableRecords`: the records of the tables, in the order in which they count.
* `RuleSet.fresh_eq_eraseDups`: the records that are kept are the first occurrences.
* `RuleSet.HoldsExactly`, `RuleSet.build_holdsExactly`: the contents and the counts of a rule set.
-/

set_option autoImplicit false

namespace ContentFilter.RuleSet

/-- The records of the tables in the order in which they count: those of the filter texts, the
blocks of the domains that pruning keeps, and the records for paths and for hiding. -/
def tableRecords (floor : Nat) (t : Tables) : List Record :=
  (rulesOf floor t.filterTexts).filterMap (Record.ofRule? floor) ++
    (t.suffixes.prune t.blockedDomains).1.filterMap Record.blockingDomain? ++
    t.pathRecords ++ t.hideRecords

theorem candidates_eq (floor : Nat) (t : Tables) :
    (candidates floor t).1 = tableRecords floor t := by
  simp only [candidates, tableRecords, List.filterMap_append, List.filterMap_map, Function.id_comp]

/-! ## First occurrences -/

/-- What is kept of a list behind other records are the first occurrences of its own ones. -/
theorem fresh_eq_eraseDups (seen rs : List Record) :
    fresh seen rs = (rs.removeAll seen).eraseDups := by
  induction rs generalizing seen with
  | nil => rfl
  | cons r rs ih =>
    rw [fresh, List.cons_removeAll, ih, ih]
    cases hseen : seen.contains r with
    | true => rfl
    | false =>
      have hlater : (rs.removeAll seen).filter (fun s => !s == r) = rs.removeAll (r :: seen) := by
        rw [List.removeAll, List.removeAll, List.filter_filter]
        refine List.filter_congr fun s _ => ?_
        by_cases hsr : s = r <;> simp [hsr]
      rw [if_neg Bool.false_ne_true, if_pos rfl, List.eraseDups_cons, hlater]

theorem nodup_fresh (seen rs : List Record) : (fresh seen rs).Nodup := by
  induction rs generalizing seen with
  | nil => exact List.nodup_nil
  | cons r rs ih =>
    rw [fresh]
    split
    · exact ih seen
    · refine List.nodup_cons.mpr ⟨fun hr => ?_, ih (r :: seen)⟩
      exact (mem_fresh.mp hr).2 List.mem_cons_self

theorem repeats_add_length_fresh (seen rs : List Record) :
    repeats seen rs + (fresh seen rs).length = rs.length := by
  induction rs generalizing seen with
  | nil => rfl
  | cons r rs ih =>
    rw [repeats, fresh]
    split
    · have := ih seen
      rw [List.length_cons]
      omega
    · have := ih (r :: seen)
      rw [List.length_cons, List.length_cons]
      omega

/-- Behind records without their repeats the same are new as behind all of them. -/
theorem fresh_fresh (rs rs' : List Record) : fresh (fresh [] rs) rs' = fresh rs rs' :=
  fresh_congr (fun r => by simp [mem_fresh]) rs'

theorem repeats_fresh (rs rs' : List Record) : repeats (fresh [] rs) rs' = repeats rs rs' := by
  have hkept := repeats_add_length_fresh (fresh [] rs) rs'
  have hall := repeats_add_length_fresh rs rs'
  rw [fresh_fresh] at hkept
  omega

theorem fresh_nil_append (rs rs' : List Record) :
    fresh [] (rs ++ rs') = fresh [] rs ++ fresh rs rs' := by
  rw [fresh_append, List.append_nil]

/-- The number of distinct records of two lists. -/
theorem card_toFinset_append (rs rs' : List Record) :
    (rs ++ rs').toFinset.card = (fresh [] rs).length + (fresh rs rs').length := by
  have hset : (rs ++ rs').toFinset = (fresh [] (rs ++ rs')).toFinset := by
    ext r
    rw [List.mem_toFinset, List.mem_toFinset, mem_fresh]
    simp
  rw [hset, List.toFinset_card_of_nodup (nodup_fresh [] _), fresh_nil_append,
    List.length_append]

/-! ## Building -/

variable (config : Config) (tables : Tables) (entries : List Entry)

theorem records_downloaded_build :
    (build config tables entries).downloaded.flatMap Chunk.records =
      fresh (candidates config.minPatternLength tables).1 (entries.filterMap trusted?) := by
  rw [← fresh_fresh]
  exact Chunk.flatMap_records_cut downloadedStem config.downloadedChunkSize
    config.downloadedChunkSize_pos _

theorem length_trusted_add_length_dropped :
    (entries.filterMap trusted?).length +
      (entries.filter fun e => (trusted? e).isNone).length = entries.length := by
  induction entries with
  | nil => rfl
  | cons e entries ih =>
    cases he : trusted? e with
    | none =>
      rw [List.filterMap_cons_none he, List.filter_cons_of_pos (by simp [he]), List.length_cons,
        List.length_cons]
      omega
    | some r =>
      rw [List.filterMap_cons_some he, List.filter_cons_of_neg (by simp [he]), List.length_cons,
        List.length_cons]
      omega

theorem records_cut_eq_nil_iff (stem : Text) {size : Nat} (hsize : 0 < size)
    (records : List Record) : Chunk.cut stem size records = [] ↔
      (Chunk.cut stem size records).flatMap Chunk.records = [] := by
  rw [Chunk.flatMap_records_cut stem size hsize]
  constructor
  · intro hcut
    rw [← Chunk.flatMap_records_cut stem size hsize records, hcut, List.flatMap_nil]
  · rintro rfl
    rfl

/-- What a rule set holds of the records of the tables and the trusted records among a number of
downloaded entries, and what its counts say. -/
structure HoldsExactly (s : RuleSet) (listed trusted : List Record) (entryCount : Nat) : Prop where
  embedded : s.embedded.flatMap Chunk.records = listed.eraseDups
  downloaded : s.downloaded.flatMap Chunk.records = (trusted.removeAll listed).eraseDups
  nodup : (s.chunks.flatMap Chunk.records).Nodup
  total : s.total = (listed ++ trusted).toFinset.card
  duplicatePruned : s.stats.duplicatePruned + s.total = listed.length + trusted.length
  downloadedDropped : s.stats.downloadedDropped + trusted.length = entryCount
  provenance : s.provenance = .enhanced ↔ ∃ r ∈ trusted, r ∉ listed

/-- Building loses no record and keeps none twice, its counts are right, and what is downloaded has
no influence on the chunks of the tables. -/
theorem build_holdsExactly :
    (build config tables entries).HoldsExactly (tableRecords config.minPatternLength tables)
        (entries.filterMap trusted?) entries.length ∧
      ∀ others, (build config tables others).embedded = (build config tables entries).embedded := by
  refine ⟨?_, fun others => rfl⟩
  rw [← candidates_eq]
  have hembedded := records_embedded_build config tables entries
  have hdownloaded := records_downloaded_build config tables entries
  have hrepeats : (build config tables entries).stats.duplicatePruned =
      repeats [] (candidates config.minPatternLength tables).1 +
        repeats (candidates config.minPatternLength tables).1 (entries.filterMap trusted?) := by
    rw [← repeats_fresh (candidates config.minPatternLength tables).1]
    rfl
  have hempty : (build config tables entries).downloaded = [] ↔
      fresh (candidates config.minPatternLength tables).1 (entries.filterMap trusted?) = [] := by
    rw [← hdownloaded]
    exact records_cut_eq_nil_iff downloadedStem config.downloadedChunkSize_pos _
  generalize (candidates config.minPatternLength tables).1 = listed at *
  generalize htrusted : entries.filterMap trusted? = trusted at *
  have htotal : (build config tables entries).total =
      (fresh [] listed).length + (fresh listed trusted).length := by
    rw [RuleSet.total, embeddedCount, downloadedCount, countRecords, countRecords, hembedded,
      hdownloaded]
  constructor
  case embedded =>
    rw [hembedded, fresh_eq_eraseDups]
    simp [List.removeAll]
  case downloaded => rw [hdownloaded, fresh_eq_eraseDups]
  case nodup =>
    rw [chunks, List.flatMap_append, hembedded, hdownloaded, ← fresh_nil_append]
    exact nodup_fresh [] _
  case total => rw [htotal, card_toFinset_append]
  case duplicatePruned =>
    have hlisted := repeats_add_length_fresh [] listed
    have hrest := repeats_add_length_fresh listed trusted
    omega
  case downloadedDropped =>
    rw [← htrusted, Nat.add_comm]
    exact length_trusted_add_length_dropped entries
  case provenance =>
    have hnew : fresh listed trusted ≠ [] ↔ ∃ r ∈ trusted, r ∉ listed := by
      rw [ne_eq, List.eq_nil_iff_forall_not_mem, not_forall]
      simp only [mem_fresh, not_not]
    rw [← hnew, ne_eq, ← hempty, RuleSet.provenance]
    simp

end ContentFilter.RuleSet
