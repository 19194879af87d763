import ContentFilter.Proofs.Record.Lossless
import ContentFilter.Proofs.RuleSet.Contents

/-! # Rule sets on the wire

The chunks of a rule set reach a backend as JSON. What has been read from JSON or from a filter text
is well formed and comes back as it was. A record that is handed over as such is let in by its
regular expression alone: it may lack a form on the wire, and then its whole chunk is refused.

* `Record.Readable`, `Record.isSome_ofJson?_toJson_iff`: the records that a reader finds at all.
* `RuleList.compile_eq_malformed_iff`: when a chunk is refused as malformed.
* `RuleSet.HandedOver`: the records that are handed over as such.
* `RuleSet.build_carried_iff`: when the chunks of a rule set come back as they were.
-/

set_option autoImplicit false

namespace ContentFilter

open Std UnicodeString

namespace Record

/-! ## Records that a reader finds -/

section

variable {S : Type} [Ord S] [UnicodeString S]

/-- A reader finds the record in its JSON form: it has a regular expression, and a selector that is
not blank if it hides elements. -/
structure Readable (r : Record S) : Prop where
  urlFilter : r.trigger.urlFilter ≠ ofText []
  hides : r.action.kind = .hide → ∃ s, r.action.selector = some s ∧ isBlank s = false

theorem WellFormed.readable {r : Record S} (h : r.WellFormed) : r.Readable := ⟨h.urlFilter, h.hides⟩

variable [DecidableEq S]

omit [Ord S] in
theorem isSome_actionOf?_actionJson_iff (a : Action S) :
    (actionOf? (actionJson a)).isSome = true ↔
      (a.kind = .hide → ∃ s, a.selector = some s ∧ isBlank s = false) := by
  have hkind : (actionJson a).field? (ofText "type".toList) = some (.text (ofText a.kind.name)) := by
    rw [actionJson, Json.field?, List.lookup_cons_self]
  have hselector : ((actionJson a).field? (ofText "selector".toList)).bind text? = a.selector := by
    rw [actionJson, Json.field?, List.lookup_cons, beq_eq_false_iff_ne.2 (ofText_ne (by decide))]
    cases a.selector with
    | none => rfl
    | some s =>
      dsimp only
      rw [List.lookup_cons_self]
      rfl
  simp only [actionOf?, hkind, hselector, text?, ofName?_actionName, Option.bind_some,
    Option.bind_eq_bind]
  by_cases hhide : a.kind = .hide
  · cases a.selector with
    | none => simp [hhide]
    | some s => cases hblank : isBlank s <;> simp [hhide, hblank]
  · simp [hhide]

variable [TransOrd S]

theorem isSome_triggerOf?_triggerJson_iff (t : Trigger S) :
    (triggerOf? (triggerJson t)).isSome = true ↔ t.urlFilter ≠ ofText [] := by
  have hurl : (triggerJson t).field? (ofText "url-filter".toList) = some (.text t.urlFilter) := by
    rw [triggerJson, Json.field?, List.lookup_cons_self]
  simp only [triggerOf?, hurl, text?, Option.bind_some, Option.bind_eq_bind]
  by_cases hempty : t.urlFilter = ofText [] <;> simp [hempty]

theorem isSome_ofJson?_toJson_iff (r : Record S) :
    (ofJson? r.toJson).isSome = true ↔ r.Readable := by
  have htrigger : r.toJson.field? (ofText "trigger".toList) = some (triggerJson r.trigger) := by
    rw [toJson, Json.field?, List.lookup_cons_self]
  have haction : r.toJson.field? (ofText "action".toList) = some (actionJson r.action) := by
    rw [toJson, Json.field?, List.lookup_cons, beq_eq_false_iff_ne.2 (ofText_ne (by decide))]
    exact List.lookup_cons_self
  have hboth : (ofJson? r.toJson).isSome =
      ((triggerOf? (triggerJson r.trigger)).isSome &&
        (actionOf? (actionJson r.action)).isSome) := by
    simp only [ofJson?, htrigger, haction, Option.bind_some, Option.bind_eq_bind]
    cases triggerOf? (triggerJson r.trigger) <;> cases actionOf? (actionJson r.action) <;> rfl
  rw [hboth, Bool.and_eq_true, isSome_triggerOf?_triggerJson_iff, isSome_actionOf?_actionJson_iff]
  exact ⟨fun h => ⟨h.1, h.2⟩, fun h => ⟨h.urlFilter, h.hides⟩⟩

end

/-- Records come back from their compact text as they were exactly when all are well formed. -/
theorem listOfText_listToText_iff (rs : List Record) :
    listOfText (listToText rs) = .ok (rs, 0) ↔ ∀ r ∈ rs, r.WellFormed :=
  ⟨wellFormed_of_listOfText, listOfText_listToText⟩

/-- What is read from the compact text of records, and the number of those that are not found. -/
theorem listOfText_listToText_eq (rs : List Record) :
    listOfText (listToText rs) = .ok (rs.filterMap fun r => ofJson? r.toJson,
      rs.countP fun r => (ofJson? r.toJson).isNone) := by
  simp only [listOfText, Json.read, parse_listToText, Json.items, bind, Except.bind, pure,
    Except.pure, List.map_map, List.filterMap_map, ← List.countP_eq_length_filter, List.countP_map]
  rfl

theorem countP_isNone_pos_iff (rs : List Record) :
    0 < rs.countP (fun r => (ofJson? r.toJson).isNone) ↔ ∃ r ∈ rs, ¬ r.Readable := by
  simp only [List.countP_pos_iff, ← isSome_ofJson?_toJson_iff, Bool.not_eq_true,
    Option.isSome_eq_false_iff]

/-- A record that comes from a rule, by a floor above zero, is well formed. -/
theorem wellFormed_of_ofRule?_of_pos {floor : Nat} (hfloor : 0 < floor) {rule : Rule} {r : Record}
    (h : ofRule? floor rule = some r) : r.WellFormed := by
  refine wellFormed_of_ofRule? (fun n hn => ?_) h
  subst hn
  simp only [ofRule?, Option.ite_none_left_eq_some, Nat.not_lt] at h
  have hlength := h.1.trans (NetworkRule.significantLength_le n.pattern)
  exact List.ne_nil_of_length_pos (by omega)

end Record

/-! ## Chunks that are refused -/

namespace RuleList

theorem compileRules_ne_malformed (read : FilterReader) (rs : List Record) (index n : Nat) :
    compileRules read index rs ≠ .error (.malformed n) := by
  induction rs generalizing index with
  | nil => exact nofun
  | cons r rs ih =>
    simp only [compileRules, bind, Except.bind]
    unfold compileRule
    cases read r.trigger.urlFilter with
    | error fault => cases fault <;> simp
    | ok finds =>
      have hrest := ih (index + 1)
      cases hrules : compileRules read (index + 1) rs with
      | error fault => simpa [hrules] using hrest
      | ok rules => simp

/-- A chunk is refused as malformed when a reader does not find one of its records, however
expressions are read. -/
theorem compile_eq_malformed_iff (read : FilterReader) (limit : Int) (name : Text)
    (rs : List Record) :
    (∃ n, compile limit name (Record.listToText rs) read = .error (.malformed n)) ↔
      ∃ r ∈ rs, ¬ r.Readable := by
  rw [← Record.countP_isNone_pos_iff, compile, Record.listOfText_listToText_eq]
  dsimp only
  constructor
  · rintro ⟨n, h⟩
    by_contra hnone
    rw [if_neg hnone] at h
    split at h
    · simp at h
    · have hrules :=
        compileRules_ne_malformed read (rs.filterMap fun r => Record.ofJson? r.toJson) 0 n
      generalize compileRules read 0 (rs.filterMap fun r => Record.ofJson? r.toJson) = compiled
        at h hrules
      cases compiled with
      | error fault => exact hrules (by simpa [Except.map] using h)
      | ok rules => simp [Except.map] at h
  · intro hlost
    exact ⟨_, if_pos hlost⟩

end RuleList

/-! ## Records of a rule set -/

namespace RuleSet

/-- The records that are handed over as such: those of the tables, and the downloaded entries that
are records with a regular expression. -/
inductive HandedOver (tables : Tables) (entries : List Entry) (r : Record) : Prop
  | path (h : r ∈ tables.pathRecords)
  | hide (h : r ∈ tables.hideRecords)
  | downloaded (h : .record r ∈ entries) (husable : r.isUsable = true)

variable {config : Config} {tables : Tables} {entries : List Entry} {r : Record}

theorem mem_chunks_build_iff : (∃ c ∈ (build config tables entries).chunks, r ∈ c.records) ↔
    r ∈ tableRecords config.minPatternLength tables ∨ r ∈ entries.filterMap trusted? := by
  rw [← List.mem_flatMap, chunks, List.flatMap_append, records_embedded_build,
    records_downloaded_build, ← candidates_eq, List.mem_append, mem_fresh, mem_fresh]
  by_cases hlisted : r ∈ (candidates config.minPatternLength tables).1 <;> simp [hlisted]

theorem wellFormed_or_handedOver_of_mem_tableRecords
    (h : r ∈ tableRecords config.minPatternLength tables) :
    r.WellFormed ∨ HandedOver tables entries r := by
  simp only [tableRecords, List.mem_append, List.mem_filterMap] at h
  rcases h with ((⟨rule, -, hrule⟩ | ⟨domain, -, hdomain⟩) | hpath) | hhide
  · exact .inl (Record.wellFormed_of_ofRule?_of_pos config.minPatternLength_pos hrule)
  · exact .inl (Record.wellFormed_of_ofRule?_of_pos (by decide) hdomain)
  · exact .inr (.path hpath)
  · exact .inr (.hide hhide)

theorem wellFormed_or_handedOver_of_mem_trusted (h : r ∈ entries.filterMap trusted?) :
    r.WellFormed ∨ HandedOver tables entries r := by
  obtain ⟨entry, hentry, htrusted⟩ := List.mem_filterMap.1 h
  cases entry with
  | raw v =>
    have hread : Record.ofJson? v = some r := (Option.filter_eq_some_iff.1 htrusted).1
    exact .inl (Record.wellFormed_of_ofJson? hread)
  | record s =>
    rw [trusted?, Option.ite_none_right_eq_some] at htrusted
    obtain ⟨husable, rfl⟩ := htrusted.imp_right Option.some.inj
    exact .inr (.downloaded hentry husable)

/-- What is not handed over as a record has been read, and is well formed. -/
theorem wellFormed_or_handedOver (h : ∃ c ∈ (build config tables entries).chunks, r ∈ c.records) :
    r.WellFormed ∨ HandedOver tables entries r :=
  (mem_chunks_build_iff.1 h).elim wellFormed_or_handedOver_of_mem_tableRecords
    wellFormed_or_handedOver_of_mem_trusted

variable (config) in
/-- No record that is handed over is left out. -/
theorem HandedOver.mem_chunks (h : HandedOver tables entries r) :
    ∃ c ∈ (build config tables entries).chunks, r ∈ c.records := by
  rw [mem_chunks_build_iff]
  cases h with
  | path h => exact .inl (by simp [tableRecords, h])
  | hide h => exact .inl (by simp [tableRecords, h])
  | downloaded h husable => exact .inr (List.mem_filterMap.2 ⟨_, h, if_pos husable⟩)

/-- Something holds for all records of the chunks, if it does for well-formed ones, exactly when it
holds for all that are handed over. -/
theorem forall_mem_chunks_iff {P : Record → Prop} (hwell : ∀ r, r.WellFormed → P r) :
    (∀ c ∈ (build config tables entries).chunks, ∀ r ∈ c.records, P r) ↔
      ∀ r, HandedOver tables entries r → P r := by
  constructor
  · intro h r hr
    obtain ⟨c, hc, hmem⟩ := hr.mem_chunks config
    exact h c hc r hmem
  · intro h c hc r hr
    exact (wellFormed_or_handedOver ⟨c, hc, hr⟩).elim (hwell r) (h r)

variable (config tables entries) in
/-- All chunks of a rule set come back from the wire as they were exactly when every record that is
handed over is well formed, and no backend refuses one as malformed exactly when a reader finds
every such record. A chunk by itself depends on its own records alone. -/
theorem build_carried_iff :
    ((∀ c ∈ (build config tables entries).chunks,
        Record.listOfText c.toText = .ok (c.records, 0)) ↔
      ∀ r, HandedOver tables entries r → r.WellFormed) ∧
    ((∀ c ∈ (build config tables entries).chunks, ∀ limit n,
        RuleList.compile limit c.name c.toText ≠ .error (.malformed n)) ↔
      ∀ r, HandedOver tables entries r → r.Readable) ∧
    ∀ c ∈ (build config tables entries).chunks,
      (Record.listOfText c.toText = .ok (c.records, 0) ↔ ∀ r ∈ c.records, r.WellFormed) ∧
      ∀ limit, (∃ n, RuleList.compile limit c.name c.toText = .error (.malformed n)) ↔
        ∃ r ∈ c.records, ¬ r.Readable := by
  have hread : ∀ c : Chunk, Record.listOfText c.toText = .ok (c.records, 0) ↔
      ∀ r ∈ c.records, r.WellFormed := fun c => Record.listOfText_listToText_iff c.records
  have hrefused : ∀ (c : Chunk) (limit : Int),
      (∃ n, RuleList.compile limit c.name c.toText = .error (.malformed n)) ↔
        ∃ r ∈ c.records, ¬ r.Readable := fun c limit =>
    RuleList.compile_eq_malformed_iff Regex.reader limit c.name c.records
  have hkept : ∀ c : Chunk, (∀ limit n,
      RuleList.compile limit c.name c.toText ≠ .error (.malformed n)) ↔
        ∀ r ∈ c.records, r.Readable := by
    intro c
    constructor
    · intro h r hr
      by_contra hlost
      obtain ⟨n, hn⟩ := (hrefused c 0).2 ⟨r, hr, hlost⟩
      exact h 0 n hn
    · intro h limit n hn
      obtain ⟨r, hr, hlost⟩ := (hrefused c limit).1 ⟨n, hn⟩
      exact hlost (h r hr)
  refine ⟨?_, ?_, fun c _ => ⟨hread c, hrefused c⟩⟩
  · simp only [hread]
    exact forall_mem_chunks_iff fun r hr => hr
  · simp only [hkept]
    exact forall_mem_chunks_iff fun r hr => hr.readable

def adsBlock : Record := ⟨{ urlFilter := "ads".toList }, { kind := .block }⟩

/-- A record that hides elements without saying which. -/
def hidesNothing : Record := ⟨{ urlFilter := Record.everyUrl }, { kind := .hide }⟩

def halfTables : Tables where
  filterTexts := []
  blockedDomains := []
  pathRecords := [adsBlock]
  hideRecords := [hidesNothing]
  suffixes := .unknown

/-- The block is refused with the record that shares its chunk. -/
theorem block_refused_beside_hidesNothing :
    ∃ c ∈ (build wholeChunks halfTables []).chunks, c.records = [adsBlock, hidesNothing] ∧
      Record.listOfText c.toText = .ok ([adsBlock], 1) ∧
      RuleList.compile RuleList.defaultLimit c.name c.toText = .error (.malformed 1) := by
  have hread : Record.listOfText (Record.listToText [adsBlock, hidesNothing]) =
      .ok ([adsBlock], 1) := by
    rw [Record.listOfText_listToText_eq]
    exact congrArg Except.ok (by decide +kernel)
  have hrefused : RuleList.compile RuleList.defaultLimit (Chunk.nameOf embeddedStem 0)
      (Record.listToText [adsBlock, hidesNothing]) = .error (.malformed 1) := by
    rw [RuleList.compile, hread]
    rfl
  have hchunk : (⟨Chunk.nameOf embeddedStem 0, [adsBlock, hidesNothing]⟩ : Chunk) ∈
      (build wholeChunks halfTables []).chunks := by
    decide +kernel
  exact ⟨_, hchunk, rfl, hread, hrefused⟩

end RuleSet

end ContentFilter
