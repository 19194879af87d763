import ContentFilter.Proofs.RuleList.Decision
import ContentFilter.Proofs.RuleSet.Chunk
import ContentFilter.RuleSet.Build

/-! # Rule sets without repeats

Of equal records a rule set keeps the first. The last record that decides about a request settles
it, so a repeat that is left out can matter: without it a record that it overrules has the last say.

* `RuleSet.mem_fresh`, `RuleSet.fresh_append`: which records are kept, and in what order.
* `RuleList.blocks_eq_getLast?`: the last verdict of a list is its decision.
* `RepeatOverrules`: a repeat overrules the records that are kept.
* `RuleSet.blocks_embedded_eq_iff`: the records that are kept decide as all of them do, unless that
  is so.
-/

set_option autoImplicit false

namespace ContentFilter

/-! ## The records that are kept -/

namespace RuleSet

theorem mem_fresh {r : Record} {seen rs : List Record} :
    r ∈ fresh seen rs ↔ r ∈ rs ∧ r ∉ seen := by
  induction rs generalizing seen with
  | nil => simp [fresh]
  | cons s rs ih =>
    unfold fresh
    split
    next hseen =>
      have hs : s ∈ seen := by simpa using hseen
      rw [ih, List.mem_cons]
      constructor
      · exact fun ⟨hmem, hnew⟩ => ⟨.inr hmem, hnew⟩
      · rintro ⟨rfl | hmem, hnew⟩
        · exact absurd hs hnew
        · exact ⟨hmem, hnew⟩
    next hseen =>
      have hs : s ∉ seen := by simpa using hseen
      rw [List.mem_cons, ih, List.mem_cons, List.mem_cons, not_or]
      constructor
      · rintro (rfl | ⟨hmem, -, hnew⟩)
        · exact ⟨.inl rfl, hs⟩
        · exact ⟨.inr hmem, hnew⟩
      · rintro ⟨hmem, hnew⟩
        by_cases heq : r = s
        · exact .inl heq
        · exact .inr ⟨hmem.resolve_left heq, heq, hnew⟩

theorem fresh_congr {seen known : List Record} (h : ∀ r, r ∈ seen ↔ r ∈ known) (rs : List Record) :
    fresh seen rs = fresh known rs := by
  induction rs generalizing seen known with
  | nil => rfl
  | cons s rs ih =>
    have hcontains : seen.contains s = known.contains s := by
      rw [Bool.eq_iff_iff]
      simpa using h s
    have hcons : ∀ r, r ∈ s :: seen ↔ r ∈ s :: known := fun r => by simp [h r]
    rw [fresh, fresh, hcontains, ih h, ih hcons]

theorem fresh_append (seen before rest : List Record) :
    fresh seen (before ++ rest) = fresh seen before ++ fresh (before ++ seen) rest := by
  induction before generalizing seen with
  | nil => rfl
  | cons s before ih =>
    rw [List.cons_append, fresh, fresh]
    split
    next hseen =>
      have hs : s ∈ seen := by simpa using hseen
      have hmem : ∀ r, r ∈ before ++ seen ↔ r ∈ s :: before ++ seen := fun r => by
        simp only [List.mem_append, List.mem_cons]
        constructor
        · exact fun h => h.imp_left .inr
        · rintro ((rfl | h) | h)
          · exact .inr hs
          · exact .inl h
          · exact .inr h
      rw [ih, fresh_congr hmem]
    next =>
      have hmem : ∀ r, r ∈ before ++ s :: seen ↔ r ∈ s :: before ++ seen := fun r => by
        simp only [List.mem_append, List.mem_cons]
        tauto
      rw [ih, fresh_congr hmem]
      rfl

/-- A record that comes for the first time is kept, and behind it what comes for the first time
later. -/
theorem fresh_append_cons {before rest : List Record} {r : Record} (h : r ∉ before) :
    fresh [] (before ++ r :: rest) = fresh [] before ++ r :: fresh (r :: before) rest := by
  have hnew : before.contains r = false := by simpa using h
  rw [fresh_append, List.append_nil, fresh, hnew]
  rfl

/-- What is kept comes for the first time where it is kept. -/
theorem fresh_eq_append_cons {seen rs kept later : List Record} {r : Record}
    (h : fresh seen rs = kept ++ r :: later) :
    ∃ before rest, rs = before ++ r :: rest ∧ r ∉ before ∧
      ∀ s ∈ rest, s ≠ r → s ∉ before → s ∉ seen → s ∈ later := by
  induction rs generalizing seen kept with
  | nil => simp [fresh] at h
  | cons s rs ih =>
    unfold fresh at h
    split at h
    next hseen =>
      have hs : s ∈ seen := by simpa using hseen
      obtain ⟨before, rest, rfl, hr, hlater⟩ := ih h
      have hnew : r ∉ seen := by
        have hmem : r ∈ fresh seen (before ++ r :: rest) := by simp [h]
        exact (mem_fresh.mp hmem).2
      have hne : r ≠ s := fun heq => hnew (heq ▸ hs)
      refine ⟨s :: before, rest, rfl, by simp [hne, hr], fun x hx hxr hxb hxs => ?_⟩
      exact hlater x hx hxr (fun hmem => hxb (List.mem_cons_of_mem s hmem)) hxs
    next =>
      cases kept with
      | nil =>
        obtain ⟨rfl, rfl⟩ := List.cons.inj h
        refine ⟨[], rs, rfl, List.not_mem_nil, fun x hx hxr _ hxs => ?_⟩
        exact mem_fresh.mpr ⟨hx, by simp [hxr, hxs]⟩
      | cons k kept =>
        obtain ⟨rfl, htail⟩ := List.cons.inj h
        obtain ⟨before, rest, rfl, hr, hlater⟩ := ih htail
        have hnew : r ∉ s :: seen := by
          have hmem : r ∈ fresh (s :: seen) (before ++ r :: rest) := by simp [htail]
          exact (mem_fresh.mp hmem).2
        have hne : r ≠ s := fun heq => hnew (heq ▸ List.mem_cons_self)
        refine ⟨s :: before, rest, rfl, by simp [hne, hr], fun x hx hxr hxb hxs => ?_⟩
        rw [List.mem_cons, not_or] at hxb
        exact hlater x hx hxr hxb.2 (by simp [hxb.1, hxs])

end RuleSet

/-! ## Verdicts -/

namespace CompiledRule

/-- What a rule says about a request: that it is blocked or that it is not, if anything. -/
def verdict? (q : Request) (c : CompiledRule) : Option Bool :=
  if c.blocks q then some true else if c.exempts q then some false else none

theorem decide_eq_getD (q : Request) (blocked : Bool) (c : CompiledRule) :
    decide q blocked c = (c.verdict? q).getD blocked := by
  unfold decide verdict? blocks exempts
  cases c.action.kind <;> cases c.applies q <;> rfl

end CompiledRule

namespace Record

def verdict? (read : FilterReader) (q : Request) (r : Record) : Option Bool :=
  (r.rule? read).bind (CompiledRule.verdict? q)

/-- The verdicts of records about a request, in order. -/
def verdicts (read : FilterReader) (q : Request) (rs : List Record) : List Bool :=
  rs.filterMap (verdict? read q)

end Record

open Record

variable {read : FilterReader}

theorem foldl_getD_eq_getLast? {α β : Type} (f : α → Option β) (l : List α) (b : β) :
    l.foldl (fun b a => (f a).getD b) b = (l.filterMap f).getLast?.getD b := by
  induction l generalizing b with
  | nil => rfl
  | cons a l ih =>
    rw [List.foldl_cons, ih]
    cases ha : f a with
    | none => rw [List.filterMap_cons_none ha, Option.getD_none]
    | some c => simp [List.filterMap_cons_some ha, List.getLast?_cons]

/-- The last verdict of records is the decision of their list. -/
theorem RuleList.blocks_eq_getLast? (name : Text) (q : Request) (rs : List Record) :
    (RuleList.mk name (rs.filterMap (Record.rule? read))).blocks q =
      (verdicts read q rs).getLast?.getD false := by
  have hstep : CompiledRule.decide q = fun b c => (c.verdict? q).getD b := by
    funext b c
    exact CompiledRule.decide_eq_getD q b c
  rw [RuleList.blocks, hstep, foldl_getD_eq_getLast?, List.filterMap_filterMap]
  rfl

/-! ## Repeats that matter -/

/-- A repeat overrules the records that are kept. Of the records behind `x` the last that decides,
`y`, says the opposite of `x`; but every one of them that says so has come before `x` already and is
left out, so that `x` has the last say. -/
def RepeatOverrules (read : FilterReader) (q : Request) (rs : List Record) : Prop :=
  ∃ (before mid after : List Record) (x y : Record) (v : Bool),
    rs = before ++ x :: (mid ++ y :: after) ∧ x ∉ before ∧
      x.verdict? read q = some v ∧ y.verdict? read q = some (!v) ∧
      (∀ r ∈ after, r.verdict? read q = none) ∧
      ∀ r ∈ mid ++ y :: after, r.verdict? read q = some (!v) → r ∈ before

theorem getLast?_verdicts_eq_some {q : Request} {rs : List Record} {v : Bool}
    (h : (verdicts read q rs).getLast? = some v) :
    ∃ before r after, rs = before ++ r :: after ∧ r.verdict? read q = some v ∧
      ∀ s ∈ after, s.verdict? read q = none := by
  obtain ⟨others, hothers⟩ := List.getLast?_eq_some_iff.mp h
  obtain ⟨before, rest, rfl, -, hrest⟩ := List.filterMap_eq_append_iff.mp hothers
  obtain ⟨mid, r, after, rfl, -, hr, hafter⟩ := List.filterMap_eq_cons_iff.mp hrest
  exact ⟨before ++ mid, r, after, by simp, hr, List.filterMap_eq_nil_iff.mp hafter⟩

theorem getLast?_verdicts_append_cons {q : Request} {before after : List Record} {r : Record}
    {v : Bool} (hr : r.verdict? read q = some v) :
    (verdicts read q (before ++ r :: after)).getLast? =
      some ((verdicts read q after).getLast?.getD v) := by
  simp [verdicts, List.filterMap_cons_some hr, List.getLast?_cons]

/-- The records that are kept and all of them decide differently exactly when a repeat overrules
what is kept. -/
theorem repeatOverrules_iff (read : FilterReader) (q : Request) (rs : List Record) :
    RepeatOverrules read q rs ↔ (verdicts read q (RuleSet.fresh [] rs)).getLast?.getD false ≠
      (verdicts read q rs).getLast?.getD false := by
  constructor
  · rintro ⟨before, mid, after, x, y, v, rfl, hx, hxv, hyv, hafter, hrepeat⟩
    have hall : (verdicts read q (before ++ x :: (mid ++ y :: after))).getLast? = some (!v) := by
      have hsplit : before ++ x :: (mid ++ y :: after) = (before ++ x :: mid) ++ y :: after := by
        simp
      have hsilent : verdicts read q after = [] := List.filterMap_eq_nil_iff.mpr hafter
      rw [hsplit, getLast?_verdicts_append_cons hyv, hsilent]
      rfl
    have hkept : (verdicts read q (RuleSet.fresh [] (before ++ x :: (mid ++ y :: after)))).getLast? =
        some v := by
      rw [RuleSet.fresh_append_cons hx, getLast?_verdicts_append_cons hxv]
      -- whoever says the opposite behind `x` is a repeat, and not among those that are kept
      cases hlast : (verdicts read q (RuleSet.fresh (x :: before) (mid ++ y :: after))).getLast? with
      | none => rfl
      | some w =>
        obtain ⟨kept, r, later, hfresh, hr, -⟩ := getLast?_verdicts_eq_some hlast
        have hmem : r ∈ RuleSet.fresh (x :: before) (mid ++ y :: after) := by simp [hfresh]
        obtain ⟨hrest, hnew⟩ := RuleSet.mem_fresh.mp hmem
        by_cases hw : w = v
        · rw [hw, Option.getD_some]
        · obtain rfl : w = !v := by cases w <;> cases v <;> simp_all
          exact absurd (List.mem_cons_of_mem x (hrepeat r hrest hr)) hnew
    simp [hall, hkept]
  · intro hne
    cases hkept : (verdicts read q (RuleSet.fresh [] rs)).getLast? with
    | none =>
      have hnil : verdicts read q (RuleSet.fresh [] rs) = [] := List.getLast?_eq_none_iff.mp hkept
      have hsilent : verdicts read q rs = [] := by
        refine List.filterMap_eq_nil_iff.mpr fun r hr => ?_
        exact List.filterMap_eq_nil_iff.mp hnil r (RuleSet.mem_fresh.mpr ⟨hr, List.not_mem_nil⟩)
      exact absurd (by rw [hnil, hsilent]) hne
    | some v =>
      obtain ⟨kept, x, later, hfresh, hxv, hlater⟩ := getLast?_verdicts_eq_some hkept
      obtain ⟨before, rest, rfl, hx, hnew⟩ := RuleSet.fresh_eq_append_cons hfresh
      rw [hkept, getLast?_verdicts_append_cons hxv] at hne
      cases hlast : (verdicts read q rest).getLast? with
      | none => exact absurd (by rw [hlast]; rfl) hne
      | some w =>
        obtain rfl : w = !v := by
          rw [hlast] at hne
          cases w <;> cases v <;> simp_all
        obtain ⟨mid, y, after, rfl, hyv, hafter⟩ := getLast?_verdicts_eq_some hlast
        refine ⟨before, mid, after, x, y, v, rfl, hx, hxv, hyv, hafter, fun r hr hrv => ?_⟩
        by_contra hnotMem
        have hrx : r ≠ x := by
          rintro rfl
          exact absurd (hxv.symm.trans hrv) (by simp)
        exact absurd (hlater r (hnew r hr hrx hnotMem List.not_mem_nil)) (by simp [hrv])

/-! ## When repeats do not matter -/

namespace RuleSet

theorem records_embedded_build (config : Config) (tables : Tables) (entries : List Entry) :
    (build config tables entries).embedded.flatMap Chunk.records =
      fresh [] (candidates config.minPatternLength tables).1 :=
  Chunk.flatMap_records_cut embeddedStem config.embeddedChunkSize config.embeddedChunkSize_pos _

/-- However expressions are read: if all records of the tables can be compiled, repeats included,
then so can those that the rule set keeps. As a list these decide about a request as all of them do,
unless a repeat overrules them. -/
theorem blocks_embedded_eq_iff (config : Config) (tables : Tables) (entries : List Entry)
    (hcompiles : ∀ r ∈ (candidates config.minPatternLength tables).1, r.Compiles read)
    (name : Text) :
    ∃ all kept : List CompiledRule,
      RuleList.compileRules read 0 (candidates config.minPatternLength tables).1 = .ok all ∧
      RuleList.compileRules read 0 ((build config tables entries).embedded.flatMap Chunk.records) =
        .ok kept ∧
      ∀ q : Request, (RuleList.mk name kept).blocks q = (RuleList.mk name all).blocks q ↔
        ¬ RepeatOverrules read q (candidates config.minPatternLength tables).1 := by
  rw [records_embedded_build]
  have hkept : ∀ r ∈ fresh [] (candidates config.minPatternLength tables).1, r.Compiles read :=
    fun r hr => hcompiles r (mem_fresh.mp hr).1
  refine ⟨_, _, RuleList.compileRules_eq hcompiles 0, RuleList.compileRules_eq hkept 0, fun q => ?_⟩
  rw [RuleList.blocks_eq_getLast?, RuleList.blocks_eq_getLast?, repeatOverrules_iff, not_not]

def wholeChunks : Config where
  embeddedChunkSize := 2
  downloadedChunkSize := 2
  minPatternLength := 2
  fetchTimeout := .ofInt 30
  maxAttempts := 2
  backoffBase := .ofInt 1
  backoffMax := .ofInt 30
  cacheMaxAgeDays := .ofInt 7
  cacheKey := "list".toList
  sources := []
  embeddedChunkSize_pos := Nat.two_pos
  downloadedChunkSize_pos := Nat.two_pos
  minPatternLength_pos := Nat.two_pos
  maxAttempts_pos := Nat.two_pos

/-- Ads are blocked, house ads are not, and then ads are blocked again. -/
def repeatedAds : Tables where
  filterTexts := ["ads\n@@ads/house\nads".toList]
  blockedDomains := []
  pathRecords := []
  hideRecords := []
  suffixes := .unknown

theorem compiles_repeatedAds : ∀ r ∈ (candidates 2 repeatedAds).1, r.Compiles Regex.reader := by
  have h : ∀ r ∈ (candidates 2 repeatedAds).1, (r.rule? Regex.reader).isSome = true := by
    decide +kernel
  exact fun r hr => (Record.compiles_iff r).2 (h r hr)

theorem blocks_embedded_repeatedAds :
    (∀ r ∈ (candidates wholeChunks.minPatternLength repeatedAds).1, r.Compiles Regex.reader) ∧
      ∃ all kept : List CompiledRule,
        RuleList.compileRules Regex.reader 0
          (candidates wholeChunks.minPatternLength repeatedAds).1 = .ok all ∧
        RuleList.compileRules Regex.reader 0
          ((build wholeChunks repeatedAds []).embedded.flatMap Chunk.records) = .ok kept ∧
        ∀ q : Request, (RuleList.mk [] kept).blocks q = (RuleList.mk [] all).blocks q ↔
          ¬ RepeatOverrules Regex.reader q
            (candidates wholeChunks.minPatternLength repeatedAds).1 :=
  ⟨compiles_repeatedAds, blocks_embedded_eq_iff wholeChunks repeatedAds [] compiles_repeatedAds []⟩

/-- The second block of ads is left out, and the exception has the last say about house ads. -/
theorem repeat_lost_behind_exception :
    ∃ all kept : List CompiledRule,
      RuleList.compileRules Regex.reader 0
        (candidates wholeChunks.minPatternLength repeatedAds).1 = .ok all ∧
      RuleList.compileRules Regex.reader 0
        ((build wholeChunks repeatedAds []).embedded.flatMap Chunk.records) = .ok kept ∧
      (RuleList.mk [] all).blocks { url := "https://ads/house".toList } = true ∧
      (RuleList.mk [] kept).blocks { url := "https://ads/house".toList } = false := by
  have hkept : ∀ r ∈ (build wholeChunks repeatedAds []).embedded.flatMap Chunk.records,
      r.Compiles Regex.reader := by
    rw [records_embedded_build]
    exact fun r hr => compiles_repeatedAds r (mem_fresh.mp hr).1
  exact ⟨_, _, RuleList.compileRules_eq compiles_repeatedAds 0, RuleList.compileRules_eq hkept 0,
    by decide +kernel, by decide +kernel⟩

end RuleSet

end ContentFilter
