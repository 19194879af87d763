import Mathlib.Data.List.Basic
import Mathlib.Tactic.Common
import ContentFilter.Proofs.Record.Wire
import ContentFilter.RuleList.Basic

/-! # Decisions of rule lists

A list blocks a request when one of its blocking rules applies and no exception behind it does.

* `CompiledRule.blocks`, `CompiledRule.exempts`: what a single rule says about a request.
* `RuleList.blocks_iff`: what a list makes of them.
* `Record.rule?`, `Record.Compiles`: the rule for a record, when a reader takes its expression, with
  `RuleList.compile_records`: the list for the compact text of well-formed records.
* `RuleList.blocks_records_iff`: the decision of such a list by the places of its records.
-/

set_option autoImplicit false

namespace ContentFilter

/-! ## Single rules -/

namespace CompiledRule

/-- Whether a rule blocks a request. -/
def blocks (q : Request) (c : CompiledRule) : Bool := c.action.kind = .block && c.applies q

/-- Whether a rule cancels the blocks of a request by the rules before it. -/
def exempts (q : Request) (c : CompiledRule) : Bool := c.action.kind = .ignore && c.applies q

theorem decide_eq_true_iff (q : Request) (blocked : Bool) (c : CompiledRule) :
    decide q blocked c = true ↔ c.blocks q = true ∨ blocked = true ∧ c.exempts q = false := by
  unfold decide blocks exempts
  cases c.action.kind <;> cases c.applies q <;> cases blocked <;> decide

end CompiledRule

/-! ## Lists of rules -/

namespace RuleList

theorem foldl_decide_iff (q : Request) (rules : List CompiledRule) (blocked : Bool) :
    rules.foldl (CompiledRule.decide q) blocked = true ↔
      (∃ (i : Nat) (c : CompiledRule), rules[i]? = some c ∧ c.blocks q = true ∧
        ∀ (j : Nat) (d : CompiledRule), i < j → rules[j]? = some d → d.exempts q = false) ∨
      blocked = true ∧ ∀ d ∈ rules, d.exempts q = false := by
  induction rules generalizing blocked with
  | nil => simp
  | cons c cs ih =>
    rw [List.foldl_cons, ih, CompiledRule.decide_eq_true_iff]
    constructor
    · rintro (⟨i, d, hd, hb, hlater⟩ | ⟨hb | ⟨hb, hc⟩, hcs⟩)
      · refine .inl ⟨i + 1, d, by simpa using hd, hb, fun j e hij he => ?_⟩
        obtain ⟨j, rfl⟩ : ∃ k, j = k + 1 := ⟨j - 1, by omega⟩
        exact hlater j e (by omega) (by simpa using he)
      · refine .inl ⟨0, c, rfl, hb, fun j e hij he => ?_⟩
        obtain ⟨j, rfl⟩ : ∃ k, j = k + 1 := ⟨j - 1, by omega⟩
        exact hcs e (List.mem_of_getElem? (by simpa using he))
      · exact .inr ⟨hb, List.forall_mem_cons.2 ⟨hc, hcs⟩⟩
    · rintro (⟨i, d, hd, hb, hlater⟩ | ⟨hb, hall⟩)
      · cases i with
        | zero =>
          obtain rfl : c = d := by simpa using hd
          refine .inr ⟨.inl hb, fun e he => ?_⟩
          obtain ⟨j, hj⟩ := List.mem_iff_getElem?.1 he
          exact hlater (j + 1) e (by omega) (by simpa using hj)
        | succ i =>
          exact .inl ⟨i, d, by simpa using hd, hb,
            fun j e hij he => hlater (j + 1) e (by omega) (by simpa using he)⟩
      · obtain ⟨hc, hcs⟩ := List.forall_mem_cons.1 hall
        exact .inr ⟨.inr ⟨hb, hc⟩, hcs⟩

/-- A list blocks a request when a rule of it does and no exception behind that rule applies. -/
theorem blocks_iff (l : RuleList) (q : Request) :
    l.blocks q = true ↔ ∃ (i : Nat) (c : CompiledRule), l.rules[i]? = some c ∧ c.blocks q = true ∧
      ∀ (j : Nat) (d : CompiledRule), i < j → l.rules[j]? = some d → d.exempts q = false := by
  rw [RuleList.blocks, foldl_decide_iff]
  simp

end RuleList

/-! ## Records as rules -/

namespace Record

/-- The rule for a record, if its regular expression can be read. -/
def rule? (read : FilterReader) (r : Record) : Option CompiledRule :=
  match read r.trigger.urlFilter with
  | .ok finds => some ⟨finds, r.trigger, r.action⟩
  | .error _ => none

def blocks (read : FilterReader) (q : Request) (r : Record) : Bool :=
  (r.rule? read).any (CompiledRule.blocks q)

/-- Whether a record cancels the blocks of a request by the records before it. -/
def exempts (read : FilterReader) (q : Request) (r : Record) : Bool :=
  (r.rule? read).any (CompiledRule.exempts q)

variable {read : FilterReader}

theorem exempts_of_blocks {q : Request} {r : Record} (h : r.blocks read q = true) :
    r.exempts read q = false := by
  unfold blocks at h
  unfold exempts
  cases hr : r.rule? read with
  | none => rfl
  | some c =>
    rw [hr, Option.any_some, CompiledRule.blocks, Bool.and_eq_true, decide_eq_true_eq] at h
    simp [CompiledRule.exempts, h.1]

/-- A reader takes the regular expression of a record. -/
def Compiles (read : FilterReader) (r : Record) : Prop :=
  ∃ finds, read r.trigger.urlFilter = .ok finds

theorem compiles_iff (r : Record) : r.Compiles read ↔ (r.rule? read).isSome = true := by
  unfold Compiles rule?
  cases read r.trigger.urlFilter <;> simp

theorem rule?_of_read {r : Record} {finds : Text → Bool}
    (h : read r.trigger.urlFilter = .ok finds) :
    r.rule? read = some ⟨finds, r.trigger, r.action⟩ := by rw [rule?, h]

theorem Compiles.exists_rule? {r : Record} (h : r.Compiles read) : ∃ c, r.rule? read = some c := by
  obtain ⟨finds, hfinds⟩ := h
  exact ⟨_, rule?_of_read hfinds⟩

end Record

namespace RuleList

variable {read : FilterReader}

theorem compileRule_eq {r : Record} {c : CompiledRule} (h : r.rule? read = some c) (index : Nat) :
    compileRule read index r = .ok c := by
  unfold Record.rule? at h
  unfold compileRule
  split at h
  next finds hfinds => rw [hfinds]; exact congrArg Except.ok (Option.some.inj h)
  next => cases h

theorem compileRules_eq {rs : List Record} (h : ∀ r ∈ rs, r.Compiles read) (index : Nat) :
    compileRules read index rs = .ok (rs.filterMap (Record.rule? read)) := by
  induction rs generalizing index with
  | nil => rfl
  | cons r rs ih =>
    obtain ⟨hr, hrs⟩ := List.forall_mem_cons.1 h
    obtain ⟨c, hc⟩ := hr.exists_rule?
    rw [compileRules, compileRule_eq hc, ih hrs, List.filterMap_cons_some hc]
    rfl

/-- Whether well-formed records within the limit make a list depends on their expressions alone. -/
theorem compile_listToText {rs : List Record} (hwell : ∀ r ∈ rs, r.WellFormed) {limit : Int}
    (hlimit : rs.length ≤ limit) (name : Text) :
    compile limit name (Record.listToText rs) read = (compileRules read 0 rs).map (⟨name, ·⟩) := by
  rw [compile, Record.listOfText_listToText hwell]
  simp only [Nat.lt_irrefl, if_false, if_neg (Int.not_lt.2 hlimit)]

/-- Well-formed records within the limit whose regular expressions can be read make a list. -/
theorem compile_records {rs : List Record} (hwell : ∀ r ∈ rs, r.WellFormed)
    (hcompiles : ∀ r ∈ rs, r.Compiles read) {limit : Int} (hlimit : rs.length ≤ limit)
    (name : Text) :
    compile limit name (Record.listToText rs) read =
      .ok ⟨name, rs.filterMap (Record.rule? read)⟩ := by
  rw [compile_listToText hwell hlimit, compileRules_eq hcompiles]
  rfl

theorem getElem?_filterMap_rule? {rs : List Record} (h : ∀ r ∈ rs, r.Compiles read) (i : Nat) :
    (rs.filterMap (Record.rule? read))[i]? = rs[i]?.bind (Record.rule? read) := by
  induction rs generalizing i with
  | nil => rfl
  | cons r rs ih =>
    obtain ⟨hr, hrs⟩ := List.forall_mem_cons.1 h
    obtain ⟨c, hc⟩ := hr.exists_rule?
    rw [List.filterMap_cons_some hc]
    cases i with
    | zero => exact hc.symm
    | succ i => simpa using ih hrs i

/-- The list for some records blocks a request when a record does and no exception behind that record
applies. -/
theorem blocks_records_iff {rs : List Record} (h : ∀ r ∈ rs, r.Compiles read) (name : Text)
    (q : Request) :
    (RuleList.mk name (rs.filterMap (Record.rule? read))).blocks q = true ↔
      ∃ (i : Nat) (r : Record), rs[i]? = some r ∧ r.blocks read q = true ∧
        ∀ (j : Nat) (s : Record), i < j → rs[j]? = some s → s.exempts read q = false := by
  rw [blocks_iff]
  simp only [getElem?_filterMap_rule? h, Option.bind_eq_some_iff]
  constructor
  · rintro ⟨i, c, ⟨r, hr, hc⟩, hb, hlater⟩
    refine ⟨i, r, hr, by simp [Record.blocks, hc, hb], fun j s hij hs => ?_⟩
    obtain ⟨d, hd⟩ := (h s (List.mem_of_getElem? hs)).exists_rule?
    simp [Record.exempts, hd, hlater j d hij ⟨s, hs, hd⟩]
  · rintro ⟨i, r, hr, hb, hlater⟩
    obtain ⟨c, hc⟩ := (h r (List.mem_of_getElem? hr)).exists_rule?
    refine ⟨i, c, ⟨r, hr, hc⟩, by simpa [Record.blocks, hc] using hb, ?_⟩
    rintro j d hij ⟨s, hs, hd⟩
    simpa [Record.exempts, hd] using hlater j s hij hs

end RuleList

end ContentFilter
