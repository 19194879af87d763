import ContentFilter.Proofs.RuleList.Decision

/-! # The two families of rules

A list mixes rules about requests with rules that hide elements. The ones decide about requests, the
others tell what to hide on a page, and neither family has a say in the work of the other.

* `RuleList.network`, `RuleList.cosmetic`: the rules of one family, in order.
* `RuleList.blocks_network`, `RuleList.hideSelectors_cosmetic`: one family does all the work.
* `RuleList.last_applicable_rule_decides`: the decision of a list, and what it does not depend on.
-/

set_option autoImplicit false

namespace ContentFilter

/-! ## Single rules -/

namespace CompiledRule

variable {c : CompiledRule}

theorem decide_of_hide (h : c.action.kind = .hide) (q : Request) (blocked : Bool) :
    decide q blocked c = blocked := by
  simp only [decide, h]

theorem hidden?_of_ne_hide (h : c.action.kind ≠ .hide) (q : Request) : c.hidden? q = none := by
  unfold hidden?
  split
  next hhide _ => exact absurd hhide h
  · rfl

theorem blocks_iff {q : Request} :
    c.blocks q = true ↔ c.action.kind = .block ∧ c.applies q = true := by
  rw [blocks, Bool.and_eq_true, decide_eq_true_eq]

theorem exempts_eq_false_iff {q : Request} :
    c.exempts q = false ↔ (c.action.kind = .ignore → c.applies q = false) := by
  rw [exempts, Bool.and_eq_false_imp, decide_eq_true_eq]

end CompiledRule

/-! ## Families -/

namespace RuleList

/-- The rules about requests. -/
def network (l : RuleList) : RuleList :=
  { l with rules := l.rules.filter fun c => c.action.kind ≠ .hide }

/-- The rules that hide elements. -/
def cosmetic (l : RuleList) : RuleList :=
  { l with rules := l.rules.filter fun c => c.action.kind = .hide }

/-- A rule that hides elements hands the decision on as it is. -/
theorem blocks_network (l : RuleList) (q : Request) : l.network.blocks q = l.blocks q := by
  have hskip : (fun blocked c => if c.action.kind ≠ .hide then CompiledRule.decide q blocked c
      else blocked) = CompiledRule.decide q := by
    funext blocked c
    split
    · rfl
    next hhide => exact (CompiledRule.decide_of_hide (not_not.mp hhide) q blocked).symm
  simp only [blocks, network, List.foldl_filter, decide_eq_true_eq, hskip]

theorem hideSelectors_cosmetic (l : RuleList) (pageUrl : Text) (topDomain : Option Text) :
    l.cosmetic.hideSelectors pageUrl topDomain = l.hideSelectors pageUrl topDomain := by
  simp only [hideSelectors, cosmetic, List.filterMap_filter, decide_eq_true_eq]
  refine List.filterMap_congr fun c _ => ?_
  split
  · rfl
  next hother => exact (CompiledRule.hidden?_of_ne_hide hother _).symm

/-- A request is blocked exactly when a block rule applies to it and no exception at a later place
does. The rules that hide elements play no part in this, nor do the others in what is hidden. -/
theorem last_applicable_rule_decides (l : RuleList) (q : Request) (pageUrl : Text)
    (topDomain : Option Text) :
    (l.blocks q = true ↔ ∃ (i : Nat) (c : CompiledRule), l.rules[i]? = some c ∧
      (c.action.kind = .block ∧ c.applies q = true) ∧
      ∀ (j : Nat) (d : CompiledRule), i < j → l.rules[j]? = some d → d.action.kind = .ignore →
        d.applies q = false) ∧
    l.network.blocks q = l.blocks q ∧
    l.cosmetic.hideSelectors pageUrl topDomain = l.hideSelectors pageUrl topDomain := by
  refine ⟨?_, blocks_network l q, hideSelectors_cosmetic l pageUrl topDomain⟩
  simp only [blocks_iff, CompiledRule.blocks_iff, CompiledRule.exempts_eq_false_iff]

end RuleList

end ContentFilter
