import ContentFilter.Proofs.Domain.Plain
import ContentFilter.Rule.List

/-! # Patterns of parsed rules

Every network rule that a filter list holds has a pattern of the least length that is asked for, be
it written as a rule of its own or as a line of a hosts file. Wildcards around the pattern do not
count.

* `NetworkRule.significantLength_eq_length`, `NetworkRule.significantLength_of_isPlain`: patterns
  without wildcards, plain names among them.
* `Line.ofText_cases`: what holds of every line.
* `Line.floor_le_significantLength`, `Line.floor_le_length_pattern`: the patterns of the rules of a
  line.
-/

set_option autoImplicit false

namespace ContentFilter

open Text

namespace NetworkRule

/-! ## Lengths of patterns -/

theorem significantLength_le (pattern : Text) : significantLength pattern ≤ pattern.length :=
  (dropAroundWhile_sublist _ pattern).length_le

theorem significantLength_eq_length {pattern : Text} (h : '*' ∉ pattern) :
    significantLength pattern = pattern.length := by
  rw [significantLength, dropAroundWhile_eq_self fun c hc => ?_]
  have hstar : c ≠ '*' := fun heq => h (heq ▸ hc)
  simpa using hstar

theorem significantLength_of_isPlain {d : Text} (h : Domain.isPlain d = true) :
    significantLength d = d.length :=
  significantLength_eq_length fun hmem => absurd (Domain.mem_of_isPlain h '*' hmem) (by decide)

end NetworkRule

namespace Line

/-! ## Kinds of lines -/

/-- What holds of lines without a rule and of lines of each kind holds of every line. -/
theorem ofText_cases {floor : Nat} {P : Line → Prop} (hnone : ∀ l, l.toRules = [] → P l)
    (hnetwork : ∀ isException t, P (ofNetwork floor isException t))
    (hcosmetic : ∀ line domains marker selector, P (ofCosmetic line domains marker selector))
    (hhosts : ∀ names, P (ofHosts floor names))
    (hunsupported : ∀ line, P (.rules (.unsupported line) [] 0)) (t : Text) :
    P (ofText floor t) := by
  have hrule : ∀ line, P (ofRule floor line) := by
    intro line
    unfold ofRule
    split
    · exact hnetwork _ _
    · split
      · exact hcosmetic _ _ _ _
      · split
        · exact hhosts _
        · split
          · exact hunsupported _
          · exact hnetwork _ _
  unfold ofText
  dsimp only
  split
  · exact hnone _ rfl
  · split
    · exact hnone _ rfl
    · split
      · exact hnone _ rfl
      · exact hrule _

/-! ## Patterns of the rules of a line -/

theorem floor_le_of_mem_ofNetwork {floor : Nat} {isException : Bool} {t : Text} {r : NetworkRule}
    (h : .network r ∈ (ofNetwork floor isException t).toRules) :
    floor ≤ NetworkRule.significantLength r.pattern := by
  unfold ofNetwork at h
  dsimp only at h
  split at h
  · exact absurd h List.not_mem_nil
  next hlong =>
    simp only [toRules, List.mem_singleton, Rule.network.injEq] at h
    subst h
    exact Nat.le_of_not_lt hlong

theorem toRules_ofHosts (floor : Nat) (names : List Text) : (ofHosts floor names).toRules =
    (((names.takeWhile fun n => !startsWith n ['#']).map Domain.normalize).filter
      (isBlockable floor)).map fun d => .network (NetworkRule.forDomain d) := by
  unfold ofHosts
  dsimp only
  split
  next hnone => rw [hnone]; rfl
  next hsome => rw [hsome]; rfl

theorem floor_le_of_mem_ofHosts {floor : Nat} {names : List Text} {r : NetworkRule}
    (h : .network r ∈ (ofHosts floor names).toRules) :
    floor ≤ NetworkRule.significantLength r.pattern := by
  rw [toRules_ofHosts] at h
  obtain ⟨d, hd, heq⟩ := List.mem_map.mp h
  obtain rfl : NetworkRule.forDomain d = r := Rule.network.inj heq
  have hblockable : isBlockable floor d = true := (List.mem_filter.mp hd).2
  simp only [isBlockable, Bool.and_eq_true, decide_eq_true_eq] at hblockable
  rw [NetworkRule.forDomain, NetworkRule.significantLength_of_isPlain hblockable.1.2]
  exact hblockable.2

theorem not_mem_ofCosmetic {line domains marker selector : Text} {r : NetworkRule} :
    .network r ∉ (ofCosmetic line domains marker selector).toRules := by
  unfold ofCosmetic
  split
  · simp [toRules]
  · split <;> simp [toRules]

/-- The pattern of a network rule is at least as long as is asked for, without the wildcards around
it. -/
theorem floor_le_significantLength {floor : Nat} {t : Text} {r : NetworkRule}
    (h : .network r ∈ (ofText floor t).toRules) :
    floor ≤ NetworkRule.significantLength r.pattern := by
  refine ofText_cases (P := fun l => .network r ∈ l.toRules → _) ?_ ?_ ?_ ?_ ?_ t h
  · exact fun l hnone hr => absurd hr (by simp [hnone])
  · exact fun _ _ => floor_le_of_mem_ofNetwork
  · exact fun _ _ _ _ hr => absurd hr not_mem_ofCosmetic
  · exact fun _ => floor_le_of_mem_ofHosts
  · exact fun _ hr => absurd hr (by simp [toRules])

end Line

end ContentFilter
