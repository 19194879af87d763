import ContentFilter.Proofs.Domain.Settled
import ContentFilter.Proofs.Rule.Pattern

/-! # The names in rules

Whatever a line says, the names to which its rules are confined are in normal form. They are settled
like those that pruning keeps: a second pass changes the names with white space left at their end
and no others.

* `Rule.scope`, `DomainScope.Names`: the names in a rule.
* `DomainScope.IsNormal`, `Line.isNormal_scope`: they are in normal form.
* `Line.names_settled_iff`: the names that are settled.
-/

set_option autoImplicit false

namespace ContentFilter

open Text Domain

/-! ## Lists of domains -/

namespace DomainScope

def Names (s : DomainScope) (d : Text) : Prop := d ∈ s.included ∨ d ∈ s.excluded

def IsNormal (s : DomainScope) : Prop := ∀ d, s.Names d → IsNormalForm d

theorem isNormal_empty : IsNormal {} := by
  rintro d (hd | hd) <;> exact absurd hd (SortedSet.not_mem_empty d)

theorem IsNormal.insert_included {s : DomainScope} (h : s.IsNormal) {d : Text}
    (hd : IsNormalForm d) : IsNormal { s with included := s.included.insert d } := by
  rintro e (he | he)
  · rcases SortedSet.mem_insert.mp he with rfl | he
    · exact hd
    · exact h e (.inl he)
  · exact h e (.inr he)

theorem IsNormal.insert_excluded {s : DomainScope} (h : s.IsNormal) {d : Text}
    (hd : IsNormalForm d) : IsNormal { s with excluded := s.excluded.insert d } := by
  rintro e (he | he)
  · exact h e (.inl he)
  · rcases SortedSet.mem_insert.mp he with rfl | he
    · exact hd
    · exact h e (.inr he)

theorem IsNormal.add {s : DomainScope} (h : s.IsNormal) (entry : Text) :
    (s.add entry).IsNormal := by
  unfold DomainScope.add
  dsimp only
  split
  · split
    · exact h
    · exact h.insert_excluded (isNormalForm_normalize _)
  · split
    · exact h
    · exact h.insert_included (isNormalForm_normalize _)

theorem isNormal_ofText (sep : Char) (t : Text) : (ofText sep t).IsNormal :=
  List.foldlRecOn _ _ isNormal_empty fun _ hs entry _ => hs.add entry

end DomainScope

/-! ## Modifiers -/

namespace Modifiers

theorem isNormal_of_ofName? {name : Text} {s : DomainScope}
    (h : Modifier.ofName? name = some (.domains s)) : s.IsNormal := by
  unfold Modifier.ofName? at h
  split at h
  · obtain rfl : DomainScope.ofText '|' (name.drop Modifier.domainsMark.length) = s := by
      simpa using h
    exact DomainScope.isNormal_ofText _ _
  · split at h <;> simp at h

theorem isNormal_scope_add {m : Modifiers} (h : m.scope.IsNormal) (entry : Text) :
    (m.add entry).scope.IsNormal := by
  unfold add
  dsimp only
  split
  · exact h
  · split
    next modifier hname =>
      cases modifier with
      | party p => exact h
      | resource t => exact h
      | domains s => exact isNormal_of_ofName? hname
    · exact h

theorem isNormal_scope_ofText (t : Text) : (ofText t).scope.IsNormal :=
  List.foldlRecOn (motive := fun m : Modifiers => m.scope.IsNormal) _ _ DomainScope.isNormal_empty
    fun _ hm entry _ => isNormal_scope_add hm entry

end Modifiers

/-! ## Lines -/

/-- The pages to which a rule is confined. -/
def Rule.scope : Rule → DomainScope
  | .network r => r.scope
  | .cosmetic r => r.scope
  | .unsupported _ => {}

namespace Line

variable {floor : Nat}

theorem isNormal_scope_ofNetwork (isException : Bool) (t : Text) :
    ∀ rule ∈ (ofNetwork floor isException t).toRules, rule.scope.IsNormal := by
  intro rule hrule
  unfold ofNetwork at hrule
  dsimp only at hrule
  split at hrule
  · exact absurd hrule List.not_mem_nil
  · obtain rfl := List.mem_singleton.mp hrule
    rw [Rule.scope]
    split
    · exact Modifiers.isNormal_scope_ofText _
    · exact DomainScope.isNormal_empty

theorem isNormal_scope_ofCosmetic (line domains marker selector : Text) :
    ∀ rule ∈ (ofCosmetic line domains marker selector).toRules, rule.scope.IsNormal := by
  intro rule hrule
  unfold ofCosmetic at hrule
  split at hrule
  · obtain rfl := List.mem_singleton.mp hrule
    exact DomainScope.isNormal_empty
  · split at hrule
    · exact absurd hrule List.not_mem_nil
    · obtain rfl := List.mem_singleton.mp hrule
      exact DomainScope.isNormal_ofText _ _

theorem isNormal_scope_ofHosts (names : List Text) :
    ∀ rule ∈ (ofHosts floor names).toRules, rule.scope.IsNormal := by
  intro rule hrule
  rw [toRules_ofHosts] at hrule
  obtain ⟨d, -, rfl⟩ := List.mem_map.mp hrule
  exact DomainScope.isNormal_empty

/-- The names in the rules of a line are in normal form. -/
theorem isNormal_scope (t : Text) :
    ∀ rule ∈ (ofText floor t).toRules, rule.scope.IsNormal := by
  refine ofText_cases (P := fun l => ∀ rule ∈ l.toRules, rule.scope.IsNormal) ?_
    isNormal_scope_ofNetwork isNormal_scope_ofCosmetic isNormal_scope_ofHosts ?_ t
  · intro l hnone rule hrule
    exact absurd hrule (by simp [hnone])
  · intro line rule hrule
    obtain rfl := List.mem_singleton.mp hrule
    exact DomainScope.isNormal_empty

/-- One pass settles a name, unless white space stands in front of the dots at its end. The names
that pruning keeps and those in the rules of a line are settled but for the ones with white space
left at their end, and pruning what is kept leaves out nothing unless there is such a name. -/
theorem names_settled_iff (s : SuffixRules) (names : List Text) (floor : Nat) (line : Text) :
    let kept := (s.prune names).1
    (∀ t, normalize (normalize t) = normalize t ↔
        ¬ ∃ front b dots, strip (lower t) = front ++ b :: dots ∧ isBlank b = true ∧
          ∀ c ∈ dots, c = '.') ∧
      (∀ d ∈ kept, normalize d = d ↔ ¬ EndsBlank d) ∧
      (s.prune kept = (kept, 0) ↔ ∀ d ∈ kept, ¬ EndsBlank d) ∧
      ∀ rule ∈ (ofText floor line).toRules, ∀ d, d ∈ rule.scope.included ∨ d ∈ rule.scope.excluded →
        (normalize d = d ↔ ¬ EndsBlank d) := by
  intro kept
  refine ⟨fun t => ?_, fun d hd => ?_, s.prune_kept_iff names, fun rule hrule d hd => ?_⟩
  · rw [(isNormalForm_normalize t).normalize_eq_self_iff, endsBlank_normalize_iff]
  · exact (SuffixRules.isNormalForm_of_mem_prune hd).normalize_eq_self_iff
  · exact (isNormal_scope line rule hrule d hd).normalize_eq_self_iff

/-- A name with a space in front of its last dot keeps the space. Pruned again, it loses it. -/
theorem not_settled_dot_apart :
    SuffixRules.bundled.prune ["a .".toList] = (["a ".toList], 0) ∧
      SuffixRules.bundled.prune ["a ".toList] = (["a".toList], 0) ∧
      normalize (normalize "a .".toList) ≠ normalize "a .".toList ∧
      (ofText 3 "a .,~b .##.ad".toList).toRules = [.cosmetic ⟨".ad".toList,
        ⟨SortedSet.ofList ["a ".toList], SortedSet.ofList ["b ".toList]⟩⟩] := by
  decide +kernel

end Line

end ContentFilter
