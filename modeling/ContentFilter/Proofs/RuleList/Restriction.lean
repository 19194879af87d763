import ContentFilter.Proofs.RuleList.Decision

/-! # Restrictions of records

A record holds for requests of some resource types and on pages of some domains, or for all of them
if it lists none. In a JSON entry, what is no text, an empty text and a type that is not known count
for nothing. What is left of a list is what the rule is confined to; if nothing is left, it is not
confined.

* `Json.Lists`: what an array of an entry lists.
* `Record.mem_resourceTypes_iff`, `Record.mem_ifDomains_iff`: what a record takes from an entry.
* `CompiledRule.applies_iff`: the requests for which the rule of an entry applies.
* `CompiledRule.applies_within`: the rule of an entry keeps to the types and the domains listed.
-/

set_option autoImplicit false

namespace ContentFilter

open Text

/-! ## Arrays of an entry -/

namespace Json

/-- The items of an array in the trigger of an entry. -/
def triggerItems? (entry : Json) (key : Text) : Option (List Json) :=
  match (entry.field? "trigger".toList).bind (field? key) with
  | some (.array items) => some items
  | _ => none

/-- An array in the trigger of an entry has a text that is not empty. -/
def Lists (entry : Json) (key member : Text) : Prop :=
  member ≠ [] ∧ ∃ items, entry.triggerItems? key = some items ∧ .text member ∈ items

theorem lists_iff_mem {entry : Json} {key member : Text} {items : List Json}
    (h : entry.triggerItems? key = some items) :
    entry.Lists key member ↔ member ≠ [] ∧ .text member ∈ items := by
  simp only [Lists, h, Option.some.injEq, exists_eq_left']

end Json

namespace ResourceType

theorem name_ne_nil (t : ResourceType) : t.name ≠ [] := by cases t <;> decide

end ResourceType

namespace Record

theorem text?_eq_some_iff {v : Json} {t : Text} : text? v = some t ↔ v = .text t := by
  cases v <;> simp [text?]

theorem mem_textsOf {field : Option Json} {t : Text} :
    t ∈ textsOf field ↔ t ≠ [] ∧ ∃ items, field = some (.array items) ∧ .text t ∈ items := by
  unfold textsOf
  split
  next items => simp [List.mem_filter, List.mem_filterMap, text?_eq_some_iff, and_comm]
  next hother =>
    refine iff_of_false List.not_mem_nil ?_
    rintro ⟨-, items, rfl, -⟩
    exact hother items rfl

variable {entry : Json} {r : Record}

theorem lists_iff {trigger : Json} (h : entry.field? "trigger".toList = some trigger)
    {key member : Text} : entry.Lists key member ↔ member ∈ textsOf (trigger.field? key) := by
  rw [mem_textsOf, Json.Lists, Json.triggerItems?, h, Option.bind_some]
  refine and_congr_right fun _ => exists_congr fun items => and_congr_left fun _ => ?_
  split
  next found heq => rw [heq]; simp
  next hother => exact iff_of_false nofun (hother items)

/-- The sets of a record that is read from an entry. -/
theorem sets_of_ofJson? (h : ofJson? entry = some r) :
    ∃ trigger, entry.field? "trigger".toList = some trigger ∧
      r.trigger.resourceTypes = SortedSet.ofList
        ((textsOf (trigger.field? "resource-type".toList)).filterMap ResourceType.ofName?) ∧
      r.trigger.ifDomains = SortedSet.ofList (textsOf (trigger.field? "if-domain".toList)) ∧
      r.trigger.unlessDomains =
        SortedSet.ofList (textsOf (trigger.field? "unless-domain".toList)) := by
  obtain ⟨trigger, htrigger, h⟩ := Option.bind_eq_some_iff.mp h
  obtain ⟨action, -, h⟩ := Option.bind_eq_some_iff.mp h
  obtain ⟨t, ht, h⟩ := Option.bind_eq_some_iff.mp h
  obtain ⟨a, -, h⟩ := Option.bind_eq_some_iff.mp h
  obtain rfl := Option.some.inj h
  obtain ⟨urlFilter, -, ht⟩ := Option.bind_eq_some_iff.mp ht
  rw [Option.ite_none_left_eq_some] at ht
  obtain rfl := Option.some.inj ht.2
  exact ⟨trigger, htrigger, rfl, rfl, rfl⟩

theorem mem_resourceTypes_iff (h : ofJson? entry = some r) {t : ResourceType} :
    t ∈ r.trigger.resourceTypes ↔ entry.Lists "resource-type".toList t.name := by
  obtain ⟨trigger, htrigger, htypes, -, -⟩ := sets_of_ofJson? h
  rw [htypes, SortedSet.mem_ofList, List.mem_filterMap, lists_iff htrigger]
  simp only [ResourceType.ofName?_eq_some_iff, UnicodeString.ofText_eq, exists_eq_right]

theorem mem_ifDomains_iff (h : ofJson? entry = some r) {m : Text} :
    m ∈ r.trigger.ifDomains ↔ entry.Lists "if-domain".toList m := by
  obtain ⟨trigger, htrigger, -, hif, -⟩ := sets_of_ofJson? h
  rw [hif, SortedSet.mem_ofList, lists_iff htrigger]

theorem mem_unlessDomains_iff (h : ofJson? entry = some r) {m : Text} :
    m ∈ r.trigger.unlessDomains ↔ entry.Lists "unless-domain".toList m := by
  obtain ⟨trigger, htrigger, -, -, hunless⟩ := sets_of_ofJson? h
  rw [hunless, SortedSet.mem_ofList, lists_iff htrigger]

end Record

/-! ## What a trigger admits -/

theorem SortedSet.isEmpty_or_iff {α : Type} [Ord α] (s : SortedSet α) (b : Bool) :
    (s.isEmpty || b) = true ↔ (∃ a, a ∈ s) → b = true := by
  obtain ⟨_ | ⟨a, as⟩, hsorted⟩ := s
  · exact iff_of_true rfl fun ⟨_, ha⟩ => absurd ha List.not_mem_nil
  · exact ⟨fun hb _ => hb, fun hb => hb ⟨a, List.mem_cons_self⟩⟩

/-- A list of domains covers what one of its entries covers. -/
theorem domainMatches_iff {domain : Text} {markers : List Text} :
    domainMatches domain markers = true ↔ ∃ m ∈ markers, domainMatches domain [m] = true := by
  simp [domainMatches]

namespace Trigger

variable (t : Trigger)

theorem admitsType_iff_mem (resourceType : Option ResourceType) :
    t.admitsType resourceType = true ↔ (∃ u, u ∈ t.resourceTypes) →
      ∀ u, resourceType = some u → u ∈ t.resourceTypes := by
  cases resourceType with
  | none => exact iff_of_true rfl fun _ _ h => nomatch h
  | some u =>
    rw [admitsType, SortedSet.isEmpty_or_iff, List.contains_iff_mem, SortedSet.mem_toList]
    simp only [Option.some.injEq, forall_eq']

theorem admitsDomain_iff_mem (topDomain : Option Text) :
    t.admitsDomain topDomain = true ↔
      ((∃ m, m ∈ t.ifDomains) →
        ∃ top, topDomain = some top ∧ ∃ m ∈ t.ifDomains, domainMatches top [m] = true) ∧
      ∀ top, topDomain = some top → ∀ m ∈ t.unlessDomains, domainMatches top [m] = false := by
  rw [admitsDomain, Bool.and_eq_true, SortedSet.isEmpty_or_iff]
  refine and_congr (imp_congr_right fun _ => ?_) ?_
  · rw [Option.any_eq_true]
    exact exists_congr fun top => and_congr_right fun _ => domainMatches_iff
  · rw [Bool.not_eq_true', Option.any_eq_false]
    refine forall_congr' fun top => imp_congr_right fun _ => ?_
    rw [← Bool.not_eq_true, domainMatches_iff]
    simp only [not_exists, not_and, Bool.not_eq_true, SortedSet.mem_toList]

end Trigger

/-! ## The rule of an entry -/

theorem RuleList.trigger_of_compileRule {read : FilterReader} {index : Nat} {r : Record}
    {c : CompiledRule} (h : compileRule read index r = .ok c) : c.trigger = r.trigger := by
  unfold compileRule at h
  split at h
  next => cases h; rfl
  all_goals cases h

namespace CompiledRule

variable {read : FilterReader} {entry : Json} {r : Record} {index : Nat} {c : CompiledRule}
  {q : Request}

/-- The requests for which the rule of an entry applies, however its expression is read. The list of
types and that of domains bind it only if there is something in them that counts. -/
theorem applies_iff (hentry : Record.ofJson? entry = some r)
    (hrule : RuleList.compileRule read index r = .ok c) :
    c.applies q = true ↔ c.finds q.url = true ∧ r.trigger.admitsParty q.thirdParty = true ∧
      ((∃ t : ResourceType, entry.Lists "resource-type".toList t.name) →
        ∀ t, q.resourceType = some t → entry.Lists "resource-type".toList t.name) ∧
      ((∃ m, entry.Lists "if-domain".toList m) → ∃ top, q.topDomain = some top ∧
        ∃ m, entry.Lists "if-domain".toList m ∧ domainMatches top [m] = true) ∧
      ∀ top, q.topDomain = some top → ∀ m, entry.Lists "unless-domain".toList m →
        domainMatches top [m] = false := by
  rw [applies, Trigger.admits, RuleList.trigger_of_compileRule hrule]
  simp only [Bool.and_eq_true, Trigger.admitsType_iff_mem, Trigger.admitsDomain_iff_mem,
    Record.mem_resourceTypes_iff hentry, Record.mem_ifDomains_iff hentry,
    Record.mem_unlessDomains_iff hentry]
  tauto

/-- The rule of an entry, however its expression is read, keeps to the types and the domains that the
entry lists, as long as one of them counts: a type that is known, a domain that is a text and not
empty. If none does, the rule applies whatever the type, or where the page is not known. -/
theorem applies_within (hentry : Record.ofJson? entry = some r)
    (hrule : RuleList.compileRule read index r = .ok c) (happlies : c.applies q = true) :
    (∀ items, entry.triggerItems? "resource-type".toList = some items →
      ((∃ t : ResourceType, .text t.name ∈ items) →
        ∀ t, q.resourceType = some t → .text t.name ∈ items) ∧
      ((¬ ∃ t : ResourceType, .text t.name ∈ items) →
        ∀ t, c.applies { q with resourceType := t } = true)) ∧
    ∀ items, entry.triggerItems? "if-domain".toList = some items →
      ((∃ m, m ≠ [] ∧ .text m ∈ items) →
        ∃ top, q.topDomain = some top ∧
          ∃ m, m ≠ [] ∧ .text m ∈ items ∧ domainMatches top [m] = true) ∧
      ((¬ ∃ m, m ≠ [] ∧ .text m ∈ items) → c.applies { q with topDomain := none } = true) := by
  obtain ⟨hfinds, hparty, htypes, hdomains, hunless⟩ := (applies_iff hentry hrule).mp happlies
  constructor
  · intro items hitems
    have hlists : ∀ t : ResourceType,
        entry.Lists "resource-type".toList t.name ↔ .text t.name ∈ items := fun t =>
      (Json.lists_iff_mem hitems).trans (and_iff_right t.name_ne_nil)
    simp only [hlists] at htypes
    refine ⟨htypes, fun hnone t => (applies_iff hentry hrule).mpr ?_⟩
    simp only [hlists]
    exact ⟨hfinds, hparty, fun hsome => absurd hsome hnone, hdomains, hunless⟩
  · intro items hitems
    simp only [Json.lists_iff_mem hitems, and_assoc] at hdomains
    refine ⟨hdomains, fun hnone => (applies_iff hentry hrule).mpr ?_⟩
    simp only [Json.lists_iff_mem hitems]
    exact ⟨hfinds, hparty, htypes, fun hsome => absurd hsome hnone,
      fun _ htop => absurd htop (by simp)⟩

/-- An entry that blocks advertisements, with two arrays in its trigger. -/
def adsEntry (types domains : List Json) : Json :=
  .object [
    ("trigger".toList, .object [
      ("url-filter".toList, .text "ads".toList),
      ("resource-type".toList, .array types),
      ("if-domain".toList, .array domains)]),
    ("action".toList, .object [("type".toList, .text "block".toList)])]

def adsRequest (topDomain : Option Text) : Request where
  url := "https://ads".toList
  resourceType := some .script
  topDomain := topDomain

theorem exists_applying (types domains : List Json) (topDomain : Option Text)
    (h : ((Record.ofJson? (adsEntry types domains)).bind (Record.rule? Regex.reader)).any
      (·.applies (adsRequest topDomain)) = true) :
    ∃ r c, Record.ofJson? (adsEntry types domains) = some r ∧
      RuleList.compileRule Regex.reader 0 r = .ok c ∧ c.applies (adsRequest topDomain) = true := by
  obtain ⟨c, hc, happlies⟩ := Option.any_eq_true _ _ |>.mp h
  obtain ⟨r, hr, hrule⟩ := Option.bind_eq_some_iff.mp hc
  exact ⟨r, c, hr, RuleList.compileRule_eq hrule 0, happlies⟩

theorem applies_within_shop :
    ∃ types domains r c, Record.ofJson? (adsEntry types domains) = some r ∧
      RuleList.compileRule Regex.reader 0 r = .ok c ∧
      c.applies (adsRequest (some "www.shop.example".toList)) = true ∧
      types = [.text "script".toList, .text "fetch".toList, .null] ∧
      domains = [.text [], .text "*shop.example".toList] ∧
      .text "script".toList ∈ types ∧
      ∃ m, m ≠ [] ∧ .text m ∈ domains ∧
        domainMatches "www.shop.example".toList [m] = true := by
  let types : List Json := [.text "script".toList, .text "fetch".toList, .null]
  let domains : List Json := [.text [], .text "*shop.example".toList]
  obtain ⟨r, c, hr, hc, happlies⟩ :=
    exists_applying types domains (some "www.shop.example".toList) (by decide +kernel)
  obtain ⟨htypes, hdomains⟩ := applies_within hr hc happlies
  refine ⟨types, domains, r, c, hr, hc, happlies, rfl, rfl, ?_, ?_⟩
  · exact (htypes types rfl).1 ⟨.script, .head _⟩ .script rfl
  · obtain ⟨top, htop, hm⟩ :=
      (hdomains domains rfl).1 ⟨"*shop.example".toList, by decide, .tail _ (.head _)⟩
    obtain rfl := Option.some.inj htop
    exact hm

/-- A list of types without a known one and a list of domains without a text confine a rule to
nothing: it applies to a script, and on a page that is not known. -/
theorem applies_beyond_list :
    (∃ types r c, types = [.text "fetch".toList] ∧
      Record.ofJson? (adsEntry types []) = some r ∧ RuleList.compileRule Regex.reader 0 r = .ok c ∧
      c.applies (adsRequest none) = true ∧ (adsRequest none).resourceType = some .script ∧
      .text ResourceType.script.name ∉ types) ∧
    ∃ domains r c, domains = [.int 5] ∧
      Record.ofJson? (adsEntry [] domains) = some r ∧ RuleList.compileRule Regex.reader 0 r = .ok c ∧
      c.applies (adsRequest none) = true ∧ (adsRequest none).topDomain = none := by
  constructor
  · obtain ⟨r, c, hr, hc, happlies⟩ :=
      exists_applying [.text "fetch".toList] [] none (by decide +kernel)
    refine ⟨_, r, c, rfl, hr, hc, happlies, rfl, fun hmem => ?_⟩
    have hname := Json.text.inj (List.mem_singleton.mp hmem)
    exact absurd hname (by decide)
  · obtain ⟨r, c, hr, hc, happlies⟩ := exists_applying [] [.int 5] none (by decide +kernel)
    exact ⟨_, r, c, rfl, hr, hc, happlies, rfl⟩

end CompiledRule

end ContentFilter
