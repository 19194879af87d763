import Mathlib.Data.List.Basic
import Mathlib.Tactic.Common
import ContentFilter.Proofs.Json.RoundTrip
import ContentFilter.Record.Payload

/-! # Records on the wire

A record that is well formed comes back from its JSON form as it was, and so does a list of such
records from its compact text.

* `Record.WellFormed`: the records that a reader takes as they are.
* `Record.ofJson?_toJson`: one record.
* `Record.listOfText_listToText`: a list of records, none of which is dropped.
-/

set_option autoImplicit false

namespace ContentFilter

open Std UnicodeString

namespace Record

variable {S : Type}

/-! ## Fields for sets -/

def setFields (sets : List (S × List S)) : List (S × Json S) :=
  sets.flatMap fun s => setField s.1 s.2

theorem setFields_keys (sets : List (S × List S)) :
    ((setFields sets).map Prod.fst).Sublist (sets.map Prod.fst) := by
  induction sets with
  | nil => exact .slnil
  | cons s ss ih =>
    rw [setFields, List.flatMap_cons, List.map_append, List.map_cons, ← setFields]
    unfold setField
    split
    next => exact ih.cons s.1
    next => exact ih.cons_cons s.1

theorem readable_texts (depth : Nat) (members : List S) :
    Json.Readable (depth + 1) (.array (members.map .text)) := by
  refine .array fun v hv => ?_
  obtain ⟨t, -, rfl⟩ := List.mem_map.1 hv
  exact .text depth t

theorem readable_setFields (sets : List (S × List S)) {f : S × Json S}
    (hf : f ∈ setFields sets) : Json.Readable 1 f.2 := by
  obtain ⟨s, -, hf⟩ := List.mem_flatMap.1 hf
  unfold setField at hf
  split at hf
  next => exact absurd hf List.not_mem_nil
  next =>
    obtain rfl := List.mem_singleton.1 hf
    exact readable_texts 0 s.2

section

variable [DecidableEq S]

theorem lookup_setField_ne {key other : S} (members : List S) (h : key ≠ other) :
    (setField other members).lookup key = none := by
  unfold setField
  split
  next => rfl
  next => rw [List.lookup_cons, beq_eq_false_iff_ne.2 h]; rfl

theorem lookup_setFields_of_notMem {sets : List (S × List S)} {key : S}
    (h : key ∉ sets.map Prod.fst) : (setFields sets).lookup key = none := by
  induction sets with
  | nil => rfl
  | cons r rs ih =>
    rw [List.map_cons, List.mem_cons, not_or] at h
    obtain ⟨hr, hrs⟩ := h
    rw [setFields, List.flatMap_cons, List.lookup_append, lookup_setField_ne _ hr, ← setFields,
      ih hrs]
    rfl

theorem lookup_setFields {sets : List (S × List S)} (hkeys : (sets.map Prod.fst).Nodup)
    {s : S × List S} (hs : s ∈ sets) :
    (setFields sets).lookup s.1 = (setField s.1 s.2).lookup s.1 := by
  induction sets with
  | nil => exact absurd hs List.not_mem_nil
  | cons r rs ih =>
    rw [List.map_cons, List.nodup_cons] at hkeys
    rw [setFields, List.flatMap_cons, List.lookup_append, ← setFields]
    rcases List.mem_cons.1 hs with rfl | hs
    · rw [lookup_setFields_of_notMem hkeys.1, Option.or_none]
    · have hne : s.1 ≠ r.1 := fun h => hkeys.1 (h ▸ List.mem_map_of_mem hs)
      rw [lookup_setField_ne _ hne, Option.none_or, ih hkeys.2 hs]

end

variable [UnicodeString S]

theorem nodup_map_ofText (names : List Text) (h : names.Nodup) :
    (names.map fun n => (ofText n : S)).Nodup := h.map fun _ _ => ofText_injective

theorem empty_notMem_names (types : SortedSet ResourceType) :
    (ofText [] : S) ∉ types.toList.map fun u => ofText u.name := by
  intro h
  obtain ⟨t, -, ht⟩ := List.mem_map.1 h
  have hname := ofText_injective ht
  cases t <;> exact absurd hname (by decide)

section

variable [DecidableEq S]

theorem textsOf_texts (members : List S) (h : ofText [] ∉ members) :
    textsOf (some (.array (members.map .text))) = members := by
  have hall : members.filterMap (text? ∘ Json.text) = members := by
    simp [Function.comp_def, text?]
  rw [textsOf, List.filterMap_map, hall, List.filter_eq_self]
  intro t ht
  exact decide_eq_true fun hempty => h (hempty ▸ ht)

theorem textsOf_setField (key : S) (members : List S) (h : ofText [] ∉ members) :
    textsOf ((setField key members).lookup key) = members := by
  unfold setField
  split
  next hempty => rw [List.isEmpty_iff.1 hempty]; rfl
  next => rw [List.lookup_cons_self, textsOf_texts members h]

theorem resourceTypes_read (types : SortedSet ResourceType) :
    SortedSet.ofList ((types.toList.map fun u => (ofText u.name : S)).filterMap
      ResourceType.ofName?) = types := by
  have hnames : (types.toList.map fun u => (ofText u.name : S)).filterMap ResourceType.ofName? =
      types.toList := by
    rw [List.filterMap_map, List.filterMap_congr fun t _ => ?_, List.filterMap_some]
    exact ResourceType.ofName?_eq_some_iff.2 rfl
  rw [hnames, SortedSet.ofList_toList]

theorem partyOf_setField (p : Party) :
    partyOf ((setField (ofText "load-type".toList : S) (partyNames p)).lookup
      (ofText "load-type".toList)) = p := by
  have hnames : (ofText Party.third.name : S) ≠ ofText Party.first.name := ofText_ne (by decide)
  cases p with
  | any => rfl
  | first => simp [setField, partyNames, partyOf, List.lookup_cons_self]
  | third => simp [setField, partyNames, partyOf, List.lookup_cons_self, hnames]

end

/-! ## Actions -/

section

variable [DecidableEq S]

theorem ofName?_actionName (k : ActionKind) : ActionKind.ofName? (ofText k.name : S) = some k :=
  ActionKind.ofName?_eq_some_iff.2 rfl

theorem actionOf?_actionJson (a : Action S)
    (hides : a.kind = .hide → ∃ s, a.selector = some s ∧ isBlank s = false)
    (decides : a.kind ≠ .hide → a.selector = none) : actionOf? (actionJson a) = some a := by
  have hkind : (actionJson a).field? (ofText "type".toList) = some (.text (ofText a.kind.name)) := by
    rw [actionJson, Json.field?, List.lookup_cons_self]
  obtain ⟨kind, selector⟩ := a
  by_cases hk : kind = .hide
  · obtain ⟨s, rfl, hs⟩ : ∃ s, selector = some s ∧ isBlank s = false := hides hk
    have hselector : (actionJson ⟨kind, some s⟩).field? (ofText "selector".toList) =
        some (.text s) := by
      rw [actionJson, Json.field?, List.lookup_cons, beq_eq_false_iff_ne.2 (ofText_ne (by decide))]
      exact List.lookup_cons_self
    simp only [actionOf?, hkind, hselector, text?, ofName?_actionName, Option.bind_some,
      Option.bind_eq_bind, if_pos hk, hs, Bool.false_eq_true, if_false]
  · obtain rfl : selector = none := decides hk
    simp only [actionOf?, hkind, text?, ofName?_actionName, Option.bind_some, Option.bind_eq_bind,
      if_neg hk]

end

theorem readable_actionJson (a : Action S) : Json.Readable 2 (actionJson a) := by
  obtain ⟨kind, selector⟩ := a
  cases selector with
  | none =>
    refine .object (List.nodup_singleton _) fun f hf => ?_
    obtain rfl := List.mem_singleton.1 hf
    exact .text 1 (ofText kind.name)
  | some s =>
    refine .object (nodup_map_ofText ["type".toList, "selector".toList] (by decide))
      fun f hf => ?_
    rcases List.mem_pair.1 hf with rfl | rfl
    · exact .text 1 (ofText kind.name)
    · exact .text 1 s

/-! ## Triggers -/

variable [Ord S]

def triggerSets (t : Trigger S) : List (S × List S) :=
  [(ofText "resource-type".toList, t.resourceTypes.toList.map fun u => ofText u.name),
    (ofText "load-type".toList, partyNames t.party),
    (ofText "if-domain".toList, t.ifDomains.toList),
    (ofText "unless-domain".toList, t.unlessDomains.toList)]

theorem triggerJson_eq (t : Trigger S) :
    triggerJson t =
      .object ((ofText "url-filter".toList, .text t.urlFilter) :: setFields (triggerSets t)) := by
  simp only [triggerJson, setFields, triggerSets, List.flatMap_cons, List.flatMap_nil,
    List.append_nil, List.append_assoc]

theorem triggerSets_keys (t : Trigger S) :
    (ofText "url-filter".toList :: (triggerSets t).map Prod.fst).Nodup :=
  nodup_map_ofText ["url-filter".toList, "resource-type".toList, "load-type".toList,
    "if-domain".toList, "unless-domain".toList] (by decide)

theorem readable_triggerJson (t : Trigger S) : Json.Readable 2 (triggerJson t) := by
  rw [triggerJson_eq]
  refine .object ?_ fun f hf => ?_
  · rw [List.map_cons]
    exact (triggerSets_keys t).sublist ((setFields_keys _).cons_cons _)
  · rcases List.mem_cons.1 hf with rfl | hf
    · exact .text 1 t.urlFilter
    · exact readable_setFields _ hf

variable [DecidableEq S]

theorem triggerJson_field? (t : Trigger S) {s : S × List S} (hs : s ∈ triggerSets t) :
    (triggerJson t).field? s.1 = (setField s.1 s.2).lookup s.1 := by
  obtain ⟨hfirst, hkeys⟩ := List.nodup_cons.1 (triggerSets_keys t)
  have hne : s.1 ≠ ofText "url-filter".toList := fun h => hfirst (h ▸ List.mem_map_of_mem hs)
  rw [triggerJson_eq, Json.field?, List.lookup_cons, beq_eq_false_iff_ne.2 hne]
  exact lookup_setFields hkeys hs

section

variable [TransOrd S] [LawfulEqOrd S]

theorem triggerOf?_triggerJson (t : Trigger S) (hfilter : t.urlFilter ≠ ofText [])
    (hif : ofText [] ∉ t.ifDomains) (hunless : ofText [] ∉ t.unlessDomains) :
    triggerOf? (triggerJson t) = some t := by
  have hurl : (triggerJson t).field? (ofText "url-filter".toList) = some (.text t.urlFilter) := by
    rw [triggerJson, Json.field?, List.lookup_cons_self]
  have hresource := triggerJson_field? t (.head _)
  have hload := triggerJson_field? t (.tail _ (.head _))
  have hifs := triggerJson_field? t (.tail _ (.tail _ (.head _)))
  have hunlesses := triggerJson_field? t (.tail _ (.tail _ (.tail _ (.head _))))
  simp only [triggerOf?, hurl, hresource, hload, hifs, hunlesses, text?, Option.bind_some,
    Option.bind_eq_bind, if_neg hfilter, textsOf_setField _ _ (empty_notMem_names t.resourceTypes),
    textsOf_setField _ _ hif, textsOf_setField _ _ hunless, resourceTypes_read, partyOf_setField,
    SortedSet.ofList_toList]

end

/-! ## Records -/

/-- A record with a regular expression and without empty domains; one that hides elements has a
selector that is not blank, and no other has one. -/
structure WellFormed (r : Record S) : Prop where
  urlFilter : r.trigger.urlFilter ≠ ofText []
  ifDomains : ofText [] ∉ r.trigger.ifDomains
  unlessDomains : ofText [] ∉ r.trigger.unlessDomains
  hides : r.action.kind = .hide → ∃ s, r.action.selector = some s ∧ isBlank s = false
  decides : r.action.kind ≠ .hide → r.action.selector = none

omit [DecidableEq S] in
theorem readable_toJson (r : Record S) : Json.Readable 3 r.toJson := by
  refine .object (nodup_map_ofText ["trigger".toList, "action".toList] (by decide))
    fun f hf => ?_
  rcases List.mem_pair.1 hf with rfl | rfl
  · exact readable_triggerJson r.trigger
  · exact readable_actionJson r.action

/-- The compact text of records is read as the array of their values. -/
theorem parse_listToText (rs : List (Record S)) :
    Json.parse (listToText rs) S = .ok (.array (rs.map toJson)) := by
  have hreadable : Json.Readable 4 (.array (rs.map toJson)) := by
    refine .array fun v hv => ?_
    obtain ⟨r, -, rfl⟩ := List.mem_map.1 hv
    exact readable_toJson r
  exact Json.parse_write Json.Layout.standard_compact (hreadable.mono (by decide))

variable [TransOrd S] [LawfulEqOrd S]

/-- A well-formed record comes back as it was. -/
theorem ofJson?_toJson {r : Record S} (h : r.WellFormed) : ofJson? r.toJson = some r := by
  have htrigger : r.toJson.field? (ofText "trigger".toList) = some (triggerJson r.trigger) := by
    rw [toJson, Json.field?, List.lookup_cons_self]
  have haction : r.toJson.field? (ofText "action".toList) = some (actionJson r.action) := by
    rw [toJson, Json.field?, List.lookup_cons, beq_eq_false_iff_ne.2 (ofText_ne (by decide))]
    exact List.lookup_cons_self
  simp only [ofJson?, htrigger, haction, Option.bind_some, Option.bind_eq_bind,
    triggerOf?_triggerJson r.trigger h.urlFilter h.ifDomains h.unlessDomains,
    actionOf?_actionJson r.action h.hides h.decides]

/-! ## Lists of records -/

/-- Well-formed records come back from their compact text, and none is dropped. -/
theorem listOfText_listToText {rs : List (Record S)} (h : ∀ r ∈ rs, r.WellFormed) :
    listOfText (listToText rs) S = .ok (rs, 0) := by
  have hdecoded : (rs.map toJson).map ofJson? = rs.map some := by
    rw [List.map_map]
    exact List.map_congr_left fun r hr => ofJson?_toJson (h r hr)
  have hkept : (rs.map some).filterMap id = rs := by
    rw [List.filterMap_map]
    exact List.filterMap_some
  have hdropped : (rs.map some).filter Option.isNone = [] := by
    simp [List.filter_eq_nil_iff]
  simp only [listOfText, Json.read, parse_listToText, Json.items, bind, Except.bind, pure,
    Except.pure, hdecoded, hkept, hdropped, List.length_nil]

end Record

end ContentFilter
