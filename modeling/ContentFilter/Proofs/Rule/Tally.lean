import ContentFilter.Proofs.Rule.Pattern
import ContentFilter.Record.Basic

/-! # What a filter list comes to

A list is tallied line by line, and the rules of a line by the first of them. They are all of one
kind, so the tally holds the numbers of the rules of each kind. The reader of lines and the maker of
records ask the same of patterns and selectors: only the rules that are not supported have no record.

* `Rule.Kind`, `Rule.IsUsable`: kinds of rules, and what is asked of rules.
* `Line.IsSound`, `Line.isSound_ofText`: the rules of a line.
* `FilterList.ofKind_tally`, `FilterList.withoutRules_tally`: the tally of a list.
* `FilterList.convert_eq`: the records for a list.
* `FilterList.rules_tallied`: all of it.
-/

set_option autoImplicit false

namespace ContentFilter

open Text

/-! ## Rules -/

namespace Rule

inductive Kind where
  | network
  | cosmetic
  | unsupported
  deriving DecidableEq

def kind : Rule → Kind
  | .network _ => .network
  | .cosmetic _ => .cosmetic
  | .unsupported _ => .unsupported

/-- What is asked of rules: a pattern of some length without the wildcards around it, or a selector
that is not blank, without white space around it. -/
def IsUsable (floor : Nat) : Rule → Prop
  | .network r => floor ≤ NetworkRule.significantLength r.pattern
  | .cosmetic r => strip r.selector = r.selector ∧ r.selector ≠ []
  | .unsupported _ => True

/-- The record that says what a rule says, if there is one. -/
def record? : Rule → Option Record
  | .network r => some (.ofNetwork r)
  | .cosmetic r => some (.ofSelector r.selector r.scope)
  | .unsupported _ => none

theorem record?_eq_none_iff {rule : Rule} : rule.record? = none ↔ rule.kind = .unsupported := by
  cases rule <;> simp [record?, kind]

theorem ofRule?_eq_record? {floor : Nat} {rule : Rule} (h : rule.IsUsable floor) :
    Record.ofRule? floor rule = rule.record? := by
  cases rule with
  | network r => exact if_neg (Nat.not_lt.mpr h)
  | cosmetic r =>
    have hsome : ¬ (strip r.selector).isEmpty = true := by
      rw [h.1, List.isEmpty_iff]
      exact h.2
    rw [Record.ofRule?, if_neg hsome, h.1]
    rfl
  | unsupported line => rfl

end Rule

/-! ## Lines -/

namespace Line

variable {floor : Nat}

/-- The rules of a line are of one kind, and each is usable. -/
structure IsSound (floor : Nat) (l : Line) : Prop where
  kind : ∀ r ∈ l.toRules, ∀ s ∈ l.toRules, r.kind = s.kind
  usable : ∀ r ∈ l.toRules, r.IsUsable floor

theorem isSound_of_toRules_eq_nil {l : Line} (h : l.toRules = []) : l.IsSound floor := by
  constructor <;> simp [h]

theorem isSound_of_rule {rule : Rule} (h : rule.IsUsable floor) (ignored : Nat) :
    (Line.rules rule [] ignored).IsSound floor := by
  constructor <;> simp [toRules, h]

theorem isSound_unsupported (line : Text) (ignored : Nat) :
    (Line.rules (.unsupported line) [] ignored).IsSound floor :=
  isSound_of_rule (by trivial) ignored

theorem isSound_ofNetwork (isException : Bool) (t : Text) :
    (ofNetwork floor isException t).IsSound floor := by
  rw [ofNetwork]
  dsimp only
  split
  · exact isSound_of_toRules_eq_nil rfl
  next hlong =>
    refine isSound_of_rule ?_ _
    exact Nat.le_of_not_lt hlong

theorem isSound_ofCosmetic (line domains marker selector : Text) :
    (ofCosmetic line domains marker selector).IsSound floor := by
  unfold ofCosmetic
  split
  · exact isSound_unsupported _ _
  · split
    · exact isSound_of_toRules_eq_nil rfl
    next hsome =>
      refine isSound_of_rule ?_ _
      exact ⟨strip_strip selector, by simpa using hsome⟩

theorem isSound_ofHosts (names : List Text) : (ofHosts floor names).IsSound floor := by
  have hnetwork : ∀ r ∈ (ofHosts floor names).toRules, ∃ n, r = .network n := by
    intro r hr
    rw [toRules_ofHosts] at hr
    obtain ⟨d, -, rfl⟩ := List.mem_map.mp hr
    exact ⟨_, rfl⟩
  constructor
  case kind =>
    intro r hr s hs
    obtain ⟨m, rfl⟩ := hnetwork r hr
    obtain ⟨n, rfl⟩ := hnetwork s hs
    rfl
  case usable =>
    intro r hr
    obtain ⟨n, rfl⟩ := hnetwork r hr
    exact floor_le_of_mem_ofHosts hr

theorem isSound_ofText (t : Text) : (ofText floor t).IsSound floor :=
  ofText_cases (fun _ => isSound_of_toRules_eq_nil) isSound_ofNetwork isSound_ofCosmetic
    isSound_ofHosts (fun line => isSound_unsupported line 0) t

end Line

/-! ## Lists -/

namespace FilterList

variable {floor : Nat}

theorem isUsable_of_mem_rules {lines : List Text} {rule : Rule} (h : rule ∈ rules floor lines) :
    rule.IsUsable floor := by
  obtain ⟨line, -, hline⟩ := List.mem_flatMap.mp h
  exact (Line.isSound_ofText line).usable rule hline

namespace Tally

/-- The number of rules of a kind. -/
def ofKind (t : Tally) : Rule.Kind → Nat
  | .network => t.network
  | .cosmetic => t.cosmetic
  | .unsupported => t.unsupported

/-- The number of lines without a rule. -/
def withoutRules (t : Tally) : Nat := t.comments + t.empty + t.metadata + t.rejected

theorem ofKind_countRules (t : Tally) (first : Rule) (number : Nat) (k : Rule.Kind) :
    (t.countRules first number).ofKind k = t.ofKind k + if first.kind = k then number else 0 := by
  cases first <;> cases k <;> rfl

theorem withoutRules_countRules (t : Tally) (first : Rule) (number : Nat) :
    (t.countRules first number).withoutRules = t.withoutRules := by
  cases first <;> rfl

/-- One more line adds its rules to the numbers. -/
theorem ofKind_count (t : Tally) {line : Line} (h : line.IsSound floor) (k : Rule.Kind) :
    (t.count line).ofKind k = t.ofKind k + line.toRules.countP fun r => r.kind = k := by
  cases line with
  | rules first others ignored =>
    have hsame : ∀ r ∈ first :: others, r.kind = first.kind := fun r hr =>
      h.kind r hr first List.mem_cons_self
    rw [count, ofKind_countRules, Line.toRules]
    by_cases hk : first.kind = k
    · have hall : (first :: others).countP (fun r => r.kind = k) = (first :: others).length :=
        List.countP_eq_length.mpr fun r hr => by simp [hsame r hr, hk]
      rw [if_pos hk, hall]
      cases k <;> rfl
    · have hnone : (first :: others).countP (fun r => r.kind = k) = 0 :=
        List.countP_eq_zero.mpr fun r hr => by simp [hsame r hr, hk]
      rw [if_neg hk, hnone]
      cases k <;> rfl
  | _ => cases k <;> rfl

theorem withoutRules_count (t : Tally) (line : Line) :
    (t.count line).withoutRules = t.withoutRules + if line.toRules = [] then 1 else 0 := by
  cases line with
  | rules first others ignored =>
    rw [count, withoutRules_countRules, Line.toRules]
    rfl
  | _ =>
    simp only [count, withoutRules, Line.toRules, if_true]
    omega

end Tally

theorem ofKind_tally (lines : List Text) (k : Rule.Kind) :
    (tally floor lines).ofKind k = (rules floor lines).countP fun r => r.kind = k := by
  have hfrom : ∀ t : Tally, (lines.foldl (fun t l => t.count (Line.ofText floor l)) t).ofKind k =
      t.ofKind k + (rules floor lines).countP fun r => r.kind = k := by
    induction lines with
    | nil => exact fun _ => rfl
    | cons line lines ih =>
      intro t
      rw [List.foldl_cons, ih, Tally.ofKind_count t (Line.isSound_ofText line), rules, rules,
        List.flatMap_cons, List.countP_append, Nat.add_assoc]
  rw [tally, hfrom]
  cases k <;> exact Nat.zero_add _

theorem withoutRules_tally (lines : List Text) : (tally floor lines).withoutRules =
    lines.countP fun l => (Line.ofText floor l).toRules = [] := by
  have hfrom : ∀ t : Tally,
      (lines.foldl (fun t l => t.count (Line.ofText floor l)) t).withoutRules =
        t.withoutRules + lines.countP fun l => (Line.ofText floor l).toRules = [] := by
    induction lines with
    | nil => exact fun _ => rfl
    | cons line lines ih =>
      intro t
      rw [List.foldl_cons, ih, Tally.withoutRules_count, List.countP_cons]
      simp only [decide_eq_true_eq]
      omega
  rw [tally, hfrom]
  exact Nat.zero_add _

/-- All rules but those that are not supported have a record. -/
theorem convert_eq (t : Text) : convert floor t =
    ((rules floor (lines t)).filterMap Rule.record?, (tally floor (lines t)).unsupported) := by
  have hmap : (rules floor (lines t)).map (Record.ofRule? floor) =
      (rules floor (lines t)).map Rule.record? :=
    List.map_congr_left fun rule hrule => Rule.ofRule?_eq_record? (isUsable_of_mem_rules hrule)
  have hskipped : (tally floor (lines t)).unsupported =
      (rules floor (lines t)).countP fun r => r.kind = .unsupported :=
    ofKind_tally (lines t) .unsupported
  rw [convert, hmap, hskipped, ← List.countP_eq_length_filter, List.countP_map, List.filterMap_map]
  refine Prod.ext rfl (List.countP_congr fun rule _ => ?_)
  rw [Function.comp_apply, Option.isNone_iff_eq_none, Rule.record?_eq_none_iff, decide_eq_true_eq]

/-- There is a record for each network rule and each cosmetic rule. -/
theorem length_records (rs : List Rule) : (rs.filterMap Rule.record?).length =
    (rs.countP fun r => r.kind = .network) + rs.countP fun r => r.kind = .cosmetic := by
  induction rs with
  | nil => rfl
  | cons r rs ih =>
    rw [List.filterMap_cons, List.countP_cons, List.countP_cons]
    cases r <;> simp only [Rule.record?, Rule.kind, List.length_cons, ih, decide_true, if_true,
      reduceCtorEq, decide_false, Bool.false_eq_true, if_false] <;> omega

/-- The rules of a list are those of its lines, in order, and all are usable. The tally has the
numbers of the rules of each kind and of the lines without a rule. Of the rules of a text exactly
those that are not supported are passed over, and every other one has its record, in order. -/
theorem rules_tallied (floor : Nat) (ls : List Text) :
    rules floor ls = (ls.map (Line.ofText floor)).flatMap Line.toRules ∧
      (∀ k, (tally floor ls).ofKind k = (rules floor ls).countP fun r => r.kind = k) ∧
      (tally floor ls).withoutRules =
        (ls.countP fun l => (Line.ofText floor l).toRules = []) ∧
      (∀ rule ∈ rules floor ls, rule.IsUsable floor ∧
        (Record.ofRule? floor rule = none ↔ rule.kind = .unsupported)) ∧
      ∀ t, convert floor t =
          ((rules floor (lines t)).filterMap Rule.record?, (tally floor (lines t)).unsupported) ∧
        (convert floor t).1.length =
          (tally floor (lines t)).network + (tally floor (lines t)).cosmetic := by
  refine ⟨?_, ofKind_tally ls, withoutRules_tally ls, fun rule hrule => ?_, fun t => ?_⟩
  · rw [rules, List.flatMap_map]
  · have husable := isUsable_of_mem_rules hrule
    rw [Rule.ofRule?_eq_record? husable]
    exact ⟨husable, Rule.record?_eq_none_iff⟩
  · rw [convert_eq, length_records]
    exact ⟨rfl, congrArg₂ (· + ·) (ofKind_tally (lines t) .network).symm
      (ofKind_tally (lines t) .cosmetic).symm⟩

/-- A text with lines of every kind. -/
def mixedText : Text :=
  ("! ads\n\n0.0.0.0 b.example ab c.example # local\n||ads.example^$script\n" ++
    "news.example## .ad\nnews.example#@#.ad\n||ab^\n[Adblock]").toList

def adRule : CosmeticRule where
  selector := ".ad".toList
  scope := ⟨SortedSet.ofList ["news.example".toList], ∅⟩

theorem rules_tallied_mixedText :
    .cosmetic adRule ∈ rules 3 (lines mixedText) ∧ (Rule.cosmetic adRule).IsUsable 3 ∧
      Record.ofRule? 3 (.cosmetic adRule) ≠ none ∧
      ((rules 3 (lines mixedText)).countP fun r => r.kind = .network) = 3 ∧
      ((lines mixedText).countP fun l => (Line.ofText 3 l).toRules = []) = 4 ∧
      (convert 3 mixedText).1.length = 4 ∧ (convert 3 mixedText).2 = 1 := by
  have htally : tally 3 (lines mixedText) =
      { lines := 8, network := 3, cosmetic := 1, unsupported := 1, comments := 1, empty := 1,
        metadata := 1, rejected := 1 } := by
    decide +kernel
  have hmem : .cosmetic adRule ∈ rules 3 (lines mixedText) := by decide +kernel
  obtain ⟨-, hkinds, hwithout, hrules, hconvert⟩ := rules_tallied 3 (lines mixedText)
  obtain ⟨husable, hnone⟩ := hrules _ hmem
  obtain ⟨hrecords, hlength⟩ := hconvert mixedText
  rw [htally] at hkinds hwithout hrecords hlength
  exact ⟨hmem, husable, mt hnone.mp (by decide), (hkinds .network).symm, hwithout.symm, hlength,
    congrArg Prod.snd hrecords⟩

end FilterList

end ContentFilter
