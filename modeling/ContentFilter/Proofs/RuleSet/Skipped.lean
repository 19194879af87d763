import Mathlib.Algebra.Ring.Nat
import ContentFilter.Proofs.Rule.Tally
import ContentFilter.Proofs.RuleSet.Repeats

/-! # Lines that are passed over

The number of lines that a rule set passes over is taken for that of its lines less that of its
rules. A line of a hosts file with several names has more than one rule, and each rule behind the
first makes up for a line without any.

* `Line.surplus`, `Line.surplus_pos`: the rules of a line behind its first one.
* `FilterList.length_rules_add_skipped`: lines, rules and lines without rules of a list.
* `RuleSet.parseSkipped_eq_iff`: what the number comes to, and when it is that of the lines without
  a rule.
-/

set_option autoImplicit false

namespace ContentFilter

open Text

/-! ## Lines -/

namespace Line

variable {floor : Nat}

/-- The number of rules of a line behind its first one. -/
def surplus : Line → Nat
  | rules _ others _ => others.length
  | _ => 0

theorem length_toRules_add (l : Line) :
    l.toRules.length + (if l.toRules = [] then 1 else 0) = 1 + l.surplus := by
  cases l with
  | rules first others ignored => simp [toRules, surplus, Nat.add_comm]
  | _ => rfl

/-- The names of a hosts entry that are blocked. -/
def blockedNames (floor : Nat) (names : List Text) : List Text :=
  ((names.takeWhile fun n => !startsWith n ['#']).map Domain.normalize).filter (isBlockable floor)

theorem surplus_eq (l : Line) : l.surplus = l.toRules.length - 1 := by cases l <;> rfl

theorem surplus_ofHosts (names : List Text) :
    (ofHosts floor names).surplus = (blockedNames floor names).length - 1 := by
  rw [surplus_eq, toRules_ofHosts, List.length_map]
  rfl

theorem surplus_ofNetwork (isException : Bool) (t : Text) :
    (ofNetwork floor isException t).surplus = 0 := by
  rw [ofNetwork]
  dsimp only
  split <;> rfl

theorem surplus_ofCosmetic (line domains marker selector : Text) :
    (ofCosmetic line domains marker selector).surplus = 0 := by
  unfold ofCosmetic
  split
  · rfl
  · split <;> rfl

/-- Only an entry of a hosts file with several names that are blocked has more than one rule. -/
theorem surplus_pos {t : Text} (h : 0 < (ofText floor t).surplus) :
    ∃ names, hostsNames? (strip t) = some names ∧ 1 < (blockedNames floor names).length := by
  unfold ofText at h
  dsimp only at h
  split at h
  · exact absurd h (Nat.lt_irrefl 0)
  · split at h
    · exact absurd h (Nat.lt_irrefl 0)
    · split at h
      · exact absurd h (Nat.lt_irrefl 0)
      · unfold ofRule at h
        split at h
        · simp [surplus_ofNetwork] at h
        · split at h
          · simp [surplus_ofCosmetic] at h
          · split at h
            next names hnames =>
              rw [surplus_ofHosts] at h
              exact ⟨names, hnames, by omega⟩
            · split at h
              · exact absurd h (Nat.lt_irrefl 0)
              · simp [surplus_ofNetwork] at h

end Line

/-! ## Lists -/

namespace FilterList

/-- The number of lines without a rule. -/
def skipped (floor : Nat) (ls : List Text) : Nat :=
  ls.countP fun l => (Line.ofText floor l).toRules = []

/-- The number of rules that are not the first of their line. -/
def surplus (floor : Nat) (ls : List Text) : Nat :=
  (ls.map fun l => (Line.ofText floor l).surplus).sum

variable {floor : Nat} {ls : List Text}

theorem length_rules_add_skipped :
    (rules floor ls).length + skipped floor ls = ls.length + surplus floor ls := by
  induction ls with
  | nil => rfl
  | cons l ls ih =>
    have hline := Line.length_toRules_add (Line.ofText floor l)
    simp only [rules, skipped, surplus, List.flatMap_cons, List.length_append, List.countP_cons,
      List.map_cons, List.sum_cons, List.length_cons, decide_eq_true_eq] at ih ⊢
    omega

theorem skipped_le_length : skipped floor ls ≤ ls.length := List.countP_le_length

theorem surplus_eq_zero_iff :
    surplus floor ls = 0 ↔ ∀ l ∈ ls, (Line.ofText floor l).surplus = 0 := by
  rw [surplus, List.sum_eq_zero_iff_forall_eq_nat, List.forall_mem_map]

end FilterList

/-! ## Rule sets -/

namespace RuleSet

theorem rulesOf_eq (floor : Nat) (texts : List Text) :
    rulesOf floor texts = FilterList.rules floor (texts.flatMap lines) := by
  simp only [rulesOf, FilterList.rules, List.flatMap_assoc]

/-- The lines of the filter texts. -/
def textLines (tables : Tables) : List Text := tables.filterTexts.flatMap lines

/-- Lines that are passed over. Their number is taken for that of the lines without a rule less that
of the rules behind the first one of their line, so it is never above the number of lines, but below
zero when there are more such rules than lines without one. It is the number of lines without a rule
exactly when no line has several, and only entries of hosts files with several names have. -/
theorem parseSkipped_eq_iff (config : Config) (tables : Tables) (entries : List Entry) :
    (build config tables entries).stats.linesParsed = (textLines tables).length ∧
      (build config tables entries).stats.parseSkipped =
        (FilterList.skipped config.minPatternLength (textLines tables) : Int) -
          FilterList.surplus config.minPatternLength (textLines tables) ∧
      (build config tables entries).stats.parseSkipped ≤ (textLines tables).length ∧
      (0 ≤ (build config tables entries).stats.parseSkipped ↔
        FilterList.surplus config.minPatternLength (textLines tables) ≤
          FilterList.skipped config.minPatternLength (textLines tables)) ∧
      ((build config tables entries).stats.parseSkipped =
          FilterList.skipped config.minPatternLength (textLines tables) ↔
        ∀ l ∈ textLines tables, (Line.ofText config.minPatternLength l).surplus = 0) ∧
      FilterList.skipped config.minPatternLength (textLines tables) =
        (FilterList.tally config.minPatternLength (textLines tables)).withoutRules ∧
      ∀ l ∈ textLines tables, 0 < (Line.ofText config.minPatternLength l).surplus →
        ∃ names, Line.hostsNames? (strip l) = some names ∧
          1 < (Line.blockedNames config.minPatternLength names).length := by
  have hbalance : (FilterList.rules config.minPatternLength (textLines tables)).length +
      FilterList.skipped config.minPatternLength (textLines tables) =
        (textLines tables).length +
          FilterList.surplus config.minPatternLength (textLines tables) :=
    FilterList.length_rules_add_skipped
  have hskipped : FilterList.skipped config.minPatternLength (textLines tables) ≤
      (textLines tables).length := FilterList.skipped_le_length
  have hparsed : (build config tables entries).stats.parseSkipped = (textLines tables).length -
      ((FilterList.rules config.minPatternLength (textLines tables)).length : Int) := by
    rw [build, rulesOf_eq]
    rfl
  rw [hparsed, ← FilterList.surplus_eq_zero_iff]
  exact ⟨rfl, by omega, by omega, by omega, by omega,
    (FilterList.withoutRules_tally (textLines tables)).symm, fun l _ => Line.surplus_pos⟩

/-- A line of a hosts file with two names, and nothing else in the tables. -/
def pairTables : Tables where
  filterTexts := ["0.0.0.0 a.example b.example".toList]
  blockedDomains := []
  pathRecords := []
  hideRecords := []

/-- No line of these tables is without a rule, and fewer than none are passed over. -/
theorem fewer_than_none_skipped :
    FilterList.skipped wholeChunks.minPatternLength (textLines pairTables) = 0 ∧
      (build wholeChunks pairTables []).stats.linesParsed = 1 ∧
      (build wholeChunks pairTables []).stats.parseSkipped = -1 :=
  ⟨by decide +kernel, by decide +kernel, by decide +kernel⟩

end RuleSet

end ContentFilter
