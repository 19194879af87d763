import ContentFilter.Rule.Line
import ContentFilter.Text.Lines

/-! # Filter lists

* `FilterList.rules`: the rules of a list of lines, in order.
* `FilterList.Tally`: how many lines and rules of each kind there are, with `FilterList.tally`.
* `FilterList.announces`: whether a text opens the way filter lists do.
-/

set_option autoImplicit false

namespace ContentFilter.FilterList

open Text

def rules (floor : Nat) (lines : List Text) : List Rule :=
  lines.flatMap fun l => (Line.ofText floor l).toRules

/-! ## Tallies -/

/-- The numbers of lines, of rules of each kind, of lines of each kind without a rule, and of
modifiers that are not known. -/
structure Tally where
  lines : Nat := 0
  network : Nat := 0
  cosmetic : Nat := 0
  unsupported : Nat := 0
  comments : Nat := 0
  empty : Nat := 0
  metadata : Nat := 0
  rejected : Nat := 0
  ignoredModifiers : Nat := 0
  deriving DecidableEq

/-- Counts the rules of a line by the kind of the first. -/
def Tally.countRules (t : Tally) (first : Rule) (number : Nat) : Tally :=
  match first with
  | .network _ => { t with network := t.network + number }
  | .cosmetic _ => { t with cosmetic := t.cosmetic + number }
  | .unsupported _ => { t with unsupported := t.unsupported + number }

def Tally.count (t : Tally) (line : Line) : Tally :=
  let t := { t with
    lines := t.lines + 1, ignoredModifiers := t.ignoredModifiers + line.ignoredModifiers }
  match line with
  | .empty => { t with empty := t.empty + 1 }
  | .comment => { t with comments := t.comments + 1 }
  | .metadata => { t with metadata := t.metadata + 1 }
  | .rejected _ => { t with rejected := t.rejected + 1 }
  | .rules first others _ => t.countRules first (others.length + 1)

def tally (floor : Nat) (lines : List Text) : Tally :=
  lines.foldl (fun t l => t.count (Line.ofText floor l)) {}

/-! ## Recognition -/

/-- How the header of a filter list starts, in lower case. -/
def headerStart : Text := "[adblock".toList

/-- Whether the first line that is not blank is a header or a comment, as in every filter list. -/
def announces (t : Text) : Bool :=
  match ((lines t).map strip).find? fun l => !l.isEmpty with
  | none => false
  | some line => startsWith line ['!'] || startsWith (lower line) headerStart

end ContentFilter.FilterList
