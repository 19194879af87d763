import ContentFilter.Rule.List
import ContentFilter.Text.Alphanumeric

/-! # Declarative records

A record pairs a trigger, which says for what it holds, with an action. Records are what a backend
compiles. Network rules become blocking records or records that cancel earlier blocks; cosmetic rules
become records that hide elements.

* `Record`: the type, with its `Trigger` and its `Action`. Their strings are texts unless another type
  of strings is given.
* `Pattern.toRegex`: the regular expression for a pattern.
* `NetworkRule.urlFilter`: the regular expression for a network rule.
* `Record.ofRule?`: the record for a rule.
-/

set_option autoImplicit false

namespace ContentFilter

open Text

/-! ## Records -/

/-- What a record holds for: URLs that a regular expression finds something in, requests of some
types and of a party, and pages of some domains. -/
structure Trigger (S : Type := Text) [Ord S] where
  urlFilter : S
  resourceTypes : SortedSet ResourceType := ∅
  party : Party := .any
  ifDomains : SortedSet S := ∅
  unlessDomains : SortedSet S := ∅
  deriving DecidableEq

/-- What happens where a record holds: the request is blocked, earlier blocks are cancelled, or
elements are hidden. -/
inductive ActionKind where
  | block
  | ignore
  | hide
  deriving DecidableEq, Repr

namespace ActionKind

def name : ActionKind → Text
  | block => "block".toList
  | ignore => "ignore-previous-rules".toList
  | hide => "css-display-none".toList

theorem name_injective {k l : ActionKind} (h : k.name = l.name) : k = l := by
  cases k <;> cases l <;> first | rfl | exact absurd h (by decide)

variable {S : Type} [UnicodeString S] [DecidableEq S] {n : S}

/-- The kind that a string names. -/
def ofName? (n : S) : Option ActionKind :=
  [block, ignore, hide].find? fun k => UnicodeString.ofText k.name = n

theorem ofName?_eq_some_iff {k : ActionKind} : ofName? n = some k ↔ n = UnicodeString.ofText k.name :=
  UnicodeString.find?_ofText_eq_some_iff (fun k => by cases k <;> decide) name_injective

end ActionKind

/-- An action; one that hides elements has the selector that picks them. -/
structure Action (S : Type := Text) where
  kind : ActionKind
  selector : Option S := none
  deriving DecidableEq

structure Record (S : Type := Text) [Ord S] where
  trigger : Trigger S
  action : Action S
  deriving DecidableEq

/-- A record is trusted only when it looks for something. -/
def Record.isUsable (r : Record) : Bool := !r.trigger.urlFilter.isEmpty

/-! ## Patterns -/

namespace Pattern

/-- What the separator `^` of a pattern stands for. -/
def separators : Text := "[/:?]".toList

/-- The characters with a meaning in regular expressions that have none in patterns. -/
def specials : Text := ['.', '?', '+', '[', ']', '(', ')', '{', '}', '|', '$']

/-- What a character of a pattern means: a star is any text, `^` a separator, and any other
character itself. -/
def expand (c : Char) : Text :=
  if c = '*' then ['.', '*']
  else if c = '^' then separators
  else if specials.contains c then ['\\', c]
  else [c]

/-- The regular expression for a pattern. A backslash makes the character behind it a literal. -/
def toRegex : Text → Text
  | [] => []
  | '\\' :: c :: cs => (if isAlphanumeric c then [c] else ['\\', c]) ++ toRegex cs
  | c :: cs => expand c ++ toRegex cs

/-- What stands before a pattern that is anchored at a domain: a scheme and any number of labels. -/
def domainStart : Text := "^https?://([^/]+\\.)?".toList

/-- What stands before the regular expression of an anchored pattern. -/
def opening : Anchor → Text
  | .anywhere => []
  | .start => ['^']
  | .domain => domainStart

end Pattern

/-- The regular expression for a network rule. -/
def NetworkRule.urlFilter (r : NetworkRule) : Text :=
  Pattern.opening r.anchor ++ Pattern.toRegex r.pattern ++
    (if r.separator then Pattern.separators else []) ++ (if r.endAnchored then ['$'] else [])

/-! ## From rules to records -/

namespace Record

/-- The regular expression that finds something in every URL. -/
def everyUrl : Text := ".*".toList

/-- Marks domains as standing for their subdomains too. -/
def withSubdomains (domains : SortedSet Text) : SortedSet Text := domains.map ('*' :: ·)

def ofNetwork (r : NetworkRule) : Record where
  trigger := {
    urlFilter := r.urlFilter
    resourceTypes := r.resourceTypes
    party := r.party
    ifDomains := withSubdomains r.scope.included
    unlessDomains := withSubdomains r.scope.excluded }
  action := { kind := if r.isException then .ignore else .block }

def ofSelector (selector : Text) (scope : DomainScope) : Record where
  trigger := {
    urlFilter := everyUrl
    ifDomains := withSubdomains scope.included
    unlessDomains := withSubdomains scope.excluded }
  action := { kind := .hide, selector := some selector }

/-- The record for a rule; none when its pattern is too short, its selector blank, or its kind not
supported. -/
def ofRule? (floor : Nat) : Rule → Option Record
  | .network r =>
    if NetworkRule.significantLength r.pattern < floor then none else some (ofNetwork r)
  | .cosmetic r =>
    if (strip r.selector).isEmpty then none else some (ofSelector (strip r.selector) r.scope)
  | .unsupported _ => none

/-- The least length of a pattern where nothing else is asked for. -/
def defaultFloor : Nat := 3

/-- The record that blocks what others request from a domain. -/
def blockingDomain? (domain : Text) : Option Record :=
  ofRule? defaultFloor (.network { NetworkRule.forDomain domain with party := .third })

end Record

/-! ## Filter texts -/

/-- The records for the rules of a filter text, and the number of rules without one. -/
def FilterList.convert (floor : Nat) (t : Text) : List Record × Nat :=
  let converted := (FilterList.rules floor (lines t)).map (Record.ofRule? floor)
  (converted.filterMap id, (converted.filter Option.isNone).length)

end ContentFilter
