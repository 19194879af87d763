import ContentFilter.Rule.Basic
import ContentFilter.Domain.Basic

/-! # Modifiers

A network rule can end in modifiers: a dollar sign and names between commas that confine the rule to
kinds of requests, to a party, or to pages. A name that is not known is passed over and counted.

* `Modifier`: what one name says; `Modifier.ofName?` reads it.
* `Modifiers.ofText`: the joint effect of a list of names.
* `splitModifiers`: a rule cut at the dollar sign before its modifiers.
* `DomainScope.ofText`: a list of domains, those behind a tilde being excluded.
-/

set_option autoImplicit false

namespace ContentFilter

open Text

/-! ## Lists of domains -/

/-- Adds one entry of a list of domains; an entry without a name adds nothing. -/
def DomainScope.add (s : DomainScope) (entry : Text) : DomainScope :=
  match strip entry with
  | '~' :: rest =>
    let d := Domain.normalize rest
    if d.isEmpty then s else { s with excluded := s.excluded.insert d }
  | name =>
    let d := Domain.normalize name
    if d.isEmpty then s else { s with included := s.included.insert d }

def DomainScope.ofText (sep : Char) (t : Text) : DomainScope :=
  (split sep t).foldl DomainScope.add {}

/-! ## Single modifiers -/

inductive Modifier where
  | party (p : Party)
  | resource (t : ResourceType)
  | domains (scope : DomainScope)

namespace Modifier

/-- The names for parties; a tilde asks for the opposite. -/
def partyNames : List (Text × Party) :=
  [("third-party".toList, .third), ("3p".toList, .third), ("~first-party".toList, .third),
   ("~1p".toList, .third), ("first-party".toList, .first), ("1p".toList, .first),
   ("~third-party".toList, .first), ("~3p".toList, .first)]

def resourceNames : List (Text × ResourceType) :=
  [("script".toList, .script), ("image".toList, .image), ("stylesheet".toList, .styleSheet),
   ("css".toList, .styleSheet), ("xmlhttprequest".toList, .raw), ("xhr".toList, .raw),
   ("websocket".toList, .raw), ("ping".toList, .raw), ("other".toList, .raw),
   ("media".toList, .media), ("font".toList, .font), ("document".toList, .document),
   ("subdocument".toList, .document), ("popup".toList, .popup)]

def domainsMark : Text := "domain=".toList

/-- The modifier with a name in lower case. -/
def ofName? (name : Text) : Option Modifier :=
  if startsWith name domainsMark then
    some (.domains (DomainScope.ofText '|' (name.drop domainsMark.length)))
  else match partyNames.lookup name with
    | some p => some (.party p)
    | none => (resourceNames.lookup name).map .resource

end Modifier

/-! ## Lists of modifiers -/

/-- The joint effect of modifiers: the last party and the last list of domains count, resource types
add up. -/
structure Modifiers where
  resourceTypes : SortedSet ResourceType := ∅
  party : Party := .any
  scope : DomainScope := {}
  ignored : Nat := 0

namespace Modifiers

def apply (m : Modifiers) : Modifier → Modifiers
  | .party p => { m with party := p }
  | .resource t => { m with resourceTypes := m.resourceTypes.insert t }
  | .domains scope => { m with scope := scope }

/-- Adds one entry of a list of modifiers; white space around it and its case do not matter. -/
def add (m : Modifiers) (entry : Text) : Modifiers :=
  let name := lower (strip entry)
  if name.isEmpty then m
  else match Modifier.ofName? name with
    | some modifier => m.apply modifier
    | none => { m with ignored := m.ignored + 1 }

def ofText (t : Text) : Modifiers := (split ',' t).foldl add {}

end Modifiers

/-! ## The dollar sign -/

/-- Looks for the dollar sign that opens the modifiers from the end of a text, of which `behind` has
been passed; the text comes in reverse order. A dollar sign behind a backslash opens nothing, and
the backslash is passed with it. -/
def findDollar (behind : Text) : Text → Option (Text × Text)
  | [] => none
  | '$' :: '\\' :: cs => findDollar ('\\' :: '$' :: behind) cs
  | '$' :: cs => some (cs.reverse, behind)
  | c :: cs => findDollar (c :: behind) cs

/-- A rule without its modifiers, and the modifiers if there are any. -/
def splitModifiers (t : Text) : Text × Option Text :=
  match findDollar [] t.reverse with
  | some (pattern, modifiers) => (pattern, some modifiers)
  | none => (t, none)

end ContentFilter
