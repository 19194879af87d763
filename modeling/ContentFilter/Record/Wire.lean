import ContentFilter.Record.Basic
import ContentFilter.Json.Printer

/-! # Records as JSON

A record is written as an object with a trigger and an action. Empty sets, the party of everyone and
a missing selector are left out; sets are written in ascending order.

* `Record.toJson`, `Record.ofJson?`: one record, and back.
* `Record.listToText`: a list of records as compact JSON.
-/

set_option autoImplicit false

namespace ContentFilter

open Std UnicodeString

namespace Record

variable {S : Type} [Ord S] [UnicodeString S]

/-! ## Writing -/

/-- A field that is left out when its set is empty. -/
def setField (key : S) (members : List S) : List (S × Json S) :=
  if members.isEmpty then [] else [(key, .array (members.map .text))]

def partyNames (p : Party) : List S := if p = .any then [] else [ofText p.name]

def triggerJson (t : Trigger S) : Json S :=
  .object ((ofText "url-filter".toList, .text t.urlFilter) ::
    (setField (ofText "resource-type".toList)
        (t.resourceTypes.toList.map fun u => ofText u.name) ++
      setField (ofText "load-type".toList) (partyNames t.party) ++
      setField (ofText "if-domain".toList) t.ifDomains.toList ++
      setField (ofText "unless-domain".toList) t.unlessDomains.toList))

def actionJson (a : Action S) : Json S :=
  .object ((ofText "type".toList, .text (ofText a.kind.name)) ::
    match a.selector with
    | none => []
    | some s => [(ofText "selector".toList, .text s)])

def toJson (r : Record S) : Json S :=
  .object [(ofText "trigger".toList, triggerJson r.trigger),
    (ofText "action".toList, actionJson r.action)]

/-- A list of records as compact JSON. -/
def listToText (rs : List (Record S)) : Text := Json.compact (.array (rs.map toJson))

/-! ## Reading -/

def text? : Json S → Option S
  | .text t => some t
  | _ => none

variable [DecidableEq S]

/-- The strings of an array that are not empty; other values have none. -/
def textsOf : Option (Json S) → List S
  | some (.array items) => (items.filterMap text?).filter fun t => t ≠ ofText []
  | _ => []

/-- The party that an array of one name names; anything else names everyone. -/
def partyOf : Option (Json S) → Party
  | some (.array [.text name]) =>
    if name = ofText Party.first.name then .first
    else if name = ofText Party.third.name then .third
    else .any
  | _ => .any

/-- The action that an object describes. One that hides elements needs a selector that is not blank,
and no other has one. -/
def actionOf? (action : Json S) : Option (Action S) := do
  let kind ← (action.field? (ofText "type".toList)).bind text? |>.bind ActionKind.ofName?
  if kind = .hide then
    let selector ← (action.field? (ofText "selector".toList)).bind text?
    if isBlank selector then none else some ⟨kind, some selector⟩
  else some ⟨kind, none⟩

variable [TransOrd S]

/-- The trigger that an object describes; it needs a regular expression. Resource types that are not
known are left out. -/
def triggerOf? (trigger : Json S) : Option (Trigger S) := do
  let urlFilter ← (trigger.field? (ofText "url-filter".toList)).bind text?
  if urlFilter = ofText [] then none
  else
    some {
      urlFilter := urlFilter
      resourceTypes := SortedSet.ofList
        ((textsOf (trigger.field? (ofText "resource-type".toList))).filterMap ResourceType.ofName?)
      party := partyOf (trigger.field? (ofText "load-type".toList))
      ifDomains := SortedSet.ofList (textsOf (trigger.field? (ofText "if-domain".toList)))
      unlessDomains := SortedSet.ofList (textsOf (trigger.field? (ofText "unless-domain".toList))) }

def ofJson? (entry : Json S) : Option (Record S) := do
  let trigger ← entry.field? (ofText "trigger".toList)
  let action ← entry.field? (ofText "action".toList)
  let trigger ← triggerOf? trigger
  let action ← actionOf? action
  some ⟨trigger, action⟩

end Record

end ContentFilter
