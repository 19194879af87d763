import ContentFilter.Record.Payload
import ContentFilter.Regex.Parser

/-! # Rule lists

A rule list is a chunk of records whose regular expressions have been read. It decides about
requests and tells which elements of a page to hide. Of the network rules that hold for a request the
last one decides. How expressions are read, and what they find something in, is left to the reader
that is given.

* `FilterReader`: a reader of regular expressions; `Regex.reader` is that of this library.
* `RuleList.compile`: the rule list for a chunk in JSON, or why there is none.
* `Trigger.admits`: whether a trigger holds for a request, its regular expression aside.
* `RuleList.blocks`: whether a list blocks a request.
* `RuleList.hideSelectors`: the selectors of the elements to be hidden on a page.
-/

set_option autoImplicit false

namespace ContentFilter

open Text

/-! ## Requests -/

/-- A request, as far as it is known. -/
structure Request where
  url : Text
  resourceType : Option ResourceType := none
  thirdParty : Option Bool := none
  topDomain : Option Text := none

/-- Whether an entry of a list of domains covers a domain. A star before a name makes it cover its
subdomains too. -/
def markerCovers (domain marker : Text) : Bool :=
  match lower marker with
  | '*' :: rest =>
    let base := rest.dropWhile (· = '.')
    domain = base || endsWith domain ('.' :: base)
  | name => domain = name

def domainMatches (domain : Text) (markers : List Text) : Bool :=
  markers.any (markerCovers (lower domain))

namespace Trigger

/-- Whether a trigger is about requests of a type; a type that is not known excludes nothing. -/
def admitsType (t : Trigger) : Option ResourceType → Bool
  | none => true
  | some r => t.resourceTypes.isEmpty || t.resourceTypes.toList.contains r

/-- Whether a trigger is about requests of a party; a party that is not known excludes nothing. -/
def admitsParty (t : Trigger) : Option Bool → Bool
  | none => true
  | some third => match t.party with
    | .any => true
    | .first => !third
    | .third => third

/-- Whether a trigger holds on pages of a domain. A page that is not known is on no list. -/
def admitsDomain (t : Trigger) (topDomain : Option Text) : Bool :=
  (t.ifDomains.isEmpty || topDomain.any fun d => domainMatches d t.ifDomains.toList) &&
    !topDomain.any fun d => domainMatches d t.unlessDomains.toList

/-- Whether a trigger holds for a request, its regular expression aside. -/
def admits (t : Trigger) (r : Request) : Bool :=
  t.admitsType r.resourceType && t.admitsParty r.thirdParty && t.admitsDomain r.topDomain

end Trigger

/-! ## Reading expressions -/

/-- Why a regular expression is not read: what is wrong with it, or the limit beyond which it
goes. -/
inductive FilterFault where
  | malformed (reason : Text)
  | beyond (limit : Limit)

/-- A way to read regular expressions: the URLs in which an expression finds something, or why it is
not read. -/
abbrev FilterReader := Text → Except FilterFault (Text → Bool)

/-- Reads the expressions of this library, and refuses any other. It does not tell what is wrong with
an expression. -/
def Regex.reader : FilterReader := fun t =>
  match Regex.parse t with
  | .ok regex => .ok regex.search
  | .error .malformed => .error (.malformed "malformed expression".toList)
  | .error (.beyond l) => .error (.beyond l)

/-! ## Rules -/

/-- A record whose regular expression has been read: the URLs in which it finds something. -/
structure CompiledRule where
  finds : Text → Bool
  trigger : Trigger
  action : Action

namespace CompiledRule

def applies (c : CompiledRule) (r : Request) : Bool := c.trigger.admits r && c.finds r.url

/-- What a rule makes of the decision of the rules before it. -/
def decide (r : Request) (blocked : Bool) (c : CompiledRule) : Bool :=
  match c.action.kind with
  | .hide => blocked
  | .block => if c.applies r then true else blocked
  | .ignore => if c.applies r then false else blocked

/-- The selector that a rule hides on a page. -/
def hidden? (r : Request) (c : CompiledRule) : Option Text :=
  match c.action.kind, c.action.selector with
  | .hide, some s => if !s.isEmpty && c.applies r then some s else none
  | _, _ => none

end CompiledRule

/-! ## Lists -/

structure RuleList where
  name : Text
  rules : List CompiledRule

namespace RuleList

def size (l : RuleList) : Nat := l.rules.length

def blocks (l : RuleList) (r : Request) : Bool := l.rules.foldl (CompiledRule.decide r) false

def hideSelectors (l : RuleList) (pageUrl : Text) (topDomain : Option Text) : List Text :=
  l.rules.filterMap (CompiledRule.hidden? { url := pageUrl, topDomain := topDomain })

def anyBlocks (lists : List RuleList) (r : Request) : Bool := lists.any fun l => l.blocks r

/-! ## Compiling -/

inductive Fault where
  | payload (fault : PayloadFault)
  | malformed (number : Nat)
  | tooMany (number : Nat) (limit : Int)
  | badFilter (index : Nat) (reason : Text)
  /-- A regular expression goes beyond a limit. -/
  | beyond (limit : Limit)

namespace Fault

def message : Fault → Text
  | payload f => f.message
  | malformed n => ofNat n ++ " malformed rules".toList
  | tooMany n limit => ofNat n ++ " rules exceeds limit of ".toList ++ ofInt limit
  | badFilter i reason => "rule ".toList ++ ofNat i ++ ": bad url-filter: ".toList ++ reason
  | beyond l => l.message

/-- The limit beyond which a chunk goes; none for one that is refused. -/
def limit? : Fault → Option Limit
  | payload f => f.limit?
  | beyond l => some l
  | _ => none

end Fault

/-- The most rules that a list may have unless another limit is given. -/
def defaultLimit : Int := 50000

def compileRule (read : FilterReader) (index : Nat) (r : Record) : Except Fault CompiledRule :=
  match read r.trigger.urlFilter with
  | .ok finds => .ok ⟨finds, r.trigger, r.action⟩
  | .error (.malformed reason) => .error (.badFilter index reason)
  | .error (.beyond l) => .error (.beyond l)

def compileRules (read : FilterReader) (index : Nat) :
    List Record → Except Fault (List CompiledRule)
  | [] => .ok []
  | r :: rs => do
    let rule ← compileRule read index r
    let rules ← compileRules read (index + 1) rs
    .ok (rule :: rules)

/-- The rule list for a chunk in JSON. Every entry has to be a record, and there is a limit to their
number. -/
def compile (limit : Int) (name text : Text) (read : FilterReader := Regex.reader) :
    Except Fault RuleList :=
  match Record.listOfText text with
  | .error f => .error (.payload f)
  | .ok (records, dropped) =>
    if 0 < dropped then .error (.malformed dropped)
    else if limit < records.length then .error (.tooMany records.length limit)
    else (compileRules read 0 records).map (⟨name, ·⟩)

end RuleList

end ContentFilter
