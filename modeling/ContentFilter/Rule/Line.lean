import ContentFilter.Rule.Modifier

/-! # Lines of a filter list

Every line is blank, a comment, a header, a rule, or a rule that is rejected because nothing of use
is left of it. A line of a hosts file can hold several rules.

* `Line`: what a line is.
* `NetworkRule.ofPattern`: the pattern of a network rule with its anchors taken off.
* `Line.ofText`: what a text is as a line.
-/

set_option autoImplicit false

namespace ContentFilter

open Text

/-- What a line of a filter list is. `ignored` counts the modifiers that are not known. -/
inductive Line where
  | empty
  | comment
  | metadata
  | rejected (ignored : Nat)
  | rules (first : Rule) (others : List Rule) (ignored : Nat)
  deriving DecidableEq

namespace Line

def toRules : Line → List Rule
  | rules first others _ => first :: others
  | _ => []

def ignoredModifiers : Line → Nat
  | rejected n => n
  | rules _ _ n => n
  | _ => 0

def reason : Line → Text
  | empty => "empty".toList
  | comment => "comment".toList
  | metadata => "metadata".toList
  | rejected _ => "rejected".toList
  | rules (.network _) _ _ => "network".toList
  | rules (.cosmetic _) _ _ => "cosmetic".toList
  | rules (.unsupported _) _ _ => "unsupported".toList

end Line

/-! ## Network rules -/

namespace NetworkRule

/-- Takes the anchor off the start of a pattern. A wildcard label behind a domain anchor is taken off
with it. -/
def readAnchor : Text → Anchor × Text
  | '|' :: '|' :: '*' :: '.' :: cs => (.domain, cs)
  | '|' :: '|' :: cs => (.domain, cs)
  | '|' :: cs => (.start, cs)
  | cs => (.anywhere, cs)

/-- Takes a character off the end of a text; whether there was one. -/
def takeLast (c : Char) (t : Text) : Bool × Text :=
  if endsWith t [c] then (true, t.dropLast) else (false, t)

def ofPattern (t : Text) : NetworkRule :=
  let (anchor, rest) := readAnchor t
  let (endAnchored, rest) := takeLast '|' rest
  let (separator, rest) := takeLast '^' rest
  { pattern := rest, anchor := anchor, endAnchored := endAnchored, separator := separator }

/-- The number of characters of a pattern without the wildcards around it. -/
def significantLength (pattern : Text) : Nat := (dropAroundWhile (· = '*') pattern).length

/-- The rule that blocks a domain and all below it. -/
def forDomain (domain : Text) : NetworkRule :=
  { pattern := domain, anchor := .domain, separator := true }

end NetworkRule

namespace Line

/-- A network rule with its modifiers; it is rejected when its pattern is too short. -/
def ofNetwork (floor : Nat) (isException : Bool) (t : Text) : Line :=
  let (pattern, modifiers) := splitModifiers t
  let m := match modifiers with
    | some names => Modifiers.ofText names
    | none => {}
  let rule := NetworkRule.ofPattern pattern
  if NetworkRule.significantLength rule.pattern < floor then .rejected m.ignored
  else
    .rules (.network { rule with
      isException := isException, resourceTypes := m.resourceTypes, party := m.party,
      scope := m.scope }) [] m.ignored

/-! ## Cosmetic rules -/

/-- The characters that can stand between the two number signs of a cosmetic marker. -/
def isMarkerChar (c : Char) : Bool := c = '@' || c = '$' || c = '?' || c = '%'

/-- The cosmetic marker that starts a text: the characters inside it and what stands behind it. -/
def markerHere? : Text → Option (Text × Text)
  | '#' :: cs =>
    match cs.dropWhile isMarkerChar with
    | '#' :: rest => some (cs.takeWhile isMarkerChar, rest)
    | _ => none
  | _ => none

/-- A text cut at its first cosmetic marker: what stands before it, the characters inside it, and
what stands behind it. -/
def cosmeticMarker? : Text → Option (Text × Text × Text)
  | [] => none
  | c :: cs =>
    match markerHere? (c :: cs) with
    | some (marker, rest) => some ([], marker, rest)
    | none => (cosmeticMarker? cs).map fun r => (c :: r.1, r.2)

/-- A cosmetic rule, or a rule with a marker of another kind. -/
def ofCosmetic (line domains marker selector : Text) : Line :=
  if !marker.isEmpty then .rules (.unsupported line) [] 0
  else if (strip selector).isEmpty then .rejected 0
  else .rules (.cosmetic ⟨strip selector, DomainScope.ofText ',' domains⟩) [] 0

/-! ## Hosts files -/

def isAddressChar (c : Char) : Bool :=
  isDecimal c || c = '.' || c = ':' || ('a' ≤ c && c ≤ 'f') || ('A' ≤ c && c ≤ 'F')

/-- The addresses to which a hosts file sends what it blocks. -/
def blockingAddresses : List Text :=
  ["0.0.0.0", "127.0.0.1", "::1", "::0", "::", "0:0:0:0:0:0:0:0", "0:0:0:0:0:0:0:1"].map
    String.toList

def isBlocking (address : Text) : Bool :=
  blockingAddresses.contains address || startsWith address "0.".toList ||
    startsWith address "127.".toList

/-- The names behind a blocking address; none for a line of another form. -/
def hostsNames? (line : Text) : Option (List Text) :=
  let rest := line.dropWhile isAddressChar
  let names := stripStart rest
  if isBlocking (line.takeWhile isAddressChar) && names != rest && !names.isEmpty &&
      !names.contains '\n' then
    some (words names)
  else none

def isBlockable (floor : Nat) (domain : Text) : Bool :=
  !Domain.isLocal domain && Domain.isPlain domain && floor ≤ domain.length

/-- The rules of an entry of a hosts file; a number sign opens a comment. -/
def ofHosts (floor : Nat) (names : List Text) : Line :=
  let domains := (names.takeWhile fun n => !startsWith n ['#']).map Domain.normalize
  match (domains.filter (isBlockable floor)).map fun d => Rule.network (NetworkRule.forDomain d) with
  | [] => .rejected 0
  | rule :: others => .rules rule others 0

/-! ## Lines -/

def isRegexPattern (pattern : Text) : Bool :=
  2 < pattern.length && startsWith pattern ['/'] && endsWith pattern ['/']

/-- A line without white space around it that is neither blank, a comment nor a header. -/
def ofRule (floor : Nat) (line : Text) : Line :=
  if startsWith line "@@".toList then ofNetwork floor true (line.drop 2)
  else match cosmeticMarker? line with
    | some (domains, marker, selector) => ofCosmetic line domains marker selector
    | none => match hostsNames? line with
      | some names => ofHosts floor names
      | none =>
        if isRegexPattern (splitModifiers line).1 then .rules (.unsupported line) [] 0
        else ofNetwork floor false line

/-- What a text is as a line. Patterns of network rules need at least `floor` characters. -/
def ofText (floor : Nat) (t : Text) : Line :=
  let line := strip t
  if line.isEmpty then .empty
  else if startsWith line ['!'] || line = ['#'] || startsWith line ['#', ' '] then .comment
  else if startsWith line ['['] then .metadata
  else ofRule floor line

end Line

end ContentFilter
