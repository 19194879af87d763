import ContentFilter.Domain.Punycode
import ContentFilter.Domain.Suffix

/-! # Tables of public suffixes

A table names the suffixes by rules: a rule is a list of labels, in which `*` stands for any label
where no other rule goes on, and a label behind an exclamation mark is an exception to that. Labels
of a host that are written in Punycode are compared as what they stand for; this reads some labels
that no registry accepts.

* `SuffixTable`: the rules of a table.
* `SuffixTable.split`, `SuffixTable.toRules`: how a table cuts host names.
* `SuffixRules.bundled`: a short table for runs and examples.
-/

set_option autoImplicit false

namespace ContentFilter

open Text Domain

/-- Rules for public suffixes, each as its labels from right to left. -/
structure SuffixTable where
  rules : List (List Text)

namespace SuffixTable

/-- The rules that are written with dots between their labels. -/
def ofNames (names : List Text) : SuffixTable := ⟨names.map fun n => (labels n).reverse⟩

/-! ## Walking through the rules -/

/-- What is left of the rules that go on with a label. -/
def descend (label : Text) (rules : List (List Text)) : List (List Text) :=
  rules.filterMap fun r => match r with
    | [] => none
    | l :: ls => if l = label then some ls else none

def goesOn (label : Text) (rules : List (List Text)) : Bool := !(descend label rules).isEmpty

/-- The form in which a label is compared with those of the rules: lower case, and decoded if it is
an encoded one. -/
def comparable (label : Text) : Text :=
  let lowered := lower label
  if startsWith lowered "xn--".toList then (Punycode.decode? (lowered.drop 4)).getD lowered
  else lowered

/-- The number of labels of the suffix, where `depth` labels have been walked, the longest rule
among them has `best`, and `rules` is what is left of the rules that agree so far. -/
def suffixSizeFrom (rules : List (List Text)) (depth best : Nat) : List Text → Nat
  | [] => best
  | label :: more =>
    let key := comparable label
    if goesOn key rules then
      let next := descend key rules
      suffixSizeFrom next (depth + 1) (if next.contains [] then depth + 1 else best) more
    else if goesOn ['*'] rules then
      if goesOn ('!' :: key) rules then depth else depth + 1
    else best

/-- The number of labels of the suffix of a name; zero for no suffix. -/
def suffixSize (s : SuffixTable) (labels : List Text) : Nat :=
  suffixSizeFrom s.rules 0 0 labels.reverse

/-! ## Hosts -/

def isDot (c : Char) : Bool :=
  c = '.' || c.toNat = 0x3002 || c.toNat = 0xFF0E || c.toNat = 0xFF61

def isSchemeChar (c : Char) : Bool := c.isAlphanum || c = '+' || c = '-' || c = '.'

def dropScheme (t : Text) : Text :=
  if startsWith t "//".toList then t.drop 2
  else
    let rest := t.dropWhile isSchemeChar
    if !(t.takeWhile isSchemeChar).isEmpty && startsWith rest "://".toList then rest.drop 3 else t

/-- The part of a text that names a host, with its user information taken off. -/
def hostPart (t : Text) : Text :=
  afterLast (· = '@') (before (fun c => c = '/' || c = '?' || c = '#') (dropScheme t))

/-- The labels of the host that a text names; an address in brackets has none. -/
def hostLabels (t : Text) : List Text :=
  let host := hostPart t
  if startsWith host ['['] && host.contains ']' then []
  else
    let name := dropEndWhile isDot (strip (before (· = ':') host))
    labels (name.map fun c => if isDot c then '.' else c)

/-! ## Cutting a host name -/

/-- The suffix of a host that a text names, and the label before it. -/
def split (s : SuffixTable) (t : Text) : HostParts :=
  let ls := hostLabels t
  let size := s.suffixSize ls
  { owner := (ls.take (ls.length - size)).getLast?.getD []
    suffix := ofLabels (ls.drop (ls.length - size)) }

def toRules (s : SuffixTable) : SuffixRules := ⟨s.split⟩

/-- A few of the suffixes of the public list, which has thousands: those of the hosts that this
library is run on. Any other name is no suffix here. -/
def excerpt : SuffixTable :=
  ofNames (["com", "net", "org", "io", "co", "ads", "cn", "de", "gov", "jp", "name", "au", "tr",
    "uk", "edu.au", "com.tr", "net.tr", "org.tr", "co.uk", "co.jp", "*.kawasaki.jp",
    "!city.kawasaki.jp", "*.ck", "!www.ck", "中国", "公司.cn"].map String.toList)

end SuffixTable

/-- The suffixes with which this library is run. What holds for all hosts is proved for any suffixes
and not for these. -/
def SuffixRules.bundled : SuffixRules := SuffixTable.excerpt.toRules

end ContentFilter
