import ContentFilter.Text.Digit
import ContentFilter.Text.Lower

/-! # Domain names

A domain name is a text of labels between dots.

* `Domain.normalize`: the form in which names are compared.
* `Domain.isPlain`: names of letters, digits and hyphens, found by one pass over the characters.
* `Domain.isLocal`: the names by which a machine calls itself and its network.
* `Domain.tails`, `Domain.candidates`: the names that cover a host.
-/

set_option autoImplicit false

namespace ContentFilter.Domain

open Text

/-! ## Forms of a name -/

/-- The form in which names are compared: lower case, no white space around it, no dots behind it. -/
def normalize (t : Text) : Text := dropEndWhile (· = '.') (strip (lower t))

def isLabelChar (c : Char) : Bool := ('a' ≤ c && c ≤ 'z') || ('0' ≤ c && c ≤ '9')

def longestLabel : Nat := 63

/-- Whether the rest of a name completes it, inside a label of which `length` characters have been
read, the last of them a hyphen when `afterHyphen` holds. A line feed may close the name. -/
def completes (length : Nat) (afterHyphen : Bool) : Text → Bool
  | [] => 0 < length && !afterHyphen
  | c :: cs =>
    if c = '.' then 0 < length && !afterHyphen && completes 0 false cs
    else if isLabelChar c then length < longestLabel && completes (length + 1) false cs
    else if c = '-' then 0 < length && length < longestLabel && completes (length + 1) true cs
    else c = '\n' && cs.isEmpty && 0 < length && !afterHyphen

/-- A plain name: labels of letters, digits and inner hyphens. -/
def isPlain (t : Text) : Bool := completes 0 false t

/-- The names by which a machine calls itself and its network. -/
def localNames : List Text :=
  ["localhost", "localhost.localdomain", "local", "broadcasthost", "ip6-localhost", "ip6-loopback",
   "ip6-localnet", "ip6-mcastprefix", "ip6-allnodes", "ip6-allrouters", "ip6-allhosts"].map
    String.toList

def isLocal (t : Text) : Bool := localNames.contains t

/-- Whether a name is made of digits and dots and has a digit. -/
def isNumeric (t : Text) : Bool := allDigits (t.filter (· != '.'))

/-! ## Names above a name -/

def labels (t : Text) : List Text := split '.' t

def ofLabels (ls : List Text) : Text := join ['.'] ls

def tailsOf : List Text → List Text
  | [] => []
  | l :: ls => ofLabels (l :: ls) :: tailsOf ls

/-- The names made of the last labels of a name, the name itself first. A number has no others. -/
def tails (t : Text) : List Text := if isNumeric t then [t] else tailsOf (labels t)

/-- The names that cover a host when they are listed, the longest first. -/
def candidates (host : Text) : List Text :=
  if (normalize host).isEmpty then [] else tails (normalize host)

end ContentFilter.Domain
