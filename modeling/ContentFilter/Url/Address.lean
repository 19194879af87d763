import ContentFilter.Text.Hex

/-! # Numerical addresses

* `Address.isIpv4`: four decimal numbers below 256 between dots, without leading zeros.
* `Address.isIpv6`: eight groups of up to four hexadecimal digits between colons. One double colon
  can stand for one or more groups of zeros, the last two groups can be written as an IPv4 address,
  and a zone can follow behind a percent sign.
-/

set_option autoImplicit false

namespace ContentFilter.Address

open Text

def isOctet (t : Text) : Bool :=
  !t.isEmpty && t.length ≤ 3 && t.all Char.isDigit && (t = ['0'] || t.head? != some '0') &&
    natOfDigits t ≤ 255

def isIpv4 (t : Text) : Bool :=
  let octets := split '.' t
  octets.length = 4 && octets.all isOctet

def isGroup (t : Text) : Bool :=
  !t.isEmpty && t.length ≤ 4 && t.all fun c => (hexValue? c).isSome

/-- The parts of a text before and after its first double colon. -/
def atDoubleColon? : Text → Option (Text × Text)
  | [] => none
  | ':' :: ':' :: cs => some ([], cs)
  | c :: cs => (atDoubleColon? cs).map fun r => (c :: r.1, r.2)

/-- The number of groups in a list of pieces, if all are groups; when `ipv4` holds the last one may
be an IPv4 address and then counts twice. -/
def countGroups? (ipv4 : Bool) : List Text → Option Nat
  | [] => some 0
  | [piece] =>
    if isGroup piece then some 1
    else if ipv4 && isIpv4 piece then some 2
    else none
  | piece :: pieces =>
    if isGroup piece then (countGroups? ipv4 pieces).map (· + 1) else none

/-- The number of groups between the colons of a text; no text, no groups. -/
def groups? (ipv4 : Bool) (t : Text) : Option Nat :=
  if t.isEmpty then some 0 else countGroups? ipv4 (split ':' t)

def isUnscoped (t : Text) : Bool :=
  match atDoubleColon? t with
  | some (left, right) =>
    match groups? false left, groups? true right with
    | some m, some n => m + n ≤ 7
    | _, _ => false
  | none => groups? true t = some 8

def isIpv6 (t : Text) : Bool :=
  isUnscoped (before (· = '%') t) &&
    match after? (· = '%') t with
    | none => true
    | some zone => !zone.isEmpty && !zone.contains '%'

end ContentFilter.Address
