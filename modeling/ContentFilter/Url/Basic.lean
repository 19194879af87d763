import ContentFilter.Text.Lower
import ContentFilter.Url.Address

/-! # URLs

Of a URL only its authority and its path decide whether it is blocked. They are found by one pass
over its delimiters; a URL is malformed when the brackets of its authority do not enclose an
address, or when a character of its authority would turn into a delimiter under compatibility
normalisation.

* `Url.parse?`: the parts of a URL, none for a malformed one.
* `Url.host?`: the host that the authority names.
-/

set_option autoImplicit false

namespace ContentFilter

/-- The parts of a URL that name a resource on a host. -/
structure Url where
  authority : Text
  path : Text
  deriving DecidableEq, Repr

namespace Url

open Text

/-! ## Cleaning -/

def isDropped (c : Char) : Bool := c = '\t' || c = '\r' || c = '\n'

/-- A URL without control characters and spaces before it, and without the characters that are left
out everywhere. -/
def clean (t : Text) : Text :=
  (t.dropWhile fun c => c.toNat ≤ 0x20).filter fun c => !isDropped c

/-! ## Scheme and authority -/

def isSchemeChar (c : Char) : Bool := c.isAlphanum || c = '+' || c = '-' || c = '.'

def isScheme (t : Text) : Bool :=
  match t with
  | [] => false
  | c :: _ => c.isAlpha && t.all isSchemeChar

/-- What follows the scheme and its colon; the whole text when no scheme is written. -/
def afterScheme (t : Text) : Text :=
  match after? (· = ':') t with
  | some rest => if isScheme (before (· = ':') t) then rest else t
  | none => t

def endsAuthority (c : Char) : Bool := c = '/' || c = '?' || c = '#'

/-- The authority, where two slashes announce one, and what follows it. -/
def readAuthority : Text → Text × Text
  | '/' :: '/' :: cs => (before endsAuthority cs, cs.dropWhile fun c => !endsAuthority c)
  | cs => ([], cs)

/-- The path: what stands before the query and the fragment. -/
def readPath (t : Text) : Text := before (· = '?') (before (· = '#') t)

/-! ## Checks -/

/-- An address of a form that is yet to come: the letter `v`, a hexadecimal version, a dot and a
text. -/
def isFutureAddress : Text → Bool
  | 'v' :: cs =>
    let version := cs.takeWhile fun c => (hexValue? c).isSome
    match cs.dropWhile fun c => (hexValue? c).isSome with
    | '.' :: rest => !version.isEmpty && !rest.isEmpty
    | _ => false
  | _ => false

def isBracketed (t : Text) : Bool :=
  if startsWith t ['v'] then isFutureAddress t else Address.isIpv6 t

def hostAndPort (authority : Text) : Text := afterLast (· = '@') authority

/-- Whether the brackets of an authority, when there are any, stand around an address and only a port
follows them. -/
def bracketsFit (authority : Text) : Bool :=
  if authority.contains '[' != authority.contains ']' then false
  else if !authority.contains '[' then true
  else
    let hostPort := hostAndPort authority
    match after? (· = '[') hostPort with
    | none => isBracketed (before (· = ':') hostPort)
    | some inside =>
      let port := (after? (· = ']') inside).getD []
      startsWith hostPort ['['] && (port.isEmpty || startsWith port [':']) &&
        isBracketed (before (· = ']') inside)

/-- The characters whose compatibility form holds one of the delimiters `/`, `?`, `#`, `@`, `:`. -/
def delimiterLookalikes : List Nat :=
  [0x2047, 0x2048, 0x2049, 0x2100, 0x2101, 0x2105, 0x2106, 0x2A74, 0xFE13, 0xFE16, 0xFE55, 0xFE56,
   0xFE5F, 0xFE6B, 0xFF03, 0xFF0F, 0xFF1A, 0xFF1F, 0xFF20]

def isLookalike (c : Char) : Bool := delimiterLookalikes.contains c.toNat

/-! ## URLs -/

/-- The parts of a URL; none for a malformed one. -/
def parse? (t : Text) : Option Url :=
  let (authority, rest) := readAuthority (afterScheme (clean t))
  if bracketsFit authority && !authority.any isLookalike then some ⟨authority, readPath rest⟩
  else none

def writtenHost (authority : Text) : Text :=
  match after? (· = '[') (hostAndPort authority) with
  | some inside => before (· = ']') inside
  | none => before (· = ':') (hostAndPort authority)

/-- The host that the authority names, in lower case up to a zone; none when it is empty. -/
def host? (u : Url) : Option Text :=
  let host := writtenHost u.authority
  if host.isEmpty then none
  else some (lower (before (· = '%') host) ++ host.dropWhile (· != '%'))

end Url

end ContentFilter
