import ContentFilter.Baseline
import ContentFilter.Url.Basic

/-! # Deciding without compiled rules

The fallback decides about a URL by its host and its path alone, so it works before anything has been
compiled. A host is blocked when it is a listed domain or below one, a path when a keyword occurs
in it.

* `Matcher.ofTables`: the fallback for a list of domains and a list of keywords.
* `Matcher.blocks`, `Matcher.blocksUrl`: its decisions.
-/

set_option autoImplicit false

namespace ContentFilter

open Text

/-- The listed domains and the keywords, in lower case. -/
structure Matcher where
  domains : SortedSet Text
  pathKeywords : List Text
  deriving DecidableEq

namespace Matcher

/-- The fallback for a list of domains and a list of keywords. Domains that another one covers and
empty keywords are left out. -/
def ofTables (suffixes : SuffixRules) (domains keywords : List Text) : Matcher where
  domains := SortedSet.ofList (suffixes.prune domains).1
  pathKeywords := (keywords.filter fun k => !k.isEmpty).map lower

def baseline : Matcher :=
  ofTables .bundled Baseline.blockedDomains Baseline.pathKeywords

/-- Whether a host is a listed domain or below one. -/
def matchesDomain (m : Matcher) (host : Text) : Bool :=
  (Domain.candidates host).any m.domains.toList.contains

/-- Whether a keyword occurs in a path. -/
def matchesPath (m : Matcher) (path : Text) : Bool :=
  m.pathKeywords.any fun k => occursIn k (lower path)

def blocks (m : Matcher) (host path : Text) : Bool := m.matchesDomain host || m.matchesPath path

/-- Whether a URL is blocked. A URL without a host never is. -/
def blocksUrl (m : Matcher) (url : Text) : Bool :=
  match Url.parse? url with
  | none => false
  | some u => match u.host? with
    | none => false
    | some host => m.blocks host (if u.path.isEmpty then ['/'] else u.path)

end Matcher

end ContentFilter
