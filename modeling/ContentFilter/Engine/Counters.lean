import ContentFilter.Domain.Suffix
import ContentFilter.Url.Basic

/-! # Counters

An engine counts what has been blocked and remembers where that was last.

* `Counters.record`: notes that something was blocked.
-/

set_option autoImplicit false

namespace ContentFilter

open Text

/-- How many items have been blocked, and the domain of the last of them. -/
structure Counters where
  blocked : Nat := 0
  lastDomain : Text := []
  deriving DecidableEq

namespace Counters

/-- Adds a number of blocked items; a negative one adds nothing. -/
def add (c : Counters) (count : Int) : Counters := { c with blocked := c.blocked + count.toNat }

/-- The host that a text names, which is a URL or a host; an error for a malformed URL. -/
def hostOf (t : Text) : Except Unit (Option Text) :=
  if occursIn "://".toList t then
    match Url.parse? t with
    | some u => .ok u.host?
    | none => .error ()
  else
    let name := Domain.normalize t
    .ok (if name.isEmpty then none else some name)

/-- Notes that items were blocked at a host. The name of the host is cut in front of its public
suffix by a way that may give up. The items have been counted even when it does, or when the host
cannot be told because its URL is malformed, which the second part shows. -/
def record (c : Counters) (split? : Text → Option HostParts) (count : Int) (place : Text) :
    Counters × Bool :=
  let c := c.add count
  if place.isEmpty then (c, true)
  else match hostOf place with
    | .error _ => (c, false)
    | .ok none => (c, true)
    | .ok (some host) => match split? host with
      | none => (c, false)
      | some parts => ({ c with lastDomain := parts.registered?.getD host }, true)

end Counters

end ContentFilter
