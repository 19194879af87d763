import ContentFilter.Domain.Basic

/-! # Registered names

Names are registered under public suffixes such as `com` or `co.uk`. Which names are suffixes is a
matter of a list that is kept elsewhere; here it is known only by the way in which it cuts a host
name. Nothing is assumed of it.

* `HostParts`: a host name that has been cut, with `HostParts.registered?`.
* `SuffixRules`: a way to cut host names.
* `SuffixRules.registered?`: the registered name that a host belongs to.
* `SuffixRules.parents`: the names above a host, down to the registered one.
* `SuffixRules.prune`: a list of names without those that another one covers.
-/

set_option autoImplicit false

namespace ContentFilter

open Text Domain

/-! ## Cutting a host name -/

/-- What is found of a host name: its public suffix, and the label before it. Either is empty where
there is none. -/
structure HostParts where
  owner : Text
  suffix : Text
  deriving DecidableEq

/-- The registered name: the label before the suffix, and the suffix. -/
def HostParts.registered? (p : HostParts) : Option Text :=
  if p.suffix.isEmpty || p.owner.isEmpty then none else some (p.owner ++ '.' :: p.suffix)

/-- The public suffixes, known by the way in which they cut a host name. -/
structure SuffixRules where
  split : Text → HostParts

namespace SuffixRules

/-- No suffix is known. -/
def unknown : SuffixRules := ⟨fun _ => ⟨[], []⟩⟩

/-- A way to cut host names that never gives up. -/
def split? (s : SuffixRules) (t : Text) : Option HostParts := some (s.split t)

/-! ## Registered names -/

/-- The registered name that a host belongs to. -/
def registered? (s : SuffixRules) (t : Text) : Option Text := (s.split t).registered?

/-- The number of labels below which a name has no parents. -/
def floor (s : SuffixRules) (t : Text) : Nat :=
  match s.registered? t with
  | some r => (labels r).length
  | none => 2

/-- The names above a name that have at least as many labels as its registered name, or two if it
has none. A number without a registered name has no parents. -/
def parents (s : SuffixRules) (t : Text) : List Text :=
  if (s.registered? t).isNone && isNumeric t then []
  else (tailsOf (labels t)).tail.take ((labels t).length - s.floor t)

/-! ## Pruning -/

/-- The normalised names of a list that are neither empty nor local, each once, in order. -/
def distinctNames (names : List Text) : List Text :=
  (names.map normalize).foldl
    (fun found n => if n.isEmpty || isLocal n || found.contains n then found else found ++ [n]) []

/-- The names of a list that no other one covers, and the number of those left out. -/
def prune (s : SuffixRules) (names : List Text) : List Text × Nat :=
  let unique := distinctNames names
  let covered := fun n => (s.parents n).any unique.contains
  (unique.filter fun n => !covered n, (unique.filter covered).length)

end SuffixRules

end ContentFilter
