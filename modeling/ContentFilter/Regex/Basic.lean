import ContentFilter.Text.CaseFold

/-! # Regular expressions

A match is looked for from a place in a text, and what has to match behind it is given as a
continuation: the choices of an expression are tried in order of preference until the continuation
succeeds. Letters are compared without regard to case.

* `Regex`: the expressions.
* `Regex.run`: matching from a given place.
* `Regex.search`: whether an expression matches some part of a text.
-/

set_option autoImplicit false

namespace ContentFilter

/-- How often a repetition tries to match: as often as possible, as seldom as possible, or as often
as possible without ever giving back what it took. -/
inductive Greed where
  | greedy
  | lazy
  | possessive
  deriving DecidableEq, Repr

/-- A regular expression. A repetition without an upper bound has none as its most. -/
inductive Regex where
  | empty
  | char (c : Char)
  | any
  | set (negated : Bool) (ranges : List (Char × Char))
  | start
  | finish
  | seq (first second : Regex)
  | alt (first second : Regex)
  | iterate (greed : Greed) (least : Nat) (most : Option Nat) (body : Regex)
  deriving DecidableEq, Repr

namespace Regex

open Text

/-! ## Places -/

/-- A place in a text: the number of characters before it and the characters behind it. -/
structure Place where
  offset : Nat
  rest : Text
  deriving DecidableEq, Repr

/-! ## Characters -/

/-- Whether a character is in one of the closed ranges, up to case. -/
def inSet (ranges : List (Char × Char)) (c : Char) : Bool :=
  (foldVariants c).any fun n => ranges.any fun r => r.1.toNat ≤ n && n ≤ r.2.toNat

/-- Goes on behind the next character when that satisfies `p`. -/
def step (p : Char → Bool) (here : Place) (go : Place → Option Place) : Option Place :=
  match here.rest with
  | [] => none
  | c :: cs => if p c then go ⟨here.offset + 1, cs⟩ else none

/-- Whether nothing but a final line feed is behind the place. -/
def atFinish (here : Place) : Bool := here.rest = [] || here.rest = ['\n']

/-! ## Repetition -/

/-- A way to match from a place: the outcome of the first choice with which the continuation
succeeds. -/
abbrev Matcher := Place → (Place → Option Place) → Option Place

/-- Takes one round off an upper bound; none when there is no round left. -/
def oneLess? : Option Nat → Option (Option Nat)
  | none => some none
  | some 0 => none
  | some (n + 1) => some (some n)

/-- Whether a match can end where it starts. -/
def canStay (body : Matcher) (here : Place) : Bool :=
  (body here fun p => if p.offset = here.offset then some p else none).isSome

/-- A repetition that still needs `needed` rounds and may take up to `allowed`. Where the body can
match nothing, one such round stands for all rounds still needed, so only rounds that move on are
followed, and of these there are at most as many as characters. -/
def rounds (body : Matcher) (lazily : Bool) (go : Place → Option Place) :
    (fuel needed : Nat) → (allowed : Option Nat) → Place → Option Place
  | 0, _, _, _ => none
  | fuel + 1, needed, allowed, here =>
    match oneLess? allowed with
    | none => if needed = 0 then go here else none
    | some left =>
      let owed := if needed = 0 || canStay body here then 0 else needed - 1
      let next := fun p : Place =>
        if p.offset = here.offset then go here else rounds body lazily go fuel owed left p
      if needed = 0 then
        if lazily then (go here).orElse fun _ => body here next
        else (body here next).orElse fun _ => go here
      else body here next

/-- The place where a repetition ends whose every round takes its preferred match and keeps it. -/
def holdRounds (body : Matcher) :
    (fuel needed : Nat) → (allowed : Option Nat) → Place → Option Place
  | 0, _, _, _ => none
  | fuel + 1, needed, allowed, here =>
    let stay := if needed = 0 then some here else none
    match oneLess? allowed with
    | none => stay
    | some left =>
      match body here some with
      | none => stay
      | some p =>
        if p.offset = here.offset then some here
        else holdRounds body fuel (needed - 1) left p

/-! ## Matching -/

/-- Matches an expression from `here`, in a text of `size` characters, and goes on behind the
match. -/
def run (size : Nat) : Regex → Matcher
  | empty, here, go => go here
  | char c, here, go => step (sameLetter c) here go
  | any, here, go => step (fun d => d != '\n') here go
  | set negated ranges, here, go => step (fun d => inSet ranges d != negated) here go
  | start, here, go => if here.offset = 0 then go here else none
  | finish, here, go => if atFinish here then go here else none
  | seq first second, here, go => run size first here fun p => run size second p go
  | alt first second, here, go =>
    (run size first here go).orElse fun _ => run size second here go
  | iterate greed least most body, here, go =>
    match greed with
    | .greedy => rounds (run size body) false go (size + 1) least most here
    | .lazy => rounds (run size body) true go (size + 1) least most here
    | .possessive =>
      match holdRounds (run size body) (size + 1) least most here with
      | none => none
      | some p => go p

/-- Whether the expression matches, in a text of `size` characters, from some place that has `cs`
behind it, the first of them having `offset` characters before it. -/
def searchFrom (r : Regex) (size offset : Nat) (cs : Text) : Bool :=
  (run size r ⟨offset, cs⟩ some).isSome ||
    match cs with
    | [] => false
    | _ :: rest => searchFrom r size (offset + 1) rest

def search (r : Regex) (t : Text) : Bool := searchFrom r t.length 0 t

end Regex

end ContentFilter
