import ContentFilter.Limit
import ContentFilter.Regex.Basic

/-! # Reading regular expressions

This reader is for the expressions of filter rules and of the baseline. They are written in a small
part of the notation in common use, which has classes such as `\d`, groups that open with a question
mark and references to groups besides. An expression with one of these is refused here, though other
readers take it; what holds for all lists of records is therefore stated for any reader.

The part read here has literals, `.`, the anchors `^` and `$`, groups, alternatives, sets in brackets, and
the repetitions `*`, `+`, `?` and a count in braces, each with a lazy form (a further `?`) and a
possessive one (a further `+`). A backslash before a character that is no ASCII letter or digit
stands for that character. A brace that opens no count and a lone closing brace or bracket are
literals. Counts and the depth of nesting are limited.

* `Regex.Fault`: why a text is not read.
* `Regex.parse`: the expression that a text denotes.
-/

set_option autoImplicit false

namespace ContentFilter.Regex

open Text

/-- Why a text is not read: it does not follow the notation, or it goes beyond a limit. -/
inductive Fault where
  | malformed
  | beyond (limit : Limit)
  deriving DecidableEq, Repr

/-- The first count that is too large for a repetition. -/
def countLimit : Nat := 4294967295

/-- How deeply groups can be nested where the reader has the stack almost to itself. It is not a
limit of the notation, and a reader that is called from further down gives up earlier. -/
def nestingLimit : Nat := 487

/-! ## Repetitions -/

/-- The least and the most number of rounds, and what follows. -/
abbrev Count := Nat × Option Nat × Text

def roundsOf (digits : Text) : Except Fault Nat :=
  match Limit.wholeNumber digits with
  | .error l => .error (.beyond l)
  | .ok n => if countLimit ≤ n then .error (.beyond .repetition) else .ok n

/-- The bounds of a count from its digits before and after the comma. -/
def boundsOf (low high : Text) : Except Fault (Nat × Option Nat) := do
  let least ← if low.isEmpty then .ok 0 else roundsOf low
  if high.isEmpty then .ok (least, none)
  else
    let most ← roundsOf high
    if most < least then .error .malformed else .ok (least, some most)

/-- A count with its digits before and after the comma, and what follows. A backslash that ends the
text is found before the count is taken. -/
def countOf (low high rest : Text) : Except Fault (Option Count) :=
  if rest = ['\\'] then .error .malformed
  else (boundsOf low high).map fun b => some (b.1, b.2, rest)

/-- A count from behind its opening brace; none when the brace opens no count. -/
def count? (t : Text) : Except Fault (Option Count) :=
  let low := t.takeWhile Char.isDigit
  match t.dropWhile Char.isDigit with
  | '}' :: rest => if low.isEmpty then .ok none else countOf low low rest
  | ',' :: cs =>
    match cs.dropWhile Char.isDigit with
    | '}' :: rest => countOf low (cs.takeWhile Char.isDigit) rest
    | _ => .ok none
  | _ => .ok none

def mark? : Text → Except Fault (Option Count)
  | '*' :: cs => .ok (some (0, none, cs))
  | '+' :: cs => .ok (some (1, none, cs))
  | '?' :: cs => .ok (some (0, some 1, cs))
  | '{' :: cs => count? cs
  | _ => .ok none

/-- The form of a repetition, from what follows its mark. -/
def readGreed : Text → Greed × Text
  | '?' :: cs => (.lazy, cs)
  | '+' :: cs => (.possessive, cs)
  | cs => (.greedy, cs)

/-- The anchors, which cannot be repeated. -/
def isAnchor : Regex → Bool
  | start => true
  | finish => true
  | _ => false

/-- An item with the repetition that follows it, if one does. -/
def repeated (item : Regex) (t : Text) : Except Fault (Regex × Text) := do
  match ← mark? t with
  | none => .ok (item, t)
  | some (least, most, rest) =>
    if isAnchor item then .error .malformed
    else
      let (greed, rest) := readGreed rest
      .ok (iterate greed least most item, rest)

/-! ## Characters -/

/-- An escaped character, from behind the backslash. -/
def readEscape : Text → Except Fault (Char × Text)
  | [] => .error .malformed
  | c :: cs => if c.isAlphanum then .error .malformed else .ok (c, cs)

def readMember : Text → Except Fault (Char × Text)
  | [] => .error .malformed
  | '\\' :: cs => readEscape cs
  | c :: cs => .ok (c, cs)

/-- The ranges of a set up to its closing bracket. A bracket before the first member is a member
itself, and so is a hyphen before the closing bracket. -/
def readRanges : (fuel : Nat) → (first : Bool) → Text → Except Fault (List (Char × Char) × Text)
  | 0, _, _ => .error .malformed
  | fuel + 1, first, t =>
    match first, t with
    | false, ']' :: rest => .ok ([], rest)
    | _, _ => do
      let (low, rest) ← readMember t
      match rest with
      | '-' :: ']' :: rest => .ok ([(low, low), ('-', '-')], rest)
      | '-' :: rest =>
        let (high, rest) ← readMember rest
        if high.toNat < low.toNat then .error .malformed
        else
          let (ranges, rest) ← readRanges fuel false rest
          .ok ((low, high) :: ranges, rest)
      | _ =>
        let (ranges, rest) ← readRanges fuel false rest
        .ok ((low, low) :: ranges, rest)

def readSet (t : Text) : Except Fault (Regex × Text) := do
  let (negated, members) := match t with
    | '^' :: cs => (true, cs)
    | cs => (false, cs)
  let (ranges, rest) ← readRanges (members.length + 1) true members
  .ok (set negated ranges, rest)

/-! ## Expressions -/

mutual

/-- Alternatives up to a closing parenthesis or the end. `depth` is how much deeper groups may be
nested. -/
def readAlternatives : (fuel depth : Nat) → Text → Except Fault (Regex × Text)
  | 0, _, _ => .error .malformed
  | fuel + 1, depth, t => do
    let (first, rest) ← readSequence fuel depth t
    match rest with
    | '|' :: rest =>
      let (second, rest) ← readAlternatives fuel depth rest
      .ok (alt first second, rest)
    | _ => .ok (first, rest)

/-- Items up to a bar, a closing parenthesis or the end. -/
def readSequence : (fuel depth : Nat) → Text → Except Fault (Regex × Text)
  | 0, _, _ => .error .malformed
  | fuel + 1, depth, t => match t with
    | [] => .ok (empty, [])
    | '|' :: _ => .ok (empty, t)
    | ')' :: _ => .ok (empty, t)
    | _ => do
      let (item, rest) ← readItem fuel depth t
      let (item, rest) ← repeated item rest
      let (others, rest) ← readSequence fuel depth rest
      .ok (seq item others, rest)

/-- One item; a repetition mark with nothing before it is a fault. -/
def readItem : (fuel depth : Nat) → Text → Except Fault (Regex × Text)
  | 0, _, _ => .error .malformed
  | fuel + 1, depth, t => do
    if (← mark? t).isSome then .error .malformed
    else match t with
      | [] => .error .malformed
      | '(' :: cs => match depth with
        | 0 => .error (.beyond .nesting)
        | depth + 1 =>
          let (inner, rest) ← readAlternatives fuel depth cs
          match rest with
          | ')' :: rest => .ok (inner, rest)
          | _ => .error .malformed
      | '[' :: cs => readSet cs
      | '.' :: cs => .ok (any, cs)
      | '^' :: cs => .ok (start, cs)
      | '$' :: cs => .ok (finish, cs)
      | '\\' :: cs => do
        let (c, rest) ← readEscape cs
        .ok (char c, rest)
      | c :: cs => .ok (char c, cs)

end

def parse (t : Text) : Except Fault Regex := do
  let (r, rest) ← readAlternatives (3 * t.length + 3) nestingLimit t
  if rest.isEmpty then .ok r else .error .malformed

end ContentFilter.Regex
