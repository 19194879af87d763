import ContentFilter.Json.Basic
import ContentFilter.Number.Decimal
import ContentFilter.Text.Hex

/-! # Reading JSON

`Json.parse` reads a text that is one JSON value with white space around it. Beyond the standard it
takes the names `NaN`, `Infinity` and `-Infinity` for numbers. A numeral with a fraction or an
exponent is a double-precision number, any other a whole number. An escape stands for a code unit,
which can be half of a surrogate pair without the other half; where strings are read as texts, U+FFFD
takes its place (`UnicodeString.ofUnits`). The digits of a whole number and the depth of nesting are
limited; of a limit and a fault of the notation the one that comes first counts.

* `Json.Fault`: why a text is not read.
* `Json.skipSpace`: white space between tokens: space, tab, line feed and carriage return.
* `Json.readUnits`, `Json.readNumber`: the tokens with an inner structure.
* `Json.readValue`: a value and what follows it.
-/

set_option autoImplicit false

namespace ContentFilter.Json

open Text UnicodeString

/-! ## Tokens -/

def isSpace (c : Char) : Bool := c = ' ' || c = '\t' || c = '\n' || c = '\r'

def skipSpace (t : Text) : Text := t.dropWhile isSpace

/-- The character that a one-letter escape stands for. -/
def shortEscape? (c : Char) : Option Char :=
  if c = '"' || c = '\\' || c = '/' then some c
  else if c = 'b' then some (Char.ofNat 0x08)
  else if c = 'f' then some (Char.ofNat 0x0C)
  else if c = 'n' then some '\n'
  else if c = 'r' then some '\r'
  else if c = 't' then some '\t'
  else none

def unit? (a b c d : Char) : Option CodeUnit := do
  let a ← hexValue? a
  let b ← hexValue? b
  let c ← hexValue? c
  let d ← hexValue? d
  pure (.ofNat (4096 * a + 256 * b + 16 * c + d))

/-- The code units of a string from behind its opening quote, and what follows its closing quote. -/
def readUnits : Text → Option (List CodeUnit × Text)
  | [] => none
  | '"' :: cs => some ([], cs)
  | '\\' :: 'u' :: a :: b :: c :: d :: cs => do
    let u ← unit? a b c d
    let (us, rest) ← readUnits cs
    pure (u :: us, rest)
  | '\\' :: e :: cs => do
    let e ← shortEscape? e
    let (us, rest) ← readUnits cs
    pure (CodeUnit.ofPoint e.toNat ++ us, rest)
  | c :: cs =>
    if c.toNat < 0x20 then none
    else do
      let (us, rest) ← readUnits cs
      pure (CodeUnit.ofPoint c.toNat ++ us, rest)

/-- The digits of a fraction, with its point, and what follows; no fraction where no digit follows
the point. -/
def readFraction : Text → Option Text × Text
  | '.' :: cs =>
    if (cs.takeWhile Char.isDigit).isEmpty then (none, '.' :: cs)
    else (some (cs.takeWhile Char.isDigit), cs.dropWhile Char.isDigit)
  | cs => (none, cs)

/-- The value of an exponent part and what follows; no exponent where it has no digits. -/
def readExponent : Text → Option Int × Text
  | [] => (none, [])
  | c :: cs =>
    let (negative, ds) := Numeral.signed cs
    let digits := ds.takeWhile Char.isDigit
    if (c = 'e' || c = 'E') && !digits.isEmpty then
      let n : Int := natOfDigits digits
      (some (if negative then -n else n), ds.dropWhile Char.isDigit)
    else (none, c :: cs)

/-- The digits before the point: a lone zero, or digits of which the first is not zero. -/
def readWhole : Text → Option (Text × Text)
  | [] => none
  | c :: cs =>
    if c = '0' then some (['0'], cs)
    else if c.isDigit then some (c :: cs.takeWhile Char.isDigit, cs.dropWhile Char.isDigit)
    else none

/-- Why a text is not read: it does not follow the notation, or it goes beyond a limit. -/
inductive Fault where
  | malformed
  | beyond (limit : Limit)
  deriving DecidableEq, Repr

/-- What has been read and what follows it; nothing read means that the notation is not followed. -/
def orMalformed {α : Type} : Option α → Except Fault α
  | some a => .ok a
  | none => .error .malformed

/-- A number: a whole one, or one that is a double-precision number. -/
inductive Number where
  | int (value : Int)
  | real (value : Binary64)

def wholeOf (negative : Bool) (digits : Text) : Except Fault Number :=
  match Limit.wholeNumber digits with
  | .ok n => .ok (.int (if negative then -n else n))
  | .error l => .error (.beyond l)

def readUnsigned (negative : Bool) (t : Text) : Except Fault (Number × Text) := do
  let (whole, rest) ← orMalformed (readWhole t)
  let (fraction, rest) := readFraction rest
  let (exponent, rest) := readExponent rest
  if fraction.isNone && exponent.isNone then .ok (← wholeOf negative whole, rest)
  else
    let d := Decimal.ofParts negative whole (fraction.getD []) (exponent.getD 0)
    .ok (.real d.toBinary64, rest)

def readNumber (t : Text) : Except Fault (Number × Text) :=
  if startsWith t "NaN".toList then .ok (.real .nan, t.drop 3)
  else if startsWith t "Infinity".toList then .ok (.real (.infinite false), t.drop 8)
  else if startsWith t "-Infinity".toList then .ok (.real (.infinite true), t.drop 9)
  else match t with
    | '-' :: cs => readUnsigned true cs
    | cs => readUnsigned false cs

/-! ## Values -/

/-- How deeply values can be nested where the reader has the stack almost to itself. It is not a limit
of the notation, and a reader that is called from further down gives up earlier. -/
def nestingLimit : Nat := 988

variable {S : Type} [UnicodeString S]

def ofNumber : Number → Json S
  | .int n => .int n
  | .real x => .real x

/-- A string from behind its opening quote, and what follows its closing quote. -/
def readString (t : Text) : Option (S × Text) := (readUnits t).map fun r => (ofUnits r.1, r.2)

variable [DecidableEq S]

mutual

/-- A value that starts the text, and what follows it. The fuel bounds the number of values and of
items still to come; `depth` is how much deeper arrays and objects may be nested. -/
def readValue : (fuel depth : Nat) → Text → Except Fault (Json S × Text)
  | 0, _, _ => .error .malformed
  | fuel + 1, depth, t => match t with
    | '"' :: cs => (orMalformed (readString cs)).map fun r => (.text r.1, r.2)
    | '[' :: cs => match depth with
      | 0 => .error (.beyond .nesting)
      | depth + 1 => match skipSpace cs with
        | ']' :: rest => .ok (.array [], rest)
        | rest => (readItems fuel depth rest).map fun r => (.array r.1, r.2)
    | '{' :: cs => match depth with
      | 0 => .error (.beyond .nesting)
      | depth + 1 => match skipSpace cs with
        | '}' :: rest => .ok (.object [], rest)
        | rest => (readMembers fuel depth rest).map fun r => (.object (fieldsOfMembers r.1), r.2)
    | 'n' :: 'u' :: 'l' :: 'l' :: rest => .ok (.null, rest)
    | 't' :: 'r' :: 'u' :: 'e' :: rest => .ok (.bool true, rest)
    | 'f' :: 'a' :: 'l' :: 's' :: 'e' :: rest => .ok (.bool false, rest)
    | cs => (readNumber cs).map fun r => (ofNumber r.1, r.2)

def readItems : (fuel depth : Nat) → Text → Except Fault (List (Json S) × Text)
  | 0, _, _ => .error .malformed
  | fuel + 1, depth, t => do
    let (v, rest) ← readValue fuel depth t
    match skipSpace rest with
    | ']' :: rest => .ok ([v], rest)
    | ',' :: rest =>
      let (vs, rest) ← readItems fuel depth (skipSpace rest)
      .ok (v :: vs, rest)
    | _ => .error .malformed

def readMembers : (fuel depth : Nat) → Text → Except Fault (List (S × Json S) × Text)
  | 0, _, _ => .error .malformed
  | fuel + 1, depth, t => match t with
    | '"' :: cs => do
      let (key, rest) ← orMalformed (readString cs)
      match skipSpace rest with
      | ':' :: rest =>
        let (v, rest) ← readValue fuel depth (skipSpace rest)
        match skipSpace rest with
        | '}' :: rest => .ok ([(key, v)], rest)
        | ',' :: rest =>
          let (members, rest) ← readMembers fuel depth (skipSpace rest)
          .ok ((key, v) :: members, rest)
        | _ => .error .malformed
      | _ => .error .malformed
    | _ => .error .malformed

end

/-- The value that a text is; its strings are read as texts unless another type is given. -/
def parse (t : Text) (S : Type := Text) [UnicodeString S] [DecidableEq S] :
    Except Fault (Json S) := do
  let (v, rest) ← readValue (2 * t.length + 2) nestingLimit (skipSpace t)
  if (skipSpace rest).isEmpty then .ok v else .error .malformed

end ContentFilter.Json
