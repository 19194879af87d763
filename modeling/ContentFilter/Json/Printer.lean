import ContentFilter.Json.Basic
import ContentFilter.Number.Shortest
import ContentFilter.Text.Hex

/-! # Writing JSON

Everything outside printable ASCII is written as an escape: the short one where there is one,
otherwise `\u` and four digits for each code unit.

* `Json.Layout`: how items and keys are set apart; `Json.Layout.compact`, `Json.Layout.spaced` and
  `Json.Layout.indented` are the layouts in use.
* `Json.write`: the text of a value in a layout.
* `Json.compact`: the text without any white space.
-/

set_option autoImplicit false

namespace ContentFilter.Json

open Text UnicodeString

variable {S : Type} [UnicodeString S]

/-! ## Strings -/

def hexEscape (n : Nat) : Text :=
  ['\\', 'u', hexDigit (n / 4096 % 16), hexDigit (n / 256 % 16), hexDigit (n / 16 % 16),
    hexDigit (n % 16)]

def escapeUnit (u : CodeUnit) : Text :=
  let n := u.toNat
  if n = 0x22 then ['\\', '"']
  else if n = 0x5C then ['\\', '\\']
  else if 0x20 ≤ n && n ≤ 0x7E then [Char.ofNat n]
  else if n = 0x08 then ['\\', 'b']
  else if n = 0x09 then ['\\', 't']
  else if n = 0x0A then ['\\', 'n']
  else if n = 0x0C then ['\\', 'f']
  else if n = 0x0D then ['\\', 'r']
  else hexEscape n

def quote (s : S) : Text := '"' :: ((units s).flatMap escapeUnit ++ ['"'])

/-! ## Numbers -/

/-- A double-precision number; the three that are no finite number have names of their own. -/
def realText : Binary64 → Text
  | .infinite false => "Infinity".toList
  | .infinite true => "-Infinity".toList
  | .nan => "NaN".toList
  | x => x.toText

/-! ## Values -/

/-- What stands between items, what stands between a key and its value, and the number of spaces by
which each level is indented when every item has a line of its own. -/
structure Layout where
  betweenItems : Text
  afterKey : Text
  indent : Option Nat

def Layout.compact : Layout := ⟨[','], [':'], none⟩

def Layout.spaced : Layout := ⟨[',', ' '], [':', ' '], none⟩

/-- Every item on a line of its own, each level indented by two spaces. -/
def Layout.indented : Layout := ⟨[','], [':', ' '], some 2⟩

/-- The start of a new line at a level; nothing when items do not have lines of their own. -/
def Layout.newLine (l : Layout) (level : Nat) : Text :=
  match l.indent with
  | none => []
  | some n => '\n' :: List.replicate (n * level) ' '

/-- Items between brackets; brackets without items stand together. -/
def Layout.enclose (l : Layout) (level : Nat) (opening closing : Char) (items : List Text) : Text :=
  if items.isEmpty then [opening, closing]
  else
    opening :: (l.newLine (level + 1) ++ join (l.betweenItems ++ l.newLine (level + 1)) items ++
      l.newLine level ++ [closing])

mutual

def write (l : Layout) (level : Nat) : Json S → Text
  | .null => "null".toList
  | .bool true => "true".toList
  | .bool false => "false".toList
  | .int n => ofInt n
  | .real x => realText x
  | .text t => quote t
  | .array items => l.enclose level '[' ']' (writeItems l (level + 1) items)
  | .object fields => l.enclose level '{' '}' (writeFields l (level + 1) fields)
  termination_by structural v => v

def writeItems (l : Layout) (level : Nat) : List (Json S) → List Text
  | [] => []
  | v :: vs => write l level v :: writeItems l level vs
  termination_by structural vs => vs

def writeFields (l : Layout) (level : Nat) : List (S × Json S) → List Text
  | [] => []
  | (key, v) :: fs => (quote key ++ l.afterKey ++ write l level v) :: writeFields l level fs
  termination_by structural fs => fs

end

def compact (v : Json S) : Text := write .compact 0 v

end ContentFilter.Json
