import ContentFilter.Json.Parser
import ContentFilter.Record.Wire
import ContentFilter.Text.Utf8

/-! # Payloads

A downloaded or cached list is either a JSON array of records or a filter text; anything else, such
as a web page that reports an error, is refused. Beyond a limit of the reader of JSON a payload is
not refused but cannot be read at all.

* `PayloadFault`: why a payload is not read, with `PayloadFault.message` and `PayloadFault.limit?`.
* `Record.listOfText`: the records of a JSON array.
* `RuleArray.check`: the check of an array before it is trusted.
* `Payload.decode`: the entries of a payload.
-/

set_option autoImplicit false

namespace ContentFilter

open Std Text

/-! ## Faults -/

/-- Why a payload is refused, or the limit beyond which it goes. -/
inductive PayloadFault where
  | notUtf8
  | notJson
  | beyond (limit : Limit)
  | notArray (typeName : Text)
  | emptyArray
  | badEntry (index : Nat)
  | unknownForm
  | noRules

namespace PayloadFault

def message : PayloadFault → Text
  | notUtf8 => "Not UTF-8".toList
  | notJson => "Not valid JSON".toList
  | beyond l => l.message
  | notArray name => "Expected a JSON array, got ".toList ++ name
  | emptyArray => "Rule array is empty".toList
  | badEntry i => "Entry ".toList ++ ofNat i ++ " is not a trigger/action object".toList
  | unknownForm => "Payload is neither a JSON rule array nor a filter list".toList
  | noRules => "Payload contains no usable rules".toList

/-- The limit beyond which a payload goes; none for one that is refused. -/
def limit? : PayloadFault → Option Limit
  | beyond l => some l
  | _ => none

end PayloadFault

/-! ## JSON arrays -/

namespace Json

def read (t : Text) (S : Type := Text) [UnicodeString S] [DecidableEq S] :
    Except PayloadFault (Json S) :=
  match Json.parse t S with
  | .ok v => .ok v
  | .error .malformed => .error .notJson
  | .error (.beyond l) => .error (.beyond l)

variable {S : Type}

def typeName : Json S → Text
  | .null => "NoneType".toList
  | .bool _ => "bool".toList
  | .int _ => "int".toList
  | .real _ => "float".toList
  | .text _ => "str".toList
  | .array _ => "list".toList
  | .object _ => "dict".toList

def items : Json S → Except PayloadFault (List (Json S))
  | .array items => .ok items
  | v => .error (.notArray v.typeName)

end Json

/-- The records that the items of an array describe, and the number of items that describe none. -/
def Record.listOfText (t : Text) (S : Type := Text) [Ord S] [TransOrd S] [UnicodeString S]
    [DecidableEq S] : Except PayloadFault (List (Record S) × Nat) := do
  let items ← (← Json.read t S).items
  let decoded := items.map Record.ofJson?
  pure (decoded.filterMap id, (decoded.filter Option.isNone).length)

namespace RuleArray

/-- Whether an entry is an object with a trigger and an action that are objects. -/
def isEntry (v : Json) : Bool :=
  (v.field? "trigger".toList).any Json.isObject && (v.field? "action".toList).any Json.isObject

/-- The entries of an array that has some, all of them of the right shape. -/
def check (v : Json) : Except PayloadFault (List Json) := do
  let items ← v.items
  if items.isEmpty then .error .emptyArray
  else match items.findIdx? fun e => !isEntry e with
    | some i => .error (.badEntry i)
    | none => .ok items

end RuleArray

/-! ## Payloads -/

/-- An entry of a list: a record, or a JSON value that may describe one. -/
inductive Entry where
  | record (r : Record)
  | raw (v : Json)

namespace Payload

/-- A sequence of bytes without the mark that announces UTF-8. -/
def dropMark : Bytes → Bytes
  | 0xEF :: 0xBB :: 0xBF :: bytes => bytes
  | bytes => bytes

/-- Whether a text opens like an array of objects or an empty array. -/
def opensArray (t : Text) : Bool :=
  match stripStart t with
  | '[' :: cs => ['{', ']'].any fun c => startsWith (stripStart cs) [c]
  | _ => false

def decodeText (floor : Nat) (t : Text) : Except PayloadFault (List Entry) :=
  if opensArray t then do
    let entries ← RuleArray.check (← Json.read t)
    pure (entries.map .raw)
  else if FilterList.announces t then
    match (FilterList.convert floor t).1 with
    | [] => .error .noRules
    | records => .ok (records.map .record)
  else .error .unknownForm

def decode (floor : Nat) (bytes : Bytes) : Except PayloadFault (List Entry) :=
  match decodeUtf8? (dropMark bytes) with
  | some t => decodeText floor t
  | none => .error .notUtf8

end Payload

end ContentFilter
