import ContentFilter.Text.Utf16
import ContentFilter.Number.Binary64

/-! # JSON values

* `Json`: the type. A whole number is kept exactly, any other as a double-precision number; an
  object keeps its fields in the order in which their keys first came. Its strings are texts unless
  another type of strings is given.
* `Json.field?`: the value of a field.
* `Json.putField`: sets a field, in its place when the key is there and at the end otherwise.
-/

set_option autoImplicit false

namespace ContentFilter

inductive Json (S : Type := Text) where
  | null
  | bool (value : Bool)
  | int (value : Int)
  | real (value : Binary64)
  | text (value : S)
  | array (items : List (Json S))
  | object (fields : List (S × Json S))
  deriving Repr, Inhabited

namespace Json

variable {S : Type}

def isArray : Json S → Bool
  | .array _ => true
  | _ => false

def isObject : Json S → Bool
  | .object _ => true
  | _ => false

variable [DecidableEq S]

/-- The value of a field; values that are not objects have no fields. -/
def field? (key : S) : Json S → Option (Json S)
  | .object fields => fields.lookup key
  | _ => none

/-- Sets a field: in its place when the key is there, at the end otherwise. -/
def putField (key : S) (value : Json S) : List (S × Json S) → List (S × Json S)
  | [] => [(key, value)]
  | f :: fs => if f.1 = key then (key, value) :: fs else f :: putField key value fs

/-- The fields of an object from its members as written: of members with one key the last counts, at
the place of the first. -/
def fieldsOfMembers (members : List (S × Json S)) : List (S × Json S) :=
  members.foldl (fun fields m => putField m.1 m.2 fields) []

end Json

end ContentFilter
