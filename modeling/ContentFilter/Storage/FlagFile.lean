import ContentFilter.Json.Parser
import ContentFilter.Json.Printer
import ContentFilter.Storage.FileTree

/-! # The switch in a file

Whether the engine is switched on is kept in a JSON file, whose other fields are left as they are.
A file that is not there or holds no JSON object counts as an empty object. Since what is read is
written again, names and values in the file are any Unicode strings.

* `FlagFile.Fault`: why a file is not read.
* `FlagFile.load`: what the file says.
* `FlagFile.save`: writes it, by way of a file beside it.
-/

set_option autoImplicit false

namespace ContentFilter.FlagFile

open Text

def folder : Text := "state".toList

def path : Path := [folder, "state.json".toList]

def besidePath : Path := [folder, "state.tmp".toList]

def key : Utf16 := UnicodeString.ofText "adBlockEnabled".toList

/-- Why a file is not read: it is not UTF-8, or it goes beyond a limit of the reader of JSON. -/
inductive Fault where
  | notUtf8
  | beyond (limit : Limit)
  deriving DecidableEq, Repr

def fieldsOf (t : Text) : Except Fault (List (Utf16 × Json Utf16)) :=
  match Json.parse t (S := Utf16) with
  | .ok (.object fields) => .ok fields
  | .error (.beyond l) => .error (.beyond l)
  | _ => .ok []

def fields (t : FileTree) : Except Fault (List (Utf16 × Json Utf16)) :=
  match t.file path with
  | .error _ => .ok []
  | .ok (content, _) => match decodeUtf8? content with
    | some text => fieldsOf text
    | none => .error .notUtf8

/-- What the file says, or the default where it says nothing. -/
def load (t : FileTree) (default : Bool) : Except Fault Bool := do
  match (← fields t).lookup key with
  | some (.bool b) => .ok b
  | _ => .ok default

def contentOf (fields : List (Utf16 × Json Utf16)) : Bytes :=
  encodeUtf8 (Json.write .indented 0 (.object fields))

/-- Writes the switch, as far as that is possible. -/
def save (t : FileTree) (value : Bool) (now : Timestamp) : Except Fault FileTree.Changed := do
  let content := contentOf (Json.putField key (.bool value) (← fields t))
  .ok ((t.ensureFolder [folder]).andThen fun t =>
    (t.attempt fun t => t.writeFile besidePath content now).andThen fun t =>
      t.attempt fun t => t.move besidePath path)

end ContentFilter.FlagFile
