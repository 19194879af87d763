import ContentFilter.Text.Basic

/-! # Failures

What is reported when something fails: a kind, and a description that can be empty.

* `Failure`: the type.
* `Failure.describe`: what is shown of a failure.
-/

set_option autoImplicit false

namespace ContentFilter

/-- What is reported when something fails: a kind, and a description that can be empty. -/
structure Failure where
  kind : Text
  message : Text
  deriving DecidableEq

/-- The description of a failure, or its kind if there is none. -/
def Failure.describe (f : Failure) : Text := if f.message.isEmpty then f.kind else f.message

end ContentFilter
