import ContentFilter.Compile.Round
import ContentFilter.Number.Binary64

/-! # What tasks wait for

A task that needs something from its surroundings states a demand and is resumed with the reply.

* `Demand`: what can be asked for.
* `Reply`: what can come back.
-/

set_option autoImplicit false

namespace ContentFilter

/-- A list in the cache, and when it was fetched, in seconds. -/
structure CacheEntry where
  fetchedAt : Binary64
  payload : Bytes
  deriving DecidableEq

inductive Demand where
  | readCache (key : Text)
  | fetch (url : Text) (timeout : Binary64)
  | sleep (seconds : Binary64)
  | writeCache (key : Text) (payload : Bytes)
  | compile (chunks : List Chunk)
  | saveEnabled (value : Bool)

/-- What can come back. A cache read comes with the present time; every demand can be answered by a
failure. -/
inductive Reply (H : Type) where
  | cached (entry : Option CacheEntry) (now : Binary64)
  | fetched (payload : Bytes)
  | slept
  | written
  | compiled (result : CompileResult H)
  | saved
  | raised (failure : Failure)

end ContentFilter
