import ContentFilter.Refresh.Demand
import ContentFilter.Storage.FileTree

/-! # The cache in files

Every list in the cache is a file of one folder, named for its key; the time of its last change
counts as the time when it was fetched. A list is first written to a file beside it, which is then
moved into place, so that no half of a list is ever read.

* `CacheFiles.pathFor`: the path for a key.
* `CacheFiles.read?`, `CacheFiles.write`: the list for a key.
-/

set_option autoImplicit false

namespace ContentFilter.CacheFiles

open Text

def folder : Text := "cache".toList

/-- The characters that may stand in the name of a file. -/
def isSafe (c : Char) : Bool := c.isAlphanum || c = '.' || c = '_' || c = '-'

/-- A key as a name; every other character becomes an underscore. -/
def sanitize (key : Text) : Text := key.map fun c => if isSafe c then c else '_'

/-- The path for a key. An empty name and a dot stand for the folder itself. -/
def pathFor (key : Text) : Path :=
  let name := sanitize key
  if name.isEmpty || name = ['.'] then [folder] else [folder, name]

def written (key : Text) : Text := join ['/'] (pathFor key)

def besidePath (key : Text) : Path :=
  let p := pathFor key
  p.dropLast ++ [p.getLast?.getD [] ++ ".tmp".toList]

def read? (t : FileTree) (key : Text) : Option CacheEntry :=
  match t.file (pathFor key) with
  | .ok (content, modified) => some ⟨modified.toSeconds, content⟩
  | .error _ => none

/-- Writes the list for a key, as far as that is possible. -/
def write (t : FileTree) (key : Text) (payload : Bytes) (now : Timestamp) : FileTree.Changed :=
  (t.ensureFolder [folder]).andThen fun t =>
    (t.attempt fun t => t.writeFile (besidePath key) payload now).andThen fun t =>
      t.attempt fun t => t.move (besidePath key) (pathFor key)

end ContentFilter.CacheFiles
