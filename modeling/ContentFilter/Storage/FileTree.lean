import ContentFilter.SortedSet
import ContentFilter.Storage.Timestamp
import ContentFilter.Text.Utf8

/-! # File trees

A file tree holds folders and files below a root. A path is a list of names to follow from the root,
where two dots lead back to the folder above; the root itself has the empty path and is a folder.

* `FileTree`: the type, with `FileTree.node?`.
* `FileTree.locate`: the place that a path leads to.
* `FileTree.file`: the content of a file.
* `FileTree.makeOne`, `FileTree.writeFile`, `FileTree.move`, `FileTree.touch`: changes that happen or
  do not.
* `FileTree.makeFolder`, `FileTree.ensureFolder`, `FileTree.putFile`: changes that can come to an end
  part of the way, with `FileTree.Changed` for what has become of the tree.
* `FileTree.listing`: every path, in order.
-/

set_option autoImplicit false

namespace ContentFilter

open Text

/-! ## Types -/

/-- The names to follow from the root. -/
abbrev Path := List Text

/-- The path that is written with slashes; nothing and a single dot between two of them lead
nowhere. -/
def Path.ofText (t : Text) : Path := (split '/' t).filter fun n => !n.isEmpty && n != ['.']

/-- A folder, or a file with its content and the time of its last change. -/
inductive FileNode where
  | folder
  | file (content : Bytes) (modified : Timestamp)
  deriving DecidableEq

/-- The folders and files below a root, each with the names on the way to it. -/
structure FileTree where
  nodes : List (Path × FileNode) := []
  deriving DecidableEq

/-- Why nothing can be done at a path: nothing is there; a folder is there and no file; a file is on
the way; something is there already; the path or one of its names is too long; a name has a
character in it that no name can have. -/
inductive FileFault where
  | missing
  | isFolder
  | notFolder
  | occupied
  | nameTooLong
  | badName
  deriving DecidableEq, Repr

namespace FileTree

/-! ## Places -/

def node? (t : FileTree) (place : Path) : Option FileNode :=
  if place.isEmpty then some .folder else t.nodes.lookup place

/-- The longest name has this many bytes. -/
def longestName : Nat := 255

/-- The longest path, written with slashes, has this many bytes. A file system takes 4095 of them, and
those that lead to the root count too, so the number depends on where the tree stands: this one is for
a root sixteen bytes down, as the runs have it. Names below a folder of the root come nowhere near
it. -/
def longestPath : Nat := 4078

def above : Text := ['.', '.']

/-- The place to which names lead from a place; only folders can be passed through. What the last
name leads to need not be there. -/
def follow (t : FileTree) : (place : Path) → (names : Path) → Except FileFault Path
  | place, [] => .ok place
  | place, name :: names =>
    match t.node? place with
    | none => .error .missing
    | some (.file _ _) => .error .notFolder
    | some .folder =>
      if longestName < (encodeUtf8 name).length then .error .nameTooLong
      else if name = above then t.follow place.dropLast names
      else t.follow (place ++ [name]) names

def locate (t : FileTree) (p : Path) : Except FileFault Path :=
  if p.any fun name => name.contains '\x00' then .error .badName
  else if longestPath < (encodeUtf8 (join ['/'] p)).length then .error .nameTooLong
  else t.follow [] p

def isFolder (t : FileTree) (p : Path) : Bool :=
  match t.locate p with
  | .ok place => t.node? place = some .folder
  | .error _ => false

/-- The content of the file to which a path leads, and the time of its last change. -/
def file (t : FileTree) (p : Path) : Except FileFault (Bytes × Timestamp) := do
  match t.node? (← t.locate p) with
  | some (.file content modified) => .ok (content, modified)
  | some .folder => .error .isFolder
  | none => .error .missing

/-! ## Changes that happen or do not -/

/-- Puts something at a place, instead of what is there. -/
def put (t : FileTree) (place : Path) (n : FileNode) : FileTree :=
  ⟨(place, n) :: t.nodes.filter fun e => e.1 != place⟩

def remove (t : FileTree) (place : Path) : FileTree := ⟨t.nodes.filter fun e => e.1 != place⟩

/-- The place to which a path leads, if a file can be put there. -/
def placeForFile (t : FileTree) (p : Path) : Except FileFault Path := do
  let place ← t.locate p
  if t.node? place = some .folder then .error .isFolder else .ok place

/-- Makes a folder where there is nothing. -/
def makeOne (t : FileTree) (p : Path) : Except FileFault FileTree := do
  let place ← t.locate p
  match t.node? place with
  | some _ => .error .occupied
  | none => .ok (t.put place .folder)

def writeFile (t : FileTree) (p : Path) (content : Bytes) (now : Timestamp) :
    Except FileFault FileTree := do
  .ok (t.put (← t.placeForFile p) (.file content now))

/-- Moves a file to another path, in place of the file that is there. -/
def move (t : FileTree) (source target : Path) : Except FileFault FileTree := do
  let (content, modified) ← t.file source
  let origin ← t.locate source
  let place ← t.placeForFile target
  .ok ((t.remove origin).put place (.file content modified))

/-- Sets the time of the last change, as nearly as it can be kept. -/
def touch (t : FileTree) (p : Path) (time : Timestamp) : Except FileFault FileTree := do
  let place ← t.locate p
  match t.node? place with
  | some (.file content _) => .ok (t.put place (.file content time.clamp))
  | some .folder => .ok t
  | none => .error .missing

/-! ## Changes that can end part of the way -/

/-- A tree after a change, and why the change came to an end before its time, if it did. What had been
changed by then stays. -/
structure Changed where
  tree : FileTree
  fault : Option FileFault := none
  deriving DecidableEq

namespace Changed

/-- Whether the change came to its own end. -/
def done (c : Changed) : Bool := c.fault.isNone

def andThen (c : Changed) (change : FileTree → Changed) : Changed :=
  match c.fault with
  | none => change c.tree
  | some _ => c

/-- A change that was to bring about a folder; one that has been there already is as good. -/
def orFolder (c : Changed) (p : Path) : Changed := if c.tree.isFolder p then ⟨c.tree, none⟩ else c

end Changed

/-- A change that happens or does not. -/
def attempt (t : FileTree) (change : FileTree → Except FileFault FileTree) : Changed :=
  match change t with
  | .ok t => ⟨t, none⟩
  | .error f => ⟨t, some f⟩

/-- Makes the folder to which the first `n` names of a path lead. Where that cannot be because
something on the way is missing, the folders on the way are made first. -/
def makeAlong (p : Path) : (n : Nat) → FileTree → Changed
  | 0, t => ⟨t, some .occupied⟩
  | n + 1, t =>
    let change := fun t : FileTree => t.makeOne (p.take (n + 1))
    match change t with
    | .error .missing => ((makeAlong p n t).orFolder (p.take n)).andThen fun t => t.attempt change
    | _ => t.attempt change

/-- Makes a folder, and before it those on the way. -/
def makeFolder (t : FileTree) (p : Path) : Changed := makeAlong p p.length t

/-- Makes a folder, and before it those on the way, unless it is there. -/
def ensureFolder (t : FileTree) (p : Path) : Changed := (t.makeFolder p).orFolder p

/-- Writes a file, and before that makes the folders on the way. -/
def putFile (t : FileTree) (p : Path) (content : Bytes) (now : Timestamp) : Changed :=
  (t.ensureFolder p.dropLast).andThen fun t => t.attempt fun t => t.writeFile p content now

/-! ## Listing -/

/-- A place as it is written; a folder ends in a slash. -/
def written (e : Path × FileNode) : Text :=
  join ['/'] e.1 ++ (if e.2 = .folder then ['/'] else [])

def listing (t : FileTree) : List Text := (SortedSet.ofList (t.nodes.map written)).toList

end FileTree

end ContentFilter
