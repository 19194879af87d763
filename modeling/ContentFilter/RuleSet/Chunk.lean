import ContentFilter.Record.Wire

/-! # Chunks

Records are handed to a backend in chunks: consecutive slices of bounded size, each with a name of
its own.

* `slices`: a list cut into consecutive parts of a given size, the last of which may be shorter.
* `Chunk.cut`: the chunks of a list of records, named by a common stem and their number.
* `Chunk.cut?`: the same for a size that may be out of range.
-/

set_option autoImplicit false

namespace ContentFilter

open Text

/-- The first parts of `size` items of a list, at most as many as the fuel allows. -/
def slicesFrom {α : Type} (size : Nat) : (fuel : Nat) → List α → List (List α)
  | 0, _ => []
  | _ + 1, [] => []
  | fuel + 1, x :: xs => (x :: xs).take size :: slicesFrom size fuel ((x :: xs).drop size)

/-- A list cut into consecutive parts of a positive size; the last part may be shorter. -/
def slices {α : Type} (size : Nat) (l : List α) : List (List α) := slicesFrom size l.length l

structure Chunk where
  name : Text
  records : List Record
  deriving DecidableEq

namespace Chunk

def size (c : Chunk) : Nat := c.records.length

/-- The records as compact JSON. -/
def toText (c : Chunk) : Text := Record.listToText c.records

def nameOf (stem : Text) (i : Nat) : Text := stem ++ '_' :: ofNat i

/-- The chunks of a list of records. -/
def cut (stem : Text) (size : Nat) (records : List Record) : List Chunk :=
  (slices size records).mapIdx fun i rs => ⟨nameOf stem i, rs⟩

/-- A size below one, with which nothing can be cut. -/
structure SizeFault where
  size : Int
  deriving DecidableEq

def SizeFault.message (f : SizeFault) : Text := "max_size must be >= 1, got ".toList ++ ofInt f.size

def cut? (stem : Text) (size : Int) (records : List Record) : Except SizeFault (List Chunk) :=
  if size < 1 then .error ⟨size⟩ else .ok (cut stem size.toNat records)

end Chunk

end ContentFilter
