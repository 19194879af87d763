import ContentFilter.Failure
import ContentFilter.RuleSet.Chunk

/-! # Compile rounds

All chunks of a round are submitted to the backend at once, each by a task of its own, and the round
ends when every one of them has settled. A chunk that fails is left out and stops none of the others.

* `Raised`, `Answer`: what a backend raises, and what it answers for a chunk.
* `Verdict`, `Answer.verdict`: what becomes of one chunk, and by which answer.
* `Round`: the chunks of a round with what has become of them so far.
* `Round.result?`: the result of a round, once every chunk has settled.
-/

set_option autoImplicit false

namespace ContentFilter

namespace Failure

def noHandle : Failure := ⟨"ValueError".toList, "backend returned no handle".toList⟩

/-- The end of an iteration cannot leave a task; this is raised instead. -/
def strayEnd : Failure := ⟨"RuntimeError".toList, "coroutine raised StopIteration".toList⟩

/-- What is left of a cancellation where tasks are joined. -/
def cancelled : Failure := ⟨"CancelledError".toList, []⟩

end Failure

/-! ## Answers -/

/-- What a backend raises: an error, the end of an iteration, or a cancellation of the task that has
submitted the chunk. -/
inductive Raised where
  | error (f : Failure)
  | endOfIteration (f : Failure)
  | cancellation (f : Failure)

/-- The failure with which a task ends when that is raised in it. Only an error stays as it is. -/
def Raised.ending : Raised → Failure
  | error f => f
  | endOfIteration _ => .strayEnd
  | cancellation _ => .cancelled

/-- The answer of a backend for a chunk. -/
inductive Answer (H : Type) where
  | handle (h : H)
  | nothing
  | raised (r : Raised)

/-! ## Results -/

/-- What becomes of a chunk: the backend gives a handle for it, answers without one, or the task that
has submitted it fails. -/
inductive Verdict (H : Type) where
  | handle (h : H)
  | nothing
  | failed (f : Failure)

namespace Verdict

variable {H : Type}

def handle? : Verdict H → Option H
  | handle h => some h
  | _ => none

def failure? : Verdict H → Option Failure
  | handle _ => none
  | nothing => some .noHandle
  | failed f => some f

end Verdict

def Answer.verdict {H : Type} : Answer H → Verdict H
  | handle h => .handle h
  | nothing => .nothing
  | raised r => .failed r.ending

/-- The joined result of a round: the handles of the chunks that compiled, and the names of the
others with a description of what went wrong, both in the order of the chunks. -/
structure CompileResult (H : Type) where
  handles : List H := []
  failures : List (Text × Text) := []

namespace CompileResult

variable {H : Type}

def succeeded (r : CompileResult H) : Nat := r.handles.length

def failed (r : CompileResult H) : Nat := r.failures.length

/-- The result for chunks with what has become of them. -/
def ofVerdicts (verdicts : List (Chunk × Verdict H)) : CompileResult H where
  handles := verdicts.filterMap fun v => v.2.handle?
  failures := verdicts.filterMap fun v => v.2.failure?.map fun f => (v.1.name, f.describe)

end CompileResult

/-! ## Rounds -/

/-- How far a chunk has come. -/
inductive Submission (H : Type) where
  | queued
  | running
  | settled (verdict : Verdict H)

/-- The chunks of a round, in order, with how far each has come. -/
structure Round (H : Type) where
  entries : List (Chunk × Submission H)

namespace Round

variable {H : Type}

/-- The round that is about to submit some chunks. -/
def start (chunks : List Chunk) : Round H := ⟨chunks.map fun c => (c, .queued)⟩

/-- Submits the chunk at a place, unless that has been done. Gives the chunk with the round. -/
def submit? (i : Nat) (r : Round H) : Option (Chunk × Round H) :=
  match r.entries[i]? with
  | some (c, .queued) => some (c, ⟨r.entries.set i (c, .running)⟩)
  | _ => none

/-- The chunk at a place, if the backend is at work on it. -/
def running? (i : Nat) (r : Round H) : Option Chunk :=
  match r.entries[i]? with
  | some (c, .running) => some c
  | _ => none

/-- Settles the chunk at a place, if the backend is at work on it. -/
def settle (i : Nat) (verdict : Verdict H) (r : Round H) : Round H :=
  match r.running? i with
  | some c => ⟨r.entries.set i (c, .settled verdict)⟩
  | none => r

def verdict? : Chunk × Submission H → Option (Chunk × Verdict H)
  | (c, .settled v) => some (c, v)
  | _ => none

/-- The result of a round in which every chunk has settled. -/
def result? (r : Round H) : Option (CompileResult H) :=
  (r.entries.mapM verdict?).map .ofVerdicts

end Round

end ContentFilter
