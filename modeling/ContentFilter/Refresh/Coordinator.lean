import ContentFilter.Refresh.Cycle

/-! # One cycle at a time

The coordinator runs refresh cycles for any number of callers. A call that comes while a cycle is
running ends at once; a cycle keeps others out until it has ended, in whatever way that happens.

* `Coordinator`: the flag and the cycles that have not ended.
* `Coordinator.call`: a new call.
* `Coordinator.resume`, `Coordinator.drop`: a call goes on with a reply, or is given up.
-/

set_option autoImplicit false

namespace ContentFilter

abbrev TaskId := Nat

/-- Whether a cycle is running, and the phases of the cycles of all calls that have not ended. -/
structure Coordinator where
  plan : Cycle.Plan
  inFlight : Bool := false
  cycles : List (TaskId × Cycle.Phase) := []

namespace Coordinator

variable {H : Type}

/-- How a call goes on: it waits for something, ends with an outcome, ends with an outcome after a
rule set has been offered, fails, or stays as it is. -/
inductive Turn (H : Type) where
  | waiting (demand : Demand)
  | finished (outcome : Outcome)
  | offered (ruleSet : RuleSet) (result : CompileResult H) (outcome : Outcome)
  | failed (failure : Failure)
  | unmoved

def phase? (c : Coordinator) (id : TaskId) : Option Cycle.Phase := c.cycles.lookup id

def enter (c : Coordinator) (id : TaskId) (phase : Cycle.Phase) : Coordinator :=
  { c with cycles := (id, phase) :: c.cycles.filter fun e => e.1 != id }

/-- Ends the cycle of a call, which lets others in. -/
def leave (c : Coordinator) (id : TaskId) : Coordinator :=
  { c with inFlight := false, cycles := c.cycles.filter fun e => e.1 != id }

def call (c : Coordinator) (id : TaskId) (sources : List Text) : Coordinator × Turn H :=
  if c.inFlight then (c, .finished .coalesced)
  else
    let (demand, phase) := Cycle.begin c.plan sources
    ({ c.enter id phase with inFlight := true }, .waiting demand)

def resume (c : Coordinator) (current accepts : Bool) (id : TaskId) (reply : Reply H) :
    Coordinator × Turn H :=
  match c.phase? id with
  | none => (c, .unmoved)
  | some phase => match Cycle.step c.plan current accepts phase reply with
    | .waiting demand phase => (c.enter id phase, .waiting demand)
    | .finished outcome => (c.leave id, .finished outcome)
    | .offered ruleSet result outcome => (c.leave id, .offered ruleSet result outcome)
    | .failed f => (c.leave id, .failed f)
    | .unmoved => (c, .unmoved)

def drop (c : Coordinator) (id : TaskId) : Coordinator :=
  match c.phase? id with
  | none => c
  | some _ => c.leave id

end Coordinator

end ContentFilter
