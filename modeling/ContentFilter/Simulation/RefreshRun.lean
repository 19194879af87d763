import ContentFilter.Simulation.World

/-! # Simulated refreshes

A coordinator in scripted surroundings.

* `RefreshRun`: the state of a simulation.
* `RefreshRun.refresh`, `RefreshRun.cancel`: new calls, and the end of those that are running.
* `RefreshRun.drain`: everything goes on until nothing can.
-/

set_option autoImplicit false

namespace ContentFilter.Simulation

inductive RefreshEnding where
  | outcome (o : Outcome)
  | failed (f : Failure)
  | cancelled

/-- A coordinator in its surroundings. `accepts` tells whether published rules are taken; `running`
holds the calls that have not ended, `ended` those that have since the last step. -/
structure RefreshRun where
  coordinator : Coordinator
  world : World
  accepts : Bool := true
  nextTask : TaskId := 0
  running : List TaskId := []
  ended : List (TaskId × RefreshEnding) := []

namespace RefreshRun

def finish (id : TaskId) (ending : RefreshEnding) (r : RefreshRun) : RefreshRun :=
  { r with running := r.running.filter fun i => i != id, ended := r.ended ++ [(id, ending)] }

def follow (id : TaskId) (turn : Coordinator.Turn Handle) (r : RefreshRun) : RefreshRun :=
  match turn with
  | .waiting demand => { r with world := r.world.serve id demand }
  | .finished o => r.finish id (.outcome o)
  | .offered ruleSet result o =>
    { r with world := r.world.record (.publish ruleSet result) }.finish id (.outcome o)
  | .failed f => r.finish id (.failed f)
  | .unmoved => r

def turn (s : Signal) (r : RefreshRun) : RefreshRun :=
  match s with
  | .reply id reply =>
    let (coordinator, turn) := r.coordinator.resume r.world.current r.accepts id reply
    { r with coordinator := coordinator }.follow id turn
  | .unwind id =>
    if r.running.contains id then
      { r with coordinator := r.coordinator.drop id }.finish id .cancelled
    else r
  | .submit id i => { r with world := r.world.submit id i }
  | .settle id i => { r with world := r.world.settle id i }
  | .begin _ => r
  | .wake _ => r

def drainLimit : Nat := 10000000

def drainFrom : (fuel : Nat) → RefreshRun → RefreshRun
  | 0, r => r
  | fuel + 1, r =>
    match r.world.queue with
    | [] => r
    | s :: rest => drainFrom fuel (turn s { r with world := { r.world with queue := rest } })

def drain (r : RefreshRun) : RefreshRun := drainFrom drainLimit r

def refresh (sources : List Text) (r : RefreshRun) : RefreshRun :=
  let id := r.nextTask
  let (coordinator, turn) := r.coordinator.call id sources
  let r := { r with
    coordinator := coordinator, nextTask := id + 1, running := r.running ++ [id] }
  (r.follow id turn).drain

def cancel (r : RefreshRun) : RefreshRun :=
  (r.running.foldl (fun r id => { r with world := r.world.callOff id }) r).drain

def change (f : World → World) (r : RefreshRun) : RefreshRun := { r with world := f r.world }.drain

def clear (r : RefreshRun) : RefreshRun :=
  { r with world := { r.world with log := [] }, ended := [] }

end RefreshRun

end ContentFilter.Simulation
