import ContentFilter.Engine.Counters
import ContentFilter.Simulation.World

/-! # Simulated engines

An engine in scripted surroundings.

* `EngineRun`: the state of a simulation.
* `EngineRun.call`: a new call.
* `EngineRun.drain`: everything goes on until nothing can.
-/

set_option autoImplicit false

namespace ContentFilter.Simulation

/-- An engine in its surroundings, its counters, the tickets of its listeners, and the tasks that have
ended since the last step. -/
structure EngineRun where
  engine : Engine Handle
  world : World
  counters : Counters := {}
  tickets : List (Text × Nat) := []
  ended : List (TaskId × Ending) := []

namespace EngineRun

/-! ## Effects -/

def enact (r : EngineRun) (effect : Effect Handle) : EngineRun :=
  match effect with
  | .demanded id demand => { r with world := r.world.serve id demand }
  | .spawned id => { r with world := r.world.enqueue (.begin id) }
  | .cancelled id => { r with world := r.world.callOff id }
  | .woken id => { r with world := r.world.enqueue (.wake id) }
  | .published snapshot listeners =>
    { r with world :=
        listeners.foldl (fun w l => w.record (.snapshot l.name snapshot)) r.world }
  | .ready status => { r with world := r.world.record (.ready status) }
  | .ended id ending => { r with ended := r.ended ++ [(id, ending)] }

/-- Moves the engine and brings about the effects. -/
def move (m : Engine Handle → Moved Handle) (r : EngineRun) : EngineRun :=
  let moved := m r.engine
  moved.effects.foldl enact { r with engine := moved.engine }

/-! ## Signals -/

def turn (s : Signal) (r : EngineRun) : EngineRun :=
  match s with
  | .begin id => r.move (Engine.begin id)
  | .reply id reply => r.move (Engine.resume id reply)
  | .unwind id => r.move (Engine.unwind id)
  | .wake id => r.move (Engine.wake id)
  | .submit id i => { r with world := r.world.submit id i }
  | .settle id i => { r with world := r.world.settle id i }

/-- The most signals that are followed without a pause. -/
def drainLimit : Nat := 10000000

/-- Follows the signals in the queue until there are none. -/
def drainFrom : (fuel : Nat) → EngineRun → EngineRun
  | 0, r => r
  | fuel + 1, r =>
    match r.world.queue with
    | [] => r
    | s :: rest => drainFrom fuel (turn s { r with world := { r.world with queue := rest } })

/-- Everything goes on until nothing can. -/
def drain (r : EngineRun) : EngineRun := drainFrom drainLimit r

/-! ## Steps -/

/-- A new call, whose task has the number that the engine gives out next. -/
def call (c : Call) (r : EngineRun) : EngineRun := (r.move (Engine.call c)).drain

def change (f : World → World) (r : EngineRun) : EngineRun := { r with world := f r.world }.drain

def subscribe (name : Text) (r : EngineRun) : EngineRun :=
  let (engine, ticket) := r.engine.subscribe name
  { r with engine := engine, tickets := (name, ticket) :: r.tickets }

/-- Takes out the last listener that came with a name. -/
def unsubscribe (name : Text) (r : EngineRun) : EngineRun :=
  match r.tickets.lookup name with
  | some ticket => { r with engine := r.engine.unsubscribe ticket }
  | none => r

/-- Pushes the handles and the scripts to the renderer. -/
def apply (r : EngineRun) : EngineRun :=
  let (handles, scripts) := r.engine.application
  { r with world := r.world.record (.apply handles scripts) }

def evaluates (r : EngineRun) (request : Request) : Bool :=
  RuleList.anyBlocks (r.engine.snapshot.handles.filterMap Handle.rules?) request

/-- Notes that items were blocked; the second part tells whether their place could be told. -/
def note (count : Int) (place : Text) (r : EngineRun) : EngineRun × Bool :=
  let (counters, told) := r.counters.record r.engine.setup.tables.suffixes.split? count place
  ({ r with counters := counters }, told)

def reset (r : EngineRun) : EngineRun := { r with counters := {} }

/-- Forgets what has been logged and has ended. -/
def clear (r : EngineRun) : EngineRun :=
  { r with world := { r.world with log := [] }, ended := [] }

end EngineRun

end ContentFilter.Simulation
