import ContentFilter.Engine.Lifecycle
import ContentFilter.Refresh.Download

/-! # Scripted surroundings

A simulation answers the demands of tasks from a script: a clock that stands still, a cache in
memory, responses to be given to requests, and a backend whose answers are known. Requests and
compilations can be held up at a gate. What is ready to go on stands in a queue, and everything that
happens is logged.

* `Event`: what is logged.
* `World`: the surroundings; `World.serve` meets a demand.
* `World.submit`, `World.settle`: the chunks of a round.
* `World.open`: what is held up goes on.
-/

set_option autoImplicit false

namespace ContentFilter.Simulation

open Text

/-! ## Backends -/

/-- A handle: the name and the size of a chunk, or a rule list that can decide about requests. -/
inductive Handle where
  | plain (name : Text) (size : Nat)
  | list (rules : RuleList)

namespace Handle

def name : Handle → Text
  | plain n _ => n
  | list l => l.name

def size : Handle → Nat
  | plain _ n => n
  | list l => l.size

def rules? : Handle → Option RuleList
  | plain _ _ => none
  | list l => some l

end Handle

/-- How a backend works: by script, by script and at once, or by compiling regular expressions. -/
inductive BackendKind where
  | scripted
  | immediate
  | regex
  deriving DecidableEq

/-- A backend: the chunks that it refuses, with a reason if there is one, those that it answers
without a handle, and the most rules of a list. -/
structure Backend where
  kind : BackendKind := .scripted
  refused : List (Text × Option Text) := []
  mute : List Text := []
  limit : Int := RuleList.defaultLimit

namespace Backend

def refusal (name : Text) : Option Text → Failure
  | some reason => ⟨"RuleCompileError".toList, name ++ ": ".toList ++ reason⟩
  | none => ⟨"RuntimeError".toList, []⟩

def compileFailure (name : Text) (f : RuleList.Fault) : Failure :=
  match f.limit? with
  | some l => l.toFailure
  | none => ⟨"RuleCompileError".toList, name ++ ": ".toList ++ f.message⟩

def compile (b : Backend) (c : Chunk) : Answer Handle :=
  match b.kind with
  | .regex => match RuleList.compile b.limit c.name c.toText with
    | .ok l => .handle (.list l)
    | .error f => .raised (.error (compileFailure c.name f))
  | _ => match b.refused.lookup c.name with
    | some reason => .raised (.error (refusal c.name reason))
    | none => if b.mute.contains c.name then .nothing else .handle (.plain c.name c.size)

end Backend

/-! ## Events -/

inductive Event where
  | read (key : Text)
  | fetch (url : Text) (timeout : Binary64)
  | sleep (seconds : Binary64)
  | write (key : Text) (size : Nat)
  | compile (name : Text) (size : Nat)
  | publish (ruleSet : RuleSet) (result : CompileResult Handle)
  | snapshot (listener : Text) (snapshot : Snapshot Handle)
  | ready (status : Status)
  | save (value : Bool)
  | apply (handles : List Handle) (scripts : List Script)

def Event.name : Event → Text
  | read _ => "read".toList
  | fetch _ _ => "fetch".toList
  | sleep _ => "sleep".toList
  | write _ _ => "write".toList
  | compile _ _ => "compile".toList
  | publish _ _ => "publish".toList
  | snapshot _ _ => "snapshot".toList
  | ready _ => "on_ready".toList
  | save _ => "save".toList
  | apply _ _ => "apply".toList

/-! ## Signals -/

/-- What stands in the queue: a task takes its first turn, goes on with a reply, gives up, or goes on
because another one has ended; a chunk of its round is submitted, or settles. -/
inductive Signal where
  | begin (id : TaskId)
  | reply (id : TaskId) (reply : Reply Handle)
  | unwind (id : TaskId)
  | wake (id : TaskId)
  | submit (id : TaskId) (index : Nat)
  | settle (id : TaskId) (index : Nat)

/-- The method of the cache that fails. -/
inductive CacheFault where
  | read
  | write
  deriving DecidableEq

/-! ## Worlds -/

/-- The surroundings of a simulation. `fetching` and `compiling` hold what is held up at a closed
gate. `current` is false once the session has ended, which the event `endOn` can bring about after
it has been logged a number of times. -/
structure World where
  clock : Binary64 := .ofInt 1000000
  cache : List (Text × CacheEntry) := []
  cacheFault : Option CacheFault := none
  responses : List (Text × List Response) := []
  backend : Backend := {}
  fetchClosed : Bool := false
  backendClosed : Bool := false
  fetching : List (TaskId × Text × Response) := []
  compiling : List (TaskId × Nat) := []
  rounds : List (TaskId × Round Handle) := []
  queue : List Signal := []
  log : List Event := []
  current : Bool := true
  endOn : Option (Text × Nat) := none

namespace World

/-! ## Logging and queueing -/

/-- Logs an event, which may end the session. -/
def record (ev : Event) (w : World) : World :=
  let w := { w with log := w.log ++ [ev] }
  match w.endOn with
  | none => w
  | some (name, n) =>
    if name != ev.name then w
    else { w with current := w.current && n != 1, endOn := some (name, n - 1) }

def enqueue (s : Signal) (w : World) : World := { w with queue := w.queue ++ [s] }

/-- Replies at once. -/
def answer (id : TaskId) (r : Reply Handle) (w : World) : World :=
  { w with queue := .reply id r :: w.queue }

/-! ## The cache -/

/-- A list for the cache whose age in seconds is given. -/
def agedEntry (w : World) (age : Binary64) (payload : Bytes) : CacheEntry :=
  ⟨w.clock.sub age, payload⟩

def store (key : Text) (entry : CacheEntry) (w : World) : World :=
  { w with cache := w.cache.filter (fun e => e.1 != key) ++ [(key, entry)] }

def cacheFailure : Failure := ⟨"RuntimeError".toList, "cache".toList⟩

/-! ## Responses -/

/-- The response of an address that is not in the script. -/
def unreachable : Response := .transport ⟨"ClientError".toList, "unreachable".toList⟩

/-- The next response of an address; the last one is repeated. -/
def takeResponse (url : Text) (w : World) : Response × World :=
  match w.responses.lookup url with
  | some (r :: s :: rest) =>
    (r, { w with responses := (url, s :: rest) :: w.responses.filter fun e => e.1 != url })
  | some [r] => (r, w)
  | _ => (unreachable, w)

/-- What a request gives its task. -/
def replyOf (url : Text) (r : Response) : Reply Handle :=
  match r.content url with
  | .ok payload => .fetched payload
  | .error f => .raised f.toFailure

/-! ## Rounds -/

def keepRound (id : TaskId) (r : Round Handle) (w : World) : World :=
  { w with rounds := (id, r) :: w.rounds.filter fun e => e.1 != id }

/-- Settles a chunk. After the last one the task of the round can go on. -/
def settle (id : TaskId) (i : Nat) (w : World) : World :=
  match w.rounds.lookup id with
  | none => w
  | some r => match r.running? i with
    | none => w
    | some c =>
      let r := r.settle i (w.backend.compile c).verdict
      match r.result? with
      | none => w.keepRound id r
      | some result =>
        { w with rounds := w.rounds.filter fun e => e.1 != id }.enqueue
          (.reply id (.compiled result))

/-- Submits a chunk, which may be held up. -/
def submit (id : TaskId) (i : Nat) (w : World) : World :=
  match (w.rounds.lookup id).bind fun r => r.submit? i with
  | none => w
  | some (c, r) =>
    let w := (w.keepRound id r).record (.compile c.name c.size)
    if w.backendClosed && w.backend.kind != .immediate then
      { w with compiling := w.compiling ++ [(id, i)] }
    else w.settle id i

/-! ## Demands -/

def serve (id : TaskId) (d : Demand) (w : World) : World :=
  match d with
  | .readCache key =>
    let w := w.record (.read key)
    w.answer id
      (if w.cacheFault = some .read then .raised cacheFailure
      else .cached (w.cache.lookup key) w.clock)
  | .fetch url timeout =>
    let (r, w) := (w.record (.fetch url timeout)).takeResponse url
    if w.fetchClosed then { w with fetching := w.fetching ++ [(id, url, r)] }
    else w.answer id (replyOf url r)
  | .sleep seconds => (w.record (.sleep seconds)).answer id .slept
  | .writeCache key payload =>
    let w := w.record (.write key payload.length)
    if w.cacheFault = some .write then w.answer id (.raised cacheFailure)
    else (w.store key ⟨w.clock, payload⟩).answer id .written
  | .compile chunks =>
    (List.range chunks.length).foldl (fun w i => w.enqueue (.submit id i))
      (w.keepRound id (.start chunks))
  | .saveEnabled value => (w.record (.save value)).answer id .saved

/-- Tells a task to give up: what it waits for is called off. -/
def callOff (id : TaskId) (w : World) : World :=
  { w with
    rounds := w.rounds.filter fun e => e.1 != id
    fetching := w.fetching.filter fun e => e.1 != id
    compiling := w.compiling.filter fun e => e.1 != id }.enqueue (.unwind id)

/-! ## Gates -/

inductive Gate where
  | fetch
  | backend
  deriving DecidableEq

def close (g : Gate) (w : World) : World :=
  match g with
  | .fetch => { w with fetchClosed := true }
  | .backend => { w with backendClosed := true }

/-- Opens a gate; what it has held up goes on in the order in which it came. -/
def «open» (g : Gate) (w : World) : World :=
  match g with
  | .fetch =>
    w.fetching.foldl (fun w f => w.enqueue (.reply f.1 (replyOf f.2.1 f.2.2)))
      { w with fetchClosed := false, fetching := [] }
  | .backend =>
    w.compiling.foldl (fun w c => w.enqueue (.settle c.1 c.2))
      { w with backendClosed := false, compiling := [] }

/-! ## Single rounds -/

def compileAll (chunks : List Chunk) (w : World) : World × CompileResult Handle :=
  let w := (List.range chunks.length).foldl (fun w i => w.submit 0 i)
    (w.keepRound 0 (.start chunks))
  match w.queue with
  | .reply _ (.compiled result) :: rest => ({ w with queue := rest }, result)
  | _ => (w, {})

end World

end ContentFilter.Simulation
