import ContentFilter.Engine.Basic

/-! # The lifecycle of an engine

An engine moves by calls and by what its tasks are resumed with. Every move gives the new state and
what it causes, in order.

* `Effect`: what a move causes.
* `Engine.call`: a new call.
* `Engine.begin`, `Engine.resume`, `Engine.unwind`: a task takes its turn, goes on with a reply, or
  gives up.
-/

set_option autoImplicit false

namespace ContentFilter

/-! ## Moves -/

/-- What a move causes: a task asks for something; a task is made and waits for its turn; a task is
told to give up; a task can go on because another one has ended; a snapshot is published; a caller is
told that the rules are ready; a task ends. -/
inductive Effect (H : Type) where
  | demanded (id : TaskId) (demand : Demand)
  | spawned (id : TaskId)
  | cancelled (id : TaskId)
  | woken (id : TaskId)
  | published (snapshot : Snapshot H) (listeners : List Listener)
  | ready (status : Status)
  | ended (id : TaskId) (ending : Ending)

structure Moved (H : Type) where
  engine : Engine H
  effects : List (Effect H) := []

def Moved.andThen {H : Type} (m : Moved H) (move : Engine H → Moved H) : Moved H :=
  let after := move m.engine
  ⟨after.engine, m.effects ++ after.effects⟩

/-- What an engine can be asked to do: compile the rules of the tables, be switched, end all work in
the background, or refresh at once. -/
inductive Call where
  | compile (notify : Bool)
  | setEnabled (value : Bool)
  | close
  | refresh

namespace Engine

variable {H : Type}

/-! ## Tasks -/

def await (id : TaskId) (task : Task) (e : Engine H) : Engine H :=
  { e with tasks := (id, task) :: e.tasks.filter fun t => t.1 != id }

/-- The tasks that wait for the end of a task. -/
def waitingFor (id : TaskId) (e : Engine H) : List TaskId :=
  e.tasks.filterMap fun t => match t.2 with
    | .closing other => if other = id then some t.1 else none
    | _ => none

def finish (id : TaskId) (ending : Ending) (e : Engine H) : Moved H :=
  { engine := { e with
      tasks := e.tasks.filter fun t => t.1 != id
      cancelled := e.cancelled.filter fun t => t != id
      background := e.background.map fun b => if b.task = id then ⟨id, some ending⟩ else b }
    effects := .ended id ending :: (e.waitingFor id).map .woken }

/-! ## Snapshots and sessions -/

def publish (snapshot : Snapshot H) (e : Engine H) : Moved H :=
  ⟨{ e with snapshot := snapshot }, [.published snapshot e.listeners]⟩

/-- Ends the session, and with it the refresh in the background. -/
def endSession (e : Engine H) : Moved H :=
  let ended := { e with session := e.session + 1, background := none }
  match e.background with
  | some ⟨id, none⟩ => ⟨{ ended with cancelled := id :: e.cancelled }, [.cancelled id]⟩
  | _ => ⟨ended, []⟩

/-- Ends a compilation and tells its caller. -/
def conclude (id : TaskId) (purpose : Purpose) (e : Engine H) : Moved H :=
  match purpose with
  | .call notify =>
    let told : Moved H := ⟨e, if notify then [.ready e.snapshot.status] else []⟩
    told.andThen (finish id (.snapshot e.snapshot.status))
  | .switch => finish id .silent e

/-- Switches off: the session ends and nothing is left in force. -/
def shutDown (e : Engine H) : Moved H := (endSession e).andThen (publish .disabled)

/-! ## Compiling the tables -/

/-- Starts a refresh in the background, unless there is nowhere to look or one is running. -/
def schedule (e : Engine H) : Moved H :=
  if !e.setup.hasCache || e.setup.config.sources.isEmpty || e.coordinator.inFlight then ⟨e, []⟩
  else
    ⟨{ await e.nextTask (.queued e.session) e with
        nextTask := e.nextTask + 1, background := some ⟨e.nextTask, none⟩ },
      [.spawned e.nextTask]⟩

def install (id : TaskId) (purpose : Purpose) (ruleSet : RuleSet) (result : CompileResult H)
    (e : Engine H) : Moved H :=
  let snapshot : Snapshot H :=
    { status := .readyEmbedded, ruleSet := ruleSet, handles := result.handles,
      embeddedCount := result.handles.length }
  (publish snapshot e).andThen fun e => (schedule e).andThen (conclude id purpose)

/-- Has the chunks of a rule set compiled; without any there is nothing to wait for. -/
def submit (id : TaskId) (purpose : Purpose) (ruleSet : RuleSet) (e : Engine H) : Moved H :=
  if ruleSet.embedded.isEmpty then install id purpose ruleSet {} { e with compiling := false }
  else
    ⟨await id (.compiling purpose e.session ruleSet) e,
      [.demanded id (.compile ruleSet.embedded)]⟩

/-- Begins a session by compiling the rules of the tables. A second compilation at the same time is
not begun, and neither is one of an engine that is switched off. -/
def compile (id : TaskId) (purpose : Purpose) (e : Engine H) : Moved H :=
  if !e.enabled then (shutDown e).andThen (conclude id purpose)
  else if e.compiling then conclude id purpose e
  else
    let ruleSet := RuleSet.build e.setup.config e.setup.tables []
    (endSession { e with compiling := true }).andThen fun e =>
      (publish (e.snapshot.withStatus .compiling) e).andThen (submit id purpose ruleSet)

/-- Goes on when the chunks of the tables have settled. If their session has ended they are of no
use; an engine that is switched on then compiles anew. -/
def compiled (id : TaskId) (purpose : Purpose) (session : Nat) (ruleSet : RuleSet)
    (result : CompileResult H) (e : Engine H) : Moved H :=
  let e := { e with compiling := false }
  if session = e.session then install id purpose ruleSet result e
  else if e.enabled then compile id purpose e
  else conclude id purpose e

/-! ## Switching -/

/-- Turns the switch; nothing happens when it is there already. -/
def switch (id : TaskId) (value : Bool) (e : Engine H) : Moved H :=
  if value = e.enabled then finish id .silent e
  else if value then compile id .switch { e with enabled := true }
  else (shutDown { e with enabled := false }).andThen (finish id .silent)

/-! ## Refreshing -/

/-- Appends the handles of downloaded chunks to those of the tables. -/
def enhance (ruleSet : RuleSet) (result : CompileResult H) (e : Engine H) : Moved H :=
  publish {
    status := .readyEnhanced
    ruleSet := ruleSet
    handles := e.snapshot.embeddedHandles ++ result.handles
    embeddedCount := e.snapshot.embeddedCount } e

def accepts (e : Engine H) : Bool := e.enabled && e.snapshot.status.isReady

/-- Ends a refresh. One in the background that had no effect leaves the rules of the tables in
force. -/
def endRefresh (id : TaskId) (session : Option Nat) (outcome : Except Failure Outcome)
    (e : Engine H) : Moved H :=
  match session, outcome with
  | none, .ok o => finish id (.outcome (some o)) e
  | none, .error f => finish id (.failed f) e
  | some s, outcome =>
    let noted : Moved H :=
      if e.isCurrent (some s) then
        let e := { e with lastRefresh := outcome.toOption }
        if e.snapshot.status = .enhancing then publish (e.snapshot.withStatus .readyEmbedded) e
        else ⟨e, []⟩
      else ⟨e, []⟩
    noted.andThen (finish id (.outcome outcome.toOption))

def follow (id : TaskId) (session : Option Nat) (turn : Coordinator.Turn H) (e : Engine H) :
    Moved H :=
  match turn with
  | .waiting demand => ⟨await id (.refreshing session) e, [.demanded id demand]⟩
  | .finished outcome => endRefresh id session (.ok outcome) e
  | .offered ruleSet result outcome =>
    let taken : Moved H := if e.accepts then enhance ruleSet result e else ⟨e, []⟩
    taken.andThen (endRefresh id session (.ok outcome))
  | .failed f => endRefresh id session (.error f) e
  | .unmoved => ⟨e, []⟩

def refresh (id : TaskId) (session : Option Nat) (e : Engine H) : Moved H :=
  let (coordinator, turn) := e.coordinator.call id e.setup.config.sources
  follow id session turn { e with coordinator := coordinator }

/-! ## Closing -/

/-- Ends the session and waits for the refresh in the background to give up. -/
def close (id : TaskId) (e : Engine H) : Moved H :=
  (endSession e).andThen fun after => match e.background with
    | some ⟨other, none⟩ => ⟨await id (.closing other) after, []⟩
    | _ => finish id .silent after

/-! ## Calls and turns -/

/-- A new call; its task gets the next number. -/
def call (c : Call) (e : Engine H) : Moved H :=
  let id := e.nextTask
  let e := { e with nextTask := id + 1 }
  match c with
  | .compile notify => compile id (.call notify) e
  | .setEnabled value =>
    if e.setup.hasStore then ⟨await id (.saving value) e, [.demanded id (.saveEnabled value)]⟩
    else switch id value e
  | .close => close id e
  | .refresh => refresh id none e

def unwind (id : TaskId) (e : Engine H) : Moved H :=
  match e.task? id with
  | none => ⟨e, []⟩
  | some _ => finish id .cancelled { e with coordinator := e.coordinator.drop id }

/-- A task takes its first turn. One that has been told to give up before does nothing. -/
def begin (id : TaskId) (e : Engine H) : Moved H :=
  match e.task? id with
  | some (.queued session) =>
    if e.cancelled.contains id then unwind id e
    else
      (publish (e.snapshot.withStatus .enhancing) e).andThen (refresh id (some session))
  | _ => ⟨e, []⟩

/-- A task goes on with a reply. One that has been told to give up does that instead. -/
def resume (id : TaskId) (reply : Reply H) (e : Engine H) : Moved H :=
  if e.cancelled.contains id then unwind id e
  else match e.task? id, reply with
    | some (.saving value), .saved => switch id value e
    | some (.saving _), .raised f => finish id (.failed f) e
    | some (.compiling purpose session ruleSet), .compiled result =>
      compiled id purpose session ruleSet result e
    | some (.refreshing session), reply =>
      let (coordinator, turn) :=
        e.coordinator.resume (e.isCurrent session) e.accepts id reply
      follow id session turn { e with coordinator := coordinator }
    | _, _ => ⟨e, []⟩

/-- A task goes on because the one that it waited for has ended. -/
def wake (id : TaskId) (e : Engine H) : Moved H :=
  match e.task? id with
  | some (.closing _) => finish id .silent e
  | _ => ⟨e, []⟩

end Engine

end ContentFilter
