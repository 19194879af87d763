import ContentFilter.Matcher
import ContentFilter.Refresh.Coordinator
import ContentFilter.RuleList.Basic
import ContentFilter.Script

/-! # The engine

The engine compiles the rules of the tables at the start and adds those of a downloaded list in the
background. All that a consumer may read lies in one snapshot, which is replaced as a whole.

* `Status`, `Snapshot`: the lifecycle, and what consumers read.
* `Task`: what a call or the background refresh waits for.
* `Engine`: the state, with what can be read off it.
-/

set_option autoImplicit false

namespace ContentFilter

open Text

/-! ## Snapshots -/

/-- Where an engine is in its lifecycle. -/
inductive Status where
  | disabled
  | compiling
  | readyEmbedded
  | enhancing
  | readyEnhanced
  deriving DecidableEq, Repr

namespace Status

def name : Status → Text
  | disabled => "disabled".toList
  | compiling => "compiling".toList
  | readyEmbedded => "ready-embedded".toList
  | enhancing => "enhancing".toList
  | readyEnhanced => "ready-enhanced".toList

def all : List Status := [disabled, compiling, readyEmbedded, enhancing, readyEnhanced]

/-- Whether compiled rules are in force. -/
def isReady : Status → Bool
  | disabled => false
  | compiling => false
  | _ => true

end Status

/-- What consumers read: the status, the rule set, and the handles of its chunks, those of the tables
first. -/
structure Snapshot (H : Type) where
  status : Status
  ruleSet : RuleSet := .empty
  handles : List H := []
  embeddedCount : Nat := 0

namespace Snapshot

variable {H : Type}

def disabled : Snapshot H := { status := .disabled }

def embeddedHandles (s : Snapshot H) : List H := s.handles.take s.embeddedCount

def downloadedHandles (s : Snapshot H) : List H := s.handles.drop s.embeddedCount

def withStatus (s : Snapshot H) (status : Status) : Snapshot H := { s with status := status }

end Snapshot

/-! ## Tasks -/

/-- Who waits for a compilation: a call, which may want to be told when the rules are ready, or the
switch. -/
inductive Purpose where
  | call (notify : Bool)
  | switch
  deriving DecidableEq

/-- What a task waits for: the switch to be saved, the chunks of the tables to be compiled, its turn,
a step of its refresh cycle, or the end of another task. A refresh in the background belongs to a
session. -/
inductive Task where
  | saving (value : Bool)
  | compiling (purpose : Purpose) (session : Nat) (ruleSet : RuleSet)
  | queued (session : Nat)
  | refreshing (session : Option Nat)
  | closing (other : TaskId)

inductive Ending where
  | snapshot (status : Status)
  | silent
  | outcome (result : Option Outcome)
  | failed (failure : Failure)
  | cancelled

/-- The refresh in the background: its task, and how that ended. -/
structure Background where
  task : TaskId
  ending : Option Ending := none

/-! ## Engines -/

structure Setup where
  config : Config
  tables : Tables
  matcher : Matcher
  scripts : List Script
  hasCache : Bool
  hasStore : Bool

/-- One who is told of every snapshot, known by a number. -/
structure Listener where
  ticket : Nat
  name : Text
  deriving DecidableEq

/-- The state of an engine. A session ends when the number changes; `cancelled` holds the tasks that
have been told to give up. -/
structure Engine (H : Type) where
  setup : Setup
  enabled : Bool
  snapshot : Snapshot H
  session : Nat
  compiling : Bool
  background : Option Background
  coordinator : Coordinator
  tasks : List (TaskId × Task)
  cancelled : List TaskId
  nextTask : TaskId
  listeners : List Listener
  nextTicket : Nat
  lastRefresh : Option Outcome

namespace Engine

variable {H : Type}

def start (setup : Setup) (enabled : Bool) : Engine H where
  setup := setup
  enabled := enabled
  snapshot := .disabled
  session := 0
  compiling := false
  background := none
  coordinator := { plan := ⟨setup.config, setup.tables⟩ }
  tasks := []
  cancelled := []
  nextTask := 0
  listeners := []
  nextTicket := 0
  lastRefresh := none

def task? (e : Engine H) (id : TaskId) : Option Task := e.tasks.lookup id

/-- Whether a session lasts: the engine is switched on, and no other session has begun. A call from
outside is bound to none. -/
def isCurrent (e : Engine H) : Option Nat → Bool
  | none => true
  | some session => e.enabled && e.session = session

/-! ## Reading -/

/-- A line that tells users what protects them. -/
def statusLine (e : Engine H) : Text :=
  if !e.enabled || e.snapshot.status = .disabled then "Disabled".toList
  else if e.snapshot.status = .compiling then "Compiling rules...".toList
  else
    let groups := ofNat e.snapshot.handles.length
    match e.snapshot.ruleSet.provenance with
    | .enhanced =>
      ofNat e.snapshot.ruleSet.total ++ " rules active (".toList ++ groups ++ " groups)".toList
    | .embeddedOnly => groups ++ " rule groups active".toList

/-- What is pushed to the renderer: the handles and the scripts, nothing when switched off. -/
def application (e : Engine H) : List H × List Script :=
  if e.enabled then (e.snapshot.handles, e.setup.scripts) else ([], [])

/-- Whether a navigation is blocked; this needs no compiled rules. -/
def blocksUrl (e : Engine H) (url : Text) : Bool := e.enabled && e.setup.matcher.blocksUrl url

/-! ## Listeners -/

def subscribe (e : Engine H) (name : Text) : Engine H × Nat :=
  ({ e with
      listeners := e.listeners ++ [⟨e.nextTicket, name⟩], nextTicket := e.nextTicket + 1 },
    e.nextTicket)

def unsubscribe (e : Engine H) (ticket : Nat) : Engine H :=
  { e with listeners := e.listeners.filter fun l => l.ticket != ticket }

end Engine

end ContentFilter
