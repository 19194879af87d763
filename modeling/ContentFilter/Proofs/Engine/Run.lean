import ContentFilter.Engine.Lifecycle
import Mathlib.Data.List.Basic
import Mathlib.Tactic.Common

/-! # Runs of an engine

An engine is moved from outside by calls and by what its tasks are resumed with, in any order. Between
two moves every task is suspended.

* `Engine.Move`, `Engine.move`: the moves; `Engine.run`: the engine after some moves.
* `Moved.snapshots`: what a move publishes.
* The parts of an engine that the pieces of a move leave as they are.
-/

set_option autoImplicit false

namespace ContentFilter

variable {H : Type}

/-! ## Moves -/

namespace Engine

/-- What can happen to an engine: a new call; a task takes its first turn, goes on with a reply, gives
up, or goes on because another one has ended; a listener comes or goes. -/
inductive Move (H : Type) where
  | call (c : Call)
  | begin (id : TaskId)
  | resume (id : TaskId) (reply : Reply H)
  | unwind (id : TaskId)
  | wake (id : TaskId)
  | subscribe (name : Text)
  | unsubscribe (ticket : Nat)

/-- What a move does. Only a task that has been told to gives up. -/
def move (e : Engine H) : Move H → Moved H
  | .call c => e.call c
  | .begin id => e.begin id
  | .resume id reply => e.resume id reply
  | .unwind id => if e.cancelled.contains id then e.unwind id else ⟨e, []⟩
  | .wake id => e.wake id
  | .subscribe name => ⟨(e.subscribe name).1, []⟩
  | .unsubscribe ticket => ⟨e.unsubscribe ticket, []⟩

def run (e : Engine H) (moves : List (Move H)) : Engine H :=
  moves.foldl (fun e mv => (e.move mv).engine) e

/-- What every move keeps holds after any number of moves. -/
theorem run_induction {motive : Engine H → Prop} {e : Engine H} (start : motive e)
    (step : ∀ e mv, motive e → motive (e.move mv).engine) (moves : List (Move H)) :
    motive (e.run moves) := by
  induction moves generalizing e with
  | nil => exact start
  | cons mv moves ih => exact ih (step e mv start)

end Engine

/-! ## Tables of tasks -/

theorem lookup_filter_ne {V : Type} (entries : List (TaskId × V)) (id j : TaskId) :
    (entries.filter fun t => t.1 != id).lookup j = if j = id then none else entries.lookup j := by
  induction entries with
  | nil => simp
  | cons entry entries ih =>
    obtain ⟨i, v⟩ := entry
    rw [List.filter_cons, List.lookup_cons]
    by_cases hi : i = id
    · subst hi
      by_cases hj : j = i
      · simpa [hj] using ih
      · have hne : (j == i) = false := by simpa using hj
        simpa [hj, hne] using ih
    · have hkeep : (i != id) = true := by simpa using hi
      rw [if_pos hkeep, List.lookup_cons, ih]
      by_cases hj : j = i
      · simp [hj, hi]
      · have hne : (j == i) = false := by simpa using hj
        simp [hne]

/-! ## Snapshots -/

namespace Moved

def snapshots (m : Moved H) : List (Snapshot H) :=
  m.effects.filterMap fun effect => match effect with
    | .published s _ => some s
    | _ => none

theorem mem_snapshots {m : Moved H} {s : Snapshot H} :
    s ∈ m.snapshots ↔ ∃ ls, Effect.published s ls ∈ m.effects := by
  simp only [snapshots, List.mem_filterMap]
  constructor
  · rintro ⟨effect, hmem, heq⟩
    cases effect <;> simp only [reduceCtorEq, Option.some.injEq] at heq
    subst heq
    exact ⟨_, hmem⟩
  · rintro ⟨ls, hmem⟩
    exact ⟨_, hmem, rfl⟩

@[simp] theorem andThen_engine (m : Moved H) (move : Engine H → Moved H) :
    (m.andThen move).engine = (move m.engine).engine := rfl

@[simp] theorem snapshots_andThen (m : Moved H) (move : Engine H → Moved H) :
    (m.andThen move).snapshots = m.snapshots ++ (move m.engine).snapshots := by
  simp [snapshots, andThen]

@[simp] theorem snapshots_nil (e : Engine H) : (⟨e, []⟩ : Moved H).snapshots = [] := rfl

@[simp] theorem snapshots_demanded (e : Engine H) (id : TaskId) (d : Demand) :
    (⟨e, [.demanded id d]⟩ : Moved H).snapshots = [] := rfl

end Moved

/-! ## The pieces of a move -/

namespace Engine

/-- The refresh in the background, while it runs. -/
def running? (e : Engine H) : Option TaskId :=
  match e.background with
  | some ⟨id, none⟩ => some id
  | _ => none

theorem running?_eq_some {e : Engine H} {id : TaskId} :
    e.running? = some id ↔ e.background = some ⟨id, none⟩ := by
  unfold running?
  split
  next i hrunning => simp [hrunning]
  next hidle => simpa using hidle id

variable (e : Engine H) (id : TaskId)

@[simp] theorem task?_await (task : Task) (j : TaskId) :
    (await id task e).task? j = if j = id then some task else e.task? j := by
  unfold task? await
  by_cases hj : j = id
  · simp [hj]
  · have hne : (j == id) = false := by simpa using hj
    simp [List.lookup_cons, lookup_filter_ne, hj, hne]

@[simp] theorem task?_finish (ending : Ending) (j : TaskId) :
    (finish id ending e).engine.task? j = if j = id then none else e.task? j := by
  simp [task?, finish, lookup_filter_ne]

theorem mem_cancelled_finish (ending : Ending) (j : TaskId) :
    j ∈ (finish id ending e).engine.cancelled ↔ j ∈ e.cancelled ∧ j ≠ id := by
  simp [finish]

@[simp] theorem snapshots_publish (s : Snapshot H) : (publish s e).snapshots = [s] := rfl

@[simp] theorem snapshots_finish (ending : Ending) : (finish id ending e).snapshots = [] := by
  simp [finish, Moved.snapshots]

@[simp] theorem snapshots_endSession : (endSession e).snapshots = [] := by
  unfold endSession
  dsimp only
  split <;> rfl

@[simp] theorem snapshots_schedule : (schedule e).snapshots = [] := by
  unfold schedule
  split <;> rfl

@[simp] theorem snapshots_conclude (purpose : Purpose) :
    (conclude id purpose e).snapshots = [] := by
  unfold conclude
  split
  · rw [Moved.snapshots_andThen, snapshots_finish, List.append_nil]
    split <;> rfl
  · exact snapshots_finish e id _

/-! ## What the pieces leave as it is -/

@[simp] theorem publish_engine (s : Snapshot H) :
    (publish s e).engine = { e with snapshot := s } := rfl

/-- The end of a session calls off the refresh in the background. -/
@[simp] theorem endSession_engine :
    (endSession e).engine = { e with
      session := e.session + 1, background := none
      cancelled := e.running?.toList ++ e.cancelled } := by
  unfold endSession
  dsimp only
  split
  next i hrunning =>
    have hid : e.running? = some i := running?_eq_some.mpr hrunning
    simp [hid]
  next hidle =>
    have hnone : e.running? = none :=
      Option.eq_none_iff_forall_ne_some.mpr fun i hi => hidle i (running?_eq_some.mp hi)
    simp [hnone]

@[simp] theorem schedule_enabled : (schedule e).engine.enabled = e.enabled := by
  unfold schedule
  split <;> rfl

@[simp] theorem schedule_session : (schedule e).engine.session = e.session := by
  unfold schedule
  split <;> rfl

@[simp] theorem schedule_snapshot : (schedule e).engine.snapshot = e.snapshot := by
  unfold schedule
  split <;> rfl

@[simp] theorem schedule_compiling : (schedule e).engine.compiling = e.compiling := by
  unfold schedule
  split <;> rfl

@[simp] theorem conclude_compiling (purpose : Purpose) :
    (conclude id purpose e).engine.compiling = e.compiling := by
  cases purpose <;> rfl

@[simp] theorem conclude_enabled (purpose : Purpose) :
    (conclude id purpose e).engine.enabled = e.enabled := by
  cases purpose <;> rfl

@[simp] theorem conclude_session (purpose : Purpose) :
    (conclude id purpose e).engine.session = e.session := by
  cases purpose <;> rfl

@[simp] theorem conclude_snapshot (purpose : Purpose) :
    (conclude id purpose e).engine.snapshot = e.snapshot := by
  cases purpose <;> rfl

@[simp] theorem finish_enabled (ending : Ending) :
    (finish id ending e).engine.enabled = e.enabled := rfl

@[simp] theorem finish_session (ending : Ending) :
    (finish id ending e).engine.session = e.session := rfl

@[simp] theorem finish_snapshot (ending : Ending) :
    (finish id ending e).engine.snapshot = e.snapshot := rfl

@[simp] theorem install_enabled (purpose : Purpose) (ruleSet : RuleSet) (result : CompileResult H) :
    (install id purpose ruleSet result e).engine.enabled = e.enabled := by
  simp [install]

@[simp] theorem install_session (purpose : Purpose) (ruleSet : RuleSet) (result : CompileResult H) :
    (install id purpose ruleSet result e).engine.session = e.session := by
  simp [install]

@[simp] theorem submit_enabled (purpose : Purpose) (ruleSet : RuleSet) :
    (submit id purpose ruleSet e).engine.enabled = e.enabled := by
  unfold submit
  split
  · simp
  · rfl

@[simp] theorem submit_session (purpose : Purpose) (ruleSet : RuleSet) :
    (submit id purpose ruleSet e).engine.session = e.session := by
  unfold submit
  split
  · simp
  · rfl

@[simp] theorem compile_enabled (purpose : Purpose) :
    (compile id purpose e).engine.enabled = e.enabled := by
  unfold compile
  split
  · simp [shutDown]
  · split <;> simp

@[simp] theorem endRefresh_enabled (session : Option Nat) (outcome : Except Failure Outcome) :
    (endRefresh id session outcome e).engine.enabled = e.enabled := by
  unfold endRefresh
  split
  · rfl
  · rfl
  · rw [Moved.andThen_engine, finish_enabled]
    split
    · dsimp only
      split <;> rfl
    · rfl

@[simp] theorem endRefresh_session (session : Option Nat) (outcome : Except Failure Outcome) :
    (endRefresh id session outcome e).engine.session = e.session := by
  unfold endRefresh
  split
  · rfl
  · rfl
  · rw [Moved.andThen_engine, finish_session]
    split
    · dsimp only
      split <;> rfl
    · rfl

@[simp] theorem follow_enabled (session : Option Nat) (turn : Coordinator.Turn H) :
    (follow id session turn e).engine.enabled = e.enabled := by
  cases turn with
  | offered ruleSet result outcome =>
    rw [follow, Moved.andThen_engine, endRefresh_enabled]
    split <;> rfl
  | _ => simp [follow, await]

@[simp] theorem follow_session (session : Option Nat) (turn : Coordinator.Turn H) :
    (follow id session turn e).engine.session = e.session := by
  cases turn with
  | offered ruleSet result outcome =>
    rw [follow, Moved.andThen_engine, endRefresh_session]
    split <;> rfl
  | _ => simp [follow, await]

@[simp] theorem refresh_enabled (session : Option Nat) :
    (refresh id session e).engine.enabled = e.enabled := by
  simp [refresh]

@[simp] theorem refresh_session (session : Option Nat) :
    (refresh id session e).engine.session = e.session := by
  simp [refresh]

/-! ## A small engine -/

/-- An engine with one rule of its own and one address to look for others. -/
def smallSetup : Setup where
  config := {
    embeddedChunkSize := 200, downloadedChunkSize := 1, minPatternLength := 3
    fetchTimeout := .ofInt 30, maxAttempts := 1, backoffBase := .zero, backoffMax := .zero
    cacheMaxAgeDays := .ofInt 7, cacheKey := "list".toList, sources := ["https://lists/a".toList]
    embeddedChunkSize_pos := by decide
    downloadedChunkSize_pos := by decide
    minPatternLength_pos := by decide
    maxAttempts_pos := by decide }
  tables := {
    filterTexts := ["||ads.example^".toList], blockedDomains := [], pathRecords := []
    hideRecords := [], suffixes := .unknown }
  matcher := ⟨.empty, []⟩
  scripts := []
  hasCache := true
  hasStore := false

end Engine

end ContentFilter
