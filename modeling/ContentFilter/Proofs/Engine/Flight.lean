import ContentFilter.Proofs.Engine.Standing
import ContentFilter.Proofs.Engine.Turn
import ContentFilter.Proofs.Refresh.Exclusion

/-! # Cycles in flight

The coordinator keeps a flag and the cycles that have not ended, the engine the tasks that wait. A
cycle that has not ended is that of a task which waits for one of its steps; so when the flag is up
there is a refresh that will lower it, in whatever way it ends.

* `Engine.Attended`: every cycle in flight is attended by its task.
* `Engine.Attended.run`: it holds after any moves but those that end or refresh at once.
-/

set_option autoImplicit false

namespace ContentFilter

variable {H : Type}

/-! ## What a cut leaves -/

namespace Coordinator

variable {c : Coordinator} {id : TaskId}

theorem holds_drop {j : TaskId} : (c.drop id).Holds j ↔ j ≠ id ∧ c.Holds j := by
  unfold drop
  split
  next hnone =>
    rw [and_iff_right_of_imp]
    rintro ⟨phase, hphase⟩ rfl
    exact absurd (hnone.symm.trans hphase) nofun
  · exact holds_leave

theorem Sole.drop (h : c.Sole) (id : TaskId) : (c.drop id).Sole := by
  unfold Coordinator.drop
  split
  · exact h
  next phase hphase => exact h.leave ⟨phase, hphase⟩

end Coordinator

namespace Engine

/-! ## Moves that leave the coordinator alone -/

section

variable (e : Engine H) (id : TaskId)

@[simp] theorem schedule_coordinator : (schedule e).engine.coordinator = e.coordinator := by
  unfold schedule
  split <;> rfl

@[simp] theorem conclude_coordinator (purpose : Purpose) :
    (conclude id purpose e).engine.coordinator = e.coordinator := by
  cases purpose <;> rfl

@[simp] theorem install_coordinator (purpose : Purpose) (ruleSet : RuleSet)
    (result : CompileResult H) :
    (install id purpose ruleSet result e).engine.coordinator = e.coordinator := by
  simp [install]

@[simp] theorem submit_coordinator (purpose : Purpose) (ruleSet : RuleSet) :
    (submit id purpose ruleSet e).engine.coordinator = e.coordinator := by
  unfold submit
  split
  · simp
  · rfl

@[simp] theorem compile_coordinator (purpose : Purpose) :
    (compile id purpose e).engine.coordinator = e.coordinator := by
  unfold compile
  split
  · simp [shutDown]
  · split <;> simp

@[simp] theorem compiled_coordinator (purpose : Purpose) (session : Nat) (ruleSet : RuleSet)
    (result : CompileResult H) :
    (compiled id purpose session ruleSet result e).engine.coordinator = e.coordinator := by
  unfold compiled
  dsimp only
  split
  · simp
  · split <;> simp

@[simp] theorem finish_coordinator (ending : Ending) :
    (finish id ending e).engine.coordinator = e.coordinator := rfl

@[simp] theorem switch_coordinator (value : Bool) :
    (switch id value e).engine.coordinator = e.coordinator := by
  unfold switch
  split
  · rfl
  · split <;> simp [shutDown]

@[simp] theorem close_coordinator : (close id e).engine.coordinator = e.coordinator := by
  unfold close
  rw [Moved.andThen_engine]
  split <;> simp [await]

@[simp] theorem endRefresh_coordinator (session : Option Nat)
    (outcome : Except Failure Outcome) :
    (endRefresh id session outcome e).engine.coordinator = e.coordinator := by
  unfold endRefresh
  split
  · rfl
  · rfl
  · rw [Moved.andThen_engine, finish_coordinator]
    split
    · dsimp only
      split <;> rfl
    · rfl

@[simp] theorem follow_coordinator (session : Option Nat) (turn : Coordinator.Turn H) :
    (follow id session turn e).engine.coordinator = e.coordinator := by
  cases turn with
  | offered ruleSet result outcome =>
    rw [follow, Moved.andThen_engine, endRefresh_coordinator]
    split <;> rfl
  | _ => simp [follow, await]

end

/-! ## The invariant -/

/-- There is at most one cycle in flight, as the flag says, and its task waits for one of its
steps. -/
structure Attended (e : Engine H) : Prop where
  sole : e.coordinator.Sole
  waits : ∀ id, e.coordinator.Holds id →
    id < e.nextTask ∧ ∃ session, e.task? id = some (.refreshing session)

section

variable {e e' : Engine H} {id : TaskId}

theorem attended_start (setup : Setup) (enabled : Bool) :
    (start setup enabled : Engine H).Attended where
  sole := Coordinator.sole_start _
  waits := fun _ ⟨_, hphase⟩ => absurd hphase nofun

/-- In the turn of a task no other cycle comes or goes, and its own waits or has ended. -/
theorem Attended.update (h : e.Attended) (hspares : e.Spares id e') (hsole : e'.coordinator.Sole)
    (hothers : ∀ j, j ≠ id → e'.coordinator.Holds j → e.coordinator.Holds j)
    (hself : e'.coordinator.Holds id →
      id < e'.nextTask ∧ ∃ session, e'.task? id = some (.refreshing session)) : e'.Attended := by
  refine ⟨hsole, fun j hj => ?_⟩
  by_cases heq : j = id
  · subst heq
    exact hself hj
  · obtain ⟨hold, session, htask⟩ := h.waits j (hothers j heq hj)
    exact ⟨Nat.lt_of_lt_of_le hold hspares.next, session,
      (hspares.others j heq hold).trans htask⟩

/-- The turn of a task that has no cycle and begins none. -/
theorem Attended.of_spares (h : e.Attended) (hspares : e.Spares id e')
    (hcoordinator : e'.coordinator = e.coordinator) (hidle : ¬ e.coordinator.Holds id) :
    e'.Attended := by
  refine h.update hspares (hcoordinator ▸ h.sole) (fun j _ hj => hcoordinator ▸ hj) fun hj => ?_
  exact absurd (hcoordinator ▸ hj) hidle

theorem Attended.not_holds (h : e.Attended) (hother : ∀ session, e.task? id ≠
    some (.refreshing session)) : ¬ e.coordinator.Holds id := by
  intro hholds
  obtain ⟨-, session, htask⟩ := h.waits id hholds
  exact hother session htask

/-- A task asks for a refresh; it is turned away when another cycle is in flight. -/
theorem Attended.refresh (h : e.Attended) (hidle : ¬ e.coordinator.Holds id)
    (hnumbered : id < e.nextTask) (session : Option Nat) :
    (refresh id session e).engine.Attended := by
  cases hflag : e.coordinator.inFlight with
  | true =>
    refine h.of_spares (spares_refresh e id session) ?_ hidle
    rw [Engine.refresh, Coordinator.call_of_inFlight hflag]
    exact follow_coordinator ..
  | false =>
    have hspares := spares_refresh e id session
    rw [Engine.refresh, Coordinator.call_of_not_inFlight hflag] at hspares ⊢
    refine h.update hspares (h.sole.begin hflag _) (fun j hj hholds => ?_) fun _ => ?_
    · exact (Coordinator.holds_enter.mp hholds).resolve_left hj
    · refine ⟨hnumbered, session, ?_⟩
      exact (task?_await ..).trans (if_pos rfl)

/-- A cycle goes on with a reply, or ends. -/
theorem Attended.resume_cycle (h : e.Attended) (hnumbered : id < e.nextTask)
    (session : Option Nat) (reply : Reply H) :
    let answer := e.coordinator.resume (e.isCurrent session) e.accepts id reply
    (follow id session answer.2 { e with coordinator := answer.1 }).engine.Attended := by
  intro answer
  have hspares : e.Spares id
      (follow id session answer.2 { e with coordinator := answer.1 }).engine := by
    refine Spares.trans ?_ (spares_follow _ id session _)
    exact spares_of_tasks rfl rfl (Nat.le_refl _)
  rcases Coordinator.resume_cases e.coordinator id (e.isCurrent session) e.accepts reply with
    hsame | ⟨hholds, ⟨demand, phase, hwaits⟩ | ⟨turn, hends, hleaves⟩⟩
  · have hunmoved : answer = (e.coordinator, .unmoved) := hsame
    rw [hunmoved]
    exact h
  · have hanswer : answer = (e.coordinator.enter id phase, .waiting demand) := hwaits
    rw [hanswer] at hspares ⊢
    refine h.update hspares (h.sole.enter hholds phase) (fun j hj hholds => ?_) fun _ => ?_
    · exact (Coordinator.holds_enter.mp hholds).resolve_left hj
    · refine ⟨hnumbered, session, ?_⟩
      exact (task?_await ..).trans (if_pos rfl)
  · have hanswer : answer = (e.coordinator.leave id, turn) := hleaves
    rw [hanswer] at hspares ⊢
    refine h.update hspares ?_ (fun j _ hholds => ?_) fun hself => ?_
    · rw [follow_coordinator]
      exact h.sole.leave hholds
    · rw [follow_coordinator] at hholds
      exact (Coordinator.holds_leave.mp hholds).2
    · rw [follow_coordinator] at hself
      exact absurd rfl (Coordinator.holds_leave.mp hself).1

theorem Attended.unwind (h : e.Attended) (id : TaskId) : (unwind id e).engine.Attended := by
  have hspares := spares_unwind e id
  unfold Engine.unwind at hspares ⊢
  split at hspares
  · exact h
  · refine h.update hspares (h.sole.drop id) (fun j _ hholds => ?_) fun hself => ?_
    · exact (Coordinator.holds_drop.mp hholds).2
    · exact absurd rfl (Coordinator.holds_drop.mp hself).1

/-! ## Moves -/

theorem Attended.call (h : e.Attended) (c : Call) : (call c e).engine.Attended := by
  have hidle : ¬ e.coordinator.Holds e.nextTask := fun hholds =>
    Nat.lt_irrefl _ (h.waits _ hholds).1
  have hspares := spares_call e c
  cases c with
  | compile notify => exact h.of_spares hspares (compile_coordinator ..) hidle
  | setEnabled value =>
    refine h.of_spares hspares ?_ hidle
    unfold Engine.call
    dsimp only
    split
    · rfl
    · exact switch_coordinator ..
  | close => exact h.of_spares hspares (close_coordinator ..) hidle
  | refresh =>
    have hnew : e.Spares e.nextTask { e with nextTask := e.nextTask + 1 } :=
      spares_of_tasks rfl rfl (Nat.le_succ _)
    have hattended := h.of_spares hnew rfl hidle
    exact hattended.refresh hidle (Nat.lt_succ_self _) none

theorem Attended.begin (h : e.Attended) (hstanding : e.Standing) :
    (begin id e).engine.Attended := by
  unfold Engine.begin
  split
  next session htask =>
    split
    · exact h.unwind id
    · have hidle := h.not_holds fun session' hentry => absurd (htask.symm.trans hentry) nofun
      have hnumbered := (hstanding.orderly.tells id _ nofun htask).numbered
      have hpublished : (publish (e.snapshot.withStatus .enhancing) e).engine.Attended :=
        h.of_spares (spares_publish e id _) rfl hidle
      exact hpublished.refresh hidle hnumbered (some session)
  · exact h

theorem Attended.resume (h : e.Attended) (hstanding : e.Standing) (reply : Reply H) :
    (resume id reply e).engine.Attended := by
  unfold Engine.resume
  split
  · exact h.unwind id
  · split
    next value htask =>
      refine h.of_spares (spares_switch e id value) (switch_coordinator ..) (h.not_holds ?_)
      exact fun _ hentry => absurd (htask.symm.trans hentry) nofun
    next value f htask =>
      refine h.of_spares (spares_finish e id _) rfl (h.not_holds ?_)
      exact fun _ hentry => absurd (htask.symm.trans hentry) nofun
    next purpose session ruleSet result htask =>
      refine h.of_spares (spares_compiled e id ..) (compiled_coordinator ..) (h.not_holds ?_)
      exact fun _ hentry => absurd (htask.symm.trans hentry) nofun
    next session htask =>
      exact h.resume_cycle (hstanding.orderly.tells id _ nofun htask).numbered session _
    · exact h

theorem Attended.move (h : e.Attended) (hstanding : e.Standing) (mv : Move H) :
    (e.move mv).engine.Attended := by
  have hlisteners : ¬ e.coordinator.Holds e.nextTask := fun hholds =>
    Nat.lt_irrefl _ (h.waits _ hholds).1
  cases mv with
  | call c => exact h.call c
  | begin id => exact h.begin hstanding
  | resume id reply => exact h.resume hstanding reply
  | unwind id =>
    dsimp only [Engine.move]
    split
    · exact h.unwind id
    · exact h
  | wake id =>
    dsimp only [Engine.move, wake]
    split
    next other htask =>
      refine h.of_spares (spares_finish e id _) rfl (h.not_holds ?_)
      exact fun _ hentry => absurd (htask.symm.trans hentry) nofun
    · exact h
  | subscribe name =>
    exact h.of_spares (spares_of_tasks rfl rfl (Nat.le_refl _)) rfl hlisteners
  | unsubscribe ticket =>
    exact h.of_spares (spares_of_tasks rfl rfl (Nat.le_refl _)) rfl hlisteners

theorem Attended.run (h : e.Attended) (hstanding : e.Standing) (hcons : Consistent none e)
    {moves : List (Move H)} (hclose : .call .close ∉ moves) (hrefresh : .call .refresh ∉ moves) :
    (e.run moves).Attended := by
  induction moves generalizing e with
  | nil => exact h
  | cons mv moves ih =>
    rw [List.mem_cons, not_or] at hclose hrefresh
    exact ih (h.move hstanding mv)
      (hstanding.move hcons (Ne.symm hclose.1) (Ne.symm hrefresh.1)) (hcons.move mv) hclose.2
      hrefresh.2

end

end Engine

end ContentFilter
