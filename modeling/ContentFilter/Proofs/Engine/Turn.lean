import ContentFilter.Proofs.Engine.Run

/-! # Turns

A move is the turn of one task, or of none when a listener comes or goes. It changes the entry of
that task and makes new ones, and it leaves those of all other tasks as they are. What becomes of a
task is therefore settled in its own turns.

* `Engine.owner?`, `Engine.turnsOf`: whose turn a move is, and the turns of a task.
* `Engine.Spares`: only the entry of one task and new ones change.
* `Engine.spares_move`: a move spares the other tasks.
* `Engine.Gone`: a task that has ended has no more turns to speak of.
-/

set_option autoImplicit false

namespace ContentFilter

variable {H : Type}

namespace Engine

/-! ## Whose turn it is -/

/-- The task whose turn a move is; a call is the first turn of a new one. -/
def owner? (e : Engine H) : Move H → Option TaskId
  | .call _ => some e.nextTask
  | .begin id => some id
  | .resume id _ => some id
  | .unwind id => some id
  | .wake id => some id
  | .subscribe _ => none
  | .unsubscribe _ => none

/-- The turns of a task among some moves, in order. -/
def turnsOf (id : TaskId) : Engine H → List (Move H) → List (Moved H)
  | _, [] => []
  | e, mv :: moves =>
    (if e.owner? mv = some id then [e.move mv] else []) ++ turnsOf id (e.move mv).engine moves

section

variable {e : Engine H} {id : TaskId} {mv : Move H} (moves : List (Move H))

theorem turnsOf_cons_self (howner : e.owner? mv = some id) :
    e.turnsOf id (mv :: moves) = e.move mv :: (e.move mv).engine.turnsOf id moves := by
  rw [turnsOf, if_pos howner, List.singleton_append]

theorem turnsOf_cons_other (howner : e.owner? mv ≠ some id) :
    e.turnsOf id (mv :: moves) = (e.move mv).engine.turnsOf id moves := by
  rw [turnsOf, if_neg howner, List.nil_append]

end

/-! ## What a move spares -/

/-- From one engine to the other only the entry of a task changes, and new ones are made. -/
structure Spares (e : Engine H) (id : TaskId) (e' : Engine H) : Prop where
  setup : e'.setup = e.setup
  next : e.nextTask ≤ e'.nextTask
  others : ∀ j, j ≠ id → j < e.nextTask → e'.task? j = e.task? j

section

variable {e e' e'' : Engine H} {id : TaskId}

theorem Spares.trans (h : e.Spares id e') (h' : e'.Spares id e'') : e.Spares id e'' := by
  refine ⟨h'.setup.trans h.setup, Nat.le_trans h.next h'.next, fun j hj hold => ?_⟩
  rw [h'.others j hj (Nat.lt_of_lt_of_le hold h.next), h.others j hj hold]

theorem spares_of_tasks (hsetup : e'.setup = e.setup) (htasks : e'.tasks = e.tasks)
    (hnext : e.nextTask ≤ e'.nextTask) : e.Spares id e' :=
  ⟨hsetup, hnext, fun j _ _ => by simp only [task?, htasks]⟩

/-! ### The pieces -/

variable (e id)

theorem spares_finish (ending : Ending) : e.Spares id (finish id ending e).engine :=
  ⟨rfl, Nat.le_refl _, fun j hj _ => by rw [task?_finish, if_neg hj]⟩

theorem spares_await (task : Task) : e.Spares id (await id task e) :=
  ⟨rfl, Nat.le_refl _, fun j hj _ => by rw [task?_await, if_neg hj]⟩

theorem spares_publish (s : Snapshot H) : e.Spares id (publish s e).engine :=
  spares_of_tasks rfl rfl (Nat.le_refl _)

theorem spares_endSession : e.Spares id (endSession e).engine :=
  spares_of_tasks (by rw [endSession_engine]) (by rw [endSession_engine]) (by simp)

theorem spares_shutDown : e.Spares id (shutDown e).engine :=
  (spares_endSession e id).trans (spares_publish _ id _)

theorem spares_conclude (purpose : Purpose) : e.Spares id (conclude id purpose e).engine := by
  cases purpose with
  | call notify => exact spares_finish e id _
  | switch => exact spares_finish e id _

/-- The entry of a refresh that is scheduled is a new one. -/
theorem spares_schedule : e.Spares id (schedule e).engine := by
  unfold schedule
  split
  · exact spares_of_tasks rfl rfl (Nat.le_refl _)
  · refine ⟨rfl, Nat.le_succ _, fun j _ hold => ?_⟩
    exact (task?_await e e.nextTask _ j).trans (if_neg (Nat.ne_of_lt hold))

theorem spares_install (purpose : Purpose) (ruleSet : RuleSet) (result : CompileResult H) :
    e.Spares id (install id purpose ruleSet result e).engine :=
  (spares_publish e id _).trans ((spares_schedule _ id).trans (spares_conclude _ id purpose))

theorem spares_submit (purpose : Purpose) (ruleSet : RuleSet) :
    e.Spares id (submit id purpose ruleSet e).engine := by
  unfold submit
  split
  · refine Spares.trans ?_ (spares_install _ id purpose ruleSet {})
    exact spares_of_tasks rfl rfl (Nat.le_refl _)
  · exact spares_await e id _

theorem spares_compile (purpose : Purpose) : e.Spares id (compile id purpose e).engine := by
  unfold compile
  split
  · exact (spares_shutDown e id).trans (spares_conclude _ id purpose)
  · split
    · exact spares_conclude e id purpose
    · have hraised : e.Spares id { e with compiling := true } :=
        spares_of_tasks rfl rfl (Nat.le_refl _)
      exact (hraised.trans (spares_endSession _ id)).trans
        ((spares_publish _ id _).trans (spares_submit _ id purpose _))

theorem spares_compiled (purpose : Purpose) (session : Nat) (ruleSet : RuleSet)
    (result : CompileResult H) :
    e.Spares id (compiled id purpose session ruleSet result e).engine := by
  have hlowered : e.Spares id { e with compiling := false } :=
    spares_of_tasks rfl rfl (Nat.le_refl _)
  unfold compiled
  dsimp only
  split
  · exact hlowered.trans (spares_install _ id purpose ruleSet result)
  · split
    · exact hlowered.trans (spares_compile _ id purpose)
    · exact hlowered.trans (spares_conclude _ id purpose)

theorem spares_switch (value : Bool) : e.Spares id (switch id value e).engine := by
  unfold switch
  split
  · exact spares_finish e id _
  · have hturned : e.Spares id { e with enabled := value } :=
      spares_of_tasks rfl rfl (Nat.le_refl _)
    split
    next hon =>
      subst hon
      exact hturned.trans (spares_compile _ id .switch)
    next hoff =>
      obtain rfl : value = false := by simpa using hoff
      exact hturned.trans ((spares_shutDown _ id).trans (spares_finish _ id _))

theorem spares_endRefresh (session : Option Nat) (outcome : Except Failure Outcome) :
    e.Spares id (endRefresh id session outcome e).engine := by
  unfold endRefresh
  split
  · exact spares_finish e id _
  · exact spares_finish e id _
  · refine Spares.trans ?_ (spares_finish _ id _)
    split
    · dsimp only
      split <;> exact spares_of_tasks rfl rfl (Nat.le_refl _)
    · exact spares_of_tasks rfl rfl (Nat.le_refl _)

theorem spares_follow (session : Option Nat) (turn : Coordinator.Turn H) :
    e.Spares id (follow id session turn e).engine := by
  cases turn with
  | waiting demand => exact spares_await e id _
  | finished outcome => exact spares_endRefresh e id session _
  | offered ruleSet result outcome =>
    refine Spares.trans ?_ (spares_endRefresh _ id session _)
    split <;> exact spares_of_tasks rfl rfl (Nat.le_refl _)
  | failed f => exact spares_endRefresh e id session _
  | unmoved => exact spares_of_tasks rfl rfl (Nat.le_refl _)

theorem spares_refresh (session : Option Nat) : e.Spares id (refresh id session e).engine := by
  unfold refresh
  refine Spares.trans ?_ (spares_follow _ id session _)
  exact spares_of_tasks rfl rfl (Nat.le_refl _)

theorem spares_close : e.Spares id (close id e).engine := by
  unfold close
  refine (spares_endSession e id).trans ?_
  split
  · exact spares_await _ id _
  · exact spares_finish _ id _

theorem spares_unwind : e.Spares id (unwind id e).engine := by
  unfold unwind
  split
  · exact spares_of_tasks rfl rfl (Nat.le_refl _)
  · refine Spares.trans ?_ (spares_finish _ id _)
    exact spares_of_tasks rfl rfl (Nat.le_refl _)

/-! ### Moves -/

/-- A call takes its number first. -/
theorem spares_numbered (c : Call) :
    Spares { e with nextTask := e.nextTask + 1 } e.nextTask (call c e).engine := by
  cases c with
  | compile notify => exact spares_compile _ _ _
  | setEnabled value =>
    unfold call
    dsimp only
    split
    · exact spares_await _ _ _
    · exact spares_switch _ _ value
  | close => exact spares_close _ _
  | refresh => exact spares_refresh _ _ none

theorem nextTask_lt_call (c : Call) : e.nextTask < (call c e).engine.nextTask :=
  (spares_numbered e c).next

theorem spares_call (c : Call) : e.Spares e.nextTask (call c e).engine := by
  have hnew : e.Spares e.nextTask { e with nextTask := e.nextTask + 1 } :=
    spares_of_tasks rfl rfl (Nat.le_succ _)
  exact hnew.trans (spares_numbered e c)

theorem spares_begin : e.Spares id (Engine.begin id e).engine := by
  unfold Engine.begin
  split
  · split
    · exact spares_unwind e id
    · exact (spares_publish e id _).trans (spares_refresh _ id _)
  · exact spares_of_tasks rfl rfl (Nat.le_refl _)

theorem spares_resume (reply : Reply H) : e.Spares id (resume id reply e).engine := by
  unfold resume
  split
  · exact spares_unwind e id
  · split
    · exact spares_switch e id _
    · exact spares_finish e id _
    · exact spares_compiled e id _ _ _ _
    · refine Spares.trans ?_ (spares_follow _ id _ _)
      exact spares_of_tasks rfl rfl (Nat.le_refl _)
    · exact spares_of_tasks rfl rfl (Nat.le_refl _)

theorem spares_wake : e.Spares id (wake id e).engine := by
  unfold wake
  split
  · exact spares_finish e id _
  · exact spares_of_tasks rfl rfl (Nat.le_refl _)

/-- A move leaves all tasks alone but the one whose turn it is. -/
theorem spares_move {mv : Move H} (howner : ∀ i, e.owner? mv = some i → i = id) :
    e.Spares id (e.move mv).engine := by
  cases mv with
  | call c =>
    obtain rfl := howner _ rfl
    exact spares_call e c
  | begin i =>
    obtain rfl := howner _ rfl
    exact spares_begin e i
  | resume i reply =>
    obtain rfl := howner _ rfl
    exact spares_resume e i reply
  | unwind i =>
    obtain rfl := howner _ rfl
    dsimp only [move]
    split
    · exact spares_unwind e i
    · exact spares_of_tasks rfl rfl (Nat.le_refl _)
  | wake i =>
    obtain rfl := howner _ rfl
    exact spares_wake e i
  | subscribe name => exact spares_of_tasks rfl rfl (Nat.le_refl _)
  | unsubscribe ticket => exact spares_of_tasks rfl rfl (Nat.le_refl _)

/-- A move that is nobody's turn spares all tasks. -/
theorem spares_owner (mv : Move H) (other : TaskId) :
    e.Spares ((e.owner? mv).getD other) (e.move mv).engine :=
  spares_move e _ fun i hi => by rw [hi, Option.getD_some]

theorem nextTask_le_move (mv : Move H) : e.nextTask ≤ (e.move mv).engine.nextTask :=
  (spares_owner e mv 0).next

theorem setup_move (mv : Move H) : (e.move mv).engine.setup = e.setup :=
  (spares_owner e mv 0).setup

theorem setup_run (moves : List (Move H)) : (e.run moves).setup = e.setup :=
  run_induction (motive := fun e' => e'.setup = e.setup) rfl
    (fun e' mv h => (setup_move e' mv).trans h) moves

variable {e id}

/-- The entry of a task stays as it is in the turns of others. -/
theorem task?_move_of_ne {mv : Move H} (hold : id < e.nextTask) (hother : e.owner? mv ≠ some id) :
    (e.move mv).engine.task? id = e.task? id := by
  have hne : id ≠ (e.owner? mv).getD (id + 1) := by
    cases howner : e.owner? mv with
    | none => exact Nat.ne_of_lt (Nat.lt_succ_self id)
    | some i => exact fun heq => hother (howner.trans (congrArg some heq.symm))
  exact (spares_owner e mv (id + 1)).others id hne hold

/-! ## Tasks that have ended -/

/-- A task has been there and has ended. -/
structure Gone (e : Engine H) (id : TaskId) : Prop where
  old : id < e.nextTask
  ended : e.task? id = none

/-- Nothing happens in the turn of a task that has ended. -/
theorem Gone.move (h : e.Gone id) {mv : Move H} (howner : e.owner? mv = some id) :
    e.move mv = ⟨e, []⟩ := by
  have hunwind : e.unwind id = ⟨e, []⟩ := by
    unfold unwind
    rw [h.ended]
  cases mv with
  | call c => exact absurd (Option.some.inj howner) (Nat.ne_of_gt h.old)
  | begin i =>
    obtain rfl := Option.some.inj howner
    simp only [Engine.move, Engine.begin, h.ended]
  | resume i reply =>
    obtain rfl := Option.some.inj howner
    simp only [Engine.move, resume, hunwind, h.ended, ite_self]
  | unwind i =>
    obtain rfl := Option.some.inj howner
    simp only [Engine.move, hunwind, ite_self]
  | wake i =>
    obtain rfl := Option.some.inj howner
    simp only [Engine.move, wake, h.ended]
  | subscribe name => exact absurd howner nofun
  | unsubscribe ticket => exact absurd howner nofun

theorem Gone.after (h : e.Gone id) (mv : Move H) : (e.move mv).engine.Gone id := by
  by_cases howner : e.owner? mv = some id
  · rw [h.move howner]
    exact h
  · refine ⟨Nat.lt_of_lt_of_le h.old (nextTask_le_move e mv), ?_⟩
    rw [task?_move_of_ne h.old howner, h.ended]

theorem Gone.turns (h : e.Gone id) (moves : List (Move H)) :
    ∀ m ∈ e.turnsOf id moves, m.effects = [] := by
  induction moves generalizing e with
  | nil => exact fun m hm => absurd hm List.not_mem_nil
  | cons mv moves ih =>
    intro m hm
    by_cases howner : e.owner? mv = some id
    · rw [turnsOf_cons_self moves howner] at hm
      obtain rfl | hm := List.mem_cons.mp hm
      · rw [h.move howner]
      · exact ih (h.after mv) m hm
    · rw [turnsOf_cons_other moves howner] at hm
      exact ih (h.after mv) m hm

end

end Engine

end ContentFilter
