import ContentFilter.Proofs.Engine.Standing
import ContentFilter.Proofs.Engine.Turn

/-! # What callers are told

A call that compiles the rules of the tables may want to be told when they are ready. It may have to
wait for the chunks, and start over any number of times when its session has ended meanwhile. It is
told once all the same, in the turn in which it comes back.

* `Moved.told`, `Moved.returned`: what callers are told, and the statuses that calls come back with.
* `Moved.Reports`: a turn of a call that was not turned away.
* `Engine.ReportsOnce`: what all turns of a call amount to.
* `Engine.told_once_on_return`: a call comes back once, and is told once.
-/

set_option autoImplicit false

namespace ContentFilter

variable {H : Type}

namespace Moved

/-! ## Telling and coming back -/

/-- The statuses that callers are told. -/
def told (m : Moved H) : List Status :=
  m.effects.filterMap fun effect => match effect with
    | .ready status => some status
    | _ => none

/-- The statuses that a call comes back with. -/
def returned (id : TaskId) (m : Moved H) : List Status :=
  m.effects.filterMap fun effect => match effect with
    | .ended j (.snapshot status) => if j = id then some status else none
    | _ => none

/-- A call is not told anything and does not come back. -/
structure Quiet (id : TaskId) (m : Moved H) : Prop where
  told : m.told = []
  returned : m.returned id = []

/-- A call comes back with the present status. It is told that if it wants to be. -/
structure Returns (id : TaskId) (notify : Bool) (m : Moved H) : Prop where
  told : m.told = if notify then [m.engine.snapshot.status] else []
  returned : m.returned id = [m.engine.snapshot.status]
  ended : m.engine.task? id = none

/-- A turn of a call that was not turned away: it waits for the chunks of the tables, or comes back
when they are in force, or when the engine is switched off. -/
inductive Reports (id : TaskId) (notify : Bool) (m : Moved H) : Prop
  | waits (hquiet : m.Quiet id) {session : Nat} {ruleSet : RuleSet}
      (htask : m.engine.task? id = some (.compiling (.call notify) session ruleSet))
  | returns (hreturns : m.Returns id notify)
      (hstatus : m.engine.snapshot.status =
        if m.engine.enabled then .readyEmbedded else .disabled)

section

variable {id : TaskId} {notify : Bool} {m : Moved H} {move : Engine H → Moved H}

theorem quiet_of_effects (h : m.effects = []) : m.Quiet id := by
  constructor <;> simp [told, returned, h]

theorem told_andThen : (m.andThen move).told = m.told ++ (move m.engine).told := by
  simp [told, andThen]

theorem returned_andThen :
    (m.andThen move).returned id = m.returned id ++ (move m.engine).returned id := by
  simp [returned, andThen]

theorem Quiet.andThen_returns (h : m.Quiet id) (hnext : (move m.engine).Returns id notify) :
    (m.andThen move).Returns id notify where
  told := by rw [told_andThen, h.told, List.nil_append, hnext.told, andThen_engine]
  returned := by rw [returned_andThen, h.returned, List.nil_append, hnext.returned, andThen_engine]
  ended := hnext.ended

theorem Quiet.andThen_reports (h : m.Quiet id) (hnext : (move m.engine).Reports id notify) :
    (m.andThen move).Reports id notify := by
  cases hnext with
  | waits hquiet htask =>
    refine .waits ⟨?_, ?_⟩ htask
    · rw [told_andThen, h.told, hquiet.told, List.nil_append]
    · rw [returned_andThen, h.returned, hquiet.returned, List.nil_append]
  | returns hreturns hstatus => exact .returns (h.andThen_returns hreturns) hstatus

end

end Moved

namespace Engine

/-! ## What the pieces report -/

section

variable {e : Engine H} {id : TaskId} {notify : Bool}

theorem quiet_publish (s : Snapshot H) : (publish s e).Quiet id := ⟨rfl, rfl⟩

theorem quiet_endSession (e : Engine H) : (endSession e).Quiet id := by
  unfold endSession
  dsimp only
  split <;> exact ⟨rfl, rfl⟩

theorem quiet_schedule (e : Engine H) : (schedule e).Quiet id := by
  unfold schedule
  split <;> exact ⟨rfl, rfl⟩

theorem told_finish (ending : Ending) : (finish id ending e).told = [] := by
  simp [Moved.told, finish]

theorem returned_finish (e : Engine H) (id : TaskId) (status : Status) :
    (finish id (.snapshot status) e).returned id = [status] := by
  simp [Moved.returned, finish]

/-- The caller is told just before the call ends. -/
theorem returns_conclude : (conclude id (.call notify) e).Returns id notify := by
  have hfinish := returned_finish e id e.snapshot.status
  unfold conclude
  constructor
  · rw [Moved.told_andThen, told_finish, List.append_nil]
    cases notify <;> rfl
  · rw [Moved.returned_andThen, hfinish]
    cases notify <;> rfl
  · rw [Moved.andThen_engine, task?_finish, if_pos rfl]

/-! ### Compiling the tables -/

theorem reports_install (hon : e.enabled = true) (ruleSet : RuleSet) (result : CompileResult H) :
    (install id (.call notify) ruleSet result e).Reports id notify := by
  refine .returns ?_ (by simp [install, hon])
  unfold install
  refine (quiet_publish _).andThen_returns ?_
  exact (quiet_schedule _).andThen_returns returns_conclude

theorem reports_submit (hon : e.enabled = true) (ruleSet : RuleSet) :
    (submit id (.call notify) ruleSet e).Reports id notify := by
  unfold submit
  split
  · exact reports_install (e := { e with compiling := false }) hon ruleSet {}
  · have hentry : (await id (.compiling (.call notify) e.session ruleSet) e).task? id =
        some (.compiling (.call notify) e.session ruleSet) := by
      rw [task?_await, if_pos rfl]
    exact .waits ⟨rfl, rfl⟩ hentry

theorem returns_shutDown :
    ((shutDown e).andThen (conclude id (.call notify))).Returns id notify := by
  have hended : (endSession e).Quiet id := quiet_endSession e
  refine Moved.Quiet.andThen_returns ⟨?_, ?_⟩ returns_conclude
  · rw [shutDown, Moved.told_andThen, hended.told]
    rfl
  · rw [shutDown, Moved.returned_andThen, hended.returned]
    rfl

/-- A compilation is reported on unless another one holds the flag. -/
theorem reports_compile (hfree : e.enabled = true → e.compiling = false) :
    (compile id (.call notify) e).Reports id notify := by
  unfold compile
  split
  next hoff =>
    refine .returns returns_shutDown ?_
    have hoff' : e.enabled = false := by simpa using hoff
    simp [shutDown, Snapshot.disabled, hoff']
  next hon =>
    have hon' : e.enabled = true := by simpa using hon
    rw [if_neg (by simp [hfree hon'])]
    refine (quiet_endSession _).andThen_reports ((quiet_publish _).andThen_reports ?_)
    exact reports_submit (by simpa using hon') _

/-- A call is turned away when another compilation holds the flag. -/
theorem returns_compile_of_flag (hon : e.enabled = true) (hflag : e.compiling = true) :
    (compile id (.call notify) e).Returns id notify := by
  unfold compile
  rw [if_neg (by simp [hon]), if_pos hflag]
  exact returns_conclude

/-- When the chunks have settled the call has its rules, starts over, or finds the engine switched
off. -/
theorem reports_compiled (hcons : Consistent none e) (hsilent : e.Silent) {session : Nat}
    {ruleSet : RuleSet} (htask : e.task? id = some (.compiling (.call notify) session ruleSet))
    (result : CompileResult H) :
    (compiled id (.call notify) session ruleSet result e).Reports id notify := by
  have hheld := (hcons.fits id _ nofun htask).compiles _ session ruleSet rfl
  unfold compiled
  dsimp only
  split
  next hlasts =>
    exact reports_install (e := { e with compiling := false }) (hheld.enabled hlasts) ruleSet result
  next =>
    split
    · exact reports_compile fun _ => rfl
    next hon =>
      have hoff : e.enabled = false := by simpa using hon
      have hdisabled : e.snapshot.status = .disabled := congrArg Snapshot.status (hsilent hoff)
      exact .returns returns_conclude (by simp [hdisabled, hoff])

/-! ## The turns of a call -/

/-- A call that waits for the chunks of the tables reports on each of its turns. -/
theorem Standing.reports_turn (h : e.Standing) (hcons : Consistent none e) (hsilent : e.Silent)
    {session : Nat} {ruleSet : RuleSet}
    (htask : e.task? id = some (.compiling (.call notify) session ruleSet)) {mv : Move H}
    (howner : e.owner? mv = some id) : (e.move mv).Reports id notify := by
  have hlive : ¬ e.cancelled.contains id = true := by
    have hunbound := (h.orderly.free htask nofun).unbound
    exact mt List.contains_iff_mem.mp fun hmem => hunbound (.inl hmem)
  have hwaits : Moved.Reports id notify ⟨e, []⟩ := .waits (Moved.quiet_of_effects rfl) htask
  cases mv with
  | call c =>
    obtain rfl := Option.some.inj howner
    exact absurd (htask.symm.trans h.orderly.task?_nextTask) nofun
  | begin i =>
    obtain rfl := Option.some.inj howner
    simpa only [Engine.move, Engine.begin, htask] using hwaits
  | resume i reply =>
    obtain rfl := Option.some.inj howner
    dsimp only [Engine.move]
    unfold Engine.resume
    rw [if_neg hlive, htask]
    cases reply with
    | compiled result => exact reports_compiled hcons hsilent htask result
    | _ => exact hwaits
  | unwind i =>
    obtain rfl := Option.some.inj howner
    dsimp only [Engine.move]
    rwa [if_neg hlive]
  | wake i =>
    obtain rfl := Option.some.inj howner
    simpa only [Engine.move, wake, htask] using hwaits
  | subscribe name => cases howner
  | unsubscribe ticket => cases howner

/-- What the turns of a call amount to. It comes back at most once, and if it wants to be told it is
told in that turn and in no other. It comes back with the status that is then published, which is
that of an engine with the rules of the tables in force, or of one that is switched off; a call that
has been turned away comes back with any status. -/
structure ReportsOnce (id : TaskId) (notify : Bool) (turnedAway : Prop) (turns : List (Moved H)) :
    Prop where
  once : (turns.flatMap (Moved.returned id)).length ≤ 1
  told : ∀ m ∈ turns, m.told = if notify then m.returned id else []
  status : ∀ m ∈ turns, ∀ status ∈ m.returned id, m.engine.snapshot.status = status ∧
    (turnedAway ∨ status = if m.engine.enabled then .readyEmbedded else .disabled)

section

variable {turnedAway : Prop} {m : Moved H} {turns : List (Moved H)}

theorem returned_of_quiet (h : ∀ m ∈ turns, m.Quiet id) :
    turns.flatMap (Moved.returned id) = [] :=
  List.flatMap_eq_nil_iff.mpr fun m hm => (h m hm).returned

theorem reportsOnce_of_quiet (h : ∀ m ∈ turns, m.Quiet id) :
    ReportsOnce id notify turnedAway turns := by
  refine ⟨by simp [returned_of_quiet h], fun m hm => ?_, fun m hm status hmem => ?_⟩
  · rw [(h m hm).told, (h m hm).returned, ite_self]
  · rw [(h m hm).returned] at hmem
    exact absurd hmem List.not_mem_nil

theorem ReportsOnce.cons_quiet (h : ReportsOnce id notify turnedAway turns) (hm : m.Quiet id) :
    ReportsOnce id notify turnedAway (m :: turns) := by
  refine ⟨?_, List.forall_mem_cons.mpr ⟨?_, h.told⟩, List.forall_mem_cons.mpr ⟨?_, h.status⟩⟩
  · rw [List.flatMap_cons, hm.returned, List.nil_append]
    exact h.once
  · rw [hm.told, hm.returned, ite_self]
  · intro status hmem
    rw [hm.returned] at hmem
    exact absurd hmem List.not_mem_nil

/-- A call that comes back has nothing to do in its later turns. -/
theorem reportsOnce_of_returns (hm : m.Returns id notify)
    (hstatus : turnedAway ∨ m.engine.snapshot.status =
      if m.engine.enabled then .readyEmbedded else .disabled)
    (hlater : ∀ m ∈ turns, m.Quiet id) : ReportsOnce id notify turnedAway (m :: turns) := by
  have hrest : ReportsOnce id notify turnedAway turns := reportsOnce_of_quiet hlater
  refine ⟨?_, List.forall_mem_cons.mpr ⟨?_, hrest.told⟩,
    List.forall_mem_cons.mpr ⟨?_, hrest.status⟩⟩
  · rw [List.flatMap_cons, returned_of_quiet hlater, hm.returned]
    exact Nat.le_refl _
  · rw [hm.told, hm.returned]
  · intro status hmem
    rw [hm.returned] at hmem
    obtain rfl := List.mem_singleton.mp hmem
    exact ⟨rfl, hstatus⟩

/-- What a turn of a call is followed by, as it waits or has come back. -/
theorem reportsOnce_of_reports (h : m.Reports id notify)
    (hwaits : ∀ session ruleSet,
      m.engine.task? id = some (.compiling (.call notify) session ruleSet) →
        ReportsOnce id notify turnedAway turns)
    (hended : m.engine.task? id = none → ∀ m ∈ turns, m.Quiet id) :
    ReportsOnce id notify turnedAway (m :: turns) := by
  cases h with
  | waits hquiet htask => exact (hwaits _ _ htask).cons_quiet hquiet
  | returns hreturns hstatus =>
    exact reportsOnce_of_returns hreturns (.inr hstatus) (hended hreturns.ended)

theorem Gone.quiet (h : e.Gone id) (moves : List (Move H)) :
    ∀ m ∈ e.turnsOf id moves, m.Quiet id :=
  fun m hm => Moved.quiet_of_effects (h.turns moves m hm)

/-- A call that waits for the chunks of the tables reports once in its turns to come. -/
theorem Standing.reportsOnce (h : e.Standing) (hcons : Consistent none e) (hsilent : e.Silent)
    {session : Nat} {ruleSet : RuleSet}
    (htask : e.task? id = some (.compiling (.call notify) session ruleSet)) {moves : List (Move H)}
    (hclose : .call .close ∉ moves) (hrefresh : .call .refresh ∉ moves) :
    ReportsOnce id notify turnedAway (e.turnsOf id moves) := by
  induction moves generalizing e session ruleSet with
  | nil => exact reportsOnce_of_quiet fun m hm => absurd hm List.not_mem_nil
  | cons mv moves ih =>
    rw [List.mem_cons, not_or] at hclose hrefresh
    have hstanding := h.move hcons (Ne.symm hclose.1) (Ne.symm hrefresh.1)
    have hsilent' : (e.move mv).engine.Silent := fun hoff => (hsilent.move hcons mv hoff).1
    have hold := (h.orderly.tells id _ nofun htask).numbered
    have hlater : ∀ session ruleSet,
        (e.move mv).engine.task? id = some (.compiling (.call notify) session ruleSet) →
          ReportsOnce id notify turnedAway ((e.move mv).engine.turnsOf id moves) :=
      fun _ _ htask' => ih hstanding (hcons.move mv) hsilent' htask' hclose.2 hrefresh.2
    by_cases howner : e.owner? mv = some id
    · rw [turnsOf_cons_self moves howner]
      have hreports := h.reports_turn hcons hsilent htask howner
      refine reportsOnce_of_reports hreports hlater fun hnone => ?_
      exact Gone.quiet ⟨Nat.lt_of_lt_of_le hold (nextTask_le_move e mv), hnone⟩ moves
    · rw [turnsOf_cons_other moves howner]
      exact hlater session ruleSet ((task?_move_of_ne hold howner).trans htask)

end

end

/-- A call that compiles the rules of the tables is told once, in the turn in which it comes back,
however often it has had to start over because its session ended. If no other compilation was under
way when it was made, then at that moment the rules of the tables are in force, or the engine is
switched off and disabled. -/
theorem told_once_on_return (setup : Setup) (enabled notify : Bool) {before after : List (Move H)}
    (hclose : .call .close ∉ before ++ after) (hrefresh : .call .refresh ∉ before ++ after) :
    let e := (start setup enabled : Engine H).run before
    ReportsOnce e.nextTask notify (e.enabled = true ∧ ∃ i, e.Compiles i)
      (e.turnsOf e.nextTask (.call (.compile notify) :: after)) := by
  intro e
  rw [List.mem_append, not_or] at hclose hrefresh
  have hcons : Consistent none e := consistent_run setup enabled before
  have hsilent : e.Silent := silent_run setup enabled before
  have hstanding : e.Standing :=
    (standing_start setup enabled).run (consistent_start setup enabled) hclose.1 hrefresh.1
  let m : Moved H := e.move (.call (.compile notify))
  have hgone : m.engine.task? e.nextTask = none →
      ∀ m' ∈ m.engine.turnsOf e.nextTask after, m'.Quiet e.nextTask :=
    fun hnone => Gone.quiet ⟨nextTask_lt_call e _, hnone⟩ after
  rw [turnsOf_cons_self after rfl]
  by_cases hbusy : e.enabled = true ∧ e.compiling = true
  · obtain ⟨i, -, hi⟩ := hstanding.answered.flag hbusy.2
    have hreturns : m.Returns e.nextTask notify :=
      returns_compile_of_flag (e := { e with nextTask := e.nextTask + 1 }) hbusy.1 hbusy.2
    exact reportsOnce_of_returns hreturns (.inl ⟨hbusy.1, i, hi⟩) (hgone hreturns.ended)
  · have hfree : e.enabled = true → e.compiling = false := by simpa using hbusy
    have hreports : m.Reports e.nextTask notify :=
      reports_compile (e := { e with nextTask := e.nextTask + 1 }) hfree
    refine reportsOnce_of_reports hreports (fun session ruleSet htask => ?_) hgone
    refine Standing.reportsOnce ?_ (hcons.move _) ?_ htask hclose.2 hrefresh.2
    · exact hstanding.move hcons (by simp) (by simp)
    · exact fun hoff => (hsilent.move hcons _ hoff).1

/-- The engine is switched off and on while the chunks of the tables are compiled. -/
def restartingMoves : List (Move Nat) :=
  [.call (.setEnabled false), .call (.setEnabled true), .resume 0 (.compiled { handles := [0] }),
    .resume 0 (.compiled { handles := [0] }), .begin 3]

/-- The call that is made first starts over, and is told when it comes back. -/
theorem told_once_on_return_smallSetup :
    let e : Engine Nat := start smallSetup true
    let turns := e.turnsOf 0 (.call (.compile true) :: restartingMoves)
    (.call .close ∉ restartingMoves ∧ .call .refresh ∉ restartingMoves) ∧
      (¬ ∃ i, e.Compiles i) ∧ turns.map Moved.told = [[], [], [.readyEmbedded]] ∧
      ReportsOnce 0 true (e.enabled = true ∧ ∃ i, e.Compiles i) turns := by
  intro e turns
  have hclose : .call .close ∉ restartingMoves := by simp [restartingMoves]
  have hrefresh : .call .refresh ∉ restartingMoves := by simp [restartingMoves]
  refine ⟨⟨hclose, hrefresh⟩, ?_, by decide +kernel, ?_⟩
  · rintro ⟨i, purpose, session, ruleSet, htask⟩
    exact absurd htask nofun
  · exact @told_once_on_return Nat smallSetup true true [] restartingMoves hclose hrefresh

end Engine

end ContentFilter
