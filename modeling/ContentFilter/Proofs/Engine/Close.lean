import ContentFilter.Proofs.Engine.Standing
import ContentFilter.Proofs.Engine.Turn

/-! # Closing

Closing ends the session, calls off the refresh in the background and waits for it to give up. It
does not end a compilation that is under way, nor calls that wait for the switch to be saved. What
these do afterwards decides whether anything is looked for again.

* `Engine.Revives`: what brings an engine up again although nobody asks for it any more.
* `Moved.Rests`, `Moved.Wanes`: a move looks for nothing; it begins nothing either.
* `Engine.Leads`: what the tasks of an engine make of it without further calls.
* `Engine.Closed`: nothing is looked for any more, and nothing will be.
-/

set_option autoImplicit false

namespace ContentFilter

variable {H : Type}

/-! ## What is looked for -/

/-- There is a cache, and somewhere to look for a list. -/
def Setup.Searches (s : Setup) : Prop := s.hasCache = true ∧ s.config.sources ≠ []

/-- What only a refresh asks for: the cache, a download, a delay. -/
def Demand.refreshes : Demand → Bool
  | .readCache _ => true
  | .fetch _ _ => true
  | .sleep _ => true
  | .writeCache _ _ => true
  | .compile _ => false
  | .saveEnabled _ => false

namespace Moved

/-- The tasks that are made. -/
def spawned (m : Moved H) : List TaskId :=
  m.effects.filterMap fun effect => match effect with
    | .spawned id => some id
    | _ => none

/-- What is asked for that only a refresh asks for. -/
def outgoing (m : Moved H) : List Demand :=
  m.effects.filterMap fun effect => match effect with
    | .demanded _ demand => if demand.refreshes then some demand else none
    | _ => none

/-- No refresh is started, and none goes on. -/
structure Unsearching (m : Moved H) : Prop where
  spawned : m.spawned = []
  outgoing : m.outgoing = []

variable {m : Moved H} {move : Engine H → Moved H}

theorem spawned_andThen : (m.andThen move).spawned = m.spawned ++ (move m.engine).spawned := by
  simp [spawned, andThen]

theorem outgoing_andThen : (m.andThen move).outgoing = m.outgoing ++ (move m.engine).outgoing := by
  simp [outgoing, andThen]

theorem unsearching_of_effects (h : m.effects = []) : m.Unsearching := by
  constructor <;> simp [spawned, outgoing, h]

theorem Unsearching.andThen (h : m.Unsearching) (hnext : (move m.engine).Unsearching) :
    (m.andThen move).Unsearching := by
  constructor
  · rw [spawned_andThen, h.spawned, hnext.spawned, List.append_nil]
  · rw [outgoing_andThen, h.outgoing, hnext.outgoing, List.append_nil]

end Moved

namespace Engine

/-- A call waits for the switch to be saved. -/
def Saves (e : Engine H) (value : Bool) : Prop := ∃ id, e.task? id = some (.saving value)

/-- What nobody has to ask for any more. A compilation whose session has ended is begun anew while
the engine is switched on. A call that switches on begins one, unless the engine is switched on by
then; it is not if another call switches it off before. -/
def Revives (e : Engine H) : Prop :=
  (e.enabled = true ∧ ∃ id, e.Compiles id) ∨
    (e.Saves true ∧ (e.enabled = false ∨ e.Saves false))

/-- It is enough that the entries of compilations and of calls that save are kept; an engine may be
switched off where a call can still do that. -/
theorem Revives.transfer {e f : Engine H} (h : e.Revives)
    (hon : e.enabled = true → f.enabled = true)
    (hoff : e.enabled = false → f.enabled = false ∨ f.Saves false)
    (hkept : ∀ id task, e.task? id = some task → (∀ session, task.session? ≠ some session) →
      (∀ other, task ≠ .closing other) → f.task? id = some task) : f.Revives := by
  have hsaves : ∀ {value}, e.Saves value → f.Saves value := fun ⟨id, htask⟩ =>
    ⟨id, hkept id _ htask nofun nofun⟩
  obtain ⟨hup, id, purpose, session, ruleSet, htask⟩ | ⟨hcall, hdown | hother⟩ := h
  · exact .inl ⟨hon hup, id, purpose, session, ruleSet, hkept id _ htask nofun nofun⟩
  · exact .inr ⟨hsaves hcall, hoff hdown⟩
  · exact .inr ⟨hsaves hcall, .inr (hsaves hother)⟩

end Engine

/-! ## Moves that look for nothing -/

namespace Moved

/-- A move of an engine with nothing in the background: it looks for nothing, and if anything is
begun it is a compilation of the tables. -/
structure Rests (e : Engine H) (m : Moved H) : Prop where
  setup : m.engine.setup = e.setup
  background : m.engine.background = none
  cancelled : ∀ id ∈ m.engine.cancelled, id ∈ e.cancelled
  tasks : ∀ id task, m.engine.task? id = some task → e.task? id = some task ∨
    ∃ purpose session ruleSet, task = .compiling purpose session ruleSet
  quiet : m.Unsearching

/-- A move of an engine with nothing in the background: it looks for nothing and begins nothing, and
if the engine is switched off then a call has done that. -/
structure Wanes (e : Engine H) (m : Moved H) : Prop where
  setup : m.engine.setup = e.setup
  background : m.engine.background = none
  cancelled : ∀ id ∈ m.engine.cancelled, id ∈ e.cancelled
  tasks : ∀ id task, m.engine.task? id = some task → e.task? id = some task
  on : m.engine.enabled = true → e.enabled = true
  off : m.engine.enabled = false → e.enabled = false ∨ e.Saves false
  quiet : m.Unsearching

variable {e : Engine H} {m : Moved H} {move : Engine H → Moved H}

theorem Wanes.rests (h : m.Wanes e) : m.Rests e :=
  ⟨h.setup, h.background, h.cancelled, fun id task htask => .inl (h.tasks id task htask), h.quiet⟩

theorem Rests.andThen (h : m.Rests e) (hnext : (move m.engine).Rests m.engine) :
    (m.andThen move).Rests e where
  setup := hnext.setup.trans h.setup
  background := hnext.background
  cancelled := fun id hmem => h.cancelled id (hnext.cancelled id hmem)
  tasks := by
    intro id task htask
    obtain hold | hnew := hnext.tasks id task htask
    · exact h.tasks id task hold
    · exact .inr hnew
  quiet := h.quiet.andThen hnext.quiet

theorem Wanes.andThen (h : m.Wanes e) (hnext : (move m.engine).Wanes m.engine) :
    (m.andThen move).Wanes e where
  setup := hnext.setup.trans h.setup
  background := hnext.background
  cancelled := fun id hmem => h.cancelled id (hnext.cancelled id hmem)
  tasks := fun id task htask => h.tasks id task (hnext.tasks id task htask)
  on := fun hon => h.on (hnext.on hon)
  off := by
    intro hoff
    obtain hbefore | ⟨id, hsaves⟩ := hnext.off hoff
    · exact h.off hbefore
    · exact .inr ⟨id, h.tasks id _ hsaves⟩
  quiet := h.quiet.andThen hnext.quiet

/-- An engine that has waned has nothing in it that it did not have before. -/
theorem Wanes.revives (h : m.Wanes e) (hrevives : m.engine.Revives) : e.Revives :=
  hrevives.transfer h.on h.off fun id task htask _ _ => h.tasks id task htask

end Moved

namespace Engine

/-! ### The pieces -/

section

variable {e : Engine H} (hnone : e.background = none) (id : TaskId)

include hnone

/-- The flag, the switch at the end of a call, the snapshot and the coordinator may change. -/
theorem wanes_update {e' : Engine H} (hsetup : e'.setup = e.setup)
    (hbackground : e'.background = e.background) (hcancelled : e'.cancelled = e.cancelled)
    (htasks : e'.tasks = e.tasks) (hon : e'.enabled = true → e.enabled = true)
    (hoff : e'.enabled = false → e.enabled = false ∨ e.Saves false) :
    (⟨e', []⟩ : Moved H).Wanes e where
  setup := hsetup
  background := hbackground.trans hnone
  cancelled := fun id hmem => hcancelled ▸ hmem
  tasks := fun id task htask => by simpa only [task?, htasks] using htask
  on := hon
  off := hoff
  quiet := Moved.unsearching_of_effects rfl

theorem wanes_nothing : (⟨e, []⟩ : Moved H).Wanes e :=
  wanes_update hnone rfl rfl rfl rfl (fun hon => hon) .inl

theorem wanes_lower : (⟨{ e with compiling := false }, []⟩ : Moved H).Wanes e :=
  wanes_update hnone rfl rfl rfl rfl (fun hon => hon) .inl

theorem rests_turn (value : Bool) : (⟨{ e with enabled := value }, []⟩ : Moved H).Rests e where
  setup := rfl
  background := hnone
  cancelled := fun _ hmem => hmem
  tasks := fun _ _ htask => .inl htask
  quiet := Moved.unsearching_of_effects rfl

theorem wanes_publish (s : Snapshot H) : (publish s e).Wanes e :=
  { wanes_nothing hnone with quiet := ⟨rfl, rfl⟩ }

theorem wanes_finish (ending : Ending) : (finish id ending e).Wanes e where
  setup := rfl
  background := by simp [finish, hnone]
  cancelled := fun j hmem => ((mem_cancelled_finish e id ending j).mp hmem).1
  tasks := by
    intro j task htask
    rw [task?_finish] at htask
    split at htask
    · cases htask
    · exact htask
  on := fun hon => hon
  off := .inl
  quiet := by constructor <;> simp [finish, Moved.spawned, Moved.outgoing]

theorem wanes_conclude (purpose : Purpose) : (conclude id purpose e).Wanes e := by
  cases purpose with
  | call notify =>
    refine Moved.Wanes.andThen ?_ (wanes_finish hnone id _)
    exact { wanes_nothing hnone with quiet := by cases notify <;> exact ⟨rfl, rfl⟩ }
  | switch => exact wanes_finish hnone id _

theorem endSession_of_none :
    endSession e = ⟨{ e with session := e.session + 1, background := none }, []⟩ := by
  unfold endSession
  rw [hnone]

theorem wanes_endSession : (endSession e).Wanes e := by
  rw [endSession_of_none hnone]
  exact wanes_update hnone rfl hnone.symm rfl rfl (fun hon => hon) .inl

theorem wanes_shutDown : (shutDown e).Wanes e := by
  refine (wanes_endSession hnone).andThen (wanes_publish ?_ _)
  rw [endSession_of_none hnone]

theorem wanes_unwind : (unwind id e).Wanes e := by
  unfold unwind
  split
  · exact wanes_nothing hnone
  · have hdropped : (⟨{ e with coordinator := e.coordinator.drop id }, []⟩ : Moved H).Wanes e :=
      wanes_update hnone rfl rfl rfl rfl (fun hon => hon) .inl
    exact hdropped.andThen (wanes_finish hdropped.background id _)

/-! ### Compiling the tables -/

/-- Without anywhere to look nothing is scheduled. -/
theorem wanes_schedule (hbare : ¬ e.setup.Searches) : (schedule e).Wanes e := by
  unfold schedule
  split
  · exact wanes_nothing hnone
  next hcan =>
    simp only [Bool.or_eq_true, not_or] at hcan
    exact absurd (by simpa [Setup.Searches] using hcan.1) hbare

/-- Compiled rules are put in force, and that is all. -/
theorem wanes_install (hbare : ¬ e.setup.Searches) (purpose : Purpose) (ruleSet : RuleSet)
    (result : CompileResult H) : (install id purpose ruleSet result e).Wanes e := by
  have hpublished := wanes_publish hnone
    { status := .readyEmbedded, ruleSet := ruleSet, handles := result.handles,
      embeddedCount := result.handles.length }
  unfold install
  refine hpublished.andThen ?_
  have hscheduled := wanes_schedule hpublished.background hbare
  exact hscheduled.andThen (wanes_conclude hscheduled.background id purpose)

theorem rests_submit (hbare : ¬ e.setup.Searches) (purpose : Purpose) (ruleSet : RuleSet) :
    (submit id purpose ruleSet e).Rests e := by
  unfold submit
  split
  · have hlowered := wanes_lower hnone
    exact (hlowered.andThen (wanes_install hlowered.background id hbare purpose ruleSet {})).rests
  · refine ⟨rfl, hnone, fun _ hmem => hmem, fun j task htask => ?_, ?_⟩
    · rw [task?_await] at htask
      split at htask
      · exact .inr ⟨_, _, _, (Option.some.inj htask).symm⟩
      · exact .inl htask
    · exact ⟨rfl, rfl⟩

theorem rests_compile (hbare : ¬ e.setup.Searches) (purpose : Purpose) :
    (compile id purpose e).Rests e := by
  unfold compile
  split
  · have hdown := wanes_shutDown hnone
    exact (hdown.andThen (wanes_conclude hdown.background id purpose)).rests
  · split
    · exact (wanes_conclude hnone id purpose).rests
    · have hraised : (⟨{ e with compiling := true }, []⟩ : Moved H).Wanes e :=
        wanes_update hnone rfl rfl rfl rfl (fun hon => hon) .inl
      have hended := hraised.andThen (wanes_endSession hraised.background)
      refine hended.rests.andThen ?_
      have hpublished := wanes_publish hended.background
        (((endSession { e with compiling := true }).engine.snapshot).withStatus .compiling)
      refine hpublished.rests.andThen (rests_submit hpublished.background id ?_ purpose _)
      rw [hpublished.setup, hended.setup]
      exact hbare

/-! ### Turns -/

theorem rests_compiled (hbare : ¬ e.setup.Searches) (purpose : Purpose) (session : Nat)
    (ruleSet : RuleSet) (result : CompileResult H) :
    (compiled id purpose session ruleSet result e).Rests e := by
  have hlowered := wanes_lower hnone
  unfold compiled
  dsimp only
  split
  · have hinstalled := wanes_install hlowered.background id hbare purpose ruleSet result
    exact (hlowered.andThen hinstalled).rests
  · split
    · exact hlowered.rests.andThen (rests_compile hlowered.background id hbare purpose)
    · exact (hlowered.andThen (wanes_conclude hlowered.background id purpose)).rests

/-- A compilation that is not begun anew belongs to a session that has ended, since the engine is
switched off. -/
theorem wanes_compiled (hcons : Consistent none e) (hdone : ¬ e.Revives) {purpose : Purpose}
    {session : Nat} {ruleSet : RuleSet}
    (htask : e.task? id = some (.compiling purpose session ruleSet)) (result : CompileResult H) :
    (compiled id purpose session ruleSet result e).Wanes e := by
  have hheld := (hcons.fits id _ nofun htask).compiles purpose session ruleSet rfl
  have hoff : ¬ e.enabled = true := fun hon =>
    hdone (.inl ⟨hon, id, purpose, session, ruleSet, htask⟩)
  have hlowered := wanes_lower hnone
  unfold compiled
  dsimp only
  rw [if_neg fun hlasts => hoff (hheld.enabled hlasts), if_neg hoff]
  exact hlowered.andThen (wanes_conclude hlowered.background id purpose)

theorem rests_switch (hbare : ¬ e.setup.Searches) (value : Bool) : (switch id value e).Rests e := by
  unfold switch
  split
  · exact (wanes_finish hnone id _).rests
  · split
    · have hturned := rests_turn hnone true
      exact hturned.andThen (rests_compile hturned.background id hbare .switch)
    · have hturned := rests_turn hnone false
      have hdown := hturned.andThen (wanes_shutDown hturned.background).rests
      exact hdown.andThen (wanes_finish hdown.background id _).rests

/-- A call that has saved the switch finds it turned, or switches off. -/
theorem wanes_switch (hdone : ¬ e.Revives) {value : Bool}
    (htask : e.task? id = some (.saving value)) : (switch id value e).Wanes e := by
  unfold switch
  split
  · exact wanes_finish hnone id _
  next hturns =>
    cases value with
    | true => exact absurd (.inr ⟨⟨id, htask⟩, .inl (by simpa using Ne.symm hturns)⟩) hdone
    | false =>
      rw [if_neg Bool.false_ne_true]
      have hturned : (⟨{ e with enabled := false }, []⟩ : Moved H).Wanes e :=
        wanes_update hnone rfl rfl rfl rfl (fun hon => absurd hon nofun) fun _ => .inr ⟨id, htask⟩
      have hdown := hturned.andThen (wanes_shutDown hturned.background)
      exact hdown.andThen (wanes_finish hdown.background id _)

/-- With nothing in the background and no call that refreshes at once, a move that is no call looks
for nothing, except perhaps when a compilation comes to its end or the switch has been saved. -/
theorem turn_cases (hcons : Consistent none e) (hown : ∀ i, e.task? i ≠ some (.refreshing none))
    {mv : Move H} (hcall : ∀ c, mv ≠ .call c) : (e.move mv).Wanes e ∨
      (∃ i purpose session ruleSet result, e.task? i = some (.compiling purpose session ruleSet) ∧
        e.move mv = compiled i purpose session ruleSet result e) ∨
      ∃ i value, e.task? i = some (.saving value) ∧ e.move mv = switch i value e := by
  have hgives : ∀ {i task session}, e.task? i = some task → task.session? = some session →
      e.cancelled.contains i = true := fun {i task session} htask hsession =>
    List.contains_iff_mem.mpr (hcons.unrefreshed hnone i task session nofun htask hsession)
  cases mv with
  | call c => exact absurd rfl (hcall c)
  | begin i =>
    refine .inl ?_
    dsimp only [Engine.move]
    unfold Engine.begin
    split
    next session htask =>
      rw [if_pos (hgives htask rfl)]
      exact wanes_unwind hnone i
    · exact wanes_nothing hnone
  | resume i reply =>
    dsimp only [Engine.move]
    unfold resume
    split
    · exact .inl (wanes_unwind hnone i)
    next hlive =>
      split
      next value htask => exact .inr (.inr ⟨i, value, htask, rfl⟩)
      · exact .inl (wanes_finish hnone i _)
      next purpose session ruleSet result htask =>
        exact .inr (.inl ⟨i, purpose, session, ruleSet, result, htask, rfl⟩)
      next session htask =>
        cases session with
        | none => exact absurd htask (hown i)
        | some session => exact absurd (hgives htask rfl) hlive
      · exact .inl (wanes_nothing hnone)
  | unwind i =>
    refine .inl ?_
    dsimp only [Engine.move]
    split
    · exact wanes_unwind hnone i
    · exact wanes_nothing hnone
  | wake i =>
    refine .inl ?_
    dsimp only [Engine.move, wake]
    split
    · exact wanes_finish hnone i _
    · exact wanes_nothing hnone
  | subscribe name => exact .inl (wanes_update hnone rfl rfl rfl rfl (fun hon => hon) .inl)
  | unsubscribe ticket => exact .inl (wanes_update hnone rfl rfl rfl rfl (fun hon => hon) .inl)

theorem rests_move (hcons : Consistent none e) (hown : ∀ i, e.task? i ≠ some (.refreshing none))
    (hbare : ¬ e.setup.Searches) {mv : Move H} (hcall : ∀ c, mv ≠ .call c) :
    (e.move mv).Rests e := by
  obtain hwanes | ⟨i, purpose, session, ruleSet, result, -, hmove⟩ | ⟨i, value, -, hmove⟩ :=
    turn_cases hnone hcons hown hcall
  · exact hwanes.rests
  · exact hmove ▸ rests_compiled hnone i hbare purpose session ruleSet result
  · exact hmove ▸ rests_switch hnone i hbare value

theorem wanes_move (hcons : Consistent none e) (hown : ∀ i, e.task? i ≠ some (.refreshing none))
    (hdone : ¬ e.Revives) {mv : Move H} (hcall : ∀ c, mv ≠ .call c) : (e.move mv).Wanes e := by
  obtain hwanes | ⟨i, purpose, session, ruleSet, result, htask, hmove⟩ | ⟨i, value, htask, hmove⟩ :=
    turn_cases hnone hcons hown hcall
  · exact hwanes
  · exact hmove ▸ wanes_compiled hnone i hcons hdone htask result
  · exact hmove ▸ wanes_switch hnone i hdone htask

end

/-! ## Closed engines -/

/-- Nothing is looked for any more: nothing is in the background, and there is nowhere to look or
nothing that brings the engine up again. -/
structure Closed (e : Engine H) : Prop where
  background : e.background = none
  own : ∀ id, e.task? id ≠ some (.refreshing none)
  settled : ¬ (e.setup.Searches ∧ e.Revives)

section

variable {e f : Engine H} {id other : TaskId} {mv : Move H}

theorem Closed.rests (h : e.Closed) (hcons : Consistent none e) (hcall : ∀ c, mv ≠ .call c) :
    (e.move mv).Rests e := by
  by_cases hbare : e.setup.Searches
  · exact (wanes_move h.background hcons h.own (fun hdone => h.settled ⟨hbare, hdone⟩) hcall).rests
  · exact rests_move h.background hcons h.own hbare hcall

theorem Closed.move (h : e.Closed) (hcons : Consistent none e) (hcall : ∀ c, mv ≠ .call c) :
    (e.move mv).engine.Closed := by
  have hrests := h.rests hcons hcall
  refine ⟨hrests.background, fun i htask => ?_, ?_⟩
  · obtain hold | ⟨purpose, session, ruleSet, hnew⟩ := hrests.tasks i _ htask
    · exact h.own i hold
    · exact absurd hnew nofun
  · rintro ⟨hsearches, hrevives⟩
    rw [hrests.setup] at hsearches
    have hdone : ¬ e.Revives := fun hdone => h.settled ⟨hsearches, hdone⟩
    exact hdone ((wanes_move h.background hcons h.own hdone hcall).revives hrevives)

end

/-! ## What follows without further calls -/

/-- A task that waits for the end of another one does not go on before. -/
def InTime (e : Engine H) (mv : Move H) : Prop :=
  ∀ id other, mv = .wake id → e.task? id = some (.closing other) → e.task? other = none

/-- Without further calls the one engine becomes the other. -/
inductive Leads : Engine H → Engine H → Prop
  | refl (e : Engine H) : Leads e e
  | move {e f : Engine H} {mv : Move H} (hcall : ∀ c, mv ≠ .call c) (htime : e.InTime mv)
      (hrest : Leads (e.move mv).engine f) : Leads e f

/-- A call waits until a task has ended. -/
structure Expects (e : Engine H) (id other : TaskId) : Prop where
  old : id < e.nextTask
  known : other < e.nextTask
  live : id ∉ e.cancelled
  waits : e.task? id = some (.closing other) ∨ e.task? other = none

section

variable {e f : Engine H} {id other : TaskId} {mv : Move H}

/-- A call that waits does nothing else until it goes on. -/
theorem Expects.waits_move (h : e.Expects id other) (htime : e.InTime mv)
    (hunended : e.task? other ≠ none) : (e.move mv).engine.task? id = some (.closing other) := by
  have htask : e.task? id = some (.closing other) := h.waits.resolve_right hunended
  have hlive : ¬ e.cancelled.contains id = true := mt List.contains_iff_mem.mp h.live
  by_cases howner : e.owner? mv = some id
  · cases mv with
    | call c => exact absurd (Option.some.inj howner) (Nat.ne_of_gt h.old)
    | begin i =>
      obtain rfl := Option.some.inj howner
      simp only [Engine.move, Engine.begin, htask]
    | resume i reply =>
      obtain rfl := Option.some.inj howner
      dsimp only [Engine.move]
      unfold resume
      rw [if_neg hlive, htask]
      exact htask
    | unwind i =>
      obtain rfl := Option.some.inj howner
      dsimp only [Engine.move]
      rwa [if_neg hlive]
    | wake i =>
      obtain rfl := Option.some.inj howner
      exact absurd (htime i other rfl htask) hunended
    | subscribe name => cases howner
    | unsubscribe ticket => cases howner
  · exact (task?_move_of_ne h.old howner).trans htask

theorem Expects.move (h : e.Expects id other) (hclosed : e.Closed) (hcons : Consistent none e)
    (hcall : ∀ c, mv ≠ .call c) (htime : e.InTime mv) : (e.move mv).engine.Expects id other := by
  have hnext := nextTask_le_move e mv
  refine ⟨Nat.lt_of_lt_of_le h.old hnext, Nat.lt_of_lt_of_le h.known hnext, fun hmem => ?_, ?_⟩
  · exact h.live ((hclosed.rests hcons hcall).cancelled id hmem)
  · by_cases hended : e.task? other = none
    · have hgone : e.Gone other := ⟨h.known, hended⟩
      exact .inr (hgone.after mv).ended
    · exact .inl (h.waits_move htime hended)

theorem Leads.trans {g : Engine H} (h : e.Leads f) (hrest : f.Leads g) : e.Leads g := by
  induction h with
  | refl => exact hrest
  | move hcall htime _ ih => exact .move hcall htime (ih hrest)

theorem Leads.nextTask_le (h : e.Leads f) : e.nextTask ≤ f.nextTask := by
  induction h with
  | refl => exact Nat.le_refl _
  | move _ _ _ ih => exact Nat.le_trans (nextTask_le_move _ _) ih

theorem Gone.leads (h : e.Gone id) (hleads : e.Leads f) : f.Gone id := by
  induction hleads with
  | refl => exact h
  | move _ _ _ ih => exact ih (h.after _)

theorem Consistent.leads (h : Consistent none e) (hleads : e.Leads f) : Consistent none f := by
  induction hleads with
  | refl => exact h
  | move _ _ _ ih => exact ih (h.move _)

theorem Closed.leads (h : e.Closed) (hcons : Consistent none e) (hleads : e.Leads f) :
    f.Closed := by
  induction hleads with
  | refl => exact h
  | move hcall _ _ ih => exact ih (h.move hcons hcall) (hcons.move _)

theorem Expects.leads (h : e.Expects id other) (hclosed : e.Closed) (hcons : Consistent none e)
    (hleads : e.Leads f) : f.Expects id other := by
  induction hleads with
  | refl => exact h
  | move hcall htime _ ih =>
    exact ih (h.move hclosed hcons hcall htime) (hclosed.move hcons hcall) (hcons.move _)

/-! ### The call -/

variable (e id)

theorem task?_endSession (j : TaskId) : (endSession e).engine.task? j = e.task? j := by
  rw [endSession_engine]
  rfl

theorem task?_close (j : TaskId) :
    (close id e).engine.task? j = if j = id then e.running?.map Task.closing else e.task? j := by
  have hended := task?_endSession e j
  unfold close
  rw [Moved.andThen_engine]
  split
  next other hrunning => rw [task?_await, hended, running?_eq_some.mpr hrunning, Option.map_some]
  next hidle =>
    have hnone : e.running? = none :=
      Option.eq_none_iff_forall_ne_some.mpr fun i hi => hidle i (running?_eq_some.mp hi)
    rw [task?_finish, hended, hnone, Option.map_none]

@[simp] theorem close_background : (close id e).engine.background = none := by
  unfold close
  rw [Moved.andThen_engine]
  split <;> simp [await, finish]

@[simp] theorem close_enabled : (close id e).engine.enabled = e.enabled := by
  unfold close
  rw [Moved.andThen_engine]
  split <;> simp [await]

@[simp] theorem close_session : (close id e).engine.session = e.session + 1 := by
  unfold close
  rw [Moved.andThen_engine]
  split <;> simp [await]

@[simp] theorem close_compiling : (close id e).engine.compiling = e.compiling := by
  unfold close
  rw [Moved.andThen_engine]
  split <;> simp [await, finish]

variable {e}

theorem bound_of_mem_close {j : TaskId} (hmem : j ∈ (close id e).engine.cancelled) :
    e.Bound j := by
  have hended : j ∈ (endSession e).engine.cancelled := by
    unfold close at hmem
    rw [Moved.andThen_engine] at hmem
    split at hmem
    · exact hmem
    · exact ((mem_cancelled_finish _ id _ j).mp hmem).1
  rw [endSession_engine, List.mem_append, Option.mem_toList] at hended
  exact hended.symm.imp_right fun hrunning => hrunning

/-- Only a refresh is called off when an engine is closed, or has been before. -/
theorem bound_of_mem_move_close {j : TaskId}
    (hmem : j ∈ (e.move (.call .close)).engine.cancelled) : e.Bound j :=
  bound_of_mem_close (e := { e with nextTask := e.nextTask + 1 }) e.nextTask hmem

theorem task?_move_close (e : Engine H) (j : TaskId) : (e.move (.call .close)).engine.task? j =
    if j = e.nextTask then e.running?.map Task.closing else e.task? j :=
  task?_close { e with nextTask := e.nextTask + 1 } e.nextTask j

/-- Apart from the call that closes, all entries have been there before. -/
theorem task?_of_close {j : TaskId} {task : Task}
    (htask : (e.move (.call .close)).engine.task? j = some task)
    (hother : ∀ other, task ≠ .closing other) : e.task? j = some task := by
  rw [task?_move_close] at htask
  split at htask
  · obtain ⟨other, -, heq⟩ := Option.map_eq_some_iff.mp htask
    exact absurd heq.symm (hother other)
  · exact htask

theorem Standing.kept_close (h : e.Standing) {j : TaskId} {task : Task}
    (htask : e.task? j = some task) : (e.move (.call .close)).engine.task? j = some task := by
  rw [task?_move_close, if_neg]
  · exact htask
  · rintro rfl
    exact absurd (h.orderly.task?_nextTask.symm.trans htask) nofun

/-- Closing leaves nothing in the background, and what brings the engine up again is what did so
before. -/
theorem Standing.closed (h : e.Standing) (hover : ¬ (e.setup.Searches ∧ e.Revives)) :
    (e.move (.call .close)).engine.Closed := by
  have henabled : (e.move (.call .close)).engine.enabled = e.enabled := close_enabled ..
  refine ⟨close_background .., fun i htask => ?_, fun ⟨hsearches, hrevives⟩ => hover ⟨?_, ?_⟩⟩
  · exact (h.orderly.tells i _ nofun (task?_of_close htask nofun)).bound rfl
  · rwa [setup_move] at hsearches
  · exact hrevives.transfer henabled.symm.trans (fun hoff => .inl (henabled.symm.trans hoff))
      fun i task htask _ hother => task?_of_close htask hother

/-- Closing waits for the refresh in the background. -/
theorem Standing.expects (h : e.Standing) (hrunning : e.running? = some other) :
    (e.move (.call .close)).engine.Expects e.nextTask other := by
  obtain ⟨task, session, hother, -⟩ := h.orderly.background other nofun (.inr hrunning)
  have hknown := (h.orderly.tells other task nofun hother).numbered
  have hunbound : ¬ e.Bound e.nextTask := h.orderly.free_nextTask.unbound
  refine ⟨nextTask_lt_call e .close, Nat.lt_trans hknown (nextTask_lt_call e .close),
    fun hmem => hunbound (bound_of_mem_move_close hmem), .inl ?_⟩
  rw [task?_move_close, if_pos rfl, hrunning, Option.map_some]

end

end Engine

end ContentFilter
