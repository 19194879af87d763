import ContentFilter.Proofs.Engine.Splice

/-! # What a status stands for

A status that is not the last word has a task behind it: while the rules of the tables are compiled
there is a compilation of the session, and while a list is looked for there is a refresh that has
not been called off. The other way round, the entries of these tasks tell the status.

* `Engine.Orderly`: what the entries of the tasks tell.
* `Engine.Answered`: the tasks that a status and the flag call for.
* `Engine.Standing`: both, which all moves keep but the calls that end or refresh at once.
-/

set_option autoImplicit false

namespace ContentFilter

variable {H : Type}

namespace Engine

/-! ## The invariant -/

/-- A task has been told to give up, or is the refresh in the background. -/
def Bound (e : Engine H) (id : TaskId) : Prop := id ∈ e.cancelled ∨ e.running? = some id

/-- What the entry of a task tells. -/
structure Tells (e : Engine H) (id : TaskId) (task : Task) : Prop where
  numbered : id < e.nextTask
  bound : task ≠ .refreshing none
  compiles : ∀ purpose ruleSet, task = .compiling purpose e.session ruleSet →
    e.snapshot.status = .compiling
  queued : ∀ session, task = .queued session → id ∉ e.cancelled →
    e.snapshot.status = .readyEmbedded
  refreshing : ∀ session, task = .refreshing session → id ∉ e.cancelled →
    e.snapshot.status = .enhancing

/-- What the entries tell; only those of refreshes are called off. The task whose turn it is is left
out. -/
structure Orderly (turn : Option TaskId) (e : Engine H) : Prop where
  tells : ∀ id task, some id ≠ turn → e.task? id = some task → e.Tells id task
  background : ∀ id, some id ≠ turn → e.Bound id →
    ∃ task session, e.task? id = some task ∧ task.session? = some session

/-- What a status calls for, and the flag. The task whose turn it is does not count. -/
structure Answered (turn : Option TaskId) (e : Engine H) : Prop where
  compiling : e.snapshot.status = .compiling → ∃ id purpose ruleSet, some id ≠ turn ∧
    e.task? id = some (.compiling purpose e.session ruleSet)
  enhancing : e.snapshot.status = .enhancing → ∃ id session, some id ≠ turn ∧
    e.task? id = some (.refreshing session) ∧ id ∉ e.cancelled
  flag : e.compiling = true → ∃ id, some id ≠ turn ∧ e.Compiles id

structure Standing (e : Engine H) : Prop where
  orderly : Orderly none e
  answered : Answered none e

/-- A new compilation can be entered for a task. -/
structure Free (e : Engine H) (id : TaskId) : Prop where
  numbered : id < e.nextTask
  unbound : ¬ e.Bound id

section

variable {e : Engine H} {id : TaskId} {turn : Option TaskId}

theorem standing_start (setup : Setup) (enabled : Bool) :
    (start setup enabled : Engine H).Standing where
  orderly := by
    constructor
    · intro id task _ htask
      simp [task?, start] at htask
    · intro id _ hbound
      simp [Bound, running?, start] at hbound
  answered := by
    constructor <;> simp [start, Snapshot.disabled]

theorem Orderly.during (h : Orderly none e) (id : TaskId) : Orderly (some id) e :=
  ⟨fun j task _ => h.tells j task nofun, fun j _ => h.background j nofun⟩

theorem not_compiles {task : Task} (htask : e.task? id = some task)
    (hother : ∀ purpose session ruleSet, task ≠ .compiling purpose session ruleSet) :
    ¬ e.Compiles id := by
  rintro ⟨purpose, session, ruleSet, hcompiles⟩
  exact hother purpose session ruleSet (Option.some.inj (htask.symm.trans hcompiles))

theorem Answered.flag_during (h : Answered none e) (hcompiles : ¬ e.Compiles id)
    (hflag : e.compiling = true) : ∃ j, some j ≠ some id ∧ e.Compiles j := by
  obtain ⟨j, -, hj⟩ := h.flag hflag
  refine ⟨j, ?_, hj⟩
  rintro ⟨⟩
  exact hcompiles hj

/-- The task whose turn comes is none that the status or the flag calls for. -/
theorem Answered.during (h : Answered none e) (hcompiles : ¬ e.Compiles id)
    (hrefreshes : ∀ session, e.task? id = some (.refreshing session) → id ∈ e.cancelled) :
    Answered (some id) e where
  compiling := by
    intro hstatus
    obtain ⟨j, purpose, ruleSet, -, htask⟩ := h.compiling hstatus
    refine ⟨j, purpose, ruleSet, ?_, htask⟩
    rintro ⟨⟩
    exact hcompiles ⟨purpose, e.session, ruleSet, htask⟩
  enhancing := by
    intro hstatus
    obtain ⟨j, session, -, htask, hlive⟩ := h.enhancing hstatus
    refine ⟨j, session, ?_, htask, hlive⟩
    rintro ⟨⟩
    exact hlive (hrefreshes session htask)
  flag := h.flag_during hcompiles

theorem Orderly.free (h : Orderly none e) {task : Task} (htask : e.task? id = some task)
    (hother : ∀ session, task.session? ≠ some session) : e.Free id := by
  refine ⟨(h.tells id task nofun htask).numbered, fun hbound => ?_⟩
  obtain ⟨task', session, htask', hsession⟩ := h.background id nofun hbound
  obtain rfl := Option.some.inj (htask.symm.trans htask')
  exact hother session hsession

theorem Orderly.task?_nextTask (h : Orderly none e) : e.task? e.nextTask = none := by
  refine Option.eq_none_iff_forall_ne_some.mpr fun task htask => ?_
  exact Nat.lt_irrefl _ (h.tells e.nextTask task nofun htask).numbered

/-- A call gets a number that is free. -/
theorem Orderly.free_nextTask (h : Orderly none e) :
    Free { e with nextTask := e.nextTask + 1 } e.nextTask := by
  refine ⟨Nat.lt_succ_self _, fun hbound => ?_⟩
  obtain ⟨task, session, htask, -⟩ := h.background e.nextTask nofun hbound
  rw [h.task?_nextTask] at htask
  exact absurd htask nofun

/-! ## What the pieces keep -/

theorem Tells.congr {e' : Engine H} {task : Task} (h : e.Tells id task)
    (hnext : e.nextTask ≤ e'.nextTask) (hcancelled : id ∈ e.cancelled → id ∈ e'.cancelled)
    (hsession : e'.session = e.session) (hstatus : e'.snapshot.status = e.snapshot.status) :
    e'.Tells id task := by
  refine ⟨Nat.lt_of_lt_of_le h.numbered hnext, h.bound, ?_, ?_, ?_⟩
  · rw [hsession, hstatus]
    exact h.compiles
  · intro session htask hlive
    rw [hstatus]
    exact h.queued session htask fun hmem => hlive (hcancelled hmem)
  · intro session htask hlive
    rw [hstatus]
    exact h.refreshing session htask fun hmem => hlive (hcancelled hmem)

/-- A refresh that has been called off tells nothing about the status. -/
theorem Tells.of_called_off {e' : Engine H} {task : Task} (h : e.Tells id task)
    (hnext : e.nextTask ≤ e'.nextTask)
    (hoff : ∀ session, task.session? = some session → id ∈ e'.cancelled)
    (hcompiles : ∀ purpose ruleSet, task = .compiling purpose e'.session ruleSet →
      e'.snapshot.status = .compiling) : e'.Tells id task := by
  refine ⟨Nat.lt_of_lt_of_le h.numbered hnext, h.bound, hcompiles, ?_, ?_⟩
  · rintro session rfl hlive
    exact absurd (hoff session rfl) hlive
  · rintro session rfl hlive
    obtain ⟨s, rfl⟩ : ∃ s, session = some s :=
      Option.ne_none_iff_exists'.mp fun hnone => h.bound (by rw [hnone])
    exact absurd (hoff s rfl) hlive

/-- The entry of one task is replaced. -/
theorem Orderly.update {e' : Engine H} {turn' : Option TaskId} (h : Orderly turn e) (id : TaskId)
    (hturn : ∀ j, j ≠ id → some j ≠ turn' → some j ≠ turn)
    (htasks : ∀ j, j ≠ id → e'.task? j = e.task? j)
    (hcancelled : ∀ j, j ≠ id → j ∈ e.cancelled → j ∈ e'.cancelled)
    (hbound : ∀ j, j ≠ id → e'.Bound j → e.Bound j)
    (hnext : e.nextTask ≤ e'.nextTask) (hsession : e'.session = e.session)
    (hstatus : e'.snapshot.status = e.snapshot.status)
    (hnew : ∀ task, e'.task? id = some task → e'.Tells id task)
    (hbackground : e'.Bound id →
      ∃ task session, e'.task? id = some task ∧ task.session? = some session) :
    Orderly turn' e' := by
  constructor
  · intro j task hj htask
    by_cases heq : j = id
    · subst heq
      exact hnew task htask
    · rw [htasks j heq] at htask
      exact (h.tells j task (hturn j heq hj) htask).congr hnext (hcancelled j heq) hsession hstatus
  · intro j hj hjbound
    by_cases heq : j = id
    · subst heq
      exact hbackground hjbound
    · rw [htasks j heq]
      exact h.background j (hturn j heq hj) (hbound j heq hjbound)

/-- The flags, the coordinator and the listeners play no part. -/
theorem Orderly.congr {e' : Engine H} (h : Orderly turn e) (htasks : e'.tasks = e.tasks)
    (hcancelled : e'.cancelled = e.cancelled) (hbackground : e'.background = e.background)
    (hsession : e'.session = e.session) (hsnapshot : e'.snapshot = e.snapshot)
    (hnext : e.nextTask ≤ e'.nextTask) : Orderly turn e' := by
  have htask : ∀ j, e'.task? j = e.task? j := fun j => by simp only [task?, htasks]
  have hbound : ∀ j, e'.Bound j ↔ e.Bound j := fun j => by
    simp only [Bound, running?_eq_some, hcancelled, hbackground]
  constructor
  · intro j task hj hentry
    rw [htask] at hentry
    exact (h.tells j task hj hentry).congr hnext (fun hmem => hcancelled ▸ hmem) hsession
      (congrArg Snapshot.status hsnapshot)
  · intro j hj hjbound
    rw [htask]
    exact h.background j hj ((hbound j).mp hjbound)

theorem Answered.congr {e' : Engine H} (h : Answered turn e) (htasks : e'.tasks = e.tasks)
    (hcancelled : e'.cancelled = e.cancelled) (hcompiling : e'.compiling = e.compiling)
    (hsession : e'.session = e.session) (hsnapshot : e'.snapshot = e.snapshot) :
    Answered turn e' := by
  constructor
  · simp only [hsnapshot, hsession, task?, htasks]
    exact h.compiling
  · simp only [hsnapshot, hcancelled, task?, htasks]
    exact h.enhancing
  · simp only [hcompiling, Compiles, task?, htasks]
    exact h.flag

theorem Standing.congr {e' : Engine H} (h : e.Standing) (htasks : e'.tasks = e.tasks)
    (hcancelled : e'.cancelled = e.cancelled) (hbackground : e'.background = e.background)
    (hcompiling : e'.compiling = e.compiling) (hsession : e'.session = e.session)
    (hsnapshot : e'.snapshot = e.snapshot) (hnext : e'.nextTask = e.nextTask) : e'.Standing :=
  ⟨h.orderly.congr htasks hcancelled hbackground hsession hsnapshot (Nat.le_of_eq hnext.symm),
    h.answered.congr htasks hcancelled hcompiling hsession hsnapshot⟩

theorem Bound.of_finish {ending : Ending} {j : TaskId} (h : (finish id ending e).engine.Bound j) :
    e.Bound j ∧ j ≠ id := by
  obtain hmem | hrunning := h
  · obtain ⟨hmem, hne⟩ := (mem_cancelled_finish e id ending j).mp hmem
    exact ⟨.inl hmem, hne⟩
  · rw [running?_eq_some] at hrunning
    simp only [finish, Option.map_eq_some_iff] at hrunning
    obtain ⟨b, hb, heq⟩ := hrunning
    split at heq
    · simp at heq
    next hne =>
      subst heq
      exact ⟨.inr (running?_eq_some.mpr hb), hne⟩

theorem Orderly.finish (h : Orderly (some id) e) (ending : Ending) :
    Orderly none (finish id ending e).engine := by
  apply h.update id
  · intro j hj _ heq
    exact hj (Option.some.inj heq)
  · intro j hj
    rw [task?_finish, if_neg hj]
  · intro j hj hmem
    exact (mem_cancelled_finish e id ending j).mpr ⟨hmem, hj⟩
  · exact fun j _ hbound => hbound.of_finish.1
  · exact Nat.le_refl _
  · rfl
  · rfl
  · intro task htask
    rw [task?_finish, if_pos rfl] at htask
    exact absurd htask nofun
  · exact fun hbound => absurd rfl hbound.of_finish.2

/-- The turn ends, and the entries of the other tasks stay as they are. -/
theorem Answered.update {e' : Engine H} (h : Answered (some id) e)
    (htasks : ∀ j, j ≠ id → e'.task? j = e.task? j)
    (hcancelled : ∀ j, j ∈ e'.cancelled → j ∈ e.cancelled) (hcompiling : e'.compiling = e.compiling)
    (hsession : e'.session = e.session) (hsnapshot : e'.snapshot = e.snapshot) :
    Answered none e' := by
  have htask : ∀ j, some j ≠ some id → e'.task? j = e.task? j :=
    fun j hj => htasks j fun heq => hj (congrArg some heq)
  constructor
  · rw [hsnapshot, hsession]
    intro hstatus
    obtain ⟨j, purpose, ruleSet, hj, hentry⟩ := h.compiling hstatus
    exact ⟨j, purpose, ruleSet, nofun, (htask j hj).trans hentry⟩
  · rw [hsnapshot]
    intro hstatus
    obtain ⟨j, session, hj, hentry, hlive⟩ := h.enhancing hstatus
    exact ⟨j, session, nofun, (htask j hj).trans hentry, fun hmem => hlive (hcancelled j hmem)⟩
  · rw [hcompiling]
    intro hflag
    obtain ⟨j, hj, purpose, session, ruleSet, hentry⟩ := h.flag hflag
    exact ⟨j, nofun, purpose, session, ruleSet, (htask j hj).trans hentry⟩

theorem Answered.finish (h : Answered (some id) e) (ending : Ending) :
    Answered none (finish id ending e).engine := by
  refine h.update (fun j hj => ?_) (fun j hmem => ?_) rfl rfl rfl
  · rw [task?_finish, if_neg hj]
  · exact ((mem_cancelled_finish e id ending j).mp hmem).1

theorem Orderly.await (h : Orderly (some id) e) {task : Task} (htells : e.Tells id task)
    (hbackground : e.Bound id → ∃ session, task.session? = some session) :
    Orderly none (await id task e) := by
  have hentry : (Engine.await id task e).task? id = some task := by
    rw [task?_await, if_pos rfl]
  apply h.update id
  · intro j hj _ heq
    exact hj (Option.some.inj heq)
  · intro j hj
    rw [task?_await, if_neg hj]
  · exact fun _ _ hmem => hmem
  · exact fun _ _ hbound => hbound
  · exact Nat.le_refl _
  · rfl
  · rfl
  · intro task' htask
    obtain rfl := Option.some.inj (hentry.symm.trans htask)
    exact htells.congr (Nat.le_refl _) (fun hmem => hmem) rfl rfl
  · intro hbound
    obtain ⟨session, hsession⟩ := hbackground hbound
    exact ⟨task, session, hentry, hsession⟩

theorem Answered.await (h : Answered (some id) e) (task : Task) :
    Answered none (await id task e) := by
  refine h.update (fun j hj => ?_) (fun _ hmem => hmem) rfl rfl rfl
  rw [task?_await, if_neg hj]

/-- A status that calls for nothing, with the flag that has been there. -/
theorem Answered.of_status {e' : Engine H} (h : Answered turn e) (htasks : e'.tasks = e.tasks)
    (hcompiling : e'.compiling = e.compiling) (hnot : e'.snapshot.status ≠ .compiling)
    (hnot' : e'.snapshot.status ≠ .enhancing) : Answered turn e' := by
  refine ⟨fun hstatus => absurd hstatus hnot, fun hstatus => absurd hstatus hnot', ?_⟩
  simp only [hcompiling, Compiles, task?, htasks]
  exact h.flag

theorem Orderly.conclude (h : Orderly (some id) e) (purpose : Purpose) :
    Orderly none (conclude id purpose e).engine := by
  cases purpose with
  | call notify => exact h.finish _
  | switch => exact h.finish _

theorem Answered.conclude (h : Answered (some id) e) (purpose : Purpose) :
    Answered none (conclude id purpose e).engine := by
  cases purpose with
  | call notify => exact h.finish _
  | switch => exact h.finish _

/-- No compilation is one of the session that lasts. -/
def Outdated (turn : Option TaskId) (e : Engine H) : Prop :=
  ∀ j purpose session ruleSet, some j ≠ turn →
    e.task? j = some (.compiling purpose session ruleSet) → session ≠ e.session

theorem Idle.outdated (h : Idle turn e) : Outdated turn e :=
  fun j purpose session ruleSet hj htask => absurd ⟨purpose, session, ruleSet, htask⟩ (h j hj)

/-- Only a status that tells a compilation has one behind it. -/
theorem Orderly.outdated (h : Orderly turn e) (hnot : e.snapshot.status ≠ .compiling) :
    Outdated turn e := by
  rintro j purpose session ruleSet hj htask rfl
  exact hnot ((h.tells j _ hj htask).compiles purpose ruleSet rfl)

/-- A snapshot is published when no refresh counts on the one before; a compilation of the session
has to be told. -/
theorem Orderly.publish (h : Orderly turn e) (hquiet : Unrefreshed turn e) {s : Snapshot H}
    (hcompiles : s.status = .compiling ∨ Outdated turn e) : Orderly turn (publish s e).engine := by
  refine ⟨fun j task hj htask => ?_, h.background⟩
  refine (h.tells j task hj htask).of_called_off (Nat.le_refl _)
    (fun session => hquiet j task session hj htask) ?_
  rintro purpose ruleSet rfl
  exact hcompiles.resolve_right fun houtdated => houtdated j purpose _ ruleSet hj htask rfl

theorem outdated_endSession (h : Consistent turn e) (enabled compiling : Bool) :
    Outdated turn (endSession { e with enabled := enabled, compiling := compiling }).engine := by
  rw [endSession_engine]
  intro j purpose session ruleSet hj htask
  have hbegun := ((h.fits j _ hj htask).compiles purpose session ruleSet rfl).begun
  exact Nat.ne_of_lt (Nat.lt_succ_of_le hbegun)

theorem Orderly.endSession (h : Orderly turn e) (hcons : Consistent turn e)
    (enabled compiling : Bool) (hflag : e.compiling = true → compiling = true) :
    Orderly turn (endSession { e with enabled := enabled, compiling := compiling }).engine := by
  have hquiet := (hcons.endSession enabled compiling hflag).unrefreshed (by simp)
  have houtdated := outdated_endSession hcons enabled compiling
  constructor
  · intro j task hj htask
    have htells := h.tells j task hj (by simpa [task?] using htask)
    refine htells.of_called_off (by simp) (fun session => hquiet j task session hj htask) ?_
    rintro purpose ruleSet rfl
    exact absurd rfl (houtdated j purpose _ ruleSet hj htask)
  · intro j hj hbound
    have hbefore : e.Bound j := by
      simpa [Bound, running?, or_comm] using hbound
    simpa [task?] using h.background j hj hbefore

theorem Orderly.schedule (h : Orderly turn e) (hstatus : e.snapshot.status = .readyEmbedded) :
    Orderly turn (schedule e).engine := by
  unfold Engine.schedule
  split
  · exact h
  have hentry := (task?_await e e.nextTask (.queued e.session) e.nextTask).trans (if_pos rfl)
  apply h.update e.nextTask
  · exact fun j _ hj => hj
  · intro j hj
    exact (task?_await e e.nextTask _ j).trans (if_neg hj)
  · exact fun _ _ hmem => hmem
  · rintro j hj (hmem | hrunning)
    · exact .inl hmem
    · exact absurd (Option.some.inj hrunning).symm hj
  · exact Nat.le_succ _
  · rfl
  · rfl
  · intro task htask
    obtain rfl := Option.some.inj (hentry.symm.trans htask)
    exact ⟨Nat.lt_succ_self _, nofun, nofun, fun _ _ _ => hstatus, nofun⟩
  · exact fun _ => ⟨_, _, hentry, rfl⟩

/-! ## Compiling the tables -/

theorem Orderly.shutDown (h : Orderly turn e) (hcons : Consistent turn e) (enabled : Bool) :
    Orderly turn (shutDown { e with enabled := enabled }).engine := by
  have hended := h.endSession hcons enabled e.compiling fun hflag => hflag
  have hquiet := (hcons.endSession enabled e.compiling fun hflag => hflag).unrefreshed (by simp)
  have houtdated := outdated_endSession hcons enabled e.compiling
  exact hended.publish hquiet (.inr houtdated)

theorem Answered.shutDown (h : Answered turn e) (enabled : Bool) :
    Answered turn (shutDown { e with enabled := enabled }).engine := by
  refine h.of_status ?_ ?_ ?_ ?_
  · simp [Engine.shutDown]
  · simp [Engine.shutDown]
  · simp [Engine.shutDown, Snapshot.disabled]
  · simp [Engine.shutDown, Snapshot.disabled]

/-- The compiled rules are put in force, and the flag is down. -/
theorem Orderly.install (h : Orderly (some id) e) (hquiet : Unrefreshed (some id) e)
    (hidle : Idle (some id) e) (hoff : e.compiling = false) (purpose : Purpose) (ruleSet : RuleSet)
    (result : CompileResult H) : (install id purpose ruleSet result e).engine.Standing where
  orderly := by
    unfold Engine.install
    simp only [Moved.andThen_engine]
    apply Orderly.conclude
    apply Orderly.schedule
    · exact h.publish hquiet (.inr hidle.outdated)
    · rfl
  answered := by
    have hstatus : (Engine.install id purpose ruleSet result e).engine.snapshot.status =
        .readyEmbedded := by
      simp [Engine.install]
    have hflag : (Engine.install id purpose ruleSet result e).engine.compiling = false := by
      simpa [Engine.install] using hoff
    constructor
    · simp [hstatus]
    · simp [hstatus]
    · simp [hflag]

theorem Orderly.submit (h : Orderly (some id) e) (hquiet : Unrefreshed (some id) e)
    (hidle : Idle (some id) e) (hfree : e.Free id) (hstatus : e.snapshot.status = .compiling)
    (purpose : Purpose) (ruleSet : RuleSet) : (submit id purpose ruleSet e).engine.Standing := by
  unfold Engine.submit
  split
  · apply Orderly.install
    · exact h.congr rfl rfl rfl rfl rfl (Nat.le_refl _)
    · exact hquiet
    · exact hidle
    · rfl
  · have hentry : (Engine.await id (.compiling purpose e.session ruleSet) e).task? id =
        some (.compiling purpose e.session ruleSet) := by
      rw [task?_await, if_pos rfl]
    constructor
    · exact h.await ⟨hfree.numbered, nofun, fun _ _ _ => hstatus, nofun, nofun⟩
        fun hbound => absurd hbound hfree.unbound
    · refine ⟨fun _ => ⟨id, purpose, ruleSet, nofun, hentry⟩, fun henhancing => ?_,
        fun _ => ⟨id, nofun, purpose, e.session, ruleSet, hentry⟩⟩
      exact absurd (hstatus.symm.trans henhancing) nofun

theorem Orderly.compile (h : Orderly (some id) e) (hcons : Consistent (some id) e)
    (hanswered : Answered (some id) e) (hfree : e.Free id) (purpose : Purpose) :
    (compile id purpose e).engine.Standing := by
  unfold Engine.compile
  split
  · exact ⟨Orderly.conclude (h.shutDown hcons e.enabled) purpose,
      Answered.conclude (hanswered.shutDown e.enabled) purpose⟩
  · split
    · exact ⟨h.conclude purpose, hanswered.conclude purpose⟩
    next hoff =>
      have hidle := hcons.idle (by simpa using hoff)
      have hended := h.endSession hcons e.enabled true fun _ => rfl
      have hquiet := (hcons.endSession e.enabled true fun _ => rfl).unrefreshed (by simp)
      have hidle' : Idle (some id) (Engine.endSession { e with compiling := true }).engine := by
        simpa [Idle, Compiles, task?] using hidle
      simp only [Moved.andThen_engine]
      apply Orderly.submit
      · exact hended.publish hquiet (.inl rfl)
      · exact hquiet
      · exact hidle'
      · refine ⟨by simpa using hfree.numbered, fun hbound => hfree.unbound ?_⟩
        simpa [Bound, running?, or_comm] using hbound
      · rfl

theorem Answered.ne_compiling (h : Answered turn e) (hcons : Consistent turn e)
    (hoff : e.compiling = false) : e.snapshot.status ≠ .compiling := by
  intro hstatus
  obtain ⟨j, purpose, ruleSet, hj, htask⟩ := h.compiling hstatus
  exact hcons.idle hoff j hj ⟨purpose, e.session, ruleSet, htask⟩

/-- The only compilation is one of a session that has ended, so no status calls for it. -/
theorem Standing.ne_compiling (h : e.Standing) (hcons : Consistent none e) {purpose : Purpose}
    {session : Nat} {ruleSet : RuleSet}
    (htask : e.task? id = some (.compiling purpose session ruleSet)) (hover : session ≠ e.session) :
    e.snapshot.status ≠ .compiling := by
  intro hstatus
  obtain ⟨j, p, rs, -, hj⟩ := h.answered.compiling hstatus
  obtain rfl : id = j := hcons.alone id j nofun nofun ⟨purpose, session, ruleSet, htask⟩
    ⟨p, e.session, rs, hj⟩
  obtain ⟨-, hsession, -⟩ := Task.compiling.inj (Option.some.inj (htask.symm.trans hj))
  exact hover hsession

theorem Standing.compiled (h : e.Standing) (hcons : Consistent none e) {purpose : Purpose}
    {session : Nat} {ruleSet : RuleSet}
    (htask : e.task? id = some (.compiling purpose session ruleSet)) (result : CompileResult H) :
    (compiled id purpose session ruleSet result e).engine.Standing := by
  have hidle : Idle (some id) e := hcons.idle_of_compiles ⟨purpose, session, ruleSet, htask⟩
  have hheld := (hcons.fits id _ nofun htask).compiles purpose session ruleSet rfl
  have hfree : Orderly (some id) { e with compiling := false } :=
    (h.orderly.during id).congr rfl rfl rfl rfl rfl (Nat.le_refl _)
  unfold Engine.compiled
  dsimp only
  split
  next hlasts =>
    have hquiet := (hcons.during id).unrefreshed (hheld.background hlasts)
    exact hfree.install hquiet hidle rfl purpose ruleSet result
  next hover =>
    have hanswered : Answered (some id) { e with compiling := false } := by
      refine ⟨fun hstatus => ?_, fun hstatus => ?_, nofun⟩
      · exact absurd hstatus (h.ne_compiling hcons htask hover)
      · obtain ⟨j, s, -, hj, hlive⟩ := h.answered.enhancing hstatus
        refine ⟨j, s, ?_, hj, hlive⟩
        rintro ⟨⟩
        exact absurd (htask.symm.trans hj) nofun
    split
    · have hunbound := h.orderly.free htask nofun
      exact hfree.compile ((hcons.during id).compiling hidle false) hanswered
        ⟨hunbound.numbered, hunbound.unbound⟩ purpose
    · exact ⟨hfree.conclude purpose, hanswered.conclude purpose⟩

theorem Orderly.switch (h : Orderly (some id) e) (hcons : Consistent (some id) e)
    (hanswered : Answered (some id) e) (hfree : e.Free id) (value : Bool) :
    (switch id value e).engine.Standing := by
  unfold Engine.switch
  split
  · exact ⟨h.finish _, hanswered.finish _⟩
  · split
    · apply Orderly.compile
      · exact h.congr rfl rfl rfl rfl rfl (Nat.le_refl _)
      · exact hcons.enable
      · exact hanswered.congr rfl rfl rfl rfl rfl
      · exact ⟨hfree.numbered, hfree.unbound⟩
    · rw [Moved.andThen_engine]
      exact ⟨Orderly.finish (h.shutDown hcons false) _,
        Answered.finish (hanswered.shutDown false) _⟩

/-! ## Refreshing -/

/-- A refresh of the session that lasts ends; its status is not the last word any more. -/
theorem Orderly.endRefresh (h : Orderly (some id) e) (hquiet : Unrefreshed (some id) e)
    {session : Nat} (hlasts : e.isCurrent (some session) = true)
    (hstatus : e.snapshot.status = .enhancing ∨ e.snapshot.status = .readyEnhanced)
    (hflag : e.compiling = true → ∃ j, some j ≠ some id ∧ e.Compiles j)
    (outcome : Except Failure Outcome) :
    (endRefresh id (some session) outcome e).engine.Standing := by
  have hnot : e.snapshot.status ≠ .compiling := by
    intro hcompiling
    rw [hcompiling] at hstatus
    exact absurd hstatus (by decide)
  unfold Engine.endRefresh
  dsimp only
  rw [if_pos hlasts, Moved.andThen_engine]
  have hnoted : Orderly (some id) { e with lastRefresh := outcome.toOption } :=
    h.congr rfl rfl rfl rfl rfl (Nat.le_refl _)
  split
  · constructor
    · exact Orderly.finish (hnoted.publish hquiet (.inr (h.outdated hnot))) _
    · apply Answered.finish
      exact ⟨nofun, nofun, hflag⟩
  next hother =>
    refine ⟨hnoted.finish _, ?_⟩
    apply Answered.finish
    exact ⟨fun hcompiling => absurd hcompiling hnot,
      fun henhancing => absurd henhancing hother, hflag⟩

theorem Refreshes.isCurrent {session : Nat} (h : e.Refreshes id session) :
    e.isCurrent (some session) = true := by
  simp [Engine.isCurrent, h.enabled, h.lasts]

theorem Orderly.follow (h : Orderly (some id) e) (hcons : Consistent (some id) e) {session : Nat}
    (hself : e.Refreshes id session) (hlive : id ∉ e.cancelled) (hnumbered : id < e.nextTask)
    (hstatus : e.snapshot.status = .enhancing)
    (hflag : e.compiling = true → ∃ j, some j ≠ some id ∧ e.Compiles j)
    {turn : Coordinator.Turn H} (hstays : turn = .unmoved → e.Standing) :
    (follow id (some session) turn e).engine.Standing := by
  have hquiet := hcons.unrefreshed_of_refreshes hself
  have hlasts := hself.isCurrent
  cases turn with
  | waiting demand =>
    have hentry : (Engine.await id (.refreshing (some session)) e).task? id =
        some (.refreshing (some session)) := by
      rw [task?_await, if_pos rfl]
    constructor
    · exact h.await ⟨hnumbered, nofun, nofun, nofun, fun _ _ _ => hstatus⟩ fun _ => ⟨session, rfl⟩
    · refine ⟨fun hcompiling => ?_, fun _ => ⟨id, some session, nofun, hentry, hlive⟩,
        fun hraised => ?_⟩
      · exact absurd (hstatus.symm.trans hcompiling) nofun
      · obtain ⟨j, hj, purpose, s, ruleSet, htask⟩ := hflag hraised
        refine ⟨j, nofun, purpose, s, ruleSet, ?_⟩
        rw [Engine.follow, task?_await, if_neg fun heq => hj (congrArg some heq)]
        exact htask
  | finished outcome => exact h.endRefresh hquiet hlasts (.inl hstatus) hflag _
  | offered ruleSet list outcome =>
    unfold Engine.follow
    dsimp only
    rw [Moved.andThen_engine]
    split
    · unfold Engine.enhance
      apply Orderly.endRefresh
      · exact h.publish hquiet (.inr (h.outdated (by simp [hstatus])))
      · exact hquiet
      · exact hlasts
      · exact .inr rfl
      · exact hflag
    · exact h.endRefresh hquiet hlasts (.inl hstatus) hflag _
  | failed f => exact h.endRefresh hquiet hlasts (.inl hstatus) hflag _
  | unmoved => exact hstays rfl

theorem Orderly.refresh (h : Orderly (some id) e) (hcons : Consistent (some id) e) {session : Nat}
    (hself : e.Refreshes id session) (hlive : id ∉ e.cancelled) (hnumbered : id < e.nextTask)
    (hstatus : e.snapshot.status = .enhancing)
    (hflag : e.compiling = true → ∃ j, some j ≠ some id ∧ e.Compiles j) :
    (refresh id (some session) e).engine.Standing := by
  have hcall := e.coordinator.call_turn (H := H) id e.setup.config.sources
  unfold Engine.refresh
  dsimp only
  apply Orderly.follow
  · exact h.congr rfl rfl rfl rfl rfl (Nat.le_refl _)
  · exact hcons.congr rfl rfl rfl rfl rfl rfl
  · exact hself.congr rfl rfl rfl
  · exact hlive
  · exact hnumbered
  · exact hstatus
  · exact hflag
  · intro hturn
    rcases hcall with hcall | ⟨demand, hcall⟩ <;> exact absurd (hcall.symm.trans hturn) nofun

/-! ## Moves -/

/-- A task that has been told to give up does so. -/
theorem Standing.unwind (h : e.Standing) (hmem : id ∈ e.cancelled) :
    (unwind id e).engine.Standing := by
  unfold Engine.unwind
  split
  · exact h
  · have hidle : ¬ e.Compiles id := by
      rintro ⟨purpose, session, ruleSet, htask⟩
      exact (h.orderly.free htask nofun).unbound (.inl hmem)
    constructor
    · apply Orderly.finish
      exact (h.orderly.during id).congr rfl rfl rfl rfl rfl (Nat.le_refl _)
    · apply Answered.finish
      exact (h.answered.during hidle fun _ _ => hmem).congr rfl rfl rfl rfl rfl

/-- A task that no status calls for ends. -/
theorem Standing.finish (h : e.Standing) {task : Task} (htask : e.task? id = some task)
    (hcompiles : ∀ purpose session ruleSet, task ≠ .compiling purpose session ruleSet)
    (hrefreshes : ∀ session, task ≠ .refreshing session) (ending : Ending) :
    (finish id ending e).engine.Standing := by
  refine ⟨(h.orderly.during id).finish ending, Answered.finish ?_ ending⟩
  refine h.answered.during (not_compiles htask hcompiles) fun session hentry => ?_
  exact absurd (Option.some.inj (htask.symm.trans hentry)) (hrefreshes session)

theorem Standing.begin (h : e.Standing) (hcons : Consistent none e) :
    (begin id e).engine.Standing := by
  unfold Engine.begin
  split
  next session htask =>
    split
    next hcancelled => exact h.unwind (by simpa using hcancelled)
    next hlive =>
      have hmem : id ∉ e.cancelled := by simpa using hlive
      have htells := h.orderly.tells id _ nofun htask
      have hready := htells.queued session rfl hmem
      have hself := (hcons.fits id _ nofun htask).refreshes session rfl hmem
      have hquiet := (hcons.during id).unrefreshed_of_refreshes hself
      rw [Moved.andThen_engine]
      apply Orderly.refresh
      · have houtdated := (h.orderly.during id).outdated (by simp [hready])
        exact (h.orderly.during id).publish hquiet (.inr houtdated)
      · exact (hcons.during id).congr rfl rfl rfl rfl rfl rfl
      · exact hself.congr rfl rfl rfl
      · exact hmem
      · exact htells.numbered
      · rfl
      · exact h.answered.flag_during (not_compiles htask nofun)
  · exact h

theorem Standing.resume (h : e.Standing) (hcons : Consistent none e) (reply : Reply H) :
    (resume id reply e).engine.Standing := by
  unfold Engine.resume
  split
  next hcancelled => exact h.unwind (by simpa using hcancelled)
  next hlive =>
    have hmem : id ∉ e.cancelled := by simpa using hlive
    split
    next value htask =>
      have hanswered := h.answered.during (not_compiles htask nofun) fun session hentry =>
        absurd (htask.symm.trans hentry) nofun
      have hfree := h.orderly.free htask nofun
      exact (h.orderly.during id).switch (hcons.during id) hanswered hfree value
    next value f htask => exact h.finish htask nofun nofun _
    next purpose session ruleSet result htask => exact h.compiled hcons htask result
    next session htask =>
      have htells := h.orderly.tells id _ nofun htask
      obtain ⟨session, rfl⟩ : ∃ s, session = some s :=
        Option.ne_none_iff_exists'.mp fun hnone => htells.bound (by rw [hnone])
      have hself := (hcons.fits id _ nofun htask).refreshes session rfl hmem
      dsimp only
      apply Orderly.follow
      · exact (h.orderly.during id).congr rfl rfl rfl rfl rfl (Nat.le_refl _)
      · exact (hcons.during id).congr rfl rfl rfl rfl rfl rfl
      · exact hself.congr rfl rfl rfl
      · exact hmem
      · exact htells.numbered
      · exact htells.refreshing (some session) rfl hmem
      · exact h.answered.flag_during (not_compiles htask nofun)
      · exact fun _ => h.congr rfl rfl rfl rfl rfl rfl rfl
    · exact h

theorem Standing.call (h : e.Standing) (hcons : Consistent none e) {c : Call} (hclose : c ≠ .close)
    (hrefresh : c ≠ .refresh) : (call c e).engine.Standing := by
  have hnew : Orderly (some e.nextTask) { e with nextTask := e.nextTask + 1 } :=
    (h.orderly.during e.nextTask).congr rfl rfl rfl rfl rfl (Nat.le_succ _)
  have hcons' : Consistent (some e.nextTask) { e with nextTask := e.nextTask + 1 } :=
    (hcons.during e.nextTask).congr rfl rfl rfl rfl rfl rfl
  have hnone := h.orderly.task?_nextTask
  have hanswered : Answered (some e.nextTask) { e with nextTask := e.nextTask + 1 } := by
    refine (h.answered.during ?_ fun session htask => ?_).congr rfl rfl rfl rfl rfl
    · rintro ⟨purpose, session, ruleSet, htask⟩
      exact absurd (hnone.symm.trans htask) nofun
    · exact absurd (hnone.symm.trans htask) nofun
  have hfree := h.orderly.free_nextTask
  cases c with
  | compile notify => exact hnew.compile hcons' hanswered hfree _
  | setEnabled value =>
    unfold Engine.call
    dsimp only
    split
    · refine ⟨hnew.await ⟨hfree.numbered, nofun, nofun, nofun, nofun⟩ ?_, hanswered.await _⟩
      exact fun hbound => absurd hbound hfree.unbound
    · exact hnew.switch hcons' hanswered hfree value
  | close => exact absurd rfl hclose
  | refresh => exact absurd rfl hrefresh

/-- Every move keeps what a status stands for but the calls that end or refresh at once. -/
theorem Standing.move (h : e.Standing) (hcons : Consistent none e) {mv : Move H}
    (hclose : mv ≠ .call .close) (hrefresh : mv ≠ .call .refresh) :
    (e.move mv).engine.Standing := by
  cases mv with
  | call c =>
    exact h.call hcons (fun heq => hclose (congrArg _ heq)) fun heq => hrefresh (congrArg _ heq)
  | begin id => exact h.begin hcons
  | resume id reply => exact h.resume hcons reply
  | unwind id =>
    dsimp only [Engine.move]
    split
    next hcancelled => exact h.unwind (by simpa using hcancelled)
    · exact h
  | wake id =>
    dsimp only [Engine.move, wake]
    split
    next other htask => exact h.finish htask nofun nofun _
    · exact h
  | subscribe name => exact h.congr rfl rfl rfl rfl rfl rfl rfl
  | unsubscribe ticket => exact h.congr rfl rfl rfl rfl rfl rfl rfl

theorem Standing.run (h : e.Standing) (hcons : Consistent none e) {moves : List (Move H)}
    (hclose : .call .close ∉ moves) (hrefresh : .call .refresh ∉ moves) :
    (e.run moves).Standing := by
  induction moves generalizing e with
  | nil => exact h
  | cons mv moves ih =>
    rw [List.mem_cons, not_or] at hclose hrefresh
    exact ih (h.move hcons (Ne.symm hclose.1) (Ne.symm hrefresh.1)) (hcons.move mv) hclose.2
      hrefresh.2

end

end Engine

end ContentFilter
