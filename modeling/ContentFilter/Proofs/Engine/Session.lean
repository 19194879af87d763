import ContentFilter.Proofs.Engine.Run

/-! # Sessions

A session lasts until the next one begins. A refresh in the background that has not been called off
belongs to the session that lasts, and so does a compilation whose session number is the present
one; both need an engine that is switched on. Hence nothing that is under way when the engine is
switched off can publish afterwards.

* `Engine.Consistent`: what ties the tasks of an engine to its session.
* `Engine.consistent_run`: it holds after any moves.
* `Engine.silent_run`: an engine that is switched off has nothing in force and publishes nothing.
-/

set_option autoImplicit false

namespace ContentFilter

variable {H : Type}

/-! ## The invariant -/

/-- The session of a refresh in the background. -/
def Task.session? : Task → Option Nat
  | .queued session => some session
  | .refreshing session => session
  | _ => none

namespace Engine

/-- A task is the refresh in the background of the session that lasts. -/
structure Refreshes (e : Engine H) (id : TaskId) (session : Nat) : Prop where
  running : e.background = some ⟨id, none⟩
  lasts : session = e.session
  enabled : e.enabled = true

/-- A compilation holds the flag, and as long as its session lasts nothing else has begun. -/
structure HoldsFlag (e : Engine H) (session : Nat) : Prop where
  flag : e.compiling = true
  begun : session ≤ e.session
  enabled : session = e.session → e.enabled = true
  background : session = e.session → e.background = none

/-- What the entry of a task says about the engine. -/
structure Fits (e : Engine H) (id : TaskId) (task : Task) : Prop where
  refreshes : ∀ session, task.session? = some session → id ∉ e.cancelled → e.Refreshes id session
  compiles : ∀ purpose session ruleSet, task = .compiling purpose session ruleSet →
    e.HoldsFlag session

/-- A task waits for the chunks of the tables. -/
def Compiles (e : Engine H) (id : TaskId) : Prop :=
  ∃ purpose session ruleSet, e.task? id = some (.compiling purpose session ruleSet)

/-- What ties the tasks to the session, the flags and the background. The task whose turn it is is
left out, since its entry is out of date until the turn ends. -/
structure Consistent (turn : Option TaskId) (e : Engine H) : Prop where
  fits : ∀ id task, some id ≠ turn → e.task? id = some task → e.Fits id task
  alone : ∀ i j, some i ≠ turn → some j ≠ turn → e.Compiles i → e.Compiles j → i = j

/-- No task compiles; the one whose turn it is is left out. -/
def Idle (turn : Option TaskId) (e : Engine H) : Prop :=
  ∀ id, some id ≠ turn → ¬ e.Compiles id

section

variable {e : Engine H} {id : TaskId} {turn : Option TaskId}

theorem consistent_start (setup : Setup) (enabled : Bool) :
    Consistent none (start setup enabled : Engine H) := by
  constructor
  · intro id task _ htask
    simp [task?, start] at htask
  · rintro i j _ _ ⟨purpose, session, ruleSet, htask⟩
    simp [task?, start] at htask

theorem Consistent.during (h : Consistent none e) (id : TaskId) : Consistent (some id) e :=
  ⟨fun j task _ => h.fits j task nofun, fun i j _ _ => h.alone i j nofun nofun⟩

theorem Consistent.idle (h : Consistent turn e) (hoff : e.compiling = false) : Idle turn e := by
  rintro j hj ⟨purpose, session, ruleSet, htask⟩
  have hflag := ((h.fits j _ hj htask).compiles purpose session ruleSet rfl).flag
  rw [hoff] at hflag
  exact Bool.noConfusion hflag

theorem Consistent.idle_of_compiles (h : Consistent none e) (hid : e.Compiles id) :
    Idle (some id) e := by
  intro j hj hcompiles
  exact hj (congrArg some (h.alone j id nofun nofun hcompiles hid))

/-! ## What the pieces keep -/

theorem Refreshes.congr {e' : Engine H} {session : Nat} (h : e.Refreshes id session)
    (hbackground : e'.background = e.background) (hsession : e'.session = e.session)
    (henabled : e'.enabled = e.enabled) : e'.Refreshes id session := by
  obtain ⟨hrunning, hlasts, hon⟩ := h
  exact ⟨hbackground ▸ hrunning, hsession ▸ hlasts, henabled ▸ hon⟩

theorem Fits.congr {e' : Engine H} {task : Task} (h : e.Fits id task)
    (hcancelled : e'.cancelled = e.cancelled) (hbackground : e'.background = e.background)
    (hsession : e'.session = e.session) (henabled : e'.enabled = e.enabled)
    (hcompiling : e'.compiling = e.compiling) : e'.Fits id task := by
  constructor
  · intro session hs hlive
    rw [hcancelled] at hlive
    exact (h.refreshes session hs hlive).congr hbackground hsession henabled
  · intro purpose session ruleSet heq
    obtain ⟨hflag, hbegun, hon, hnone⟩ := h.compiles purpose session ruleSet heq
    rw [← hcompiling] at hflag
    rw [← hsession] at hbegun hon hnone
    rw [← henabled] at hon
    rw [← hbackground] at hnone
    exact ⟨hflag, hbegun, hon, hnone⟩

/-- The snapshot, the coordinator and the listeners play no part. -/
theorem Consistent.congr {e' : Engine H} (h : Consistent turn e) (htasks : e'.tasks = e.tasks)
    (hcancelled : e'.cancelled = e.cancelled) (hbackground : e'.background = e.background)
    (hsession : e'.session = e.session) (henabled : e'.enabled = e.enabled)
    (hcompiling : e'.compiling = e.compiling) : Consistent turn e' := by
  have htask : ∀ j, e'.task? j = e.task? j := by
    intro j
    simp only [task?, htasks]
  constructor
  · intro j task hj hentry
    rw [htask] at hentry
    exact (h.fits j task hj hentry).congr hcancelled hbackground hsession henabled hcompiling
  · intro i j hi hj hci hcj
    simp only [Compiles, htask] at hci hcj
    exact h.alone i j hi hj hci hcj

/-- The entry of one task is replaced, and those of the others still fit. -/
theorem Consistent.update {e' : Engine H} {turn' : Option TaskId} (h : Consistent turn e)
    (id : TaskId)
    (hturn : ∀ j, j ≠ id → some j ≠ turn' → some j ≠ turn)
    (htasks : ∀ j, j ≠ id → e'.task? j = e.task? j)
    (hkept : ∀ j task, j ≠ id → some j ≠ turn' → e.task? j = some task → e.Fits j task →
      e'.Fits j task)
    (hnew : ∀ task, e'.task? id = some task → e'.Fits id task)
    (halone : e'.Compiles id → ∀ j, j ≠ id → some j ≠ turn' → ¬ e.Compiles j) :
    Consistent turn' e' := by
  have compiles_iff : ∀ j, j ≠ id → (e'.Compiles j ↔ e.Compiles j) := by
    intro j hj
    simp only [Compiles, htasks j hj]
  constructor
  · intro j task hj htask
    by_cases heq : j = id
    · subst heq
      exact hnew task htask
    · rw [htasks j heq] at htask
      exact hkept j task heq hj htask (h.fits j task (hturn j heq hj) htask)
  · intro i j hi hj hci hcj
    by_cases hieq : i = id
    · by_cases hjeq : j = id
      · rw [hieq, hjeq]
      · subst hieq
        exact absurd ((compiles_iff j hjeq).mp hcj) (halone hci j hjeq hj)
    · by_cases hjeq : j = id
      · subst hjeq
        exact absurd ((compiles_iff i hieq).mp hci) (halone hcj i hieq hi)
      · exact h.alone i j (hturn i hieq hi) (hturn j hjeq hj) ((compiles_iff i hieq).mp hci)
          ((compiles_iff j hjeq).mp hcj)

theorem Consistent.finish (h : Consistent (some id) e) (ending : Ending) :
    Consistent none (finish id ending e).engine := by
  have hgone : (Engine.finish id ending e).engine.task? id = none := by
    rw [task?_finish, if_pos rfl]
  apply h.update id
  · intro j hj _ heq
    exact hj (Option.some.inj heq)
  · intro j hj
    rw [task?_finish, if_neg hj]
  · intro j task hj _ _ hfits
    constructor
    · intro session hsession hlive
      have hmem : j ∉ e.cancelled := fun hmem =>
        hlive ((mem_cancelled_finish e id ending j).mpr ⟨hmem, hj⟩)
      obtain ⟨hrunning, hlasts, hon⟩ := hfits.refreshes session hsession hmem
      refine ⟨?_, hlasts, hon⟩
      simp [Engine.finish, hrunning, hj]
    · intro purpose session ruleSet heq
      obtain ⟨hflag, hbegun, hon, hnone⟩ := hfits.compiles purpose session ruleSet heq
      refine ⟨hflag, hbegun, hon, fun hlasts => ?_⟩
      simp [Engine.finish, hnone hlasts]
  · intro task htask
    simp [hgone] at htask
  · rintro ⟨purpose, session, ruleSet, htask⟩
    simp [hgone] at htask

theorem Consistent.await (h : Consistent (some id) e) {task : Task} (hfits : e.Fits id task)
    (hidle : (∃ purpose session ruleSet, task = .compiling purpose session ruleSet) →
      Idle (some id) e) :
    Consistent none (await id task e) := by
  have hentry : (Engine.await id task e).task? id = some task := by
    rw [task?_await, if_pos rfl]
  apply h.update id
  · intro j hj _ heq
    exact hj (Option.some.inj heq)
  · intro j hj
    rw [task?_await, if_neg hj]
  · intro j task' _ _ _ hkept
    exact hkept.congr rfl rfl rfl rfl rfl
  · intro task' htask
    rw [hentry] at htask
    obtain rfl := Option.some.inj htask
    exact hfits.congr rfl rfl rfl rfl rfl
  · rintro ⟨purpose, session, ruleSet, htask⟩ j hj _
    rw [hentry] at htask
    exact hidle ⟨purpose, session, ruleSet, Option.some.inj htask⟩ j (by simpa using hj)

/-- A new session calls off the refresh in the background and outlives the compilation; so the switch
may be turned, and the flag taken, at that moment. -/
theorem Consistent.endSession (h : Consistent turn e) (enabled compiling : Bool)
    (hflag : e.compiling = true → compiling = true) :
    Consistent turn (endSession { e with enabled := enabled, compiling := compiling }).engine := by
  have htask : ∀ j, (Engine.endSession { e with
      enabled := enabled, compiling := compiling }).engine.task? j = e.task? j := by
    intro j
    simp [task?]
  constructor
  · intro j task hj hentry
    rw [htask] at hentry
    have hfits := h.fits j task hj hentry
    constructor
    · -- A refresh that still lives would be the one that has just been called off.
      intro session hs hlive
      simp only [endSession_engine, List.mem_append, Option.mem_toList, not_or] at hlive
      have hrunning := (hfits.refreshes session hs hlive.2).running
      exact absurd (running?_eq_some.mpr hrunning) hlive.1
    · intro purpose session ruleSet heq
      obtain ⟨hheld, hbegun, -, -⟩ := hfits.compiles purpose session ruleSet heq
      simp only [endSession_engine]
      exact ⟨hflag hheld, by dsimp only; omega, by dsimp only; omega, by dsimp only; omega⟩
  · intro i j hi hj hci hcj
    simp only [Compiles, htask] at hci hcj
    exact h.alone i j hi hj hci hcj

theorem Consistent.compiling (h : Consistent turn e) (hidle : Idle turn e) (compiling : Bool) :
    Consistent turn { e with compiling := compiling } := by
  constructor
  · intro j task hj hentry
    have hfits := h.fits j task hj hentry
    constructor
    · intro session hs hlive
      exact (hfits.refreshes session hs hlive).congr rfl rfl rfl
    · rintro purpose session ruleSet rfl
      exact absurd ⟨purpose, session, ruleSet, hentry⟩ (hidle j hj)
  · exact h.alone

/-- A refresh is scheduled when nothing else is under way. -/
theorem Consistent.schedule (h : Consistent turn e) (hidle : Idle turn e)
    (henabled : e.enabled = true) (hnone : e.background = none) :
    Consistent turn (schedule e).engine := by
  unfold Engine.schedule
  split
  · exact h
  apply h.update e.nextTask
  · exact fun j _ hj => hj
  · intro j hj
    exact (task?_await e e.nextTask _ j).trans (if_neg hj)
  · intro j task _ hj hentry hfits
    constructor
    · intro session hs hlive
      have hrunning := (hfits.refreshes session hs hlive).running
      rw [hnone] at hrunning
      exact absurd hrunning nofun
    · rintro purpose session ruleSet rfl
      exact absurd ⟨purpose, session, ruleSet, hentry⟩ (hidle j hj)
  · intro task htask
    have hentry := (task?_await e e.nextTask (.queued e.session) e.nextTask).trans (if_pos rfl)
    obtain rfl := Option.some.inj (hentry.symm.trans htask)
    constructor
    · rintro session hs -
      exact ⟨rfl, (Option.some.inj hs).symm, henabled⟩
    · rintro purpose session ruleSet heq
      exact absurd heq nofun
  · intro _ j _ hj
    exact hidle j hj

/-! ## Compiling the tables -/

theorem Consistent.conclude (h : Consistent (some id) e) (purpose : Purpose) :
    Consistent none (conclude id purpose e).engine := by
  cases purpose with
  | call notify => exact h.finish _
  | switch => exact h.finish _

theorem Consistent.shutDown (h : Consistent turn e) (enabled : Bool) :
    Consistent turn (shutDown { e with enabled := enabled }).engine :=
  (h.endSession enabled e.compiling fun hflag => hflag).congr rfl rfl rfl rfl rfl rfl

theorem Consistent.install (h : Consistent (some id) e) (hidle : Idle (some id) e)
    (henabled : e.enabled = true) (hnone : e.background = none) (purpose : Purpose)
    (ruleSet : RuleSet) (result : CompileResult H) :
    Consistent none (install id purpose ruleSet result e).engine := by
  unfold Engine.install
  simp only [Moved.andThen_engine]
  apply Consistent.conclude
  apply Consistent.schedule
  · exact h.congr rfl rfl rfl rfl rfl rfl
  · exact hidle
  · exact henabled
  · exact hnone

theorem Consistent.submit (h : Consistent (some id) e) (hidle : Idle (some id) e)
    (henabled : e.enabled = true) (hnone : e.background = none) (hflag : e.compiling = true)
    (purpose : Purpose) (ruleSet : RuleSet) :
    Consistent none (submit id purpose ruleSet e).engine := by
  unfold Engine.submit
  split
  · exact (h.compiling hidle false).install hidle henabled hnone purpose ruleSet {}
  · refine h.await ⟨nofun, ?_⟩ fun _ => hidle
    rintro _ _ _ ⟨⟩
    exact ⟨hflag, Nat.le_refl _, fun _ => henabled, fun _ => hnone⟩

theorem Consistent.compile (h : Consistent (some id) e) (purpose : Purpose) :
    Consistent none (compile id purpose e).engine := by
  unfold Engine.compile
  split
  · exact Consistent.conclude (h.shutDown e.enabled) purpose
  next hon =>
    split
    · exact h.conclude purpose
    next hoff =>
      -- The flag is down, so no other compilation is under way.
      have hidle := h.idle (by simpa using hoff)
      have hended := h.endSession e.enabled true fun _ => rfl
      simp only [Moved.andThen_engine]
      apply Consistent.submit
      · exact hended.congr rfl rfl rfl rfl rfl rfl
      · simpa [Idle, Compiles, task?] using hidle
      · simpa using hon
      · simp
      · simp

theorem Consistent.compiled (h : Consistent none e) {purpose : Purpose} {session : Nat}
    {ruleSet : RuleSet} (htask : e.task? id = some (.compiling purpose session ruleSet))
    (result : CompileResult H) :
    Consistent none (compiled id purpose session ruleSet result e).engine := by
  have hidle : Idle (some id) e := h.idle_of_compiles ⟨purpose, session, ruleSet, htask⟩
  have hheld := (h.fits id _ nofun htask).compiles purpose session ruleSet rfl
  have hfree := (h.during id).compiling hidle false
  unfold Engine.compiled
  dsimp only
  split
  next hlasts =>
    exact hfree.install hidle (hheld.enabled hlasts) (hheld.background hlasts) purpose ruleSet result
  next =>
    split
    · exact hfree.compile purpose
    · exact hfree.conclude purpose

/-! ## Refreshing -/

theorem Consistent.endRefresh (h : Consistent (some id) e) (session : Option Nat)
    (outcome : Except Failure Outcome) :
    Consistent none (endRefresh id session outcome e).engine := by
  unfold Engine.endRefresh
  split
  · exact h.finish _
  · exact h.finish _
  · rw [Moved.andThen_engine]
    apply Consistent.finish
    split
    · dsimp only
      split <;> exact h.congr rfl rfl rfl rfl rfl rfl
    · exact h

/-- A turn of the coordinator; the task is the refresh of the session that lasts, or bound to
none. -/
theorem Consistent.follow (h : Consistent none e) {session : Option Nat}
    (hself : ∀ s, session = some s → e.Refreshes id s) (turn : Coordinator.Turn H) :
    Consistent none (follow id session turn e).engine := by
  cases turn with
  | waiting demand =>
    refine (h.during id).await ⟨fun s hs _ => hself s hs, nofun⟩ ?_
    rintro ⟨purpose, s, ruleSet, heq⟩
    exact absurd heq nofun
  | finished outcome => exact (h.during id).endRefresh session _
  | offered ruleSet result outcome =>
    rw [Engine.follow, Moved.andThen_engine]
    apply Consistent.endRefresh
    split
    · exact (h.during id).congr rfl rfl rfl rfl rfl rfl
    · exact h.during id
  | failed f => exact (h.during id).endRefresh session _
  | unmoved => exact h

theorem Consistent.refresh (h : Consistent none e) {session : Option Nat}
    (hself : ∀ s, session = some s → e.Refreshes id s) :
    Consistent none (refresh id session e).engine := by
  unfold Engine.refresh
  dsimp only
  apply Consistent.follow
  · exact h.congr rfl rfl rfl rfl rfl rfl
  · intro s hs
    exact (hself s hs).congr rfl rfl rfl

/-! ## Moves -/

theorem Consistent.enable (h : Consistent turn e) :
    Consistent turn { e with enabled := true } := by
  constructor
  · intro j task hj hentry
    have hfits := h.fits j task hj hentry
    constructor
    · intro session hs hlive
      obtain ⟨hrunning, hlasts, -⟩ := hfits.refreshes session hs hlive
      exact ⟨hrunning, hlasts, rfl⟩
    · intro purpose session ruleSet heq
      obtain ⟨hflag, hbegun, -, hnone⟩ := hfits.compiles purpose session ruleSet heq
      exact ⟨hflag, hbegun, fun _ => rfl, hnone⟩
  · exact h.alone

theorem Consistent.switch (h : Consistent (some id) e) (value : Bool) :
    Consistent none (switch id value e).engine := by
  unfold Engine.switch
  split
  · exact h.finish _
  next hchanges =>
    split
    · exact h.enable.compile .switch
    · rw [Moved.andThen_engine]
      exact Consistent.finish (h.shutDown false) _

theorem Consistent.close (h : Consistent none e) : Consistent none (close id e).engine := by
  have hended := h.endSession e.enabled e.compiling fun hflag => hflag
  unfold Engine.close
  rw [Moved.andThen_engine]
  split
  · refine (hended.during id).await ⟨nofun, nofun⟩ ?_
    rintro ⟨purpose, session, ruleSet, heq⟩
    exact absurd heq nofun
  · exact (hended.during id).finish _

theorem Consistent.call (h : Consistent none e) (c : Call) : Consistent none (call c e).engine := by
  have hnew : Consistent none { e with nextTask := e.nextTask + 1 } :=
    h.congr rfl rfl rfl rfl rfl rfl
  cases c with
  | compile notify => exact (hnew.during e.nextTask).compile _
  | setEnabled value =>
    unfold Engine.call
    dsimp only
    split
    · refine (hnew.during e.nextTask).await ⟨nofun, nofun⟩ ?_
      rintro ⟨purpose, session, ruleSet, heq⟩
      exact absurd heq nofun
    · exact (hnew.during e.nextTask).switch value
  | close => exact hnew.close
  | refresh => exact hnew.refresh nofun

theorem Consistent.unwind (h : Consistent none e) : Consistent none (unwind id e).engine := by
  unfold Engine.unwind
  split
  · exact h
  · apply Consistent.finish
    exact (h.during id).congr rfl rfl rfl rfl rfl rfl

theorem Consistent.begin (h : Consistent none e) : Consistent none (begin id e).engine := by
  unfold Engine.begin
  split
  next session htask =>
    split
    · exact h.unwind
    next hlive =>
      have hmem : id ∉ e.cancelled := by simpa using hlive
      have hself := (h.fits id _ nofun htask).refreshes session rfl hmem
      rw [Moved.andThen_engine]
      apply Consistent.refresh
      · exact h.congr rfl rfl rfl rfl rfl rfl
      · intro s hs
        obtain rfl := Option.some.inj hs
        exact hself.congr rfl rfl rfl
  · exact h

theorem Consistent.resume (h : Consistent none e) (reply : Reply H) :
    Consistent none (resume id reply e).engine := by
  unfold Engine.resume
  split
  · exact h.unwind
  next hlive =>
    have hmem : id ∉ e.cancelled := by simpa using hlive
    split
    · exact (h.during id).switch _
    · exact (h.during id).finish _
    next purpose session ruleSet result htask => exact h.compiled htask result
    next session htask =>
      dsimp only
      apply Consistent.follow
      · exact h.congr rfl rfl rfl rfl rfl rfl
      · intro s hs
        have hself := (h.fits id _ nofun htask).refreshes s hs hmem
        exact hself.congr rfl rfl rfl
    · exact h

theorem Consistent.wake (h : Consistent none e) : Consistent none (wake id e).engine := by
  unfold Engine.wake
  split
  · exact (h.during id).finish _
  · exact h

theorem Consistent.move (h : Consistent none e) (mv : Move H) :
    Consistent none (e.move mv).engine := by
  cases mv with
  | call c => exact h.call c
  | begin id => exact h.begin
  | resume id reply => exact h.resume reply
  | unwind id =>
    dsimp only [Engine.move]
    split
    · exact h.unwind
    · exact h
  | wake id => exact h.wake
  | subscribe name => exact h.congr rfl rfl rfl rfl rfl rfl
  | unsubscribe ticket => exact h.congr rfl rfl rfl rfl rfl rfl

theorem consistent_run (setup : Setup) (enabled : Bool) (moves : List (Move H)) :
    Consistent none ((start setup enabled : Engine H).run moves) :=
  run_induction (consistent_start setup enabled) (fun _ mv h => h.move mv) moves

end

end Engine

/-! ## Silence -/

/-- A move after which the engine is switched off leaves nothing in force and publishes nothing
else. -/
def Moved.Silent (m : Moved H) : Prop :=
  m.engine.enabled = false →
    m.engine.snapshot = .disabled ∧ ∀ s ∈ m.snapshots, s = .disabled

namespace Engine

section

variable {e : Engine H} {id : TaskId}

/-- Nothing is in force when the engine is switched off. -/
def Silent (e : Engine H) : Prop := e.enabled = false → e.snapshot = .disabled

theorem Silent.of_quiet (h : e.Silent) {m : Moved H} (henabled : m.engine.enabled = e.enabled)
    (hkept : m.engine.snapshot = e.snapshot) (hquiet : m.snapshots = []) : m.Silent := by
  intro hoff
  rw [henabled] at hoff
  refine ⟨hkept.trans (h hoff), fun s hmem => ?_⟩
  rw [hquiet] at hmem
  exact absurd hmem List.not_mem_nil

theorem silent_of_enabled {m : Moved H} (henabled : m.engine.enabled = true) : m.Silent := by
  intro hoff
  rw [henabled] at hoff
  exact Bool.noConfusion hoff

theorem Silent.finish (h : e.Silent) (ending : Ending) : (finish id ending e).Silent :=
  h.of_quiet rfl rfl (snapshots_finish e id ending)

theorem silent_shutDown (e : Engine H) (move : Engine H → Moved H)
    (hkept : (move (shutDown e).engine).engine.snapshot = .disabled)
    (hquiet : (move (shutDown e).engine).snapshots = []) :
    ((shutDown e).andThen move).Silent := by
  intro _
  refine ⟨hkept, fun s hmem => ?_⟩
  rw [Moved.snapshots_andThen, hquiet, List.append_nil] at hmem
  simpa [shutDown] using hmem

theorem silent_compile (e : Engine H) (id : TaskId) (purpose : Purpose) :
    (compile id purpose e).Silent := by
  by_cases hon : e.enabled = true
  · exact silent_of_enabled ((compile_enabled e id purpose).trans hon)
  · unfold compile
    rw [if_pos (by simpa using hon)]
    apply silent_shutDown
    · simp [shutDown]
    · exact snapshots_conclude _ id purpose

theorem Silent.switch (h : e.Silent) (value : Bool) : (switch id value e).Silent := by
  unfold Engine.switch
  split
  · exact h.finish _
  · split
    · exact silent_compile _ id .switch
    · exact silent_shutDown _ _ rfl (snapshots_finish _ id _)

theorem Silent.compiled (h : e.Silent) (hcons : Consistent none e) {purpose : Purpose}
    {session : Nat} {ruleSet : RuleSet}
    (htask : e.task? id = some (.compiling purpose session ruleSet)) (result : CompileResult H) :
    (compiled id purpose session ruleSet result e).Silent := by
  have hheld := (hcons.fits id _ nofun htask).compiles purpose session ruleSet rfl
  unfold Engine.compiled
  dsimp only
  split
  next hlasts => exact silent_of_enabled ((install_enabled ..).trans (hheld.enabled hlasts))
  next =>
    split
    · exact silent_compile _ id purpose
    · exact h.of_quiet (conclude_enabled _ id purpose) (conclude_snapshot _ id purpose)
        (snapshots_conclude _ id purpose)

theorem Silent.endRefresh (h : e.Silent) (session : Option Nat)
    (outcome : Except Failure Outcome) : (endRefresh id session outcome e).Silent := by
  by_cases hon : e.enabled = true
  · exact silent_of_enabled ((endRefresh_enabled ..).trans hon)
  · unfold Engine.endRefresh
    split
    · exact h.finish _
    · exact h.finish _
    next s =>
      have hover : ¬ e.isCurrent (some s) = true := by simp [isCurrent, hon]
      rw [if_neg hover]
      exact h.finish _

theorem Silent.follow (h : e.Silent) (session : Option Nat) (turn : Coordinator.Turn H) :
    (follow id session turn e).Silent := by
  by_cases hon : e.enabled = true
  · exact silent_of_enabled ((follow_enabled ..).trans hon)
  · cases turn with
    | waiting demand => exact h.of_quiet rfl rfl rfl
    | finished outcome => exact h.endRefresh session _
    | offered ruleSet result outcome =>
      have hrefused : ¬ e.accepts = true := by simp [accepts, hon]
      unfold Engine.follow
      dsimp only
      rw [if_neg hrefused]
      exact h.endRefresh session _
    | failed f => exact h.endRefresh session _
    | unmoved => exact h.of_quiet rfl rfl rfl

theorem Silent.refresh (h : e.Silent) (session : Option Nat) : (refresh id session e).Silent := by
  unfold Engine.refresh
  apply Silent.follow
  exact h

theorem Silent.close (h : e.Silent) : (close id e).Silent := by
  unfold Engine.close
  apply h.of_quiet
  · rw [Moved.andThen_engine]
    split
    · simp [await]
    · simp
  · rw [Moved.andThen_engine]
    split
    · simp [await]
    · simp
  · rw [Moved.snapshots_andThen, snapshots_endSession, List.nil_append]
    split
    · rfl
    · simp

theorem Silent.call (h : e.Silent) (c : Call) : (call c e).Silent := by
  have hnew : ({ e with nextTask := e.nextTask + 1 } : Engine H).Silent := h
  cases c with
  | compile notify => exact silent_compile _ e.nextTask _
  | setEnabled value =>
    unfold Engine.call
    dsimp only
    split
    · exact h.of_quiet rfl rfl rfl
    · exact hnew.switch value
  | close => exact hnew.close
  | refresh => exact hnew.refresh none

theorem Silent.unwind (h : e.Silent) : (unwind id e).Silent := by
  unfold Engine.unwind
  split
  · exact h.of_quiet rfl rfl rfl
  · exact h.of_quiet rfl rfl (snapshots_finish _ id _)

theorem Silent.begin (h : e.Silent) (hcons : Consistent none e) : (begin id e).Silent := by
  unfold Engine.begin
  split
  next session htask =>
    split
    · exact h.unwind
    next hlive =>
      have hmem : id ∉ e.cancelled := by simpa using hlive
      have hself := (hcons.fits id _ nofun htask).refreshes session rfl hmem
      exact silent_of_enabled ((refresh_enabled ..).trans hself.enabled)
  · exact h.of_quiet rfl rfl rfl

theorem Silent.resume (h : e.Silent) (hcons : Consistent none e) (reply : Reply H) :
    (resume id reply e).Silent := by
  unfold Engine.resume
  split
  · exact h.unwind
  · split
    · exact h.switch _
    · exact h.finish _
    next purpose session ruleSet result htask => exact h.compiled hcons htask result
    · dsimp only
      apply Silent.follow
      exact h
    · exact h.of_quiet rfl rfl rfl

theorem Silent.move (h : e.Silent) (hcons : Consistent none e) (mv : Move H) :
    (e.move mv).Silent := by
  cases mv with
  | call c => exact h.call c
  | begin id => exact h.begin hcons
  | resume id reply => exact h.resume hcons reply
  | unwind id =>
    dsimp only [Engine.move]
    split
    · exact h.unwind
    · exact h.of_quiet rfl rfl rfl
  | wake id =>
    dsimp only [Engine.move, wake]
    split
    · exact h.finish _
    · exact h.of_quiet rfl rfl rfl
  | subscribe name => exact h.of_quiet rfl rfl rfl
  | unsubscribe ticket => exact h.of_quiet rfl rfl rfl

theorem silent_run (setup : Setup) (enabled : Bool) (moves : List (Move H)) :
    ((start setup enabled : Engine H).run moves).Silent := by
  have hboth : Consistent none ((start setup enabled : Engine H).run moves) ∧
      ((start setup enabled : Engine H).run moves).Silent := by
    refine run_induction (motive := fun e => Consistent none e ∧ e.Silent) ?_ ?_ moves
    · exact ⟨consistent_start setup enabled, fun _ => rfl⟩
    · rintro e mv ⟨hcons, h⟩
      exact ⟨hcons.move mv, fun hoff => (h.move hcons mv hoff).1⟩
  exact hboth.2

/-- Nothing survives switching off. Whatever calls are made and in whatever order the tasks go on,
an engine that is switched off has nothing in force and pushes nothing to the renderer; and a move
that leaves it switched off, the one that turns the switch among them, publishes nothing but that. -/
theorem nothing_survives_switching_off (setup : Setup) (enabled : Bool) (moves : List (Move H)) :
    let e := (start setup enabled : Engine H).run moves
    (e.enabled = false → e.snapshot = .disabled ∧ e.application = ([], [])) ∧
      ∀ mv, (e.move mv).engine.enabled = false →
        ∀ s ls, .published s ls ∈ (e.move mv).effects → s = .disabled := by
  intro e
  have hcons : Consistent none e := consistent_run setup enabled moves
  have hsilent : e.Silent := silent_run setup enabled moves
  constructor
  · intro hoff
    exact ⟨hsilent hoff, by simp [application, hoff]⟩
  · intro mv hoff s ls hmem
    exact (hsilent.move hcons mv hoff).2 s (Moved.mem_snapshots.mpr ⟨ls, hmem⟩)

/-- The engine is switched off while the rules of the tables are compiled. -/
def interruptingMoves : List (Move Nat) := [.call (.compile false), .call (.setEnabled false)]

theorem nothing_survives_switching_off_smallSetup :
    let e := (start smallSetup true).run interruptingMoves
    (e.enabled = false ∧ e.snapshot = .disabled ∧ e.application = ([], [])) ∧
      (∃ purpose session ruleSet, e.task? 0 = some (.compiling purpose session ruleSet)) ∧
      ∀ s ls, .published s ls ∈ (e.move (.resume 0 (.compiled { handles := [0] }))).effects →
        s = .disabled := by
  intro e
  have hoff : e.enabled = false := by decide +kernel
  have hstays : (e.move (.resume 0 (.compiled { handles := [0] }))).engine.enabled = false := by
    decide +kernel
  obtain ⟨hnow, hthen⟩ := nothing_survives_switching_off smallSetup true interruptingMoves
  exact ⟨⟨hoff, hnow hoff⟩, ⟨_, _, _, rfl⟩, hthen _ hstays⟩

end

end Engine

end ContentFilter
