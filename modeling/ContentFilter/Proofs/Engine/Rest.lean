import ContentFilter.Proofs.Engine.Standing

/-! # Engines at rest

An engine that nothing is awaited for is not half-way: its status calls for no task. That it is not
switched on without any rules needs more, since a call that switches on may leave the compilation to
one that is still under way: then the flag is up, and the flag calls for a task.

* `Engine.Keeps`, `Engine.Roused`: a move leaves the session and the flags alone, or it sees to it
  that an engine that is switched on gets its rules.
* `Engine.ready_at_rest`: the status of an engine at rest.
-/

set_option autoImplicit false

namespace ContentFilter

variable {H : Type}

namespace Engine

/-! ## Roused engines -/

/-- The session and the flags are left alone, and nothing is switched off. -/
structure Keeps (e e' : Engine H) : Prop where
  session : e'.session = e.session
  enabled : e'.enabled = e.enabled
  compiling : e'.compiling = e.compiling
  disabled : e'.snapshot.status = .disabled → e.snapshot.status = .disabled

/-- A session has begun, and an engine that is switched on either is not disabled or has rules under
way. -/
structure Roused (e : Engine H) : Prop where
  begun : 0 < e.session
  underway : e.enabled = true → e.snapshot.status = .disabled → e.compiling = true

section

variable {e e' e'' : Engine H} {id : TaskId}

theorem Keeps.refl (e : Engine H) : e.Keeps e := ⟨rfl, rfl, rfl, fun h => h⟩

theorem Keeps.trans (h : e.Keeps e') (h' : e'.Keeps e'') : e.Keeps e'' :=
  ⟨h'.session.trans h.session, h'.enabled.trans h.enabled, h'.compiling.trans h.compiling,
    fun hdisabled => h.disabled (h'.disabled hdisabled)⟩

theorem Roused.of_keeps (h : e.Roused) (hkeeps : e.Keeps e') : e'.Roused := by
  refine ⟨hkeeps.session ▸ h.begun, fun hon hdisabled => ?_⟩
  rw [hkeeps.enabled] at hon
  rw [hkeeps.compiling]
  exact h.underway hon (hkeeps.disabled hdisabled)

theorem keeps_publish {s : Snapshot H} (hs : s.status ≠ .disabled) :
    e.Keeps (publish s e).engine :=
  ⟨rfl, rfl, rfl, fun hdisabled => absurd hdisabled hs⟩

theorem keeps_finish (e : Engine H) (id : TaskId) (ending : Ending) :
    e.Keeps (finish id ending e).engine := ⟨rfl, rfl, rfl, fun h => h⟩

theorem keeps_conclude (e : Engine H) (id : TaskId) (purpose : Purpose) :
    e.Keeps (conclude id purpose e).engine := by
  cases purpose with
  | call notify => exact keeps_finish e id _
  | switch => exact keeps_finish e id _

theorem keeps_endRefresh (e : Engine H) (id : TaskId) (session : Option Nat)
    (outcome : Except Failure Outcome) : e.Keeps (endRefresh id session outcome e).engine := by
  unfold endRefresh
  split
  · exact keeps_finish e id _
  · exact keeps_finish e id _
  · refine Keeps.trans ?_ (keeps_finish _ id _)
    split
    · have hnoted : e.Keeps { e with lastRefresh := outcome.toOption } :=
        ⟨rfl, rfl, rfl, fun h => h⟩
      dsimp only
      split
      · exact hnoted.trans (keeps_publish nofun)
      · exact hnoted
    · exact .refl e

theorem keeps_follow (e : Engine H) (id : TaskId) (session : Option Nat)
    (turn : Coordinator.Turn H) : e.Keeps (follow id session turn e).engine := by
  cases turn with
  | offered ruleSet result outcome =>
    refine Keeps.trans ?_ (keeps_endRefresh _ id session _)
    split
    · exact keeps_publish nofun
    · exact .refl e
  | finished outcome => exact keeps_endRefresh e id session _
  | failed f => exact keeps_endRefresh e id session _
  | _ => exact ⟨rfl, rfl, rfl, fun h => h⟩

theorem keeps_refresh (e : Engine H) (id : TaskId) (session : Option Nat) :
    e.Keeps (refresh id session e).engine := by
  unfold refresh
  refine Keeps.trans ?_ (keeps_follow _ id session _)
  exact ⟨rfl, rfl, rfl, fun h => h⟩

theorem keeps_unwind (e : Engine H) (id : TaskId) : e.Keeps (unwind id e).engine := by
  unfold unwind
  split
  · exact .refl e
  · exact ⟨rfl, rfl, rfl, fun h => h⟩

theorem keeps_begin (e : Engine H) (id : TaskId) : e.Keeps (Engine.begin id e).engine := by
  unfold Engine.begin
  split
  · split
    · exact keeps_unwind e id
    · have hpublished : e.Keeps (publish (e.snapshot.withStatus .enhancing) e).engine :=
        keeps_publish nofun
      exact hpublished.trans (keeps_refresh _ id _)
  · exact .refl e

/-! ### Compiling the tables -/

theorem roused_shutDown (e : Engine H) (hoff : e.enabled = false) :
    (shutDown e).engine.Roused := by
  refine ⟨by simp [shutDown], fun hon _ => ?_⟩
  have hkept : (shutDown e).engine.enabled = e.enabled := by simp [shutDown]
  rw [hkept, hoff] at hon
  exact Bool.noConfusion hon

theorem roused_install (hbegun : 0 < e.session) (purpose : Purpose) (ruleSet : RuleSet)
    (result : CompileResult H) : (install id purpose ruleSet result e).engine.Roused := by
  refine ⟨by simpa using hbegun, fun _ hdisabled => ?_⟩
  simp [install] at hdisabled

theorem roused_submit (hbegun : 0 < e.session) (hstatus : e.snapshot.status = .compiling)
    (purpose : Purpose) (ruleSet : RuleSet) : (submit id purpose ruleSet e).engine.Roused := by
  unfold submit
  split
  · exact roused_install (e := { e with compiling := false }) hbegun purpose ruleSet {}
  · exact ⟨hbegun, fun _ hdisabled => absurd (hstatus.symm.trans hdisabled) nofun⟩

/-- A compilation is begun, or left to the one that holds the flag. -/
theorem roused_compile (hbegun : e.compiling = true → 0 < e.session) (purpose : Purpose) :
    (compile id purpose e).engine.Roused := by
  unfold compile
  split
  next hoff =>
    have hended := roused_shutDown e (by simpa using hoff)
    exact hended.of_keeps (keeps_conclude _ id purpose)
  · split
    next hflag =>
      have hup : e.Roused := ⟨hbegun hflag, fun _ _ => hflag⟩
      exact hup.of_keeps (keeps_conclude e id purpose)
    · refine roused_submit ?_ rfl purpose _
      simp

theorem roused_compiled (hcons : Consistent none e) (hbegun : e.compiling = true → 0 < e.session)
    {purpose : Purpose} {session : Nat} {ruleSet : RuleSet}
    (htask : e.task? id = some (.compiling purpose session ruleSet)) (result : CompileResult H) :
    (compiled id purpose session ruleSet result e).engine.Roused := by
  have hflag := ((hcons.fits id _ nofun htask).compiles purpose session ruleSet rfl).flag
  unfold compiled
  dsimp only
  split
  · exact roused_install (e := { e with compiling := false }) (hbegun hflag) purpose ruleSet result
  · split
    · exact roused_compile (e := { e with compiling := false }) nofun purpose
    next hoff =>
      have hdown : Roused { e with compiling := false } :=
        ⟨hbegun hflag, fun hon => absurd hon hoff⟩
      exact hdown.of_keeps (keeps_conclude _ id purpose)

theorem switch_cases (hbegun : e.compiling = true → 0 < e.session) (value : Bool) :
    e.Keeps (switch id value e).engine ∨ (switch id value e).engine.Roused := by
  unfold switch
  split
  · exact .inl (keeps_finish e id _)
  · split
    · exact .inr (roused_compile (e := { e with enabled := true }) hbegun .switch)
    · refine .inr (Roused.of_keeps ?_ (keeps_finish _ id _))
      exact roused_shutDown { e with enabled := false } rfl

/-! ## Moves -/

theorem resume_cases (hcons : Consistent none e) (hbegun : e.compiling = true → 0 < e.session)
    (id : TaskId) (reply : Reply H) :
    e.Keeps (resume id reply e).engine ∨ (resume id reply e).engine.Roused := by
  unfold Engine.resume
  split
  · exact .inl (keeps_unwind e id)
  · split
    · exact switch_cases hbegun _
    · exact .inl (keeps_finish e id _)
    next purpose session ruleSet result htask =>
      exact .inr (roused_compiled hcons hbegun htask result)
    · refine .inl (Keeps.trans ?_ (keeps_follow _ id _ _))
      exact ⟨rfl, rfl, rfl, fun h => h⟩
    · exact .inl (.refl e)

theorem call_cases (hbegun : e.compiling = true → 0 < e.session) {c : Call} (hclose : c ≠ .close) :
    e.Keeps (call c e).engine ∨ (call c e).engine.Roused := by
  have hnew : e.Keeps { e with nextTask := e.nextTask + 1 } := ⟨rfl, rfl, rfl, fun h => h⟩
  cases c with
  | compile notify =>
    exact .inr (roused_compile (e := { e with nextTask := e.nextTask + 1 }) hbegun _)
  | setEnabled value =>
    unfold Engine.call
    dsimp only
    split
    · exact .inl ⟨rfl, rfl, rfl, fun h => h⟩
    · exact (switch_cases (e := { e with nextTask := e.nextTask + 1 }) hbegun value).imp_left
        hnew.trans
  | close => exact absurd rfl hclose
  | refresh => exact .inl (hnew.trans (keeps_refresh _ _ none))

theorem move_cases (hcons : Consistent none e) (hbegun : e.compiling = true → 0 < e.session)
    {mv : Move H} (hclose : mv ≠ .call .close) :
    e.Keeps (e.move mv).engine ∨ (e.move mv).engine.Roused := by
  cases mv with
  | call c => exact call_cases hbegun fun heq => hclose (congrArg Move.call heq)
  | begin id => exact .inl (keeps_begin e id)
  | resume id reply => exact resume_cases hcons hbegun id reply
  | unwind id =>
    dsimp only [Engine.move]
    split
    · exact .inl (keeps_unwind e id)
    · exact .inl (.refl e)
  | wake id =>
    dsimp only [Engine.move, wake]
    split
    · exact .inl (keeps_finish e id _)
    · exact .inl (.refl e)
  | subscribe name => exact .inl ⟨rfl, rfl, rfl, fun h => h⟩
  | unsubscribe ticket => exact .inl ⟨rfl, rfl, rfl, fun h => h⟩

/-- An engine has been roused, or nothing has begun yet. -/
def Fresh (e : Engine H) : Prop := e.session = 0 ∧ e.compiling = false

theorem begun_of_roused_or_fresh (h : e.Roused ∨ e.Fresh) : e.compiling = true → 0 < e.session := by
  intro hflag
  obtain hroused | hfresh := h
  · exact hroused.begun
  · rw [hfresh.2] at hflag
    exact Bool.noConfusion hflag

theorem roused_or_fresh_move (h : e.Roused ∨ e.Fresh) (hcons : Consistent none e) {mv : Move H}
    (hclose : mv ≠ .call .close) : (e.move mv).engine.Roused ∨ (e.move mv).engine.Fresh := by
  obtain hkeeps | hroused := move_cases hcons (begun_of_roused_or_fresh h) hclose
  · refine h.imp (fun hr => hr.of_keeps hkeeps) fun hf => ?_
    exact ⟨hkeeps.session.trans hf.1, hkeeps.compiling.trans hf.2⟩
  · exact .inl hroused

theorem Roused.run (h : e.Roused) (hcons : Consistent none e) {moves : List (Move H)}
    (hclose : .call .close ∉ moves) : (e.run moves).Roused := by
  induction moves generalizing e with
  | nil => exact h
  | cons mv moves ih =>
    rw [List.mem_cons, not_or] at hclose
    refine ih ?_ (hcons.move mv) hclose.2
    obtain hkeeps | hroused := move_cases hcons (fun _ => h.begun) (Ne.symm hclose.1)
    · exact h.of_keeps hkeeps
    · exact hroused

theorem roused_or_fresh_run (h : e.Roused ∨ e.Fresh) (hcons : Consistent none e)
    {moves : List (Move H)} (hclose : .call .close ∉ moves) :
    (e.run moves).Roused ∨ (e.run moves).Fresh := by
  induction moves generalizing e with
  | nil => exact h
  | cons mv moves ih =>
    rw [List.mem_cons, not_or] at hclose
    exact ih (roused_or_fresh_move h hcons (Ne.symm hclose.1)) (hcons.move mv) hclose.2

/-- Among some moves there is a call to compile the rules of the tables, or a move that turns the
switch on. -/
def Begun (e : Engine H) (moves : List (Move H)) : Prop :=
  ∃ before mv after, moves = before ++ mv :: after ∧
    ((∃ notify, mv = .call (.compile notify)) ∨
      (e.run before).enabled = false ∧ ((e.run before).move mv).engine.enabled = true)

theorem run_append (e : Engine H) (before after : List (Move H)) :
    e.run (before ++ after) = (e.run before).run after := List.foldl_append

theorem Begun.roused {moves : List (Move H)} (h : e.Begun moves) (hcons : Consistent none e)
    (hfresh : e.Fresh) (hclose : .call .close ∉ moves) : (e.run moves).Roused := by
  obtain ⟨before, mv, after, rfl, hmv⟩ := h
  simp only [List.mem_append, List.mem_cons, not_or] at hclose
  obtain ⟨hbefore, hhere, hafter⟩ := hclose
  have hcons' : Consistent none (e.run before) :=
    run_induction hcons (fun _ mv hc => hc.move mv) before
  have hbegun := begun_of_roused_or_fresh (roused_or_fresh_run (.inr hfresh) hcons hbefore)
  have hroused : ((e.run before).move mv).engine.Roused := by
    obtain ⟨notify, rfl⟩ | ⟨hoff, hon⟩ := hmv
    · exact roused_compile (e := { e.run before with nextTask := (e.run before).nextTask + 1 })
        hbegun _
    · refine (move_cases hcons' hbegun (Ne.symm hhere)).resolve_left fun hkeeps => ?_
      rw [hkeeps.enabled, hoff] at hon
      exact Bool.noConfusion hon
  rw [run_append]
  exact hroused.run (hcons'.move mv) hafter

end

/-! ## Rest -/

/-- An engine is never stuck half-way. When no call and no refresh is pending, an engine that is
switched off is disabled; and one that is switched on, once it has been told to compile or has been
switched on since the start, has its rules in force and looks for no others. -/
theorem ready_at_rest (setup : Setup) (enabled : Bool) (moves : List (Move H))
    (hclose : .call .close ∉ moves) (hrefresh : .call .refresh ∉ moves)
    (hrest : ((start setup enabled : Engine H).run moves).tasks = []) :
    let e := (start setup enabled : Engine H).run moves
    (e.enabled = false → e.snapshot.status = .disabled) ∧
      (e.enabled = true → (start setup enabled : Engine H).Begun moves →
        e.snapshot.status = .readyEmbedded ∨ e.snapshot.status = .readyEnhanced) := by
  intro e
  have hcons := consistent_start (H := H) setup enabled
  have hstanding : e.Standing := (standing_start setup enabled).run hcons hclose hrefresh
  have hnone : ∀ id, e.task? id = none := by simp [e, task?, hrest]
  have hidle : ∀ id, ¬ e.Compiles id := by simp [Compiles, hnone]
  refine ⟨fun hoff => congrArg Snapshot.status (silent_run setup enabled moves hoff),
    fun hon hbegun => ?_⟩
  have hroused : e.Roused := hbegun.roused hcons ⟨rfl, rfl⟩ hclose
  cases hstatus : e.snapshot.status with
  | disabled =>
    obtain ⟨id, -, hcompiles⟩ := hstanding.answered.flag (hroused.underway hon hstatus)
    exact absurd hcompiles (hidle id)
  | compiling =>
    obtain ⟨id, purpose, ruleSet, -, htask⟩ := hstanding.answered.compiling hstatus
    exact absurd ⟨purpose, e.session, ruleSet, htask⟩ (hidle id)
  | readyEmbedded => exact .inl rfl
  | enhancing =>
    obtain ⟨id, session, -, htask, -⟩ := hstanding.answered.enhancing hstatus
    simp [hnone] at htask
  | readyEnhanced => exact .inr rfl

/-- The engine is switched off and on while the rules of the tables are compiled. They are compiled
anew, and then the search for a list fails. -/
def togglingMoves : List (Move Nat) :=
  [.call (.compile false), .call (.setEnabled false), .call (.setEnabled true),
    .resume 0 (.compiled { handles := [0] }), .resume 0 (.compiled { handles := [0] }), .begin 3,
    .resume 3 (.cached none .zero), .resume 3 (.raised ⟨"OSError".toList, []⟩)]

theorem ready_at_rest_smallSetup :
    let e := (start smallSetup true).run togglingMoves
    ((.call .close ∉ togglingMoves ∧ .call .refresh ∉ togglingMoves) ∧ e.tasks = []) ∧
      e.enabled = true ∧ (start smallSetup true).Begun togglingMoves ∧
      (e.snapshot.status = .readyEmbedded ∨ e.snapshot.status = .readyEnhanced) := by
  intro e
  have hclose : .call .close ∉ togglingMoves := by simp [togglingMoves]
  have hrefresh : .call .refresh ∉ togglingMoves := by simp [togglingMoves]
  have hrest : e.tasks = [] := List.isEmpty_iff.mp (by decide +kernel)
  have hon : e.enabled = true := by decide +kernel
  have hbegun : (start smallSetup true).Begun togglingMoves :=
    ⟨[], _, _, rfl, .inl ⟨false, rfl⟩⟩
  exact ⟨⟨⟨hclose, hrefresh⟩, hrest⟩, hon, hbegun,
    (ready_at_rest smallSetup true togglingMoves hclose hrefresh hrest).2 hon hbegun⟩

end Engine

end ContentFilter
