import ContentFilter.Proofs.Engine.Standing
import Mathlib.Data.List.Chain

/-! # The lifecycle

Whatever calls come and in whatever order the tasks go on, the published statuses follow one another
as documented.

* `Status.Step`: which status may come after which.
* `Status.Path`: the statuses from one to another.
* `Moved.Traces`: what a move publishes is a path from the status before it.
* `Engine.lifecycle_run`: so is all that is published.
-/

set_option autoImplicit false

namespace ContentFilter

variable {H : Type}

namespace Status

/-! ## Paths -/

/-- The documented lifecycle. -/
inductive Step : Status → Status → Prop
  | disable (s : Status) : Step s .disabled
  | compile {s : Status} (hnot : s ≠ .compiling) : Step s .compiling
  | compiled : Step .compiling .readyEmbedded
  | refresh : Step .readyEmbedded .enhancing
  | exhausted : Step .enhancing .readyEmbedded
  | enhanced : Step .enhancing .readyEnhanced

/-- The statuses that lead from one to another. -/
inductive Path : Status → List Status → Status → Prop
  | nil (s : Status) : Path s [] s
  | cons {s t u : Status} {ts : List Status} (hstep : Step s t) (hrest : Path t ts u) :
      Path s (t :: ts) u

theorem Path.append {s t u : Status} {ts us : List Status} (h : Path s ts t) (hrest : Path t us u) :
    Path s (ts ++ us) u := by
  induction h with
  | nil => exact hrest
  | cons hstep _ ih => exact .cons hstep (ih hrest)

theorem Path.isChain {s t : Status} {ts : List Status} (h : Path s ts t) :
    (s :: ts).IsChain Step := by
  induction h with
  | nil s => exact .singleton s
  | cons hstep _ ih => exact .cons_cons hstep ih

theorem Path.getLast? {s t : Status} {ts : List Status} (h : Path s ts t) :
    (s :: ts).getLast? = some t := by
  induction h with
  | nil => rfl
  | cons _ _ ih => rwa [List.getLast?_cons_cons]

/-- Until the rules of the tables are compiled again, enhanced rules are only left by switching
off. -/
theorem eq_disabled_of_isChain {s : Status} {ts : List Status} (h : (s :: ts).IsChain Step)
    (hs : s = .readyEnhanced ∨ s = .disabled) (hnot : .compiling ∉ ts) :
    ∀ t ∈ ts, t = .disabled := by
  induction ts generalizing s with
  | nil => exact fun t ht => absurd ht List.not_mem_nil
  | cons t ts ih =>
    rw [List.mem_cons, not_or] at hnot
    obtain ⟨hstep, hrest⟩ := List.isChain_cons_cons.mp h
    have ht : t = .disabled := by
      cases hstep with
      | disable => rfl
      | compile => exact absurd rfl hnot.1
      | _ => exact absurd hs (by decide)
    intro u hu
    obtain rfl | hu := List.mem_cons.mp hu
    · exact ht
    · exact ih hrest (.inr ht) hnot.2 u hu

end Status

/-! ## What a move publishes -/

/-- What a move publishes leads from a status to that of the engine after the move. -/
def Moved.Traces (s : Status) (m : Moved H) : Prop :=
  Status.Path s (m.snapshots.map Snapshot.status) m.engine.snapshot.status

theorem Moved.Traces.andThen {s : Status} {m : Moved H} (h : m.Traces s)
    {move : Engine H → Moved H} (hnext : (move m.engine).Traces m.engine.snapshot.status) :
    (m.andThen move).Traces s := by
  unfold Moved.Traces
  rw [snapshots_andThen, List.map_append]
  exact Status.Path.append h hnext

namespace Engine

section

variable {e : Engine H} {id : TaskId}

theorem traces_quiet {m : Moved H} (hquiet : m.snapshots = [])
    (hkept : m.engine.snapshot = e.snapshot) : m.Traces e.snapshot.status := by
  unfold Moved.Traces
  rw [hquiet, hkept]
  exact .nil _

theorem traces_publish {s : Status} {snapshot : Snapshot H} (hstatus : e.snapshot.status = s)
    (h : Status.Step s snapshot.status) : (publish snapshot e).Traces e.snapshot.status := by
  rw [hstatus]
  exact Status.Path.cons h (.nil _)

theorem traces_finish (e : Engine H) (id : TaskId) (ending : Ending) :
    (finish id ending e).Traces e.snapshot.status :=
  traces_quiet (snapshots_finish e id ending) rfl

theorem traces_conclude (e : Engine H) (id : TaskId) (purpose : Purpose) :
    (conclude id purpose e).Traces e.snapshot.status :=
  traces_quiet (snapshots_conclude e id purpose) (conclude_snapshot e id purpose)

theorem traces_endSession (e : Engine H) : (endSession e).Traces e.snapshot.status :=
  traces_quiet (snapshots_endSession e) (by rw [endSession_engine])

theorem traces_shutDown (e : Engine H) : (shutDown e).Traces e.snapshot.status :=
  (traces_endSession e).andThen (traces_publish rfl (.disable _))

/-! ### Compiling the tables -/

theorem traces_install (hstatus : e.snapshot.status = .compiling) (purpose : Purpose)
    (ruleSet : RuleSet) (result : CompileResult H) :
    (install id purpose ruleSet result e).Traces e.snapshot.status := by
  refine .andThen (traces_publish hstatus .compiled) (.andThen ?_ ?_)
  · exact traces_quiet (snapshots_schedule _) (schedule_snapshot _)
  · exact traces_conclude _ id purpose

theorem traces_submit (hstatus : e.snapshot.status = .compiling) (purpose : Purpose)
    (ruleSet : RuleSet) : (submit id purpose ruleSet e).Traces e.snapshot.status := by
  unfold submit
  split
  · exact traces_install (e := { e with compiling := false }) hstatus purpose ruleSet {}
  · exact traces_quiet rfl rfl

/-- A compilation that is begun has not been told before. -/
theorem traces_compile (hnot : e.compiling = false → e.snapshot.status ≠ .compiling)
    (purpose : Purpose) : (compile id purpose e).Traces e.snapshot.status := by
  unfold compile
  split
  · exact .andThen (traces_shutDown e) (traces_conclude _ id purpose)
  · split
    · exact traces_conclude e id purpose
    next hoff =>
      have hbegun : Status.Step e.snapshot.status .compiling :=
        .compile (hnot (by simpa using hoff))
      refine .andThen (traces_endSession { e with compiling := true }) ?_
      refine .andThen (traces_publish ?_ hbegun) (traces_submit rfl purpose _)
      rw [endSession_engine]

theorem Standing.traces_compiled (h : e.Standing) (hcons : Consistent none e) {purpose : Purpose}
    {session : Nat} {ruleSet : RuleSet}
    (htask : e.task? id = some (.compiling purpose session ruleSet)) (result : CompileResult H) :
    (Engine.compiled id purpose session ruleSet result e).Traces e.snapshot.status := by
  unfold Engine.compiled
  dsimp only
  split
  next hlasts =>
    subst hlasts
    have hstatus := (h.orderly.tells id _ nofun htask).compiles purpose ruleSet rfl
    exact traces_install (e := { e with compiling := false }) hstatus purpose ruleSet result
  next hover =>
    split
    · exact traces_compile (e := { e with compiling := false })
        (fun _ => h.ne_compiling hcons htask hover) purpose
    · exact traces_conclude { e with compiling := false } id purpose

theorem traces_switch (hnot : e.compiling = false → e.snapshot.status ≠ .compiling) (value : Bool) :
    (switch id value e).Traces e.snapshot.status := by
  unfold switch
  split
  · exact traces_finish e id _
  · split
    · exact traces_compile (e := { e with enabled := true }) hnot .switch
    · exact .andThen (traces_shutDown { e with enabled := false }) (traces_finish _ id _)

/-! ### Refreshing -/

theorem traces_endRefresh (e : Engine H) (id : TaskId) (session : Option Nat)
    (outcome : Except Failure Outcome) :
    (endRefresh id session outcome e).Traces e.snapshot.status := by
  unfold endRefresh
  split
  · exact traces_finish e id _
  · exact traces_finish e id _
  · refine .andThen ?_ (traces_finish _ id _)
    split
    · dsimp only
      split
      next henhancing =>
        exact traces_publish (e := { e with lastRefresh := outcome.toOption }) henhancing .exhausted
      · exact traces_quiet rfl rfl
    · exact traces_quiet rfl rfl

theorem traces_follow (hstatus : e.snapshot.status = .enhancing) (session : Option Nat)
    (turn : Coordinator.Turn H) : (follow id session turn e).Traces e.snapshot.status := by
  cases turn with
  | waiting demand => exact traces_quiet rfl rfl
  | finished outcome => exact traces_endRefresh e id session _
  | offered ruleSet result outcome =>
    refine .andThen ?_ (traces_endRefresh _ id session _)
    split
    · exact traces_publish hstatus .enhanced
    · exact traces_quiet rfl rfl
  | failed f => exact traces_endRefresh e id session _
  | unmoved => exact traces_quiet rfl rfl

theorem traces_refresh (hstatus : e.snapshot.status = .enhancing) (session : Option Nat) :
    (refresh id session e).Traces e.snapshot.status :=
  traces_follow (e := { e with
    coordinator := (e.coordinator.call (H := H) id e.setup.config.sources).1 }) hstatus session _

/-! ### Moves -/

theorem traces_unwind (e : Engine H) (id : TaskId) : (unwind id e).Traces e.snapshot.status := by
  unfold unwind
  split
  · exact traces_quiet rfl rfl
  · exact traces_finish { e with coordinator := e.coordinator.drop id } id _

theorem Standing.traces_begin (h : e.Standing) : (Engine.begin id e).Traces e.snapshot.status := by
  unfold Engine.begin
  split
  next session htask =>
    split
    · exact traces_unwind e id
    next hlive =>
      have hmem : id ∉ e.cancelled := by simpa using hlive
      have hready := (h.orderly.tells id _ nofun htask).queued session rfl hmem
      exact .andThen (traces_publish hready .refresh) (traces_refresh rfl (some session))
  · exact traces_quiet rfl rfl

theorem Standing.traces_resume (h : e.Standing) (hcons : Consistent none e) (reply : Reply H) :
    (Engine.resume id reply e).Traces e.snapshot.status := by
  unfold Engine.resume
  split
  · exact traces_unwind e id
  next hlive =>
    have hmem : id ∉ e.cancelled := by simpa using hlive
    split
    · exact traces_switch (h.answered.ne_compiling hcons) _
    · exact traces_finish e id _
    next purpose session ruleSet result htask => exact h.traces_compiled hcons htask result
    next session htask =>
      have henhancing := (h.orderly.tells id _ nofun htask).refreshing session rfl hmem
      exact traces_follow (e := { e with coordinator := (Coordinator.resume ..).1 }) henhancing
        session _
    · exact traces_quiet rfl rfl

theorem Standing.traces_move (h : e.Standing) (hcons : Consistent none e) {mv : Move H}
    (hclose : mv ≠ .call .close) (hrefresh : mv ≠ .call .refresh) :
    (e.move mv).Traces e.snapshot.status := by
  have hnot := h.answered.ne_compiling hcons
  cases mv with
  | call c =>
    cases c with
    | compile notify =>
      dsimp only [Engine.move, Engine.call]
      exact traces_compile (e := { e with nextTask := e.nextTask + 1 }) hnot _
    | setEnabled value =>
      dsimp only [Engine.move, Engine.call]
      split
      · exact traces_quiet rfl rfl
      · exact traces_switch (e := { e with nextTask := e.nextTask + 1 }) hnot value
    | close => exact absurd rfl hclose
    | refresh => exact absurd rfl hrefresh
  | begin id => exact h.traces_begin
  | resume id reply => exact h.traces_resume hcons reply
  | unwind id =>
    dsimp only [Engine.move]
    split
    · exact traces_unwind e id
    · exact traces_quiet rfl rfl
  | wake id =>
    dsimp only [Engine.move, wake]
    split
    · exact traces_finish e id _
    · exact traces_quiet rfl rfl
  | subscribe name => exact traces_quiet rfl rfl
  | unsubscribe ticket => exact traces_quiet rfl rfl

end

/-! ## Runs -/

/-- The statuses that some moves publish, in order. -/
def published : Engine H → List (Move H) → List Status
  | _, [] => []
  | e, mv :: moves =>
    (e.move mv).snapshots.map Snapshot.status ++ published (e.move mv).engine moves

theorem Standing.path {e : Engine H} (h : e.Standing) (hcons : Consistent none e)
    {moves : List (Move H)} (hclose : .call .close ∉ moves) (hrefresh : .call .refresh ∉ moves) :
    Status.Path e.snapshot.status (e.published moves) (e.run moves).snapshot.status := by
  induction moves generalizing e with
  | nil => exact .nil _
  | cons mv moves ih =>
    rw [List.mem_cons, not_or] at hclose hrefresh
    have hmv := Ne.symm hclose.1
    have hmv' := Ne.symm hrefresh.1
    exact Status.Path.append (h.traces_move hcons hmv hmv')
      (ih (h.move hcons hmv hmv') (hcons.move mv) hclose.2 hrefresh.2)

/-- The published statuses, from the initial one to the present one, follow the documented
lifecycle. Enhanced rules are never left for those of the tables, or for a new search, without a
compilation in between, and no two compilations of the tables are under way at once. -/
theorem lifecycle_run (setup : Setup) (enabled : Bool) (moves : List (Move H))
    (hclose : .call .close ∉ moves) (hrefresh : .call .refresh ∉ moves) :
    let e : Engine H := start setup enabled
    let statuses := .disabled :: e.published moves
    statuses.IsChain Status.Step ∧ statuses.getLast? = some (e.run moves).snapshot.status ∧
      (∀ before between s after,
        statuses = before ++ .readyEnhanced :: between ++ s :: after →
          s = .readyEmbedded ∨ s = .enhancing → .compiling ∈ between) ∧
      ∀ i j, (e.run moves).Compiles i → (e.run moves).Compiles j → i = j := by
  intro e statuses
  have hpath : Status.Path .disabled (e.published moves) (e.run moves).snapshot.status :=
    (standing_start setup enabled).path (consistent_start setup enabled) hclose hrefresh
  refine ⟨hpath.isChain, hpath.getLast?, ?_, ?_⟩
  · intro before between s after heq hs
    by_contra hnot
    have hchain := hpath.isChain
    change statuses.IsChain Status.Step at hchain
    have hsplit : statuses = before ++ ((.readyEnhanced :: (between ++ [s])) ++ after) := by
      simpa using heq
    rw [hsplit] at hchain
    have hinner := hchain.right_of_append.left_of_append
    have hs' : .compiling ∉ between ++ [s] := by
      rw [List.mem_append, List.mem_singleton, not_or]
      refine ⟨hnot, ?_⟩
      rintro rfl
      exact absurd hs (by decide)
    have hdisabled := Status.eq_disabled_of_isChain hinner (.inl rfl) hs' s (by simp)
    rw [hdisabled] at hs
    exact absurd hs (by decide)
  · intro i j hi hj
    exact (consistent_run setup enabled moves).alone i j nofun nofun hi hj

/-- The rules are enhanced, then the engine is switched off and on. -/
def switchingMoves : List (Move Nat) :=
  enhancingMoves ++ [.call (.setEnabled false), .call (.setEnabled true)]

theorem lifecycle_run_smallSetup :
    (.call .close ∉ switchingMoves ∧ .call .refresh ∉ switchingMoves) ∧
      (start smallSetup true).published switchingMoves =
        [.compiling, .readyEmbedded, .enhancing, .readyEnhanced, .disabled, .compiling] ∧
      (.disabled :: (start smallSetup true).published switchingMoves).IsChain Status.Step ∧
      ∀ i j, ((start smallSetup true).run switchingMoves).Compiles i →
        ((start smallSetup true).run switchingMoves).Compiles j → i = j := by
  have hclose : .call .close ∉ switchingMoves := by simp [switchingMoves, enhancingMoves]
  have hrefresh : .call .refresh ∉ switchingMoves := by simp [switchingMoves, enhancingMoves]
  obtain ⟨hchain, -, -, halone⟩ := lifecycle_run smallSetup true switchingMoves hclose hrefresh
  exact ⟨⟨hclose, hrefresh⟩, by decide +kernel, hchain, halone⟩

end Engine

end ContentFilter
