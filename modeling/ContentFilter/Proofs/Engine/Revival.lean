import ContentFilter.Proofs.Engine.Close
import ContentFilter.Proofs.Engine.Flight
import ContentFilter.Proofs.Engine.Rest

/-! # What closing does not end

A compilation that is under way when an engine is closed finds its session ended. While the engine
is switched on it begins anew, and then a refresh is scheduled although nobody has asked for
anything. The same goes for a call that has been waiting for the switch to be saved. Closing ends
all work in the background when there is nothing of the kind, and only then.

* `Engine.Poised`: what an engine that has been closed waits for; `Engine.Revived`: it schedules a
  refresh.
* `Engine.closed_for_good_iff`: when closing ends all work in the background.
-/

set_option autoImplicit false

namespace ContentFilter

variable {H : Type}

/-! ## What comes up again -/

namespace Engine

/-- There is somewhere to look, and no cycle is in flight. -/
structure Clear (e : Engine H) : Prop where
  searches : e.setup.Searches
  idle : e.coordinator.inFlight = false

/-- When the chunks of the tables have settled a refresh is scheduled. -/
structure Due (e : Engine H) : Prop where
  clear : e.Clear
  compiles : ∃ id purpose ruleSet, id ∉ e.cancelled ∧
    e.task? id = some (.compiling purpose e.session ruleSet)

/-- Without further calls a refresh is scheduled in the end. -/
def Revived (e : Engine H) : Prop :=
  ∃ f mv, e.Leads f ∧ (∀ c, mv ≠ .call c) ∧ (f.move mv).spawned ≠ []

section

variable {e f : Engine H} {id : TaskId} {mv : Move H}

theorem Revived.of_leads (hleads : e.Leads f) (h : f.Revived) : e.Revived := by
  obtain ⟨g, mv, hrest, hcall, hspawned⟩ := h
  exact ⟨g, mv, hleads.trans hrest, hcall, hspawned⟩

/-! ### The pieces -/

theorem Clear.spawned_schedule (h : e.Clear) : (schedule e).spawned = [e.nextTask] := by
  unfold schedule
  obtain ⟨⟨hcache, hsources⟩, hidle⟩ := h
  rw [if_neg (by simp [hcache, hsources, hidle])]
  rfl

theorem Clear.spawned_install (h : e.Clear) (id : TaskId) (purpose : Purpose) (ruleSet : RuleSet)
    (result : CompileResult H) : (install id purpose ruleSet result e).spawned ≠ [] := by
  have hpublished : ∀ s, (publish s e).engine.Clear := fun _ => ⟨h.searches, h.idle⟩
  unfold install
  rw [Moved.spawned_andThen, Moved.spawned_andThen, (hpublished _).spawned_schedule]
  simp

theorem Clear.submit (h : e.Clear) (hlive : id ∉ e.cancelled) (purpose : Purpose)
    (ruleSet : RuleSet) :
    (submit id purpose ruleSet e).spawned ≠ [] ∨ (submit id purpose ruleSet e).engine.Due := by
  unfold Engine.submit
  split
  · have hlowered : Clear { e with compiling := false } := ⟨h.searches, h.idle⟩
    exact .inl (hlowered.spawned_install id purpose ruleSet {})
  · refine .inr ⟨⟨h.searches, h.idle⟩, id, purpose, ruleSet, hlive, ?_⟩
    exact (task?_await ..).trans (if_pos rfl)

/-- A compilation that is begun will have a refresh scheduled. -/
theorem Clear.compile (h : e.Clear) (hnone : e.background = none) (hlive : id ∉ e.cancelled)
    (hon : e.enabled = true) (hfree : e.compiling = false) (purpose : Purpose) :
    (compile id purpose e).spawned ≠ [] ∨ (compile id purpose e).engine.Due := by
  unfold Engine.compile
  rw [if_neg (by simp [hon]), if_neg (by simp [hfree])]
  have hraised : ({ e with compiling := true } : Engine H).background = none := hnone
  rw [endSession_of_none hraised]
  have hbegun : Clear (publish (e.snapshot.withStatus .compiling)
      { e with compiling := true, session := e.session + 1, background := none }).engine :=
    ⟨h.searches, h.idle⟩
  refine (hbegun.submit hlive purpose _).imp (fun hspawned => ?_) fun hdue => hdue
  rw [Moved.spawned_andThen, Moved.spawned_andThen]
  exact List.append_ne_nil_of_right_ne_nil _ (List.append_ne_nil_of_right_ne_nil _ hspawned)

/-! ### What schedules a refresh in the end -/

theorem inTime_of_ne_wake (hwake : ∀ i, mv ≠ .wake i) : e.InTime mv :=
  fun i _ heq => absurd heq (hwake i)

theorem move_compiled (hlive : id ∉ e.cancelled) {purpose : Purpose} {session : Nat}
    {ruleSet : RuleSet} (htask : e.task? id = some (.compiling purpose session ruleSet))
    (result : CompileResult H) :
    e.move (.resume id (.compiled result)) = compiled id purpose session ruleSet result e := by
  dsimp only [Engine.move]
  unfold resume
  rw [if_neg (mt List.contains_iff_mem.mp hlive), htask]

theorem move_saved (hlive : id ∉ e.cancelled) {value : Bool}
    (htask : e.task? id = some (.saving value)) :
    e.move (.resume id .saved) = switch id value e := by
  dsimp only [Engine.move]
  unfold resume
  rw [if_neg (mt List.contains_iff_mem.mp hlive), htask]

theorem Due.revived (h : e.Due) : e.Revived := by
  obtain ⟨hclear, id, purpose, ruleSet, hlive, htask⟩ := h
  refine ⟨e, .resume id (.compiled {}), .refl e, nofun, ?_⟩
  rw [move_compiled hlive htask]
  unfold compiled
  dsimp only
  rw [if_pos rfl]
  have hlowered : Clear { e with compiling := false } := ⟨hclear.searches, hclear.idle⟩
  exact hlowered.spawned_install id purpose ruleSet {}

theorem revived_of_move (mv : Move H) (hcall : ∀ c, mv ≠ .call c) (htime : e.InTime mv)
    (h : (e.move mv).engine.Revived) : e.Revived :=
  h.of_leads (.move hcall htime (.refl _))

theorem revived_of_spawned_or_due (mv : Move H) (hcall : ∀ c, mv ≠ .call c) (htime : e.InTime mv)
    (h : (e.move mv).spawned ≠ [] ∨ (e.move mv).engine.Due) : e.Revived := by
  obtain hspawned | hdue := h
  · exact ⟨e, mv, .refl e, hcall, hspawned⟩
  · exact revived_of_move mv hcall htime hdue.revived

end

/-! ## Engines that have been closed -/

/-- What an engine that has been closed waits for: compilations of sessions that have ended, one if
the flag is up, and calls. None of these has been told to give up. -/
structure Poised (e : Engine H) : Prop where
  background : e.background = none
  live : ∀ id task, e.task? id = some task → (∀ session, task.session? ≠ some session) →
    id ∉ e.cancelled
  outdated : ∀ id purpose session ruleSet,
    e.task? id = some (.compiling purpose session ruleSet) → session < e.session
  flag : e.compiling = true → ∃ id, e.Compiles id

section

variable {e f : Engine H} {id : TaskId} {m : Moved H}

theorem Poised.of_wanes (h : e.Poised) (hwanes : m.Wanes e)
    (hsession : e.session ≤ m.engine.session)
    (hflag : m.engine.compiling = true → ∃ i, m.engine.Compiles i) : m.engine.Poised where
  background := hwanes.background
  live := fun i task htask hother hmem =>
    h.live i task (hwanes.tasks i task htask) hother (hwanes.cancelled i hmem)
  outdated := fun i purpose session ruleSet htask =>
    Nat.lt_of_lt_of_le (h.outdated i purpose session ruleSet (hwanes.tasks i _ htask)) hsession
  flag := hflag

/-- A compilation whose session has ended is begun anew. -/
theorem Poised.revived_of_compiles (h : e.Poised) (hclear : e.Clear) (hon : e.enabled = true)
    (hcompiles : e.Compiles id) : e.Revived := by
  obtain ⟨purpose, session, ruleSet, htask⟩ := hcompiles
  have hlive := h.live id _ htask nofun
  have hover : ¬ session = e.session := Nat.ne_of_lt (h.outdated id _ _ _ htask)
  have hmove : e.move (.resume id (.compiled {})) =
      compile id purpose { e with compiling := false } := by
    rw [move_compiled hlive htask]
    unfold compiled
    dsimp only
    rw [if_neg hover, if_pos hon]
  refine revived_of_spawned_or_due (.resume id (.compiled {})) nofun
    (inTime_of_ne_wake nofun) ?_
  rw [hmove]
  have hlowered : Clear { e with compiling := false } := ⟨hclear.searches, hclear.idle⟩
  exact hlowered.compile h.background hlive hon rfl purpose

theorem Compiles.finish {i : TaskId} (h : e.Compiles i) (hother : ¬ e.Compiles id)
    (ending : Ending) : (finish id ending e).engine.Compiles i := by
  have hne : i ≠ id := by
    rintro rfl
    exact hother h
  simpa [Compiles, hne] using h

/-- The end of a call that does not compile leaves compilations alone. -/
theorem Poised.finish (h : e.Poised) (hother : ¬ e.Compiles id) (ending : Ending) :
    (finish id ending e).engine.Poised := by
  refine h.of_wanes (wanes_finish h.background id ending) (Nat.le_refl _) fun hflag => ?_
  obtain ⟨i, hcompiles⟩ := h.flag hflag
  exact ⟨i, hcompiles.finish hother ending⟩

/-- Switching off ends a session; what waits goes on waiting. -/
theorem task?_shutDown (e : Engine H) (j : TaskId) :
    (shutDown e).engine.task? j = e.task? j := by
  rw [shutDown, Moved.andThen_engine]
  exact task?_endSession e j

theorem Clear.shutDown (h : e.Clear) : (shutDown e).engine.Clear := by
  constructor
  · simpa [Engine.shutDown] using h.searches
  · simpa [Engine.shutDown] using h.idle

theorem Poised.shutDown (h : e.Poised) : (shutDown e).engine.Poised := by
  refine h.of_wanes (wanes_shutDown h.background) ?_ fun hflag => ?_
  · simp [Engine.shutDown]
  · obtain ⟨i, purpose, session, ruleSet, htask⟩ := h.flag (by simpa [Engine.shutDown] using hflag)
    exact ⟨i, purpose, session, ruleSet, (task?_shutDown e i).trans htask⟩

/-- A call that switches on begins a compilation, or leaves it to the one that is under way. -/
theorem Poised.revived_of_saves (h : e.Poised) (hclear : e.Clear) (hoff : e.enabled = false)
    (hsaves : e.Saves true) : e.Revived := by
  obtain ⟨id, htask⟩ := hsaves
  have hlive := h.live id _ htask nofun
  have hmove : e.move (.resume id .saved) = compile id .switch { e with enabled := true } := by
    rw [move_saved hlive htask]
    unfold switch
    rw [if_neg (by simp [hoff]), if_pos rfl]
  have hturned : Poised { e with enabled := true } := ⟨h.background, h.live, h.outdated, h.flag⟩
  cases hflag : e.compiling with
  | true =>
    obtain ⟨i, hcompiles⟩ := h.flag hflag
    have hleaves : e.move (.resume id .saved) =
        Engine.finish id .silent { e with enabled := true } := by
      rw [hmove]
      unfold compile
      rw [if_neg nofun, if_pos hflag]
      rfl
    refine revived_of_move (.resume id .saved) nofun (inTime_of_ne_wake nofun) ?_
    rw [hleaves]
    have hother : ¬ Compiles { e with enabled := true } id := not_compiles htask nofun
    have hstays : Compiles { e with enabled := true } i := hcompiles
    exact (hturned.finish hother .silent).revived_of_compiles ⟨hclear.searches, hclear.idle⟩ rfl
      (hstays.finish hother .silent)
  | false =>
    refine revived_of_spawned_or_due (.resume id .saved) nofun (inTime_of_ne_wake nofun) ?_
    rw [hmove]
    have hclear' : Clear { e with enabled := true } := ⟨hclear.searches, hclear.idle⟩
    exact hclear'.compile h.background hlive rfl hflag .switch

/-- A call that switches off lets one that switches on find the engine switched off. -/
theorem Poised.revived_of_saves_both (h : e.Poised) (hclear : e.Clear) (hon : e.enabled = true)
    (hsaves : e.Saves true) (hother : e.Saves false) : e.Revived := by
  obtain ⟨id, htask⟩ := hsaves
  obtain ⟨j, hentry⟩ := hother
  have hlive := h.live j _ hentry nofun
  have hne : id ≠ j := by
    rintro rfl
    exact absurd (htask.symm.trans hentry) nofun
  have hmove : e.move (.resume j .saved) =
      (Engine.shutDown { e with enabled := false }).andThen (Engine.finish j .silent) := by
    rw [move_saved hlive hentry]
    unfold switch
    rw [if_neg (by simp [hon]), if_neg nofun]
  have hturned : Poised { e with enabled := false } := ⟨h.background, h.live, h.outdated, h.flag⟩
  have hclear' : Clear { e with enabled := false } := ⟨hclear.searches, hclear.idle⟩
  have hdown := hturned.shutDown
  have hcleared := hclear'.shutDown
  refine revived_of_move (.resume j .saved) nofun (inTime_of_ne_wake nofun) ?_
  rw [hmove, Moved.andThen_engine]
  have hentry' := (task?_shutDown { e with enabled := false } j).trans hentry
  refine (hdown.finish (not_compiles hentry' nofun) .silent).revived_of_saves
    ⟨hcleared.searches, hcleared.idle⟩ ?_ ⟨id, ?_⟩
  · simp [Engine.shutDown]
  · rw [task?_finish, if_neg hne, task?_shutDown]
    exact htask

/-- What closing does not end has a refresh scheduled. -/
theorem Poised.revived (h : e.Poised) (hclear : e.Clear) (hrevives : e.Revives) : e.Revived := by
  obtain ⟨hon, id, hcompiles⟩ | ⟨hsaves, hthen⟩ := hrevives
  · exact h.revived_of_compiles hclear hon hcompiles
  · cases hon : e.enabled with
    | true =>
      have hother : e.Saves false := hthen.resolve_left (by simp [hon])
      exact h.revived_of_saves_both hclear hon hsaves hother
    | false => exact h.revived_of_saves hclear hon hsaves

end

/-! ## Giving up -/

/-- Refreshes that have been called off give up, and nothing else happens. -/
structure Eases (e f : Engine H) : Prop where
  leads : e.Leads f
  poised : f.Poised
  setup : f.setup = e.setup
  enabled : f.enabled = e.enabled
  tasks : ∀ id task, f.task? id = some task → e.task? id = some task
  kept : ∀ id task, e.task? id = some task → (∀ session, task.session? ≠ some session) →
    f.task? id = some task
  idle : e.coordinator.inFlight = false → f.coordinator.inFlight = false

section

variable {e f : Engine H} {id : TaskId}

theorem Eases.trans {g : Engine H} (h : e.Eases f) (h' : f.Eases g) : e.Eases g where
  leads := h.leads.trans h'.leads
  poised := h'.poised
  setup := h'.setup.trans h.setup
  enabled := h'.enabled.trans h.enabled
  tasks := fun id task htask => h.tasks id task (h'.tasks id task htask)
  kept := fun id task htask hother => h'.kept id task (h.kept id task htask hother) hother
  idle := fun hidle => h'.idle (h.idle hidle)

theorem Poised.eases_refl (h : e.Poised) : e.Eases e :=
  ⟨.refl e, h, rfl, rfl, fun _ _ htask => htask, fun _ _ htask _ => htask, fun hidle => hidle⟩

theorem Eases.revives (h : e.Eases f) (hrevives : e.Revives) : f.Revives :=
  hrevives.transfer h.enabled.trans (fun hoff => .inl (h.enabled.trans hoff))
    fun i task htask hother _ => h.kept i task htask hother

theorem task?_unwind (e : Engine H) (id j : TaskId) :
    (unwind id e).engine.task? j = if j = id then none else e.task? j := by
  unfold unwind
  split
  next hnone =>
    split
    next heq => rw [heq, hnone]
    · rfl
  · exact task?_finish ..

theorem unwind_coordinator (e : Engine H) (id : TaskId) :
    (unwind id e).engine.coordinator = e.coordinator ∨
      (unwind id e).engine.coordinator = e.coordinator.drop id := by
  unfold unwind
  split
  · exact .inl rfl
  · exact .inr rfl

theorem inFlight_drop {c : Coordinator} (h : c.inFlight = false) (id : TaskId) :
    (c.drop id).inFlight = false := by
  unfold Coordinator.drop
  split
  · exact h
  · rfl

theorem Poised.eases_unwind (h : e.Poised) (hmem : id ∈ e.cancelled) :
    e.Eases (e.move (.unwind id)).engine := by
  have hmove : e.move (.unwind id) = unwind id e := by
    dsimp only [Engine.move]
    rw [if_pos (List.contains_iff_mem.mpr hmem)]
  have hkeeps := keeps_unwind e id
  have hwanes := wanes_unwind h.background id
  have hkept : ∀ j task, e.task? j = some task → (∀ session, task.session? ≠ some session) →
      (unwind id e).engine.task? j = some task := by
    intro j task htask hother
    rw [task?_unwind, if_neg, htask]
    rintro rfl
    exact h.live j task htask hother hmem
  have hcall : ∀ c, Move.unwind id ≠ (.call c : Move H) := nofun
  have hleads : e.Leads (e.move (.unwind id)).engine :=
    .move hcall (inTime_of_ne_wake nofun) (.refl _)
  rw [hmove] at hleads ⊢
  refine ⟨hleads, h.of_wanes hwanes (Nat.le_of_eq hkeeps.session.symm) fun hflag => ?_,
    hwanes.setup, hkeeps.enabled, hwanes.tasks, hkept, fun hidle => ?_⟩
  · obtain ⟨i, purpose, session, ruleSet, htask⟩ := h.flag (hkeeps.compiling ▸ hflag)
    exact ⟨i, purpose, session, ruleSet, hkept i _ htask nofun⟩
  · obtain hsame | hdropped := unwind_coordinator e id
    · rwa [hsame]
    · rw [hdropped]
      exact inFlight_drop hidle id

/-- The cycle in flight ends when its task gives up. -/
theorem Poised.exists_idle (h : e.Poised) (hcons : Consistent none e) (hattended : e.Attended)
    (hown : ∀ id, e.task? id ≠ some (.refreshing none)) :
    ∃ f, e.Eases f ∧ f.coordinator.inFlight = false := by
  cases hflag : e.coordinator.inFlight with
  | false => exact ⟨e, h.eases_refl, hflag⟩
  | true =>
    obtain ⟨id, hholds⟩ := hattended.sole.flag.mp hflag
    obtain ⟨-, session, htask⟩ := hattended.waits id hholds
    obtain ⟨session, rfl⟩ : ∃ s, session = some s :=
      Option.ne_none_iff_exists'.mp fun hnone => hown id (by rw [htask, hnone])
    have hmem := hcons.unrefreshed h.background id _ session nofun htask rfl
    refine ⟨_, h.eases_unwind hmem, ?_⟩
    dsimp only [Engine.move]
    unfold unwind
    rw [if_pos (List.contains_iff_mem.mpr hmem), htask]
    dsimp only
    rw [finish_coordinator, Coordinator.drop_of_holds hholds]
    rfl

/-- A refresh that has been called off ends. -/
theorem Poised.exists_ended (h : e.Poised) (hcalledOff : e.task? id ≠ none → id ∈ e.cancelled) :
    ∃ f, e.Eases f ∧ f.task? id = none := by
  by_cases hended : e.task? id = none
  · exact ⟨e, h.eases_refl, hended⟩
  · have hmem := hcalledOff hended
    refine ⟨_, h.eases_unwind hmem, ?_⟩
    dsimp only [Engine.move]
    rw [if_pos (List.contains_iff_mem.mpr hmem), task?_unwind, if_pos rfl]

/-! ## Closing -/

theorem Standing.poised (h : e.Standing) (hcons : Consistent none e) :
    (e.move (.call .close)).engine.Poised where
  background := close_background ..
  live := by
    intro i task htask hother hmem
    have hbound : e.Bound i := bound_of_mem_move_close hmem
    obtain ⟨task', session, hentry, hsession⟩ := h.orderly.background i nofun hbound
    obtain rfl := Option.some.inj (htask.symm.trans (h.kept_close hentry))
    exact hother session hsession
  outdated := by
    intro i purpose session ruleSet htask
    have hfits := hcons.fits i _ nofun (task?_of_close htask nofun)
    have hbegun := (hfits.compiles purpose session ruleSet rfl).begun
    rw [Engine.move, Engine.call, close_session]
    exact Nat.lt_succ_of_le hbegun
  flag := by
    intro hflag
    rw [Engine.move, Engine.call, close_compiling] at hflag
    obtain ⟨i, -, purpose, session, ruleSet, htask⟩ := h.answered.flag hflag
    exact ⟨i, purpose, session, ruleSet, h.kept_close htask⟩

theorem Standing.revives_close (h : e.Standing) (hrevives : e.Revives) :
    (e.move (.call .close)).engine.Revives := by
  have henabled : (e.move (.call .close)).engine.enabled = e.enabled := close_enabled ..
  exact hrevives.transfer henabled.trans (fun hoff => .inl (henabled.trans hoff))
    fun i task htask _ _ => h.kept_close htask

theorem Revives.finish {other : TaskId} (h : e.Revives)
    (htask : e.task? id = some (.closing other)) (ending : Ending) :
    (finish id ending e).engine.Revives := by
  refine h.transfer (fun hon => hon) .inl fun i task hentry _ hother => ?_
  rw [task?_finish, if_neg, hentry]
  rintro rfl
  exact hother other (Option.some.inj (hentry.symm.trans htask))

/-- The refreshes that have been called off give up, and the call that closes comes back. -/
theorem Standing.exists_clear (h : e.Standing) (hcons : Consistent none e)
    (hattended : e.Attended) (hsearches : e.setup.Searches) (hrevives : e.Revives) :
    ∃ f, (e.move (.call .close)).engine.Leads f ∧ f.Poised ∧ f.Clear ∧ f.Revives ∧
      f.task? e.nextTask = none := by
  have hown : ∀ i, (e.move (.call .close)).engine.task? i ≠ some (.refreshing none) :=
    fun i htask => (h.orderly.tells i _ nofun (task?_of_close htask nofun)).bound rfl
  obtain ⟨f, heases, hidle⟩ :=
    (h.poised hcons).exists_idle (hcons.move _) (hattended.move h _) hown
  have hsearches' : f.setup.Searches := by
    rwa [heases.setup, setup_move]
  have hrevives' := heases.revives (h.revives_close hrevives)
  have hentry := task?_move_close e e.nextTask
  rw [if_pos rfl] at hentry
  cases hrunning : e.running? with
  | none =>
    rw [hrunning, Option.map_none] at hentry
    refine ⟨f, heases.leads, heases.poised, ⟨hsearches', hidle⟩, hrevives', ?_⟩
    refine Option.eq_none_iff_forall_ne_some.mpr fun task htask => ?_
    exact absurd (hentry.symm.trans (heases.tasks _ _ htask)) nofun
  | some other =>
    rw [hrunning, Option.map_some] at hentry
    have hcons' : Consistent none f := (hcons.move _).leads heases.leads
    have hcalledOff : f.task? other ≠ none → other ∈ f.cancelled := by
      intro hunended
      obtain ⟨task, htask⟩ := Option.ne_none_iff_exists'.mp hunended
      obtain ⟨task', session, hother, hsession⟩ := h.orderly.background other nofun (.inr hrunning)
      obtain rfl : task = task' :=
        Option.some.inj ((heases.tasks _ _ htask).symm.trans (h.kept_close hother))
      exact hcons'.unrefreshed heases.poised.background other task session nofun htask hsession
    obtain ⟨g, heases', hended⟩ := heases.poised.exists_ended hcalledOff
    have hall := heases.trans heases'
    have hwaits : g.task? e.nextTask = some (.closing other) := hall.kept _ _ hentry nofun
    have hmove : g.move (.wake e.nextTask) = Engine.finish e.nextTask .silent g := by
      dsimp only [Engine.move, wake]
      rw [hwaits]
    have htime : g.InTime (.wake e.nextTask) := by
      rintro i j ⟨⟩ htask
      obtain ⟨⟩ := Option.some.inj (htask.symm.trans hwaits)
      exact hended
    have hcall : ∀ c, Move.wake e.nextTask ≠ (.call c : Move H) := nofun
    refine ⟨(g.move (.wake e.nextTask)).engine, hall.leads.trans (.move hcall htime (.refl _)), ?_⟩
    rw [hmove]
    refine ⟨hall.poised.finish (not_compiles hwaits nofun) .silent,
      ⟨heases'.setup.symm ▸ hsearches', heases'.idle hidle⟩,
      (heases'.revives hrevives').finish hwaits .silent, ?_⟩
    rw [task?_finish, if_pos rfl]

/-- All work in the background of an engine has ceased. Nothing is in the background; refreshes that
were called off before have only to give up, and the one that closing calls off has done so; and no
move but a call will look for anything. -/
structure Ceased (e f : Engine H) : Prop where
  background : f.background = none
  calledOff : Unrefreshed none f
  awaited : ∀ other, e.running? = some other → f.task? other = none
  quiet : ∀ mv, (∀ c, mv ≠ .call c) → (f.move mv).Unsearching

/-- Closing ends all work in the background, from the moment at which the call comes back, unless
something is left that brings the engine up again. That is a compilation of an engine which is
switched on, or a call which has been waiting for the switch to be saved and finds the engine
switched off. -/
theorem closed_for_good_iff (setup : Setup) (enabled : Bool) {before : List (Move H)}
    (hclose : .call .close ∉ before) (hrefresh : .call .refresh ∉ before) :
    let e := (start setup enabled : Engine H).run before
    (∀ f, (e.move (.call .close)).engine.Leads f → f.task? e.nextTask = none → e.Ceased f) ↔
      ¬ (setup.Searches ∧ e.Revives) := by
  intro e
  have hstart := consistent_start (H := H) setup enabled
  have hcons : Consistent none e := consistent_run setup enabled before
  have hstanding : e.Standing := (standing_start setup enabled).run hstart hclose hrefresh
  have hsetup : e.setup = setup := setup_run _ before
  constructor
  · rintro hceased ⟨hsearches, hrevives⟩
    have hattended : e.Attended :=
      (attended_start setup enabled).run (standing_start setup enabled) hstart hclose hrefresh
    obtain ⟨f, hleads, hpoised, hclear, hrevives', hback⟩ :=
      hstanding.exists_clear hcons hattended (hsetup ▸ hsearches) hrevives
    obtain ⟨g, mv, hleads', hcall, hspawned⟩ := hpoised.revived hclear hrevives'
    have hgone : f.Gone e.nextTask :=
      ⟨Nat.lt_of_lt_of_le (nextTask_lt_call e .close) hleads.nextTask_le, hback⟩
    have hquiet := (hceased g (hleads.trans hleads') (hgone.leads hleads').ended).quiet mv hcall
    exact hspawned hquiet.spawned
  · intro hover f hleads hback
    rw [← hsetup] at hover
    have hclosed := hstanding.closed hover
    have hclosed' := hclosed.leads (hcons.move _) hleads
    have hcons' : Consistent none f := (hcons.move _).leads hleads
    refine ⟨hclosed'.background, hcons'.unrefreshed hclosed'.background, fun other hrunning => ?_,
      fun mv hcall => (hclosed'.rests hcons' hcall).quiet⟩
    have hexpects := (hstanding.expects hrunning).leads hclosed (hcons.move _) hleads
    refine hexpects.waits.resolve_left fun hwaits => ?_
    exact absurd (hback.symm.trans hwaits) nofun

/-- An engine that is closed while it looks for a list. -/
def searchingMoves : List (Move Nat) :=
  [.call (.compile false), .resume 0 (.compiled { handles := [0] }), .begin 1]

theorem closed_for_good_iff_smallSetup :
    let e := (start smallSetup true).run searchingMoves
    (.call .close ∉ searchingMoves ∧ .call .refresh ∉ searchingMoves) ∧ e.running? = some 1 ∧
      ∀ f, (e.move (.call .close)).engine.Leads f → f.task? e.nextTask = none → e.Ceased f := by
  intro e
  have hclose : .call .close ∉ searchingMoves := by simp [searchingMoves]
  have hrefresh : .call .refresh ∉ searchingMoves := by simp [searchingMoves]
  have hsessions : e.tasks.map (fun t => t.2.session?) = [some 1] := by decide +kernel
  have hentry : ∀ i task, e.task? i = some task → task.session? = some 1 := by
    intro i task htask
    obtain ⟨older, newer, htasks, -⟩ := List.lookup_eq_some_iff.mp htask
    have hmem : (i, task) ∈ e.tasks := by simp [htasks]
    have hsession : task.session? ∈ e.tasks.map (fun t => t.2.session?) := List.mem_map_of_mem hmem
    rw [hsessions] at hsession
    exact List.mem_singleton.mp hsession
  have hover : ¬ (smallSetup.Searches ∧ e.Revives) := by
    rintro ⟨-, ⟨-, i, purpose, session, ruleSet, htask⟩ | ⟨⟨i, htask⟩, -⟩⟩
    · exact absurd (hentry i _ htask) nofun
    · exact absurd (hentry i _ htask) nofun
  exact ⟨⟨hclose, hrefresh⟩, by decide +kernel,
    (@closed_for_good_iff Nat smallSetup true searchingMoves hclose hrefresh).mpr hover⟩

/-- The engine is closed while the chunks of its tables are compiled. The call comes back at once;
when the chunks have settled they are compiled again, and then a list is looked for. -/
theorem compilation_outlives_closing :
    let e : Engine Nat := (start smallSetup true).run [.call (.compile false)]
    let closed := (e.move (.call .close)).engine
    let f := closed.run [.resume 0 (.compiled { handles := [0] })]
    closed.task? e.nextTask = none ∧
      (f.move (.resume 0 (.compiled { handles := [0] }))).spawned = [2] ∧
      ¬ ∀ g, closed.Leads g → g.task? e.nextTask = none → e.Ceased g := by
  intro e closed f
  have hcall : ∀ c, Move.resume 0 (.compiled { handles := [0] }) ≠ (.call c : Move Nat) := nofun
  have hleads : closed.Leads f := .move hcall (inTime_of_ne_wake nofun) (.refl _)
  have hspawned : (f.move (.resume 0 (.compiled { handles := [0] }))).spawned = [2] := by
    decide +kernel
  have hback : closed.task? e.nextTask = none := Option.isNone_iff_eq_none.mp (by decide +kernel)
  have hback' : f.task? e.nextTask = none := Option.isNone_iff_eq_none.mp (by decide +kernel)
  refine ⟨hback, hspawned, fun hceased => ?_⟩
  have hquiet := (hceased f hleads hback').quiet _ hcall
  exact absurd (hspawned.symm.trans hquiet.spawned) nofun

end

end Engine

end ContentFilter
