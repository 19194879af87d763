import ContentFilter.Proofs.Engine.Chronicle
import ContentFilter.Proofs.Engine.Session
import ContentFilter.Proofs.Refresh.Offer

/-! # No spliced snapshots

The snapshot that downloaded handles are appended to was put together long before them. Still both
come from one session: as long as a refresh in the background has not been called off, the snapshot
in force holds the tables of its session and nothing else.

* `Engine.Faithful`: what ties the chronicle to an engine.
* `Engine.Faithful.chronicle`: it holds after any moves but refreshes from outside.
* `Engine.snapshots_unspliced`: every published snapshot is made of the handles of one session.
-/

set_option autoImplicit false

namespace ContentFilter

variable {H : Type}

namespace Engine

/-! ## The invariant -/

/-- What the entry of a task says about the chronicle. -/
structure Recorded (setup : Setup) (past : List (Event H)) (e : Engine H) (id : TaskId)
    (task : Task) : Prop where
  bound : task ≠ .refreshing none
  refreshes : ∀ session, task.session? = some session → id ∉ e.cancelled →
    EmbeddedOnly setup past e.session e.snapshot
  compiles : ∀ purpose session ruleSet, task = .compiling purpose session ruleSet →
    ruleSet = setup.ruleSet ∧ session ∉ sessionsOf past

/-- What ties the chronicle to an engine. The task whose turn it is is left out. -/
structure Faithful (setup : Setup) (turn : Option TaskId) (past : List (Event H)) (e : Engine H) :
    Prop where
  sound : Sound setup past
  once : (sessionsOf past).Nodup
  begun : ∀ session ∈ sessionsOf past, session ≤ e.session
  last : lastSnapshot past = e.snapshot
  fits : e.snapshot.embeddedCount ≤ e.snapshot.handles.length
  madeWith : e.setup = setup
  plan : e.coordinator.plan = ⟨setup.config, setup.tables⟩
  merging : e.coordinator.Merging
  recorded : ∀ id task, some id ≠ turn → e.task? id = some task → Recorded setup past e id task

/-- Every refresh in the background has been called off; the task whose turn it is is left out. -/
def Unrefreshed (turn : Option TaskId) (e : Engine H) : Prop :=
  ∀ id task session, some id ≠ turn → e.task? id = some task → task.session? = some session →
    id ∈ e.cancelled

section

variable {setup : Setup} {past : List (Event H)} {e : Engine H} {id : TaskId}
  {turn : Option TaskId}

theorem faithful_start (setup : Setup) (enabled : Bool) :
    Faithful setup none [] (start setup enabled : Engine H) where
  sound := sound_nil setup
  once := List.nodup_nil
  begun := by simp [sessionsOf]
  last := rfl
  fits := Nat.le_refl _
  madeWith := rfl
  plan := rfl
  merging := by
    intro id origin ruleSet hphase
    simp [Coordinator.phase?, start] at hphase
  recorded := by
    intro id task _ htask
    simp [task?, start] at htask

theorem Faithful.during (h : Faithful setup none past e) (id : TaskId) :
    Faithful setup (some id) past e :=
  { h with recorded := fun j task _ => h.recorded j task nofun }

theorem Consistent.unrefreshed (h : Consistent turn e) (hnone : e.background = none) :
    Unrefreshed turn e := by
  intro j task session hj htask hsession
  by_contra hlive
  have hrunning := ((h.fits j task hj htask).refreshes session hsession hlive).running
  rw [hnone] at hrunning
  exact absurd hrunning nofun

theorem Consistent.unrefreshed_of_refreshes (h : Consistent (some id) e) {session : Nat}
    (hself : e.Refreshes id session) : Unrefreshed (some id) e := by
  intro j task s hj htask hs
  by_contra hlive
  have hrunning := ((h.fits j task hj htask).refreshes s hs hlive).running
  rw [hself.running] at hrunning
  simp only [Option.some.injEq, Background.mk.injEq, and_true] at hrunning
  exact hj (congrArg some hrunning.symm)

/-! ## What the pieces keep -/

theorem Recorded.congr {e' : Engine H} {task : Task} (h : Recorded setup past e id task)
    (hcancelled : id ∈ e.cancelled → id ∈ e'.cancelled) (hsession : e'.session = e.session)
    (hsnapshot : e'.snapshot = e.snapshot) : Recorded setup past e' id task := by
  refine ⟨h.bound, fun session hs hlive => ?_, h.compiles⟩
  rw [hsession, hsnapshot]
  exact h.refreshes session hs fun hmem => hlive (hcancelled hmem)

theorem Faithful.update {e' : Engine H} {turn' : Option TaskId} (h : Faithful setup turn past e)
    (id : TaskId) (hturn : ∀ j, j ≠ id → some j ≠ turn' → some j ≠ turn)
    (htasks : ∀ j, j ≠ id → e'.task? j = e.task? j)
    (hcancelled : ∀ j, j ≠ id → j ∈ e.cancelled → j ∈ e'.cancelled)
    (hnew : ∀ task, e'.task? id = some task → Recorded setup past e' id task)
    (hsession : e'.session = e.session) (hsnapshot : e'.snapshot = e.snapshot)
    (hsetup : e'.setup = e.setup) (hcoordinator : e'.coordinator = e.coordinator) :
    Faithful setup turn' past e' where
  sound := h.sound
  once := h.once
  begun := hsession ▸ h.begun
  last := hsnapshot ▸ h.last
  fits := hsnapshot ▸ h.fits
  madeWith := hsetup ▸ h.madeWith
  plan := hcoordinator ▸ h.plan
  merging := hcoordinator ▸ h.merging
  recorded := by
    intro j task hj htask
    by_cases heq : j = id
    · subst heq
      exact hnew task htask
    · rw [htasks j heq] at htask
      exact (h.recorded j task (hturn j heq hj) htask).congr (hcancelled j heq) hsession hsnapshot

/-- The flags, the background and the listeners play no part. -/
theorem Faithful.congr {e' : Engine H} (h : Faithful setup turn past e)
    (htasks : e'.tasks = e.tasks) (hcancelled : e'.cancelled = e.cancelled)
    (hsession : e'.session = e.session) (hsnapshot : e'.snapshot = e.snapshot)
    (hsetup : e'.setup = e.setup) (hcoordinator : e'.coordinator = e.coordinator) :
    Faithful setup turn past e' := by
  have htask : ∀ j, e'.task? j = e.task? j := by
    intro j
    simp only [task?, htasks]
  refine { h with
    begun := hsession ▸ h.begun, last := hsnapshot ▸ h.last, fits := hsnapshot ▸ h.fits
    madeWith := hsetup ▸ h.madeWith, plan := hcoordinator ▸ h.plan
    merging := hcoordinator ▸ h.merging, recorded := ?_ }
  intro j task hj hentry
  rw [htask] at hentry
  refine (h.recorded j task hj hentry).congr ?_ hsession hsnapshot
  rw [hcancelled]
  exact fun hmem => hmem

theorem Faithful.withCoordinator (h : Faithful setup turn past e) {c : Coordinator}
    (hplan : c.plan = e.coordinator.plan) (hmerging : c.Merging) :
    Faithful setup turn past { e with coordinator := c } :=
  { h with
    plan := hplan.trans h.plan, merging := hmerging
    recorded := fun j task hj hentry =>
      (h.recorded j task hj hentry).congr (fun hmem => hmem) rfl rfl }

theorem Faithful.finish (h : Faithful setup (some id) past e) (ending : Ending) :
    Faithful setup none past (finish id ending e).engine := by
  apply h.update id
  · intro j hj _ heq
    exact hj (Option.some.inj heq)
  · intro j hj
    rw [task?_finish, if_neg hj]
  · intro j hj hmem
    exact (mem_cancelled_finish e id ending j).mpr ⟨hmem, hj⟩
  · intro task htask
    rw [task?_finish, if_pos rfl] at htask
    exact absurd htask nofun
  all_goals rfl

theorem Faithful.await (h : Faithful setup (some id) past e) {task : Task}
    (hnew : Recorded setup past e id task) : Faithful setup none past (await id task e) := by
  apply h.update id
  · intro j hj _ heq
    exact hj (Option.some.inj heq)
  · intro j hj
    rw [task?_await, if_neg hj]
  · exact fun j _ hmem => hmem
  · intro task' htask
    rw [task?_await, if_pos rfl] at htask
    obtain rfl := Option.some.inj htask
    exact hnew.congr (fun hmem => hmem) rfl rfl
  all_goals rfl

theorem Faithful.publish (h : Faithful setup turn past e) (hquiet : Unrefreshed turn e)
    {s : Snapshot H} (hs : Unspliced setup past e.session s) :
    Faithful setup turn ((publish s e).record past) (publish s e).engine where
  sound := h.sound.concat (by rintro _ _ ⟨⟩; exact hs)
  once := by simpa [Moved.record, sessionsOf] using h.once
  begun := by simpa [Moved.record, sessionsOf] using h.begun
  last := lastSnapshot_published past e.session s
  fits := hs.fits
  madeWith := h.madeWith
  plan := h.plan
  merging := h.merging
  recorded := by
    intro j task hj htask
    have hrec := h.recorded j task hj htask
    -- No refresh is left that counts on the snapshot before.
    refine ⟨hrec.bound, fun session hsession hlive => ?_, ?_⟩
    · exact absurd (hquiet j task session hj htask hsession) hlive
    · simpa [Moved.record, sessionsOf] using hrec.compiles

theorem Faithful.endSession (h : Faithful setup turn past e) (hcons : Consistent turn e)
    (enabled compiling : Bool) :
    Faithful setup turn past
      (endSession { e with enabled := enabled, compiling := compiling }).engine := by
  rw [endSession_engine]
  refine { h with begun := fun session hmem => Nat.le_succ_of_le (h.begun session hmem),
                  recorded := ?_ }
  intro j task hj hentry
  have hrec := h.recorded j task hj hentry
  refine ⟨hrec.bound, fun session hs hlive => ?_, hrec.compiles⟩
  simp only [List.mem_append, Option.mem_toList, not_or] at hlive
  have hrunning := ((hcons.fits j task hj hentry).refreshes session hs hlive.2).running
  exact absurd (running?_eq_some.mpr hrunning) hlive.1

theorem Faithful.schedule (h : Faithful setup turn past e)
    (hs : EmbeddedOnly setup past e.session e.snapshot) :
    Faithful setup turn past (schedule e).engine := by
  unfold Engine.schedule
  split
  · exact h
  apply h.update e.nextTask
  · exact fun j _ hj => hj
  · intro j hj
    exact (task?_await e e.nextTask _ j).trans (if_neg hj)
  · exact fun j _ hmem => hmem
  · intro task htask
    have hentry := (task?_await e e.nextTask (.queued e.session) e.nextTask).trans (if_pos rfl)
    obtain rfl := Option.some.inj (hentry.symm.trans htask)
    exact ⟨nofun, fun _ _ _ => hs, nofun⟩
  all_goals rfl

/-! ## Compiling the tables -/

theorem Faithful.conclude (h : Faithful setup (some id) past e) (purpose : Purpose) :
    Faithful setup none past (conclude id purpose e).engine := by
  cases purpose with
  | call notify => exact h.finish _
  | switch => exact h.finish _

theorem Faithful.shutDown (h : Faithful setup turn past e) (hcons : Consistent turn e)
    (enabled : Bool) :
    Faithful setup turn ((shutDown { e with enabled := enabled }).record past)
      (shutDown { e with enabled := enabled }).engine := by
  have hended := h.endSession hcons enabled e.compiling
  have hquiet := (hcons.endSession enabled e.compiling fun hflag => hflag).unrefreshed (by simp)
  have hrecord : (Engine.shutDown { e with enabled := enabled }).record past =
      (Engine.publish .disabled
        (Engine.endSession { e with enabled := enabled }).engine).record past := by
    simp [Engine.shutDown, Moved.record]
  rw [hrecord]
  have hdisabled : (Snapshot.disabled : Snapshot H).status = .disabled := rfl
  exact hended.publish hquiet
    ⟨Nat.le_refl _, fun _ => rfl, by simp [hdisabled], by simp [hdisabled], by simp [hdisabled],
      by simp [hdisabled]⟩

theorem Faithful.install (h : Faithful setup (some id) past e) (hcons : Consistent (some id) e)
    (hnone : e.background = none) (purpose : Purpose) {ruleSet : RuleSet}
    {result : CompileResult H} (hcompiled : TablesCompiled setup past e.session ruleSet result)
    (hsame : ruleSet = setup.ruleSet) :
    Faithful setup none ((install id purpose ruleSet result e).record past)
      (install id purpose ruleSet result e).engine := by
  have honly : EmbeddedOnly setup past e.session
      ({ status := .readyEmbedded, ruleSet := ruleSet, handles := result.handles,
         embeddedCount := result.handles.length } : Snapshot H) := by
    refine ⟨result, hcompiled, rfl, ?_, hsame, ?_⟩
    · simp [Snapshot.downloadedHandles]
    · rw [hsame]
      rfl
  have hunspliced : Unspliced setup past e.session
      ({ status := .readyEmbedded, ruleSet := ruleSet, handles := result.handles,
         embeddedCount := result.handles.length } : Snapshot H) :=
    ⟨Nat.le_refl _, nofun, nofun, fun _ => honly, nofun, nofun⟩
  have hpublished := h.publish (hcons.unrefreshed hnone) hunspliced
  unfold Engine.install
  rw [Moved.record_andThen_quiet _ _ _ (by simp) (by simp)]
  simp only [Moved.andThen_engine]
  apply Faithful.conclude
  apply Faithful.schedule hpublished
  exact honly.append _

theorem Faithful.submit (h : Faithful setup (some id) past e) (hcons : Consistent (some id) e)
    (hidle : Idle (some id) e) (hnone : e.background = none)
    (hfresh : e.session ∉ sessionsOf past) (purpose : Purpose) {ruleSet : RuleSet}
    (hsame : ruleSet = setup.ruleSet) :
    Faithful setup none ((submit id purpose ruleSet e).record past)
      (submit id purpose ruleSet e).engine := by
  unfold Engine.submit
  split
  next hempty =>
    apply Faithful.install
    · exact h.congr rfl rfl rfl rfl rfl rfl
    · exact hcons.compiling hidle false
    · exact hnone
    · exact .inr ⟨hsame, by simpa using hempty, rfl⟩
    · exact hsame
  · rw [Moved.record_of_quiet rfl]
    refine h.await ⟨nofun, nofun, ?_⟩
    rintro _ _ _ ⟨⟩
    exact ⟨hsame, hfresh⟩

theorem Faithful.compile (h : Faithful setup (some id) past e) (hcons : Consistent (some id) e)
    (purpose : Purpose) :
    Faithful setup none ((compile id purpose e).record past) (compile id purpose e).engine := by
  unfold Engine.compile
  split
  · rw [Moved.record_andThen_quiet _ _ _ (by simp) (by simp)]
    exact Faithful.conclude (h.shutDown hcons e.enabled) purpose
  · split
    · rw [Moved.record_of_quiet (by simp)]
      exact h.conclude purpose
    next hoff =>
      have hidle := hcons.idle (by simpa using hoff)
      have hended := h.endSession hcons e.enabled true
      have hcons' := hcons.endSession e.enabled true fun _ => rfl
      have hquiet := hcons'.unrefreshed (by simp)
      -- The number of the session is new, so the chronicle has no compilation of it yet.
      have hfresh : e.session + 1 ∉ sessionsOf past := by
        intro hmem
        have hle := h.begun _ hmem
        omega
      have hpublished := hended.publish hquiet (s := Snapshot.withStatus _ .compiling)
        ⟨hended.fits, nofun, fun _ => by rw [hended.last]; rfl, nofun, nofun, nofun⟩
      dsimp only
      rw [Moved.record_andThen _ _ _ (by simp), Moved.record_of_quiet (snapshots_endSession _),
        Moved.record_andThen _ _ _ (by simp)]
      apply Faithful.submit hpublished
      · exact hcons'.congr rfl rfl rfl rfl rfl rfl
      · simpa [Idle, Compiles, task?] using hidle
      · simp
      · simpa [Moved.record, sessionsOf] using hfresh
      · rw [h.madeWith]
        rfl

theorem Faithful.compiled (h : Faithful setup (some id) past e) (hcons : Consistent none e)
    {purpose : Purpose} {session : Nat} {ruleSet : RuleSet} {result : CompileResult H}
    (htask : e.task? id = some (.compiling purpose session ruleSet))
    (hpast : .tables session ruleSet result ∈ past) (hsame : ruleSet = setup.ruleSet) :
    Faithful setup none ((compiled id purpose session ruleSet result e).record past)
      (compiled id purpose session ruleSet result e).engine := by
  have hidle : Idle (some id) e := hcons.idle_of_compiles ⟨purpose, session, ruleSet, htask⟩
  have hheld := (hcons.fits id _ nofun htask).compiles purpose session ruleSet rfl
  have hcons' := (hcons.during id).compiling hidle false
  have hfree : Faithful setup (some id) past { e with compiling := false } :=
    h.congr rfl rfl rfl rfl rfl rfl
  unfold Engine.compiled
  dsimp only
  split
  next hlasts =>
    exact hfree.install hcons' (hheld.background hlasts) purpose (.inl (hlasts ▸ hpast)) hsame
  next =>
    split
    · exact hfree.compile hcons' purpose
    · rw [Moved.record_of_quiet (by simp)]
      exact hfree.conclude purpose

theorem Faithful.switch (h : Faithful setup (some id) past e) (hcons : Consistent (some id) e)
    (value : Bool) :
    Faithful setup none ((switch id value e).record past) (switch id value e).engine := by
  unfold Engine.switch
  split
  · rw [Moved.record_of_quiet (by simp)]
    exact h.finish _
  · split
    · apply Faithful.compile
      · exact h.congr rfl rfl rfl rfl rfl rfl
      · exact hcons.enable
    · rw [Moved.record_andThen_quiet _ _ _ (by simp) (by simp)]
      exact Faithful.finish (h.shutDown hcons false) _

/-! ## Refreshing -/

theorem Faithful.endRefresh (h : Faithful setup (some id) past e) (hquiet : Unrefreshed (some id) e)
    {session : Nat} (hself : e.snapshot.status = .enhancing →
      EmbeddedOnly setup past e.session e.snapshot) (outcome : Except Failure Outcome) :
    Faithful setup none ((endRefresh id (some session) outcome e).record past)
      (endRefresh id (some session) outcome e).engine := by
  unfold Engine.endRefresh
  dsimp only
  rw [Moved.record_andThen_quiet _ _ _ (by simp) (by simp)]
  apply Faithful.finish
  split
  · split
    next henhancing =>
      have hnoted : Faithful setup (some id) past { e with lastRefresh := outcome.toOption } :=
        h.congr rfl rfl rfl rfl rfl rfl
      exact hnoted.publish hquiet ⟨h.fits, nofun, nofun, fun _ => hself henhancing, nofun, nofun⟩
    · rw [Moved.record_of_quiet rfl]
      exact h.congr rfl rfl rfl rfl rfl rfl
  · rw [Moved.record_of_quiet rfl]
    exact h

/-- Downloaded handles are appended to the handles of the same session. -/
theorem Faithful.enhance (h : Faithful setup turn past e) (hquiet : Unrefreshed turn e)
    (hself : EmbeddedOnly setup past e.session e.snapshot) {ruleSet : RuleSet}
    {list : CompileResult H} (hpast : .list e.session ruleSet list ∈ past)
    (hmerges : Cycle.Merges ⟨setup.config, setup.tables⟩ ruleSet) (hsome : list.handles ≠ []) :
    Faithful setup turn ((enhance ruleSet list e).record past) (enhance ruleSet list e).engine := by
  obtain ⟨tables, hcompiled, hhandles, hnone, hsame, -⟩ := hself
  have htables : e.snapshot.embeddedHandles = tables.handles := by
    have hsplit := List.take_append_drop e.snapshot.embeddedCount e.snapshot.handles
    unfold Snapshot.downloadedHandles at hnone
    rw [hnone, List.append_nil] at hsplit
    exact hsplit.trans hhandles
  have henhanced : Enhanced setup past e.session ({
      status := .readyEnhanced, ruleSet := ruleSet
      handles := e.snapshot.embeddedHandles ++ list.handles
      embeddedCount := e.snapshot.embeddedCount } : Snapshot H) := by
    refine ⟨e.snapshot.ruleSet, tables, list, hcompiled, hpast, hsome, ?_, ?_, ?_, ?_⟩
    · have hlength : e.snapshot.embeddedHandles.length = e.snapshot.embeddedCount := by
        rw [Snapshot.embeddedHandles, List.length_take]
        exact Nat.min_eq_left h.fits
      exact (List.take_left' hlength).trans htables
    · exact congrArg (· ++ list.handles) htables
    · exact hmerges.provenance
    · exact hmerges.embedded.trans (congrArg RuleSet.embedded hsame).symm
  refine h.publish hquiet ⟨?_, nofun, nofun, nofun, nofun, fun _ => henhanced⟩
  have hfits := h.fits
  simp only [Snapshot.embeddedHandles, List.length_append, List.length_take]
  omega

theorem Faithful.follow (h : Faithful setup (some id) past e) (hcons : Consistent (some id) e)
    {session : Nat} (hself : e.Refreshes id session)
    (honly : EmbeddedOnly setup past e.session e.snapshot) {turn : Coordinator.Turn H}
    (hstays : turn = .unmoved → Faithful setup none past e)
    (hoffer : ∀ ruleSet list outcome, turn = .offered ruleSet list outcome →
      .list e.session ruleSet list ∈ past ∧ Cycle.Merges ⟨setup.config, setup.tables⟩ ruleSet ∧
        list.handles ≠ []) :
    Faithful setup none ((follow id (some session) turn e).record past)
      (follow id (some session) turn e).engine := by
  have hquiet := hcons.unrefreshed_of_refreshes hself
  cases turn with
  | waiting demand =>
    rw [Moved.record_of_quiet (by simp [Engine.follow])]
    exact h.await ⟨by simp, fun _ _ _ => honly, by simp⟩
  | finished outcome => exact h.endRefresh hquiet (fun _ => honly) _
  | offered ruleSet list outcome =>
    obtain ⟨hpast, hmerges, hsome⟩ := hoffer ruleSet list outcome rfl
    unfold Engine.follow
    dsimp only
    rw [Moved.record_andThen _ _ _ (by simp)]
    split
    · have htaken := h.enhance hquiet honly hpast hmerges hsome
      exact htaken.endRefresh hquiet (fun hstatus => by cases hstatus) _
    · rw [Moved.record_of_quiet (Moved.snapshots_nil e)]
      exact h.endRefresh hquiet (fun _ => honly) _
  | failed f => exact h.endRefresh hquiet (fun _ => honly) _
  | unmoved =>
    rw [Moved.record_of_quiet rfl]
    exact hstays rfl

theorem Faithful.refresh (h : Faithful setup (some id) past e) (hcons : Consistent (some id) e)
    {session : Nat} (hself : e.Refreshes id session)
    (honly : EmbeddedOnly setup past e.session e.snapshot) :
    Faithful setup none ((refresh id (some session) e).record past)
      (refresh id (some session) e).engine := by
  have hcall := e.coordinator.call_turn (H := H) id e.setup.config.sources
  unfold Engine.refresh
  dsimp only
  apply Faithful.follow
  · exact h.withCoordinator (Coordinator.plan_call ..) (h.merging.call _)
  · exact hcons.congr rfl rfl rfl rfl rfl rfl
  · exact hself.congr rfl rfl rfl
  · exact honly
  · intro hturn
    rcases hcall with hcall | ⟨demand, hcall⟩ <;> exact absurd (hcall.symm.trans hturn) nofun
  · intro ruleSet list outcome hturn
    rcases hcall with hcall | ⟨demand, hcall⟩ <;> exact absurd (hcall.symm.trans hturn) nofun

/-! ## Moves -/

theorem Faithful.unwind (h : Faithful setup none past e) :
    Faithful setup none ((unwind id e).record past) (unwind id e).engine := by
  unfold Engine.unwind
  split
  · rw [Moved.record_of_quiet rfl]
    exact h
  · rw [Moved.record_of_quiet (by simp)]
    apply Faithful.finish
    exact (h.during id).withCoordinator (Coordinator.plan_drop ..) h.merging.drop

theorem Faithful.begin (h : Faithful setup none past e) (hcons : Consistent none e) :
    Faithful setup none ((begin id e).record past) (begin id e).engine := by
  unfold Engine.begin
  split
  next session htask =>
    split
    · exact h.unwind
    next hlive =>
      have hmem : id ∉ e.cancelled := by simpa using hlive
      have hself := (hcons.fits id _ nofun htask).refreshes session rfl hmem
      have honly := (h.recorded id _ nofun htask).refreshes session rfl hmem
      have hquiet := (hcons.during id).unrefreshed_of_refreshes hself
      -- The status is published before the refresh begins, and the handles stay as they are.
      have hpublished := (h.during id).publish hquiet (s := e.snapshot.withStatus .enhancing)
        ⟨h.fits, nofun, nofun, nofun, fun _ => honly, nofun⟩
      rw [Moved.record_andThen _ _ _ (by simp)]
      apply Faithful.refresh hpublished
      · exact (hcons.during id).congr rfl rfl rfl rfl rfl rfl
      · exact hself.congr rfl rfl rfl
      · exact EmbeddedOnly.append honly _
  · rw [Moved.record_of_quiet rfl]
    exact h

/-- The chronicle goes on with a compilation; nothing else of the tables may be under way in its
session. -/
theorem Faithful.settle (h : Faithful setup turn past e) {event : Event H}
    (hevent : ∀ session s, event ≠ .published session s)
    (honce : (sessionsOf (past ++ [event])).Nodup)
    (hbegun : ∀ session ∈ sessionsOf (past ++ [event]), session ≤ e.session)
    (hcompiles : ∀ j purpose session ruleSet, some j ≠ turn →
      e.task? j = some (.compiling purpose session ruleSet) →
      session ∉ sessionsOf (past ++ [event])) :
    Faithful setup turn (past ++ [event]) e := by
  refine { h with
    sound := h.sound.concat fun session s heq => absurd heq (hevent session s)
    once := honce, begun := hbegun, last := ?_, recorded := ?_ }
  · rw [← h.last]
    cases event with
    | published session s => exact absurd rfl (hevent session s)
    | _ => simp [lastSnapshot]
  · intro j task hj htask
    have hrec := h.recorded j task hj htask
    refine ⟨hrec.bound, fun session hs hlive => (hrec.refreshes session hs hlive).append _, ?_⟩
    rintro purpose session ruleSet rfl
    exact ⟨(hrec.compiles purpose session ruleSet rfl).1,
      hcompiles j purpose session ruleSet hj htask⟩

theorem Faithful.settleTables (h : Faithful setup none past e) (hcons : Consistent none e)
    {purpose : Purpose} {session : Nat} {ruleSet : RuleSet}
    (htask : e.task? id = some (.compiling purpose session ruleSet)) (result : CompileResult H) :
    Faithful setup (some id) (past ++ [.tables session ruleSet result]) e := by
  have hidle : Idle (some id) e := hcons.idle_of_compiles ⟨purpose, session, ruleSet, htask⟩
  have hheld := (hcons.fits id _ nofun htask).compiles purpose session ruleSet rfl
  have hfresh := ((h.recorded id _ nofun htask).compiles purpose session ruleSet rfl).2
  have hsessions : sessionsOf (past ++ [.tables session ruleSet result]) =
      sessionsOf past ++ [session] := by
    simp [sessionsOf]
  refine (h.during id).settle nofun ?_ ?_ ?_
  · rw [hsessions, List.nodup_append]
    refine ⟨h.once, by simp, ?_⟩
    rintro s hs _ hmem rfl
    rw [List.mem_singleton] at hmem
    exact hfresh (hmem ▸ hs)
  · intro s hs
    rw [hsessions, List.mem_append, List.mem_singleton] at hs
    rcases hs with hs | rfl
    · exact h.begun s hs
    · exact hheld.begun
  · intro j p s rs hj hentry
    exact absurd ⟨p, s, rs, hentry⟩ (hidle j hj)

theorem Faithful.settleList (h : Faithful setup turn past e) (session : Nat) (ruleSet : RuleSet)
    (result : CompileResult H) :
    Faithful setup turn (past ++ [.list session ruleSet result]) e := by
  have hsessions : sessionsOf (past ++ [.list session ruleSet result]) = sessionsOf past := by
    simp [sessionsOf]
  refine h.settle nofun ?_ ?_ ?_
  · rw [hsessions]
    exact h.once
  · rw [hsessions]
    exact h.begun
  · intro j p s rs hj hentry
    rw [hsessions]
    exact ((h.recorded j _ hj hentry).compiles p s rs rfl).2

/-- Unless a live task gets the result of a compilation, nothing is noted before a move. -/
theorem settled?_eq_none {reply : Reply H}
    (hother : ∀ result, reply = .compiled result → id ∉ e.cancelled →
      (∀ session, e.task? id ≠ some (.refreshing session)) ∧
        ∀ purpose session ruleSet, e.task? id ≠ some (.compiling purpose session ruleSet)) :
    e.settled? (.resume id reply) = none := by
  unfold settled?
  split
  next result heq =>
    obtain ⟨rfl, rfl⟩ := Move.resume.inj heq
    split
    · rfl
    next hlive =>
      have hmem : id ∉ e.cancelled := by simpa using hlive
      split
      next purpose session ruleSet htask =>
        exact absurd htask ((hother _ rfl hmem).2 purpose session ruleSet)
      next session htask => exact absurd htask ((hother _ rfl hmem).1 (some session))
      · rfl
  · rfl

theorem settled?_refreshing {session : Nat}
    (htask : e.task? id = some (.refreshing (some session))) (reply : Reply H) :
    e.settled? (.resume id reply) = none ∨ ∃ ruleSet result,
      e.settled? (.resume id reply) = some (.list session ruleSet result) := by
  cases reply with
  | compiled result =>
    simp only [settled?, htask]
    split
    · exact .inl rfl
    · split
      next origin ruleSet hphase => exact .inr ⟨ruleSet, result, rfl⟩
      · exact .inl rfl
  | _ => exact .inl rfl

theorem Faithful.resume (h : Faithful setup none past e) (hcons : Consistent none e)
    (answer : Reply H) :
    Faithful setup none (note past e (.resume id answer)) (resume id answer e).engine := by
  unfold note Engine.move Engine.resume
  dsimp only
  split
  next hcancelled =>
    have hmem : id ∈ e.cancelled := by simpa using hcancelled
    rw [append_settled (settled?_eq_none fun _ _ hlive => absurd hmem hlive)]
    exact h.unwind
  next hlive =>
    have hmem : id ∉ e.cancelled := by simpa using hlive
    split
    next value htask =>
      rw [append_settled (settled?_eq_none fun result heq => absurd heq (by simp))]
      exact (h.during id).switch (hcons.during id) value
    next value f htask =>
      rw [append_settled (settled?_eq_none fun result heq => absurd heq (by simp)),
        Moved.record_of_quiet (by simp)]
      exact (h.during id).finish _
    next purpose session ruleSet result htask =>
      have hsettled : e.settled? (.resume id (.compiled result)) =
          some (.tables session ruleSet result) := by
        simp [settled?, hmem, htask]
      rw [hsettled, Option.toList_some]
      exact (h.settleTables hcons htask result).compiled hcons htask (by simp)
        ((h.recorded id _ (by simp) htask).compiles purpose session ruleSet rfl).1
    next answer _ _ session htask =>
      have hrec := h.recorded id _ (by simp) htask
      obtain ⟨session, rfl⟩ : ∃ s, session = some s :=
        Option.ne_none_iff_exists'.mp fun hnone => hrec.bound (by rw [hnone])
      have hself := (hcons.fits id _ (by simp) htask).refreshes session rfl hmem
      have honly := hrec.refreshes session rfl hmem
      have hpast : Faithful setup none (past ++ (e.settled? (.resume id answer)).toList) e := by
        rcases settled?_refreshing htask answer with hnone | ⟨ruleSet, result, hsome⟩
        · rw [append_settled hnone]
          exact h
        · rw [hsome]
          exact h.settleList session ruleSet result
      have hnext := hpast.withCoordinator (Coordinator.plan_resume _ _ _ id _)
        (h.merging.resume (e.isCurrent (some session)) e.accepts answer)
      apply Faithful.follow (hnext.during id)
      · exact (hcons.during id).congr rfl rfl rfl rfl rfl rfl
      · exact hself.congr rfl rfl rfl
      · exact honly.append _
      · exact fun _ => hnext
      · intro ruleSet list outcome hturn
        obtain ⟨⟨origin, hphase⟩, rfl, -, hsome⟩ := Coordinator.resume_eq_offered hturn
        have hsettled : e.settled? (.resume id (.compiled list)) =
            some (.list session ruleSet list) := by
          simp [settled?, hmem, htask, hphase]
        refine ⟨?_, h.plan ▸ h.merging id origin ruleSet hphase, hsome⟩
        rw [hsettled, ← hself.lasts]
        simp
    next answer _ _ hrefreshing _ _ hcompiling =>
      have hnone : e.settled? (.resume id answer) = none := by
        apply settled?_eq_none
        rintro result rfl -
        exact ⟨hrefreshing, fun purpose session ruleSet htask =>
          hcompiling purpose session ruleSet result htask rfl⟩
      rw [append_settled hnone, Moved.record_of_quiet rfl]
      exact h

theorem Faithful.close (h : Faithful setup none past e) (hcons : Consistent none e) :
    Faithful setup none ((close id e).record past) (close id e).engine := by
  have hended := h.endSession hcons e.enabled e.compiling
  have hquiet : (Engine.close id e).snapshots = [] := by
    unfold Engine.close
    rw [Moved.snapshots_andThen, snapshots_endSession, List.nil_append]
    split
    · rfl
    · simp
  rw [Moved.record_of_quiet hquiet]
  unfold Engine.close
  rw [Moved.andThen_engine]
  split
  · exact (hended.during id).await ⟨nofun, nofun, nofun⟩
  · exact (hended.during id).finish _

theorem Faithful.call (h : Faithful setup none past e) (hcons : Consistent none e) {c : Call}
    (hc : c ≠ .refresh) : Faithful setup none ((call c e).record past) (call c e).engine := by
  have hnew : Faithful setup none past { e with nextTask := e.nextTask + 1 } :=
    h.congr rfl rfl rfl rfl rfl rfl
  have hcons' : Consistent none { e with nextTask := e.nextTask + 1 } :=
    hcons.congr rfl rfl rfl rfl rfl rfl
  cases c with
  | compile notify => exact (hnew.during e.nextTask).compile (hcons'.during e.nextTask) _
  | setEnabled value =>
    unfold Engine.call
    dsimp only
    split
    · rw [Moved.record_of_quiet rfl]
      exact (hnew.during e.nextTask).await ⟨nofun, nofun, nofun⟩
    · exact (hnew.during e.nextTask).switch (hcons'.during e.nextTask) value
  | close => exact hnew.close hcons'
  | refresh => exact absurd rfl hc

theorem Faithful.wake (h : Faithful setup none past e) :
    Faithful setup none ((wake id e).record past) (wake id e).engine := by
  unfold Engine.wake
  split
  · rw [Moved.record_of_quiet (by simp)]
    exact (h.during id).finish _
  · rw [Moved.record_of_quiet rfl]
    exact h

/-- Every move keeps the invariant but a refresh from outside, which is bound to no session. -/
theorem Faithful.move (h : Faithful setup none past e) (hcons : Consistent none e) {mv : Move H}
    (hmv : mv ≠ .call .refresh) :
    Faithful setup none (note past e mv) (e.move mv).engine := by
  cases mv with
  | resume id reply => exact h.resume hcons reply
  | call c =>
    rw [note_of_other _ _ (by simp)]
    exact h.call hcons fun heq => hmv (congrArg Move.call heq)
  | begin id =>
    rw [note_of_other _ _ (by simp)]
    exact h.begin hcons
  | unwind id =>
    rw [note_of_other _ _ (by simp)]
    dsimp only [Engine.move]
    split
    · exact h.unwind
    · rw [Moved.record_of_quiet rfl]
      exact h
  | wake id =>
    rw [note_of_other _ _ (by simp)]
    exact h.wake
  | subscribe name =>
    rw [note_of_other _ _ (by simp), Moved.record_of_quiet rfl]
    exact h.congr rfl rfl rfl rfl rfl rfl
  | unsubscribe ticket =>
    rw [note_of_other _ _ (by simp), Moved.record_of_quiet rfl]
    exact h.congr rfl rfl rfl rfl rfl rfl

theorem Faithful.chronicle (h : Faithful setup none past e) (hcons : Consistent none e)
    (moves : List (Move H)) (hmoves : .call .refresh ∉ moves) :
    Faithful setup none (chronicleFrom past e moves) (e.run moves) := by
  induction moves generalizing past e with
  | nil => exact h
  | cons mv moves ih =>
    rw [List.mem_cons, not_or] at hmoves
    have hmv : mv ≠ .call .refresh := fun heq => hmoves.1 heq.symm
    exact ih (h.move hcons hmv) (hcons.move mv) hmoves.2

end

/-- Snapshots are never spliced. In whatever order calls are made and tasks go on, every published
snapshot is made of the handles of the session that it is published in: those of the one compilation
of the tables of that session, and behind them, when it is enhanced, all those of a list that a
refresh of the same session has found. -/
theorem snapshots_unspliced (setup : Setup) (enabled : Bool) (moves : List (Move H))
    (hmoves : .call .refresh ∉ moves) :
    (sessionsOf ((start setup enabled : Engine H).chronicle moves)).Nodup ∧
      ∀ before session s after,
        (start setup enabled : Engine H).chronicle moves = before ++ .published session s :: after →
          Unspliced setup before session s := by
  have h := (faithful_start setup enabled).chronicle (consistent_start setup enabled) moves hmoves
  exact ⟨h.once, h.sound⟩

/-! ## An enhanced engine -/

/-- A list with two rules, as it is downloaded. -/
def smallList : Bytes :=
  "[Adblock Plus 2.0]\n||one.example^\n||two.example^".toList.map fun c => UInt8.ofNat c.toNat

/-- The rules of the tables are compiled, and then those of a downloaded list. -/
def enhancingMoves : List (Move Nat) :=
  [.call (.compile false), .resume 0 (.compiled { handles := [0] }), .begin 1,
    .resume 1 (.cached none .zero), .resume 1 (.fetched smallList), .resume 1 .written,
    .resume 1 (.compiled { handles := [1, 2] })]

/-- What is published in a chronicle: the session, the status and the handles. -/
def publications (past : List (Event H)) : List (Nat × Status × List H) :=
  past.filterMap fun event => match event with
    | .published session s => some (session, s.status, s.handles)
    | _ => none

theorem snapshots_unspliced_smallSetup :
    .call .refresh ∉ enhancingMoves ∧
      publications ((start smallSetup true).chronicle enhancingMoves) =
        [(1, .compiling, []), (1, .readyEmbedded, [0]), (1, .enhancing, [0]),
          (1, .readyEnhanced, [0, 1, 2])] ∧
      (sessionsOf ((start smallSetup true).chronicle enhancingMoves)).Nodup ∧
      ∀ before session s after, (start smallSetup true).chronicle enhancingMoves =
          before ++ .published session s :: after →
        Unspliced smallSetup before session s := by
  have hmoves : .call .refresh ∉ enhancingMoves := by simp [enhancingMoves]
  exact ⟨hmoves, by decide +kernel, snapshots_unspliced smallSetup true enhancingMoves hmoves⟩

end Engine

end ContentFilter
