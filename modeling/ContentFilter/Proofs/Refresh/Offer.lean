import ContentFilter.Proofs.Engine.Run

/-! # Offers

A cycle offers a rule set in one place only: when the downloaded chunks of that very rule set have
been compiled, with at least one handle, while its session lasts.

* `Cycle.Merges`: the rule sets that a cycle builds to be compiled.
* `Cycle.step_pending`, `Cycle.step_eq_offered`: how a step gets to wait for a compilation, and what
  it offers.
* `Coordinator.Merging`: every cycle that waits for a compilation waits for such a rule set.
-/

set_option autoImplicit false

namespace ContentFilter

variable {H : Type}

/-! ## Rule sets -/

namespace RuleSet

theorem embedded_build (config : Config) (tables : Tables) (entries : List Entry) :
    (build config tables entries).embedded = (build config tables []).embedded := rfl

end RuleSet

namespace Cycle

/-- A rule set that a cycle builds from the tables and a list, with something new from the list. -/
def Merges (p : Plan) (ruleSet : RuleSet) : Prop :=
  (∃ entries, ruleSet = RuleSet.build p.config p.tables entries) ∧ ruleSet.downloaded ≠ []

theorem Merges.embedded {p : Plan} {ruleSet : RuleSet} (h : Merges p ruleSet) :
    ruleSet.embedded = (RuleSet.build p.config p.tables []).embedded := by
  obtain ⟨⟨entries, rfl⟩, -⟩ := h
  exact RuleSet.embedded_build p.config p.tables entries

theorem Merges.provenance {p : Plan} {ruleSet : RuleSet} (h : Merges p ruleSet) :
    ruleSet.provenance = .enhanced := by
  have hsome : ruleSet.downloaded.isEmpty = false := by simpa using h.2
  simp [RuleSet.provenance, hsome]

/-! ## Steps -/

/-- A step that offers nothing; if it waits for a compilation, then for that of the new chunks of the
rule set that it has built. -/
structure Progress.Pending (p : Plan) (progress : Progress H) : Prop where
  compiles : ∀ demand origin ruleSet, progress = .waiting demand (.compiling origin ruleSet) →
    demand = .compile ruleSet.downloaded ∧ Merges p ruleSet
  withholds : ∀ ruleSet result outcome, progress ≠ .offered ruleSet result outcome

/-- What a step can come to, but for an offer: which demands it makes, in which phases, and which of
them only while the session lasts. -/
inductive Routine (p : Plan) (current : Bool) : Progress H → Prop
  | finished {outcome : Outcome} (hfails : outcome.success = false) :
      Routine p current (.finished outcome)
  | failed (f : Failure) : Routine p current (.failed f)
  | unmoved : Routine p current .unmoved
  | fetching (hlasts : current = true) (a : Attempt) :
      Routine p current (.waiting (.fetch a.url p.config.fetchTimeout) (.fetching a))
  | sleeping (delay : Binary64) (a : Attempt) (error : Text) :
      Routine p current (.waiting (.sleep delay) (.sleeping a error))
  | writing {payload : Bytes} {entries : List Entry} (hread : decode p payload = .ok (some entries))
      (url : Text) :
      Routine p current (.waiting (.writeCache p.config.cacheKey payload) (.writing url entries))
  | compiling (hlasts : current = true) (origin : Origin) {ruleSet : RuleSet}
      (hmerges : Merges p ruleSet) :
      Routine p current (.waiting (.compile ruleSet.downloaded) (.compiling origin ruleSet))

variable {p : Plan}

theorem Routine.pending {current : Bool} {progress : Progress H} (h : Routine p current progress) :
    Progress.Pending p progress := by
  cases h with
  | compiling hlasts origin hmerges =>
    refine ⟨?_, by simp⟩
    rintro _ _ _ ⟨⟩
    exact ⟨rfl, hmerges⟩
  | _ => exact ⟨by simp, by simp⟩

section Routine

variable {current : Bool}

theorem routine_merge (origin : Origin) (entries : List Entry) :
    Routine p current (merge p current origin entries : Progress H) := by
  unfold merge
  dsimp only
  split
  · exact .finished rfl
  next hnew =>
    split
    · exact .finished rfl
    next hlasts =>
      have hmerges : Merges p (RuleSet.build p.config p.tables entries) :=
        ⟨⟨entries, rfl⟩, by simpa using hnew⟩
      exact .compiling (by simpa using hlasts) origin hmerges

theorem routine_consider (payload : Bytes) {use : List Entry → Progress H} {otherwise : Progress H}
    (huse : ∀ entries, decode p payload = .ok (some entries) → Routine p current (use entries))
    (hother : Routine p current otherwise) :
    Routine p current (consider p payload use otherwise) := by
  unfold consider
  split
  next entries hread => exact huse entries hread
  · exact hother
  · exact .failed _

theorem routine_fallBack (old : Option CacheEntry) (error : Option Text) :
    Routine p current (fallBack p current old error : Progress H) := by
  unfold fallBack
  split
  · exact routine_consider _ (fun entries _ => routine_merge _ entries) (.finished rfl)
  · exact .finished rfl

theorem routine_pursue (old : Option CacheEntry) (error : Option Text) (number : Nat)
    (sources : List Text) :
    Routine p current (pursue p current old error number sources : Progress H) := by
  cases sources with
  | nil => exact routine_fallBack old error
  | cons url others =>
    rw [pursue]
    split
    · exact .finished rfl
    next hlasts => exact .fetching (by simpa using hlasts) ⟨url, number, others, old⟩

theorem routine_next (a : Attempt) (error : Text) :
    Routine p current (next p current a error : Progress H) := by
  unfold next
  split
  · exact routine_pursue ..
  · exact routine_pursue ..

theorem routine_retry (a : Attempt) (error : Text) :
    Routine p current (retry p current a error : Progress H) := by
  unfold retry
  split
  · split
    · exact .sleeping ..
    · exact .failed _
  · exact routine_next a error

theorem routine_receive (a : Attempt) (payload : Bytes) :
    Routine p current (receive p current a payload : Progress H) :=
  routine_consider payload (fun _ hread => .writing hread a.url) (routine_next a _)

theorem routine_useCache (sources : List Text) (entry : Option CacheEntry) (now : Binary64) :
    Routine p current (useCache p current sources entry now : Progress H) := by
  unfold useCache
  split
  · exact routine_pursue ..
  · split
    · exact routine_consider _ (fun entries _ => routine_merge _ entries) (routine_pursue ..)
    · exact routine_pursue ..

end Routine

/-- Every step is of that kind but the one on a result of the compilation it waits for. -/
theorem step_routine (current accepts : Bool) (phase : Phase) (reply : Reply H)
    (hother : ∀ origin ruleSet result, phase = .compiling origin ruleSet →
      reply ≠ .compiled result) :
    Routine p current (step p current accepts phase reply) := by
  unfold step
  split
  · exact routine_useCache ..
  · exact routine_receive ..
  · exact routine_retry ..
  · exact routine_next ..
  · exact routine_merge ..
  next origin ruleSet result => exact absurd rfl (hother origin ruleSet result rfl)
  · exact .failed _
  · exact .unmoved

theorem step_pending (current accepts : Bool) (phase : Phase) (reply : Reply H)
    (hother : ∀ origin ruleSet result, phase = .compiling origin ruleSet →
      reply ≠ .compiled result) :
    Progress.Pending p (step p current accepts phase reply) :=
  (step_routine current accepts phase reply hother).pending

/-- A step offers what has been compiled, or offers nothing. -/
theorem step_cases (current accepts : Bool) (phase : Phase) (reply : Reply H) :
    Routine p current (step p current accepts phase reply) ∨
      ∃ origin ruleSet result, phase = .compiling origin ruleSet ∧ reply = .compiled result ∧
        current = true ∧ result.handles ≠ [] ∧
        step p current accepts phase reply = .offered ruleSet result
          (if accepts then .published origin ruleSet.downloadedCount else .sessionEnded) := by
  by_cases hother : ∀ origin ruleSet result, phase = .compiling origin ruleSet →
      reply ≠ .compiled result
  · exact .inl (step_routine current accepts phase reply hother)
  · simp only [not_forall, ne_eq, not_not] at hother
    obtain ⟨origin, ruleSet, result, rfl, rfl⟩ := hother
    simp only [step, offer]
    split
    · exact .inl (.finished rfl)
    next hlasts =>
      split
      · exact .inl (.finished rfl)
      next hsome =>
        have hlasts' : current = true := by simpa using hlasts
        have hsome' : result.handles ≠ [] := by simpa using hsome
        exact .inr ⟨origin, ruleSet, result, rfl, rfl, hlasts', hsome', rfl⟩

theorem offer_ne_waiting (current accepts : Bool) (origin : Origin) (ruleSet : RuleSet)
    (result : CompileResult H) (demand : Demand) (phase : Phase) :
    offer current accepts origin ruleSet result ≠ .waiting demand phase := by
  unfold offer
  split
  · exact nofun
  · split <;> exact nofun

/-- A cycle that waits for a compilation has built the rule set itself. -/
theorem merges_of_step_eq_waiting {current accepts : Bool} {phase : Phase} {reply : Reply H}
    {demand : Demand} {origin : Origin} {ruleSet : RuleSet}
    (h : step p current accepts phase reply = .waiting demand (.compiling origin ruleSet)) :
    demand = .compile ruleSet.downloaded ∧ Merges p ruleSet := by
  by_cases hother : ∀ origin ruleSet result, phase = .compiling origin ruleSet →
      reply ≠ .compiled result
  · exact (step_pending current accepts phase reply hother).compiles demand origin ruleSet h
  · simp only [not_forall, ne_eq, not_not] at hother
    obtain ⟨o, rs, result, rfl, rfl⟩ := hother
    exact absurd h (offer_ne_waiting current accepts o rs result demand _)

/-- What is offered is what has been compiled. -/
theorem step_eq_offered {current accepts : Bool} {phase : Phase} {reply : Reply H}
    {ruleSet : RuleSet} {result : CompileResult H} {outcome : Outcome}
    (h : step p current accepts phase reply = .offered ruleSet result outcome) :
    ∃ origin, phase = .compiling origin ruleSet ∧ reply = .compiled result ∧ current = true ∧
      result.handles ≠ [] := by
  by_cases hother : ∀ origin ruleSet result, phase = .compiling origin ruleSet →
      reply ≠ .compiled result
  · exact absurd h ((step_pending current accepts phase reply hother).withholds _ _ _)
  · simp only [not_forall, ne_eq, not_not] at hother
    obtain ⟨origin, rs, r, rfl, rfl⟩ := hother
    simp only [step, offer] at h
    split at h
    · exact absurd h nofun
    next hlasts =>
      split at h
      · exact absurd h nofun
      next hsome =>
        obtain ⟨rfl, rfl, -⟩ := h
        exact ⟨origin, rfl, rfl, by simpa using hlasts, by simpa using hsome⟩

end Cycle

/-! ## Coordinators -/

namespace Coordinator

/-- Every cycle that waits for a compilation has built its rule set by the plan. -/
def Merging (c : Coordinator) : Prop :=
  ∀ id origin ruleSet, c.phase? id = some (.compiling origin ruleSet) → Cycle.Merges c.plan ruleSet

variable {c : Coordinator} {id : TaskId}

@[simp] theorem phase?_enter (c : Coordinator) (id j : TaskId) (phase : Cycle.Phase) :
    (c.enter id phase).phase? j = if j = id then some phase else c.phase? j := by
  unfold phase? enter
  by_cases hj : j = id
  · simp [hj]
  · have hne : (j == id) = false := by simpa using hj
    simp [List.lookup_cons, lookup_filter_ne, hj, hne]

@[simp] theorem phase?_leave (c : Coordinator) (id j : TaskId) :
    (c.leave id).phase? j = if j = id then none else c.phase? j := by
  simp [phase?, leave, lookup_filter_ne]

theorem Merging.enter (h : c.Merging) {phase : Cycle.Phase}
    (hphase : ∀ origin ruleSet, phase = .compiling origin ruleSet → Cycle.Merges c.plan ruleSet) :
    (c.enter id phase).Merging := by
  intro j origin ruleSet hj
  rw [phase?_enter] at hj
  split at hj
  · exact hphase origin ruleSet (Option.some.inj hj)
  · exact h j origin ruleSet hj

theorem Merging.leave (h : c.Merging) : (c.leave id).Merging := by
  intro j origin ruleSet hj
  rw [phase?_leave] at hj
  split at hj
  · exact absurd hj nofun
  · exact h j origin ruleSet hj

theorem Merging.call (h : c.Merging) (sources : List Text) :
    (call c id sources : Coordinator × Turn H).1.Merging := by
  unfold Coordinator.call
  split
  · exact h
  · exact h.enter nofun

theorem Merging.drop (h : c.Merging) : (c.drop id).Merging := by
  unfold Coordinator.drop
  split
  · exact h
  · exact h.leave

theorem Merging.resume (h : c.Merging) (current accepts : Bool) (reply : Reply H) :
    (c.resume current accepts id reply).1.Merging := by
  unfold Coordinator.resume
  split
  · exact h
  next phase hphase =>
    split
    next demand phase' hstep =>
      refine h.enter fun origin ruleSet heq => ?_
      subst heq
      exact (Cycle.merges_of_step_eq_waiting hstep).2
    · exact h.leave
    · exact h.leave
    · exact h.leave
    · exact h

@[simp] theorem plan_call (c : Coordinator) (id : TaskId) (sources : List Text) :
    (call c id sources : Coordinator × Turn H).1.plan = c.plan := by
  unfold call
  split <;> rfl

@[simp] theorem plan_drop (c : Coordinator) (id : TaskId) : (c.drop id).plan = c.plan := by
  unfold drop
  split <;> rfl

@[simp] theorem plan_resume (c : Coordinator) (current accepts : Bool) (id : TaskId)
    (reply : Reply H) : (c.resume current accepts id reply).1.plan = c.plan := by
  unfold resume
  split
  · rfl
  · split <;> rfl

/-- A call waits for its cycle, or finds another one running. -/
theorem call_turn (c : Coordinator) (id : TaskId) (sources : List Text) :
    (c.call id sources : Coordinator × Turn H).2 = .finished .coalesced ∨
      ∃ demand, (c.call id sources : Coordinator × Turn H).2 = .waiting demand := by
  unfold call
  split
  · exact .inl rfl
  · exact .inr ⟨_, rfl⟩

/-- An offer comes from a cycle that has waited for the compilation of that rule set. -/
theorem resume_eq_offered {current accepts : Bool} {reply : Reply H} {ruleSet : RuleSet}
    {result : CompileResult H} {outcome : Outcome}
    (h : (c.resume current accepts id reply).2 = .offered ruleSet result outcome) :
    (∃ origin, c.phase? id = some (.compiling origin ruleSet)) ∧ reply = .compiled result ∧
      current = true ∧ result.handles ≠ [] := by
  unfold resume at h
  split at h
  · exact absurd h nofun
  next phase hphase =>
    split at h
    case h_3 rs r o hstep =>
      obtain ⟨rfl, rfl, rfl⟩ := h
      obtain ⟨origin, rfl, hreply, hcurrent, hsome⟩ := Cycle.step_eq_offered hstep
      exact ⟨⟨origin, hphase⟩, hreply, hcurrent, hsome⟩
    all_goals exact absurd h nofun

end Coordinator

end ContentFilter
