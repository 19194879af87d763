import ContentFilter.Proofs.Refresh.Offer

/-! # Cycles exclude each other

Any number of calls ask one coordinator for a refresh, in any order with the replies that come back
and with calls that are cut short. Every call is on record with all its turns, and a cycle runs from
the turn that starts it to the one that ends it.

* `Coordinator.Ledger`: a coordinator with its record; `Ledger.Move`: what can happen to it.
* `Ledger.Runs`: a cycle has started, as the record shows, and has not ended.
* `Ledger.Exclusive`: what every move keeps.
* `Ledger.cycles_exclude`: at most one cycle runs, the flag says whether one does, a call in the
  meantime does nothing, and any other call starts a cycle.
-/

set_option autoImplicit false

namespace ContentFilter

variable {H : Type}

namespace Coordinator

/-! ## Turns of a coordinator -/

def Turn.ends : Turn H → Bool
  | .finished _ => true
  | .offered _ _ _ => true
  | .failed _ => true
  | .waiting _ => false
  | .unmoved => false

/-- The cycle of a call has not ended. -/
def Holds (c : Coordinator) (id : TaskId) : Prop := ∃ phase, c.phase? id = some phase

/-- The flag is up while a cycle has not ended, and there is at most one such cycle. -/
structure Sole (c : Coordinator) : Prop where
  flag : c.inFlight = true ↔ ∃ id, c.Holds id
  alone : ∀ i j, c.Holds i → c.Holds j → i = j

section Turns

variable {c : Coordinator} {id : TaskId}

theorem sole_start (p : Cycle.Plan) : Sole { plan := p } where
  flag := ⟨nofun, fun ⟨_, _, hphase⟩ => absurd hphase nofun⟩
  alone := fun _ _ ⟨_, hphase⟩ => absurd hphase nofun

theorem holds_enter {phase : Cycle.Phase} {j : TaskId} :
    (c.enter id phase).Holds j ↔ j = id ∨ c.Holds j := by
  unfold Holds
  rw [phase?_enter]
  by_cases hj : j = id <;> simp [hj]

theorem holds_leave {j : TaskId} : (c.leave id).Holds j ↔ j ≠ id ∧ c.Holds j := by
  unfold Holds
  rw [phase?_leave]
  by_cases hj : j = id <;> simp [hj]

theorem call_of_inFlight (h : c.inFlight = true) (id : TaskId) (sources : List Text) :
    (c.call id sources : Coordinator × Turn H) = (c, .finished .coalesced) := by
  rw [call, if_pos h]

theorem call_of_not_inFlight (h : c.inFlight = false) (id : TaskId) (sources : List Text) :
    (c.call id sources : Coordinator × Turn H) =
      ({ c.enter id (Cycle.begin c.plan sources).2 with inFlight := true },
        .waiting (Cycle.begin c.plan sources).1) := by
  rw [call, if_neg (by simp [h])]

/-- A reply moves nothing, has a cycle wait anew, or ends it. -/
theorem resume_cases (c : Coordinator) (id : TaskId) (current accepts : Bool) (reply : Reply H) :
    c.resume current accepts id reply = (c, .unmoved) ∨
      c.Holds id ∧
        ((∃ demand phase, c.resume current accepts id reply = (c.enter id phase, .waiting demand)) ∨
          ∃ turn, turn.ends = true ∧ c.resume current accepts id reply = (c.leave id, turn)) := by
  unfold resume
  split
  · exact .inl rfl
  next phase hphase =>
    split
    next demand phase' _ => exact .inr ⟨⟨phase, hphase⟩, .inl ⟨demand, phase', rfl⟩⟩
    next outcome _ => exact .inr ⟨⟨phase, hphase⟩, .inr ⟨.finished outcome, rfl, rfl⟩⟩
    next ruleSet result outcome _ =>
      exact .inr ⟨⟨phase, hphase⟩, .inr ⟨.offered ruleSet result outcome, rfl, rfl⟩⟩
    next failure _ => exact .inr ⟨⟨phase, hphase⟩, .inr ⟨.failed failure, rfl, rfl⟩⟩
    · exact .inl rfl

theorem Sole.begin (h : c.Sole) (hidle : c.inFlight = false) (phase : Cycle.Phase) :
    Sole { c.enter id phase with inFlight := true } := by
  have hnone : ∀ j, ¬ c.Holds j := fun j hj =>
    absurd (h.flag.mpr ⟨j, hj⟩) (by simp [hidle])
  have honly : ∀ j, (c.enter id phase).Holds j → j = id := fun j hj =>
    (holds_enter.mp hj).resolve_right (hnone j)
  exact ⟨⟨fun _ => ⟨id, holds_enter.mpr (.inl rfl)⟩, fun _ => rfl⟩,
    fun i j hi hj => (honly i hi).trans (honly j hj).symm⟩

theorem Sole.enter (h : c.Sole) (hid : c.Holds id) (phase : Cycle.Phase) :
    (c.enter id phase).Sole := by
  have hsame : ∀ j, (c.enter id phase).Holds j ↔ c.Holds j := by
    intro j
    rw [holds_enter, or_iff_right_of_imp]
    rintro rfl
    exact hid
  exact ⟨h.flag.trans (exists_congr fun j => (hsame j).symm),
    fun i j hi hj => h.alone i j ((hsame i).mp hi) ((hsame j).mp hj)⟩

theorem Sole.leave (h : c.Sole) (hid : c.Holds id) : (c.leave id).Sole := by
  have hnone : ∀ j, ¬ (c.leave id).Holds j := fun j hj =>
    (holds_leave.mp hj).1 (h.alone j id (holds_leave.mp hj).2 hid)
  exact ⟨⟨nofun, fun ⟨j, hj⟩ => absurd hj (hnone j)⟩, fun i _ hi => absurd hi (hnone i)⟩

theorem drop_of_holds (h : c.Holds id) : c.drop id = c.leave id := by
  obtain ⟨phase, hphase⟩ := h
  rw [drop, hphase]

end Turns

/-! ## Ledgers -/

/-- What is on record: the turn in which a call was made, a turn with a reply, and that a call was
cut short. -/
inductive Event (H : Type) where
  | called (id : TaskId) (turn : Turn H)
  | resumed (id : TaskId) (turn : Turn H)
  | cut (id : TaskId)

namespace Event

def task : Event H → TaskId
  | called id _ => id
  | resumed id _ => id
  | cut id => id

/-- A call starts a cycle when it waits for something. -/
def starts : Event H → Bool
  | called _ (.waiting _) => true
  | _ => false

def ends : Event H → Bool
  | called _ turn => turn.ends
  | resumed _ turn => turn.ends
  | cut _ => true

end Event

/-- A coordinator with the number of calls so far, which are known by their numbers, and the
record. -/
structure Ledger (H : Type) where
  coordinator : Coordinator
  calls : Nat := 0
  log : List (Event H) := []

namespace Ledger

/-- What can happen: a new call is made; a reply comes for a call; a call is cut short, because it
is called off or because something that it runs fails. -/
inductive Move (H : Type) where
  | call (sources : List Text)
  | resume (id : TaskId) (current accepts : Bool) (reply : Reply H)
  | cut (id : TaskId)

def start (p : Cycle.Plan) : Ledger H := { coordinator := { plan := p } }

def call (sources : List Text) (l : Ledger H) : Ledger H :=
  let (c, turn) := l.coordinator.call l.calls sources
  ⟨c, l.calls + 1, l.log ++ [.called l.calls turn]⟩

/-- A turn that moves nothing is not put on record. -/
def resume (id : TaskId) (current accepts : Bool) (reply : Reply H) (l : Ledger H) : Ledger H :=
  match l.coordinator.resume current accepts id reply with
  | (_, .unmoved) => l
  | (c, turn) => { l with coordinator := c, log := l.log ++ [.resumed id turn] }

def cut (id : TaskId) (l : Ledger H) : Ledger H :=
  match l.coordinator.phase? id with
  | some _ => { l with coordinator := l.coordinator.drop id, log := l.log ++ [.cut id] }
  | none => l

def move (l : Ledger H) : Move H → Ledger H
  | .call sources => l.call sources
  | .resume id current accepts reply => l.resume id current accepts reply
  | .cut id => l.cut id

def run (l : Ledger H) (moves : List (Move H)) : Ledger H := moves.foldl move l

/-- A cycle runs: a call has started it, and nothing on record about the call has ended it. -/
def Runs (l : Ledger H) (id : TaskId) : Prop :=
  (∃ event ∈ l.log, event.task = id ∧ event.starts = true) ∧
    ∀ event ∈ l.log, event.task = id → event.ends = false

/-- What every move keeps. The cycles that run are those that the coordinator holds, and only calls
that have been made are on record. -/
structure Exclusive (l : Ledger H) : Prop where
  sole : l.coordinator.Sole
  runs : ∀ id, l.Runs id ↔ l.coordinator.Holds id
  known : ∀ event ∈ l.log, event.task < l.calls

variable {l : Ledger H} {id : TaskId}

theorem exclusive_start (p : Cycle.Plan) : (start p : Ledger H).Exclusive where
  sole := sole_start p
  runs := fun _ => ⟨fun ⟨⟨_, hevent, _⟩, _⟩ => absurd hevent List.not_mem_nil,
    fun ⟨_, hphase⟩ => absurd hphase nofun⟩
  known := fun _ hevent => absurd hevent List.not_mem_nil

/-- What is put on record about one call says nothing about the others. -/
theorem runs_append_of_ne {event : Event H} {c : Coordinator} {calls : Nat}
    (hne : id ≠ event.task) :
    (⟨c, calls, l.log ++ [event]⟩ : Ledger H).Runs id ↔ l.Runs id := by
  simp [Runs, or_and_right, exists_or, or_imp, forall_and, hne.symm]

theorem runs_append_of_ends {event : Event H} {c : Coordinator} {calls : Nat}
    (hends : event.ends = true) : ¬ (⟨c, calls, l.log ++ [event]⟩ : Ledger H).Runs event.task :=
  fun h => absurd (h.2 event (by simp) rfl) (by simp [hends])

theorem Exclusive.not_mem_log (h : l.Exclusive) {event : Event H} (hevent : event ∈ l.log) :
    event.task ≠ l.calls := Nat.ne_of_lt (h.known event hevent)

/-- The next call is not on record yet. -/
theorem Exclusive.not_holds (h : l.Exclusive) : ¬ l.coordinator.Holds l.calls := by
  intro hholds
  obtain ⟨event, hevent, hid, -⟩ := ((h.runs l.calls).mpr hholds).1
  exact h.not_mem_log hevent hid

theorem Exclusive.known_append (h : l.Exclusive) {event : Event H} {calls : Nat}
    (hcalls : l.calls ≤ calls) (hevent : event.task < calls) :
    ∀ e ∈ l.log ++ [event], e.task < calls := by
  intro e he
  rcases List.mem_append.mp he with hold | hnew
  · exact Nat.lt_of_lt_of_le (h.known e hold) hcalls
  · rwa [List.mem_singleton.mp hnew]

theorem Exclusive.lt_of_holds (h : l.Exclusive) (hid : l.coordinator.Holds id) : id < l.calls := by
  obtain ⟨event, hevent, rfl, -⟩ := ((h.runs id).mpr hid).1
  exact h.known event hevent

/-! ## What the moves keep -/

theorem call_of_inFlight (h : l.coordinator.inFlight = true) (sources : List Text) :
    l.call sources =
      ⟨l.coordinator, l.calls + 1, l.log ++ [.called l.calls (.finished .coalesced)]⟩ := by
  rw [call, Coordinator.call_of_inFlight h]

theorem call_of_not_inFlight (h : l.coordinator.inFlight = false) (sources : List Text) :
    l.call sources =
      ⟨{ l.coordinator.enter l.calls (Cycle.begin l.coordinator.plan sources).2 with
          inFlight := true }, l.calls + 1,
        l.log ++ [.called l.calls (.waiting (Cycle.begin l.coordinator.plan sources).1)]⟩ := by
  rw [call, Coordinator.call_of_not_inFlight h]

theorem Exclusive.call (h : l.Exclusive) (sources : List Text) : (l.call sources).Exclusive := by
  have hlt : l.calls < l.calls + 1 := Nat.lt_succ_self _
  cases hflag : l.coordinator.inFlight with
  | true =>
    rw [call_of_inFlight hflag]
    refine ⟨h.sole, fun id => ?_, h.known_append (Nat.le_succ _) hlt⟩
    by_cases hid : id = l.calls
    · subst hid
      exact iff_of_false (runs_append_of_ends rfl) h.not_holds
    · rw [runs_append_of_ne hid, h.runs]
  | false =>
    rw [call_of_not_inFlight hflag]
    refine ⟨h.sole.begin hflag _, fun id => ?_, h.known_append (Nat.le_succ _) hlt⟩
    refine Iff.trans ?_ holds_enter.symm
    by_cases hid : id = l.calls
    · subst hid
      refine iff_of_true ⟨⟨_, List.mem_append_right _ (List.mem_singleton_self _), rfl, rfl⟩, ?_⟩
        (.inl rfl)
      intro event hevent hid
      rcases List.mem_append.mp hevent with hold | hnew
      · exact absurd hid (h.not_mem_log hold)
      · rw [List.mem_singleton.mp hnew]
        rfl
    · rw [runs_append_of_ne hid, h.runs, or_iff_right hid]

/-- A cycle goes on: it has been running, and it still is. -/
theorem Exclusive.goOn (h : l.Exclusive) (hid : l.coordinator.Holds id) (phase : Cycle.Phase)
    (demand : Demand) :
    Exclusive { l with
      coordinator := l.coordinator.enter id phase
      log := l.log ++ [.resumed id (.waiting demand)] } := by
  refine ⟨h.sole.enter hid phase, fun j => ?_,
    h.known_append (Nat.le_refl _) (h.lt_of_holds hid)⟩
  refine Iff.trans ?_ holds_enter.symm
  by_cases hj : j = id
  · subst hj
    obtain ⟨⟨first, hfirst, hstarts⟩, hgoes⟩ := (h.runs j).mpr hid
    refine iff_of_true ⟨⟨first, List.mem_append_left _ hfirst, hstarts⟩, ?_⟩ (.inl rfl)
    intro event hevent hj
    rcases List.mem_append.mp hevent with hold | hnew
    · exact hgoes event hold hj
    · rw [List.mem_singleton.mp hnew]
      rfl
  · rw [runs_append_of_ne hj, h.runs, or_iff_right hj]

/-- A cycle ends, in whatever way. -/
theorem Exclusive.leave (h : l.Exclusive) (event : Event H)
    (hid : l.coordinator.Holds event.task) (hends : event.ends = true) :
    Exclusive { l with
      coordinator := l.coordinator.leave event.task
      log := l.log ++ [event] } := by
  refine ⟨h.sole.leave hid, fun j => ?_, h.known_append (Nat.le_refl _) (h.lt_of_holds hid)⟩
  refine Iff.trans ?_ holds_leave.symm
  by_cases hj : j = event.task
  · subst hj
    exact iff_of_false (runs_append_of_ends hends) fun hleft => hleft.1 rfl
  · rw [runs_append_of_ne hj, h.runs, and_iff_right hj]

theorem Exclusive.resume (h : l.Exclusive) (id : TaskId) (current accepts : Bool)
    (reply : Reply H) : (l.resume id current accepts reply).Exclusive := by
  unfold Ledger.resume
  rcases resume_cases l.coordinator id current accepts reply with
    hsame | ⟨hid, ⟨demand, phase, hwaits⟩ | ⟨turn, hends, hleft⟩⟩
  · rwa [hsame]
  · rw [hwaits]
    exact h.goOn hid phase demand
  · rw [hleft]
    cases turn with
    | waiting => exact absurd hends nofun
    | unmoved => exact absurd hends nofun
    | _ => exact h.leave (.resumed id _) hid hends

theorem Exclusive.cut (h : l.Exclusive) (id : TaskId) : (l.cut id).Exclusive := by
  unfold Ledger.cut
  split
  next phase hphase =>
    rw [drop_of_holds ⟨phase, hphase⟩]
    exact h.leave (.cut id) ⟨phase, hphase⟩ rfl
  · exact h

theorem Exclusive.move (h : l.Exclusive) (mv : Move H) : (l.move mv).Exclusive := by
  cases mv with
  | call sources => exact h.call sources
  | resume id current accepts reply => exact h.resume id current accepts reply
  | cut id => exact h.cut id

theorem Exclusive.run (h : l.Exclusive) (moves : List (Move H)) : (l.run moves).Exclusive := by
  induction moves generalizing l with
  | nil => exact h
  | cons mv moves ih => exact ih (h.move mv)

/-! ## Exclusion -/

/-- What is on record about a call. -/
def eventsOf (l : Ledger H) (id : TaskId) : List (Event H) :=
  l.log.filter fun event => event.task = id

theorem eventsOf_append_of_ne {event : Event H} {c : Coordinator} {calls : Nat}
    (hne : id ≠ event.task) :
    (⟨c, calls, l.log ++ [event]⟩ : Ledger H).eventsOf id = l.eventsOf id := by
  simp [eventsOf, hne.symm]

/-- A move puts at most one event on record, about the next call or about one that has a cycle. -/
theorem move_cases (l : Ledger H) (mv : Move H) :
    l.move mv = l ∨ ∃ c calls event, l.move mv = ⟨c, calls, l.log ++ [event]⟩ ∧ l.calls ≤ calls ∧
      (event.task = l.calls ∨ l.coordinator.Holds event.task) := by
  cases mv with
  | call sources => exact .inr ⟨_, _, _, rfl, Nat.le_succ _, .inl rfl⟩
  | resume id current accepts reply =>
    rw [move, resume]
    rcases resume_cases l.coordinator id current accepts reply with
      hsame | ⟨hid, ⟨demand, phase, hwaits⟩ | ⟨turn, hends, hleft⟩⟩
    · rw [hsame]
      exact .inl rfl
    · rw [hwaits]
      exact .inr ⟨_, _, _, rfl, Nat.le_refl _, .inr hid⟩
    · rw [hleft]
      cases turn with
      | waiting => exact absurd hends nofun
      | unmoved => exact absurd hends nofun
      | _ => exact .inr ⟨_, _, _, rfl, Nat.le_refl _, .inr hid⟩
  | cut id =>
    rw [move, cut]
    split
    next phase hphase => exact .inr ⟨_, _, _, rfl, Nat.le_refl _, .inr ⟨phase, hphase⟩⟩
    · exact .inl rfl

/-- A call that has been made and has no cycle has had its last turn. -/
theorem Exclusive.eventsOf_move (h : l.Exclusive) (hmade : id < l.calls) (hidle : ¬ l.Runs id)
    (mv : Move H) :
    id < (l.move mv).calls ∧ ¬ (l.move mv).Runs id ∧ (l.move mv).eventsOf id = l.eventsOf id := by
  rcases move_cases l mv with hsame | ⟨c, calls, event, hmove, hcalls, htask⟩
  · rw [hsame]
    exact ⟨hmade, hidle, rfl⟩
  · have hne : id ≠ event.task := by
      rcases htask with hnext | hholds
      · exact hnext ▸ Nat.ne_of_lt hmade
      · rintro rfl
        exact hidle ((h.runs _).mpr hholds)
    rw [hmove, runs_append_of_ne hne, eventsOf_append_of_ne hne]
    exact ⟨Nat.lt_of_lt_of_le hmade hcalls, hidle, rfl⟩

theorem Exclusive.eventsOf_run (h : l.Exclusive) (hmade : id < l.calls) (hidle : ¬ l.Runs id)
    (moves : List (Move H)) : (l.run moves).eventsOf id = l.eventsOf id := by
  induction moves generalizing l with
  | nil => rfl
  | cons mv moves ih =>
    obtain ⟨hmade', hidle', hsame⟩ := h.eventsOf_move hmade hidle mv
    exact (ih (h.move mv) hmade' hidle').trans hsame

@[simp] theorem plan_move (l : Ledger H) (mv : Move H) :
    (l.move mv).coordinator.plan = l.coordinator.plan := by
  cases mv with
  | call sources => exact plan_call l.coordinator l.calls sources
  | resume id current accepts reply =>
    rw [move, resume]
    split
    · rfl
    next c turn _ heq =>
      have hplan := plan_resume l.coordinator current accepts id reply
      rwa [heq] at hplan
  | cut id =>
    rw [move, cut]
    split
    · exact plan_drop l.coordinator id
    · rfl

theorem plan_run (l : Ledger H) (moves : List (Move H)) :
    (l.run moves).coordinator.plan = l.coordinator.plan := by
  induction moves generalizing l with
  | nil => rfl
  | cons mv moves ih => exact (ih (l.move mv)).trans (plan_move l mv)

/-- After any moves at most one cycle runs, and the flag tells whether one does. A call that is made
meanwhile is told so; that is all there ever is on record about it, and the cycle is not touched. A
call that is made when none runs, whatever ended the cycles before it, starts one. -/
theorem cycles_exclude (p : Cycle.Plan) (moves : List (Move H)) (sources : List Text) :
    let l : Ledger H := (start p).run moves
    let l' := l.move (.call sources)
    (∀ i j, l.Runs i → l.Runs j → i = j) ∧
      (l.coordinator.inFlight = true ↔ ∃ i, l.Runs i) ∧
      ((∃ i, l.Runs i) → l'.coordinator = l.coordinator ∧
        ∀ later, (l'.run later).eventsOf l.calls = [.called l.calls (.finished .coalesced)]) ∧
      ((¬ ∃ i, l.Runs i) → l'.Runs l.calls ∧
        l'.eventsOf l.calls = [.called l.calls (.waiting (Cycle.begin p sources).1)] ∧
        l'.coordinator.phase? l.calls = some (Cycle.begin p sources).2) := by
  dsimp only
  have hplan : ((start p : Ledger H).run moves).coordinator.plan = p := plan_run (start p) moves
  have h : ((start p : Ledger H).run moves).Exclusive := (exclusive_start p).run moves
  generalize (start p : Ledger H).run moves = l at h hplan
  subst hplan
  have hflag : l.coordinator.inFlight = true ↔ ∃ i, l.Runs i :=
    h.sole.flag.trans (exists_congr fun i => (h.runs i).symm)
  have hnew : l.eventsOf l.calls = [] :=
    List.filter_eq_nil_iff.mpr fun event hevent => by simpa using h.not_mem_log hevent
  refine ⟨fun i j hi hj => h.sole.alone i j ((h.runs i).mp hi) ((h.runs j).mp hj), hflag,
    fun hruns => ?_, fun hnone => ?_⟩
  · have hcall := call_of_inFlight (hflag.mpr hruns) sources
    have hafter := h.call sources
    rw [move]
    rw [hcall] at hafter ⊢
    refine ⟨rfl, fun later => ?_⟩
    rw [hafter.eventsOf_run (Nat.lt_succ_self _) (runs_append_of_ends rfl)]
    simpa [eventsOf, Event.task] using hnew
  · have hidle : l.coordinator.inFlight = false := by simpa using mt hflag.mp hnone
    have hafter := h.call sources
    rw [move]
    rw [call_of_not_inFlight hidle] at hafter ⊢
    refine ⟨(hafter.runs _).mpr (holds_enter.mpr (.inl rfl)), ?_, ?_⟩
    · simpa [eventsOf, Event.task] using hnew
    · exact (phase?_enter l.coordinator l.calls l.calls _).trans (if_pos rfl)

/-- The second call finds the first one's cycle running, the third one comes after it. -/
example :
    let p : Cycle.Plan := ⟨Engine.smallSetup.config, Engine.smallSetup.tables⟩
    ((start p : Ledger Unit).run [.call [], .call [], .cut 0, .call []]).log.map Event.starts =
      [true, false, false, true] := by
  decide +kernel

end Ledger

end Coordinator

end ContentFilter
