import ContentFilter.Proofs.Refresh.Course
import ContentFilter.Proofs.Refresh.Exclusion

/-! # What the cache holds

A payload goes into the cache only when its entries have been read. A cycle that finds it there
within its lifetime reads the same entries, so it looks for no other list, and what it offers is
what the cycle that downloaded the payload has offered.

* `Demand.searches`: the demands of a search for a list.
* `Coordinator.Ledger.Advances`: what a move does to the record of one call.
* `Coordinator.Ledger.Wholesome`: what every move keeps.
* `Coordinator.Ledger.cache_usable`: the cache holds usable lists, and a later cycle makes do with
  them.
-/

set_option autoImplicit false

namespace ContentFilter

variable {H : Type}

/-- A search for a list goes from the first download to the cache. -/
def Demand.searches : Demand → Bool
  | .fetch _ _ => true
  | .sleep _ => true
  | .writeCache _ _ => true
  | _ => false

namespace Cycle

/-! ## Steps -/

section Steps

variable {p : Plan} {current accepts : Bool}

/-- What goes into the cache has been read. -/
theorem step_eq_writeCache {phase phase' : Phase} {reply : Reply H} {key : Text} {payload : Bytes}
    (h : step p current accepts phase reply = .waiting (.writeCache key payload) phase') :
    key = p.config.cacheKey ∧
      ∃ url entries, phase' = .writing url entries ∧ decode p payload = .ok (some entries) := by
  obtain hroutine | ⟨_, _, _, _, _, _, _, hoffered⟩ :=
    step_cases (p := p) current accepts phase reply
  · rw [h] at hroutine
    cases hroutine with
    | writing hread url => exact ⟨rfl, url, _, rfl, hread⟩
  · rw [h] at hoffered
    exact absurd hoffered nofun

theorem step_ne_reading {phase : Phase} {reply : Reply H} {demand : Demand} {sources : List Text} :
    step p current accepts phase reply ≠ .waiting demand (.reading sources) := by
  intro h
  obtain hroutine | ⟨_, _, _, _, _, _, _, hoffered⟩ :=
    step_cases (p := p) current accepts phase reply
  · rw [h] at hroutine
    exact nomatch hroutine
  · rw [h] at hoffered
    exact absurd hoffered nofun

/-- A compilation is the last thing that a cycle waits for. -/
theorem step_compiling_ne_waiting (origin : Origin) (ruleSet : RuleSet) (reply : Reply H)
    (demand : Demand) (phase : Phase) :
    step p current accepts (.compiling origin ruleSet) reply ≠ .waiting demand phase := by
  cases reply with
  | compiled result => exact offer_ne_waiting current accepts origin ruleSet result demand phase
  | _ => exact nofun

theorem merge_cases (p : Plan) (current : Bool) (origin : Origin) (entries : List Entry) :
    (∃ outcome, (merge p current origin entries : Progress H) = .finished outcome) ∨
      ∃ ruleSet, (merge p current origin entries : Progress H) =
        .waiting (.compile ruleSet.downloaded) (.compiling origin ruleSet) := by
  unfold merge
  dsimp only
  split
  · exact .inl ⟨_, rfl⟩
  · split
    · exact .inl ⟨_, rfl⟩
    · exact .inr ⟨_, rfl⟩

/-- A list in the cache that is within its lifetime and can be read is merged. -/
theorem step_cached (current accepts : Bool) {e : CacheEntry} {now : Binary64} {entries : List Entry}
    (hfresh : isFresh p.config.cacheMaxAgeDays (now.sub e.fetchedAt) = true)
    (hread : decode p e.payload = .ok (some entries)) (sources : List Text) :
    (step p current accepts (.reading sources) (.cached (some e) now) : Progress H) =
      merge p current (.cache false) entries := by
  simp only [step, useCache, hfresh, if_true, consider, hread]

/-- Lists are read by the configuration alone. -/
theorem decode_congr {p' : Plan} (hconfig : p'.config = p.config) (payload : Bytes) :
    decode p' payload = decode p payload := by
  simp only [decode, hconfig]

end Steps

/-! ## Two cycles -/

/-- The rules that are offered for publication, and what their chunks were compiled to. -/
def Course.offer? (c : Course H) : Option (RuleSet × CompileResult H) :=
  match c.last with
  | .offered ruleSet result _ => some (ruleSet, result)
  | _ => none

section Courses

variable {p : Plan} {s s' : Surroundings H}

theorem offer?_after (demands : List Demand) (c : Course H) :
    (c.after demands).offer? = c.offer? := rfl

theorem offer?_offer (demands : List Demand) (accepts : Bool) (origin : Origin) (ruleSet : RuleSet)
    (result : CompileResult H) :
    (⟨demands, offer true accepts origin ruleSet result⟩ : Course H).offer? =
      if result.handles.isEmpty then none else some (ruleSet, result) := by
  simp only [offer, Bool.not_true, Bool.false_eq_true, if_false]
  split <;> rfl

/-- What is offered depends on the entries and on the compilation, not on where the list is from. -/
theorem offer?_merged (hcompile : s'.compile = s.compile) (origin origin' : Origin)
    (entries : List Entry) :
    (merged p s' origin' entries).offer? = (merged p s origin entries).offer? := by
  simp only [merged, hcompile]
  split
  · rfl
  · rw [offer?_after, offer?_after, offer?_offer, offer?_offer]

theorem searches_merged {origin : Origin} {entries : List Entry} {demand : Demand}
    (h : demand ∈ (merged p s origin entries).demands) : demand.searches = false := by
  unfold merged at h
  dsimp only at h
  split at h
  · exact absurd h List.not_mem_nil
  · obtain rfl := List.mem_singleton.1 h
    rfl

/-- A cycle that puts a payload into the cache has read it, and merges what it has read. The
induction is on the demands; each wait for the cache is one that a step has come to. -/
theorem Plays.offer?_of_writeCache {downloads : Nat} {progress : Progress H} {c : Course H}
    (h : Plays p s downloads progress c) {key : Text} {payload : Bytes}
    (hprogress : ∀ key payload phase, progress = .waiting (.writeCache key payload) phase →
      ∃ url entries, phase = .writing url entries ∧ decode p payload = .ok (some entries))
    (hwrites : .writeCache key payload ∈ c.demands) :
    ∃ url entries, decode p payload = .ok (some entries) ∧
      c.offer? = (merged p s (.download url) entries).offer? := by
  induction h with
  | ended => exact absurd hwrites List.not_mem_nil
  | @waiting downloads demand phase c hrest ih =>
    rw [offer?_after]
    obtain heq | hlater := List.mem_cons.1 hwrites
    · subst heq
      obtain ⟨url, entries, rfl, hread⟩ := hprogress key payload phase rfl
      have hmerged : c = merged p s (.download url) entries :=
        hrest.unique (plays_merge downloads (.download url) entries)
      exact ⟨url, entries, hread, congrArg Course.offer? hmerged⟩
    · exact ih (fun _ _ _ hstep => (step_eq_writeCache hstep).2) hlater

/-- A cycle that finds a list in the cache that can be read only has its new chunks compiled. -/
theorem plays_cached {e : CacheEntry} (hentry : s.entry = some e)
    (hfresh : isFresh p.config.cacheMaxAgeDays (s.now.sub e.fetchedAt) = true)
    {entries : List Entry} (hread : decode p e.payload = .ok (some entries)) (sources : List Text) :
    Plays p s 0 (.waiting (begin p sources).1 (begin p sources).2)
      ((merged p s (.cache false) entries).after [.readCache p.config.cacheKey]) := by
  refine .waiting ?_
  simp only [begin, Surroundings.reply, countFetch, hentry]
  rw [step_cached true s.accepts hfresh hread]
  exact plays_merge 0 (.cache false) entries

end Courses

end Cycle

namespace Coordinator

/-! ## The record of one call -/

def Turn.demand? : Turn H → Option Demand
  | .waiting demand => some demand
  | _ => none

/-- What a call waits for after an event. -/
def Event.demand? : Event H → Option Demand
  | .called _ turn => turn.demand?
  | .resumed _ turn => turn.demand?
  | .cut _ => none

/-- An event after which a call does not look for a list. -/
def Event.Searchless (event : Event H) : Prop :=
  ∀ demand, event.demand? = some demand → demand.searches = false

/-- If an event puts a payload into the cache, its entries can be read by the plan. -/
def Event.Wholesome (p : Cycle.Plan) (event : Event H) : Prop :=
  ∀ key payload, event.demand? = some (.writeCache key payload) →
    key = p.config.cacheKey ∧ ∃ entries, Cycle.decode p payload = .ok (some entries)

theorem Event.searchless_of_none {event : Event H} (h : event.demand? = none) :
    event.Searchless := by
  intro demand hdemand
  rw [h] at hdemand
  exact absurd hdemand nofun

theorem Event.wholesome_of_none {event : Event H} (p : Cycle.Plan) (h : event.demand? = none) :
    event.Wholesome p := by
  intro key payload hdemand
  rw [h] at hdemand
  exact absurd hdemand nofun

namespace Ledger

variable {l : Ledger H} {mv : Move H} {id : TaskId}

/-- What a move does to the record of a call and to the phase of its cycle. -/
inductive Advances (l : Ledger H) (mv : Move H) (id : TaskId) : Prop
  | rests (hevents : (l.move mv).eventsOf id = l.eventsOf id)
      (hphase : (l.move mv).coordinator.phase? id = l.coordinator.phase? id)
      (hstep : ∀ current accepts reply phase, mv = .resume id current accepts reply →
        l.coordinator.phase? id = some phase →
        Cycle.step l.coordinator.plan current accepts phase reply = .unmoved)
  | coalesces (hnew : id = l.calls)
      (hevents : (l.move mv).eventsOf id = l.eventsOf id ++ [.called id (.finished .coalesced)])
      (hphase : (l.move mv).coordinator.phase? id = l.coordinator.phase? id)
  | begins (sources : List Text) (hnew : id = l.calls)
      (hevents : (l.move mv).eventsOf id = l.eventsOf id ++
        [.called id (.waiting (Cycle.begin l.coordinator.plan sources).1)])
      (hphase : (l.move mv).coordinator.phase? id =
        some (Cycle.begin l.coordinator.plan sources).2)
  | goesOn {current accepts : Bool} {reply : Reply H} {phase phase' : Cycle.Phase}
      {demand : Demand} (hmv : mv = .resume id current accepts reply)
      (hbefore : l.coordinator.phase? id = some phase)
      (hstep : Cycle.step l.coordinator.plan current accepts phase reply = .waiting demand phase')
      (hevents : (l.move mv).eventsOf id = l.eventsOf id ++ [.resumed id (.waiting demand)])
      (hphase : (l.move mv).coordinator.phase? id = some phase')
  | ends (event : Event H) (hdemand : event.demand? = none)
      (hevents : (l.move mv).eventsOf id = l.eventsOf id ++ [event])
      (hphase : (l.move mv).coordinator.phase? id = none)

theorem eventsOf_append_self {event : Event H} {c : Coordinator} {calls : Nat}
    (hid : event.task = id) :
    (⟨c, calls, l.log ++ [event]⟩ : Ledger H).eventsOf id = l.eventsOf id ++ [event] := by
  simp [eventsOf, hid]

/-- A move that is about another call. -/
theorem advances_of_ne {c : Coordinator} {calls : Nat} {event : Event H}
    (hmove : l.move mv = ⟨c, calls, l.log ++ [event]⟩) (hne : id ≠ event.task)
    (hphase : c.phase? id = l.coordinator.phase? id)
    (hmv : ∀ current accepts reply, mv ≠ .resume id current accepts reply) :
    Advances l mv id := by
  refine .rests ?_ ?_ fun current accepts reply _ heq => absurd heq (hmv current accepts reply)
  · rw [hmove, eventsOf_append_of_ne hne]
  · rw [hmove]
    exact hphase

theorem advances_of_eq (hmove : l.move mv = l)
    (hmv : ∀ current accepts reply, mv ≠ .resume id current accepts reply) :
    Advances l mv id := by
  refine .rests ?_ ?_ fun current accepts reply _ heq => absurd heq (hmv current accepts reply)
  · rw [hmove]
  · rw [hmove]

theorem advances_call (l : Ledger H) (sources : List Text) (id : TaskId) :
    Advances l (.call sources) id := by
  cases hflag : l.coordinator.inFlight with
  | true =>
    have hmove := call_of_inFlight hflag sources
    by_cases hid : id = l.calls
    · subst hid
      refine .coalesces rfl ?_ ?_
      · rw [move, hmove]
        exact eventsOf_append_self rfl
      · rw [move, hmove]
    · exact advances_of_ne hmove hid rfl (by simp)
  | false =>
    have hmove := call_of_not_inFlight hflag sources
    have hentered := phase?_enter l.coordinator l.calls id
      (Cycle.begin l.coordinator.plan sources).2
    by_cases hid : id = l.calls
    · subst hid
      refine .begins sources rfl ?_ ?_
      · rw [move, hmove]
        exact eventsOf_append_self rfl
      · rw [move, hmove]
        exact hentered.trans (if_pos rfl)
    · exact advances_of_ne hmove hid (hentered.trans (if_neg hid)) (by simp)

/-- The cycle of a call goes on with a step that waits for something. -/
theorem advances_of_waiting {j : TaskId} {current accepts : Bool} {reply : Reply H}
    {phase phase' : Cycle.Phase} {demand : Demand} (hbefore : l.coordinator.phase? j = some phase)
    (hstep : Cycle.step l.coordinator.plan current accepts phase reply = .waiting demand phase')
    (id : TaskId) : Advances l (.resume j current accepts reply) id := by
  have hmove : l.move (.resume j current accepts reply) =
      ⟨l.coordinator.enter j phase', l.calls, l.log ++ [.resumed j (.waiting demand)]⟩ := by
    simp only [move, resume, Coordinator.resume, hbefore, hstep]
  have hentered := phase?_enter l.coordinator j id phase'
  by_cases hid : id = j
  · subst hid
    refine .goesOn rfl hbefore hstep ?_ ?_
    · rw [hmove]
      exact eventsOf_append_self rfl
    · rw [hmove]
      exact hentered.trans (if_pos rfl)
  · refine advances_of_ne hmove hid (hentered.trans (if_neg hid)) fun _ _ _ heq => hid ?_
    injection heq with hsame
    exact hsame.symm

/-- The cycle of a call ends, in whatever way. -/
theorem advances_of_leave (event : Event H) (hdemand : event.demand? = none)
    (hmove : l.move mv = ⟨l.coordinator.leave event.task, l.calls, l.log ++ [event]⟩)
    (hmv : ∀ j current accepts reply, mv = .resume j current accepts reply → j = event.task)
    (id : TaskId) : Advances l mv id := by
  have hleft := phase?_leave l.coordinator event.task id
  by_cases hid : id = event.task
  · subst hid
    refine .ends event hdemand ?_ ?_
    · rw [hmove]
      exact eventsOf_append_self rfl
    · rw [hmove]
      exact hleft.trans (if_pos rfl)
  · exact advances_of_ne hmove hid (hleft.trans (if_neg hid))
      fun current accepts reply heq => hid (hmv id current accepts reply heq)

theorem advances_resume (l : Ledger H) (j : TaskId) (current accepts : Bool) (reply : Reply H)
    (id : TaskId) : Advances l (.resume j current accepts reply) id := by
  cases hbefore : l.coordinator.phase? j with
  | none =>
    have hmove : l.move (.resume j current accepts reply) = l := by
      simp only [move, resume, Coordinator.resume, hbefore]
    refine .rests (by rw [hmove]) (by rw [hmove]) fun _ _ _ phase heq hphase => ?_
    injection heq with hsame
    simp [← hsame, hbefore] at hphase
  | some phase =>
    have hself : ∀ i c a r, Move.resume j current accepts reply = .resume i c a r → i = j := by
      intro i c a r heq
      injection heq with hsame
      exact hsame.symm
    cases hstep : Cycle.step l.coordinator.plan current accepts phase reply with
    | waiting demand phase' => exact advances_of_waiting hbefore hstep id
    | unmoved =>
      have hmove : l.move (.resume j current accepts reply) = l := by
        simp only [move, resume, Coordinator.resume, hbefore, hstep]
      refine .rests (by rw [hmove]) (by rw [hmove]) fun _ _ _ _ heq hphase => ?_
      injection heq with hid hcurrent haccepts hreply
      subst hid hcurrent haccepts hreply
      obtain rfl := Option.some.inj (hbefore.symm.trans hphase)
      exact hstep
    | finished outcome =>
      refine advances_of_leave (.resumed j (.finished outcome)) rfl ?_ hself id
      simp only [move, resume, Coordinator.resume, hbefore, hstep, Event.task]
    | offered ruleSet result outcome =>
      refine advances_of_leave (.resumed j (.offered ruleSet result outcome)) rfl ?_ hself id
      simp only [move, resume, Coordinator.resume, hbefore, hstep, Event.task]
    | failed f =>
      refine advances_of_leave (.resumed j (.failed f)) rfl ?_ hself id
      simp only [move, resume, Coordinator.resume, hbefore, hstep, Event.task]

theorem advances_cut (l : Ledger H) (j id : TaskId) : Advances l (.cut j) id := by
  cases hbefore : l.coordinator.phase? j with
  | none =>
    refine advances_of_eq ?_ nofun
    simp only [move, cut, hbefore]
  | some phase =>
    refine advances_of_leave (.cut j) rfl ?_ (by simp) id
    simp only [move, cut, hbefore, Coordinator.drop, Event.task]

theorem advances (l : Ledger H) (mv : Move H) (id : TaskId) : Advances l mv id := by
  cases mv with
  | call sources => exact advances_call l sources id
  | resume j current accepts reply => exact advances_resume l j current accepts reply id
  | cut j => exact advances_cut l j id

theorem forall_eventsOf_concat {l' : Ledger H} {motive : Event H → Prop} {event : Event H}
    (h : ∀ e ∈ l.eventsOf id, motive e) (hevents : l'.eventsOf id = l.eventsOf id ++ [event])
    (hevent : motive event) : ∀ e ∈ l'.eventsOf id, motive e := by
  intro e he
  rw [hevents] at he
  obtain hold | hnew := List.mem_append.1 he
  · exact h e hold
  · rwa [List.mem_singleton.1 hnew]

/-! ## What every move keeps -/

/-- What goes into the cache can be read, and a cycle that waits for the cache has done nothing
yet. -/
structure Wholesome (l : Ledger H) : Prop where
  writes : ∀ id, ∀ event ∈ l.eventsOf id, event.Wholesome l.coordinator.plan
  reads : ∀ id sources, l.coordinator.phase? id = some (.reading sources) →
    ∀ event ∈ l.eventsOf id, event.Searchless

theorem wholesome_start (p : Cycle.Plan) : (start p : Ledger H).Wholesome :=
  ⟨fun _ _ hevent => absurd hevent List.not_mem_nil, fun _ _ hphase => absurd hphase nofun⟩

/-- There is nothing on record about the next call. -/
theorem Exclusive.eventsOf_calls (h : l.Exclusive) : l.eventsOf l.calls = [] := by
  refine List.filter_eq_nil_iff.2 fun event hevent => ?_
  simpa using h.not_mem_log hevent

theorem Wholesome.move (h : l.Wholesome) (hexclusive : l.Exclusive) (mv : Move H) :
    (l.move mv).Wholesome := by
  constructor
  · intro id
    rw [plan_move]
    cases advances l mv id with
    | rests hevents hphase hstep =>
      rw [hevents]
      exact h.writes id
    | coalesces hnew hevents hphase => exact forall_eventsOf_concat (h.writes id) hevents nofun
    | begins sources hnew hevents hphase => exact forall_eventsOf_concat (h.writes id) hevents nofun
    | goesOn hmv hbefore hstep hevents hphase =>
      refine forall_eventsOf_concat (h.writes id) hevents fun key payload hdemand => ?_
      obtain rfl := Option.some.inj hdemand
      obtain ⟨hkey, -, entries, -, hread⟩ := Cycle.step_eq_writeCache hstep
      exact ⟨hkey, entries, hread⟩
    | ends event hdemand hevents hphase =>
      exact forall_eventsOf_concat (h.writes id) hevents (Event.wholesome_of_none _ hdemand)
  · intro id sources hreading
    cases advances l mv id with
    | rests hevents hphase hstep =>
      rw [hphase] at hreading
      rw [hevents]
      exact h.reads id sources hreading
    | coalesces hnew hevents hphase =>
      rw [hphase] at hreading
      exact forall_eventsOf_concat (h.reads id sources hreading) hevents nofun
    | begins sources hnew hevents hphase =>
      subst hnew
      refine forall_eventsOf_concat (by simp [hexclusive.eventsOf_calls]) hevents fun d hdemand => ?_
      obtain rfl := Option.some.inj hdemand
      rfl
    | goesOn hmv hbefore hstep hevents hphase =>
      obtain rfl := Option.some.inj (hphase.symm.trans hreading)
      exact absurd hstep Cycle.step_ne_reading
    | ends event hdemand hevents hphase => exact absurd (hphase.symm.trans hreading) nofun

theorem Wholesome.run (h : l.Wholesome) (hexclusive : l.Exclusive) (moves : List (Move H)) :
    (l.run moves).Wholesome := by
  induction moves generalizing l with
  | nil => exact h
  | cons mv moves ih => exact ih (h.move hexclusive mv) (hexclusive.move mv)

/-! ## A list in the cache -/

/-- A call has found its list in the cache: it has not looked for another one, and its cycle waits
for nothing but a compilation. -/
structure MakesDo (l : Ledger H) (id : TaskId) : Prop where
  made : id < l.calls
  searchless : ∀ event ∈ l.eventsOf id, event.Searchless
  compiles : ∀ phase, l.coordinator.phase? id = some phase →
    ∃ origin ruleSet, phase = .compiling origin ruleSet

theorem calls_le_move (l : Ledger H) (mv : Move H) : l.calls ≤ (l.move mv).calls := by
  rcases move_cases l mv with hsame | ⟨c, calls, event, hmove, hcalls, -⟩
  · rw [hsame]
  · rw [hmove]
    exact hcalls

theorem MakesDo.move (h : l.MakesDo id) (mv : Move H) : (l.move mv).MakesDo id := by
  have hmade : id < (l.move mv).calls := Nat.lt_of_lt_of_le h.made (calls_le_move l mv)
  cases advances l mv id with
  | rests hevents hphase hstep =>
    refine ⟨hmade, ?_, ?_⟩
    · rw [hevents]
      exact h.searchless
    · rw [hphase]
      exact h.compiles
  | coalesces hnew hevents hphase => exact absurd hnew (Nat.ne_of_lt h.made)
  | begins sources hnew hevents hphase => exact absurd hnew (Nat.ne_of_lt h.made)
  | goesOn hmv hbefore hstep hevents hphase =>
    obtain ⟨origin, ruleSet, rfl⟩ := h.compiles _ hbefore
    exact absurd hstep (Cycle.step_compiling_ne_waiting origin ruleSet _ _ _)
  | ends event hdemand hevents hphase =>
    exact ⟨hmade, forall_eventsOf_concat h.searchless hevents (Event.searchless_of_none hdemand),
      fun phase hafter => absurd (hphase.symm.trans hafter) nofun⟩

theorem MakesDo.run (h : l.MakesDo id) (moves : List (Move H)) : (l.run moves).MakesDo id := by
  induction moves generalizing l with
  | nil => exact h
  | cons mv moves ih => exact ih (h.move mv)

/-- A call gets a list from the cache that is within its lifetime and can be read. -/
theorem Wholesome.makesDo (h : l.Wholesome) (hexclusive : l.Exclusive) {sources : List Text}
    (hreading : l.coordinator.phase? id = some (.reading sources)) {e : CacheEntry} {now : Binary64}
    (hfresh : isFresh l.coordinator.plan.config.cacheMaxAgeDays (now.sub e.fetchedAt) = true)
    {entries : List Entry} (hread : Cycle.decode l.coordinator.plan e.payload = .ok (some entries))
    (current accepts : Bool) :
    (l.move (.resume id current accepts (.cached (some e) now))).MakesDo id := by
  have hmade : id < l.calls := hexclusive.lt_of_holds ⟨_, hreading⟩
  have hmade' := Nat.lt_of_lt_of_le hmade
    (calls_le_move l (.resume id current accepts (.cached (some e) now)))
  have hcached := Cycle.step_cached (H := H) current accepts hfresh hread sources
  have hmerge := Cycle.merge_cases (H := H) l.coordinator.plan current (.cache false) entries
  rw [← hcached] at hmerge
  cases advances l (.resume id current accepts (.cached (some e) now)) id with
  | rests hevents hphase hstep =>
    have hunmoved := hstep current accepts _ _ rfl hreading
    rw [hunmoved] at hmerge
    obtain ⟨_, hmerge⟩ | ⟨_, hmerge⟩ := hmerge
    · exact absurd hmerge nofun
    · exact absurd hmerge nofun
  | coalesces hnew hevents hphase => exact absurd hnew (Nat.ne_of_lt hmade)
  | begins sources hnew hevents hphase => exact absurd hnew (Nat.ne_of_lt hmade)
  | goesOn hmv hbefore hstep hevents hphase =>
    injection hmv with _ hcurrent haccepts hreply
    subst hcurrent haccepts hreply
    obtain rfl := Option.some.inj (hbefore.symm.trans hreading)
    rw [hstep] at hmerge
    obtain ⟨_, hmerge⟩ | ⟨ruleSet, hmerge⟩ := hmerge
    · exact absurd hmerge nofun
    · injection hmerge with hdemand hphase'
      subst hdemand hphase'
      refine ⟨hmade', ?_, fun phase hafter => ?_⟩
      · refine forall_eventsOf_concat (h.reads id sources hreading) hevents fun d hd => ?_
        obtain rfl := Option.some.inj hd
        rfl
      · obtain rfl := Option.some.inj (hphase.symm.trans hafter)
        exact ⟨_, _, rfl⟩
  | ends event hdemand hevents hphase =>
    have hbefore := h.reads id sources hreading
    exact ⟨hmade', forall_eventsOf_concat hbefore hevents (Event.searchless_of_none hdemand),
      fun phase hafter => absurd (hphase.symm.trans hafter) nofun⟩

/-- The cache only ever holds usable lists: whatever happens to a coordinator, each payload that it
puts into the cache can be read by its plan. A later cycle with the same configuration that finds
the payload there within its lifetime looks for no other list, whatever else happens. While the
session lasts, it offers the rules that the cycle that downloaded the payload has offered, with the
same result of their compilation, and none if that cycle has offered none. -/
theorem cache_usable (p : Cycle.Plan) :
    (∀ moves, ∀ event ∈ ((start p : Ledger H).run moves).log, ∀ key payload,
      event.demand? = some (.writeCache key payload) →
        key = p.config.cacheKey ∧ ∃ entries, Cycle.decode p payload = .ok (some entries)) ∧
    (∀ moves, ∀ event ∈ ((start p : Ledger H).run moves).log, ∀ key (e : CacheEntry),
      event.demand? = some (.writeCache key e.payload) →
        ∀ (p' : Cycle.Plan) before later id sources current accepts now, p'.config = p.config →
          isFresh p.config.cacheMaxAgeDays (now.sub e.fetchedAt) = true →
          ((start p' : Ledger H).run before).coordinator.phase? id = some (.reading sources) →
          ∀ event ∈ ((((start p' : Ledger H).run before).move
              (.resume id current accepts (.cached (some e) now))).run later).eventsOf id,
            ∀ demand, event.demand? = some demand → demand.searches = false) ∧
    ∀ (s s' : Cycle.Surroundings H) sources sources' c key (e : CacheEntry),
      Cycle.Plays p s 0 (.waiting (Cycle.begin p sources).1 (Cycle.begin p sources).2) c →
        .writeCache key e.payload ∈ c.demands → s'.entry = some e →
        isFresh p.config.cacheMaxAgeDays (s'.now.sub e.fetchedAt) = true →
        s'.compile = s.compile →
        ∃ c', (∀ d, Cycle.Plays p s' 0
            (.waiting (Cycle.begin p sources').1 (Cycle.begin p sources').2) d ↔ d = c') ∧
          (∀ demand ∈ c'.demands, demand.searches = false) ∧ c'.offer? = c.offer? := by
  have hwrites : ∀ moves, ∀ event ∈ ((start p : Ledger H).run moves).log, event.Wholesome p := by
    intro moves event hevent
    have h := ((wholesome_start (H := H) p).run (exclusive_start p) moves).writes event.task event
    rw [plan_run (start p) moves] at h
    exact h (List.mem_filter.2 ⟨hevent, decide_eq_true rfl⟩)
  refine ⟨hwrites, ?_, ?_⟩
  · intro moves event hevent key e hdemand p' before later id sources current accepts now hconfig
      hfresh hreading
    obtain ⟨-, entries, hread⟩ := hwrites moves event hevent key e.payload hdemand
    have hplan : ((start p' : Ledger H).run before).coordinator.plan = p' :=
      plan_run (start p') before
    have hexclusive := (exclusive_start (H := H) p').run before
    have h := (wholesome_start (H := H) p').run (exclusive_start p') before
    rw [← hconfig] at hfresh
    rw [← Cycle.decode_congr hconfig] at hread
    generalize (start p' : Ledger H).run before = l at *
    subst hplan
    exact ((h.makesDo hexclusive hreading hfresh hread current accepts).run later).searchless
  · intro s s' sources sources' c key e hplays hwrite hentry hfresh hcompile
    obtain ⟨url, entries, hread, hoffer⟩ := hplays.offer?_of_writeCache (by rintro _ _ _ ⟨⟩) hwrite
    have hcached := Cycle.plays_cached hentry hfresh hread sources'
    refine ⟨_, fun d => ⟨fun hd => hd.unique hcached, fun hd => hd ▸ hcached⟩, ?_, ?_⟩
    · intro demand hdemand
      obtain rfl | hmerged := List.mem_cons.1 hdemand
      · rfl
      · exact Cycle.searches_merged hmerged
    · rw [hoffer]
      exact Cycle.offer?_merged hcompile _ _ entries

/-! ### A list that is found again -/

def smallPlan : Cycle.Plan := ⟨Engine.smallSetup.config, Engine.smallSetup.tables⟩

def newList : Bytes := Text.encodeUtf8 "[Adblock]\n||new.example^".toList

/-- A list is downloaded and put into the cache. -/
def downloadingMoves : List (Move Unit) :=
  [.call ["a".toList], .resume 0 true true (.cached none .zero),
    .resume 0 true true (.fetched newList)]

def amidDownloads : Cycle.Surroundings Unit where
  entry := none
  now := .zero
  download _ := .ok newList
  compile chunks := { handles := chunks.map fun _ => () }
  accepts := true

def amidCache : Cycle.Surroundings Unit := { amidDownloads with entry := some ⟨.zero, newList⟩ }

theorem cache_usable_newList :
    ((∃ entries, Cycle.decode smallPlan newList = .ok (some entries)) ∧
      ∀ later, ∀ event ∈ ((((start smallPlan : Ledger Unit).run [.call ["a".toList]]).move
          (.resume 0 true true (.cached (some ⟨.zero, newList⟩) .zero))).run later).eventsOf 0,
        ∀ demand, event.demand? = some demand → demand.searches = false) ∧
    ∃ c c', Cycle.Plays smallPlan amidDownloads 0 (.waiting (Cycle.begin smallPlan ["a".toList]).1
        (Cycle.begin smallPlan ["a".toList]).2) c ∧
      Cycle.Plays smallPlan amidCache 0 (.waiting (Cycle.begin smallPlan []).1
        (Cycle.begin smallPlan []).2) c' ∧
      (∀ demand ∈ c'.demands, demand.searches = false) ∧
      c.offer?.isSome = true ∧ c'.offer? = c.offer? := by
  have hfresh : isFresh smallPlan.config.cacheMaxAgeDays (Binary64.zero.sub .zero) = true := by
    decide +kernel
  have hevent : .resumed 0 (.waiting (.writeCache "list".toList newList)) ∈
      ((start smallPlan : Ledger Unit).run downloadingMoves).log := List.mem_of_getLast? rfl
  have hplays := Cycle.plays_course (s := amidDownloads) (p := smallPlan) (by decide) ["a".toList]
  have hwrite : Demand.writeCache "list".toList newList ∈
      (Cycle.course (Cycle.decode smallPlan) smallPlan amidDownloads ["a".toList]).demands :=
    List.mem_of_getElem? (i := 2) rfl
  obtain ⟨hreads, hfinds, hoffers⟩ := cache_usable (H := Unit) smallPlan
  obtain ⟨-, hread⟩ := hreads downloadingMoves _ hevent _ _ rfl
  obtain ⟨c', hplays', hsearchless, hoffer⟩ :=
    hoffers amidDownloads amidCache ["a".toList] [] _ _ ⟨.zero, newList⟩ hplays hwrite rfl hfresh rfl
  exact ⟨⟨hread, fun later => hfinds downloadingMoves _ hevent _ ⟨.zero, newList⟩ rfl smallPlan
      [.call ["a".toList]] later 0 ["a".toList] true true .zero rfl hfresh rfl⟩,
    _, c', hplays, (hplays' c').2 rfl, hsearchless, by decide +kernel, hoffer⟩

end Ledger

end Coordinator

end ContentFilter
