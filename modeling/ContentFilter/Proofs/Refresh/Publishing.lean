import ContentFilter.Proofs.Compile.Round
import ContentFilter.Proofs.Refresh.Offer

/-! # Publishing

One cycle among changing surroundings: its session can end and begin anew between any two of its
steps, every reply can be anything, and the chunks that it has compiled settle in any order.

* `Cycle.Scene`: a cycle with what it waits for, and what is on record about it.
* `Cycle.Scene.move`: what can happen; `Cycle.Scene.run`: the scene after some moves.
* `Cycle.Scene.Lawful`: what every move keeps.
* `Cycle.Scene.publishing_safe`: what is downloaded, compiled and offered, and when.
-/

set_option autoImplicit false

namespace ContentFilter

variable {H : Type}

namespace Cycle

/-! ## Scenes -/

/-- What is on record: a step of the cycle, with whether its session lasted and whether an offer was
to be taken, and the verdict on a chunk. -/
inductive Event (H : Type) where
  | stepped (current accepts : Bool) (progress : Progress H)
  | settled (chunk : Chunk) (verdict : Verdict H)

/-- Whether the session of a cycle lasts, where the cycle is, the round of chunks that it waits for,
and the record. -/
structure Scene (H : Type) where
  current : Bool
  progress : Progress H
  round : Round H
  log : List (Event H)

/-- What can happen: the session ends or begins anew; a reply comes, other than from a round; a chunk
is submitted; the backend settles one; a round comes to its end; the cycle is given up. -/
inductive Move (H : Type) where
  | change (current : Bool)
  | reply (reply : Reply H) (accepts : Bool)
  | submit (place : Nat)
  | settle (place : Nat) (verdict : Verdict H)
  | join (accepts : Bool)
  | giveUp

def Progress.waits : Progress H → Bool
  | .waiting _ _ => true
  | _ => false

/-- The round that a demand begins. -/
def Progress.round : Progress H → Round H
  | .waiting (.compile chunks) _ => .start chunks
  | _ => ⟨[]⟩

namespace Scene

def start (p : Plan) (sources : List Text) (current : Bool) : Scene H :=
  let progress := .waiting (begin p sources).1 (begin p sources).2
  ⟨current, progress, progress.round, [.stepped current false progress]⟩

/-- Goes on as a step says. -/
def follow (accepts : Bool) (progress : Progress H) (sc : Scene H) : Scene H :=
  match progress with
  | .unmoved => sc
  | progress =>
    { sc with
      progress := progress
      round := progress.round
      log := sc.log ++ [.stepped sc.current accepts progress] }

def resume (p : Plan) (reply : Reply H) (accepts : Bool) (sc : Scene H) : Scene H :=
  match sc.progress with
  | .waiting _ phase => follow accepts (step p sc.current accepts phase reply) sc
  | _ => sc

def submit (place : Nat) (sc : Scene H) : Scene H :=
  match sc.round.submit? place with
  | some (_, round) => { sc with round := round }
  | none => sc

def settle (place : Nat) (verdict : Verdict H) (sc : Scene H) : Scene H :=
  match sc.round.running? place with
  | some chunk =>
    { sc with round := sc.round.settle place verdict, log := sc.log ++ [.settled chunk verdict] }
  | none => sc

/-- Goes on with the result of a round in which every chunk has settled. -/
def join (p : Plan) (accepts : Bool) (sc : Scene H) : Scene H :=
  match sc.round.result? with
  | some result => resume p (.compiled result) accepts sc
  | none => sc

def cancelled : Failure := ⟨"CancelledError".toList, []⟩

def move (p : Plan) (sc : Scene H) : Move H → Scene H
  | .change current => { sc with current := current }
  | .reply (.compiled _) _ => sc
  | .reply reply accepts => resume p reply accepts sc
  | .submit place => submit place sc
  | .settle place verdict => settle place verdict sc
  | .join accepts => join p accepts sc
  | .giveUp => { sc with progress := .failed cancelled, round := ⟨[]⟩ }

def run (p : Plan) (sc : Scene H) (moves : List (Move H)) : Scene H := moves.foldl (move p) sc

end Scene

/-! ## What a record may hold -/

/-- Whether something is asked for that only a session can ask for: a download or a compilation. -/
def needsSession : Demand → Bool
  | .fetch _ _ => true
  | .compile _ => true
  | _ => false

/-- The outcome with which a step ends the cycle. -/
def Progress.outcome? : Progress H → Option Outcome
  | .finished outcome => some outcome
  | .offered _ _ outcome => some outcome
  | _ => none

namespace Event

def ends : Event H → Bool
  | .stepped _ _ progress => !progress.waits
  | .settled _ _ => false

def offers : Event H → Bool
  | .stepped _ _ (.offered _ _ _) => true
  | _ => false

theorem ends_of_offers {event : Event H} (h : event.offers = true) : event.ends = true := by
  cases event with
  | settled => exact h
  | stepped current accepts progress =>
    cases progress with
    | offered => rfl
    | _ => exact absurd h nofun

theorem countP_ends_settled {events : List (Event H)}
    (h : ∀ event ∈ events, ∃ chunk verdict, event = .settled chunk verdict) :
    events.countP ends = 0 := by
  refine List.countP_eq_zero.2 fun event hevent => ?_
  obtain ⟨chunk, verdict, rfl⟩ := h event hevent
  exact Bool.false_ne_true

/-- A result is that of some chunks, by verdicts on record. -/
def Joins (log : List (Event H)) (chunks : List Chunk) (result : CompileResult H) : Prop :=
  ∃ verdicts, verdicts.map Prod.fst = chunks ∧ result = .ofVerdicts verdicts ∧
    ∀ v ∈ verdicts, .settled v.1 v.2 ∈ log

/-- What is asked of a step on record. -/
inductive Lawful (p : Plan) (log : List (Event H)) : Event H → Prop
  | settled (chunk : Chunk) (verdict : Verdict H) : Lawful p log (.settled chunk verdict)
  | waiting {current accepts : Bool} {demand : Demand} {phase : Phase}
      (hsession : needsSession demand = true → current = true) :
      Lawful p log (.stepped current accepts (.waiting demand phase))
  | finished {current accepts : Bool} {outcome : Outcome} (hfails : outcome.success = false) :
      Lawful p log (.stepped current accepts (.finished outcome))
  | failed {current accepts : Bool} {f : Failure} :
      Lawful p log (.stepped current accepts (.failed f))
  | offered {accepts : Bool} {ruleSet : RuleSet} {result : CompileResult H} {outcome : Outcome}
      (hmerges : Merges p ruleSet) (hjoins : Joins log ruleSet.downloaded result)
      (hsome : result.handles ≠ []) (hsuccess : outcome.success = accepts) :
      Lawful p log (.stepped true accepts (.offered ruleSet result outcome))

theorem Joins.mono {log : List (Event H)} {chunks : List Chunk} {result : CompileResult H}
    (h : Joins log chunks result) (more : List (Event H)) : Joins (log ++ more) chunks result := by
  obtain ⟨verdicts, hchunks, hresult, hsettled⟩ := h
  exact ⟨verdicts, hchunks, hresult, fun v hv => List.mem_append_left _ (hsettled v hv)⟩

theorem Lawful.mono {p : Plan} {log : List (Event H)} {event : Event H} (h : Lawful p log event)
    (more : List (Event H)) : Lawful p (log ++ more) event := by
  cases h with
  | settled => exact .settled _ _
  | waiting hsession => exact .waiting hsession
  | finished hfails => exact .finished hfails
  | failed => exact .failed
  | offered hmerges hjoins hsome hsuccess => exact .offered hmerges (hjoins.mono more) hsome hsuccess

end Event

namespace Scene

/-- What every move keeps. The cycle ends at most once, and only a cycle that has not ended waits; the
round that it waits for is that of the rule set that it has built, with the verdicts on record. -/
structure Lawful (p : Plan) (sc : Scene H) : Prop where
  events : ∀ event ∈ sc.log, event.Lawful p sc.log
  waits : sc.progress.waits = true → sc.log.countP Event.ends = 0
  once : sc.log.countP Event.ends ≤ 1
  compiles : ∀ demand origin ruleSet, sc.progress = .waiting demand (.compiling origin ruleSet) →
    Merges p ruleSet ∧ sc.round.chunks = ruleSet.downloaded
  settled : ∀ chunk verdict, sc.round.HasSettled chunk verdict → .settled chunk verdict ∈ sc.log

variable {p : Plan} {sc : Scene H}

theorem lawful_start (sources : List Text) (current : Bool) :
    (start p sources current : Scene H).Lawful p where
  events := by
    intro event hevent
    obtain rfl := List.mem_singleton.1 hevent
    exact .waiting nofun
  waits := fun _ => rfl
  once := Nat.zero_le 1
  compiles := by
    rintro demand origin ruleSet ⟨⟩
  settled := nofun

/-- A step on record: what it waits for, if anything, has been built by the plan. -/
theorem Lawful.record (h : sc.Lawful p) (hwaits : sc.progress.waits = true) {accepts : Bool}
    {progress : Progress H} (hevent : Event.Lawful p sc.log (.stepped sc.current accepts progress))
    (hcompiles : ∀ demand origin ruleSet, progress = .waiting demand (.compiling origin ruleSet) →
      demand = .compile ruleSet.downloaded ∧ Merges p ruleSet) :
    Lawful p { sc with
      progress := progress
      round := progress.round
      log := sc.log ++ [.stepped sc.current accepts progress] } where
  events := by
    intro event hmem
    obtain hold | rfl : event ∈ sc.log ∨ event = .stepped sc.current accepts progress := by
      simpa using hmem
    · exact (h.events event hold).mono _
    · exact hevent.mono _
  waits := by
    intro hstill
    have hnot : Event.ends (.stepped sc.current accepts progress) = false := by
      simpa [Event.ends] using hstill
    simp [h.waits hwaits, hnot]
  once := by
    have hone : [Event.stepped sc.current accepts progress].countP Event.ends ≤ 1 :=
      List.countP_le_length
    simpa [h.waits hwaits] using hone
  compiles := by
    intro demand origin ruleSet hprogress
    obtain ⟨rfl, hmerges⟩ := hcompiles demand origin ruleSet hprogress
    obtain rfl : progress = _ := hprogress
    exact ⟨hmerges, Round.chunks_start _⟩
  settled := by
    intro chunk verdict hsettled
    exfalso
    revert hsettled
    unfold Progress.round
    dsimp only
    split
    · exact Round.not_hasSettled_start _ chunk verdict
    · exact List.not_mem_nil

theorem Lawful.joins (h : sc.Lawful p) {demand : Demand} {origin : Origin} {ruleSet : RuleSet}
    {result : CompileResult H} (hprogress : sc.progress = .waiting demand (.compiling origin ruleSet))
    (hresult : sc.round.result? = some result) :
    Merges p ruleSet ∧ Event.Joins sc.log ruleSet.downloaded result := by
  obtain ⟨hmerges, hchunks⟩ := h.compiles demand origin ruleSet hprogress
  obtain ⟨verdicts, hverdicts, hjoined, hsettled⟩ := Round.result?_eq_some hresult
  exact ⟨hmerges, verdicts, hverdicts.trans hchunks, hjoined,
    fun v hv => h.settled v.1 v.2 (hsettled v hv)⟩

theorem Lawful.resume (h : sc.Lawful p) (reply : Reply H) (accepts : Bool)
    (hround : ∀ result, reply = .compiled result → sc.round.result? = some result) :
    (resume p reply accepts sc).Lawful p := by
  unfold Scene.resume
  split
  next demand phase hprogress =>
    have hwaits : sc.progress.waits = true := by rw [hprogress, Progress.waits]
    obtain hroutine | ⟨origin, ruleSet, result, rfl, rfl, hlasts, hsome, hstep⟩ :=
      step_cases (p := p) sc.current accepts phase reply
    · generalize step p sc.current accepts phase reply = progress at hroutine ⊢
      cases hroutine with
      | unmoved => exact h
      | finished hfails => exact h.record hwaits (.finished hfails) (by simp)
      | failed f => exact h.record hwaits .failed (by simp)
      | fetching hlasts a => exact h.record hwaits (.waiting fun _ => hlasts) (by simp)
      | sleeping delay a error => exact h.record hwaits (.waiting nofun) (by simp)
      | writing hread url => exact h.record hwaits (.waiting nofun) (by simp)
      | compiling hlasts origin hmerges =>
        refine h.record hwaits (.waiting fun _ => hlasts) ?_
        rintro _ _ _ ⟨⟩
        exact ⟨rfl, hmerges⟩
    · obtain ⟨hmerges, hjoins⟩ := h.joins hprogress (hround result rfl)
      have hsuccess : Outcome.success
          (if accepts then .published origin ruleSet.downloadedCount else .sessionEnded) =
            accepts := by
        cases accepts <;> rfl
      have hevent : Event.Lawful p sc.log (.stepped sc.current accepts (.offered ruleSet result
          (if accepts then .published origin ruleSet.downloadedCount else .sessionEnded))) := by
        rw [hlasts]
        exact .offered hmerges hjoins hsome hsuccess
      rw [hstep]
      exact h.record hwaits hevent (by simp)
  · exact h

/-- Chunks are submitted and settle without any step of the cycle. -/
theorem Lawful.withRound (h : sc.Lawful p) {round : Round H} {more : List (Event H)}
    (hmore : ∀ event ∈ more, ∃ chunk verdict, event = .settled chunk verdict)
    (hchunks : round.chunks = sc.round.chunks)
    (hsettled : ∀ chunk verdict, round.HasSettled chunk verdict →
      sc.round.HasSettled chunk verdict ∨ .settled chunk verdict ∈ more) :
    Lawful p { sc with round := round, log := sc.log ++ more } where
  events := by
    intro event hevent
    obtain hold | hnew := List.mem_append.1 hevent
    · exact (h.events event hold).mono more
    · obtain ⟨chunk, verdict, rfl⟩ := hmore event hnew
      exact .settled chunk verdict
  waits := by simpa [Event.countP_ends_settled hmore] using h.waits
  once := by simpa [Event.countP_ends_settled hmore] using h.once
  compiles := by
    intro demand origin ruleSet hprogress
    obtain ⟨hmerges, hsame⟩ := h.compiles demand origin ruleSet hprogress
    exact ⟨hmerges, hchunks.trans hsame⟩
  settled := by
    intro chunk verdict hhas
    obtain hold | hnew := hsettled chunk verdict hhas
    · exact List.mem_append_left _ (h.settled chunk verdict hold)
    · exact List.mem_append_right _ hnew

theorem Lawful.submit (h : sc.Lawful p) (place : Nat) : (submit place sc).Lawful p := by
  unfold Scene.submit
  split
  next chunk round hsubmit =>
    have hnone : ∀ event ∈ ([] : List (Event H)), ∃ c v, event = .settled c v := by simp
    have hround := h.withRound hnone (Round.chunks_submit? hsubmit)
      fun c v hv => .inl (Round.hasSettled_of_submit? hsubmit hv)
    rwa [List.append_nil] at hround
  · exact h

theorem Lawful.settle (h : sc.Lawful p) (place : Nat) (verdict : Verdict H) :
    (settle place verdict sc).Lawful p := by
  unfold Scene.settle
  split
  next chunk hrunning =>
    refine h.withRound (by simp) (Round.chunks_settle hrunning verdict) fun c v hv => ?_
    obtain hold | ⟨rfl, rfl⟩ := Round.hasSettled_settle hrunning hv
    · exact .inl hold
    · exact .inr (List.mem_singleton.2 rfl)
  · exact h

theorem Lawful.join (h : sc.Lawful p) (accepts : Bool) : (join p accepts sc).Lawful p := by
  unfold Scene.join
  split
  next result hresult =>
    refine h.resume _ accepts fun result' heq => ?_
    obtain rfl : result = result' := by simpa using heq
    exact hresult
  · exact h

theorem Lawful.move (h : sc.Lawful p) (mv : Move H) : (move p sc mv).Lawful p := by
  cases mv with
  | change current => exact ⟨h.events, h.waits, h.once, h.compiles, h.settled⟩
  | reply reply accepts =>
    cases reply with
    | compiled result => exact h
    | _ => exact h.resume _ accepts (by simp)
  | submit place => exact h.submit place
  | settle place verdict => exact h.settle place verdict
  | join accepts => exact h.join accepts
  | giveUp => exact ⟨h.events, nofun, h.once, nofun, fun _ _ hhas => absurd hhas List.not_mem_nil⟩

theorem Lawful.run (h : sc.Lawful p) (moves : List (Move H)) : (run p sc moves).Lawful p := by
  induction moves generalizing sc with
  | nil => exact h
  | cons mv moves ih => exact ih (h.move mv)

/-- No two events end the cycle. -/
theorem Lawful.eq_of_ends (h : sc.Lawful p) {event event' : Event H} (hevent : event ∈ sc.log)
    (hevent' : event' ∈ sc.log) (hends : event.ends = true) (hends' : event'.ends = true) :
    event = event' := by
  have hmem := List.mem_filter.2 ⟨hevent, hends⟩
  have hmem' := List.mem_filter.2 ⟨hevent', hends'⟩
  have hlength : (sc.log.filter Event.ends).length ≤ 1 := by
    rw [← List.countP_eq_length_filter]
    exact h.once
  generalize sc.log.filter Event.ends = endings at hmem hmem' hlength
  cases endings with
  | nil => exact absurd hmem List.not_mem_nil
  | cons only rest =>
    obtain rfl : rest = [] := by simpa using hlength
    rw [List.mem_singleton] at hmem hmem'
    rw [hmem, hmem']

/-- A cycle offers rules at most once, while its session lasts, with all the new chunks of their rule
set and at least one handle. It succeeds exactly when the offer is taken. Nothing is downloaded or
compiled for a session that has ended. -/
theorem publishing_safe (p : Plan) (sources : List Text) (current : Bool) (moves : List (Move H)) :
    let log := (run p (start p sources current) moves).log
    log.countP Event.offers ≤ 1 ∧
    (∀ current accepts ruleSet result outcome,
      .stepped current accepts (.offered ruleSet result outcome) ∈ log →
        current = true ∧ ruleSet.downloaded ≠ [] ∧ Event.Joins log ruleSet.downloaded result ∧
          result.handles ≠ []) ∧
    (∀ current accepts progress outcome, .stepped current accepts progress ∈ log →
      progress.outcome? = some outcome → (outcome.success = true ↔
        ∃ current ruleSet result outcome,
          .stepped current true (.offered ruleSet result outcome) ∈ log)) ∧
    ∀ current accepts demand phase, .stepped current accepts (.waiting demand phase) ∈ log →
      needsSession demand = true → current = true := by
  have h : (run p (start p sources current) moves).Lawful p :=
    (lawful_start sources current).run moves
  refine ⟨?_, ?_, ?_, ?_⟩
  · have hle : (run p (start p sources current) moves).log.countP Event.offers ≤
        (run p (start p sources current) moves).log.countP Event.ends :=
      List.countP_mono_left fun event _ hoffers => Event.ends_of_offers hoffers
    exact Nat.le_trans hle h.once
  · intro current accepts ruleSet result outcome hevent
    cases h.events _ hevent with
    | offered hmerges hjoins hsome hsuccess => exact ⟨rfl, hmerges.2, hjoins, hsome⟩
  · intro current accepts progress outcome hevent houtcome
    cases h.events _ hevent with
    | waiting => exact absurd houtcome nofun
    | failed => exact absurd houtcome nofun
    | finished hfails =>
      obtain rfl := Option.some.inj houtcome
      refine iff_of_false (by simp [hfails]) ?_
      rintro ⟨_, _, _, _, hoffered⟩
      exact absurd (h.eq_of_ends hevent hoffered rfl rfl) (by simp)
    | offered hmerges hjoins hsome hsuccess =>
      obtain rfl := Option.some.inj houtcome
      refine ⟨fun htaken => ?_, ?_⟩
      · obtain rfl : accepts = true := hsuccess.symm.trans htaken
        exact ⟨_, _, _, _, hevent⟩
      · rintro ⟨_, _, _, _, hoffered⟩
        obtain ⟨-, rfl, -⟩ := by simpa using h.eq_of_ends hevent hoffered rfl rfl
        exact hsuccess
  · intro current accepts demand phase hevent hneeds
    cases h.events _ hevent with
    | waiting hsession => exact hsession hneeds

/-- A list is downloaded, its one chunk compiles, and its rules are taken. -/
example :
    let p : Plan := ⟨Engine.smallSetup.config, Engine.smallSetup.tables⟩
    let moves : List (Move Unit) :=
      [.reply (.cached none .zero) true,
        .reply (.fetched (Text.encodeUtf8 "[Adblock]\n||new.example^".toList)) true,
        .reply .written true, .submit 0, .settle 0 (.handle ()), .join true]
    (run p (start p ["a".toList] true) moves).log.countP Event.offers = 1 := by
  decide +kernel

end Scene

end Cycle

end ContentFilter
