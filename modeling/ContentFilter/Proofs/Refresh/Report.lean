import ContentFilter.Proofs.Refresh.Publishing
import ContentFilter.Proofs.RuleSet.Repeats

/-! # What a cycle reports

A cycle that succeeds reports a number of records. It counts every record that is new in the rule
set that was taken, whether or not the backend gave a handle for its chunk.

* `compiledChunks`, `refusedChunks`: the chunks of a round by the verdicts on them.
* `Cycle.Event.Reports`: what an offer on record says about its rule set.
* `Cycle.Scene.Records.run`: what all events on record have in common.
* `Cycle.Scene.recordCount_eq_iff`: the number that is reported is that of the records in force
  exactly when no chunk was refused.
-/

set_option autoImplicit false

namespace ContentFilter

variable {H : Type}

/-! ## Chunks by their verdicts -/

/-- The chunks that a backend gave handles for. -/
def compiledChunks (verdicts : List (Chunk × Verdict H)) : List Chunk :=
  (verdicts.filter fun v => v.2.handle?.isSome).map Prod.fst

/-- The chunks that a backend gave no handles for. -/
def refusedChunks (verdicts : List (Chunk × Verdict H)) : List Chunk :=
  (verdicts.filter fun v => v.2.handle?.isNone).map Prod.fst

theorem mem_of_mem_refusedChunks {verdicts : List (Chunk × Verdict H)} {c : Chunk}
    (h : c ∈ refusedChunks verdicts) : c ∈ verdicts.map Prod.fst := by
  obtain ⟨v, hv, rfl⟩ := List.mem_map.1 h
  exact List.mem_map_of_mem (List.mem_of_mem_filter hv)

namespace RuleSet

theorem countRecords_cons (c : Chunk) (chunks : List Chunk) :
    countRecords (c :: chunks) = c.size + countRecords chunks := by
  rw [countRecords, List.flatMap_cons, List.length_append]
  rfl

theorem countRecords_compiled_add_refused (verdicts : List (Chunk × Verdict H)) :
    countRecords (compiledChunks verdicts) + countRecords (refusedChunks verdicts) =
      countRecords (verdicts.map Prod.fst) := by
  induction verdicts with
  | nil => rfl
  | cons v verdicts ih =>
    unfold compiledChunks refusedChunks at ih ⊢
    cases hv : v.2.handle? with
    | none => simp [hv, countRecords_cons, ← ih, Nat.add_left_comm]
    | some h => simp [hv, countRecords_cons, ← ih, Nat.add_assoc]

theorem countRecords_eq_zero_iff {chunks : List Chunk} (hsome : ∀ c ∈ chunks, c.records ≠ []) :
    countRecords chunks = 0 ↔ chunks = [] := by
  cases chunks with
  | nil => exact iff_of_true rfl rfl
  | cons c chunks =>
    have hsize : c.size ≠ 0 := by simpa [Chunk.size] using hsome c List.mem_cons_self
    rw [countRecords_cons]
    exact iff_of_false (by omega) (List.cons_ne_nil c chunks)

/-- No chunk is empty. -/
theorem records_ne_nil_of_mem_cut {stem : Text} {size : Nat} (hsize : 0 < size)
    {records : List Record} {c : Chunk} (hc : c ∈ Chunk.cut stem size records) :
    c.records ≠ [] := by
  obtain ⟨i, hlt, rfl⟩ := Chunk.mem_cut hsize hc
  refine List.ne_nil_of_length_pos ?_
  rw [List.length_take, List.length_drop]
  omega

end RuleSet

open RuleSet

namespace Cycle

theorem Merges.records_ne_nil {p : Plan} {ruleSet : RuleSet} (h : Merges p ruleSet) {c : Chunk}
    (hc : c ∈ ruleSet.downloaded) : c.records ≠ [] := by
  obtain ⟨⟨entries, rfl⟩, -⟩ := h
  exact records_ne_nil_of_mem_cut p.config.downloadedChunkSize_pos hc

/-! ## Offers on record -/

namespace Event

/-- An offer on record is reported with the number of new records of its rule set, if it is taken. -/
def Reports : Event H → Prop
  | .stepped _ accepts (.offered ruleSet _ outcome) => ∃ origin,
    outcome = if accepts then .published origin ruleSet.downloadedCount else .sessionEnded
  | _ => True

theorem reports_step (p : Plan) (current accepts : Bool) (phase : Phase) (reply : Reply H) :
    Reports (.stepped current accepts (step p current accepts phase reply)) := by
  obtain hroutine | ⟨origin, ruleSet, result, -, -, -, -, hstep⟩ :=
    step_cases (p := p) current accepts phase reply
  · have hwithholds := hroutine.pending.withholds
    cases hprogress : step p current accepts phase reply with
    | offered ruleSet result outcome => exact absurd hprogress (hwithholds ruleSet result outcome)
    | _ => trivial
  · rw [hstep]
    exact ⟨origin, rfl⟩

end Event

namespace Scene

variable {p : Plan} {sc : Scene H}

/-- All events on record are of a kind. -/
def Records (P : Event H → Prop) (sc : Scene H) : Prop := ∀ event ∈ sc.log, P event

section Records

variable {P : Event H → Prop}

theorem Records.concat (h : sc.Records P) {sc' : Scene H} {event : Event H} (hevent : P event)
    (hlog : sc'.log = sc.log ++ [event]) : sc'.Records P := by
  intro e he
  rw [hlog, List.mem_append, List.mem_singleton] at he
  obtain hold | rfl := he
  · exact h e hold
  · exact hevent

/-- What every step brings about. -/
def AtEveryStep (p : Plan) (P : Event H → Prop) : Prop := ∀ current accepts phase reply,
  P (.stepped current accepts (step p current accepts phase reply))

variable (hstep : AtEveryStep p P) (hsettled : ∀ chunk verdict, P (.settled chunk verdict))

include hstep in
theorem Records.resume (h : sc.Records P) (reply : Reply H) (accepts : Bool) :
    (resume p reply accepts sc).Records P := by
  unfold Scene.resume
  split
  next demand phase hprogress =>
    unfold follow
    split
    · exact h
    · exact h.concat (hstep sc.current accepts phase reply) rfl
  · exact h

theorem Records.submit (h : sc.Records P) (place : Nat) : (submit place sc).Records P := by
  unfold Scene.submit
  split <;> exact h

include hsettled in
theorem Records.settle (h : sc.Records P) (place : Nat) (verdict : Verdict H) :
    (settle place verdict sc).Records P := by
  unfold Scene.settle
  split
  next chunk hrunning => exact h.concat (hsettled chunk verdict) rfl
  · exact h

include hstep in
theorem Records.join (h : sc.Records P) (accepts : Bool) : (join p accepts sc).Records P := by
  unfold Scene.join
  split
  · exact h.resume hstep _ accepts
  · exact h

include hstep hsettled in
theorem Records.move (h : sc.Records P) (mv : Move H) : (move p sc mv).Records P := by
  cases mv with
  | change current => exact h
  | reply reply accepts =>
    cases reply with
    | compiled result => exact h
    | _ => exact h.resume hstep _ accepts
  | submit place => exact h.submit place
  | settle place verdict => exact h.settle hsettled place verdict
  | join accepts => exact h.join hstep accepts
  | giveUp => exact h

include hstep hsettled in
/-- What the steps and the verdicts bring about is all that a run puts on record. -/
theorem Records.run (h : sc.Records P) (moves : List (Move H)) : (run p sc moves).Records P := by
  induction moves generalizing sc with
  | nil => exact h
  | cons mv moves ih => exact ih (h.move hstep hsettled mv)

end Records

/-- Every offer on record is reported so. -/
theorem reports_run (sources : List Text) (current : Bool) (moves : List (Move H)) :
    (run p (start p sources current) moves).Records Event.Reports := by
  have hstart : (start p sources current : Scene H).Records Event.Reports := by
    intro event hevent
    obtain rfl := List.mem_singleton.1 hevent
    trivial
  exact hstart.run (Event.reports_step p) (fun _ _ => trivial) moves

/-- A cycle that succeeds has offered a rule set that was taken, with the verdicts on all its new
chunks. The number of records that it reports counts the chunks with handles and the others alike:
it is that of the records in force exactly when no chunk was refused. -/
theorem recordCount_eq_iff (p : Plan) (sources : List Text) (current : Bool)
    (moves : List (Move H)) :
    let log := (run p (start p sources current) moves).log
    ∀ current accepts progress outcome, .stepped current accepts progress ∈ log →
      progress.outcome? = some outcome → outcome.success = true →
        ∃ ruleSet verdicts, progress = .offered ruleSet (.ofVerdicts verdicts) outcome ∧
          accepts = true ∧ verdicts.map Prod.fst = ruleSet.downloaded ∧
          (∀ v ∈ verdicts, .settled v.1 v.2 ∈ log) ∧
          outcome.recordCount =
            countRecords (compiledChunks verdicts) + countRecords (refusedChunks verdicts) ∧
          (outcome.recordCount = countRecords (compiledChunks verdicts) ↔
            refusedChunks verdicts = []) := by
  intro log current' accepts progress outcome hevent houtcome hsuccess
  have hlawful : (run p (start p sources current) moves).Lawful p :=
    (lawful_start sources current).run moves
  have hreports := reports_run sources current moves _ hevent
  cases hlawful.events _ hevent with
  | waiting => exact absurd houtcome nofun
  | failed => exact absurd houtcome nofun
  | finished hfails =>
    obtain rfl := Option.some.inj houtcome
    exact absurd hsuccess (by simp [hfails])
  | offered hmerges hjoins hsome htaken =>
    obtain rfl := Option.some.inj houtcome
    obtain rfl : accepts = true := htaken.symm.trans hsuccess
    obtain ⟨verdicts, hchunks, rfl, hsettled⟩ := hjoins
    obtain ⟨origin, rfl⟩ := hreports
    rename_i ruleSet
    have hcount : ruleSet.downloadedCount =
        countRecords (compiledChunks verdicts) + countRecords (refusedChunks verdicts) := by
      rw [countRecords_compiled_add_refused, hchunks, RuleSet.downloadedCount]
    have hrefused : ∀ c ∈ refusedChunks verdicts, c.records ≠ [] := fun c hc =>
      hmerges.records_ne_nil (hchunks ▸ mem_of_mem_refusedChunks hc)
    refine ⟨ruleSet, verdicts, rfl, rfl, hchunks, hsettled, hcount, ?_⟩
    rw [← countRecords_eq_zero_iff hrefused]
    show ruleSet.downloadedCount = _ ↔ _
    omega

/-! ### A refused chunk -/

def pairPlan : Plan := ⟨wholeChunks, repeatedAds⟩

def threeRules : Text := "!\n||one.example^\n||two.example^\n||three.example^".toList

/-- A list of three rules is compiled as a pair, which is refused, and a single one. -/
def pairRefused : List (Move Nat) :=
  [.reply (.cached none .zero) true,
    .reply (.fetched (Text.encodeUtf8 threeRules)) true, .reply .written true,
    .submit 0, .submit 1, .settle 1 (.handle 7),
    .settle 0 (.failed ⟨"RuleCompileError".toList, "rejected".toList⟩), .join true]

def pairLog : List (Event Nat) := (run pairPlan (start pairPlan ["a".toList] true) pairRefused).log

/-- An offer on record that was taken while the session lasted. -/
def taken? : Event Nat → Option (RuleSet × CompileResult Nat × Outcome)
  | .stepped true true (.offered ruleSet result outcome) => some (ruleSet, result, outcome)
  | _ => none

theorem eq_of_taken? {event : Event Nat} {offer : RuleSet × CompileResult Nat × Outcome}
    (h : taken? event = some offer) :
    event = .stepped true true (.offered offer.1 offer.2.1 offer.2.2) := by
  unfold taken? at h
  split at h
  next ruleSet result outcome =>
    obtain rfl := Option.some.inj h
    rfl
  · cases h

/-- What is on record of the offer that the cycle makes. -/
theorem offered_pairLog : ∃ ruleSet result outcome,
    .stepped true true (.offered ruleSet result outcome) ∈ pairLog ∧
      (outcome.success = true ∧ outcome.recordCount = 3) ∧
      result.handles = [7] ∧ result.failures = [("downloaded_0".toList, "rejected".toList)] ∧
      ruleSet.downloaded.map (fun c => (c.name, c.size)) =
        [("downloaded_0".toList, 2), ("downloaded_1".toList, 1)] := by
  have hany : (pairLog.filterMap taken?).any (fun offer =>
      decide ((offer.2.2.success = true ∧ offer.2.2.recordCount = 3) ∧
        offer.2.1.handles = [7] ∧
        offer.2.1.failures = [("downloaded_0".toList, "rejected".toList)] ∧
        offer.1.downloaded.map (fun c => (c.name, c.size)) =
          [("downloaded_0".toList, 2), ("downloaded_1".toList, 1)])) = true := by
    decide +kernel
  obtain ⟨offer, hoffer, hholds⟩ := List.any_eq_true.1 hany
  obtain ⟨event, hmem, htaken⟩ := List.mem_filterMap.1 hoffer
  exact ⟨offer.1, offer.2.1, offer.2.2, eq_of_taken? htaken ▸ hmem, of_decide_eq_true hholds⟩

theorem recordCount_eq_iff_pairLog : ∃ progress outcome,
    .stepped true true progress ∈ pairLog ∧ progress.outcome? = some outcome ∧
      outcome.success = true ∧ outcome.recordCount = 3 ∧
      ∃ ruleSet verdicts, progress = .offered ruleSet (.ofVerdicts verdicts) outcome ∧
        (outcome.recordCount = countRecords (compiledChunks verdicts) ↔
          refusedChunks verdicts = []) := by
  obtain ⟨ruleSet, result, outcome, hmem, ⟨hsuccess, hcount⟩, -⟩ := offered_pairLog
  obtain ⟨ruleSet', verdicts, hprogress, -, -, -, -, hexact⟩ :=
    recordCount_eq_iff pairPlan ["a".toList] true pairRefused true true _ outcome hmem rfl hsuccess
  exact ⟨_, outcome, hmem, rfl, hsuccess, hcount, ruleSet', verdicts, hprogress, hexact⟩

/-- Three records are reported, and the one chunk with a handle has one. -/
theorem refused_records_reported : ∃ ruleSet verdicts outcome,
    .stepped true true (.offered ruleSet (.ofVerdicts verdicts) outcome) ∈ pairLog ∧
      verdicts.map Prod.fst = ruleSet.downloaded ∧ outcome.success = true ∧
      outcome.recordCount = 3 ∧ countRecords (compiledChunks verdicts) = 1 := by
  obtain ⟨ruleSet, ⟨handles, failures⟩, outcome, hmem, ⟨hsuccess, hcount⟩, hhandles, hfailures,
    hchunks⟩ := offered_pairLog
  obtain rfl : handles = [7] := hhandles
  obtain rfl : failures = [("downloaded_0".toList, "rejected".toList)] := hfailures
  obtain ⟨c, d, hdownloaded⟩ := List.length_eq_two.1 (by simpa using congrArg List.length hchunks)
  rw [hdownloaded] at hchunks
  obtain ⟨⟨hname, -⟩, -, hsize⟩ := by simpa using hchunks
  refine ⟨ruleSet, [(c, .failed ⟨"RuleCompileError".toList, "rejected".toList⟩), (d, .handle 7)],
    outcome, ?_, hdownloaded.symm, hsuccess, hcount, ?_⟩
  · have hresult : (⟨[7], [("downloaded_0".toList, "rejected".toList)]⟩ : CompileResult Nat) =
        .ofVerdicts [(c, .failed ⟨"RuleCompileError".toList, "rejected".toList⟩), (d, .handle 7)] := by
      simp [CompileResult.ofVerdicts, Verdict.handle?, Verdict.failure?, Failure.describe, hname]
    rwa [← hresult]
  · have hcompiled : compiledChunks [(c, .failed ⟨"RuleCompileError".toList, "rejected".toList⟩),
        (d, .handle 7)] = [d] := rfl
    rw [hcompiled, countRecords_cons, hsize]
    rfl

end Scene

end Cycle

end ContentFilter
