import ContentFilter.Proofs.Config.Delay
import ContentFilter.Proofs.Record.Numeral
import ContentFilter.Refresh.Cycle

/-! # The course of a cycle

While its session lasts, a cycle goes through the attempts in order, source by source, until a list
can be read. What it asks for on the way, and how it ends, is written down here as one recursion over
the attempts, and the cycle is shown to take that course whatever comes back.

A list can also go beyond a limit of its reader. The documented course passes over such a list like
over any other that cannot be read, the cycle breaks off there.

* `Cycle.Plays`: what a cycle asks for amid its surroundings, and how it ends.
* `Cycle.course`: the course, by a judge of lists.
* `Cycle.plays_begin_iff`: a cycle takes the course of `Cycle.decode`; it is the documented one unless
  a list goes beyond a limit.
-/

set_option autoImplicit false

namespace ContentFilter

variable {H : Type}

namespace Cycle

/-! ## Plays -/

/-- What a cycle meets: the list in the cache and the present time, how each download turns out, by
its number in the cycle, what becomes of chunks, and whether rules that are offered are taken. -/
structure Surroundings (H : Type) where
  entry : Option CacheEntry
  now : Binary64
  download : Nat → Except Failure Bytes
  compile : List Chunk → CompileResult H
  accepts : Bool

/-- The reply to a demand after a number of downloads. -/
def Surroundings.reply (s : Surroundings H) (downloads : Nat) : Demand → Reply H
  | .readCache _ => .cached s.entry s.now
  | .fetch _ _ => match s.download downloads with
    | .ok payload => .fetched payload
    | .error f => .raised f
  | .sleep _ => .slept
  | .writeCache _ _ => .written
  | .compile chunks => .compiled (s.compile chunks)
  | .saveEnabled _ => .saved

/-- The number of downloads after a demand. -/
def countFetch (downloads : Nat) : Demand → Nat
  | .fetch _ _ => downloads + 1
  | _ => downloads

/-- What is asked for, in order, and what comes last. -/
structure Course (H : Type) where
  demands : List Demand
  last : Progress H

def Course.after (demands : List Demand) (c : Course H) : Course H := ⟨demands ++ c.demands, c.last⟩

/-- How a cycle goes on amid its surroundings while its session lasts: each demand gets its reply, up
to the step that waits for nothing. -/
inductive Plays (p : Plan) (s : Surroundings H) : Nat → Progress H → Course H → Prop
  | ended {downloads : Nat} {progress : Progress H}
      (hends : ∀ demand phase, progress ≠ .waiting demand phase) :
      Plays p s downloads progress ⟨[], progress⟩
  | waiting {downloads : Nat} {demand : Demand} {phase : Phase} {c : Course H}
      (hrest : Plays p s (countFetch downloads demand)
        (step p true s.accepts phase (s.reply downloads demand)) c) :
      Plays p s downloads (.waiting demand phase) (c.after [demand])

theorem Plays.unique {p : Plan} {s : Surroundings H} {downloads : Nat} {progress : Progress H}
    {c d : Course H} (hc : Plays p s downloads progress c) (hd : Plays p s downloads progress d) :
    c = d := by
  induction hc generalizing d with
  | ended hends =>
    cases hd with
    | ended => rfl
    | waiting => exact absurd rfl (hends _ _)
  | waiting _ ih =>
    cases hd with
    | ended hends => exact absurd rfl (hends _ _)
    | waiting hrest => rw [ih hrest]

/-! ## The course -/

/-- Tells the entries of a list, that it is refused, or the limit beyond which it goes. -/
abbrev Judge := Bytes → Except Limit (Option (List Entry))

/-- The documented judge: a list that cannot be read for whatever reason is refused. -/
def decodeOrRefuse (p : Plan) : Judge :=
  fun payload => .ok (Payload.decode p.config.minPatternLength payload).toOption

/-- All attempts, in order: every source, as often as the configuration says. -/
def attempts (p : Plan) (sources : List Text) : List (Text × Nat) :=
  sources.flatMap fun url => (List.range p.config.maxAttempts).map fun number => (url, number)

section Course

variable (judge : Judge) (p : Plan) (s : Surroundings H)

/-- Goes on with the entries of a list or without them; a limit is the end. -/
def judged (payload : Bytes) (use : List Entry → Course H) (otherwise : Course H) : Course H :=
  match judge payload with
  | .ok (some entries) => use entries
  | .ok none => otherwise
  | .error l => ⟨[], .failed l.toFailure⟩

/-- The entries are merged with the tables, and what is new is compiled and offered. -/
def merged (origin : Origin) (entries : List Entry) : Course H :=
  let ruleSet := RuleSet.build p.config p.tables entries
  if ruleSet.downloaded = [] then ⟨[], .finished (.useless origin .nothingNew)⟩
  else
    .after [.compile ruleSet.downloaded]
      ⟨[], offer true s.accepts origin ruleSet (s.compile ruleSet.downloaded)⟩

/-- After the last source: an old list that can be read is merged, else the last error is told. -/
def lastResort (old : Option CacheEntry) (error : Option Text) : Course H :=
  match old with
  | some e => judged judge e.payload (merged p s (.cache true)) ⟨[], .finished (.exhausted error)⟩
  | none => ⟨[], .finished (.exhausted error)⟩

/-- The attempts that are left, after a number of downloads and with the last error. A failure leads
to a delay before the same source is tried again, a list that cannot be read does not. -/
def search (old : Option CacheEntry) : Option Text → Nat → List (Text × Nat) → Course H
  | error, _, [] => lastResort judge p s old error
  | _, downloads, (url, number) :: rest =>
    .after [.fetch url p.config.fetchTimeout] <|
      match s.download downloads with
      | .error f =>
        .after (if number + 1 < p.config.maxAttempts then [.sleep (p.config.delay number)] else [])
          (search old (some f.describe) (downloads + 1) rest)
      | .ok payload =>
        judged judge payload
          (fun entries =>
            .after [.writeCache p.config.cacheKey payload] (merged p s (.download url) entries))
          (search old (some (unreadable url)) (downloads + 1) rest)

/-- A list in the cache that is within its lifetime is merged if it can be read and forgotten
otherwise; an older one is kept for the end. -/
def fromCache (sources : List Text) : Course H :=
  match s.entry with
  | none => search judge p s none none 0 (attempts p sources)
  | some e =>
    if isFresh p.config.cacheMaxAgeDays (s.now.sub e.fetchedAt) then
      judged judge e.payload (merged p s (.cache false))
        (search judge p s none none 0 (attempts p sources))
    else search judge p s (some e) none 0 (attempts p sources)

/-- The cache is read once, at the start. -/
def course (sources : List Text) : Course H :=
  .after [.readCache p.config.cacheKey] (fromCache judge p s sources)

end Course

/-! ## A cycle takes the course -/

section Plays

variable {p : Plan} {s : Surroundings H}

theorem Plays.finished (downloads : Nat) (outcome : Outcome) :
    Plays p s downloads (.finished outcome) ⟨[], .finished outcome⟩ := .ended nofun

theorem Plays.offer (downloads : Nat) (accepts : Bool) (origin : Origin) (ruleSet : RuleSet)
    (result : CompileResult H) :
    Plays p s downloads (offer true accepts origin ruleSet result)
      ⟨[], Cycle.offer true accepts origin ruleSet result⟩ := by
  refine .ended fun demand phase => ?_
  unfold Cycle.offer
  split
  · exact nofun
  · split <;> exact nofun

theorem Plays.consider {downloads : Nat} {payload : Bytes} {use : List Entry → Progress H}
    {otherwise : Progress H} {useCourse : List Entry → Course H} {otherCourse : Course H}
    (huse : ∀ entries, Plays p s downloads (use entries) (useCourse entries))
    (hother : Plays p s downloads otherwise otherCourse) :
    Plays p s downloads (consider p payload use otherwise)
      (judged (decode p) payload useCourse otherCourse) := by
  unfold Cycle.consider judged
  cases decode p payload with
  | error l => exact .ended nofun
  | ok entries? =>
    cases entries? with
    | none => exact hother
    | some entries => exact huse entries

theorem plays_merge (downloads : Nat) (origin : Origin) (entries : List Entry) :
    Plays p s downloads (merge p true origin entries) (merged p s origin entries) := by
  by_cases hnew : (RuleSet.build p.config p.tables entries).downloaded = []
  · have hmerge : (merge p true origin entries : Progress H) =
        .finished (.useless origin .nothingNew) := by
      simp [merge, hnew]
    rw [hmerge, merged, if_pos hnew]
    exact Plays.finished downloads _
  · rw [merged, if_neg hnew]
    simp only [merge, List.isEmpty_iff, hnew, if_false, Bool.not_true, Bool.false_eq_true]
    refine .waiting ?_
    exact Plays.offer downloads s.accepts origin _ _

theorem plays_fallBack (downloads : Nat) (old : Option CacheEntry) (error : Option Text) :
    Plays p s downloads (fallBack p true old error) (lastResort (decode p) p s old error) := by
  cases old with
  | none => exact .finished ..
  | some e => exact .consider (plays_merge downloads _) (.finished ..)

/-- The attempts from one at the first source on. -/
def attemptsFrom (p : Plan) (number : Nat) : List Text → List (Text × Nat)
  | [] => []
  | url :: others =>
    ((List.range' number (p.config.maxAttempts - number)).map fun n => (url, n)) ++ attempts p others

theorem attemptsFrom_zero (p : Plan) (sources : List Text) :
    attemptsFrom p 0 sources = attempts p sources := by
  cases sources with
  | nil => rfl
  | cons url others => simp [attemptsFrom, attempts, List.range_eq_range']

/-- Behind an attempt come those that the cycle goes on with. -/
theorem attemptsFrom_cons {number : Nat} (hnumber : number < p.config.maxAttempts) (url : Text)
    (others : List Text) :
    attemptsFrom p number (url :: others) = (url, number) ::
      if number + 1 < p.config.maxAttempts then attemptsFrom p (number + 1) (url :: others)
      else attemptsFrom p 0 others := by
  have hlength : p.config.maxAttempts - number = p.config.maxAttempts - (number + 1) + 1 := by omega
  rw [attemptsFrom, hlength, List.range'_succ]
  split
  · rfl
  next hlast =>
    have hnone : p.config.maxAttempts - (number + 1) = 0 := by omega
    simp [hnone, attemptsFrom_zero]

/-- The search takes its course from any attempt on. The induction is on the attempts that are left;
a delay exists after each of them since there are at most 1024 for a source. -/
theorem plays_pursue (hattempts : p.config.maxAttempts ≤ 1024) (old : Option CacheEntry)
    {left : List (Text × Nat)} {number : Nat} {sources : List Text}
    (hnumber : number < p.config.maxAttempts) (hleft : attemptsFrom p number sources = left)
    (error : Option Text) (downloads : Nat) :
    Plays p s downloads (pursue p true old error number sources)
      (search (decode p) p s old error downloads left) := by
  induction left generalizing number sources error downloads with
  | nil =>
    cases sources with
    | nil => exact plays_fallBack downloads old error
    | cons url others => simp [attemptsFrom_cons hnumber] at hleft
  | cons attempt left ih =>
    cases sources with
    | nil => simp [attemptsFrom] at hleft
    | cons url others =>
      rw [attemptsFrom_cons hnumber] at hleft
      obtain ⟨rfl, hrest⟩ := List.cons.inj hleft
      have hnext : ∀ error, Plays p s (downloads + 1) (next p true ⟨url, number, others, old⟩ error)
          (search (decode p) p s old (some error) (downloads + 1) left) := by
        intro error
        unfold next Attempt.hasNext
        by_cases hmore : number + 1 < p.config.maxAttempts
        · simp only [hmore, if_true, decide_true] at hrest ⊢
          exact ih hmore hrest _ _
        · simp only [hmore, if_false, decide_false, Bool.false_eq_true] at hrest ⊢
          exact ih p.config.maxAttempts_pos hrest _ _
      refine .waiting ?_
      simp only [countFetch, Surroundings.reply]
      cases s.download downloads with
      | ok payload => exact .consider (fun entries => .waiting (plays_merge ..)) (hnext _)
      | error f =>
        simp only [step, retry, Attempt.hasNext]
        by_cases hmore : number + 1 < p.config.maxAttempts
        · have hdelay : p.config.backoff? number = some (p.config.delay number) :=
            p.config.backoff?_of_lt (by omega)
          simp only [hmore, hdelay, if_true, decide_true]
          exact .waiting (hnext _)
        · simp only [hmore, if_false, decide_false, Bool.false_eq_true]
          exact hnext _

theorem plays_course (hattempts : p.config.maxAttempts ≤ 1024) (sources : List Text) :
    Plays p s 0 (.waiting (begin p sources).1 (begin p sources).2)
      (course (decode p) p s sources) := by
  have hsearch : ∀ old, Plays p s 0 (pursue p true old none 0 sources)
      (search (decode p) p s old none 0 (attempts p sources)) := fun old =>
    plays_pursue hattempts old p.config.maxAttempts_pos (attemptsFrom_zero p sources) none 0
  have huse : Plays p s 0 (useCache p true sources s.entry s.now)
      (fromCache (decode p) p s sources) := by
    unfold useCache fromCache
    cases s.entry with
    | none => exact hsearch none
    | some e =>
      dsimp only
      split
      · exact .consider (plays_merge 0 _) (hsearch none)
      · exact hsearch (some e)
  exact .waiting huse

end Plays

/-! ## Lists beyond a limit -/

/-- Whether a payload is in the cache or comes from a download. -/
def Surroundings.Holds (s : Surroundings H) (payload : Bytes) : Prop :=
  (∃ e, s.entry = some e ∧ e.payload = payload) ∨ ∃ n, s.download n = .ok payload

/-- One course breaks off at a payload beyond a limit, after demands that another begins with. -/
def BreaksOff (p : Plan) (s : Surroundings H) (c d : Course H) : Prop :=
  ∃ payload limit, s.Holds payload ∧ decode p payload = .error limit ∧
    c.last = .failed limit.toFailure ∧ c.demands <+: d.demands

def Follows (p : Plan) (s : Surroundings H) (c d : Course H) : Prop := c = d ∨ BreaksOff p s c d

section Limits

variable {p : Plan} {s : Surroundings H}

theorem decodeOrRefuse_of_decode {payload : Bytes} {entries? : Option (List Entry)}
    (h : decode p payload = .ok entries?) : decodeOrRefuse p payload = .ok entries? := by
  unfold decode at h
  unfold decodeOrRefuse
  cases hpayload : Payload.decode p.config.minPatternLength payload with
  | ok entries =>
    rw [hpayload] at h
    exact h
  | error f =>
    cases hlimit : f.limit? with
    | some l => simp [hpayload, hlimit] at h
    | none =>
      simp only [hpayload, hlimit] at h
      exact h

theorem Follows.after {c d : Course H} (h : Follows p s c d) (demands : List Demand) :
    Follows p s (c.after demands) (d.after demands) := by
  obtain rfl | ⟨payload, limit, hholds, hlimit, hlast, hbegins⟩ := h
  · exact .inl rfl
  · exact .inr ⟨payload, limit, hholds, hlimit, hlast, (List.prefix_append_right_inj _).2 hbegins⟩

theorem Follows.judged {payload : Bytes} (hholds : s.Holds payload) (use : List Entry → Course H)
    {c d : Course H} (hother : Follows p s c d) :
    Follows p s (judged (decode p) payload use c) (judged (decodeOrRefuse p) payload use d) := by
  unfold Cycle.judged
  cases hpayload : decode p payload with
  | error limit => exact .inr ⟨payload, limit, hholds, hpayload, rfl, List.nil_prefix⟩
  | ok entries? =>
    rw [decodeOrRefuse_of_decode hpayload]
    cases entries? with
    | none => exact hother
    | some entries => exact .inl rfl

theorem follows_search {old : Option CacheEntry} (hold : ∀ e, old = some e → s.Holds e.payload)
    (left : List (Text × Nat)) : ∀ error downloads,
      Follows p s (search (decode p) p s old error downloads left)
        (search (decodeOrRefuse p) p s old error downloads left) := by
  induction left with
  | nil =>
    intro error downloads
    cases old with
    | none => exact .inl rfl
    | some e => exact .judged (hold e rfl) _ (.inl rfl)
  | cons attempt left ih =>
    intro error downloads
    refine Follows.after ?_ [_]
    cases hdownload : s.download downloads with
    | error f => exact (ih _ _).after _
    | ok payload => exact .judged (.inr ⟨_, hdownload⟩) _ (ih _ _)

theorem follows_course (sources : List Text) :
    Follows p s (course (decode p) p s sources) (course (decodeOrRefuse p) p s sources) := by
  refine Follows.after ?_ [_]
  have hnone : Follows p s (search (decode p) p s none none 0 (attempts p sources))
      (search (decodeOrRefuse p) p s none none 0 (attempts p sources)) :=
    follows_search (by simp) _ none 0
  unfold fromCache
  cases hentry : s.entry with
  | none => exact hnone
  | some e =>
    have hholds : s.Holds e.payload := .inl ⟨e, hentry, rfl⟩
    dsimp only
    split
    · exact .judged hholds _ hnone
    · refine follows_search (fun e' he' => ?_) _ none 0
      rwa [← Option.some.inj he']

/-- A course that ends otherwise than by a failure. -/
def Course.Regular (c : Course H) : Prop := ∀ f, c.last ≠ .failed f

theorem regular_merged (origin : Origin) (entries : List Entry) :
    (merged p s origin entries).Regular := by
  unfold merged offer
  dsimp only
  split
  · exact nofun
  · simp only [Course.Regular, Course.after, Bool.not_true, Bool.false_eq_true, if_false]
    split <;> exact nofun

theorem regular_judged (payload : Bytes) {use : List Entry → Course H} {otherwise : Course H}
    (huse : ∀ entries, (use entries).Regular) (hother : otherwise.Regular) :
    (judged (decodeOrRefuse p) payload use otherwise).Regular := by
  unfold judged decodeOrRefuse
  cases Payload.decode p.config.minPatternLength payload with
  | error f => exact hother
  | ok entries => exact huse entries

theorem regular_search (old : Option CacheEntry) (left : List (Text × Nat)) :
    ∀ error downloads, (search (decodeOrRefuse p) p s old error downloads left).Regular := by
  induction left with
  | nil =>
    intro error downloads
    cases old with
    | none => exact nofun
    | some e => exact regular_judged _ (regular_merged _) nofun
  | cons attempt left ih =>
    intro error downloads
    unfold search
    cases s.download downloads with
    | error f => exact ih _ _
    | ok payload => exact regular_judged payload (fun entries => regular_merged _ entries) (ih _ _)

/-- The documented course does not fail. -/
theorem regular_course (sources : List Text) : (course (decodeOrRefuse p) p s sources).Regular := by
  unfold course fromCache
  cases s.entry with
  | none => exact regular_search none _ none 0
  | some e =>
    dsimp only
    split
    · exact regular_judged e.payload (regular_merged _) (regular_search none _ none 0)
    · exact regular_search (some e) _ none 0

end Limits

/-- Whatever comes back, a cycle takes the course of `decode` and no other. That is the documented
course exactly unless it breaks off at a payload beyond a limit. -/
theorem plays_begin_iff (p : Plan) (hattempts : p.config.maxAttempts ≤ 1024) (s : Surroundings H)
    (sources : List Text) :
    (∀ c, Plays p s 0 (.waiting (begin p sources).1 (begin p sources).2) c ↔
      c = course (decode p) p s sources) ∧
    (course (decode p) p s sources = course (decodeOrRefuse p) p s sources ↔
      ¬ BreaksOff p s (course (decode p) p s sources) (course (decodeOrRefuse p) p s sources)) := by
  have hplays := plays_course (p := p) (s := s) hattempts sources
  refine ⟨fun c => ⟨fun hc => hc.unique hplays, fun hc => hc ▸ hplays⟩, fun hagrees => ?_, fun hwhole => ?_⟩
  · rintro ⟨payload, limit, -, -, hlast, -⟩
    rw [hagrees] at hlast
    exact regular_course sources _ hlast
  · exact (follows_course sources).resolve_right hwhole

/-! ### Two attempts at one source -/

def twoAttempts : Plan where
  config := {
    embeddedChunkSize := 2, downloadedChunkSize := 2, minPatternLength := 2
    fetchTimeout := .ofInt 30, maxAttempts := 2, backoffBase := .zero, backoffMax := .ofInt 30
    cacheMaxAgeDays := .ofInt 7, cacheKey := "list".toList, sources := []
    embeddedChunkSize_pos := Nat.two_pos
    downloadedChunkSize_pos := Nat.two_pos
    minPatternLength_pos := Nat.two_pos
    maxAttempts_pos := Nat.two_pos }
  tables := {
    filterTexts := [], blockedDomains := [], pathRecords := [], hideRecords := [], suffixes := .unknown }

theorem attempts_twoAttempts (url : Text) : attempts twoAttempts [url] = [(url, 0), (url, 1)] := rfl

theorem maxAttempts_twoAttempts : twoAttempts.config.maxAttempts = 2 := rfl

theorem cacheKey_twoAttempts : twoAttempts.config.cacheKey = "list".toList := rfl

theorem fetchTimeout_twoAttempts : twoAttempts.config.fetchTimeout = .ofInt 30 := by
  simp only [twoAttempts]

/-- No list in the cache, a first download, and others without content. -/
def firstThenNothing (first : Except Failure Bytes) : Surroundings Unit where
  entry := none
  now := .zero
  download n := if n = 0 then first else .ok []
  compile _ := {}
  accepts := true

theorem course_firstThenNothing (url : Text) (f : Failure) :
    course (decode twoAttempts) twoAttempts (firstThenNothing (.error f)) [url] =
      ⟨[.readCache "list".toList, .fetch url (.ofInt 30), .sleep (twoAttempts.config.delay 0),
        .fetch url (.ofInt 30)], .finished (.exhausted (some (unreadable url)))⟩ := by
  have hempty : decode twoAttempts [] = .ok none := rfl
  simp only [course, fromCache, attempts_twoAttempts, search, firstThenNothing, if_true,
    Nat.zero_add, Nat.one_ne_zero, if_false, judged, hempty, lastResort, maxAttempts_twoAttempts,
    Nat.one_lt_two, Course.after, cacheKey_twoAttempts, fetchTimeout_twoAttempts, List.append_nil,
    List.cons_append, List.nil_append]

/-- There is a delay after a failure and none after a list that cannot be read. -/
theorem plays_begin_iff_firstThenNothing :
    twoAttempts.config.maxAttempts ≤ 1024 ∧
      ∀ c, Plays twoAttempts (firstThenNothing (.error ⟨"OSError".toList, []⟩)) 0
        (.waiting (begin twoAttempts ["a".toList]).1 (begin twoAttempts ["a".toList]).2) c ↔
          c = ⟨[.readCache "list".toList, .fetch "a".toList (.ofInt 30),
            .sleep (twoAttempts.config.delay 0), .fetch "a".toList (.ofInt 30)],
            .finished (.exhausted (some (unreadable "a".toList)))⟩ := by
  have hcourse := (plays_begin_iff twoAttempts (by decide)
    (firstThenNothing (.error ⟨"OSError".toList, []⟩)) ["a".toList]).1
  rw [course_firstThenNothing] at hcourse
  exact ⟨by decide, hcourse⟩

/-- An array of an object with one number, all sevens, one more than told. -/
def sevens (n : Nat) : Bytes :=
  Text.encodeUtf8 (Json.numeralFirst ('7' :: List.replicate n '7') [']'])

theorem payloadDecode_sevens (floor : Nat) {n : Nat} (hlong : Limit.digitLimit ≤ n) :
    Payload.decode floor (sevens n) = .error (.beyond (.digits (n + 1))) := by
  have hdigits : ∀ c ∈ '7' :: List.replicate n '7', c.isDigit := by simp +decide
  unfold sevens
  rw [Payload.decode_of_long floor (by decide) hdigits (by simpa using hlong)]
  simp

theorem course_sevens {n : Nat} (hlong : Limit.digitLimit ≤ n) (url : Text) :
    course (decode twoAttempts) twoAttempts (firstThenNothing (.ok (sevens n))) [url] =
      ⟨[.readCache "list".toList, .fetch url (.ofInt 30)],
        .failed (Limit.digits (n + 1)).toFailure⟩ := by
  have hbeyond : decode twoAttempts (sevens n) = .error (.digits (n + 1)) := by
    unfold decode
    rw [payloadDecode_sevens _ hlong]
    rfl
  simp only [course, fromCache, attempts_twoAttempts, search, firstThenNothing, if_true, judged,
    hbeyond, Course.after, cacheKey_twoAttempts, fetchTimeout_twoAttempts, List.append_nil,
    List.cons_append, List.nil_append]

theorem documentedCourse_sevens {n : Nat} (hlong : Limit.digitLimit ≤ n) (url : Text) :
    course (decodeOrRefuse twoAttempts) twoAttempts (firstThenNothing (.ok (sevens n))) [url] =
      ⟨[.readCache "list".toList, .fetch url (.ofInt 30), .fetch url (.ofInt 30)],
        .finished (.exhausted (some (unreadable url)))⟩ := by
  have hrefused : decodeOrRefuse twoAttempts (sevens n) = .ok none := by
    unfold decodeOrRefuse
    rw [payloadDecode_sevens _ hlong]
    rfl
  have hempty : decodeOrRefuse twoAttempts [] = .ok none := rfl
  simp only [course, fromCache, attempts_twoAttempts, search, firstThenNothing, if_true,
    Nat.zero_add, Nat.one_ne_zero, if_false, judged, hrefused, hempty, lastResort, Course.after,
    cacheKey_twoAttempts, fetchTimeout_twoAttempts, List.append_nil, List.cons_append,
    List.nil_append]

/-- A list with a number of 4301 digits ends the cycle, with one more attempt to go. -/
theorem breaks_off_at_sevens :
    course (decodeOrRefuse twoAttempts) twoAttempts (firstThenNothing (.ok (sevens 4300)))
        ["a".toList] =
      ⟨[.readCache "list".toList, .fetch "a".toList (.ofInt 30), .fetch "a".toList (.ofInt 30)],
        .finished (.exhausted (some "invalid payload from a".toList))⟩ ∧
    (∀ c, Plays twoAttempts (firstThenNothing (.ok (sevens 4300))) 0
        (.waiting (begin twoAttempts ["a".toList]).1 (begin twoAttempts ["a".toList]).2) c →
      c = ⟨[.readCache "list".toList, .fetch "a".toList (.ofInt 30)],
        .failed (Limit.digits 4301).toFailure⟩) ∧
    ¬ Plays twoAttempts (firstThenNothing (.ok (sevens 4300))) 0
      (.waiting (begin twoAttempts ["a".toList]).1 (begin twoAttempts ["a".toList]).2)
      (course (decodeOrRefuse twoAttempts) twoAttempts (firstThenNothing (.ok (sevens 4300)))
        ["a".toList]) := by
  have hlong : Limit.digitLimit ≤ 4300 := by decide
  have hplays := plays_course (s := firstThenNothing (.ok (sevens 4300))) (p := twoAttempts)
    (by decide) ["a".toList]
  rw [course_sevens hlong] at hplays
  refine ⟨documentedCourse_sevens hlong _, fun c hc => hc.unique hplays, fun hc => ?_⟩
  have hsame := hc.unique hplays
  rw [documentedCourse_sevens hlong, Course.mk.injEq] at hsame
  exact absurd hsame.2 nofun

end Cycle

end ContentFilter
