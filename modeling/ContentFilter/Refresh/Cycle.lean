import ContentFilter.Refresh.Demand
import ContentFilter.RuleSet.Build

/-! # The refresh cycle

A cycle looks for a downloaded list and adds its rules to those of the tables. A fresh list in the
cache is used at once. Otherwise the sources are tried in order, each up to a number of times, with
growing delays after failed downloads. A list that can be read is put into the cache, merged and
compiled. When every source fails, an old list in the cache is better than none.

Whether the session that started the cycle still lasts is asked anew in every step.

* `Outcome`: how a cycle ends.
* `Cycle.Phase`: what a cycle waits for.
* `Cycle.step`: how it goes on with a reply.
-/

set_option autoImplicit false

namespace ContentFilter

open Text

/-! ## Outcomes -/

/-- Where a list came from: the cache, within its lifetime or beyond it, or an address. -/
inductive Origin where
  | cache (stale : Bool)
  | download (url : Text)
  deriving DecidableEq

inductive Useless where
  | nothingNew
  | noneCompiled
  deriving DecidableEq

/-- How a cycle ends: its rules were published, its list was of no use, every source failed, the
session ended, or another cycle was running. -/
inductive Outcome where
  | published (origin : Origin) (records : Nat)
  | useless (origin : Origin) (reason : Useless)
  | exhausted (error : Option Text)
  | sessionEnded
  | coalesced
  deriving DecidableEq

namespace Outcome

def success : Outcome → Bool
  | published _ _ => true
  | _ => false

def origin? : Outcome → Option Origin
  | published o _ => some o
  | useless o _ => some o
  | _ => none

def source? (o : Outcome) : Option Text :=
  o.origin?.map fun origin => match origin with
    | .cache _ => "cache".toList
    | .download url => url

def fromCache (o : Outcome) : Bool :=
  match o.origin? with
  | some (.cache _) => true
  | _ => false

def stale (o : Outcome) : Bool := o.origin? = some (.cache true)

def recordCount : Outcome → Nat
  | published _ n => n
  | _ => 0

def error? : Outcome → Option Text
  | published _ _ => none
  | useless _ .nothingNew => some "list adds no new rules".toList
  | useless _ .noneCompiled => some "no downloaded chunk compiled".toList
  | exhausted none => some "no sources configured".toList
  | exhausted (some e) => some e
  | sessionEnded => some "engine session ended".toList
  | coalesced => some "refresh already in flight".toList

end Outcome

/-! ## Phases -/

namespace Cycle

/-- What a cycle goes by: the configuration and the tables of the rule set. -/
structure Plan where
  config : Config
  tables : Tables

/-- An attempt at a source: its number, counted from zero, the sources behind it, and the old list in
the cache. -/
structure Attempt where
  url : Text
  number : Nat
  others : List Text
  old : Option CacheEntry

inductive Phase where
  | reading (sources : List Text)
  | fetching (attempt : Attempt)
  | sleeping (attempt : Attempt) (error : Text)
  | writing (url : Text) (entries : List Entry)
  | compiling (origin : Origin) (ruleSet : RuleSet)

/-- How a step goes on: the cycle waits for something, has ended, offers a rule set to be published
and ends with that, fails, or takes no notice of a reply to something else. -/
inductive Progress (H : Type) where
  | waiting (demand : Demand) (phase : Phase)
  | finished (outcome : Outcome)
  | offered (ruleSet : RuleSet) (result : CompileResult H) (outcome : Outcome)
  | failed (failure : Failure)
  | unmoved

variable {H : Type}

/-! ## Merging -/

/-- The entries of a list, if it is not refused. -/
def decode (p : Plan) (payload : Bytes) : Except Limit (Option (List Entry)) :=
  match Payload.decode p.config.minPatternLength payload with
  | .ok entries => .ok (some entries)
  | .error f => match f.limit? with
    | some l => .error l
    | none => .ok none

/-- Goes on with the entries of a list, or without them if it is refused. Beyond a limit the cycle
fails. -/
@[macro_inline]
def consider (p : Plan) (payload : Bytes) (use : List Entry → Progress H)
    (otherwise : Progress H) : Progress H :=
  match decode p payload with
  | .ok (some entries) => use entries
  | .ok none => otherwise
  | .error l => .failed l.toFailure

/-- Builds the rule set with the entries of a list and has its downloaded chunks compiled. -/
def merge (p : Plan) (current : Bool) (origin : Origin) (entries : List Entry) : Progress H :=
  let ruleSet := RuleSet.build p.config p.tables entries
  if ruleSet.downloaded.isEmpty then .finished (.useless origin .nothingNew)
  else if !current then .finished .sessionEnded
  else .waiting (.compile ruleSet.downloaded) (.compiling origin ruleSet)

/-- Offers what has been compiled. `accepts` tells whether it will be taken. -/
def offer (current accepts : Bool) (origin : Origin) (ruleSet : RuleSet)
    (result : CompileResult H) : Progress H :=
  if !current then .finished .sessionEnded
  else if result.handles.isEmpty then .finished (.useless origin .noneCompiled)
  else .offered ruleSet result
    (if accepts then .published origin ruleSet.downloadedCount else .sessionEnded)

/-! ## Attempts -/

/-- Ends the search for a source; an old list in the cache is used unless it is refused. -/
def fallBack (p : Plan) (current : Bool) (old : Option CacheEntry) (error : Option Text) :
    Progress H :=
  let otherwise := .finished (.exhausted error)
  match old with
  | some e => consider p e.payload (merge p current (.cache true)) otherwise
  | none => otherwise

/-- Tries the sources from the first on, whose attempts start at a number. -/
def pursue (p : Plan) (current : Bool) (old : Option CacheEntry) (error : Option Text)
    (number : Nat) : List Text → Progress H
  | [] => fallBack p current old error
  | url :: others =>
    if !current then .finished .sessionEnded
    else .waiting (.fetch url p.config.fetchTimeout) (.fetching ⟨url, number, others, old⟩)

/-- Whether a source is to be tried again after an attempt. -/
def Attempt.hasNext (p : Plan) (a : Attempt) : Bool := a.number + 1 < p.config.maxAttempts

/-- Goes on after an attempt that came to nothing: with the same source or with the next one. -/
def next (p : Plan) (current : Bool) (a : Attempt) (error : Text) : Progress H :=
  if a.hasNext p then pursue p current a.old (some error) (a.number + 1) (a.url :: a.others)
  else pursue p current a.old (some error) 0 a.others

def delayTooLong : Failure := ⟨"OverflowError".toList, "int too large to convert to float".toList⟩

/-- Goes on after a download that failed; there is a delay before the same source is tried again. -/
def retry (p : Plan) (current : Bool) (a : Attempt) (error : Text) : Progress H :=
  if a.hasNext p then
    match p.config.backoff? a.number with
    | some delay => .waiting (.sleep delay) (.sleeping a error)
    | none => .failed delayTooLong
  else next p current a error

def unreadable (url : Text) : Text := "invalid payload from ".toList ++ url

/-- Goes on with a downloaded payload; one that can be read is put into the cache. -/
def receive (p : Plan) (current : Bool) (a : Attempt) (payload : Bytes) : Progress H :=
  consider p payload
    (fun entries => .waiting (.writeCache p.config.cacheKey payload) (.writing a.url entries))
    (next p current a (unreadable a.url))

/-- Goes on with what the cache holds. A list within its lifetime that cannot be read is not used
again. -/
def useCache (p : Plan) (current : Bool) (sources : List Text) (entry : Option CacheEntry)
    (now : Binary64) : Progress H :=
  match entry with
  | none => pursue p current none none 0 sources
  | some e =>
    if isFresh p.config.cacheMaxAgeDays (now.sub e.fetchedAt) then
      consider p e.payload (merge p current (.cache false)) (pursue p current none none 0 sources)
    else pursue p current (some e) none 0 sources

/-! ## Steps -/

def begin (p : Plan) (sources : List Text) : Demand × Phase :=
  (.readCache p.config.cacheKey, .reading sources)

/-- How a cycle goes on with a reply. `current` tells whether the session lasts, `accepts` whether
rules that are offered will be taken. A failed download is one more attempt; any other failure
ends the cycle. -/
def step (p : Plan) (current accepts : Bool) : Phase → Reply H → Progress H
  | .reading sources, .cached entry now => useCache p current sources entry now
  | .fetching a, .fetched payload => receive p current a payload
  | .fetching a, .raised f => retry p current a f.describe
  | .sleeping a error, .slept => next p current a error
  | .writing url entries, .written => merge p current (.download url) entries
  | .compiling origin ruleSet, .compiled result => offer current accepts origin ruleSet result
  | _, .raised f => .failed f
  | _, _ => .unmoved

end Cycle

end ContentFilter
