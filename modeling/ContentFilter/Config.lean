import ContentFilter.Number.Decimal
import ContentFilter.Number.Shortest

/-! # Configuration

Sizes, retry counts and the lifetime of the cache are set once for an engine.

* `Settings`: the values as given, and the defaults.
* `Config`: values that passed `Settings.check`, with the bounds that this ensures.
* `Settings.fromEnvironment`: values from variables.
* `Config.backoff?`: how long to wait after an attempt that failed.
-/

set_option autoImplicit false

namespace ContentFilter

open Text

/-! ## Values as given -/

/-- The values as given. Times are in seconds, except the age of the cache. -/
structure Settings where
  embeddedChunkSize : Int := 200
  downloadedChunkSize : Int := 50000
  minPatternLength : Int := 3
  fetchTimeout : Binary64 := .ofInt 30
  maxAttempts : Int := 3
  backoffBase : Binary64 := .ofInt 1
  backoffMax : Binary64 := .ofInt 30
  cacheMaxAgeDays : Binary64 := .ofInt 7
  cacheKey : Text := "easylist_content_blocker.json".toList
  sources : List Text :=
    ["https://easylist-downloads.adblockplus.org/easylist_content_blocker.json".toList]

/-- Why values cannot be used. -/
inductive ConfigFault where
  | belowOne (name : Text) (value : Int)
  | notPositive (name : Text) (value : Binary64)
  | negativeBackoff
  | emptyKey
  | unreadable (name : Text)
  deriving DecidableEq

def ConfigFault.message : ConfigFault → Text
  | belowOne name n => name ++ " must be >= 1, got ".toList ++ ofInt n
  | notPositive name x => name ++ " must be > 0, got ".toList ++ x.toText
  | negativeBackoff => "backoff delays must be >= 0".toList
  | emptyKey => "cache_key must not be empty".toList
  | unreadable v => v

/-! ## Checked values -/

/-- Values within their bounds. -/
structure Config where
  embeddedChunkSize : Nat
  downloadedChunkSize : Nat
  minPatternLength : Nat
  fetchTimeout : Binary64
  maxAttempts : Nat
  backoffBase : Binary64
  backoffMax : Binary64
  cacheMaxAgeDays : Binary64
  cacheKey : Text
  sources : List Text
  embeddedChunkSize_pos : 0 < embeddedChunkSize
  downloadedChunkSize_pos : 0 < downloadedChunkSize
  minPatternLength_pos : 0 < minPatternLength
  maxAttempts_pos : 0 < maxAttempts

def positive (name : Text) (n : Int) : Except ConfigFault { m : Nat // 0 < m } :=
  if h : n < 1 then .error (.belowOne name n) else .ok ⟨n.toNat, by omega⟩

def positiveReal (name : Text) (x : Binary64) : Except ConfigFault Binary64 :=
  if x.le .zero then .error (.notPositive name x) else .ok x

/-- The configuration with the given values, or the first fault. -/
def Settings.check (s : Settings) : Except ConfigFault Config := do
  let ⟨embedded, embedded_pos⟩ ← positive "embedded_chunk_size".toList s.embeddedChunkSize
  let ⟨downloaded, downloaded_pos⟩ ← positive "downloaded_chunk_size".toList s.downloadedChunkSize
  let ⟨attempts, attempts_pos⟩ ← positive "max_attempts".toList s.maxAttempts
  let ⟨length, length_pos⟩ ← positive "min_pattern_length".toList s.minPatternLength
  let timeout ← positiveReal "fetch_timeout".toList s.fetchTimeout
  let age ← positiveReal "cache_max_age_days".toList s.cacheMaxAgeDays
  if s.backoffBase.lt .zero || s.backoffMax.lt .zero then .error .negativeBackoff
  else if s.cacheKey.isEmpty then .error .emptyKey
  else
    .ok {
      embeddedChunkSize := embedded
      downloadedChunkSize := downloaded
      minPatternLength := length
      fetchTimeout := timeout
      maxAttempts := attempts
      backoffBase := s.backoffBase
      backoffMax := s.backoffMax
      cacheMaxAgeDays := age
      cacheKey := s.cacheKey
      sources := s.sources
      embeddedChunkSize_pos := embedded_pos
      downloadedChunkSize_pos := downloaded_pos
      minPatternLength_pos := length_pos
      maxAttempts_pos := attempts_pos }

/-! ## Times -/

def secondsOfDays (days : Binary64) : Binary64 := days.mul (.ofInt 86400)

/-- Whether something of a given age in seconds is younger than a number of days. -/
def isFresh (maxAgeDays age : Binary64) : Bool := age.lt (secondsOfDays maxAgeDays)

/-- How long to wait after the failure of an attempt, counted from zero: the first delay, doubled
with every attempt, up to the bound. None when the factor is beyond every number. -/
def Config.backoff? (c : Config) (attempt : Int) : Option Binary64 :=
  (Binary64.ofPowerOfTwo? attempt).map fun factor => c.backoffMax.min (c.backoffBase.mul factor)

/-! ## Values from variables -/

namespace Settings

def variableStem : Text := "BLOCKENGINE_".toList

/-- The value of a variable without the white space around it; a blank one counts as missing. -/
def value? (environment : List (Text × Text)) (name : Text) : Option Text :=
  ((environment.lookup (variableStem ++ name)).map strip).filter fun v => !v.isEmpty

def numberOr {α : Type} (read : Text → Option α) (environment : List (Text × Text)) (name : Text)
    (default : α) : Except ConfigFault α :=
  match value? environment name with
  | none => .ok default
  | some v => match read v with
    | some n => .ok n
    | none => .error (.unreadable (variableStem ++ name))

def itemsOf (t : Text) : List Text := ((split ',' t).map strip).filter fun s => !s.isEmpty

/-- The values that variables hold, with defaults for those that are missing. -/
def fromEnvironment (environment : List (Text × Text)) : Except ConfigFault Settings := do
  let d : Settings := {}
  let int := fun (name : String) (n : Int) =>
    numberOr Numeral.int? environment name.toList n
  let real := fun (name : String) (x : Binary64) =>
    numberOr Numeral.real? environment name.toList x
  let embedded ← int "EMBEDDED_CHUNK_SIZE" d.embeddedChunkSize
  let downloaded ← int "DOWNLOADED_CHUNK_SIZE" d.downloadedChunkSize
  let length ← int "MIN_PATTERN_LENGTH" d.minPatternLength
  let timeout ← real "FETCH_TIMEOUT" d.fetchTimeout
  let attempts ← int "MAX_ATTEMPTS" d.maxAttempts
  let base ← real "BACKOFF_BASE" d.backoffBase
  let bound ← real "BACKOFF_MAX" d.backoffMax
  let age ← real "CACHE_MAX_AGE_DAYS" d.cacheMaxAgeDays
  .ok {
    embeddedChunkSize := embedded
    downloadedChunkSize := downloaded
    minPatternLength := length
    fetchTimeout := timeout
    maxAttempts := attempts
    backoffBase := base
    backoffMax := bound
    cacheMaxAgeDays := age
    cacheKey := (value? environment "CACHE_KEY".toList).getD d.cacheKey
    sources := ((value? environment "SOURCES".toList).map itemsOf).getD d.sources }

end Settings

end ContentFilter
