import ContentFilter.Baseline
import ContentFilter.Config
import ContentFilter.Record.Payload
import ContentFilter.RuleSet.Chunk

/-! # Rule sets

A rule set holds the records of the tables and those of a downloaded list, without repetitions and
cut into chunks. The first of equal records counts; what is downloaded never replaces a record of
the tables.

* `RuleSet`: the chunks, with the counts that go with them.
* `RuleSet.fresh`: the records of a list that are new to another one, each once.
* `RuleSet.build`: the rule set for tables and downloaded entries.
-/

set_option autoImplicit false

namespace ContentFilter

open Text

/-- What was left out in building a rule set. `parseSkipped` is the number of lines less the number
of rules, which is negative when lines hold several rules. -/
structure BuildStats where
  linesParsed : Nat := 0
  parseSkipped : Int := 0
  convertSkipped : Nat := 0
  duplicatePruned : Nat := 0
  subdomainPruned : Nat := 0
  downloadedDropped : Nat := 0
  deriving DecidableEq

/-- Whether the rules of a set are only those of the tables. -/
inductive Provenance where
  | embeddedOnly
  | enhanced
  deriving DecidableEq, Repr

def Provenance.name : Provenance → Text
  | .embeddedOnly => "embedded-only".toList
  | .enhanced => "enhanced".toList

/-- The records of the tables and of a downloaded list, in chunks. -/
structure RuleSet where
  embedded : List Chunk := []
  downloaded : List Chunk := []
  stats : BuildStats := {}
  deriving DecidableEq

namespace RuleSet

def empty : RuleSet := {}

def countRecords (chunks : List Chunk) : Nat := (chunks.flatMap Chunk.records).length

def embeddedCount (s : RuleSet) : Nat := countRecords s.embedded

def downloadedCount (s : RuleSet) : Nat := countRecords s.downloaded

def total (s : RuleSet) : Nat := s.embeddedCount + s.downloadedCount

/-- A set with downloaded chunks is enhanced. -/
def provenance (s : RuleSet) : Provenance :=
  if s.downloaded.isEmpty then .embeddedOnly else .enhanced

def chunks (s : RuleSet) : List Chunk := s.embedded ++ s.downloaded

/-! ## Repetitions -/

/-- The records of a list that are not among those seen, each at its first place. -/
def fresh (seen : List Record) : List Record → List Record
  | [] => []
  | r :: rs => if seen.contains r then fresh seen rs else r :: fresh (r :: seen) rs

/-- The number of records of a list that `fresh` leaves out. -/
def repeats (seen : List Record) : List Record → Nat
  | [] => 0
  | r :: rs => if seen.contains r then repeats seen rs + 1 else repeats (r :: seen) rs

/-! ## Building -/

def rulesOf (floor : Nat) (texts : List Text) : List Rule :=
  texts.flatMap fun t => FilterList.rules floor (lines t)

/-- The records of the tables in the order in which they count, with their repetitions, and the
number of rules and domains without a record. -/
def candidates (floor : Nat) (t : Tables) : List Record × Nat :=
  let converted := (rulesOf floor t.filterTexts).map (Record.ofRule? floor) ++
    (t.suffixes.prune t.blockedDomains).1.map Record.blockingDomain?
  (converted.filterMap id ++ t.pathRecords ++ t.hideRecords,
    (converted.filter Option.isNone).length)

/-- The record that an entry of a list gives, if it can be trusted. -/
def trusted? : Entry → Option Record
  | .record r => if r.isUsable then some r else none
  | .raw v => (Record.ofJson? v).filter Record.isUsable

def embeddedStem : Text := "embedded".toList

def downloadedStem : Text := "downloaded".toList

/-- The rule set for tables and downloaded entries. -/
def build (config : Config) (tables : Tables) (entries : List Entry) : RuleSet :=
  let floor := config.minPatternLength
  let lineCount := (tables.filterTexts.flatMap lines).length
  let (candidates, convertSkipped) := candidates floor tables
  let embedded := fresh [] candidates
  let valid := entries.filterMap trusted?
  let downloaded := fresh embedded valid
  { embedded := Chunk.cut embeddedStem config.embeddedChunkSize embedded
    downloaded := Chunk.cut downloadedStem config.downloadedChunkSize downloaded
    stats := {
      linesParsed := lineCount
      parseSkipped := lineCount - ((rulesOf floor tables.filterTexts).length : Int)
      convertSkipped := convertSkipped
      duplicatePruned := repeats [] candidates + repeats embedded valid
      subdomainPruned := (tables.suffixes.prune tables.blockedDomains).2
      downloadedDropped := (entries.filter fun e => (trusted? e).isNone).length } }

end RuleSet

end ContentFilter
