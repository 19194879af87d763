import ContentFilter.SortedSet
import ContentFilter.Text.Lines
import ContentFilter.Text.Alphanumeric
import ContentFilter.Text.CaseFold
import ContentFilter.Text.Utf8
import ContentFilter.Regex.Parser
import ContentFilter.Url.Basic
import ContentFilter.Domain.Suffix
import ContentFilter.Domain.SuffixTable
import ContentFilter.RuleSet.Build
import ContentFilter.RuleList.Basic
import ContentFilter.Matcher
import ContentFilter.Text.Quoted
import ContentFilter.Script
import ContentFilter.Simulation.EngineRun
import ContentFilter.Simulation.RefreshRun
import ContentFilter.Storage.CacheFiles
import ContentFilter.Storage.FlagFile
import ContentFilter.Json.Parser
import ContentFilter.Json.Printer
import ContentFilter.Proofs.Json.RoundTrip
import ContentFilter.Proofs.Record.Wire
import ContentFilter.Proofs.RuleList.Decision
import ContentFilter.Proofs.RuleSet.Chunk
import ContentFilter.Proofs.RuleList.Chunking
import ContentFilter.Proofs.Engine.Run
import ContentFilter.Proofs.Engine.Session
import ContentFilter.Proofs.Engine.Chronicle
import ContentFilter.Proofs.Engine.Splice
import ContentFilter.Proofs.Regex.Match
import ContentFilter.Proofs.Text.CaseFold
import ContentFilter.Proofs.Pattern.Token
import ContentFilter.Proofs.Pattern.UrlFilter
import ContentFilter.Proofs.Record.Lossless
import ContentFilter.Proofs.RuleSet.Repeats
import ContentFilter.Proofs.Record.Numeral
import ContentFilter.Proofs.Refresh.Course
import ContentFilter.Proofs.Compile.Round
import ContentFilter.Proofs.Refresh.Publishing
import ContentFilter.Proofs.Text.Lower
import ContentFilter.Proofs.Domain.Tails
import ContentFilter.Proofs.Domain.Pruning
import ContentFilter.Proofs.Domain.Registered
import ContentFilter.Proofs.Domain.Plain
import ContentFilter.Proofs.Matcher.Coverage
import ContentFilter.Proofs.RuleSet.Contents
import ContentFilter.Proofs.Pattern.Dangling
import ContentFilter.Proofs.RuleList.FilterText
import ContentFilter.Proofs.Regex.Rename
import ContentFilter.Proofs.Pattern.Domain
import ContentFilter.Proofs.Matcher.Layers
import ContentFilter.Proofs.Refresh.Exclusion
import ContentFilter.Proofs.Text.Utf8
import ContentFilter.Proofs.Record.Payload
import ContentFilter.Proofs.RuleSet.Form
import ContentFilter.Proofs.Rule.Modifier
import ContentFilter.Proofs.Rule.Line
import ContentFilter.Proofs.Rule.Syntax
import ContentFilter.Proofs.Rule.Removal
import ContentFilter.Proofs.RuleList.Scope
import ContentFilter.Proofs.Compile.Join
import ContentFilter.Proofs.Refresh.Caching
import ContentFilter.Proofs.Engine.Standing
import ContentFilter.Proofs.Engine.Lifecycle
import ContentFilter.Proofs.Engine.Rest
import ContentFilter.Proofs.Rule.Tally
import ContentFilter.Proofs.Rule.Slashes
import ContentFilter.Proofs.Rule.Hosts
import ContentFilter.Proofs.RuleList.Restriction
import ContentFilter.Proofs.RuleList.Families
import ContentFilter.Proofs.Engine.Turn
import ContentFilter.Proofs.Engine.Notice
import ContentFilter.Proofs.Engine.Flight
import ContentFilter.Proofs.Engine.Close
import ContentFilter.Proofs.Engine.Revival
import ContentFilter.Proofs.RuleSet.Wire
import ContentFilter.Proofs.RuleSet.Partition
import ContentFilter.Proofs.Refresh.Report
import ContentFilter.Proofs.Url.Written
import ContentFilter.Proofs.Matcher.Parts
import ContentFilter.Proofs.Rule.Escape
import ContentFilter.Proofs.RuleSet.Skipped
import ContentFilter.Proofs.Engine.Counters
import ContentFilter.Proofs.Storage.FlagFile
import ContentFilter.Proofs.Storage.CacheMap
import ContentFilter.Proofs.Config.Backoff
import ContentFilter.Proofs.Domain.Grammar
import ContentFilter.Proofs.Rule.Names
