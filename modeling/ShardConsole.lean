import ShardConsole.Config.Encoding
import ShardConsole.Config.Loading
import ShardConsole.Console.Command
import ShardConsole.Json.Parser
import ShardConsole.Json.Printer
import ShardConsole.Main
import ShardConsole.Metric.Encoding
import ShardConsole.Proofs.Pool.Sharding
import ShardConsole.Shard.Basic
import ShardConsole.Stats.Counters
import ShardConsole.Stats.Encoding
import ShardConsole.Text.Quoted
import ShardConsole.Text.Utf8
import ShardConsole.Proofs.Pool.Custody
import ShardConsole.Proofs.Pool.Load
import ShardConsole.Proofs.Pool.Progress
import ShardConsole.Proofs.Pool.Departures
import ShardConsole.Proofs.Pool.PartialListings
import ShardConsole.Proofs.Pool.Independence
import ShardConsole.Proofs.Pool.PartialDeletions
import ShardConsole.Proofs.Shard.Deletions
import ShardConsole.Proofs.Shard.Aggregation
import ShardConsole.Proofs.Metric.WrittenTags
import ShardConsole.Proofs.Shard.SharedEntries
import ShardConsole.Proofs.Shard.Records
import ShardConsole.Proofs.Pool.ConcurrentDeletions
import ShardConsole.Proofs.Pool.Signals
import ShardConsole.Proofs.Pool.Execution
import ShardConsole.Proofs.Pool.Failures
import ShardConsole.Proofs.Pool.Survivors
import ShardConsole.Proofs.Console.Framing
import ShardConsole.Proofs.Console.SessionRun
import ShardConsole.Proofs.Console.Dialogue
import ShardConsole.Proofs.Console.Action
import ShardConsole.Proofs.Console.Seats
import ShardConsole.Proofs.Console.Conversations
import ShardConsole.Proofs.Console.Findings
import ShardConsole.Proofs.Console.Shutdown
import ShardConsole.Proofs.Console.Reading
import ShardConsole.Proofs.Console.Capacity
import ShardConsole.Proofs.Console.Grammar
import ShardConsole.Proofs.Console.MendedLines
import ShardConsole.Proofs.Console.Replies
import ShardConsole.Proofs.Console.LostConnections
import ShardConsole.Proofs.Console.IdleDeadline
import ShardConsole.Proofs.Shard.Counters
import ShardConsole.Proofs.Shard.Coherence
import ShardConsole.Proofs.Stats.Snapshots
import ShardConsole.Proofs.Config.Loading
import ShardConsole.Proofs.Json.RoundTrip
