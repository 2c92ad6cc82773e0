import Steward.Agent
import Steward.Command.Action
import Steward.Command.Basic
import Steward.Command.Target
import Steward.Cycle.Result
import Steward.Cycle.Runner
import Steward.Decimal.Binary64
import Steward.Decimal.Shortest
import Steward.Device.Rehearsal
import Steward.Device.Table
import Steward.Error
import Steward.Format
import Steward.Hash.Sha256
import Steward.Host
import Steward.Json.Basic
import Steward.Json.Document
import Steward.Json.Format
import Steward.Json.Printer
import Steward.Logging
import Steward.Manifest
import Steward.Module.Basic
import Steward.Module.Fingerprint
import Steward.Module.Record
import Steward.Module.Set
import Steward.NameMap
import Steward.Plan.Basic
import Steward.Plan.Planner
import Steward.Proofs.Agent
import Steward.Proofs.Command.Attempts
import Steward.Proofs.Command.Rollback
import Steward.Proofs.Cycle.Cancellation
import Steward.Proofs.Cycle.ClusterConvergence
import Steward.Proofs.Cycle.Convergence
import Steward.Proofs.Cycle.Counters
import Steward.Proofs.Cycle.Course
import Steward.Proofs.Cycle.Idempotence
import Steward.Proofs.Cycle.Isolation
import Steward.Proofs.Cycle.Outage
import Steward.Proofs.Cycle.Outcomes
import Steward.Proofs.Cycle.Retries
import Steward.Proofs.Cycle.Simulation
import Steward.Proofs.Cycle.Trace
import Steward.Proofs.Decimal.Shortest
import Steward.Proofs.Device.Entries
import Steward.Proofs.Device.Memory
import Steward.Proofs.Device.Restoration
import Steward.Proofs.Device.Steady
import Steward.Proofs.Format
import Steward.Proofs.Json.Compact
import Steward.Proofs.Json.Numeral
import Steward.Proofs.Json.Reading
import Steward.Proofs.Json.Value
import Steward.Proofs.Module.Application
import Steward.Proofs.Module.Difference
import Steward.Proofs.Module.Fingerprint
import Steward.Proofs.Module.Likeness
import Steward.Proofs.Module.Listing
import Steward.Proofs.Module.Record
import Steward.Proofs.NameMap
import Steward.Proofs.Plan.Blocks
import Steward.Proofs.Plan.Observation
import Steward.Proofs.Plan.Places
import Steward.Proofs.Plan.Shape
import Steward.Proofs.Plan.Validation
import Steward.Proofs.Records
import Steward.Proofs.Restart.Backoff
import Steward.Proofs.Restart.Containment
import Steward.Proofs.Restart.Decision
import Steward.Proofs.Restart.Effect
import Steward.Proofs.Restart.Monotonicity
import Steward.Proofs.Restart.Record
import Steward.Proofs.Restart.Retention
import Steward.Proofs.Restart.Tally
import Steward.Proofs.Settings.EnvironmentFile
import Steward.Proofs.Settings.Load
import Steward.Proofs.Settings.Sources
import Steward.Proofs.Store.Interruption
import Steward.Proofs.Store.Persist
import Steward.Proofs.Store.Refinement
import Steward.Proofs.Store.Snapshot
import Steward.Proofs.Text.Digits
import Steward.Proofs.Time.Calendar
import Steward.Proofs.Time.Rfc3339
import Steward.Proofs.Yaml.Following
import Steward.Restart.Backoff
import Steward.Restart.Policy
import Steward.Restart.State
import Steward.Settings.Basic
import Steward.Settings.EnvironmentFile
import Steward.Settings.Load
import Steward.Settings.Override
import Steward.Step
import Steward.Store.Basic
import Steward.Store.File
import Steward.Store.Files
import Steward.Store.Memory
import Steward.Store.Open
import Steward.Text.Blank
import Steward.Text.Digits
import Steward.Time.Calendar
import Steward.Time.Duration
import Steward.Time.Instant
import Steward.Time.Rfc3339
import Steward.Yaml.Cursor
import Steward.Yaml.Format
import Steward.Yaml.Node
import Steward.Yaml.Plain
import Steward.Yaml.Token
import Steward.Yaml.Token.Lexer
import Steward.Yaml.Token.Scalar
