import Outbox.Broker.Code
import Outbox.Broker.Producer
import Outbox.Broker.Refusal
import Outbox.Bytes.Hex
import Outbox.Bytes.Utf8
import Outbox.Command.Arguments
import Outbox.Command.Setting
import Outbox.Command.Settings
import Outbox.Count
import Outbox.Decimal.Double
import Outbox.Decimal.Integer
import Outbox.Decimal.Layout
import Outbox.Decimal.Reading
import Outbox.Decimal.Shortest
import Outbox.Envelope.Message
import Outbox.Envelope.Topic
import Outbox.Event.Partition
import Outbox.Event.Row
import Outbox.Event.Status
import Outbox.Json.Fault
import Outbox.Json.Lexeme
import Outbox.Json.Number
import Outbox.Json.Reader
import Outbox.Json.Record
import Outbox.Json.Value
import Outbox.Json.Writer
import Outbox.Main
import Outbox.Metrics.Endpoint
import Outbox.Metrics.Exchange
import Outbox.Metrics.Exposition
import Outbox.Metrics.Registry
import Outbox.Metrics.Server
import Outbox.Postgres.Cell
import Outbox.Postgres.ClaimedRow
import Outbox.Postgres.Client
import Outbox.Postgres.Condition
import Outbox.Postgres.Parameter
import Outbox.Postgres.Session
import Outbox.Postgres.Statement
import Outbox.Proofs.Count
import Outbox.Proofs.Relay.Conduct
import Outbox.Proofs.Relay.Evidence
import Outbox.Proofs.Relay.Fleet
import Outbox.Proofs.Relay.Ledger
import Outbox.Proofs.Relay.Posting
import Outbox.Proofs.Relay.Scripted
import Outbox.Proofs.Relay.Surroundings
import Outbox.Proofs.Relay.Terminal
import Outbox.Proofs.Relay.Undelivered
import Outbox.Proofs.Snowflake.Callers
import Outbox.Proofs.Snowflake.Stamp
import Outbox.Proofs.Store.History
import Outbox.Proofs.Store.Lookup
import Outbox.Proofs.Store.Marking
import Outbox.Relay.Batch
import Outbox.Relay.Burial
import Outbox.Relay.Failure
import Outbox.Relay.Program
import Outbox.Relay.Tick
import Outbox.Retry.Attempts
import Outbox.Retry.Policy
import Outbox.Service.Breakdown
import Outbox.Service.Database
import Outbox.Service.Demo
import Outbox.Service.Startup
import Outbox.Simulation.Dispatcher
import Outbox.Simulation.Script
import Outbox.Simulation.World
import Outbox.Snowflake.Contention
import Outbox.Snowflake.Generator
import Outbox.Snowflake.Layout
import Outbox.Store.Cause
import Outbox.Store.Disruption
import Outbox.Store.Fault
import Outbox.Store.Request
import Outbox.Store.Table
import Outbox.Text.Quoted
import Outbox.Text.Unseen
import Outbox.Text.Uuid
import Outbox.Time.Calendar
import Outbox.Time.Instant
import Outbox.Time.Span
import Outbox.Time.Timestamp
import Outbox.Proofs.Relay.Custody
import Outbox.Proofs.Relay.Chronicle
import Outbox.Proofs.Relay.Recovery
import Outbox.Proofs.Relay.Supersession
import Outbox.Proofs.Relay.Worlds
import Outbox.Proofs.Relay.Watch
import Outbox.Proofs.Relay.Validated
import Outbox.Proofs.Relay.Endurance
import Outbox.Proofs.Json.Writing
import Outbox.Proofs.Store.Lifecycle
import Outbox.Proofs.Store.Queue
import Outbox.Proofs.Store.Partitions
import Outbox.Proofs.Store.Shares
import Outbox.Proofs.Relay.Tickets
import Outbox.Proofs.Relay.UnusedTickets
import Outbox.Proofs.Store.Attempts
import Outbox.Proofs.Relay.Numbering
import Outbox.Proofs.Relay.Ceiling
import Outbox.Proofs.Relay.Backlog
import Outbox.Proofs.Relay.Counters
import Outbox.Proofs.Postgres.Claimable
import Outbox.Proofs.Metrics.Labels
import Outbox.Proofs.Relay.Bookkeeping
import Outbox.Proofs.Bytes.Utf8
import Outbox.Proofs.Json.Strings
import Outbox.Proofs.Json.Numbers
import Outbox.Proofs.Json.Reading
import Outbox.Proofs.Decimal.Rounding
import Outbox.Proofs.Decimal.Shortest
import Outbox.Proofs.Json.Entries
import Outbox.Proofs.Json.Doubles
import Outbox.Proofs.Json.Layouts
import Outbox.Proofs.Json.Parsed
import Outbox.Proofs.Envelope.Decoding
import Outbox.Proofs.Time.Dates
import Outbox.Proofs.Time.Timestamps
import Outbox.Proofs.Json.Records
import Outbox.Proofs.Snowflake.Calls
import Outbox.Proofs.Snowflake.Decoding
import Outbox.Proofs.Relay.Fates
import Outbox.Proofs.Relay.Timetable
import Outbox.Proofs.Retry.Backoff
import Outbox.Proofs.Retry.Schedule
import Outbox.Proofs.Time.Shifts
import Outbox.Proofs.Store.Updates
import Outbox.Proofs.Relay.Rides
import Outbox.Proofs.Relay.Endings
import Outbox.Proofs.Relay.Stamps
import Outbox.Proofs.Bytes.Lossy
import Outbox.Proofs.Envelope.Letters
import Outbox.Proofs.Postgres.Columns
import Outbox.Proofs.Postgres.Exchanges
import Outbox.Proofs.Postgres.Parking
import Outbox.Proofs.Postgres.Wording
import Outbox.Proofs.Postgres.Saving
import Outbox.Proofs.Postgres.RoundTrip
import Outbox.Proofs.Retry.Attempts
import Outbox.Proofs.Store.Causes
import Outbox.Proofs.Store.Truncation
import Outbox.Proofs.Bytes.Boundaries
import Outbox.Proofs.Snowflake.Leads
import Outbox.Proofs.Command.Settings
