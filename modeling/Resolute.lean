import Resolute.LTS.Basic
import Resolute.LTS.Tally
import Resolute.Conn.Cache
import Resolute.Conn.Pipelined
import Resolute.Conn.Isolation
import Resolute.Conn.Release
import Resolute.Client.Atomic
import Resolute.Client.Reply
import Resolute.Client.Guard
import Resolute.Conn.Backpressure
import Resolute.Conn.Resync
import Resolute.Client.Prepared
import Resolute.Conn.Statements
import Resolute.Wire.Read
import Resolute.Conn.PgPipeline
import Resolute.Pool.Basic
import Resolute.Pool.Moves
import Resolute.Pool.Conservation
import Resolute.Pool.Capacity
import Resolute.Pool.Waiters
import Resolute.Pool.Drain
import Resolute.Pool.Final
import Resolute.Pool.Hygiene
import Resolute.Pool.AsyncWire
import Resolute.Wire.Receive
import Resolute.Auth.Startup
import Resolute.Conn.Handover
import Resolute.Conn.Liveness
import Resolute.Conn.Notifications
import Resolute.Pool.AsyncPool
import Resolute.Client.Faults
import Resolute.Client.Reconnect
import Resolute.Client.Listener
import Resolute.Sql.Agreement
import Resolute.Macros.Metadata
import Resolute.Wire.Encode
import Resolute.Wire.Frontend
import Resolute.Codec.Basic
import Resolute.Codec.RoundTrip
import Resolute.Codec.Panic
import Resolute.Codec.Newtypes
import Resolute.Conn.Representation
import Resolute.Client.Stale
import Resolute.Conn.ParseOnce
import Resolute.Conn.Orphans
import Resolute.LTS.Conversation
import Resolute.Migrate.Basic
import Resolute.Migrate.Server
import Resolute.Migrate.Atomic
import Resolute.Pool.Lifetime
import Resolute.Conn.Copy
import Resolute.Pool.Tenancy
import Resolute.Conn.Timeout
import Resolute.Codec.Decimal
import Resolute.Codec.Positional
import Resolute.Codec.Numeric
import Resolute.Wire.Stream
import Resolute.Wire.Checked
import Resolute.Wire.DataRow
import Resolute.Sql.Structure
import Resolute.Rust.Str
import Resolute.Codec.ArrayText
import Resolute.Codec.Temporal
import Resolute.Rust.Radix
import Resolute.Codec.ByteaText
import Resolute.Codec.RangeText
import Resolute.Rust.Utf8
import Resolute.Client.ConnString
import Resolute.Macros.DatabaseUrl
import Resolute.Client.PipelineResults
import Resolute.Macros.Nullability
import Resolute.Client.Retry
import Resolute.Pool.Hooks
import Resolute.Client.FromRow
import Resolute.Macros.PgEnum
import Resolute.Js.Columnar
import Resolute.Migrate.Timestamp
import Resolute.Migrate.Create
import Resolute.Js.Temporal
import Resolute.Auth.StartupPacket
import Resolute.Der.Oid
import Resolute.Auth.CertHash
import Resolute.Sql.NamedCheck
import Resolute.Client.Logging
import Resolute.Js.Transaction
import Resolute.Wire.Torn
import Resolute.Conn.CopyData
import Resolute.Auth.Connect
import Resolute.Pool.Fairness
import Resolute.Pool.RoundRobin
import Resolute.Sql.Quoting
import Resolute.Client.Admin
import Resolute.Migrate.Report
import Resolute.Js.Pipeline
import Resolute.Js.RowStream
import Resolute.Rust.Signed
import Resolute.Codec.TextFormat
import Resolute.Conn.Room
import Resolute.Client.Columns
