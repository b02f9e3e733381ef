import ControlPlane.Bus.Dispatcher
import ControlPlane.Bus.Envelope
import ControlPlane.Bus.Memory
import ControlPlane.Demand
import ControlPlane.Error
import ControlPlane.Etcd.Bus
import ControlPlane.Etcd.EventLog
import ControlPlane.Etcd.MachineStore
import ControlPlane.Etcd.Server
import ControlPlane.Http.EventStream
import ControlPlane.Http.MediaType
import ControlPlane.Http.Request
import ControlPlane.Http.Response
import ControlPlane.Http.Route
import ControlPlane.Lifecycle.Call
import ControlPlane.Lifecycle.Operation
import ControlPlane.Machine.Basic
import ControlPlane.Machine.Connections
import ControlPlane.Machine.Json
import ControlPlane.Main
import ControlPlane.Notifier
import ControlPlane.Number.Double
import ControlPlane.Number.Ratio
import ControlPlane.Proofs.Backoff
import ControlPlane.Proofs.Bus
import ControlPlane.Proofs.BusDispatch
import ControlPlane.Proofs.Cancellation
import ControlPlane.Proofs.Chronology
import ControlPlane.Proofs.Clock
import ControlPlane.Proofs.Contention
import ControlPlane.Proofs.Courses
import ControlPlane.Proofs.Digits
import ControlPlane.Proofs.Dispatching
import ControlPlane.Proofs.DroppedHandles
import ControlPlane.Proofs.Etcd.Changes
import ControlPlane.Proofs.Etcd.Entries
import ControlPlane.Proofs.Etcd.Loops
import ControlPlane.Proofs.Etcd.Site
import ControlPlane.Proofs.ExactlyOnce
import ControlPlane.Proofs.FanOut
import ControlPlane.Proofs.FlagReset
import ControlPlane.Proofs.Fleet.Alone
import ControlPlane.Proofs.Fleet.Arrivals
import ControlPlane.Proofs.Fleet.Basic
import ControlPlane.Proofs.Fleet.Calls
import ControlPlane.Proofs.Fleet.Ends
import ControlPlane.Proofs.Fleet.Events
import ControlPlane.Proofs.Fleet.History
import ControlPlane.Proofs.Fleet.Holds
import ControlPlane.Proofs.Fleet.News
import ControlPlane.Proofs.Fleet.Queues
import ControlPlane.Proofs.Fleet.Renaming
import ControlPlane.Proofs.Fleet.Steps
import ControlPlane.Proofs.Fleet.Tenancy
import ControlPlane.Proofs.Fleet.Versions
import ControlPlane.Proofs.Fleet.Waits
import ControlPlane.Proofs.Fleet.Writes
import ControlPlane.Proofs.Json.Forms
import ControlPlane.Proofs.Linearizability
import ControlPlane.Proofs.Messages
import ControlPlane.Proofs.NoLostWakeup
import ControlPlane.Proofs.NonInterference
import ControlPlane.Proofs.OneShot
import ControlPlane.Proofs.Polling
import ControlPlane.Proofs.RecordHistory
import ControlPlane.Proofs.Records
import ControlPlane.Proofs.Redelivery
import ControlPlane.Proofs.Registrations
import ControlPlane.Proofs.Releases
import ControlPlane.Proofs.Revisions
import ControlPlane.Proofs.Signals
import ControlPlane.Proofs.Simulation.Streams
import ControlPlane.Proofs.Simulation.Turns
import ControlPlane.Proofs.SingleAllocation
import ControlPlane.Proofs.StoreAgreement
import ControlPlane.Proofs.SubscriptionNames
import ControlPlane.Proofs.TopicIsolation
import ControlPlane.Proofs.WaitStream
import ControlPlane.Proofs.WaitingFlag
import ControlPlane.Proofs.WakeSoundness
import ControlPlane.Proofs.WatchGaps
import ControlPlane.Proofs.WatchOrder
import ControlPlane.Proofs.Wiring
import ControlPlane.Retry
import ControlPlane.Settings
import ControlPlane.Simulation.Await
import ControlPlane.Simulation.Cluster
import ControlPlane.Simulation.Fault
import ControlPlane.Simulation.Scheduler
import ControlPlane.Simulation.Script
import ControlPlane.Simulation.Work
import ControlPlane.Simulation.World
import ControlPlane.Startup.Address
import ControlPlane.Startup.Endpoint
import ControlPlane.Startup.Run
import ControlPlane.Store.Basic
import ControlPlane.Store.Memory
import ControlPlane.Table
import ControlPlane.Telemetry.Ambient
import ControlPlane.Telemetry.Directive
import ControlPlane.Telemetry.Filter
import ControlPlane.Telemetry.Log
import ControlPlane.Telemetry.Metrics
import ControlPlane.Telemetry.Pattern
import ControlPlane.Text.Alphanumeric
import ControlPlane.Text.Blank
import ControlPlane.Text.Decimal
import ControlPlane.Text.Json.Basic
import ControlPlane.Text.Json.Draft
import ControlPlane.Text.Json.Form
import ControlPlane.Text.Json.Printer
import ControlPlane.Text.Json.Reader
import ControlPlane.Text.Percent
import ControlPlane.Text.Quoted
import ControlPlane.Text.Unprintable
import ControlPlane.Time.Calendar
import ControlPlane.Time.Duration
import ControlPlane.Time.Timestamp
import ControlPlane.Uri
import ControlPlane.Uuid
import ControlPlane.Version
import ControlPlane.Wait.Call
import ControlPlane.Wake.Registry
import ControlPlane.Wake.Signal
