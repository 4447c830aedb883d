import Harvest.Address
import Harvest.Calendar
import Harvest.CommandLine.Arguments
import Harvest.CommandLine.Command
import Harvest.CommandLine.Disk
import Harvest.CommandLine.Execution
import Harvest.CommandLine.Layout
import Harvest.Config
import Harvest.Config.Reader
import Harvest.Coordinator
import Harvest.Cycle
import Harvest.Decimal.Shortest
import Harvest.Digest.Sha256
import Harvest.Directory
import Harvest.Dispatch
import Harvest.Event
import Harvest.Event.Batch
import Harvest.Event.Sample
import Harvest.Failure
import Harvest.Frame
import Harvest.Json
import Harvest.Json.Draft
import Harvest.Json.Literal
import Harvest.Json.Printer
import Harvest.Json.Record
import Harvest.Lighter
import Harvest.Link
import Harvest.Link.Line
import Harvest.Link.Reply
import Harvest.Link.Server
import Harvest.Link.Socks
import Harvest.Log.Entry
import Harvest.Log.Folder
import Harvest.Log.Recorder
import Harvest.Main
import Harvest.Memory.Relay
import Harvest.Memory.Sink
import Harvest.Memory.Watermarks
import Harvest.Network
import Harvest.Pacer
import Harvest.Peer
import Harvest.Record
import Harvest.Relay
import Harvest.Retry
import Harvest.Session
import Harvest.Session.Report
import Harvest.Session.Run
import Harvest.Sink
import Harvest.Site
import Harvest.Site.Reader
import Harvest.Stamp
import Harvest.Store
import Harvest.Store.Events
import Harvest.Store.Relays
import Harvest.Store.Table
import Harvest.Store.Watermarks
import Harvest.Text.Blank
import Harvest.Text.Crockford
import Harvest.Text.Graphic
import Harvest.Text.Hex
import Harvest.Text.Literal
import Harvest.Watermarks
import Harvest.Window
import Harvest.Window.Drain
import Harvest.Window.Splitter
import Harvest.Window.Stack
import Harvest.World
import Harvest.Proofs.Window.Course
import Harvest.Proofs.Window.Drain
import Harvest.Proofs.Window.Rounds
import Harvest.Proofs.Window.Fresh
import Harvest.Proofs.Event.Reading
import Harvest.Proofs.Relay.Newest
import Harvest.Proofs.Sink.Holds
import Harvest.Proofs.Store.Watermarks
import Harvest.Proofs.World.Moves
import Harvest.Proofs.Session.Frame
import Harvest.Proofs.Session.Reading
import Harvest.Proofs.Session.Accounts
import Harvest.Proofs.Session.Provenance
import Harvest.Proofs.Session.Completeness
import Harvest.Proofs.Dispatch.Tasks
import Harvest.Proofs.Coordinator.History
import Harvest.Proofs.Coordinator.Planning
import Harvest.Proofs.Coordinator.Soundness
import Harvest.Proofs.Coordinator.Cycles
import Harvest.Proofs.Coordinator.Transition
import Harvest.Proofs.Session.Yield
import Harvest.Proofs.Session.Stored
import Harvest.Proofs.Session.Attempts
import Harvest.Proofs.Session.Twins
import Harvest.Proofs.Coordinator.Isolation
import Harvest.Proofs.Session.Deeds
import Harvest.Proofs.Session.Outcomes
import Harvest.Proofs.Dispatch.Trail
import Harvest.Proofs.Dispatch.Connections
import Harvest.Proofs.Dispatch.Reports
import Harvest.Proofs.Coordinator.Reports
import Harvest.Proofs.Coordinator.Stream
import Harvest.Proofs.Session.Calls
import Harvest.Proofs.Session.WindingDown
import Harvest.Proofs.Dispatch.Shutdown
import Harvest.Proofs.Coordinator.Shutdown
import Harvest.Proofs.Event.Identity
import Harvest.Proofs.Store.Events
import Harvest.Proofs.Session.Delivery
import Harvest.Proofs.Dispatch.Deadline
import Harvest.Proofs.Coordinator.Deadline
import Harvest.Proofs.Session.Pacing
import Harvest.Proofs.Coordinator.Pacing
import Harvest.Proofs.Json.Record
import Harvest.Proofs.Config.Partial
import Harvest.Proofs.Frame.RoundTrip
import Harvest.Proofs.Session.Turn
import Harvest.Proofs.Session.Budget
import Harvest.Proofs.Session.Windows
import Harvest.Proofs.Retry.Loop
import Harvest.Proofs.Session.Retries
import Harvest.Proofs.Link.Replies
import Harvest.Proofs.Event.Exact
import Harvest.Proofs.Link.Broken
import Harvest.Proofs.Link.Handshake
import Harvest.Proofs.Store.Relays
import Harvest.Proofs.Window.Resolve
import Harvest.Proofs.Log.Folder
