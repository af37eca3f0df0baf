import PiMesh.Js.Map
import PiMesh.Js.Json
import PiMesh.Js.JsonRoundTrip
import PiMesh.Js.JsonSize
import PiMesh.Js.JsonPretty
import PiMesh.Js.Text
import PiMesh.Lib.Transition
import PiMesh.Lib.Files
import PiMesh.Shared.Config
import PiMesh.Protocol.TaskPackage
import PiMesh.Protocol.Types
import PiMesh.Protocol.Envelope
import PiMesh.Protocol.Frames
import PiMesh.Broker.Policy
import PiMesh.Broker.Lease
import PiMesh.Broker.State
import PiMesh.Broker.Rooms
import PiMesh.Broker.Mailbox
import PiMesh.Broker.Delivery
import PiMesh.Broker.Broker
import PiMesh.Broker.Events
import PiMesh.Broker.Reference
import PiMesh.Extension.Inbound
import PiMesh.Proofs.Cast
import PiMesh.Proofs.RoomTables
import PiMesh.Proofs.Effects
import PiMesh.Proofs.Handlers
import PiMesh.Proofs.Steps
import PiMesh.Proofs.Lease
import PiMesh.Proofs.Membership
import PiMesh.Proofs.Hello
import PiMesh.Proofs.Refusal
import PiMesh.Proofs.Rules
import PiMesh.Proofs.Forms
import PiMesh.Proofs.Mail
import PiMesh.Proofs.Provenance
import PiMesh.Proofs.Deliveries
import PiMesh.Proofs.Known
import PiMesh.Proofs.Stranded
import PiMesh.Proofs.Control
import PiMesh.Proofs.Force
import PiMesh.Proofs.Authenticity
import PiMesh.Proofs.FanOut
import PiMesh.Client.Frames
import PiMesh.Client.Pending
import PiMesh.Client.State
import PiMesh.Client.Connection
import PiMesh.Client.Requests
import PiMesh.Client.OnFrame
import PiMesh.Client.Events
import PiMesh.Client.Reference
import PiMesh.Client.Control
import PiMesh.Proofs.Links
import PiMesh.Proofs.Turns
import PiMesh.Proofs.Reconnect
import PiMesh.Proofs.Dialing
import PiMesh.Proofs.OneSocket
import PiMesh.Proofs.Desk
import PiMesh.Proofs.Waits
import PiMesh.Proofs.Calls
import PiMesh.Proofs.Unsent
import PiMesh.Proofs.Closing
import PiMesh.Proofs.Missions
import PiMesh.Proofs.Replies
import PiMesh.Proofs.Verdicts
import PiMesh.Proofs.Requests
import PiMesh.Proofs.Callers
import PiMesh.Extension.Ledger
import PiMesh.Broker.Lock
import PiMesh.Cli.Lease
import PiMesh.Extension.Tools
import PiMesh.Extension.Content
import PiMesh.Extension.Buffers
import PiMesh.Extension.Session
import PiMesh.OpenCode.Inbound
import PiMesh.Extension.InjectionGuard
import PiMesh.Extension.Reclaim
import PiMesh.Shared.Identity
import PiMesh.Proofs.Ledger
import PiMesh.Proofs.SingleBroker
import PiMesh.Proofs.Trailer
import PiMesh.Proofs.RoomChoice
import PiMesh.Proofs.Passage
import PiMesh.Proofs.ArrivalOrder
import PiMesh.Proofs.Reads
import PiMesh.Proofs.Receipts
import PiMesh.Proofs.Redelivery
import PiMesh.Proofs.Renaming
import PiMesh.Proofs.Reclaim
import PiMesh.Proofs.Identity
import PiMesh.Lib.TokenBucket
import PiMesh.Broker.PolicyFile
import PiMesh.Shared.ProjectRoom
import PiMesh.Proofs.Accounting
import PiMesh.Proofs.Rates
import PiMesh.Proofs.Policy
import PiMesh.Proofs.CapRoute
import PiMesh.Proofs.RoomScope
import PiMesh.Proofs.RoomRestart
import PiMesh.Extension.Handoff
import PiMesh.Proofs.Handoff
import PiMesh.Lib.Utf8
import PiMesh.Proofs.Chunks
import PiMesh.Extension.Upkeep
import PiMesh.Proofs.Holdings
import PiMesh.Proofs.Aliases
import PiMesh.Proofs.Upkeep
import PiMesh.Extension.Batching
import PiMesh.Proofs.Batching
import PiMesh.Extension.Guards
import PiMesh.Proofs.Guards
import PiMesh.Client.PendingTimers
import PiMesh.Proofs.PendingTimers
import PiMesh.Lib.Hosted
import PiMesh.Extension.Interrupt
import PiMesh.Proofs.Interrupt
import PiMesh.Extension.Ctl
import PiMesh.Proofs.Ctl
import PiMesh.Proofs.TaskPackage
import PiMesh.Cli.Send
import PiMesh.Proofs.Refs
import PiMesh.Js.Value
import PiMesh.Extension.Append
import PiMesh.Proofs.HashOnly
import PiMesh.Shared.LoadConfig
import PiMesh.Proofs.StartConfig
import PiMesh.Js.Search
import PiMesh.Proofs.RefPaths
import PiMesh.Js.LowerCase
import PiMesh.Proofs.OneAlias
import PiMesh.Shared.Reservations
import PiMesh.Proofs.Reservations
import PiMesh.Proofs.ProjectRoom
import PiMesh.OpenCode.Runtime
import PiMesh.Proofs.SameStart
import PiMesh.Lib.Regex
import PiMesh.Lib.Replace
import PiMesh.Extension.Transcript
import PiMesh.Proofs.Redaction
import PiMesh.Lib.Utf8Cut
import PiMesh.Proofs.Truncation
import PiMesh.Extension.Renderer
import PiMesh.Proofs.Renderer
import PiMesh.Proofs.History
import PiMesh.Proofs.Follow
import PiMesh.Cli.Args
import PiMesh.Proofs.Args
import PiMesh.Proofs.Hints
import PiMesh.Extension.LedgerRead
import PiMesh.Proofs.Recent
import PiMesh.Js.DateParse
import PiMesh.Extension.TranscriptFiles
import PiMesh.Proofs.Archive
import PiMesh.Proofs.Custody
import PiMesh.Proofs.Aloof
import PiMesh.Proofs.Budgets
import PiMesh.Proofs.Holders
import PiMesh.Proofs.Moves
import PiMesh.Proofs.Staying
